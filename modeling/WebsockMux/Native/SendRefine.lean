import WebsockMux.Native.SendDirection
import WebsockMux.Native.WellFormed

/-!
# The session refines the send direction

For one stream identifier, the memory of a session is a `SendDirection` (`Memory.sendDirection`),
an access is a `SendEvent` (`Access.sendEvent`) and a function in progress has a `SendRole`
(`Task.sendRole`). Every step of a function is a step of its role (`Task.sendStep`).
-/

set_option autoImplicit false

namespace WebsockMux.Native

open WebsockMux.Lib WebsockMux.Proto

/-! ## The direction of an identifier -/

/-- The item of a frame in the send direction of `id`. -/
def sendItem (id : StreamId) : Frame → Option SendItem
  | .stream i data fin => if i = id then some (.stream data fin) else none
  | .resetStream i _ => if i = id then some .reset else none
  | _ => none

/-- The send direction of an identifier in a send table, with the parts that lie elsewhere. -/
def SendTable.direction (id : StreamId) (allocated : Bool) (log : List SendItem) (dead : Bool)
    (s : SendTable) : SendDirection where
  allocated := allocated
  registered := s.registered.count id
  isOpen := decide (id ∈ s.flows)
  cell := s.cell id
  log := log
  dead := dead

/-- The send direction of an identifier. -/
def Memory.sendDirection (cfg : Config) (id : StreamId) (m : Memory) : SendDirection :=
  m.sends.direction id (decide (id.counter < m.ids.frontier cfg id))
    (m.chan.admitted.filterMap (sendItem id)) m.flags.shutdownStarted

/-- An event of the direction of `i`, seen from `id`. -/
def SendEvent.on (i id : StreamId) (e : SendEvent) : SendEvent := if i = id then e else .none

/-- The event of a frame that is put into the queue. -/
def frameEvent (id : StreamId) (f : Frame) : SendEvent :=
  match sendItem id f with
  | some x => .item x
  | none => .none

/-- The event of an access to the send table. -/
def SendAccess.event (id : StreamId) : SendAccess → SendEvent
  | .register i => .on i id .register
  | .remove i => .on i id .remove
  | .clear => .clear
  | .updateMax i max => .on i id (.updateMax max)
  | .selectApi i mode => .on i id (.selectApi mode)
  | .setOperation i b => .on i id (.setOperation b)
  | .reserve i n => .on i id (.reserve n)
  | .release i n => .on i id (.release n)
  | .finish i => .on i id .finish

/-- The event of an access. -/
def Access.sendEvent (cfg : Config) (m : Memory) (id : StreamId) : Access → SendEvent
  | .flag .shutdownStarted => .shutdown
  | .id a => .advance (decide (id.counter < (m.ids.apply a).frontier cfg id))
  | .send a => a.event id
  | .handle (.new i _) => .on i id .share
  | .handle (.sendData _ f) => frameEvent id f
  | .handle (.sendFin _ f) => frameEvent id f
  | .chan (.publish f) => frameEvent id f
  | .chan (.trySend f) => frameEvent id f
  | .accept (.push i (some _)) => .on i id .share
  | _ => .none

/-- A counter moves forward. -/
def Ids.Advances (x : Ids) : IdAccess → Prop
  | .fetchAdd _ => True
  | .peer id => x.nextPeer id.dir ≤ id.counter ∧ id.val ≤ VarInt.max

theorem Ids.next_fetchAdd (x : Ids) (dir d : StreamDir) :
    (x.apply (.fetchAdd dir)).next d = if d = dir then x.next d + 1 else x.next d := by
  cases dir <;> cases d <;> rfl

theorem Ids.nextPeer_fetchAdd (x : Ids) (dir d : StreamDir) :
    (x.apply (.fetchAdd dir)).nextPeer d = x.nextPeer d := by
  cases dir <;> cases d <;> rfl

theorem Ids.next_peer (x : Ids) (id : StreamId) (d : StreamDir) :
    (x.apply (.peer id)).next d = x.next d := by
  cases hi : id.dir <;> cases d <;> simp [Ids.apply, Ids.next, hi]

theorem Ids.nextPeer_peer {x : Ids} {id : StreamId} (h : id.val ≤ VarInt.max) (d : StreamDir) :
    (x.apply (.peer id)).nextPeer d = if d = id.dir then id.counter + 1 else x.nextPeer d := by
  cases hi : id.dir <;> cases d <;>
    simp [Ids.apply, Ids.nextPeer, hi, Limits.saturatingAdd_counter h]

/-- Frontiers do not move back. -/
theorem Ids.frontier_le {x : Ids} {a : IdAccess} (h : x.Advances a) (cfg : Config)
    (id : StreamId) : x.frontier cfg id ≤ (x.apply a).frontier cfg id := by
  unfold frontier
  cases a with
  | fetchAdd dir =>
      rw [next_fetchAdd, nextPeer_fetchAdd]
      split_ifs
      · exact Nat.le_succ _
      · exact Nat.le_refl _
      · exact Nat.le_refl _
  | peer i =>
      rw [next_peer, nextPeer_peer h.2]
      split_ifs with hs hd
      · exact Nat.le_refl _
      · rw [hd]
        exact h.1.trans (Nat.le_succ _)
      · exact Nat.le_refl _

section Views

variable {id : StreamId} {allocated : Bool} {log : List SendItem} {dead : Bool}

theorem SendDirection.apply_on (d : SendDirection) (i : StreamId) (e : SendEvent) :
    d.apply (e.on i id) = if i = id then d.apply e else d := by
  unfold SendEvent.on
  split_ifs <;> rfl

/-- An access to the cell of one stream. -/
theorem SendTable.direction_modify (s : SendTable) (i : StreamId) (g : SendCell → SendCell) :
    (s.modify i g).direction id allocated log dead =
      if i = id then { s.direction id allocated log dead with cell := g (s.cell id) }
      else s.direction id allocated log dead := by
  split_ifs with hi
  · subst hi
    simp only [SendTable.direction, SendTable.modify, Function.update_self]
    rfl
  · simp only [SendTable.direction, SendTable.modify, Function.update_of_ne (Ne.symm hi)]
    rfl

/-- The direction after an access to the send table. -/
theorem SendTable.direction_apply (s : SendTable) (a : SendAccess) :
    (s.apply a).direction id allocated log dead =
      (s.direction id allocated log dead).apply (a.event id) := by
  cases a with
  | register i =>
      rw [SendAccess.event, SendDirection.apply_on]
      split_ifs with hi
      · subst hi
        simp [SendTable.direction, SendTable.apply, SendTable.registerSendFlow,
          SendDirection.apply]
      · simp [SendTable.direction, SendTable.apply, SendTable.registerSendFlow, Ne.symm hi,
          hi]
  | remove i =>
      rw [SendAccess.event, SendDirection.apply_on]
      split_ifs with hi
      · subst hi
        simp [SendTable.direction, SendTable.apply, SendTable.removeSendFlow, SendTable.modify,
          SendDirection.apply, SendDirection.close]
      · simp [SendTable.direction, SendTable.apply, SendTable.removeSendFlow, SendTable.modify,
          Ne.symm hi]
  | clear =>
      simp [SendTable.direction, SendTable.apply, SendTable.closeAll, SendAccess.event,
        SendDirection.apply, SendDirection.close]
  | updateMax i max =>
      rw [SendAccess.event, SendDirection.apply_on]
      refine (SendTable.direction_modify s i _).trans ?_
      by_cases hi : i = id
      · subst hi
        simp only [if_true, SendDirection.apply, SendDirection.updateMax, SendTable.direction,
          decide_eq_true_eq]
      · rw [if_neg hi, if_neg hi]
  | _ =>
      rw [SendAccess.event, SendDirection.apply_on]
      exact SendTable.direction_modify s _ _

/-- The direction after a frame is put into the queue. -/
theorem SendTable.direction_frame (s : SendTable) (fs : List Frame) (f : Frame) :
    s.direction id allocated ((fs ++ [f]).filterMap (sendItem id)) dead =
      (s.direction id allocated (fs.filterMap (sendItem id)) dead).apply (frameEvent id f) := by
  unfold frameEvent
  cases hf : sendItem id f with
  | none => simp [hf, SendDirection.apply]
  | some x => simp [hf, SendDirection.apply, SendTable.direction]

/-- **The direction after an access** is the direction after its event. -/
theorem Memory.sendDirection_apply (cfg : Config) (id : StreamId) (m : Memory) {a : Access}
    (ha : ∀ b, a = .id b → m.ids.Advances b) :
    (m.apply a).sendDirection cfg id = (m.sendDirection cfg id).apply (a.sendEvent cfg m id) := by
  cases a with
  | send b => exact SendTable.direction_apply m.sends b
  | id b =>
      have hle := Ids.frontier_le (ha b rfl) cfg id
      have hor : decide (id.counter < (m.ids.apply b).frontier cfg id) =
          (decide (id.counter < m.ids.frontier cfg id) ||
            decide (id.counter < (m.ids.apply b).frontier cfg id)) := by
        by_cases h : id.counter < m.ids.frontier cfg id
        · simp [h, h.trans_le hle]
        · simp [h]
      exact congrArg (fun x => m.sends.direction id x (m.chan.admitted.filterMap (sendItem id))
        m.flags.shutdownStarted) hor
  | flag b => cases b <;> rfl
  | handle b =>
      cases b with
      | new i held =>
          rw [Access.sendEvent, SendDirection.apply_on]
          split_ifs <;> rfl
      | sendData h f => exact SendTable.direction_frame m.sends _ f
      | sendFin h f => exact SendTable.direction_frame m.sends _ f
      | _ => rfl
  | accept b =>
      cases b with
      | push i h =>
          cases h with
          | none => rfl
          | some h =>
              rw [Access.sendEvent, SendDirection.apply_on]
              split_ifs <;> rfl
      | _ => rfl
  | chan b =>
      cases b with
      | publish f => exact SendTable.direction_frame m.sends _ f
      | trySend f => exact SendTable.direction_frame m.sends _ f
      | _ => rfl
  | session clone => cases clone <;> rfl
  | _ => rfl

end Views

/-! ## The role of a function in progress -/

/-- A role in the direction of `i`, seen from `id`. -/
def SendRole.on (i id : StreamId) (r : SendRole) : SendRole := if i = id then r else .none

/-- The API of a writer. -/
def Writer.mode (w : Writer) : Nat := if w.direct then 1 else 2

def Ret.sendRole (id : StreamId) : Ret → SendRole
  | .requestShutdown k => k.sendRole id
  | .protocolError _ _ k => k.sendRole id
  | .releaseHandle _ k => k.sendRole id
  | .closeReceiver _ k => k.sendRole id
  | .dropRecv _ k => k.sendRole id
  | .dropSend _ i k => if i = id then .ref else k.sendRole id
  | .dropTx _ k => k.sendRole id
  | _ => .none

def SendSite.sendRole (id : StreamId) : SendSite → SendRole
  | .openUni i => .on i id .ref
  | .openBi i => .on i id .ref
  | .openCredit i => .on i id .ref
  | .write c => .on c.id id (.op c.mode c.grant)
  | .finish i => .on i id (.op 1 0)
  | .reset i _ => .on i id (.resetting true)
  | .stop _ _ => .none
  | .inboundCredit i bi => if bi then .on i id .token else .none
  | .inboundReset i _ => .on i id (.resetting false)

def TrySite.sendRole (id : StreamId) (k : Ret) : TrySite → SendRole
  | .dropSend _ i => if i = id then .resetting false else k.sendRole id
  | _ => k.sendRole id

def Check.sendRole (id : StreamId) : Check → SendRole
  | .send s => s.sendRole id
  | .trySend s k => s.sendRole id k
  | .writeStart w => .on w.id id (.op w.mode 0)
  | .reserveOpen w => .on w.id id (.op w.mode 0)
  | .noCredit w => .on w.id id (.op w.mode 0)
  | .finishCheck i => .on i id (.op 1 0)
  | .finishOpen i => .on i id (.op 1 0)
  | .shutdownCheck _ i => .on i id (.selected 2)
  | .shutdownOpen _ i => .on i id (.selected 2)
  | .shutdownAgain _ i => .on i id (.selected 2)
  | .dropSend _ i k => if i = id then .resetting false else k.sendRole id

/-- The role of a call before it begins. -/
def SendCall.sendRole (c : SendCall) : SendRole :=
  if c.mode = 0 then .ref else .selected c.mode

/-- **The role of a function in progress** in the send direction of `id`. -/
def Task.sendRole (id : StreamId) : Task → SendRole
  | .anyOf _ c => c.sendRole id
  | .reserve s => s.sendRole id
  | .publish s => s.sendRole id
  | .trySend s k => s.sendRole id k
  | .storeShutdown k => k.sendRole id
  | .cancel k => k.sendRole id
  | .closeAll _ k => k.sendRole id
  | .registerSendFlow _ i => .on i id .token
  | .registerRecvStream i => .on i id .ref
  | .openReturn _ i => .on i id .ref
  | .undoRecv i => .on i id .ref
  | .undoFlow i _ => .on i id .ref
  | .selectApi c => .on c.id id .ref
  | .swapOperation c => .on c.id id c.sendRole
  | .endOperation i => .on i id (.op 0 0)
  | .loadSent w => .on w.id id (.op w.mode 0)
  | .loadMax w _ => .on w.id id (.op w.mode 0)
  | .casSent w _ max => .on w.id id (.cas w.mode max)
  | .waitCredit w => .on w.id id (.op w.mode 0)
  | .release i n _ => .on i id (.op 0 n)
  | .abortSend _ i => .on i id (.op 0 0)
  | .abandon i n => .on i id (.op 0 n)
  | .abandonCancel i => .on i id (.op 0 0)
  | .casFinished i => .on i id (.op 1 0)
  | .finishRemove i => .on i id .finishing
  | .resetStore i _ => .on i id (.op 0 0)
  | .resetRemove i _ => .on i id (.op 0 0)
  | .pollReserve c => .on c.id id (.op c.mode c.grant)
  | .pollPublish c => .on c.id id (.op c.mode c.grant)
  | .shutdownReserve _ i => .on i id (.selected 2)
  | .shutdownPublish _ i => .on i id (.selected 2)
  | .shutdownStore _ i => .on i id .shutting
  | .shutdownRemove _ i => .on i id .shutting
  | .dropSend _ i k => if i = id then .ref else k.sendRole id
  | .dropSendRemove _ i k => if i = id then .ref else k.sendRole id
  | .releaseHandle _ k => k.sendRole id
  | .dropRecv _ k => k.sendRole id
  | .dropRecvSwap _ k => k.sendRole id
  | .closeReceiver _ k => k.sendRole id
  | .tryRegister i bi => if bi then .on i id .token else .none
  | .registerFlow i => .on i id .token
  | .newSend i => .on i id .ref
  | .acceptLock i (some _) => .on i id .ref
  | .acceptSend i (some _) => .on i id .ref
  | .dropTx _ k => k.sendRole id
  | .holdSend _ i => .on i id .ref
  | _ => .none

section Steps

variable {cfg : Config} {m : Memory} {id i : StreamId} {d : SendDirection} {r r' : SendRole}
  {e : SendEvent}

/-- A step in the direction of `i`, seen from `id`. -/
theorem SendDirection.Step.on (h : i = id → d.Step r e r') :
    d.Step (.on i id r) (.on i id e) (.on i id r') := by
  unfold SendRole.on SendEvent.on
  split_ifs with hi
  · exact h hi
  · exact .stay _

theorem SendDirection.Step.on_ends (h : i = id → d.Step r e .none) :
    d.Step (.on i id r) (.on i id e) .none := by
  unfold SendRole.on SendEvent.on
  split_ifs with hi
  · exact h hi
  · exact .stay _

theorem SendDirection.Step.on_starts (h : i = id → d.Step .none e r) :
    d.Step .none (.on i id e) (.on i id r) := by
  unfold SendRole.on SendEvent.on
  split_ifs with hi
  · exact h hi
  · exact .stay _

/-- A quiet step in the direction of `i`, seen from `id`. -/
theorem SendDirection.Step.quiet (h : i = id → d.Step r .none r') :
    d.Step (.on i id r) .none (.on i id r') := by
  unfold SendRole.on
  split_ifs with hi
  · exact h hi
  · exact .stay _

theorem SendDirection.Step.quiet_ends (h : i = id → d.Step r .none .none) :
    d.Step (.on i id r) .none .none := by
  unfold SendRole.on
  split_ifs with hi
  · exact h hi
  · exact .stay _

theorem SendDirection.Step.quiet_starts (h : i = id → d.Step .none .none r) :
    d.Step .none .none (.on i id r) := by
  unfold SendRole.on
  split_ifs with hi
  · exact h hi
  · exact .stay _

@[simp] theorem Ret.sendRole_resume (k : Ret) : k.resume.sendRole id = k.sendRole id := by
  cases k <;> rfl

/-- The role of a continuation is light. -/
theorem Ret.sendRole_light (k : Ret) : (k.sendRole id).light = true := by
  induction k with
  | dropSend h i k ih =>
      unfold Ret.sendRole
      split_ifs
      · rfl
      · exact ih
  | _ => first | assumption | rfl

theorem Writer.mode_ne (w : Writer) : w.mode ≠ 0 := by
  unfold Writer.mode
  split_ifs <;> decide

theorem sendStep_writeLoop (w : Writer) :
    d.Step (.on w.id id (.op w.mode 0)) .none ((writeLoop cfg w).sendRole id) := by
  unfold writeLoop
  split_ifs
  · exact .quiet fun _ => .weaken
  · exact .quiet fun _ => .weaken
  · exact .stay _

theorem sendStep_outOfCredit (w : Writer) :
    d.Step (.on w.id id (.op w.mode 0)) .none ((outOfCredit w).sendRole id) := by
  unfold outOfCredit
  split_ifs
  · exact .stay _
  · exact .stay _

/-- `send_frame` fails. -/
theorem SendSite.sendStep_fail (s : SendSite) :
    d.Step (s.sendRole id) .none ((s.resume cfg false).sendRole id) := by
  cases s with
  | write c => exact .quiet fun _ => .weaken
  | finish i => exact .quiet fun _ => .weaken
  | reset i code => exact .quiet fun _ => .resetFail
  | inboundCredit i bi =>
      cases bi with
      | false => exact .stay _
      | true => exact .quiet_ends fun _ => .refuse
  | inboundReset i code => exact .quiet_ends fun _ => .lower rfl rfl
  | _ => exact .stay _

/-- `try_send_frame` fails. -/
theorem TrySite.sendStep_fail (k : Ret) (s : TrySite) :
    d.Step (s.sendRole id k) .none ((s.resume k false).sendRole id) := by
  cases s with
  | dropSend h i =>
      show d.Step (if i = id then .resetting false else k.sendRole id) .none (k.sendRole id)
      split_ifs
      · exact .lower rfl k.sendRole_light
      · exact .stay _
  | _ => exact .stay _

/-- A check has decided. -/
theorem Check.sendStep (c : Check) (b : Bool) :
    d.Step (c.sendRole id) .none ((c.resume cfg b).sendRole id) := by
  cases c with
  | send s =>
      cases b with
      | false => exact .stay _
      | true => exact s.sendStep_fail
  | trySend s k =>
      cases b with
      | false => exact .stay _
      | true => exact s.sendStep_fail k
  | writeStart w =>
      cases b with
      | false => exact sendStep_writeLoop w
      | true => exact .quiet fun _ => .weaken
  | reserveOpen w =>
      cases b with
      | false => exact .stay _
      | true => exact sendStep_outOfCredit w
  | noCredit w =>
      cases b with
      | false =>
          simp only [Check.resume]
          split_ifs
          · exact .stay _
          · exact .quiet fun _ => .weaken
      | true => exact .quiet fun _ => .weaken
  | finishCheck i =>
      cases b with
      | false => exact .stay _
      | true => exact .quiet fun _ => .weaken
  | finishOpen i =>
      cases b with
      | false => exact .stay _
      | true => exact .quiet fun _ => .weaken
  | shutdownCheck h i => cases b <;> exact .stay _
  | shutdownOpen h i =>
      cases b with
      | false => exact .stay _
      | true => exact .quiet_ends fun _ => .lower rfl rfl
  | shutdownAgain h i =>
      cases b with
      | false => exact .stay _
      | true => exact .quiet_ends fun _ => .lower rfl rfl
  | dropSend h i k =>
      cases b with
      | false => exact .stay _
      | true =>
          show d.Step (if i = id then .resetting false else k.sendRole id) .none (k.sendRole id)
          split_ifs
          · exact .lower rfl k.sendRole_light
          · exact .stay _

theorem frameEvent_stream (data : List UInt8) (fin : Bool) :
    frameEvent id (.stream i data fin) = .on i id (.item (.stream data fin)) := by
  by_cases hi : i = id <;> simp [frameEvent, sendItem, SendEvent.on, hi]

theorem frameEvent_reset (code : Nat) :
    frameEvent id (.resetStream i code) = .on i id (.item .reset) := by
  by_cases hi : i = id <;> simp [frameEvent, sendItem, SendEvent.on, hi]

theorem sendRole_writeLoop (cfg : Config) (id : StreamId) (w : Writer) :
    ∃ mode, (mode = w.mode ∨ mode = 0) ∧
    (writeLoop cfg w).sendRole id = .on w.id id (.op mode 0) := by
  unfold writeLoop
  split_ifs
  · exact ⟨0, .inr rfl, rfl⟩
  · exact ⟨0, .inr rfl, rfl⟩
  · exact ⟨w.mode, .inl rfl, rfl⟩

theorem sendDirection_isOpen (h : id ∈ m.sends.flows) :
    (m.sendDirection cfg id).isOpen = true := decide_eq_true h

/-- A chunk is published: its payload is what was reserved. -/
theorem Chunk.sendStep (c : Chunk) {mode : Nat} (hm : mode = c.mode ∨ mode = 0)
    (ho : c.id ∈ m.sends.flows) :
    (m.sendDirection cfg id).Step (.on c.id id (.op c.mode c.grant)) (frameEvent id c.frame)
      (.on c.id id (.op mode 0)) := by
  have hlen : (c.data.take c.grant).length = c.grant := by simp [c.grant_le]
  rw [Chunk.frame, frameEvent_stream]
  refine .on fun hi => ?_
  have hstep : (m.sendDirection cfg id).Step (.op c.mode (c.data.take c.grant).length)
      (.item (.stream (c.data.take c.grant) false)) (.op mode 0) :=
    .data (sendDirection_isOpen (hi ▸ ho)) c.toWriter.mode_ne hm
  rwa [hlen] at hstep

/-- `send_frame` publishes. -/
theorem SendSite.sendStep_publish (s : SendSite) (h : m.sends.mayPublish (s.frame cfg) = true) :
    (m.sendDirection cfg id).Step (s.sendRole id) (frameEvent id (s.frame cfg))
      ((s.resume cfg true).sendRole id) := by
  cases s with
  | write c =>
      obtain ⟨mode, hm, hr⟩ := sendRole_writeLoop cfg id c.rest
      rw [SendSite.resume, hr]
      exact c.sendStep hm (of_decide_eq_true h)
  | finish i =>
      rw [SendSite.frame, frameEvent_stream]
      exact .on fun hi => .fin (sendDirection_isOpen (hi ▸ of_decide_eq_true h))
  | reset i code =>
      rw [SendSite.frame, frameEvent_reset]
      exact .on fun _ => .reset
  | inboundReset i code =>
      rw [SendSite.frame, frameEvent_reset]
      exact .on_ends fun _ => .resetBare rfl
  | stop i code => exact .stay _
  | inboundCredit i bi => cases bi <;> exact .stay _
  | _ => exact .stay _

/-- `try_send_frame` succeeds. -/
theorem TrySite.sendStep_sent (k : Ret) (s : TrySite) :
    d.Step (s.sendRole id k) (frameEvent id s.frame) ((s.resume k true).sendRole id) := by
  cases s with
  | dropSend h i =>
      rw [TrySite.frame, frameEvent_reset]
      show d.Step (if i = id then .resetting false else k.sendRole id) _ (k.sendRole id)
      unfold SendEvent.on
      split_ifs
      · exact .resetBare k.sendRole_light
      · exact .stay _
  | _ => exact .stay _

/-- A stream that is dropped without a reset. -/
theorem sendStep_drop (k : Ret) :
    d.Step (if i = id then .ref else k.sendRole id) .none (k.sendRole id) := by
  split_ifs
  · exact .lower rfl k.sendRole_light
  · exact .stay _

theorem sendStep_acceptDrop (h : Option Nat) :
    ((acceptDrop i h).resume).sendRole id = Task.sendRole id (.acceptSend i h) := by
  cases h <;> rfl

theorem SendCall.sendRole_selected (c : SendCall) (hm : c.mode ≠ 0) (id : StreamId) :
    c.selected.sendRole id = .on c.id id (.selected c.mode) ∨ c.selected.sendRole id = .none := by
  cases c with
  | reset i code => exact absurd rfl hm
  | write w =>
      left
      show SendRole.on w.id id (if _ then _ else _) = _
      rw [if_neg hm]
      rfl
  | finish i => exact .inl rfl
  | pollFlush h i => exact .inr rfl
  | pollShutdown h i => exact .inl rfl

theorem SendCall.sendRole_bare (c : SendCall) : c.sendRole.bare = true := by
  unfold SendCall.sendRole
  split_ifs <;> rfl

/-- The guard is taken. -/
theorem SendCall.sendStep_body (c : SendCall) (hg : c.guarded = true)
    (h : c.id = id → d.cell.operation = false) :
    d.Step (.on c.id id c.sendRole) (.on c.id id (.setOperation true)) (c.body.sendRole id) := by
  cases c with
  | write w =>
      have hm : (SendCall.write w).mode = w.mode := rfl
      rw [SendCall.sendRole, if_neg (hm ▸ w.mode_ne), hm]
      simp only [SendCall.body]
      split_ifs
      · exact .on fun hi => .begin (h hi) (.inl rfl)
      · exact .on fun hi => .begin (h hi) (.inr rfl)
      · exact .on fun hi => .begin (h hi) (.inl rfl)
  | finish i => exact .on fun hi => .begin (h hi) (.inl rfl)
  | reset i code =>
      simp only [SendCall.body]
      split_ifs
      · exact .on fun hi => .beginReset (h hi)
      · exact .on fun hi => .beginReset (h hi)
  | pollFlush x i => cases hg
  | pollShutdown x i => cases hg

theorem sendRole_granted (c : Chunk) :
    (granted c).sendRole id = .on c.id id (.op c.mode c.grant) := by
  unfold granted
  split_ifs <;> rfl

/-- The function that moves a frontier past an identifier gets the right to register it. -/
theorem sendStep_allocate {a : IdAccess} (h0 : ¬ i.counter < m.ids.frontier cfg i)
    (h1 : i.counter < (m.ids.apply a).frontier cfg i) :
    (m.sendDirection cfg id).Step .none
      (.advance (decide (id.counter < (m.ids.apply a).frontier cfg id))) (.on i id .token) := by
  unfold SendRole.on
  split_ifs with hi
  · subst hi
    rw [decide_eq_true h1]
    exact .allocate (decide_eq_false h0)
  · exact .advance _ _

theorem allocate_fetchAdd {dir : StreamDir}
    (h : StreamId.new (m.ids.next dir) cfg.isServer dir = .ok i) :
    ¬ i.counter < m.ids.frontier cfg i ∧
      i.counter < (m.ids.apply (.fetchAdd dir)).frontier cfg i := by
  obtain ⟨hc, hs, hd, -⟩ := StreamId.new_ok h
  rw [Ids.frontier, if_pos hs, Ids.frontier, if_pos hs, Ids.next_fetchAdd, hd, if_pos rfl, hc]
  omega

theorem allocate_peer (hs : i.initiatorIsServer ≠ cfg.isServer) (hv : i.val ≤ VarInt.max)
    (h : m.ids.validatePeerStreamId i = true) :
    ¬ i.counter < m.ids.frontier cfg i ∧ i.counter < (m.ids.apply (.peer i)).frontier cfg i := by
  have hle : m.ids.nextPeer i.dir ≤ i.counter := of_decide_eq_true h
  rw [Ids.frontier, if_neg hs, Ids.frontier, if_neg hs, Ids.nextPeer_peer hv, if_pos rfl]
  omega

theorem not_mem_of_refuses (h : m.sends.refuses cfg i = none) : i ∉ m.sends.flows := by
  unfold SendTable.refuses at h
  split_ifs at h
  assumption

/-- Streams that other functions can get hold of are registered. -/
structure Memory.SharedRegistered (m : Memory) : Prop where
  handles : ∀ x ∈ m.handles, x.id ∈ m.sends.registered
  accept : ∀ p ∈ m.accept.bi, p.2 ∈ m.sends.registered

theorem Memory.SharedRegistered.count_pos (hsh : m.SharedRegistered) {x : Nat}
    {rest : List (Nat × StreamId)} (h : m.accept.bi = (x, i) :: rest) :
    0 < (m.sendDirection cfg i).registered :=
  List.count_pos_iff.2 (hsh.accept (x, i) (by rw [h]; exact List.mem_cons_self))

/-- **Every step of a function is a step of its role.** -/
theorem Task.sendStep {t t' : Task} {a : Access} (hwf : t.WF cfg) (hsh : m.SharedRegistered)
    (h : t.next cfg m = some (a, t')) :
    (m.sendDirection cfg id).Step (t.sendRole id) (a.sendEvent cfg m id) (t'.sendRole id) := by
  replace h := Task.steps_of_next h
  induction h with
  | anyOfNil c | anyOfSet f fs c | anyOfLast f c => exact c.sendStep _
  | reserveClosed s | unpublished s => exact s.sendStep_fail
  | publish s hm => exact s.sendStep_publish hm
  | trySend s k => exact s.sendStep_sent k
  | trySendFull s k => exact s.sendStep_fail k
  | storeShutdown | swapShutdown => exact .shutdown _
  | cancel | closeAllAgain | releaseHandle | closeReceiver | dropTx =>
      rw [Ret.sendRole_resume]
      exact .stay _
  | closeAll c k =>
      cases c with
      | closeFlows =>
          simp only [CloseStep.next, Ret.sendRole_resume]
          exact .clear _
      | _ => exact .stay _
  | fetchAdd dir i hnew =>
      obtain ⟨h0, h1⟩ := allocate_fetchAdd hnew
      exact sendStep_allocate h0 h1
  | fetchAddFailed => exact .advance _ _
  | registerRefused | flowRefused => exact .quiet_ends fun _ => .refuse
  | registerUni i href | registerBi i href | registerFlow i href =>
      exact .on fun hi => .register (decide_eq_false (hi ▸ not_mem_of_refuses href))
  | openReturnUni | openReturnBi => exact .on_ends fun _ => .share rfl
  | newSend => exact .on fun _ => .share rfl
  | undoFlowBi | undoFlowUni => exact .on_ends fun _ => .undoRemove
  | selectApi c h0 =>
      have hm : c.mode ≠ 0 := hwf
      rcases c.sendRole_selected hm id with hr | hr
      · rw [hr]
        exact .on fun hi => .select (hi ▸ h0) hm
      · rw [hr]
        exact .on_ends fun hi => .selectOnly (hi ▸ h0)
  | selectApiSame c h1 =>
      have hm : c.mode ≠ 0 := hwf
      rcases c.sendRole_selected hm id with hr | hr
      · rw [hr]
        exact .quiet fun hi => .selectSame (hi ▸ h1) hm
      · rw [hr]
        exact .quiet_ends fun _ => .lower rfl rfl
  | operationBusy c => exact .quiet_ends fun _ => .lower c.sendRole_bare rfl
  | swapOperation c hop =>
      have hfree : c.id = id → (m.sendDirection cfg id).cell.operation = false := by
        rintro rfl
        exact Bool.eq_false_of_not_eq_true hop
      exact c.sendStep_body hwf hfree
  | endOperation => exact .on_ends fun _ => .endOperation
  | outOfCredit w => exact sendStep_outOfCredit w
  | loadMax => exact .quiet fun hi => hi ▸ .loadMax
  | casSent w sent max hsent =>
      have hlt : sent < max := hwf
      rw [sendRole_granted]
      refine .on fun hi => .reserve ?_
      have hs : (m.sendDirection cfg id).cell.sentData = sent := hi ▸ hsent
      have hg : (w.chunk cfg sent max).grant ≤ max - sent := Nat.min_le_left _ _
      omega
  | casSentFailed => exact .quiet fun _ => .casFail
  | release | releaseAbort => exact .on fun _ => .release
  | abandon i n =>
      show (m.sendDirection cfg id).Step (.on i id (.op 0 n)) .shutdown (.on i id (.op 0 0))
      unfold SendRole.on
      split_ifs
      · exact .leak
      · exact .shutdown _
  | alreadyFinished | pollReserveWait | pollReserveClosed | pollUnpublished =>
      exact .quiet fun _ => .weaken
  | casFinished | resetStore => exact .on fun _ => .finish
  | finishRemove => exact .on fun _ => .finRemove
  | resetRemove => exact .on fun _ => .resetRemove
  | pollPublish c ho => exact c.sendStep (.inr rfl) ho
  | selectApiRefused | shutdownQueued | shutdownReserveWait | shutdownReserveClosed
  | shutdownUnpublished | holdSend => exact .quiet_ends fun _ => .lower rfl rfl
  | shutdownPublish k i ho =>
      simp only [Access.sendEvent, frameEvent_stream]
      exact .on fun hi => .shutFin (sendDirection_isOpen (hi ▸ ho))
  | shutdownStore => exact .on fun _ => .shutFinish
  | shutdownRemove => exact .on_ends fun _ => .shutRemove
  | dropSend x i k => exact sendStep_drop k
  | dropSendRemove x i k =>
      show (m.sendDirection cfg id).Step (if i = id then .ref else k.sendRole id) (.on i id .remove)
        (if i = id then .resetting false else k.sendRole id)
      unfold SendEvent.on
      split_ifs
      · exact .dropRemove
      · exact .stay _
  | validatePeer i bi hval =>
      obtain ⟨hs, -, hv⟩ := hwf
      obtain ⟨h0, h1⟩ := allocate_peer hs hv hval
      cases bi with
      | false => exact .advance _ _
      | true => exact sendStep_allocate h0 h1
  | tryRefused i bi =>
      cases bi with
      | false => exact .stay _
      | true => exact .quiet_ends fun _ => .refuse
  | acceptLock i x | acceptFull i x => cases x <;> exact .stay _
  | acceptLockGone i x | acceptClosed i x =>
      rw [sendStep_acceptDrop]
      cases x <;> exact .stay _
  | acceptSend i x =>
      cases x with
      | none => exact .stay _
      | some x => exact .on_ends fun _ => .share rfl
  | stopFlow i code ho => exact .on_starts fun hi => .stopRemove (sendDirection_isOpen (hi ▸ ho))
  | updateMax i max =>
      show (m.sendDirection cfg id).Step .none (.on i id (.updateMax max)) .none
      unfold SendEvent.on
      split_ifs
      · exact .updateMax _ _
      · exact .stay _
  | acceptBi x i rest hacc | drainBi x i rest hacc =>
      exact .quiet_starts fun hi => .acquire (hi ▸ hsh.count_pos hacc)
  | _ =>
      -- the other functions have no part in the direction
      exact .stay _

/-- A function that is cancelled. -/
theorem Task.sendStep_cancelled {t t' : Task} (h : t.cancelled = some t') :
    d.Step (t.sendRole id) .none (t'.sendRole id) := by
  cases t with
  | reserve s =>
      cases s with
      | openUni i =>
          cases h
          exact .quiet_ends fun _ => .lower rfl rfl
      | openBi i =>
          cases h
          exact .quiet_ends fun _ => .lower rfl rfl
      | openCredit i =>
          cases h
          exact .quiet_ends fun _ => .lower rfl rfl
      | write c =>
          cases h
          exact .quiet fun _ => .weaken
      | finish i =>
          cases h
          exact .quiet fun _ => .weaken
      | reset i code =>
          cases h
          exact .quiet fun _ => .resetFail
      | stop i code =>
          cases h
          exact .stay _
      | inboundCredit i bi => cases h
      | inboundReset i code => cases h
  | waitCredit w =>
      cases h
      exact .quiet fun _ => .weaken
  | _ => cases h <;> exact .stay _

/-- A function of the inbound task that is dropped with its loop. -/
theorem Task.sendStep_aborted {t t' : Task} (h : t.aborted = some t') :
    d.Step (t.sendRole id) .none (t'.sendRole id) := by
  cases t with
  | reserve s =>
      cases s with
      | inboundCredit i bi =>
          cases h
          cases bi with
          | false => exact .stay _
          | true => exact .quiet_ends fun _ => .refuse
      | inboundReset i code =>
          cases h
          exact .quiet_ends fun _ => .lower rfl rfl
      | _ => cases h
  | acceptLock i x =>
      cases h
      rw [sendStep_acceptDrop]
      cases x <;> exact .stay _
  | closeAll c k =>
      cases c <;> cases h <;> rw [Ret.sendRole_resume] <;> exact .stay _
  | _ => cases h

theorem Task.sendRole_timedOut {t t' : Task} (h : t.timedOut = some t') :
    t.sendRole id = .none ∧ t'.sendRole id = .none := by
  cases t <;> cases h <;> exact ⟨rfl, rfl⟩

theorem sendRole_handleFrame (f : Frame) : (handleFrame cfg f).sendRole id = .none := by
  cases f <;> simp only [handleFrame] <;> (try split_ifs) <;> rfl

theorem Turn.sendRole {v : View} {t t' : Task} {fs : List Frame} {b : Bool}
    (h : Turn cfg v t t' fs b) : t.sendRole id = .none ∧ t'.sendRole id = .none := by
  cases h with
  | frame => exact ⟨rfl, sendRole_handleFrame _⟩
  | _ => exact ⟨rfl, rfl⟩

end Steps

end WebsockMux.Native
