import WebsockMux.Native.Borrow
import WebsockMux.Native.Control
import WebsockMux.Native.RecvDirection
import WebsockMux.Native.SendRefine

/-!
# The session refines the receive direction

For one stream identifier, what a session shows is a `RecvDirection` (`View.recvDirection`), an
access is a `RecvChange` (`Access.recvChange`) and a function in progress has a `RecvRole`
(`Task.recvRole`). Every step of a function is a step of its role (`Task.recvStep`).
-/

set_option autoImplicit false

namespace WebsockMux.Native

open WebsockMux.Lib WebsockMux.Proto

/-! ## The direction of an identifier -/

/-- The item of a frame about the receive direction of `id`. -/
def recvItem (id : StreamId) : Frame → Option RecvItem
  | .openBi i => if i = id then some .openBi else none
  | .maxStreamData i max => if i = id then some (.credit max) else none
  | .stopSending i _ => if i = id then some .stop else none
  | _ => none

/-- The receive direction of an identifier in a receive table, with the parts that lie elsewhere:
the first argument has them. -/
def RecvTable.direction (d : RecvDirection) (id : StreamId) (s : RecvTable) : RecvDirection :=
  { d with
    registered := s.registered.count id
    inTable := decide (id ∈ s.streams)
    pending := decide (id ∈ s.pendingCredit)
    cell := s.cell id }

/-- The receive direction of an identifier. -/
def View.recvDirection (cfg : Config) (id : StreamId) (v : View) : RecvDirection where
  own := decide (id.initiatorIsServer = cfg.isServer)
  allocated := decide (id.counter < v.mem.ids.frontier cfg id)
  registered := v.mem.recvs.registered.count id
  inTable := decide (id ∈ v.mem.recvs.streams)
  pending := decide (id ∈ v.mem.recvs.pendingCredit)
  cell := v.mem.recvs.cell id
  log := v.mem.chan.admitted.filterMap (recvItem id)
  got := v.handled.filterMap (sendItem id)
  dead := Doomed v.mem v.tasks
  blocked := Blocked v

/-- A change of the direction of `i`, seen from `id`. -/
def RecvChange.on (i id : StreamId) (e : RecvChange) : RecvChange := if i = id then e else .none

/-- The change by a frame that is put into the queue. -/
def frameChange (id : StreamId) (f : Frame) : RecvChange :=
  match recvItem id f with
  | some x => .item x
  | none => .none

/-- The change by an access to the receive tables. -/
def RecvAccess.change (s : RecvTable) (id : StreamId) : RecvAccess → RecvChange
  | .register i window => .on i id (.register window)
  | .remove i => .on i id .remove
  | .clear => .clear
  | .clearCredit => .clearCredit
  | .stop i => .on i id .stop
  | .swapStop i => .on i id .swapStop
  | .read i r events => .on i id (.read r events)
  | .storeMax i target => .on i id (.storeMax target)
  | .prune bound => .prune (decide (bound ≤ s.pendingCredit.card))
  | .queueCredit bound i target =>
      if i = id then .queueCredit (decide (bound ≤ s.pendingCredit.card)) target
      else .prune (decide (bound ≤ s.pendingCredit.card))
  | .takeCredit i => .on i id .takeCredit
  | .receive i n => .on i id (.receive n)
  | .deliver i e => .on i id (.deliver e)
  | .dropTx i => .on i id .dropTx
  | .closeReceiver i => .on i id .closeReceiver
  | .hold i on => .on i id (.hold on)

/-- The change by an access. -/
def Access.recvChange (cfg : Config) (m : Memory) (id : StreamId) : Access → RecvChange
  | .id a => .advance (decide (id.counter < (m.ids.apply a).frontier cfg id))
  | .recv a => a.change m.recvs id
  | .handle (.sendData _ f) => frameChange id f
  | .handle (.sendFin _ f) => frameChange id f
  | .chan (.publish f) => frameChange id f
  | .chan (.trySend f) => frameChange id f
  | .accept (.push i _) => .on i id .share
  | _ => .none

section Views

variable {cfg : Config} {id : StreamId} {d : RecvDirection}

theorem RecvDirection.apply_on (d : RecvDirection) (i : StreamId) (e : RecvChange) :
    d.apply (e.on i id) = if i = id then d.apply e else d := by
  unfold RecvChange.on
  split_ifs <;> rfl

/-- What is known of the session has no part in a change. -/
theorem RecvDirection.apply_known (d : RecvDirection) (e : RecvChange) (dead blocked : Prop) :
    RecvDirection.apply { d with dead := dead, blocked := blocked } e = d.after e dead blocked := by
  cases e <;> rfl

/-- An access to the cell of one stream. -/
theorem RecvTable.direction_modify (s : RecvTable) (i : StreamId) (g : RecvCell → RecvCell) :
    (s.modify i g).direction d id =
      if i = id then (s.direction d id).modify g else s.direction d id := by
  split_ifs with hi
  · subst hi
    simp only [RecvTable.direction, RecvTable.modify, RecvDirection.modify, Function.update_self]
    rfl
  · simp only [RecvTable.direction, RecvTable.modify, Function.update_of_ne (Ne.symm hi)]
    rfl

theorem RecvTable.mem_pruned (d : RecvDirection) (id : StreamId) (s : RecvTable) (bound : Nat) :
    decide (id ∈ s.pruned bound) =
      (s.direction d id).kept (decide (bound ≤ s.pendingCredit.card)) := by
  unfold RecvTable.pruned RecvDirection.kept RecvTable.direction
  split_ifs with hb <;> simp [hb]

/-- The direction after an access to the receive tables. -/
theorem RecvTable.direction_apply (d : RecvDirection) (id : StreamId) (s : RecvTable)
    (a : RecvAccess) :
    (s.apply a).direction d id = (s.direction d id).apply (a.change s id) := by
  cases a with
  | register i window =>
      rw [RecvAccess.change, RecvDirection.apply_on]
      split_ifs with hi
      · subst hi
        simp [RecvTable.direction, RecvTable.apply, RecvTable.register, RecvDirection.apply]
        rfl
      · simp [RecvTable.direction, RecvTable.apply, RecvTable.register, Ne.symm hi, hi]
        rfl
  | remove i =>
      rw [RecvAccess.change, RecvDirection.apply_on]
      split_ifs with hi
      · subst hi
        simp [RecvTable.direction, RecvTable.apply, RecvDirection.apply]
        rfl
      · simp [RecvTable.direction, RecvTable.apply, Ne.symm hi]
        rfl
  | clear =>
      simp [RecvTable.direction, RecvTable.apply, RecvAccess.change, RecvDirection.apply]
      rfl
  | clearCredit =>
      simp [RecvTable.direction, RecvTable.apply, RecvAccess.change, RecvDirection.apply]
      rfl
  | stop i =>
      rw [RecvAccess.change, RecvDirection.apply_on]
      split_ifs with hi
      · subst hi
        simp [RecvTable.direction, RecvTable.apply, RecvTable.stopRecvStream, RecvTable.modify,
          RecvDirection.apply, RecvDirection.modify]
        rfl
      · simp [RecvTable.direction, RecvTable.apply, RecvTable.stopRecvStream, RecvTable.modify,
          Ne.symm hi]
        rfl
  | prune bound =>
      have hk := s.mem_pruned d id bound
      simp only [RecvTable.apply, RecvAccess.change, RecvDirection.apply]
      rw [← hk]
      rfl
  | queueCredit bound i target =>
      have hk := s.mem_pruned d id bound
      simp only [RecvTable.apply, RecvAccess.change]
      split_ifs with hi
      · subst hi
        simp only [RecvDirection.apply, ← hk]
        simp [RecvTable.direction, RecvTable.queueCredit, RecvTable.modify, RecvDirection.modify]
        rfl
      · simp only [RecvDirection.apply, ← hk]
        simp [RecvTable.direction, RecvTable.queueCredit, RecvTable.modify, Ne.symm hi]
        rfl
  | takeCredit i =>
      rw [RecvAccess.change, RecvDirection.apply_on]
      split_ifs with hi
      · subst hi
        simp [RecvTable.direction, RecvTable.apply, RecvTable.modify, RecvDirection.apply,
          RecvDirection.modify]
        rfl
      · simp [RecvTable.direction, RecvTable.apply, RecvTable.modify, Ne.symm hi]
        rfl
  | _ =>
      rw [RecvAccess.change, RecvDirection.apply_on]
      exact RecvTable.direction_modify s _ _

/-- The direction after a frame is put into the queue. -/
theorem RecvDirection.apply_frame (d : RecvDirection) (fs : List Frame) (f : Frame)
    (hd : d.log = fs.filterMap (recvItem id)) :
    d.apply (frameChange id f) = { d with log := (fs ++ [f]).filterMap (recvItem id) } := by
  unfold frameChange
  cases hf : recvItem id f with
  | none => simp [hf, RecvDirection.apply, ← hd]
  | some x => simp [hf, RecvDirection.apply, hd]

/-- **The direction after an access** is the direction after its change. -/
theorem View.recvDirection_apply {v v' : View} {a : Access} (hm : v'.mem = v.mem.apply a)
    (hh : v'.handled.filterMap (sendItem id) = v.handled.filterMap (sendItem id))
    (ha : ∀ b, a = .id b → v.mem.ids.Advances b) :
    v'.recvDirection cfg id = (v.recvDirection cfg id).after (a.recvChange cfg v.mem id)
      (Doomed v'.mem v'.tasks) (Blocked v') := by
  unfold View.recvDirection
  rw [hm, hh]
  cases a with
  | recv b =>
      have h := RecvTable.direction_apply
        { v.recvDirection cfg id with
          dead := Doomed (v.mem.apply (.recv b)) v'.tasks
          blocked := Blocked v' } id v.mem.recvs b
      exact h.trans (RecvDirection.apply_known (v.recvDirection cfg id) _ _ _)
  | id b =>
      have hle := Ids.frontier_le (ha b rfl) cfg id
      have hor : decide (id.counter < (v.mem.ids.apply b).frontier cfg id) =
          (decide (id.counter < v.mem.ids.frontier cfg id) ||
            decide (id.counter < (v.mem.ids.apply b).frontier cfg id)) := by
        by_cases h : id.counter < v.mem.ids.frontier cfg id
        · simp [h, h.trans_le hle]
        · simp [h]
      simp only [RecvDirection.after, RecvDirection.apply, Access.recvChange, ← hor]
      rfl
  | handle b =>
      cases b with
      | sendData h f =>
          simp only [Access.recvChange, RecvDirection.after]
          rw [RecvDirection.apply_frame _ v.mem.chan.admitted f rfl]
          rfl
      | sendFin h f =>
          simp only [Access.recvChange, RecvDirection.after]
          rw [RecvDirection.apply_frame _ v.mem.chan.admitted f rfl]
          rfl
      | _ => rfl
  | accept b =>
      cases b with
      | push i h =>
          simp only [Access.recvChange, RecvDirection.after]
          rw [RecvDirection.apply_on]
          split_ifs <;> rfl
      | _ => rfl
  | chan b =>
      cases b with
      | publish f =>
          simp only [Access.recvChange, RecvDirection.after]
          rw [RecvDirection.apply_frame _ v.mem.chan.admitted f rfl]
          rfl
      | trySend f =>
          simp only [Access.recvChange, RecvDirection.after]
          rw [RecvDirection.apply_frame _ v.mem.chan.admitted f rfl]
          rfl
      | _ => rfl
  | session clone => cases clone <;> rfl
  | _ => rfl

end Views

/-! ## The role of a function in progress -/

/-- A role in the direction of `i`, seen from `id`. -/
def RecvRole.on (i id : StreamId) (r : RecvRole) : RecvRole := if i = id then r else .none

def Ret.recvRole (id : StreamId) : Ret → RecvRole
  | .requestShutdown k => k.recvRole id
  | .protocolError _ _ k => k.recvRole id
  | .releaseHandle _ k => k.recvRole id
  | .closeReceiver _ k => k.recvRole id
  | .dropRecv i k => if i = id then .ref else k.recvRole id
  | .dropSend _ _ k => k.recvRole id
  | .dropTx _ k => k.recvRole id
  | _ => .none

def SendSite.recvRole (id : StreamId) : SendSite → RecvRole
  | .openBi i => .on i id .opening
  | .openCredit i => .on i id .crediting
  | .stop i _ => .on i id .stopping
  | .inboundCredit i _ => .on i id .crediting
  | _ => .none

def TrySite.recvRole (id : StreamId) (k : Ret) : TrySite → RecvRole
  | .dropRecv i => if i = id then .stopping else k.recvRole id
  | _ => k.recvRole id

def Check.recvRole (id : StreamId) : Check → RecvRole
  | .send s => s.recvRole id
  | .trySend s k => s.recvRole id k
  | .dropSend _ _ k => k.recvRole id
  | _ => .none

/-- **The role of a function in progress** in the receive direction of `id`. -/
def Task.recvRole (id : StreamId) : Task → RecvRole
  | .anyOf _ c => c.recvRole id
  | .reserve s => s.recvRole id
  | .publish s => s.recvRole id
  | .trySend s k => s.recvRole id k
  | .storeShutdown k => k.recvRole id
  | .cancel k => k.recvRole id
  | .closeAll _ k => k.recvRole id
  | .registerSendFlow .bi i => .on i id .token
  | .registerRecvStream i => .on i id .token
  | .openReturn .bi i => .on i id .ref
  | .holdRecv i => .on i id .ref
  | .undoRecv i => .on i id .ref
  | .undoFlow i true => .on i id .ref
  | .dropSend _ _ k => k.recvRole id
  | .dropSendRemove _ _ k => k.recvRole id
  | .releaseHandle _ k => k.recvRole id
  | .read i _ _ => .on i id .reading
  | .storeMax i target => .on i id (.storing target)
  | .queueCredit i target => .on i id (.queueing target)
  | .stopSwap i _ => .on i id .ref
  | .stopMark i _ => .on i id .marking
  | .dropRecv i k => if i = id then .ref else k.recvRole id
  | .dropRecvSwap i k => if i = id then .dropping else k.recvRole id
  | .closeReceiver _ k => k.recvRole id
  | .tryRegister i _ => .on i id .token
  | .registerFlow i => .on i id .ref
  | .newSend i => .on i id .ref
  | .acceptLock i _ => .on i id .ref
  | .acceptSend i _ => .on i id .ref
  | .receiveData i data fin => .on i id (.arriving ⟨data, fin⟩)
  | .deliver i data fin => .on i id (.delivering ⟨data, fin⟩)
  | .removeRecv i => .on i id .ending
  | .dropTx _ k => k.recvRole id
  | .recvReset i => .on i id .resetArrived
  | .holdSend _ i => .on i id .ref
  | _ => .none

section Steps

variable {cfg : Config} {m : Memory} {id i : StreamId} {l : Limits} {d : RecvDirection}
  {r r' : RecvRole} {e : RecvChange} {dead blocked : Prop}

namespace RecvDirection.Step

/-- A step in the direction of `i`, seen from `id`. -/
theorem on (h : i = id → d.Step l dead blocked r e r') :
    d.Step l dead blocked (.on i id r) (.on i id e) (.on i id r') := by
  unfold RecvRole.on RecvChange.on
  split_ifs with hi
  · exact h hi
  · exact .stay _

theorem on_ends (h : i = id → d.Step l dead blocked r e .none) :
    d.Step l dead blocked (.on i id r) (.on i id e) .none := by
  unfold RecvRole.on RecvChange.on
  split_ifs with hi
  · exact h hi
  · exact .stay _

/-- A quiet step in the direction of `i`, seen from `id`. -/
theorem quiet (h : i = id → d.Step l dead blocked r .none r') :
    d.Step l dead blocked (.on i id r) .none (.on i id r') := by
  unfold RecvRole.on
  split_ifs with hi
  · exact h hi
  · exact .stay _

theorem quiet_ends (h : i = id → d.Step l dead blocked r .none .none) :
    d.Step l dead blocked (.on i id r) .none .none := by
  unfold RecvRole.on
  split_ifs with hi
  · exact h hi
  · exact .stay _

theorem quiet_starts (h : i = id → d.Step l dead blocked .none .none r) :
    d.Step l dead blocked .none .none (.on i id r) := by
  unfold RecvRole.on
  split_ifs with hi
  · exact h hi
  · exact .stay _

end RecvDirection.Step

@[simp] theorem Ret.recvRole_resume (k : Ret) : k.resume.recvRole id = k.recvRole id := by
  cases k <;> rfl

/-- The role of a continuation is light. -/
theorem Ret.recvRole_light (k : Ret) : (k.recvRole id).light = true := by
  induction k with
  | dropRecv i k ih =>
      unfold Ret.recvRole
      split_ifs
      · rfl
      · exact ih
  | _ => first | assumption | rfl

/-- **The functions of a role** that is more than a reference. -/
inductive Task.HasRole (id : StreamId) : Task → RecvRole → Prop where
  | light {t : Task} {r : RecvRole} (h : r.light = true) : HasRole id t r
  | token {t : Task} : HasRole id t .token
  | check (fs : List Flag) (s : SendSite) : HasRole id (.anyOf fs (.send s)) (s.recvRole id)
  | slot (s : SendSite) : HasRole id (.reserve s) (s.recvRole id)
  | publish (s : SendSite) : HasRole id (.publish s) (s.recvRole id)
  | stopping {t : Task} : HasRole id t .stopping
  | reading (api : ReadApi) (n : Nat) : HasRole id (.read id api n) .reading
  | storing (target : Nat) : HasRole id (.storeMax id target) (.storing target)
  | queueing (target : Nat) : HasRole id (.queueCredit id target) (.queueing target)
  | marking (code : Nat) : HasRole id (.stopMark id code) .marking
  | dropping (k : Ret) : HasRole id (.dropRecvSwap id k) .dropping
  | arriving (data : List UInt8) (fin : Bool) :
      HasRole id (.receiveData id data fin) (.arriving ⟨data, fin⟩)
  | delivering (data : List UInt8) (fin : Bool) :
      HasRole id (.deliver id data fin) (.delivering ⟨data, fin⟩)
  | ending : HasRole id (.removeRecv id) .ending
  | resetArrived : HasRole id (.recvReset id) .resetArrived

theorem Task.hasRole (id : StreamId) (t : Task) : t.HasRole id (t.recvRole id) := by
  have hret : ∀ k : Ret, t.HasRole id (k.recvRole id) := fun k => .light k.recvRole_light
  have htry : ∀ (s : TrySite) (k : Ret), t.HasRole id (s.recvRole id k) := by
    intro s k
    cases s with
    | dropRecv i =>
        simp only [TrySite.recvRole]
        split_ifs
        · exact .stopping
        · exact hret k
    | _ => exact hret k
  have hon : ∀ {i : StreamId} {r : RecvRole}, (i = id → t.HasRole id r) →
      t.HasRole id (.on i id r) := by
    intro i r hr
    unfold RecvRole.on
    split_ifs with hi
    · exact hr hi
    · exact .light rfl
  cases t with
  | anyOf fs c =>
      cases c with
      | send s => exact .check fs s
      | trySend s k => exact htry s k
      | dropSend x i k => exact hret k
      | _ => exact .light rfl
  | reserve s => exact .slot s
  | publish s => exact .publish s
  | trySend s k => exact htry s k
  | storeShutdown k => exact hret k
  | cancel k => exact hret k
  | closeAll c k => exact hret k
  | dropSend x i k => exact hret k
  | dropSendRemove x i k => exact hret k
  | releaseHandle x k => exact hret k
  | closeReceiver i k => exact hret k
  | dropTx i k => exact hret k
  | registerSendFlow dir i =>
      cases dir with
      | uni => exact .light rfl
      | bi => exact hon fun _ => .token
  | openReturn dir i =>
      cases dir with
      | uni => exact .light rfl
      | bi => exact hon fun _ => .light rfl
  | undoFlow i bi =>
      cases bi with
      | false => exact .light rfl
      | true => exact hon fun _ => .light rfl
  | registerRecvStream i => exact hon fun _ => .token
  | tryRegister i bi => exact hon fun _ => .token
  | read i api n => exact hon fun hi => hi ▸ .reading api n
  | storeMax i target => exact hon fun hi => hi ▸ .storing target
  | queueCredit i target => exact hon fun hi => hi ▸ .queueing target
  | stopMark i code => exact hon fun hi => hi ▸ .marking code
  | dropRecv i k =>
      simp only [Task.recvRole]
      split_ifs
      · exact .light rfl
      · exact hret k
  | dropRecvSwap i k =>
      simp only [Task.recvRole]
      split_ifs with hi
      · exact hi ▸ .dropping k
      · exact hret k
  | receiveData i data fin => exact hon fun hi => hi ▸ .arriving data fin
  | deliver i data fin => exact hon fun hi => hi ▸ .delivering data fin
  | removeRecv i => exact hon fun hi => hi ▸ .ending
  | recvReset i => exact hon fun hi => hi ▸ .resetArrived
  | _ => first | exact .light rfl | exact hon fun _ => .light rfl

/-- A stream is dropped that has nothing to announce. -/
theorem recvStep_drop (k : Ret) :
    d.Step l dead blocked (if i = id then .ref else k.recvRole id) .none (k.recvRole id) := by
  split_ifs
  · exact .lower k.recvRole_light
  · exact .stay _

theorem recvRole_writeLoop (w : Writer) : (writeLoop cfg w).recvRole id = .none := by
  unfold writeLoop
  split_ifs <;> rfl

theorem recvRole_outOfCredit (w : Writer) : (outOfCredit w).recvRole id = .none := by
  unfold outOfCredit
  split_ifs <;> rfl

/-- `send_frame` fails: the session ends. -/
theorem SendSite.recvStep_fail (s : SendSite) (hd : dead) :
    d.Step l dead blocked (s.recvRole id) .none ((s.resume cfg false).recvRole id) := by
  cases s with
  | openBi i => exact .quiet fun _ => .openFail hd
  | openCredit i => exact .quiet fun _ => .creditFail hd
  | stop i code => exact .quiet_ends fun _ => .stopFail hd rfl
  | inboundCredit i bi => cases bi <;> exact .quiet fun _ => .creditFail hd
  | _ => exact .stay _

theorem frameChange_credit (max : Nat) :
    frameChange id (.maxStreamData i max) = .on i id (.item (.credit max)) := by
  by_cases hi : i = id <;> simp [frameChange, recvItem, RecvChange.on, hi]

theorem frameChange_openBi : frameChange id (.openBi i) = .on i id (.item .openBi) := by
  by_cases hi : i = id <;> simp [frameChange, recvItem, RecvChange.on, hi]

theorem frameChange_stop (code : Nat) :
    frameChange id (.stopSending i code) = .on i id (.item .stop) := by
  by_cases hi : i = id <;> simp [frameChange, recvItem, RecvChange.on, hi]

/-- `send_frame` publishes. -/
theorem SendSite.recvStep_publish (s : SendSite) :
    d.Step cfg.limits dead blocked (s.recvRole id) (frameChange id (s.frame cfg))
      ((s.resume cfg true).recvRole id) := by
  cases s with
  | openBi i =>
      rw [SendSite.frame, frameChange_openBi]
      exact .on fun _ => .publishOpen
  | openCredit i =>
      rw [SendSite.frame, frameChange_credit]
      exact .on fun _ => .publishCredit
  | stop i code =>
      rw [SendSite.frame, frameChange_stop]
      exact .on_ends fun _ => .publishStop rfl
  | inboundCredit i bi =>
      rw [SendSite.frame, frameChange_credit]
      cases bi <;> exact .on fun _ => .publishCredit
  | write c =>
      rw [SendSite.resume, recvRole_writeLoop]
      exact .stay _
  | _ => exact .stay _

/-- A `Stream` frame that cannot be published. -/
theorem SendSite.recvStep_unpublished {s : SendSite}
    (h : ¬ m.sends.mayPublish (s.frame cfg) = true) :
    d.Step l dead blocked (s.recvRole id) .none ((s.resume cfg false).recvRole id) := by
  cases s with
  | write c => exact .stay _
  | finish i => exact .stay _
  | _ => exact absurd rfl h

/-- `try_send_frame` fails: the session ends. -/
theorem TrySite.recvStep_fail (k : Ret) (s : TrySite)
    (hd : (s.resume k false).doomed = true → dead) :
    d.Step l dead blocked (s.recvRole id k) .none ((s.resume k false).recvRole id) := by
  cases s with
  | dropRecv i =>
      show d.Step l dead blocked (if i = id then .stopping else k.recvRole id) .none (k.recvRole id)
      split_ifs
      · exact .stopFail (hd rfl) k.recvRole_light
      · exact .stay _
  | _ => exact .stay _

/-- `try_send_frame` succeeds. -/
theorem TrySite.recvStep_sent (k : Ret) (s : TrySite) :
    d.Step l dead blocked (s.recvRole id k) (frameChange id s.frame)
      ((s.resume k true).recvRole id) := by
  cases s with
  | dropRecv i =>
      rw [TrySite.frame, frameChange_stop]
      show d.Step l dead blocked (if i = id then .stopping else k.recvRole id) _ (k.recvRole id)
      unfold RecvChange.on
      split_ifs
      · exact .publishStop k.recvRole_light
      · exact .stay _
  | _ => exact .stay _

/-- A check has decided; a check of `send_frame` found a flag only if the session ends. -/
theorem Check.recvStep (c : Check) (b : Bool) (hd : ∀ s, c = .send s → b = true → dead)
    (ht : (c.resume cfg b).doomed = true → dead) :
    d.Step l dead blocked (c.recvRole id) .none ((c.resume cfg b).recvRole id) := by
  cases c with
  | send s =>
      cases b with
      | false => exact .stay _
      | true => exact s.recvStep_fail (hd s rfl rfl)
  | trySend s k =>
      cases b with
      | false => exact .stay _
      | true => exact s.recvStep_fail k ht
  | writeStart w =>
      cases b with
      | false =>
          rw [Check.resume, recvRole_writeLoop]
          exact .stay _
      | true => exact .stay _
  | reserveOpen w =>
      cases b with
      | false => exact .stay _
      | true =>
          rw [Check.resume, recvRole_outOfCredit]
          exact .stay _
  | noCredit w =>
      cases b with
      | false =>
          simp only [Check.resume]
          split_ifs <;> exact .stay _
      | true => exact .stay _
  | _ => cases b <;> exact .stay _

theorem recvRole_acceptDrop (h : Option Nat) :
    ((acceptDrop i h).resume).recvRole id = .on i id .ref := by
  cases h <;> rfl

/-- The function that moves a frontier past an identifier gets the right to register it. -/
theorem recvStep_allocate {v : View} {a : IdAccess}
    (h0 : ¬ i.counter < v.mem.ids.frontier cfg i)
    (h1 : i.counter < (v.mem.ids.apply a).frontier cfg i) :
    (v.recvDirection cfg id).Step l dead blocked .none
      (.advance (decide (id.counter < (v.mem.ids.apply a).frontier cfg id))) (.on i id .token) := by
  unfold RecvRole.on
  split_ifs with hi
  · subst hi
    rw [decide_eq_true h1]
    exact .allocate (decide_eq_false h0)
  · exact .advance _ _

/-- The streams in the accept queues are registered, and the peer has opened them. -/
structure Memory.SharedRecv (cfg : Config) (m : Memory) : Prop where
  uni : ∀ i ∈ m.accept.uni, i ∈ m.recvs.registered ∧ i.initiatorIsServer ≠ cfg.isServer
  bi : ∀ p ∈ m.accept.bi, p.2 ∈ m.recvs.registered ∧ p.2.initiatorIsServer ≠ cfg.isServer

/-- A function takes a stream from an accept queue. -/
theorem recvStep_acquire {v : View}
    (h : i ∈ v.mem.recvs.registered ∧ i.initiatorIsServer ≠ cfg.isServer) :
    (v.recvDirection cfg id).Step l dead blocked .none .none (.on i id .ref) :=
  .quiet_starts fun hi => by
    subst hi
    exact .acquire (List.count_pos_iff.2 h.1) (decide_eq_false h.2)

/-- The outcome of a read. -/
theorem recvStep_read {v : View} {api : ReadApi} {n : Nat} {r' : RecvStream}
    {left : List RecvEvent} {target : Option Nat}
    (hout : RecvStream.outcome ((v.mem.recvs.cell id).reader.poll cfg.limits
      (v.mem.recvs.hasSender id) api n (v.mem.recvs.cell id).events) = some (r', left, target)) :
    ∃ taken, RecvStream.Reads cfg.limits (v.recvDirection cfg id).hasSender
      (v.recvDirection cfg id).cell.reader (v.recvDirection cfg id).cell.events r' left taken
      target :=
  RecvStream.reads_of_poll hout

/-- Data that is not refused is within the limit of a stream of the table. -/
theorem RecvTable.fits_of_refusesData {s : RecvTable} {n : Nat} (h : s.refusesData id n = none) :
    id ∈ s.streams ∧ (s.cell id).received + n ≤ (s.cell id).maxData := by
  unfold RecvTable.refusesData at h
  split_ifs at h with hin hover hmax
  exact ⟨hin, Nat.le_of_not_lt hmax⟩

/-- **Every step of a function is a step of its role.** -/
theorem Task.recvStep {v : View} {t t' : Task} {a : Access} (hwf : t.WF cfg) (hnm : t.Names cfg)
    (hj : t.Justified v.mem dead) (hsh : v.mem.SharedRecv cfg)
    (hflag : v.mem.flags.isClosed = true → dead) (hrx : v.mem.chan.rxDropped = true → dead)
    (ht : t'.doomed = true → dead)
    (hb : (t.recvRole id).arrives = true → t'.failing = true → blocked)
    (h : t.next cfg v.mem = some (a, t')) :
    (v.recvDirection cfg id).Step cfg.limits dead blocked (t.recvRole id)
      (a.recvChange cfg v.mem id) (t'.recvRole id) := by
  have hclosed : v.mem.flags.closed = true → dead := fun hc => hflag (by
    unfold Flags.isClosed
    rw [hc]
    rfl)
  replace h := Task.steps_of_next h
  induction h with
  | anyOfNil c | anyOfLast f c => exact c.recvStep _ (fun _ _ hb => by cases hb) ht
  | anyOfSet f fs c hf =>
      refine c.recvStep _ ?_ ht
      rintro s rfl -
      exact hflag (Memory.isClosed_of_flag (hj f List.mem_cons_self) hf)
  | reserveClosed s hr => exact s.recvStep_fail (hrx hr)
  | publish s => exact s.recvStep_publish
  | unpublished s hp => exact SendSite.recvStep_unpublished hp
  | trySend s k => exact s.recvStep_sent k
  | trySendFull s k => exact s.recvStep_fail k ht
  | cancel | closeAllAgain | releaseHandle =>
      rw [Ret.recvRole_resume]
      exact .stay _
  | closeAll c k =>
      cases c with
      | clearCredit => exact .clearCredit _ (hclosed hj)
      | clearStreams => exact .clear _ (hclosed hj)
      | closeFlows =>
          simp only [CloseStep.next, Ret.recvRole_resume]
          exact .stay _
      | _ => exact .stay _
  | fetchAdd dir i hnew =>
      obtain ⟨h0, h1⟩ := allocate_fetchAdd hnew
      cases dir with
      | uni => exact .advance _ _
      | bi => exact recvStep_allocate h0 h1
  | fetchAddFailed => exact .advance _ _
  | registerRefused dir i =>
      cases dir with
      | uni => exact .stay _
      | bi => exact .quiet_ends fun _ => .refuse
  | registerRecvStream i =>
      refine .on fun hi => .register ?_
      subst hi
      exact decide_eq_true hnm.1
  | holdRecv => exact .on_ends fun _ => .hold
  | undoRecv => exact .on fun _ => .undoRemove hj
  | selectApi c | selectApiSame c => cases c <;> exact .stay _
  | swapOperation c =>
      cases c <;> simp only [SendCall.body] <;> (try split_ifs) <;> exact .stay _
  | outOfCredit w =>
      rw [recvRole_outOfCredit]
      exact .stay _
  | casSent => exact granted_elim _ (.stay _) (.stay _)
  | readReturn i api n r es hp =>
      refine .on_ends fun hi => ?_
      subst hi
      obtain ⟨taken, hr⟩ := recvStep_read (congrArg RecvStream.outcome hp)
      exact .read hr (.inl rfl)
  | readAgain i api n r es hp =>
      refine .on fun hi => ?_
      subst hi
      obtain ⟨taken, hr⟩ := recvStep_read (congrArg RecvStream.outcome hp)
      exact .read hr (.inr rfl)
  | readGrant i api n r es target hp =>
      refine .on fun hi => ?_
      subst hi
      obtain ⟨taken, hr⟩ := recvStep_read (congrArg RecvStream.outcome hp)
      exact .readGrant hr
  | storeMax => exact .on fun _ => .storeMax
  | creditOverflow i target =>
      show RecvDirection.Step _ _ _ _ (.on i id (.queueing target)) (.prune _) .none
      unfold RecvRole.on
      split_ifs
      · exact .queueFull (ht rfl)
      · exact .prune _ _
  | queueCredit i target hlive =>
      show RecvDirection.Step _ _ _ _ (.on i id (.queueing target))
        (if i = id then _ else _) .none
      unfold RecvRole.on
      split_ifs with hi
      · subst hi
        exact .queue (decide_eq_true hlive.1) hlive.2
      · exact .prune _ _
  | noCredit i target hno =>
      refine .quiet_ends fun hi => .queueSkip ?_
      subst hi
      by_cases hin : i ∈ v.mem.recvs.streams
      · right
        by_contra hs
        exact hno ⟨hin, Bool.eq_false_of_not_eq_true hs⟩
      · exact .inl (decide_eq_false hin)
  | stopAgain => exact .quiet_ends fun _ => .lower rfl
  | stopSwap => exact .on fun _ => .swapStop
  | stopMark i code hin => exact .on fun hi => .mark (decide_eq_true (hi ▸ hin))
  | stopGone i code hin => exact .quiet_ends fun hi => .markSkip (decide_eq_false (hi ▸ hin))
  | dropRecvFinished i k hin hfin =>
      show RecvDirection.Step _ _ _ _ (if i = id then .ref else k.recvRole id) (.on i id .stop)
        (k.recvRole id)
      unfold RecvChange.on
      split_ifs with hi
      · subst hi
        exact .dropFinished hfin k.recvRole_light
      · exact .stay _
  | dropRecv i k =>
      show RecvDirection.Step _ _ _ _ (if i = id then .ref else k.recvRole id) (.on i id .stop)
        (if i = id then .dropping else k.recvRole id)
      unfold RecvChange.on
      split_ifs
      · exact .dropMark
      · exact .stay _
  | dropRecvGone i k => exact recvStep_drop k
  | dropRecvAgain i k hs =>
      show RecvDirection.Step _ _ _ _ (if i = id then .dropping else k.recvRole id) .none
        (k.recvRole id)
      split_ifs with hi
      · subst hi
        exact .dropSkip hs k.recvRole_light
      · exact .stay _
  | dropRecvSwap i k =>
      show RecvDirection.Step _ _ _ _ (if i = id then .dropping else k.recvRole id)
        (.on i id .swapStop) (if i = id then .stopping else k.recvRole id)
      unfold RecvChange.on
      split_ifs
      · exact .dropSwap
      · exact .stay _
  | closeReceiver i k =>
      rw [Ret.recvRole_resume]
      show RecvDirection.Step _ _ _ _ (k.recvRole id) (.on i id .closeReceiver) (k.recvRole id)
      unfold RecvChange.on
      split_ifs
      · exact .closeReceiver _
      · exact .stay _
  | validatePeer i bi hval =>
      obtain ⟨hs, -, hv⟩ := hwf
      obtain ⟨h0, h1⟩ := allocate_peer hs hv hval
      exact recvStep_allocate h0 h1
  | tryRefused => exact .quiet_ends fun _ => .refuse
  | tryRegister => exact .on fun _ => .registerPeer
  | acceptLockGone | acceptClosed =>
      rw [recvRole_acceptDrop]
      exact .stay _
  | acceptFull i x => cases x <;> exact .stay _
  | acceptSend => exact .on_ends fun _ => .share
  | dataRefused i data fin =>
      refine .quiet_ends fun hi => ?_
      have harr : (Task.recvRole id (.receiveData i data fin)).arrives = true := by
        rw [Task.recvRole, RecvRole.on, if_pos hi]
        rfl
      exact .refuseData (ht rfl) (hb harr rfl)
  | stoppedFin i data href hstop =>
      obtain ⟨hin, hmax⟩ := RecvTable.fits_of_refusesData href
      refine .on fun hi => ?_
      subst hi
      exact .receiveStopped (e := ⟨data, true⟩) (decide_eq_true hin) hstop hmax
  | stoppedData i data href hstop =>
      obtain ⟨hin, hmax⟩ := RecvTable.fits_of_refusesData href
      refine .on_ends fun hi => ?_
      subst hi
      exact .receiveStopped (e := ⟨data, false⟩) (decide_eq_true hin) hstop hmax
  | receiveData i data fin href hstop =>
      obtain ⟨hin, hmax⟩ := RecvTable.fits_of_refusesData href
      refine .on fun hi => ?_
      subst hi
      exact .receive (e := ⟨data, fin⟩) (decide_eq_true hin) (Bool.eq_false_of_not_eq_true hstop)
        hmax
  | closedFin i data hopen =>
      refine .quiet fun hi => ?_
      subst hi
      exact .deliverClosed (e := ⟨data, true⟩) hopen
  | closedData i data hopen =>
      refine .quiet_ends fun hi => ?_
      subst hi
      exact .deliverClosed (e := ⟨data, false⟩) hopen
  | eventsFull i data fin =>
      refine .quiet_ends fun hi => ?_
      have harr : (Task.recvRole id (.deliver i data fin)).arrives = true := by
        rw [Task.recvRole, RecvRole.on, if_pos hi]
        rfl
      exact .deliverFull (ht rfl) (hb harr rfl)
  | deliverFin i data hopen =>
      refine .on fun hi => ?_
      subst hi
      exact .deliver (e := ⟨data, true⟩) (Bool.eq_true_of_not_eq_false hopen)
  | deliver i data hopen =>
      refine .on_ends fun hi => ?_
      subst hi
      exact .deliver (e := ⟨data, false⟩) (Bool.eq_true_of_not_eq_false hopen)
  | removeRecv => exact .on_ends fun _ => .removeFin
  | dropTx i k =>
      rw [Ret.recvRole_resume]
      show RecvDirection.Step _ _ _ _ (k.recvRole id) (.on i id .dropTx) (k.recvRole id)
      unfold RecvChange.on
      split_ifs
      · exact .dropTx _
      · exact .stay _
  | recvReset => exact .on_ends fun _ => .resetRemove
  | resetRetired i hin => exact .quiet_ends fun hi => .resetUnknown (decide_eq_false (hi ▸ hin))
  | acceptUni i rest hacc | drainUni i rest hacc =>
      exact recvStep_acquire (hsh.uni i (by rw [hacc]; exact List.mem_cons_self))
  | acceptBi x i rest hacc | drainBi x i rest hacc =>
      exact recvStep_acquire (hsh.bi (x, i) (by rw [hacc]; exact List.mem_cons_self))
  | _ =>
      -- the other functions have no part in the direction
      exact .stay _

/-- A function that is cancelled. -/
theorem Task.recvStep_cancelled {t t' : Task} (ht : t'.doomed = true → dead)
    (h : t.cancelled = some t') :
    d.Step l dead blocked (t.recvRole id) .none (t'.recvRole id) := by
  cases t with
  | reserve s =>
      cases s with
      | openBi i =>
          cases h
          exact .quiet fun _ => .openFail (ht rfl)
      | openCredit i =>
          cases h
          exact .quiet fun _ => .creditFail (ht rfl)
      | stop i code =>
          cases h
          exact .quiet_ends fun _ => .stopFail (ht rfl) rfl
      | inboundCredit i bi => cases h
      | inboundReset i code => cases h
      | _ =>
          cases h
          exact .stay _
  | read i api n =>
      cases h
      exact .quiet_ends fun _ => .readEnd
  | _ => cases h <;> exact .stay _

/-- A function of the inbound task that is dropped with its loop. -/
theorem Task.recvStep_aborted {t t' : Task} (ht : t'.doomed = true → dead)
    (h : t.aborted = some t') :
    d.Step l dead blocked (t.recvRole id) .none (t'.recvRole id) := by
  cases t with
  | reserve s =>
      cases s with
      | inboundCredit i bi =>
          cases h
          exact .quiet fun _ => .creditFail (ht rfl)
      | inboundReset i code =>
          cases h
          exact .stay _
      | _ => cases h
  | acceptLock i x =>
      cases h
      rw [recvRole_acceptDrop]
      exact .stay _
  | closeAll c k =>
      cases c <;> cases h <;> rw [Ret.recvRole_resume] <;> exact .stay _
  | _ => cases h

theorem Task.recvRole_timedOut {t t' : Task} (h : t.timedOut = some t') :
    t.recvRole id = .none ∧ t'.recvRole id = .none := by
  cases t <;> cases h <;> exact ⟨rfl, rfl⟩

end Steps

end WebsockMux.Native
