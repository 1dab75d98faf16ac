import WebsockMux.Lib.Run
import WebsockMux.Wasm.Duty

/-!
# What a step of a browser session can do

`Effect` says once, for every label, what a step does to the state and to the phase of the session
task. The invariants of whole runs are read off it.
-/

set_option autoImplicit false

namespace WebsockMux.Wasm

open WebsockMux.Lib WebsockMux.Proto
open WebsockMux.Native (Limits)

variable {l : Limits} {s s' : Session} {label : Label}

/-- A call of `finish`, `reset` or `stop`. -/
def Label.isTerminal : Label → Bool
  | .finish _ | .reset _ _ | .stop _ _ => true
  | _ => false

/-- A step of the session task. -/
def Label.isTask : Label → Bool
  | .receive _ | .receiveErr | .frame | .out _ | .sent _ | .connClosed => true
  | _ => false

/-- What only the session task changes. -/
def Session.loop (s : Session) : Phase × Option Frame × List Frame × List (List UInt8) :=
  (s.phase, s.pendingFrame, s.taken, s.written)

/-- The session task has left its loop. -/
def Phase.ending : Phase → Bool
  | .closing | .finished => true
  | _ => false

/-- **What a step does.** -/
inductive Effect (l : Limits) (s : Session) : Label → Session → Prop where
  /-- A call of the application. -/
  | call {label : Label} {s' : Session} (hm : Safe false s.mem s'.mem) (hl : s'.loop = s.loop) :
      Effect l s label s'
  /-- A call that may set a flag for a frame that it cannot send. -/
  | terminal {label : Label} {s' : Session} (ht : label.isTerminal = true)
      (hm : Keeps false s.mem s'.mem) (hd : hasSlot s.mem = true → Safe false s.mem s'.mem)
      (hl : s'.loop = s.loop) : Effect l s label s'
  | openBi : Effect l s .openBi (s.withMem (s.mem.openBi l).1)
  /-- A step of the session task that registers no stream; when it closes the session, it leaves its
  loop. -/
  | task {label : Label} {s' : Session} (ht : label.isTask = true) (hm : Safe true s.mem s'.mem)
      (hp : s.phase.ending = false)
      (hc : s'.mem.closed = true → s.mem.closed = true ∨ s'.phase.ending = true) :
      Effect l s label s'
  /-- The session task handles an inbound open. -/
  | inbound {cursor rest : List UInt8} {f : Frame} {id : StreamId}
      (hp : s.phase = .decoding cursor) (hf : Frame.decode 32 cursor = .ok (f, rest))
      (ho : f = .openUni id ∨ f = .openBi id)
      (hm : Safe true ((s.mem.acceptPeerId id).registerInbound l id) (s.mem.handleFrame l f).1) :
      Effect l s .frame (s.handled rest (s.mem.handleFrame l f))
  | finished (hp : s.phase = .closing) : Effect l s .connClosed s.finishTask

/-! ## Calls of the application -/

theorem effect_call {m : Memory} (h : Safe false s.mem m) : Effect l s label (s.withMem m) :=
  .call h rfl

theorem exists_onSession {f : Option Session} (h : s.onSession f = some s') : f = some s' := by
  unfold Session.onSession at h
  split_ifs at h
  exact h

theorem exists_onRecv {id : StreamId} {f : Option Session} (h : s.onRecv id f = some s') :
    f = some s' := by
  unfold Session.onRecv at h
  split_ifs at h
  exact h

theorem exists_onSend {h : Nat} {f : SendStream → Session} (hs : s.onSend h f = some s') :
    ∃ x, s.mem.handles[h]? = some x ∧ f x = s' := by
  obtain ⟨x, hx, rfl⟩ := Option.map_eq_some_iff.1 hs
  refine ⟨x, ?_, rfl⟩
  unfold Session.held at hx
  split at hx
  · next heq =>
      split_ifs at hx
      cases hx
      exact heq
  · cases hx

theorem exists_onSendMut {h : Nat} {f : SendStream → Session} (hs : s.onSendMut h f = some s') :
    ∃ x, s.mem.handles[h]? = some x ∧ f x = s' := by
  unfold Session.onSendMut at hs
  split_ifs at hs
  exact exists_onSend hs

/-! ## Steps of the session task -/

/-- The inner loop only takes items from the channel. -/
theorem collect_pops {K : ParkingChannel Frame → Prop} (hK : ∀ c, K c → K c.pop)
    {maxFrames maxBytes : Nat} {queue frames : List Frame} {c : ParkingChannel Frame}
    {bytes : List UInt8} {batch : Batch}
    (h : collect maxFrames maxBytes queue c bytes frames = some batch) (hc : K c) :
    K batch.chan := by
  induction queue generalizing c bytes frames with
  | nil =>
      cases h
      exact hc
  | cons f queue ih =>
      unfold collect at h
      split_ifs at h
      · cases h
        exact hc
      · split at h
        · cases h
        · split_ifs at h
          · cases h
            exact hK c hc
          · exact ih h (hK c hc)

theorem Calm.ofChan_eq {m : Memory} {b : Bool} {c : ParkingChannel Frame}
    (ha : c.admitted = m.chan.admitted) (ho : c.isOpen = m.chan.isOpen) :
    Calm b m { m with chan := c } :=
  .ofChan (ha ▸ List.prefix_rfl) ho

/-- A message is collected. -/
theorem sendBatch_spec {f : Frame} (h : s.sendBatch l f = some s') :
    Calm true s.mem s'.mem ∧ s'.mem.closed = s.mem.closed := by
  unfold Session.sendBatch at h
  split at h
  · cases h
  · split at h
    · cases h
    · next hb =>
        cases h
        obtain ⟨ha, ho⟩ := collect_pops (K := fun c => c.admitted = s.mem.chan.admitted ∧
          c.isOpen = s.mem.chan.isOpen) (fun _ h => h) hb ⟨rfl, rfl⟩
        exact ⟨.ofChan_eq ha ho, rfl⟩

theorem out_spec {credit : Option StreamId} (h : s.out l credit = some s') :
    Calm true s.mem s'.mem ∧ s'.mem.closed = s.mem.closed := by
  unfold Session.out at h
  split at h
  · split at h
    · exact sendBatch_spec h
    · split at h
      · obtain ⟨hm, hc⟩ := sendBatch_spec h
        have hpop : Calm true s.mem { s.mem with chan := s.mem.chan.pop } := .ofChan_eq rfl rfl
        exact ⟨hpop.trans hm, hc⟩
      · split_ifs at h
        cases h
        exact ⟨.refl true s.mem, rfl⟩
  · split_ifs at h
    obtain ⟨hm, hc⟩ := sendBatch_spec h
    exact ⟨Calm.trans (.ofRecvs (.takeCredit _ _)) hm, hc⟩

/-- An error leaves the loop, and nothing else closes the session. -/
def ClosesOnError (m : Memory) (r : Memory × Except Error Unit) : Prop :=
  r.1.closed = true → m.closed = true ∨ r.2 ≠ .ok ()

theorem closesOnError_of_error {m : Memory} {r : Memory × Except Error Unit} {e : Error}
    (h : r.2 = .error e) : ClosesOnError m r := by
  intro _
  rw [h]
  exact .inr nofun

theorem closesOnError_of_eq {m : Memory} {r : Memory × Except Error Unit}
    (h : r.1.closed = m.closed) : ClosesOnError m r :=
  fun hc => .inl (h ▸ hc)

theorem effect_handled (ht : label.isTask = true) {rest : List UInt8} {r : Memory × Except Error Unit}
    (hm : Calm true s.mem r.1) (hc : ClosesOnError s.mem r) (hp : s.phase.ending = false) :
    Effect l s label (s.handled rest r) := by
  obtain ⟨m, r⟩ := r
  cases r with
  | ok u => exact .task ht hm.safe hp fun h => (hc h).imp_right fun hne => absurd rfl hne
  | error e => exact .task ht hm.safe hp fun _ => .inr rfl

theorem closesOnError_protocolError (m m₁ : Memory) (code : Nat) (reason : String) :
    ClosesOnError m (m₁.protocolError l code reason) :=
  closesOnError_of_error rfl

theorem closesOnError_offerUni (m : Memory) (id : StreamId) :
    ClosesOnError m (m.offerUni l id) := by
  unfold Memory.offerUni
  split_ifs
  · exact closesOnError_of_error rfl
  · exact closesOnError_of_eq rfl
  · exact closesOnError_of_error rfl

theorem closesOnError_offerBi (m : Memory) (id : StreamId) (h : Nat) :
    ClosesOnError m (m.offerBi l id h) := by
  unfold Memory.offerBi
  split_ifs
  · exact closesOnError_of_error rfl
  · exact closesOnError_of_eq rfl
  · exact closesOnError_of_error rfl

theorem closed_deliver (m : Memory) (id : StreamId) (data : List UInt8) (fin : Bool) :
    (m.deliver l id data fin).1.closed = m.closed := by
  rcases deliver_cases (l := l) m id data fin with h | h
  · rw [h]
  · rw [h]

theorem closesOnError_handleStream (m : Memory) (id : StreamId) (data : List UInt8) (fin : Bool) :
    ClosesOnError m (m.handleStream l id data fin) := by
  unfold Memory.handleStream
  split
  · exact closesOnError_protocolError _ _ _ _
  · split
    · exact closesOnError_protocolError _ _ _ _
    · have hd := closed_deliver (l := l) { m with
        recvs := (m.recvs.apply (.receive id data.length)).apply (.dropTx id) } id data fin
      split
      next m' full heq =>
      rw [heq] at hd
      cases full with
      | true => exact closesOnError_protocolError _ _ _ _
      | false =>
          cases fin with
          | true => exact closesOnError_of_eq hd
          | false => exact closesOnError_of_eq hd

theorem closesOnError_handleFrame (m : Memory) (f : Frame) :
    ClosesOnError m (m.handleFrame l f) := by
  cases f with
  | openUni id =>
      simp only [Memory.handleFrame, Memory.handleOpenUni]
      split
      · exact closesOnError_protocolError _ _ _ _
      · split
        · exact closesOnError_protocolError _ _ _ _
        · exact closesOnError_offerUni _ _
  | openBi id =>
      simp only [Memory.handleFrame, Memory.handleOpenBi]
      split
      · exact closesOnError_protocolError _ _ _ _
      · split
        · exact closesOnError_protocolError _ _ _ _
        · split
          · exact closesOnError_of_error rfl
          · next m₂ heq =>
              have hclosed : m₂.closed = m.closed := by
                rw [show m₂ = (((m.acceptPeerId id).registerInbound l id).registerSendFlow l id).1 by
                  rw [heq]]
                unfold Memory.registerSendFlow
                split <;> rfl
              unfold ClosesOnError
              rw [← hclosed]
              exact closesOnError_offerBi (m₂.newSend id false).1 _ _
  | stream id data fin => exact closesOnError_handleStream m id data fin
  | resetStream id code =>
      simp only [Memory.handleFrame, Memory.handleReset]
      split_ifs
      · exact closesOnError_of_eq rfl
      · exact closesOnError_of_eq rfl
      · exact closesOnError_protocolError _ _ _ _
  | stopSending id code =>
      simp only [Memory.handleFrame, Memory.handleStop, Memory.removeSendFlow]
      split
      · next heq =>
          obtain ⟨rfl, -⟩ := Prod.mk.inj heq
          split
          · next heq =>
              obtain ⟨rfl, -⟩ := Prod.mk.inj heq
              exact closesOnError_of_eq rfl
          · exact closesOnError_of_error rfl
      · next heq =>
          obtain ⟨rfl, -⟩ := Prod.mk.inj heq
          split_ifs
          · exact closesOnError_of_eq rfl
          · exact closesOnError_protocolError _ _ _ _
  | maxStreamData id max => exact closesOnError_of_eq rfl
  | connectionClose code reason => exact closesOnError_of_error rfl

/-! ## Every step -/

/-- **What a step does.** -/
theorem effect_of_step (h : s.step l label = some s') : Effect l s label s' := by
  cases label with
  | openUni =>
      cases exists_onSession h
      exact effect_call (.openUni _)
  | openBi =>
      cases exists_onSession h
      exact .openBi
  | acceptUni =>
      obtain ⟨r, hr, rfl⟩ := Option.map_eq_some_iff.1 (exists_onSession h)
      exact effect_call (Calm.acceptUni hr).safe
  | acceptBi =>
      obtain ⟨r, hr, rfl⟩ := Option.map_eq_some_iff.1 (exists_onSession h)
      exact effect_call (Calm.acceptBi hr).safe
  | shutdown =>
      cases exists_onSession h
      exact effect_call (Calm.requestShutdown _).safe
  | cloneSession =>
      cases exists_onSession h
      exact effect_call (Calm.safe { Calm.refl false s.mem with taskFinished := rfl })
  | dropSession =>
      cases exists_onSession h
      exact effect_call (.dropSession _)
  | write i data =>
      obtain ⟨x, -, rfl⟩ := exists_onSend h
      have hw : Calm false s.mem (s.mem.writeBuf i x.id data).1 := .writeBuf _ _ _ _
      split
      · next heq =>
          rw [heq] at hw
          exact .call hw.safe rfl
      · next heq =>
          rw [heq] at hw
          exact .call hw.safe rfl
  | pollWriteBuf i =>
      simp only [Session.step] at h
      split at h
      · next w _ =>
          cases h
          have hw : Calm false s.mem (s.mem.pollWriteBuf l w).1 := .pollWriteBuf _ _
          unfold Session.pollWriteBuf
          split
          all_goals
            next heq =>
              rw [heq] at hw
              exact .call hw.safe rfl
      · cases h
  | cancelWriteBuf i =>
      simp only [Session.step] at h
      split at h
      · cases h
        exact .call (Calm.cancelWriteBuf _ _).safe rfl
      · cases h
  | finish i =>
      obtain ⟨x, -, rfl⟩ := exists_onSend h
      exact .terminal rfl (.finish _ _) .finishCall rfl
  | reset i code =>
      obtain ⟨x, -, rfl⟩ := exists_onSend h
      exact .terminal rfl (.reset _ _ _) .resetCall rfl
  | pollWrite i buf =>
      obtain ⟨x, -, rfl⟩ := exists_onSendMut h
      exact effect_call (Calm.pollWrite _ _ _ _).safe
  | pollFlush i =>
      obtain ⟨x, -, rfl⟩ := exists_onSendMut h
      exact effect_call (Calm.pollFlush _ _ _).safe
  | pollClose i =>
      obtain ⟨x, -, rfl⟩ := exists_onSendMut h
      exact effect_call (.pollClose _ _ _)
  | cloneSend i =>
      obtain ⟨x, -, rfl⟩ := exists_onSend h
      exact effect_call (.cloneSend _ _)
  | dropSend i =>
      obtain ⟨x, hx, rfl⟩ := exists_onSendMut h
      refine effect_call (.dropSend fun y hy => ?_)
      rw [hx] at hy
      cases hy
      rfl
  | read id api n =>
      obtain ⟨m, hm, rfl⟩ := Option.map_eq_some_iff.1 (exists_onRecv h)
      exact effect_call (Calm.read hm).safe
  | stop id code =>
      cases exists_onRecv h
      exact .terminal rfl (.stop _ _ _) .stopCall rfl
  | dropRecv id =>
      cases exists_onRecv h
      exact effect_call (.dropRecv _ _)
  | receive msg =>
      simp only [Session.step] at h
      split at h
      · next hp =>
          cases h
          have hp : s.phase.ending = false := by rw [hp]; rfl
          unfold Session.receive
          split
          · split_ifs
            · exact effect_handled rfl (.protocolError _ _ _) (closesOnError_protocolError _ _ _ _) hp
            · exact .task rfl (Calm.refl true s.mem).safe hp .inl
          · exact effect_handled rfl (.protocolError _ _ _) (closesOnError_protocolError _ _ _ _) hp
      · cases h
  | receiveErr =>
      simp only [Session.step] at h
      split at h
      · next hp =>
          cases h
          exact .task rfl (Calm.refl true s.mem).safe (by rw [hp]; rfl) .inl
      · cases h
  | frame =>
      simp only [Session.step] at h
      split at h
      · next cursor hp =>
          cases h
          have hending : s.phase.ending = false := by rw [hp]; rfl
          unfold Session.frame
          split
          · exact .task rfl (Calm.refl true s.mem).safe hending .inl
          · split
            · next f rest hf =>
                rcases handleFrame_cases l s.mem f with hc | ⟨id, ho, hm⟩
                · exact effect_handled rfl hc (closesOnError_handleFrame _ _) hending
                · exact .inbound hp hf ho hm
            · exact effect_handled rfl (.protocolError _ _ _) (closesOnError_protocolError _ _ _ _) hending
      · cases h
  | out credit =>
      simp only [Session.step] at h
      split at h
      · next hp =>
          obtain ⟨hm, hc⟩ := out_spec h
          exact .task rfl hm.safe (by rw [hp]; rfl) fun h => .inl (hc ▸ h)
      · cases h
  | sent ok =>
      simp only [Session.step] at h
      split at h
      · next hp =>
          have hending : s.phase.ending = false := by rw [hp]; rfl
          split_ifs at h
          · cases h
            exact .task rfl (Calm.refl true s.mem).safe hending .inl
          · cases h
            exact .task rfl (Calm.refl true s.mem).safe hending .inl
      · cases h
  | connClosed =>
      simp only [Session.step] at h
      split at h
      · next hp =>
          cases h
          exact .finished hp
      · cases h
end WebsockMux.Wasm
