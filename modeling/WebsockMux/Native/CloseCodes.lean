import WebsockMux.Native.Admission
import WebsockMux.Native.Alone
import WebsockMux.Native.Closing
import WebsockMux.Native.Handling

/-!
# Connection error codes

The codes of `ConnectionClose` against the table of the specification: 1 for a malformed frame or a
violation of stream state, 2 for a violation of a size or of flow control, 3 for a resource limit.
The violations are stated on the frame and on the memory at the time when `handle_frame` is called
with it (`StateViolation`, `SizeViolation`, `ResourceHit`); where several apply, the one that comes
first counts (`Prescribed`).

The inbound task processes one message alone: it decodes a frame, calls `handle_frame`, and so on.
What `handle_frame` may send on its way is followed from one control point to another (`Passes`).
-/

set_option autoImplicit false

namespace WebsockMux.Native

open WebsockMux.Lib WebsockMux.Proto

variable {cfg : Config} {m m' m₁ : Memory} {t t' t₁ : Task} {a : Access} {C : Nat → Prop}

/-! ## What the specification prescribes -/

/-- A frame that violates the state of its stream: an open with the wrong direction or initiator or
out of order, data on a stream that is not open, or a frame that ends a direction which is not legal
or not yet below the frontier. -/
def StateViolation (cfg : Config) (m : Memory) : Frame → Prop
  | .openUni id => id.dir ≠ .uni ∨ id.initiatorIsServer = cfg.isServer ∨
      id.counter < m.ids.nextPeer id.dir
  | .openBi id => id.dir ≠ .bi ∨ id.initiatorIsServer = cfg.isServer ∨
      id.counter < m.ids.nextPeer id.dir
  | .stream id _ _ => id ∉ m.recvs.streams
  | .resetStream id _ => ¬ (cfg.Receives id ∧ id.counter < m.ids.frontier cfg id)
  | .stopSending id _ => ¬ (cfg.Sends id ∧ id.counter < m.ids.frontier cfg id)
  | .maxStreamData _ _ => False
  | .connectionClose _ _ => False

/-- A frame with too much data, for a frame or for the credit of its stream. -/
def SizeViolation (cfg : Config) (m : Memory) : Frame → Prop
  | .stream id data _ => cfg.limits.maxStreamDataPerFrame < data.length ∨
      2 ^ 64 ≤ (m.recvs.cell id).received + data.length ∨
      (m.recvs.cell id).maxData < (m.recvs.cell id).received + data.length
  | _ => False

/-- A frame for which the session has no room. -/
def ResourceHit (cfg : Config) (m : Memory) : Frame → Prop
  | .openUni _ => cfg.limits.maxOpenStreams ≤ m.recvs.streams.card ∨ m.accept.full cfg false = true
  | .openBi _ => cfg.limits.maxOpenStreams ≤ m.recvs.streams.card ∨
      cfg.limits.maxOpenStreams ≤ m.sends.flows.card ∨ m.accept.full cfg true = true
  | .stream id _ _ => cfg.limits.recvEventQueueLen ≤ (m.recvs.cell id).events.length
  | _ => False

/-- **The code that the specification prescribes** for an offending frame. -/
inductive Prescribed (cfg : Config) (m : Memory) (f : Frame) : Nat → Prop where
  | state (h : StateViolation cfg m f) : Prescribed cfg m f 1
  | size (hs : ¬ StateViolation cfg m f) (h : SizeViolation cfg m f) : Prescribed cfg m f 2
  | resource (hs : ¬ StateViolation cfg m f) (hz : ¬ SizeViolation cfg m f)
      (h : ResourceHit cfg m f) : Prescribed cfg m f 3

/-! ## From one control point to another -/

/-- The closes that come into the queue between two moments have codes in `C`. -/
def ClosesIn (C : Nat → Prop) (m m' : Memory) : Prop :=
  ∃ new, m'.chan.admitted = m.chan.admitted ++ new ∧
    ∀ code reason, .connectionClose code reason ∈ new → C code

namespace ClosesIn

variable {C' : Nat → Prop}

theorem of_eq (h : m'.chan.admitted = m.chan.admitted) : ClosesIn C m m' :=
  ⟨[], by simpa using h, nofun⟩

theorem weaken (h : ClosesIn C m m') (hC : ∀ c, C c → C' c) : ClosesIn C' m m' := by
  obtain ⟨new, hn, hnew⟩ := h
  exact ⟨new, hn, fun c r hmem => hC c (hnew c r hmem)⟩

theorem trans (h : ClosesIn C m m₁) (h' : ClosesIn C m₁ m') : ClosesIn C m m' := by
  obtain ⟨new, hn, hC⟩ := h
  obtain ⟨new', hn', hC'⟩ := h'
  refine ⟨new ++ new', by rw [hn', hn, List.append_assoc], ?_⟩
  intro code reason hmem
  rcases List.mem_append.1 hmem with hmem | hmem
  · exact hC code reason hmem
  · exact hC' code reason hmem

/-- What holds between two moments holds up to a moment before the second. -/
theorem of_isPrefix (h : ClosesIn C m m') (h₁ : m.chan.admitted <+: m₁.chan.admitted)
    (h₂ : m₁.chan.admitted <+: m'.chan.admitted) : ClosesIn C m m₁ := by
  obtain ⟨new, hn, hC⟩ := h
  obtain ⟨new₁, hn₁⟩ := h₁
  obtain ⟨new₂, hn₂⟩ := h₂
  have hnew : new = new₁ ++ new₂ := by
    rw [hn, ← hn₁, List.append_assoc] at hn₂
    exact (List.append_cancel_left hn₂).symm
  refine ⟨new₁, hn₁.symm, fun code reason hmem => hC code reason ?_⟩
  rw [hnew]
  exact List.mem_append_left _ hmem

end ClosesIn

/-- **A function that runs alone comes from one control point to another**, and the closes that it
sends on the way have codes in `C`. -/
structure Passes (cfg : Config) (C : Nat → Prop) (m : Memory) (t : Task) (m' : Memory)
    (t' : Task) : Prop where
  run : t.runAlone cfg m = t'.runAlone cfg m'
  closes : ClosesIn C m m'

namespace Passes

theorem refl (C : Nat → Prop) (m : Memory) (t : Task) : Passes cfg C m t m t :=
  ⟨rfl, .of_eq rfl⟩

theorem trans (h : Passes cfg C m t m₁ t₁) (h' : Passes cfg C m₁ t₁ m' t') :
    Passes cfg C m t m' t' :=
  ⟨h.run.trans h'.run, h.closes.trans h'.closes⟩

theorem weaken {C' : Nat → Prop} (h : Passes cfg C m t m' t') (hC : ∀ c, C c → C' c) :
    Passes cfg C' m t m' t' :=
  ⟨h.run, h.closes.weaken hC⟩

/-- A step that sends no close. -/
theorem next (hn : t.next cfg m = some (a, t'))
    (ha : ∀ code reason, a.frame? ≠ some (.connectionClose code reason)) :
    Passes cfg C m t (m.apply a) t' := by
  refine ⟨Task.runAlone_next hn, a.frame?.toList, Memory.admitted_apply m a, ?_⟩
  intro code reason hmem
  exact absurd (Option.mem_toList.1 hmem) (ha code reason)

/-- A step that sends nothing. -/
theorem quiet (hn : t.next cfg m = some (a, t')) (ha : a.frame? = none) :
    Passes cfg C m t (m.apply a) t' :=
  next hn fun code reason h => by rw [ha] at h; cases h

/-- Nothing is sent. -/
theorem of_run (h : t.runAlone cfg m = t'.runAlone cfg m')
    (hadm : m'.chan.admitted = m.chan.admitted) : Passes cfg C m t m' t' :=
  ⟨h, .of_eq hadm⟩

end Passes

/-- The session cannot tell its peer anything any more. -/
def Memory.Mute (m : Memory) : Prop := m.flags.isClosed = true ∨ m.chan.rxDropped = true

theorem Memory.Mute.apply (h : m.Mute) (a : Access) : (m.apply a).Mute := by
  refine h.imp (Memory.isClosed_apply a) fun hrx => ?_
  cases a with
  | handle b => cases b <;> exact hrx
  | chan b => cases b <;> first | exact hrx | rfl
  | session clone => cases clone <;> exact hrx
  | _ => exact hrx

theorem Memory.isOpen_iff (m : Memory) : m.IsOpen ↔ m.flags.isClosed = false := by
  unfold Flags.isClosed
  rw [Bool.or_eq_false_iff]
  exact ⟨fun h => ⟨h.closed, h.shutdown⟩, fun h => ⟨h.1, h.2⟩⟩

/-- `protocol_error` sends its own code, if it can send. -/
theorem passes_protocolError (cfg : Config) {code : Nat} (reason : String) (k : Ret)
    (hC : C code ∨ m.Mute) : ∃ m', Passes cfg C m (protocolError code reason k) m' k.resume := by
  obtain ⟨m', hrun, hadm⟩ := runAlone_protocolError cfg m code reason k
  refine ⟨m', hrun, _, hadm, ?_⟩
  intro c r hmem
  unfold Memory.notice at hmem
  split_ifs at hmem with h
  · cases List.mem_singleton.1 hmem
    refine hC.resolve_right ?_
    rintro (hc | hrx)
    · have hopen := (Memory.isOpen_iff m).1 ⟨h.1, h.2.1⟩
      rw [hopen] at hc
      cases hc
    · rw [h.2.2.1] at hrx
      cases hrx
  · cases hmem

/-- `try_send_frame` of a reset or a stop. -/
theorem passes_trySend (cfg : Config) (C : Nat → Prop) (m : Memory) (s : TrySite) (k : Ret)
    (hs : ∀ code reason, s.frame ≠ .connectionClose code reason) :
    ∃ m' ok, Passes cfg C m (.anyOf isClosed (.trySend s k)) m' (s.resume k ok) ∧
      (m.Mute → m'.Mute) := by
  by_cases hopen : m.IsOpen
  · have h₁ : Passes cfg C m (.anyOf isClosed (.trySend s k)) m (.trySend s k) :=
      .of_run (runAlone_isClosed cfg hopen _) rfl
    by_cases hroom : (!m.chan.rxDropped && m.chan.hasSlot cfg) = true
    · have hn : (Task.trySend s k).next cfg m =
          some (.chan (.trySend s.frame), s.resume k true) := by
        simp only [Task.next, if_pos hroom]
      exact ⟨_, true, h₁.trans (.next hn fun c r h => hs c r (Option.some.inj h)), (·.apply _)⟩
    · have hn : (Task.trySend s k).next cfg m = some (.skip, s.resume k false) := by
        simp only [Task.next, if_neg hroom]
      exact ⟨m, false, h₁.trans (.quiet hn rfl), id⟩
  · exact ⟨m, false, .of_run (runAlone_isClosed_of_not cfg hopen _) rfl, id⟩

/-- `request_shutdown`. -/
theorem passes_storeShutdown (cfg : Config) (C : Nat → Prop) (m : Memory) (k : Ret) :
    ∃ m', Passes cfg C m (.storeShutdown k) m' k.resume ∧ (m.Mute → m'.Mute) :=
  ⟨_, (Passes.quiet rfl rfl).trans (.quiet rfl rfl), fun h => (h.apply _).apply _⟩

/-- A `RecvStream` is dropped. -/
theorem passes_dropRecv (cfg : Config) (C : Nat → Prop) (m : Memory) (id : StreamId) (k : Ret) :
    ∃ m', Passes cfg C m (.dropRecv id k) m' k.resume ∧ (m.Mute → m'.Mute) := by
  -- the receiver is closed at last
  have hclose : ∀ {m₁ : Memory}, Passes cfg C m (.dropRecv id k) m₁ (.closeReceiver id k) →
      (m.Mute → m₁.Mute) →
      ∃ m', Passes cfg C m (.dropRecv id k) m' k.resume ∧ (m.Mute → m'.Mute) :=
    fun h hm => ⟨_, h.trans (.quiet rfl rfl), fun hmute => (hm hmute).apply _⟩
  by_cases hid : id ∈ m.recvs.streams
  · by_cases hfin : (m.recvs.cell id).reader.finished = true
    · have hn : (Task.dropRecv id k).next cfg m = some (.recv (.stop id), .closeReceiver id k) := by
        simp only [Task.next, if_pos hid, if_pos hfin]
      exact hclose (.quiet hn rfl) (·.apply _)
    · have hn : (Task.dropRecv id k).next cfg m = some (.recv (.stop id), .dropRecvSwap id k) := by
        simp only [Task.next, if_pos hid, if_neg hfin]
      have h₁ : Passes cfg C m (.dropRecv id k) (m.apply (.recv (.stop id))) (.dropRecvSwap id k) :=
        .quiet hn rfl
      by_cases hstop : ((m.apply (.recv (.stop id))).recvs.cell id).reader.stopSent = true
      · have hn₂ : (Task.dropRecvSwap id k).next cfg (m.apply (.recv (.stop id))) =
            some (.skip, .closeReceiver id k) := by
          simp only [Task.next, if_pos hstop]
        exact hclose (h₁.trans (.quiet hn₂ rfl)) fun h => (h.apply _).apply _
      · have hn₂ : (Task.dropRecvSwap id k).next cfg (m.apply (.recv (.stop id))) =
            some (.recv (.swapStop id), .anyOf isClosed (.trySend (.dropRecv id) k)) := by
          simp only [Task.next, if_neg hstop]
        obtain ⟨m₃, ok, h₃, hm₃⟩ := passes_trySend cfg C
          ((m.apply (.recv (.stop id))).apply (.recv (.swapStop id))) (.dropRecv id) k
          (by rintro _ _ ⟨⟩)
        have h₂ := (h₁.trans (.quiet hn₂ rfl)).trans h₃
        have hmute : m.Mute → m₃.Mute := fun h => hm₃ ((h.apply _).apply _)
        cases ok with
        | true => exact hclose h₂ hmute
        | false =>
            obtain ⟨m₄, h₄, hm₄⟩ := passes_storeShutdown cfg C m₃ (.closeReceiver id k)
            exact hclose (h₂.trans h₄) fun h => hm₄ (hmute h)
  · have hn : (Task.dropRecv id k).next cfg m = some (.skip, .closeReceiver id k) := by
      simp only [Task.next, if_neg hid]
    exact hclose (.quiet hn rfl) fun h => h

/-- A `SendStream` is dropped. -/
theorem passes_dropSend (cfg : Config) (C : Nat → Prop) (m : Memory) (h : Nat) (id : StreamId)
    (k : Ret) :
    ∃ m', Passes cfg C m (.dropSend h id k) m' k.resume := by
  -- the fields are released at last
  have hrelease : ∀ {m₁ : Memory}, Passes cfg C m (.dropSend h id k) m₁ (.releaseHandle h k) →
      ∃ m', Passes cfg C m (.dropSend h id k) m' k.resume :=
    fun hp => ⟨_, hp.trans (.quiet rfl rfl)⟩
  by_cases hlast : SendHandle.strongCount m.handles id = 1
  · have hn : (Task.dropSend h id k).next cfg m = some (.skip, .dropSendRemove h id k) := by
      simp only [Task.next, if_pos hlast]
    have h₁ : Passes cfg C m (.dropSend h id k) (m.apply (.send (.remove id)))
        (.anyOf [.finished id] (.dropSend h id k)) :=
      (Passes.quiet hn rfl).trans (.quiet rfl rfl)
    by_cases hfin : (m.apply (.send (.remove id))).flag (.finished id) = true
    · have hn₂ : (Task.anyOf [.finished id] (.dropSend h id k)).next cfg
          (m.apply (.send (.remove id))) = some (.skip, .releaseHandle h k) := by
        simp only [Task.next, if_pos hfin]
        rfl
      exact hrelease (h₁.trans (.quiet hn₂ rfl))
    · have hn₂ : (Task.anyOf [.finished id] (.dropSend h id k)).next cfg
          (m.apply (.send (.remove id))) =
            some (.skip, .anyOf isClosed (.trySend (.dropSend h id) k)) := by
        simp only [Task.next, if_neg hfin]
        rfl
      obtain ⟨m₃, ok, h₃, -⟩ := passes_trySend cfg C (m.apply (.send (.remove id)))
        (.dropSend h id) k (by rintro _ _ ⟨⟩)
      have h₂ := (h₁.trans (.quiet hn₂ rfl)).trans h₃
      cases ok with
      | true => exact hrelease h₂
      | false =>
          obtain ⟨m₄, h₄, -⟩ := passes_storeShutdown cfg C m₃ (.releaseHandle h k)
          exact hrelease (h₂.trans h₄)
  · have hn : (Task.dropSend h id k).next cfg m = some (.skip, .releaseHandle h k) := by
      simp only [Task.next, if_neg hlast]
    exact hrelease (.quiet hn rfl)

/-- The streams of a refused accept are dropped, and `handle_frame` fails. -/
theorem passes_acceptDrop (cfg : Config) (C : Nat → Prop) (m : Memory) (id : StreamId) (h : Option Nat) :
    ∃ m', Passes cfg C m (acceptDrop id h).resume m' (.handled false) := by
  cases h with
  | none =>
      obtain ⟨m₁, h₁, -⟩ := passes_dropRecv cfg C m id (.handled false)
      exact ⟨m₁, h₁⟩
  | some h =>
      obtain ⟨m₁, h₁⟩ := passes_dropSend cfg C m h id (.dropRecv id (.handled false))
      obtain ⟨m₂, h₂, -⟩ := passes_dropRecv cfg C m₁ id (.handled false)
      exact ⟨m₂, h₁.trans h₂⟩

/-! ## `handle_frame` -/

/-- **A fair end of `handle_frame`**: it fails, and the closes that it has sent have codes in `C`, or
it ends in another way and has sent none. -/
def Fair (cfg : Config) (C : Nat → Prop) (m : Memory) (t : Task) : Prop :=
  (∃ m', Passes cfg C m t m' (.handled false)) ∨
    ∃ m' t', Passes cfg (fun _ => False) m t m' t' ∧ t'.next cfg m' = none

theorem Fair.weaken {C' : Nat → Prop} (h : Fair cfg C m t) (hC : ∀ c, C c → C' c) :
    Fair cfg C' m t :=
  h.imp_left fun ⟨m', hp⟩ => ⟨m', hp.weaken hC⟩

theorem Passes.fair (h : Passes cfg (fun _ => False) m t m₁ t₁) (hf : Fair cfg C m₁ t₁) :
    Fair cfg C m t := by
  rcases hf with ⟨m', h'⟩ | ⟨m', t', h', hend⟩
  · exact .inl ⟨m', (h.weaken fun _ hc => hc.elim).trans h'⟩
  · exact .inr ⟨m', t', h.trans h', hend⟩

theorem fair_next (hn : t.next cfg m = some (a, t')) (ha : a.frame? = none)
    (h : Fair cfg C (m.apply a) t') : Fair cfg C m t :=
  Passes.fair (.quiet hn ha) h

theorem fair_handled (ok : Bool) : Fair cfg C m (.handled ok) :=
  .inr ⟨m, .handled ok, .refl _ _ _, rfl⟩

/-- A rejection with a code in `C`. -/
theorem fair_protocolError {code : Nat} {reason : String} (hC : C code ∨ m.Mute) :
    Fair cfg C m (protocolError code reason (.handled false)) := by
  obtain ⟨m', h⟩ := passes_protocolError cfg reason (.handled false) hC
  exact .inl ⟨m', h⟩

/-- The end of `handle_frame` of an open: the accept queue. -/
theorem fair_acceptLock {id : StreamId} {h : Option Nat}
    (hC : m.accept.full cfg h.isSome = true → C 3) : Fair cfg C m (.acceptLock id h) := by
  have hdrop : Fair cfg C m (acceptDrop id h).resume := .inl (passes_acceptDrop cfg C m id h)
  by_cases htx : m.accept.hasTx h.isSome = true
  · have hn : (Task.acceptLock id h).next cfg m = some (.skip, .acceptSend id h) := by
      simp only [Task.next, if_pos htx]
    refine fair_next hn rfl ?_
    by_cases hrx : (!m.accept.hasRx h.isSome) = true
    · have hn₂ : (Task.acceptSend id h).next cfg m = some (.skip, (acceptDrop id h).resume) := by
        simp only [Task.next, if_pos hrx]
      exact fair_next hn₂ rfl hdrop
    · by_cases hfull : m.accept.full cfg h.isSome = true
      · have hn₂ : (Task.acceptSend id h).next cfg m =
            some (.skip, protocolError 3 "accept queue full" (acceptDrop id h)) := by
          simp only [Task.next, if_neg hrx, if_pos hfull]
        refine fair_next hn₂ rfl (.inl ?_)
        have hmay : C 3 ∨ m.Mute := .inl (hC hfull)
        obtain ⟨m₁, h₁⟩ := passes_protocolError cfg "accept queue full" (acceptDrop id h) hmay
        obtain ⟨m₂, h₂⟩ := passes_acceptDrop cfg C m₁ id h
        exact ⟨m₂, h₁.trans h₂⟩
      · have hn₂ : (Task.acceptSend id h).next cfg m =
            some (.accept (.push id h), .handled true) := by
          simp only [Task.next, if_neg hrx, if_neg hfull]
        exact fair_next hn₂ rfl (fair_handled true)
  · have hn : (Task.acceptLock id h).next cfg m = some (.skip, (acceptDrop id h).resume) := by
      simp only [Task.next, if_neg htx]
    exact fair_next hn rfl hdrop

/-- `send_frame` of the inbound task: it sends, it waits for a slot, or nothing can be sent. -/
theorem fair_sendFrame {site : SendSite}
    (hsite : ∀ code reason, site.frame cfg ≠ .connectionClose code reason)
    (hmay : m.sends.mayPublish (site.frame cfg) = true)
    (hsent : Fair cfg C ((m.apply (.chan .takeSlot)).apply (.chan (.publish (site.frame cfg))))
      (site.resume cfg true))
    (hfail : m.Mute → Fair cfg C m (site.resume cfg false)) : Fair cfg C m (sendFrame site) := by
  by_cases hopen : m.IsOpen
  · refine Passes.fair (.of_run (runAlone_isClosed cfg hopen _) rfl) ?_
    show Fair cfg C m (.reserve site)
    by_cases hrx : m.chan.rxDropped = true
    · have hn : (Task.reserve site).next cfg m = some (.skip, site.resume cfg false) := by
        simp only [Task.next, if_pos hrx]
      exact fair_next hn rfl (hfail (.inr hrx))
    · by_cases hslot : m.chan.hasSlot cfg = true
      · have hn : (Task.reserve site).next cfg m = some (.chan .takeSlot, .publish site) := by
          simp only [Task.next, if_neg hrx, if_pos hslot]
        have hn₂ : (Task.publish site).next cfg (m.apply (.chan .takeSlot)) =
            some (.chan (.publish (site.frame cfg)), site.resume cfg true) := if_pos hmay
        refine fair_next hn rfl (Passes.fair (.next hn₂ ?_) hsent)
        intro code reason h
        exact hsite code reason (Option.some.inj h)
      · -- the inbound task waits for a slot
        have hn : (Task.reserve site).next cfg m = none := by
          simp only [Task.next, if_neg hrx, if_neg hslot]
        exact .inr ⟨m, _, .refl _ _ _, hn⟩
  · have hmute : m.Mute := .inl (by simpa using fun h => hopen ((Memory.isOpen_iff m).2 h))
    exact Passes.fair (.of_run (runAlone_isClosed_of_not cfg hopen _) rfl) (hfail hmute)

/-- The initial credit of an accepted stream. Where it cannot be sent, the session can send nothing,
and the rejection that follows is not heard. -/
theorem fair_inboundCredit {id : StreamId} {bi : Bool}
    (hsent : ∀ m₁ : Memory, m₁.accept = m.accept → m₁.sends = m.sends →
      Fair cfg C m₁ ((SendSite.inboundCredit id bi).resume cfg true)) :
    Fair cfg C m (sendFrame (.inboundCredit id bi)) := by
  refine fair_sendFrame nofun rfl (hsent _ rfl rfl) fun hmute => ?_
  have hres : (SendSite.inboundCredit id bi).resume cfg false = .dropRecv id
      (.protocolError 2 "failed to send initial stream credit" (.handled false)) := by
    cases bi <;> rfl
  rw [hres]
  obtain ⟨m₂, h₂, hm₂⟩ := passes_dropRecv cfg (fun _ => False) m id
    (.protocolError 2 "failed to send initial stream credit" (.handled false))
  exact h₂.fair (fair_protocolError (.inr (hm₂ hmute)))

/-- What the violations are for an open. -/
theorem stateViolation_openFrame (cfg : Config) (m : Memory) (bi : Bool) (id : StreamId) :
    StateViolation cfg m (openFrame bi id) ↔ id.dir ≠ dirOf bi ∨
      id.initiatorIsServer = cfg.isServer ∨ id.counter < m.ids.nextPeer id.dir := by
  cases bi <;> exact Iff.rfl

theorem not_sizeViolation_openFrame (cfg : Config) (m : Memory) (bi : Bool) (id : StreamId) :
    ¬ SizeViolation cfg m (openFrame bi id) := by
  cases bi <;> exact not_false

/-- `handle_frame` of an open with the right direction and initiator, of a stream that is in no
table unless the open is out of order. -/
theorem fair_validatePeer {id : StreamId} (bi : Bool) (hdir : id.dir = dirOf bi)
    (hinit : id.initiatorIsServer ≠ cfg.isServer)
    (hrecv : m.ids.nextPeer id.dir ≤ id.counter → id ∉ m.recvs.streams)
    (hsend : m.ids.nextPeer id.dir ≤ id.counter → id ∉ m.sends.flows) :
    Fair cfg (Prescribed cfg m (openFrame bi id)) m (.validatePeer id bi) := by
  by_cases hval : m.ids.validatePeerStreamId id = true
  · have hle : m.ids.nextPeer id.dir ≤ id.counter := of_decide_eq_true hval
    have hstate : ¬ StateViolation cfg m (openFrame bi id) := by
      rw [stateViolation_openFrame]
      rintro (h | h | h)
      · exact h hdir
      · exact hinit h
      · omega
    have hthree : ResourceHit cfg m (openFrame bi id) → Prescribed cfg m (openFrame bi id) 3 :=
      .resource hstate (not_sizeViolation_openFrame cfg m bi id)
    have hn : (Task.validatePeer id bi).next cfg m = some (.id (.peer id), .tryRegister id bi) := by
      simp only [Task.next, if_pos hval]
    refine fair_next hn rfl ?_
    by_cases hcard : cfg.limits.maxOpenStreams ≤ m.recvs.streams.card
    · have hn₂ : (Task.tryRegister id bi).next cfg (m.apply (.id (.peer id))) =
          some (.skip, protocolError 3 "too many open streams" (.handled false)) := by
        have href : (m.apply (.id (.peer id))).recvs.refuses cfg id =
            some (3, "too many open streams") := if_pos hcard
        simp only [Task.next, href]
      refine fair_next hn₂ rfl (fair_protocolError (.inl (hthree ?_)))
      cases bi <;> exact .inl hcard
    · have hn₂ : (Task.tryRegister id bi).next cfg (m.apply (.id (.peer id))) =
          some (.recv (.register id cfg.limits.initialStreamWindow),
            sendFrame (.inboundCredit id bi)) := by
        have href : (m.apply (.id (.peer id))).recvs.refuses cfg id = none :=
          (if_neg hcard).trans (if_neg (hrecv hle))
        simp only [Task.next, href]
      refine fair_next hn₂ rfl (fair_inboundCredit fun m₁ hacc hsends => ?_)
      have hacc' : m₁.accept = m.accept := hacc
      have hsends' : m₁.sends = m.sends := hsends
      cases bi with
      | false => exact fair_acceptLock fun hfull => hthree (.inr (hacc' ▸ hfull))
      | true =>
          show Fair cfg _ m₁ (.registerFlow id)
          by_cases hflows : cfg.limits.maxOpenStreams ≤ m.sends.flows.card
          · have hn₃ : (Task.registerFlow id).next cfg m₁ = some (.skip, protocolError 3
                ("protocol error: " ++ "too many open send streams")
                (.dropRecv id (.handled false))) := by
              have href : m₁.sends.refuses cfg id = some "too many open send streams" :=
                if_pos (hsends' ▸ hflows)
              simp only [Task.next, href]
            refine fair_next hn₃ rfl (.inl ?_)
            have hmay : Prescribed cfg m (openFrame true id) 3 ∨ m₁.Mute :=
              .inl (hthree (.inr (.inl hflows)))
            obtain ⟨m₂, h₂⟩ := passes_protocolError cfg
              ("protocol error: " ++ "too many open send streams") (.dropRecv id (.handled false)) hmay
            obtain ⟨m₃, h₃, -⟩ := passes_dropRecv cfg _ m₂ id (.handled false)
            exact ⟨m₃, h₂.trans h₃⟩
          · have hn₃ : (Task.registerFlow id).next cfg m₁ =
                some (.send (.register id), .newSend id) := by
              have href : m₁.sends.refuses cfg id = none := by
                rw [hsends']
                exact (if_neg hflows).trans (if_neg (hsend hle))
              simp only [Task.next, href]
            refine fair_next hn₃ rfl (fair_next rfl rfl (fair_acceptLock fun hfull => ?_))
            have hfull' : m₁.accept.full cfg true = true := hfull
            exact hthree (.inr (.inr (hacc' ▸ hfull')))
  · have hn : (Task.validatePeer id bi).next cfg m = some (.skip, protocolError 1
        (if bi then "OpenBi with non-monotonic StreamId"
          else "OpenUni with non-monotonic StreamId") (.handled false)) := by
      simp only [Task.next, if_neg hval]
    refine fair_next hn rfl (fair_protocolError (.inl (.state ?_)))
    rw [stateViolation_openFrame]
    have hlt : ¬ m.ids.nextPeer id.dir ≤ id.counter := fun h => hval (decide_eq_true h)
    exact .inr (.inr (by omega))

/-- `handle_frame` of data on a stream in the table. -/
theorem fair_receiveData {id : StreamId} {data : List UInt8} {fin : Bool}
    (hid : id ∈ m.recvs.streams) (hlen : data.length ≤ cfg.limits.maxStreamDataPerFrame) :
    Fair cfg (Prescribed cfg m (.stream id data fin)) m (.receiveData id data fin) := by
  have hstate : ¬ StateViolation cfg m (.stream id data fin) := fun h => h hid
  -- what is left after a frame that is accepted: the entry of a FIN, and the sender's clone
  have hdrop : ∀ m₁ : Memory, Fair cfg (Prescribed cfg m (.stream id data fin)) m₁
      (.dropTx id (.handled true)) := fun m₁ => fair_next rfl rfl (fair_handled true)
  have hremove : ∀ m₁ : Memory, Fair cfg (Prescribed cfg m (.stream id data fin)) m₁
      (.removeRecv id) := fun m₁ => fair_next rfl rfl (hdrop _)
  cases hrefuse : m.recvs.refusesData id data.length with
  | some reason =>
      have hn : (Task.receiveData id data fin).next cfg m =
          some (.skip, protocolError 2 reason (.handled false)) := by
        simp only [Task.next, hrefuse]
      refine fair_next hn rfl (fair_protocolError (.inl (.size hstate (.inr ?_))))
      unfold RecvTable.refusesData at hrefuse
      split_ifs at hrefuse with h₁ h₂
      · exact .inl h₁
      · exact .inr h₂
  | none =>
      have hsize : ¬ SizeViolation cfg m (.stream id data fin) := by
        unfold RecvTable.refusesData at hrefuse
        split_ifs at hrefuse with h₁ h₂
        rintro (h | h | h)
        · omega
        · exact h₁ h
        · exact h₂ h
      by_cases hstopped : (m.recvs.cell id).stopped = true
      · cases fin with
        | true =>
            have hn : (Task.receiveData id data true).next cfg m =
                some (.recv (.receive id data.length), .removeRecv id) := by
              simp only [Task.next, hrefuse, if_pos hstopped, if_true]
            exact fair_next hn rfl (hremove _)
        | false =>
            have hn : (Task.receiveData id data false).next cfg m =
                some (.recv (.receive id data.length), .dropTx id (.handled true)) := by
              simp only [Task.next, hrefuse, if_pos hstopped, Bool.false_eq_true, if_false]
            exact fair_next hn rfl (hdrop _)
      · have hn : (Task.receiveData id data fin).next cfg m =
            some (.recv (.receive id data.length), .deliver id data fin) := by
          simp only [Task.next, hrefuse, if_neg hstopped]
        refine fair_next hn rfl ?_
        -- what is received does not change the channel
        obtain ⟨m₁, hm₁⟩ : ∃ m₁, m₁ = m.apply (.recv (.receive id data.length)) := ⟨_, rfl⟩
        have hev : (m₁.recvs.cell id).events = (m.recvs.cell id).events := by
          subst hm₁
          simp [Memory.apply, RecvTable.apply, RecvTable.modify]
        rw [← hm₁]
        by_cases hopen : (m₁.recvs.cell id).reader.receiverOpen = false
        · cases fin with
          | true =>
              have hn₂ : (Task.deliver id data true).next cfg m₁ =
                  some (.skip, .removeRecv id) := by
                simp only [Task.next, if_pos hopen, if_true]
              exact fair_next hn₂ rfl (hremove _)
          | false =>
              have hn₂ : (Task.deliver id data false).next cfg m₁ =
                  some (.skip, .dropTx id (.handled true)) := by
                simp only [Task.next, if_pos hopen, Bool.false_eq_true, if_false]
              exact fair_next hn₂ rfl (hdrop _)
        · by_cases hfull : cfg.limits.recvEventQueueLen ≤ (m₁.recvs.cell id).events.length
          · have hn₂ : (Task.deliver id data fin).next cfg m₁ =
                some (.skip, protocolError 3 "receive queue full" (.dropTx id (.handled false))) := by
              simp only [Task.next, if_neg hopen, if_pos hfull]
            refine fair_next hn₂ rfl (.inl ?_)
            have hthree : Prescribed cfg m (.stream id data fin) 3 :=
              .resource hstate hsize (hev ▸ hfull : cfg.limits.recvEventQueueLen ≤ _)
            obtain ⟨m₂, h₂⟩ := passes_protocolError cfg "receive queue full"
              (.dropTx id (.handled false)) (m := m₁) (.inl hthree)
            exact ⟨_, h₂.trans (.quiet rfl rfl)⟩
          · cases fin with
            | true =>
                have hn₂ : (Task.deliver id data true).next cfg m₁ =
                    some (.recv (.deliver id ⟨data, true⟩), .removeRecv id) := by
                  simp only [Task.next, if_neg hopen, if_neg hfull, if_true]
                exact fair_next hn₂ rfl (hremove _)
            | false =>
                have hn₂ : (Task.deliver id data false).next cfg m₁ =
                    some (.recv (.deliver id ⟨data, false⟩), .dropTx id (.handled true)) := by
                  simp only [Task.next, if_neg hopen, if_neg hfull, Bool.false_eq_true, if_false]
                exact fair_next hn₂ rfl (hdrop _)

/-- The look at the frontier. -/
theorem fair_retired {id : StreamId} {receiving : Bool}
    (hC : m.ids.isRetiredDirection cfg id receiving = false → C 1) :
    Fair cfg C m (.retired id receiving) := by
  cases hret : m.ids.isRetiredDirection cfg id receiving with
  | true =>
      have hn : (Task.retired id receiving).next cfg m = some (.skip, .handled true) := by
        simp only [Task.next, hret, if_true]
      exact fair_next hn rfl (fair_handled true)
  | false =>
      have hn : (Task.retired id receiving).next cfg m = some (.skip, protocolError 1
          (if receiving then "reset on unknown stream" else "stop on unknown stream")
          (.handled false)) := by
        simp only [Task.next, hret, Bool.false_eq_true, if_false]
      exact fair_next hn rfl (fair_protocolError (.inl (hC hret)))

/-- `handle_frame` of a reset. -/
theorem fair_recvReset (id : StreamId) (code : Nat) :
    Fair cfg (Prescribed cfg m (.resetStream id code)) m (.recvReset id) := by
  by_cases hid : id ∈ m.recvs.streams
  · have hn : (Task.recvReset id).next cfg m = some (.recv (.remove id), .handled true) := by
      simp only [Task.next, if_pos hid]
    exact fair_next hn rfl (fair_handled true)
  · have hn : (Task.recvReset id).next cfg m = some (.skip, .retired id true) := by
      simp only [Task.next, if_neg hid]
    refine fair_next hn rfl (fair_retired fun hret => .state ?_)
    intro h
    have htrue : m.ids.isRetiredDirection cfg id true = true := (isRetired_recv_iff _ _).2 h
    exact absurd htrue (by rw [Bool.not_eq_true]; exact hret)

/-- `handle_frame` of a stop: the answer may have to wait, or cannot be sent. -/
theorem fair_stopFlow (id : StreamId) (code : Nat) :
    Fair cfg (Prescribed cfg m (.stopSending id code)) m (.stopFlow id code) := by
  by_cases hid : id ∈ m.sends.flows
  · have hn : (Task.stopFlow id code).next cfg m =
        some (.send (.remove id), sendFrame (.inboundReset id code)) := by
      simp only [Task.next, if_pos hid]
    refine fair_next hn rfl (fair_sendFrame (by rintro _ _ ⟨⟩) rfl ?_ fun _ => ?_)
    · exact fair_handled true
    · exact fair_handled false
  · have hn : (Task.stopFlow id code).next cfg m = some (.skip, .retired id false) := by
      simp only [Task.next, if_neg hid]
    refine fair_next hn rfl (fair_retired fun hret => .state ?_)
    intro h
    have htrue : m.ids.isRetiredDirection cfg id false = true := (isRetired_send_iff _ _).2 h
    exact absurd htrue (by rw [Bool.not_eq_true]; exact hret)

section Session

variable {s s₀ s' : Session}

/-- **`handle_frame` closes a connection with the code that the specification prescribes**, in every
state of a session, unless the frame has data for a stream that is not in the table. -/
theorem fair_handleFrame (hr : Reachable (Session.step cfg) anyStep {} s) (f : Frame)
    (hdata : ∀ id data fin, f = .stream id data fin → id ∈ s.mem.recvs.streams) :
    Fair cfg (Prescribed cfg s.mem f) s.mem (handleFrame cfg f) := by
  -- an identifier of the peer that is in a table is below the counter of the peer
  have hrecv : ∀ id : StreamId, id.initiatorIsServer ≠ cfg.isServer →
      s.mem.ids.nextPeer id.dir ≤ id.counter → id ∉ s.mem.recvs.streams := by
    intro id hinit hle hmem
    have hlt := recv_counter_lt hr (recv_registered hr hmem)
    rw [Ids.frontier, if_neg hinit] at hlt
    omega
  have hsend : ∀ id : StreamId, id.initiatorIsServer ≠ cfg.isServer →
      s.mem.ids.nextPeer id.dir ≤ id.counter → id ∉ s.mem.sends.flows := by
    intro id hinit hle hmem
    have hlt := send_counter_lt hr (send_registered hr hmem)
    rw [Ids.frontier, if_neg hinit] at hlt
    omega
  cases f with
  | openUni id =>
      simp only [handleFrame]
      split_ifs with hdir hinit
      · exact fair_protocolError (.inl (.state (.inl hdir)))
      · exact fair_protocolError (.inl (.state (.inr (.inl hinit))))
      · exact fair_validatePeer false (not_not.1 hdir) hinit (hrecv id hinit) (hsend id hinit)
  | openBi id =>
      simp only [handleFrame]
      split_ifs with hdir hinit
      · exact fair_protocolError (.inl (.state (.inl hdir)))
      · exact fair_protocolError (.inl (.state (.inr (.inl hinit))))
      · exact fair_validatePeer true (not_not.1 hdir) hinit (hrecv id hinit) (hsend id hinit)
  | stream id data fin =>
      have hid := hdata id data fin rfl
      simp only [handleFrame]
      split_ifs with hlen
      · exact fair_protocolError (.inl (.size (fun h => h hid) (.inl hlen)))
      · exact fair_receiveData hid (Nat.le_of_not_lt hlen)
  | resetStream id code => exact fair_recvReset id code
  | stopSending id code => exact fair_stopFlow id code
  | maxStreamData id max => exact fair_next rfl rfl (fair_handled true)
  | connectionClose code reason =>
      exact Passes.fair (.of_run (runAlone_closeAll cfg s.mem (.handled false))
        (by rw [Memory.closeAll_chan])) (fair_handled false)

/-! ## A message -/

/-- The queue's history only grows. -/
theorem admitted_isPrefix_of_reaches {x y : Memory × Task}
    (h : StateTransition.Reaches (aloneStep cfg) x y) :
    x.1.chan.admitted <+: y.1.chan.admitted := by
  induction h with
  | refl => exact List.prefix_rfl
  | @tail y z _ hs ih =>
      obtain ⟨⟨a, t⟩, -, rfl⟩ := Option.map_eq_some_iff.1 hs
      refine ih.trans ⟨a.frame?.toList, ?_⟩
      exact (Memory.admitted_apply y.1 a).symm

/-- **All along a fair `handle_frame`**, the closes that it has sent have codes in `C`; where it
succeeds, it has sent none. -/
theorem Fair.closesIn (h : Fair cfg C m t)
    (hreach : StateTransition.Reaches (aloneStep cfg) (m, t) (m', t')) :
    ClosesIn C m m' ∧ (t' = .handled true → ClosesIn (fun _ => False) m m') := by
  -- steps taken alone are determined, so the end that is promised comes after this moment
  have hlater : ∀ {D : Nat → Prop} {m₁ : Memory} {t₁ : Task}, Passes cfg D m t m₁ t₁ →
      t₁.next cfg m₁ = none →
      ClosesIn D m m' ∧ (t'.next cfg m' = none → (m', t') = (m₁, t₁)) := by
    intro D m₁ t₁ hp hend
    have heval : t'.runAlone cfg m' = Part.some (m₁, t₁) :=
      (StateTransition.reaches_eval hreach).symm.trans (hp.run.trans (Task.runAlone_end hend))
    constructor
    · have hmem := StateTransition.mem_eval.1 (Part.eq_some_iff.1 heval)
      exact hp.closes.of_isPrefix (admitted_isPrefix_of_reaches hreach)
        (admitted_isPrefix_of_reaches hmem.1)
    · intro hstop
      exact Part.some_inj.1 ((Task.runAlone_end hstop).symm.trans heval)
  rcases h with ⟨m₁, hp⟩ | ⟨m₁, t₁, hp, hend⟩
  · obtain ⟨hcloses, huniq⟩ := hlater hp rfl
    refine ⟨hcloses, ?_⟩
    rintro rfl
    cases huniq rfl
  · obtain ⟨hcloses, -⟩ := hlater hp hend
    exact ⟨hcloses.weaken fun _ hc => hc.elim, fun _ => hcloses⟩

/-- The frame that the inbound task is about to handle. -/
def InPhase.upcoming : InPhase → Option Frame
  | .decoding (c :: cs) =>
      match Frame.decode 64 (c :: cs) with
      | .ok (f, _) => some f
      | .error _ => none
  | _ => none

/-- A `Stream` frame that is about to be handled is for a stream in the table. -/
def Session.dataKnown (s : Session) : Bool :=
  match s.inb.phase.upcoming with
  | some (.stream id _ _) => decide (id ∈ s.mem.recvs.streams)
  | _ => true

/-- Steps of the inbound task alone. -/
def inboundAlone (_ : Session) (l : Label) : Prop := l = .inbound

/-- Steps of the inbound task alone, with no data for a stream that is not in the table. -/
def inboundKnown (s : Session) (l : Label) : Prop := l = .inbound ∧ s.dataKnown = true

instance (s : Session) (l : Label) : Decidable (inboundAlone s l) :=
  inferInstanceAs (Decidable (l = .inbound))

instance (s : Session) (l : Label) : Decidable (inboundKnown s l) :=
  inferInstanceAs (Decidable (l = .inbound ∧ s.dataKnown = true))

/-- **What the specification finds wrong with a message**, and the code that it prescribes: the
message is too large, or one of its frames is malformed when the inbound task comes to it, or it
violates something then. -/
inductive Offence (cfg : Config) (s₁ : Session) (data : List UInt8) : Nat → Prop where
  | message (h : cfg.limits.maxWsMessageSize < data.length) : Offence cfg s₁ data 2
  | malformed {s : Session} {c : UInt8} {cs : List UInt8} {e : FrameDecodeError}
      (hr : Reachable (Session.step cfg) inboundAlone s₁ s)
      (hp : s.inb.phase = .decoding (c :: cs)) (h : Frame.decode 64 (c :: cs) = .error e) :
      Offence cfg s₁ data 1
  | frame {s : Session} {f : Frame} {code : Nat}
      (hr : Reachable (Session.step cfg) inboundAlone s₁ s)
      (hp : s.inb.phase.upcoming = some f) (h : Prescribed cfg s.mem f code) :
      Offence cfg s₁ data code

/-- **Where the processing of a message is**, with the closes that were sent since `m`: none while it
decodes; in `handle_frame`, those of the call; at the end, those of the call that failed. -/
inductive Processing (cfg : Config) (C : Nat → Prop) (m : Memory) (s : Session) : Prop where
  | decoding (hp : s.inb.phase = .idle ∨ ∃ bytes, s.inb.phase = .decoding bytes)
      (h : ClosesIn (fun _ => False) m s.mem)
  | running {m₁ : Memory} {t₁ t : Task} {cursor : List UInt8} (hp : s.inb.phase = .running t cursor)
      (h : ClosesIn (fun _ => False) m m₁) (hf : Fair cfg C m₁ t₁)
      (hreach : StateTransition.Reaches (aloneStep cfg) (m₁, t₁) (s.mem, t))
  | ending {t : Task} (hp : s.inb.phase = .ending t) (h : ClosesIn C m s.mem)

theorem Processing.closesIn (h : Processing cfg C m s) : ClosesIn C m s.mem := by
  cases h with
  | decoding hp h => exact h.weaken fun _ hc => hc.elim
  | running hp h hf hreach => exact (h.weaken fun _ hc => hc.elim).trans (hf.closesIn hreach).1
  | ending hp h => exact h

/-- **One step of the inbound task.** -/
theorem Processing.step (hr : Reachable (Session.step cfg) anyStep {} s) (h : Processing cfg C m s)
    (hknown : s.dataKnown = true) (hs : s.step cfg .inbound = some s')
    (hbad : ∀ c cs e, s.inb.phase = .decoding (c :: cs) →
      Frame.decode 64 (c :: cs) = .error e → C 1)
    (hframe : ∀ f code, s.inb.phase.upcoming = some f → Prescribed cfg s.mem f code → C code) :
    Processing cfg C m s' := by
  obtain ⟨⟨a, b⟩, hb, rfl⟩ := Option.map_eq_some_iff.1 hs
  have hsteps := Inbound.steps_of_step hb
  -- the place where the processing was is the one that the step starts from
  cases h with
  | decoding hp h =>
      cases hsteps with
      | drained hp' => exact .decoding (.inl rfl) h
      | @frame c cs rest f hp' hd =>
          have hup : s.inb.phase.upcoming = some f := by
            rw [hp']
            simp only [InPhase.upcoming, hd]
          have hdata : ∀ id data fin, f = .stream id data fin → id ∈ s.mem.recvs.streams := by
            rintro id data fin rfl
            unfold Session.dataKnown at hknown
            rw [hup] at hknown
            exact of_decide_eq_true hknown
          refine .running rfl h ?_ .refl
          exact (fair_handleFrame hr f hdata).weaken fun code => hframe f code hup
      | malformed hp' hd =>
          exact .running rfl h (fair_protocolError (.inl (hbad _ _ _ hp' hd))) .refl
      | next hp' hn | finishing hp' hn =>
          rcases hp with hp | ⟨bytes, hp⟩ <;> cases hp.symm.trans hp'
      | _ =>
          rename_i hp'
          rcases hp with hp | ⟨bytes, hp⟩ <;> cases hp.symm.trans hp'
  | @running m₁ t₁ t cursor hp h hf hreach =>
      cases hsteps with
      | returned hp' =>
          rw [hp] at hp'
          cases hp'
          exact .decoding (.inr ⟨_, rfl⟩) (h.trans ((hf.closesIn hreach).2 rfl))
      | failed hp' =>
          have hcloses : ClosesIn C m s.mem := (h.weaken fun _ hc => hc.elim).trans
            (hf.closesIn hreach).1
          exact .ending rfl hcloses
      | next hp' hn =>
          rw [hp] at hp'
          cases hp'
          refine .running rfl h hf (hreach.tail ?_)
          simp [aloneStep, hn]
      | frame hp' hd | malformed hp' hd | finishing hp' hn => cases hp.symm.trans hp'
      | _ =>
          rename_i hp'
          cases hp.symm.trans hp'
  | @ending t hp h =>
      cases hsteps with
      | @finishing t₀ t' a hp' hn =>
          have hfin := finishing_of_ending hr t₀ hp'
          have hnone : a.frame? = none := by
            by_contra hne
            obtain ⟨f, hf⟩ := Option.ne_none_iff_exists'.1 hne
            cases Task.admits hn hf <;> cases hfin
          refine .ending rfl (h.trans (.of_eq ?_))
          show (s.mem.apply a).chan.admitted = s.mem.chan.admitted
          rw [Memory.admitted_apply, hnone]
          exact List.append_nil _
      | frame hp' hd | malformed hp' hd | next hp' hn => cases hp.symm.trans hp'
      | _ =>
          rename_i hp'
          cases hp.symm.trans hp'

/-- **The inbound task processes a message**: from the arrival of the message on, alone. -/
theorem processing_of_reachable {s₁ : Session} {data : List UInt8}
    (hr : Reachable (Session.step cfg) anyStep {} s)
    (hs : s.step cfg (.receive (.binary data)) = some s₁)
    (hr' : Reachable (Session.step cfg) inboundKnown s₁ s') :
    Processing cfg (Offence cfg s₁ data) s.mem s' := by
  refine hr'.invariant (I := Processing cfg (Offence cfg s₁ data) s.mem) ?_ ?_
  · -- the message arrives
    cases hp : s.inb.phase with
    | idle =>
        simp only [Session.step, hp, Inbound.receive] at hs
        split_ifs at hs with hlen <;> cases hs
        · exact .running rfl (.of_eq rfl) (fair_protocolError (.inl (.message hlen))) .refl
        · exact .decoding (.inr ⟨_, rfl⟩) (.of_eq rfl)
    | _ =>
        simp only [Session.step, hp] at hs
        cases hs
  · rintro x l x' hx h ⟨rfl, hknown⟩ hstep
    have halone : Reachable (Session.step cfg) inboundAlone s₁ x := hx.weaken fun _ _ h => h.1
    refine h.step ((hr.step trivial hs).trans hx.any) hknown hstep ?_ ?_
    · intro c cs e hp hd
      exact .malformed halone hp hd
    · intro f code hup hcode
      exact .frame halone hup hcode

end Session

end WebsockMux.Native
