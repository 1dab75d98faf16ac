import WebsockMux.Wasm.Steps

/-!
# What a browser session guarantees

A browser session sends without waiting: `send_frame` fails when the outbound channel has no slot
for the session's sender. Four guarantees are proved here for the runs in which the calls that
cannot cope with this find a slot, each with a run in which they do not and the guarantee fails:

* handles that go away leave a terminal frame (`terminal_frames_announced`, `finish_without_slot`);
* an `open_bi` that fails leaves no stream at the peer (`openBi_all_or_nothing`,
  `openBi_half_sent`);
* a stream in the table has its first credit (`initial_credit_announced`,
  `initial_credit_lost`);
* a closed session strands no reader (`closing_strands_no_reader`, `openBi_while_closing`).
-/

set_option autoImplicit false

namespace WebsockMux.Wasm

open WebsockMux.Lib WebsockMux.Proto
open WebsockMux.Native (Limits ReadApi RecvStream)

variable {l : Limits} {s s' : Session} {label : Label} {m m' : Memory} {b : Bool}

/-- An outbound channel with one buffered frame. -/
def oneFrame : Limits := { outboundQueueLen := 1 }

/-! ## Terminal frames -/

/-- `finish`, `reset` and `stop` are called while the session's sender has a slot, or after shutdown
was requested. -/
def terminalWithSlot (s : Session) (label : Label) : Prop :=
  label.isTerminal = true → hasSlot s.mem = true

instance (s : Session) (label : Label) : Decidable (terminalWithSlot s label) :=
  inferInstanceAs (Decidable (_ → _))

/-- The last `SendStream` of a direction was dropped. -/
def SendGone (m : Memory) (id : StreamId) : Prop :=
  (∃ x ∈ m.handles, x.id = id) ∧ ∀ x ∈ m.handles, x.id = id → x.live = false

/-- A `RecvStream` was stopped or dropped while the table had it, that is before its terminal frame
arrived, and is gone. -/
def RecvGone (m : Memory) (id : StreamId) : Prop :=
  (m.recvs.cell id).stopped = true ∧ (m.recvs.cell id).reader.receiverOpen = false

instance (m : Memory) (id : StreamId) : Decidable (SendGone m id) :=
  inferInstanceAs (Decidable (_ ∧ _))

instance (m : Memory) (id : StreamId) : Decidable (RecvGone m id) :=
  inferInstanceAs (Decidable (_ ∧ _))

theorem SendDuty.announced (h : SendDuty m) {id : StreamId} (hg : SendGone m id) :
    Announced m (ends id) := by
  obtain ⟨⟨x, hx, rfl⟩, hdead⟩ := hg
  rcases h.live x hx with hdone | ⟨y, hy, hlive, hid⟩
  · exact hdone
  · rw [hdead y hy hid] at hlive
    cases hlive

theorem Safe.duties (h : Safe b m m') (hd : SendDuty m ∧ RecvDuty m) : SendDuty m' ∧ RecvDuty m' :=
  ⟨h.sends hd.1, h.recvs hd.2⟩

/-- A registration adds no duty. -/
theorem duties_register (l : Limits) (id : StreamId) (hd : SendDuty m ∧ RecvDuty m) :
    SendDuty (m.registerRecvStream l id) ∧ RecvDuty (m.registerRecvStream l id) :=
  ⟨hd.1.ofRecvs, hd.2.register⟩

theorem mem_handled (s : Session) (rest : List UInt8) (r : Memory × Except Error Unit) :
    (s.handled rest r).mem = r.1 := by
  obtain ⟨m, r⟩ := r
  cases r <;> rfl

theorem Calm.acceptPeerId (m : Memory) (id : StreamId) : Calm b m (m.acceptPeerId id) :=
  { Calm.refl b m with taskFinished := rfl }

theorem duties_step (h : Effect l s label s') (hok : terminalWithSlot s label)
    (hd : SendDuty s.mem ∧ RecvDuty s.mem) : SendDuty s'.mem ∧ RecvDuty s'.mem := by
  cases h with
  | call hm hl => exact hm.duties hd
  | terminal ht hm hsafe hl => exact (hsafe (hok ht)).duties hd
  | openBi =>
      rcases openBi_cases true l s.mem with hc | ⟨id, m₁, hc, -, hsafe, -⟩
      · exact hc.safe.duties hd
      · exact hsafe.duties (duties_register l id (hc.safe.duties hd))
  | task ht hm hp hc => exact hm.duties hd
  | @inbound cursor rest f id hp hf ho hm =>
      rw [mem_handled]
      have hpeer := (Calm.acceptPeerId (b := true) s.mem id).safe.duties hd
      have hreg := duties_register l id hpeer
      exact hm.duties ((Calm.trySendFrame (b := true) _ _).safe.duties hreg)
  | finished hp =>
      -- the receiver is dropped, which forgets no frame that was put into the channel
      have hrx : SendDuty { s.mem with chan := s.mem.chan.dropRx } ∧
          RecvDuty { s.mem with chan := s.mem.chan.dropRx } :=
        ⟨⟨hd.1.finished, hd.1.live, hd.1.offered⟩, ⟨hd.2.stopped, hd.2.stopSent, hd.2.running⟩⟩
      have h := (Calm.closeAll _).safe.duties hrx
      exact ⟨⟨h.1.finished, h.1.live, h.1.offered⟩, ⟨h.2.stopped, h.2.stopSent, h.2.running⟩⟩

theorem duties_init : SendDuty {} ∧ RecvDuty {} :=
  ⟨⟨nofun, nofun, nofun⟩, ⟨nofun, nofun, nofun⟩⟩

/-- **Terminal frames are sent or the session fails closed.** When the last `SendStream` of a
direction is gone, its FIN or `ResetStream` was put into the outbound channel, or shutdown was
requested; so was the `StopSending` of a `RecvStream` that was stopped or dropped early. -/
theorem terminal_frames_announced (hr : Reachable (Session.step l) terminalWithSlot {} s)
    (id : StreamId) : (SendGone s.mem id → Announced s.mem (ends id)) ∧
      (RecvGone s.mem id → Announced s.mem (stops id)) := by
  have hd : SendDuty s.mem ∧ RecvDuty s.mem := by
    refine Reachable.invariant (I := fun s => SendDuty s.mem ∧ RecvDuty s.mem) duties_init ?_ hr
    intro s label s' _ hd hok hs
    exact duties_step (effect_of_step hs) hok hd
  exact ⟨hd.1.announced, fun hg => hd.2.stopped id hg.1⟩

/-- A stream is opened and its handle dropped; then the peer opens a stream, and it is accepted and
dropped. -/
theorem terminal_frames_announced_run :
    ∃ s, Reachable (Session.step {}) terminalWithSlot {} s ∧
      (SendGone s.mem ⟨2⟩ ∧ RecvGone s.mem ⟨3⟩) ∧
      Announced s.mem (ends ⟨2⟩) ∧ Announced s.mem (stops ⟨3⟩) := by
  obtain ⟨s, hr, hs⟩ : ∃ s, Reachable (Session.step {}) terminalWithSlot {} s ∧
      (SendGone s.mem ⟨2⟩ ∧ RecvGone s.mem ⟨3⟩) :=
    Reachable.exists_of_run [.openUni, .dropSend 0, .receive (.binary [0, 3]), .frame, .acceptUni,
      .dropRecv ⟨3⟩] (by decide +kernel)
  exact ⟨s, hr, hs, (terminal_frames_announced hr ⟨2⟩).1 hs.1,
    (terminal_frames_announced hr ⟨3⟩).2 hs.2⟩

/-- **`finish` without a slot.** Two opens use the slots of the session's sender. `finish` of the
first stream sets `finished` and fails; the drop of its handle finds the flag and sends nothing. -/
theorem finish_without_slot :
    ∃ s, Reachable (Session.step oneFrame) anyStep {} s ∧
      SendGone s.mem ⟨2⟩ ∧ ¬ Announced s.mem (ends ⟨2⟩) :=
  Reachable.exists_of_run [.openUni, .openUni, .finish 0, .dropSend 0] (by decide +kernel)

/-! ## `open_bi` -/

/-- The frames that were put into the outbound channel between two states. -/
def sentSince (m m' : Memory) : List Frame := m'.chan.admitted.drop m.chan.admitted.length

/-- When `open_bi` fails, the `OpenBi` was not sent, or the stream was ended too, or the session is
shutting down. -/
def OpenBiClean (l : Limits) (m : Memory) : Prop :=
  ∀ id e, (m.nextStreamId .bi).2 = .ok id → (m.openBi l).2 = .error e →
    .openBi id ∉ sentSince m (m.openBi l).1 ∨ (∃ f ∈ sentSince m (m.openBi l).1, ends id f = true) ∨
      (m.openBi l).1.shutdownStarted = true

/-- The session's sender has one slot and not two. -/
def lastSlot (l : Limits) (m : Memory) : Bool :=
  m.chan.canSend 0 && decide (l.outboundQueueLen ≤ m.chan.queue.length)

theorem chan_undoOpenBi (m : Memory) (id : StreamId) : (m.undoOpenBi l id).chan = m.chan := by
  have hmem : id ∉ ((m.removeRecvStream id).removeSendFlow id).1.recvs.streams :=
    Finset.notMem_erase id _
  unfold Memory.undoOpenBi Memory.dropRecv Memory.stopRecvStream
  rw [if_neg hmem]
  rfl

/-- Behind the registrations, the two frames are sent together or not at all. -/
theorem chan_sendOpenBi {id : StreamId} {e : Error} (h : lastSlot l m = false)
    (he : (m.sendOpenBi l id).2 = .error e) : (m.sendOpenBi l id).1.chan = m.chan := by
  unfold Memory.sendOpenBi Memory.sendFrame at he ⊢
  rcases trySendFrame_cases l m (.openBi id) with ⟨hc, heq⟩ | ⟨-, heq⟩
  · rw [heq] at he ⊢
    dsimp only at he ⊢
    -- the sender has a second slot
    have hlen : m.chan.queue.length + 1 ≤ l.outboundQueueLen := by
      simp only [lastSlot, hc, Bool.true_and, decide_eq_false_iff_not] at h
      omega
    rcases trySendFrame_cases l { m with chan := m.chan.push l.outboundQueueLen 0 (.openBi id) }
        (.maxStreamData id l.initialStreamWindow) with ⟨-, heq⟩ | ⟨hc', -⟩
    · rw [heq] at he
      cases he
    · rw [ParkingChannel.canSend_push hc hlen] at hc'
      cases hc'
  · rw [heq]
    exact chan_undoOpenBi m id

/-- The next frame of the message in hand opens a stream. -/
def opensNext (s : Session) : Bool :=
  match s.phase with
  | .decoding cursor =>
      match Frame.decode 32 cursor with
      | .ok (.openUni _, _) | .ok (.openBi _, _) => true
      | _ => false
  | _ => false

/-- An inbound open is handled while the session's sender has a slot, or after shutdown was
requested. -/
def opensWithSlot (s : Session) (label : Label) : Prop :=
  label = .frame → opensNext s = true → hasSlot s.mem = true

instance (s : Session) (label : Label) : Decidable (opensWithSlot s label) :=
  inferInstanceAs (Decidable (_ → _ → _))

/-- The first credit of the stream was put into the outbound channel, or the session is closed or
shutting down. -/
def Credited (l : Limits) (m : Memory) (id : StreamId) : Prop :=
  m.closed = true ∨ m.shutdownStarted = true ∨
    .maxStreamData id l.initialStreamWindow ∈ m.chan.admitted

theorem Credited.keeps {id : StreamId} (h : Credited l m id) (hk : Keeps b m m') :
    Credited l m' id := by
  rcases h with h | h | h
  · exact .inl (hk.keepsClosed h)
  · exact .inr (.inl (hk.shutdown h))
  · exact .inr (.inr (hk.admitted.subset h))

theorem Credited.all_keeps (h : ∀ id ∈ m.recvs.streams, Credited l m id) (hk : Keeps b m m') :
    ∀ id ∈ m'.recvs.streams, Credited l m' id :=
  fun id hid => (h id (hk.streams hid)).keeps hk

/-- A registration adds one stream. -/
theorem Credited.all_register {i : StreamId} (h : ∀ id ∈ m.recvs.streams, Credited l m id)
    (hk : Keeps b (m.registerRecvStream l i) m')
    (hi : i ∈ m'.recvs.streams → Credited l m' i) : ∀ id ∈ m'.recvs.streams, Credited l m' id := by
  intro id hid
  by_cases heq : id = i
  · subst heq
    exact hi hid
  · have hid' : id ∈ m.recvs.streams := Finset.mem_of_mem_insert_of_ne (hk.streams hid) heq
    have hreg : Credited l (m.registerRecvStream l i) id := h id hid'
    exact hreg.keeps hk

theorem opensNext_of_inbound {cursor rest : List UInt8} {f : Frame} {id : StreamId}
    (hp : s.phase = .decoding cursor) (hf : Frame.decode 32 cursor = .ok (f, rest))
    (ho : f = .openUni id ∨ f = .openBi id) : opensNext s = true := by
  unfold opensNext
  rw [hp]
  dsimp only
  rw [hf]
  rcases ho with rfl | rfl
  · rfl
  · rfl

theorem closed_closeAll (m : Memory) : m.closeAll.closed = true := by
  unfold Memory.closeAll
  split_ifs with h
  · exact h
  · rfl

theorem credited_step (h : Effect l s label s') (hok : opensWithSlot s label)
    (hc : ∀ id ∈ s.mem.recvs.streams, Credited l s.mem id) :
    ∀ id ∈ s'.mem.recvs.streams, Credited l s'.mem id := by
  cases h with
  | call hm hl => exact Credited.all_keeps hc hm.toKeeps
  | terminal ht hm hsafe hl => exact Credited.all_keeps hc hm
  | openBi =>
      rcases openBi_cases true l s.mem with hm | ⟨id, m₁, hm, -, hsafe, hcase⟩
      · exact Credited.all_keeps hc hm.toKeeps
      · refine Credited.all_register (Credited.all_keeps hc hm.toKeeps) hsafe.toKeeps fun hid => ?_
        rcases hcase with hnot | ⟨-, hmax⟩
        · exact absurd hid hnot
        · exact .inr (.inr hmax)
  | task ht hm hp hc' => exact Credited.all_keeps hc hm.toKeeps
  | @inbound cursor rest f id hp hf ho hm =>
      rw [mem_handled]
      have hpeer := Credited.all_keeps hc (Calm.acceptPeerId (b := true) s.mem id).toKeeps
      have hslot : hasSlot ((s.mem.acceptPeerId id).registerRecvStream l id) = true :=
        hok rfl (opensNext_of_inbound hp hf ho)
      have hsend : Keeps true ((s.mem.acceptPeerId id).registerRecvStream l id)
          ((s.mem.acceptPeerId id).registerInbound l id) := (Calm.trySendFrame _ _).toKeeps
      refine Credited.all_register hpeer (hsend.trans hm.toKeeps) fun _ => ?_
      -- the credit finds a slot
      have hmax : Announced ((s.mem.acceptPeerId id).registerInbound l id)
          (fun f => decide (f = .maxStreamData id l.initialStreamWindow)) :=
        announced_trySendFrame (by simp) hslot
      rcases hmax.keeps hm.toKeeps with hdown | ⟨f, hf, hkind⟩
      · exact .inr (.inl hdown)
      · exact .inr (.inr (of_decide_eq_true hkind ▸ hf))
  | finished hp =>
      exact fun id _ => .inl (closed_closeAll _)

/-- **The first credit is not lost.** In a session that is neither closed nor shutting down, the
first credit of every stream in the table was put into the outbound channel. -/
theorem initial_credit_announced (hr : Reachable (Session.step l) opensWithSlot {} s)
    (hclosed : s.mem.closed = false) (hdown : s.mem.shutdownStarted = false) :
    ∀ id ∈ s.mem.recvs.streams, .maxStreamData id l.initialStreamWindow ∈ s.mem.chan.admitted := by
  have hc : ∀ id ∈ s.mem.recvs.streams, Credited l s.mem id := by
    refine Reachable.invariant (I := fun s => ∀ id ∈ s.mem.recvs.streams, Credited l s.mem id)
      (fun _ hid => absurd hid (Finset.notMem_empty _)) ?_ hr
    intro s label s' _ hc hok hs
    exact credited_step (effect_of_step hs) hok hc
  intro id hid
  rcases hc id hid with h | h | h
  · rw [hclosed] at h
    cases h
  · rw [hdown] at h
    cases h
  · exact h

/-- The peer opens a stream. -/
theorem initial_credit_announced_run :
    ∃ s, Reachable (Session.step {}) opensWithSlot {} s ∧
      (s.mem.recvs.streams = {⟨3⟩} ∧ s.mem.closed = false ∧ s.mem.shutdownStarted = false) ∧
      ∀ id ∈ s.mem.recvs.streams,
        .maxStreamData id ({} : Limits).initialStreamWindow ∈ s.mem.chan.admitted := by
  obtain ⟨s, hr, hs⟩ : ∃ s, Reachable (Session.step {}) opensWithSlot {} s ∧
      (s.mem.recvs.streams = {⟨3⟩} ∧ s.mem.closed = false ∧ s.mem.shutdownStarted = false) :=
    Reachable.exists_of_run [.receive (.binary [0, 3]), .frame] (by decide +kernel)
  exact ⟨s, hr, hs, initial_credit_announced hr hs.2.1 hs.2.2⟩

/-- **An open without a slot.** Two local opens use the slots of the session's sender; the first
credit for the stream that the peer opens is dropped, and the session goes on. -/
theorem initial_credit_lost :
    ∃ s, Reachable (Session.step oneFrame) anyStep {} s ∧
      s.phase = .select ∧ s.mem.closed = false ∧ s.mem.shutdownStarted = false ∧
      ⟨3⟩ ∈ s.mem.recvs.streams ∧
      .maxStreamData ⟨3⟩ oneFrame.initialStreamWindow ∉ s.mem.chan.admitted :=
  Reachable.exists_of_run [.openUni, .openUni, .receive (.binary [0, 3]), .frame, .frame]
    (by decide +kernel)

/-! ## Closing -/

/-- `open_bi` is not called between `close_all` and the end of the session task. -/
def opensBeforeClose (s : Session) (label : Label) : Prop :=
  label = .openBi → ¬ (s.mem.closed = true ∧ s.mem.chan.isOpen = true)

instance (s : Session) (label : Label) : Decidable (opensBeforeClose s label) :=
  inferInstanceAs (Decidable (_ → _))

/-- A closed session has no receive streams, and its task has left the loop. -/
structure ClosedInv (s : Session) : Prop where
  streams : s.mem.closed = true → s.mem.recvs.streams = ∅
  ending : s.mem.closed = true → s.phase.ending = true
  closed : s.mem.taskFinished = true → s.mem.closed = true

theorem Keeps.streams_empty (hk : Keeps b m m') (h : m.recvs.streams = ∅) :
    m'.recvs.streams = ∅ :=
  Finset.subset_empty.1 (h ▸ hk.streams)

/-- A call of the application neither opens nor closes the session. -/
theorem ClosedInv.call (hi : ClosedInv s) (hm : Keeps false s.mem s'.mem)
    (hl : s'.loop = s.loop) : ClosedInv s' := by
  have hclosed : s'.mem.closed = true → s.mem.closed = true := fun h =>
    (hm.closed h).resolve_right fun h => Bool.false_ne_true h.1
  refine ⟨fun h => hm.streams_empty (hi.streams (hclosed h)), fun h => ?_, fun h => ?_⟩
  · rw [show s'.phase = s.phase from congrArg Prod.fst hl]
    exact hi.ending (hclosed h)
  · rw [hm.taskFinished] at h
    exact hm.keepsClosed (hi.closed h)

theorem ClosedInv.openBi (hi : ClosedInv s) (hok : opensBeforeClose s .openBi) :
    ClosedInv (s.withMem (s.mem.openBi l).1) := by
  rcases openBi_cases false l s.mem with hm | ⟨id, m₁, hm, -, hsafe, hcase⟩
  · exact hi.call hm.toKeeps rfl
  · have hfalse : ∀ {p : Prop}, ¬ (false = true ∧ p) := fun h => Bool.false_ne_true h.1
    have hclosed : (s.mem.openBi l).1.closed = true → s.mem.closed = true := by
      intro h
      have hreg : m₁.closed = true := (hsafe.closed h).resolve_right hfalse
      exact (hm.closed hreg).resolve_right hfalse
    refine ⟨fun h => ?_, fun h => hi.ending (hclosed h), fun h => ?_⟩
    · -- the channel is closed, so that the registration was taken back
      have hid : id ∉ (s.mem.openBi l).1.recvs.streams :=
        hcase.resolve_right fun hopen => hok rfl ⟨hclosed h, hopen.1⟩
      have hsub : (s.mem.openBi l).1.recvs.streams ⊆ insert id m₁.recvs.streams := hsafe.streams
      rw [hm.toKeeps.streams_empty (hi.streams (hclosed h))] at hsub
      refine Finset.eq_empty_of_forall_notMem fun i hmem => ?_
      have hi := hsub hmem
      rw [Finset.mem_insert] at hi
      rcases hi with rfl | hi
      · exact hid hmem
      · exact Finset.notMem_empty i hi
    · have htask : (s.mem.openBi l).1.taskFinished = s.mem.taskFinished :=
        hsafe.taskFinished.trans hm.taskFinished
      have hreg : (m₁.registerRecvStream l id).closed = true :=
        hm.keepsClosed (hi.closed (htask ▸ h))
      exact hsafe.keepsClosed hreg

theorem ending_handled {rest : List UInt8} {r : Memory × Except Error Unit} (h : r.2 ≠ .ok ()) :
    (s.handled rest r).phase.ending = true := by
  obtain ⟨m, r⟩ := r
  cases r with
  | ok u => exact absurd rfl h
  | error e => rfl

theorem closedInv_step (h : Effect l s label s') (hok : opensBeforeClose s label)
    (hi : ClosedInv s) : ClosedInv s' := by
  -- while the session task is in its loop, the session is open
  have hopen : s.phase.ending = false → s.mem.closed = false := by
    intro hp
    by_contra hc
    rw [hi.ending (Bool.of_not_eq_false hc)] at hp
    cases hp
  cases h with
  | call hm hl => exact hi.call hm.toKeeps hl
  | terminal ht hm hsafe hl => exact hi.call hm hl
  | openBi => exact hi.openBi hok
  | task ht hm hp hc =>
      have hno : ¬ s.mem.closed = true := by
        rw [hopen hp]
        exact Bool.false_ne_true
      refine ⟨fun h => ?_, fun h => (hc h).resolve_left hno, fun h => ?_⟩
      · exact ((hm.closed h).resolve_left hno).2
      · rw [hm.taskFinished] at h
        exact hm.keepsClosed (hi.closed h)
  | @inbound cursor rest f id hp hf ho hm =>
      have hno : s.mem.closed = false := hopen (by rw [hp]; rfl)
      have hreg : ((s.mem.acceptPeerId id).registerInbound l id).closed = s.mem.closed := rfl
      refine ⟨fun h => ?_, fun h => ?_, fun h => ?_⟩
      · rw [mem_handled] at h ⊢
        refine ((hm.closed h).resolve_left ?_).2
        rw [hreg, hno]
        exact Bool.false_ne_true
      · rw [mem_handled] at h
        refine ending_handled ((closesOnError_handleFrame s.mem f h).resolve_left ?_)
        rw [hno]
        exact Bool.false_ne_true
      · rw [mem_handled] at h
        have hfin := hi.closed (hm.taskFinished ▸ h)
        rw [hno] at hfin
        cases hfin
  | finished hp =>
      refine ⟨fun _ => ?_, fun _ => rfl, fun _ => ?_⟩
      · simp only [Session.finishTask, Memory.closeAll]
        split_ifs with h
        · exact hi.streams h
        · rfl
      · simp only [Session.finishTask]
        exact closed_closeAll _

/-- **Closing a session strands no reader.** When the session task has finished, the table of
receive streams is empty, and no read waits. -/
theorem closing_strands_no_reader (hr : Reachable (Session.step l) opensBeforeClose {} s)
    (hfin : s.mem.taskFinished = true) : s.mem.recvs.streams = ∅ ∧
      ∀ (id : StreamId) (api : ReadApi) (n : Nat), s.mem.read l id api n ≠ none := by
  have hi : ClosedInv s := by
    have hno : ¬ ({} : Session).mem.closed = true := Bool.false_ne_true
    refine Reachable.invariant (I := ClosedInv) ?_ ?_ hr
    · exact ⟨fun h => absurd h hno, fun h => absurd h hno, fun h => absurd h Bool.false_ne_true⟩
    intro s label s' _ hi hok hs
    exact closedInv_step (effect_of_step hs) hok hi
  have hempty := hi.streams (hi.closed hfin)
  refine ⟨hempty, fun id api n => ?_⟩
  unfold Memory.read
  rw [hempty, decide_eq_false (Finset.notMem_empty id)]
  split
  · next heq => exact absurd heq (RecvStream.poll_ne_wait _ _ _ _ _)
  all_goals nofun

/-- The peer opens a stream and sends an invalid message, and the session task ends. -/
theorem closing_strands_no_reader_run :
    ∃ s, Reachable (Session.step {}) opensBeforeClose {} s ∧
      ((s.mem.recvs.cell ⟨3⟩).reader.held = true ∧ s.mem.taskFinished = true) ∧
      s.mem.read {} ⟨3⟩ .read 1 ≠ none := by
  obtain ⟨s, hr, hs⟩ : ∃ s, Reachable (Session.step {}) opensBeforeClose {} s ∧
      ((s.mem.recvs.cell ⟨3⟩).reader.held = true ∧ s.mem.taskFinished = true) :=
    Reachable.exists_of_run [.receive (.binary [0, 3]), .frame, .frame, .acceptUni, .receive .text,
      .connClosed] (by decide +kernel)
  exact ⟨s, hr, hs, (closing_strands_no_reader hr hs.2).2 _ _ _⟩

/-- **`open_bi` while the session closes.** After a protocol error, and before the WebSocket is
closed, `open_bi` succeeds; nothing removes its stream, and reads of it wait. -/
theorem openBi_while_closing :
    ∃ s, Reachable (Session.step {}) anyStep {} s ∧
      s.mem.taskFinished = true ∧ (s.mem.recvs.cell ⟨0⟩).reader.held = true ∧
      ⟨0⟩ ∈ s.mem.recvs.streams ∧ (s.mem.read {} ⟨0⟩ .read 1).isNone = true :=
  Reachable.exists_of_run [.receive .text, .openBi, .connClosed] (by decide +kernel)
end WebsockMux.Wasm
