import WebsockMux.Native.Alone

/-!
# Functions that meet no full queue

A function that runs alone is unhindered when each queue that it puts something into has room for it
(`Task.Unhindered`). In an open session `send_frame` and `try_send_frame` then place their frame, and
`protocol_error` its `ConnectionClose`; what is left of a function depends on the tables only.
-/

set_option autoImplicit false

namespace WebsockMux.Native

open WebsockMux.Lib WebsockMux.Proto

variable {cfg : Config} {m m' : Memory} {t t' : Task} {a : Access} {k : Ret}

/-- The queue that the next access of a function puts something into is full. -/
def Task.meetsFull (cfg : Config) (m : Memory) : Task → Bool
  | .reserve _ => !m.chan.hasSlot cfg
  | .trySend _ _ => !m.chan.hasSlot cfg
  | .acceptSend _ h => m.accept.full cfg h.isSome
  | .deliver id _ _ =>
      -- a channel without a receiver is closed, and not full
      (m.recvs.cell id).reader.receiverOpen &&
        decide (cfg.limits.recvEventQueueLen ≤ (m.recvs.cell id).events.length)
  | _ => false

/-- **A function meets no full queue** when it runs alone. -/
def Task.Unhindered (cfg : Config) (m : Memory) (t : Task) : Prop :=
  ∀ m' t', t.Goes cfg m m' t' → t'.meetsFull cfg m' = false

theorem Task.Unhindered.here (h : t.Unhindered cfg m) : t.meetsFull cfg m = false :=
  h m t (Task.Goes.refl cfg m t)

theorem Task.Unhindered.goes (h : t.Unhindered cfg m) (hg : t.Goes cfg m m' t') :
    t'.Unhindered cfg m' := fun m₁ t₁ h₁ => h m₁ t₁ (hg.trans h₁)

theorem Task.Unhindered.of_next (hf : t.meetsFull cfg m = false)
    (hn : ∀ a t', t.next cfg m = some (a, t') → t'.Unhindered cfg (m.apply a)) :
    t.Unhindered cfg m := by
  intro m₁ t₁ hg
  rcases Relation.ReflTransGen.cases_head hg with heq | ⟨⟨m₂, t₂⟩, hstep, hrest⟩
  · cases heq
    exact hf
  · obtain ⟨⟨a, t'⟩, hnext, heq⟩ := Option.map_eq_some_iff.1 hstep
    cases heq
    exact hn a t' hnext m₁ t₁ hrest

/-- The steps of a function that runs alone, at most `n` of them, if it meets no full queue. -/
def Task.upTo (cfg : Config) : Nat → Memory → Task → Option (Memory × Task)
  | 0, _, _ => none
  | n + 1, m, t =>
      if t.meetsFull cfg m then none
      else
        match t.next cfg m with
        | none => some (m, t)
        | some (a, t') => Task.upTo cfg n (m.apply a) t'

theorem Task.upTo_spec {n : Nat} (h : t.upTo cfg n m = some (m', t')) :
    t.Unhindered cfg m ∧ t.runAlone cfg m = Part.some (m', t') := by
  induction n generalizing m t with
  | zero => cases h
  | succ n ih =>
      unfold Task.upTo at h
      split_ifs at h with hfull
      have hf : t.meetsFull cfg m = false := by simpa using hfull
      split at h
      · next hn =>
        cases h
        refine ⟨.of_next hf ?_, Task.runAlone_end hn⟩
        intro a t' hn'
        rw [hn] at hn'
        cases hn'
      · next a t₁ hn =>
        obtain ⟨hu, hr⟩ := ih h
        refine ⟨.of_next hf ?_, (Task.runAlone_next hn).trans hr⟩
        intro a' t' hn'
        rw [hn] at hn'
        cases hn'
        exact hu

/-! ## Sending -/

/-- The session is open, and the outbound task has not dropped its receiver. -/
structure Memory.Free (m : Memory) : Prop extends m.IsOpen where
  receiver : m.chan.rxDropped = false

/-- A frame is placed on the outbound queue. -/
def Memory.place (m : Memory) (f : Frame) : Memory := { m with chan := m.chan.enqueue f }

theorem Memory.Free.place (h : m.Free) (f : Frame) : (m.place f).Free := ⟨⟨h.closed, h.shutdown⟩,
  h.receiver⟩

/-- An unhindered `send_frame` finds a free slot. -/
theorem Task.Unhindered.slot {s : SendSite} (hu : (sendFrame s).Unhindered cfg m) (ho : m.IsOpen) :
    m.chan.hasSlot cfg = true := by
  simpa [Task.meetsFull, Check.resume] using (hu.goes (goes_isClosed cfg ho (.send s))).here

/-- An unhindered `try_send_frame` finds a free slot. -/
theorem Task.Unhindered.trySlot {s : TrySite}
    (hu : (Task.anyOf isClosed (.trySend s k)).Unhindered cfg m) (ho : m.IsOpen) :
    m.chan.hasSlot cfg = true := by
  simpa [Task.meetsFull, Check.resume] using (hu.goes (goes_isClosed cfg ho (.trySend s k))).here

/-- `send_frame` places its frame. -/
theorem goes_sendFrame {s : SendSite} (hm : m.Free)
    (hp : m.sends.mayPublish (s.frame cfg) = true) (hu : (sendFrame s).Unhindered cfg m) :
    (sendFrame s).Goes cfg m (m.place (s.frame cfg)) (s.resume cfg true) := by
  have hopen := goes_isClosed cfg hm.toIsOpen (.send s)
  have hslot := hu.slot hm.toIsOpen
  have hres : (Task.reserve s).next cfg m = some (.chan .takeSlot, .publish s) := by
    simp [Task.next, hm.receiver, hslot]
  have hpub : (Task.publish s).next cfg (m.apply (.chan .takeSlot)) =
      some (.chan (.publish (s.frame cfg)), s.resume cfg true) := by
    simp only [Task.next]
    exact if_pos hp
  exact hopen.trans ((Task.Goes.single hres).trans (Task.Goes.last hpub rfl))

/-- `try_send_frame` places its frame. -/
theorem goes_trySendFrame {s : TrySite} (hm : m.Free)
    (hu : (Task.anyOf isClosed (.trySend s k)).Unhindered cfg m) :
    (Task.anyOf isClosed (.trySend s k)).Goes cfg m (m.place s.frame) (s.resume k true) := by
  have hopen := goes_isClosed cfg hm.toIsOpen (.trySend s k)
  have hslot := hu.trySlot hm.toIsOpen
  have htry : (Task.trySend s k).next cfg m = some (.chan (.trySend s.frame), s.resume k true) := by
    simp [Task.next, hm.receiver, hslot]
  exact hopen.trans (Task.Goes.last htry rfl)

/-- `protocol_error` tells the peer and closes the session. -/
theorem goes_protocolError {code : Nat} {reason : String} (hm : m.Free)
    (hu : (protocolError code reason k).Unhindered cfg m) :
    (protocolError code reason k).Goes cfg m (m.place (.connectionClose code reason)).closeAll
      k.resume :=
  (goes_trySendFrame hm hu).trans (goes_closeAll cfg _ k)

end WebsockMux.Native
