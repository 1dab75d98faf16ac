import WebsockMux.Native.Doomed
import WebsockMux.Native.Emission

/-!
# Open sessions

While neither `closed` nor `shutdown_started` is set, no function is behind the store that precedes
a cancellation (`Task.early`), so that the session is not cancelled, no `Shutdown` command was sent,
the peer's close was not notified, and the loop of the outbound task runs unless the transport
failed (`stillOpen_of_reachable`).
-/

set_option autoImplicit false

namespace WebsockMux.Native

open WebsockMux.Lib WebsockMux.Proto

variable {cfg : Config} {m : Memory} {v v' : View} {who : Option Nat} {a : Access}

/-- A continuation that does not cancel the session. -/
def Ret.early : Ret → Bool
  | .taskFinished => false
  | .requestShutdown k => k.early
  | .protocolError _ _ k => k.early
  | .releaseHandle _ k => k.early
  | .closeReceiver _ k => k.early
  | .dropRecv _ k => k.early
  | .dropSend _ _ k => k.early
  | .dropTx _ k => k.early
  | _ => true

def Check.early : Check → Bool
  | .trySend _ k => k.early
  | .dropSend _ _ k => k.early
  | _ => true

/-- A control point that a function can reach before `closed` or `shutdown_started` is set. -/
def Task.early : Task → Bool
  | .anyOf _ c => c.early
  | .trySend _ k => k.early
  | .storeShutdown k => k.early
  | .cancel _ => false
  | .closeAll .swapClosed _ => true
  | .closeAll _ _ => false
  | .abandonCancel _ => false
  | .dropSend _ _ k => k.early
  | .dropSendRemove _ _ k => k.early
  | .releaseHandle _ k => k.early
  | .dropRecv _ k => k.early
  | .dropRecvSwap _ k => k.early
  | .closeReceiver _ k => k.early
  | .dropTx _ k => k.early
  | .shutdownSlot => false
  | .shutdownSend => false
  | .shutdownAck _ => false
  | .shutdownPeer => false
  | .shutdownWait => false
  | .shutdownCancel => false
  | .taskCancel => false
  | _ => true

/-- An access that neither cancels the session, nor sends a `Shutdown`, nor notifies the peer's
close. -/
def Access.harmless : Access → Bool
  | .flag .cancelled => false
  | .flag (.peerCloseNotify true) => false
  | .chan .shutdown => false
  | _ => true

/-- An access that makes the outbound task leave its loop. -/
def Access.stopping : Access → Bool
  | .flag .cancelled => true
  | .flag (.peerCloseNotify true) => true
  | _ => false

theorem Access.stopping_of_harmless (h : a.harmless = true) : a.stopping = false := by
  cases a with
  | flag b =>
      cases b with
      | cancelled => cases h
      | peerCloseNotify on => cases on <;> first | rfl | cases h
      | _ => rfl
  | _ => rfl

theorem Ret.early_resume {k : Ret} (h : k.early = true) : k.resume.early = true := by
  cases k <;> first | rfl | exact h

theorem SendSite.early_resume (s : SendSite) (ok : Bool) : (s.resume cfg ok).early = true := by
  cases s with
  | write c =>
      cases ok with
      | false => rfl
      | true =>
          simp only [SendSite.resume, writeLoop]
          split_ifs <;> rfl
  | inboundCredit i bi => cases bi <;> cases ok <;> rfl
  | _ => cases ok <;> rfl

theorem TrySite.early_resume {k : Ret} (h : k.early = true) (s : TrySite) (ok : Bool) :
    (s.resume k ok).early = true := by
  cases s <;> cases ok <;> first | rfl | exact h

theorem Check.early_resume {c : Check} (h : c.early = true) (b : Bool) :
    (c.resume cfg b).early = true := by
  cases c with
  | send s => cases b <;> first | rfl | exact s.early_resume false
  | trySend s k =>
      cases b with
      | false => exact h
      | true => exact TrySite.early_resume h s false
  | writeStart w =>
      cases b with
      | true => rfl
      | false =>
          simp only [Check.resume, writeLoop]
          split_ifs <;> rfl
  | reserveOpen w =>
      cases b with
      | false => rfl
      | true =>
          simp only [Check.resume, outOfCredit]
          split_ifs <;> rfl
  | noCredit w =>
      cases b with
      | true => rfl
      | false =>
          simp only [Check.resume]
          split_ifs <;> rfl
  | dropSend h' i k => cases b <;> exact h
  | _ => cases b <;> rfl

theorem SendCall.early_body (c : SendCall) : c.body.early = true := by
  cases c <;> simp only [SendCall.body] <;> (try split_ifs) <;> rfl

theorem early_acceptDrop (i : StreamId) (x : Option Nat) : (acceptDrop i x).early = true := by
  cases x <;> rfl

/-- **A function that has not closed the session does no harm** in its next access: it stays before
the store, or the store is this access. -/
theorem Task.early_next {t t' : Task} (h : t.early = true) (hn : t.next cfg m = some (a, t')) :
    a.harmless = true ∧ (t'.early = true ∨ (m.apply a).flags.isClosed = true) := by
  have hshut : ({ m.flags with shutdownStarted := true } : Flags).isClosed = true :=
    Bool.or_true _
  replace hn := Task.steps_of_next hn
  induction hn with
  | anyOfNil | anyOfSet | anyOfLast => exact ⟨rfl, .inl (Check.early_resume h _)⟩
  | reserveClosed s | publish s | unpublished s => exact ⟨rfl, .inl (s.early_resume _)⟩
  | trySend s | trySendFull s => exact ⟨rfl, .inl (TrySite.early_resume h s _)⟩
  | storeShutdown | abandon | swapShutdown => exact ⟨rfl, .inr hshut⟩
  | closeAllAgain k hc => exact ⟨rfl, .inr (Bool.or_eq_true_iff.2 (.inl hc))⟩
  | closeAll c k =>
      cases c with
      | swapClosed => exact ⟨rfl, .inr rfl⟩
      | _ => cases h
  | selectApi c | selectApiSame c => exact ⟨rfl, .inl (by cases c <;> rfl)⟩
  | swapOperation c => exact ⟨rfl, .inl c.early_body⟩
  | outOfCredit w => exact ⟨rfl, .inl (outOfCredit_elim w fun _ => rfl)⟩
  | casSent => exact ⟨rfl, .inl (granted_elim _ rfl rfl)⟩
  | anyOf | dropSendLast | dropSend | dropSendRemove | dropRecvFinished | dropRecv | dropRecvGone
  | dropRecvAgain | dropRecvSwap => exact ⟨rfl, .inl h⟩
  | releaseHandle | closeReceiver | dropTx => exact ⟨rfl, .inl (Ret.early_resume h)⟩
  | acceptLockGone i x | acceptClosed i x =>
      exact ⟨rfl, .inl (Ret.early_resume (early_acceptDrop i x))⟩
  | acceptFull i x => exact ⟨rfl, .inl (early_acceptDrop i x)⟩
  | _ => first | exact ⟨rfl, .inl rfl⟩ | contradiction

theorem Task.early_cancelled {t t' : Task} (h : t.cancelled = some t') : t'.early = true := by
  cases t with
  | reserve s => cases s <;> cases h <;> rfl
  | _ => cases h <;> rfl

theorem Task.early_aborted {t t' : Task} (he : t.early = true) (h : t.aborted = some t') :
    t'.early = true := by
  cases t with
  | reserve s => cases s <;> cases h <;> rfl
  | acceptLock i x =>
      cases h
      exact Ret.early_resume (early_acceptDrop i x)
  | closeAll c k => cases c <;> first | (cases h; done) | cases he
  | _ => cases h

theorem early_handleFrame (f : Frame) : (handleFrame cfg f).early = true := by
  cases f with
  | openUni i =>
      simp only [handleFrame]
      split_ifs <;> rfl
  | openBi i =>
      simp only [handleFrame]
      split_ifs <;> rfl
  | stream i data fin =>
      simp only [handleFrame]
      split_ifs <;> rfl
  | _ => rfl

theorem Turn.early {t t' : Task} {fs : List Frame} {b : Bool} (h : Turn cfg v t t' fs b) :
    t'.early = true := by
  cases h with
  | frame hl hf => exact early_handleFrame _
  | _ => rfl

theorem Call.early_start {c : Call} {u : Use} {t : Task} (h : c.start m = some (u, a, t)) :
    t.early = true ∧ a.harmless = true := by
  cases Call.starts_of_start h <;> exact ⟨rfl, rfl⟩

/-- The functions of a session that is open after the move. -/
theorem Moves.early (h : Moves cfg v who v') (ho : v'.mem.flags.isClosed = false)
    (hv : ∀ t ∈ v.tasks, t.early = true) : ∀ t ∈ v'.tasks, t.early = true := by
  cases h with
  | @next i t t' a hi hn =>
      refine forall_mem_set hv ?_
      rcases (Task.early_next (hv t (List.mem_of_getElem? hi)) hn).2 with he | hc
      · exact he
      · rw [show (v.mem.apply a).flags.isClosed = false from ho] at hc
        cases hc
  | cancel hi hc => exact forall_mem_set hv (Task.early_cancelled hc)
  | timeout hi hc =>
      -- only a shutdown in progress has a deadline
      have he := hv _ (List.mem_of_getElem? hi)
      rename_i t _
      cases t <;> first | (cases hc; done) | cases he
  | abort hi ha => exact forall_mem_set hv (Task.early_aborted (hv _ (List.mem_of_getElem? hi)) ha)
  | turn hi ht => exact forall_mem_set hv ht.early
  | exit hi => exact forall_mem_set hv rfl
  | spawn hc => exact forall_mem_concat hv (Call.early_start hc).1
  | loop ha hb => exact hv

/-! ## The two session tasks -/

/-- The inbound task has not yet notified the outbound task of the peer's close. -/
def InPhase.early : InPhase → Bool
  | .closing .notify => false
  | .closing .wait => false
  | _ => true

theorem Inbound.harmless_receive {b b' : Inbound} {msg : Message}
    (h : b.receive cfg m msg = some (a, b')) : a.harmless = true ∧ (b.phase.early = true →
      b'.phase.early = true) := by
  unfold Inbound.receive at h
  repeat' split at h
  all_goals cases h
  all_goals exact ⟨rfl, fun h => by first | rfl | exact h⟩

theorem Inbound.harmless_step {b b' : Inbound} (h : b.step cfg m = some (a, b'))
    (hp : b.phase.early = true) (ht : b.phase.task.early = true) :
    a.harmless = true ∧ (b'.phase.early = true ∨ (m.apply a).flags.isClosed = true) := by
  cases Inbound.steps_of_step h with
  | next heq hn =>
      rw [heq] at ht
      exact ⟨(Task.early_next ht hn).1, .inl rfl⟩
  | finishing heq hn =>
      rw [heq] at ht
      exact ⟨(Task.early_next ht hn).1, .inl rfl⟩
  | shutdownStarted heq => exact ⟨rfl, .inr (Bool.or_true _)⟩
  | notify heq =>
      rw [heq] at hp
      cases hp
  | _ => exact ⟨rfl, .inl rfl⟩

theorem Inbound.early_leave {b b' : Inbound} (h : b.leave = some b') : b'.phase.early = true := by
  unfold Inbound.leave at h
  split at h <;> cases h <;> rfl

theorem Inbound.early_cancel {b b' : Inbound} (h : b.cancel = some b') : b'.phase.early = true := by
  unfold Inbound.cancel at h
  split at h
  · split at h <;> cases h
    rfl
  · exact Inbound.early_leave h

theorem Outbound.harmless_step {o o' : Outbound} {c : OutChoice}
    (h : o.step cfg m c = some (a, o')) (ht : o.pc.task.early = true) : a.harmless = true := by
  have hack : ∀ r k, (ackAccess r k).harmless = true := by
    intro r k
    cases k <;> rfl
  have hfail : ∀ k, o.failed k = (a, o') → a.harmless = true := by
    intro k hk
    cases k <;> cases hk <;> rfl
  unfold step at h
  split at h
  all_goals try (cases h; done)
  all_goals try (cases h; first | rfl | exact hack _ _)
  all_goals try exact hfail _ (Option.some.inj h)
  · split_ifs at h <;> cases h <;> rfl
  · split_ifs at h <;> cases h <;> rfl
  · split at h <;> cases h
    rfl
  · split_ifs at h
    cases h
    rfl
  · obtain ⟨o₁, -, heq⟩ := Option.map_eq_some_iff.1 h
    cases heq
    rfl
  · rename_i heq
    rw [heq] at ht
    split at h
    · rename_i hn
      cases h
      exact (Task.early_next ht hn).1
    · cases h

theorem Outbound.harmless_cancel {o o' : Outbound} (h : o.cancel = some (a, o')) :
    a.harmless = true := by
  have hdrop : ∀ k, (dropAccess k).harmless = true := by
    intro k
    cases k <;> rfl
  unfold cancel at h
  split at h
  · cases h
    rfl
  · cases h
    exact hdrop _
  · cases h
    exact hdrop _
  · cases h
    exact hdrop _
  · cases h

/-! ## Open sessions -/

/-- What an open session has not done. -/
structure StillOpen (s : Session) : Prop where
  tasks : ∀ t ∈ s.tasks, t.early = true
  phase : s.inb.phase.early = true
  cancelled : s.mem.flags.cancelled = false
  notify : s.mem.flags.peerCloseNotify = false
  queue : ∀ n, .shutdown n ∉ s.mem.chan.queue
  shutting : s.out.shutting = false

section

variable {s s' : Session} {l : Label}

theorem Memory.flags_not_stopping (ha : a.stopping = false) (hc : m.flags.cancelled = false)
    (hp : m.flags.peerCloseNotify = false) :
    (m.apply a).flags.cancelled = false ∧ (m.apply a).flags.peerCloseNotify = false := by
  cases a with
  | flag b =>
      cases b with
      | cancelled => cases ha
      | peerCloseNotify on =>
          cases on with
          | false => exact ⟨hc, rfl⟩
          | true => cases ha
      | _ => exact ⟨hc, hp⟩
  | session clone => cases clone <;> exact ⟨hc, hp⟩
  | _ => exact ⟨hc, hp⟩

/-- The access of a step of an open session. -/
theorem StillOpen.harmless (h : StillOpen s) (hs : s.step cfg l = some s')
    (ha : s.access cfg l = some a) : a.harmless = true := by
  cases l with
  | call c =>
      obtain ⟨⟨u, b, t⟩, hc, heq⟩ := Option.map_eq_some_iff.1 ha
      exact heq ▸ (Call.early_start hc).2
  | op i =>
      obtain ⟨o, ho, hm⟩ := Option.bind_eq_some_iff.1 ha
      obtain ⟨⟨b, t⟩, hn, heq⟩ := Option.map_eq_some_iff.1 hm
      have hmem : o.task ∈ s.tasks := by
        refine List.mem_cons_of_mem _ (List.mem_cons_of_mem _ ?_)
        exact List.mem_map_of_mem (List.mem_of_getElem? ho)
      exact heq ▸ (Task.early_next (h.tasks _ hmem) hn).1
  | receive msg =>
      obtain ⟨⟨b, x⟩, hb, heq⟩ := Option.map_eq_some_iff.1 ha
      exact heq ▸ (Inbound.harmless_receive hb).1
  | inbound =>
      obtain ⟨⟨b, x⟩, hb, heq⟩ := Option.map_eq_some_iff.1 ha
      exact heq ▸ (Inbound.harmless_step hb h.phase (h.tasks _ List.mem_cons_self)).1
  | outbound c =>
      obtain ⟨⟨b, x⟩, hb, heq⟩ := Option.map_eq_some_iff.1 ha
      exact heq ▸ Outbound.harmless_step hb
        (h.tasks _ (List.mem_cons_of_mem _ List.mem_cons_self))
  | outboundCancel =>
      obtain ⟨⟨b, x⟩, hb, heq⟩ := Option.map_eq_some_iff.1 ha
      exact heq ▸ Outbound.harmless_cancel hb
  | assign k =>
      cases ha
      rfl
  | _ =>
      cases ha
      rfl

/-- Without a `Shutdown` command the loop does not shut down. -/
theorem Outbound.Takes.noShutdown {o o' : Outbound} (ht : o.Takes m o' a)
    (ha : a.harmless = true) (hq : ∀ n, .shutdown n ∉ m.chan.queue) (hs : o.shutting = false) :
    (∀ n, .shutdown n ∉ (m.apply a).chan.queue) ∧ o'.shutting = false := by
  cases ht with
  | nothing hplain hk =>
      refine ⟨fun n hn => ?_, ?_⟩
      · rw [m.queue_apply hplain] at hn
        rcases List.mem_append.1 hn with hn | hn
        · exact hq n hn
        · have hcmd := Option.mem_toList.1 hn
          cases a with
          | chan b => cases b <;> first | (cases hcmd; done) | cases ha
          | handle b => cases b <;> cases hcmd
          | _ => cases hcmd
      · cases hsh : o'.shutting with
        | false => rfl
        | true => exact absurd (hk.started hsh) (by rw [hs]; exact nofun)
  | @command c rest hp hqueue =>
      have hrest : (m.apply (.chan .pop)).chan.queue = rest := congrArg List.tail hqueue
      rw [hrest]
      refine ⟨fun n hn => hq n (hqueue ▸ List.mem_cons_of_mem _ hn), ?_⟩
      have hc : o.closeSent = false := (Outbound.shutting_of_selectRecv hp).symm.trans hs
      show (o.closeSent || c.barrier?.any OutboundCmd.isShutdown) = false
      rw [hc]
      cases c with
      | shutdown n => exact absurd (hqueue ▸ List.mem_cons_self) (hq n)
      | _ => rfl
  | credit hp hc hm =>
      refine ⟨hq, ?_⟩
      show (o.closeSent || false) = false
      rw [hc]
      rfl
  | leave hp =>
      refine ⟨nofun, ?_⟩
      have hc := (Bool.or_eq_false_iff.1 hs).1
      show (o.closeSent || false) = false
      rw [hc]
      rfl

/-- What becomes of the inbound task: it stays as it is, or it takes a step with its access. -/
theorem StillOpen.phase_step (h : StillOpen s) (ho : s'.mem.flags.isClosed = false)
    (hs : s.step cfg l = some s') : s'.inb.phase.early = true := by
  cases Session.steps_of_step hs with
  | receive hp hb => exact (Inbound.harmless_receive hb).2 h.phase
  | receiveEnd hb => exact Inbound.early_leave hb
  | @inbound a b hb =>
      rcases (Inbound.harmless_step hb h.phase (h.tasks _ List.mem_cons_self)).2 with hp | hc
      · exact hp
      · rw [show (s.mem.apply a).flags.isClosed = false from ho] at hc
        cases hc
  | inboundCancel hc hb => exact Inbound.early_cancel hb
  | _ => exact h.phase

/-- **A step keeps what holds of an open session**, if it leaves the session open. -/
theorem StillOpen.step (h : StillOpen s) (ho : s'.mem.flags.isClosed = false)
    (hs : s.step cfg l = some s') : StillOpen s' := by
  obtain ⟨a, ha, hm, ht⟩ := takes_of_step hs
  have hharm := h.harmless hs ha
  obtain ⟨hc, hp⟩ := Memory.flags_not_stopping (Access.stopping_of_harmless hharm)
    h.cancelled h.notify
  obtain ⟨hq, hsh⟩ := ht.noShutdown hharm h.queue h.shutting
  rw [← hm] at hc hp hq
  exact ⟨(Session.moves_of_step hs).early ho h.tasks, h.phase_step ho hs, hc, hp, hq, hsh⟩

theorem isClosed_of_step (h : s.mem.flags.isClosed = true) (hs : s.step cfg l = some s') :
    s'.mem.flags.isClosed = true := by
  obtain ⟨a, -, hm, -⟩ := takes_of_step hs
  rw [hm]
  exact Memory.isClosed_apply a h

/-- **What an open session has not done**, in every run. -/
theorem stillOpen_of_reachable {ok : Session → Label → Prop}
    (hr : Reachable (Session.step cfg) ok {} s) (ho : s.mem.flags.isClosed = false) :
    StillOpen s := by
  induction hr with
  | init =>
      refine ⟨?_, rfl, rfl, rfl, nofun, rfl⟩
      intro t ht
      have ht : t = .done := by simpa [Session.tasks, InPhase.task, OutPc.task] using ht
      rw [ht]
      rfl
  | @step s s' l hr _ hs ih =>
      refine (ih ?_).step ho hs
      cases hc : s.mem.flags.isClosed with
      | false => rfl
      | true =>
          rw [isClosed_of_step hc hs] at ho
          cases ho

end

end WebsockMux.Native
