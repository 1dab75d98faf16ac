import WebsockMux.Native.StillOpen

/-!
# What is written before the sink is gone

The outbound task leaves its loop when the session is cancelled, when the peer closes, or when the
transport fails. The biased `select!` prefers the first two to the queue, so that commands which are
still queued are lost. This module follows the frames that are queued in an open session: as long as
a cancellation waits until the loop has drained, or has sent the close of a `Shutdown`, they are all
written before the sink is closed or dropped (`Kept`). Both the notification of a protocol error and
a graceful shutdown rest on this, and without the wait both fail.
-/

set_option autoImplicit false

namespace WebsockMux.Native

open WebsockMux.Lib WebsockMux.Proto
open WebsockMux.Proto.Frame (decodeMessage decodeMessages)

variable {cfg : Config} {m : Memory} {o o' : Outbound} {a : Access} {s s' : Session} {l : Label}

/-! ## Leaving the loop -/

/-- A continuation that leaves the loop. -/
def OutNext.leaves : OutNext → Bool
  | .close => true
  | .leave => true
  | _ => false

/-- The loop is left, or will be when its operation of the sink is done. -/
def OutPc.leaving : OutPc → Bool
  | .sending _ k => k.leaves
  | .flushing k => k.leaves
  | .closing k => k.leaves
  | .exit => true
  | .ending _ => true
  | _ => false

namespace Outbound

theorem leaving_proceed {k : OutNext} (hk : k.leaves = false) : (o.proceed k).pc.leaving = false := by
  cases k <;> first | rfl | cases hk

theorem leaving_flushBatch {k : OutNext} (hk : k.leaves = false) :
    (o.flushBatch k).pc.leaving = false := by
  unfold flushBatch
  split_ifs
  · exact leaving_proceed hk
  · exact hk

/-- **The loop runs on** unless the session is cancelled, the peer closes or the transport fails. -/
theorem stays_step {c : OutChoice} (hp : o.pc.leaving = false) (hs : o.step cfg m c = some (a, o'))
    (hf : c ≠ .fail) (hc : m.flags.cancelled = false) (hn : m.flags.peerCloseNotify = false) :
    o'.pc.leaving = false := by
  unfold step at hs
  split at hs
  · rw [hn, if_neg Bool.false_ne_true] at hs
    cases hs
    rfl
  · rw [hc, if_neg Bool.false_ne_true] at hs
    cases hs
    rfl
  · split at hs
    · cases hs
    · cases hs
      rfl
  · split_ifs at hs
    cases hs
    rfl
  · cases hs
    rfl
  · rename_i cmd _
    obtain ⟨o₁, ho₁, heq⟩ := Option.map_eq_some_iff.1 hs
    cases heq
    unfold process at ho₁
    repeat' split at ho₁
    all_goals cases ho₁
    all_goals first | rfl | exact leaving_flushBatch rfl
  · cases hs
    unfold settle
    split_ifs
    · exact leaving_flushBatch rfl
    · rfl
  · rename_i heq
    cases hs
    rw [heq] at hp
    exact hp
  · rename_i heq
    cases hs
    rw [heq] at hp
    exact leaving_proceed hp
  · rename_i heq
    cases hs
    rw [heq] at hp
    exact leaving_proceed hp
  · exact absurd rfl hf
  · exact absurd rfl hf
  · exact absurd rfl hf
  · rename_i heq
    rw [heq] at hp
    cases hp
  · rename_i heq
    rw [heq] at hp
    cases hp
  · cases hs

theorem left_of_leaving (h : o.pc.leaving = false) : o.pc.left = false := by
  cases hp : o.pc with
  | exit =>
      rw [hp] at h
      cases h
  | ending t =>
      rw [hp] at h
      cases h
  | _ => rfl

theorem closeSent_flushBatch {k : OutNext} (hk : k.afterBatch = true) :
    (o.flushBatch k).closeSent = o.closeSent := by
  unfold flushBatch
  split_ifs
  · exact o.closeSent_proceed (OutNext.afterFlush_of_afterBatch hk)
  · rfl

/-- The close of a `Shutdown` is sent. -/
theorem closeSent_step {c : OutChoice} (hs : o.step cfg m c = some (a, o'))
    (ho : o.closeSent = false) (hc : o'.closeSent = true) :
    ∃ n, o.pc = .flushing (.ackShutdown n) ∨ o.pc = .closing (.ackShutdown n) := by
  -- elsewhere `close_sent` stays as it is
  have hsame : o'.closeSent = o.closeSent → ∃ n,
      o.pc = .flushing (.ackShutdown n) ∨ o.pc = .closing (.ackShutdown n) := by
    intro heq
    rw [heq, ho] at hc
    cases hc
  have hproceed : ∀ k, (o.proceed k).closeSent = true → ∃ n, k = .ackShutdown n := by
    intro k hk
    cases k with
    | ackShutdown n => exact ⟨n, rfl⟩
    | _ =>
        have hk : o.closeSent = true := hk
        rw [ho] at hk
        cases hk
  have hfail : ∀ k, o.failed k = (a, o') → o'.closeSent = o.closeSent := by
    intro k hk
    cases k <;> cases hk <;> rfl
  unfold step at hs
  split at hs
  · split_ifs at hs <;> cases hs <;> exact hsame rfl
  · split_ifs at hs <;> cases hs
    · exact hsame (closeSent_flushBatch rfl)
    · exact hsame rfl
  · split at hs <;> cases hs
    exact hsame rfl
  · split_ifs at hs
    cases hs
    exact hsame rfl
  · cases hs
    exact hsame rfl
  · obtain ⟨o₁, ho₁, heq⟩ := Option.map_eq_some_iff.1 hs
    cases heq
    unfold process at ho₁
    repeat' split at ho₁
    all_goals cases ho₁
    all_goals first | exact hsame rfl | exact hsame (closeSent_flushBatch rfl)
  · cases hs
    unfold settle at hsame
    split_ifs at hsame
    · exact hsame (closeSent_flushBatch rfl)
    · exact hsame rfl
  · cases hs
    exact hsame rfl
  · rename_i k hp
    cases hs
    obtain ⟨n, rfl⟩ := hproceed k hc
    exact ⟨n, .inl hp⟩
  · rename_i k hp
    cases hs
    obtain ⟨n, rfl⟩ := hproceed k (by cases k <;> exact hc)
    exact ⟨n, .inr hp⟩
  · exact hsame (hfail _ (Option.some.inj hs))
  · exact hsame (hfail _ (Option.some.inj hs))
  · exact hsame (hfail _ (Option.some.inj hs))
  · cases hs
    exact hsame rfl
  · split at hs
    · cases hs
      exact hsame rfl
    · cases hs
  · cases hs

end Outbound

/-! ## Runs without a failing transport -/

/-- The transport does not fail. -/
def reliable (_ : Session) (l : Label) : Prop := l ≠ .outbound .fail

instance (s : Session) (l : Label) : Decidable (reliable s l) :=
  inferInstanceAs (Decidable (l ≠ .outbound .fail))

/-- When the receiver of the queue or the sink is dropped, the loop is left. -/
theorem left_of_dropped {ok : Session → Label → Prop} (hr : Reachable (Session.step cfg) ok {} s)
    (hd : s.mem.chan.rxDropped = true ∨ s.out.sinkDropped = true) : s.out.pc.left = true := by
  induction hr with
  | init => rcases hd with hd | hd <;> cases hd
  | @step s s' l hr _ hs ih =>
      obtain ⟨a, -, hm, ht⟩ := takes_of_step hs
      rw [hm] at hd
      generalize s'.out = o' at ht hd ⊢
      cases ht with
      | nothing ha hk =>
          refine hk.left (ih ?_)
          rw [hk.dropped] at hd
          refine hd.imp_left (Memory.rxDropped_apply ?_)
          rintro rfl
          cases ha
      | command hp hq =>
          rw [hp] at ih
          exact absurd (ih hd) nofun
      | credit hp hc hmem =>
          rw [hp] at ih
          exact absurd (ih hd) nofun
      | leave hp => rfl

/-- What becomes of the outbound task. -/
theorem Session.out_cases (hs : s.step cfg l = some s') :
    s'.out = s.out ∨ (∃ c a, l = .outbound c ∧ s.out.step cfg s.mem c = some (a, s'.out)) ∨
      (s.mem.flags.cancelled = true ∧ ∃ a, s.out.cancel = some (a, s'.out)) := by
  cases Session.steps_of_step hs with
  | @outbound c a o ho => exact .inr (.inl ⟨c, a, rfl, ho⟩)
  | @outboundCancel a o hc ho => exact .inr (.inr ⟨hc, a, ho⟩)
  | _ => exact .inl rfl

theorem stays_of_step (hp : s.out.pc.leaving = false) (hc : s.mem.flags.cancelled = false)
    (hn : s.mem.flags.peerCloseNotify = false) (hok : reliable s l)
    (hs : s.step cfg l = some s') : s'.out.pc.leaving = false := by
  rcases Session.out_cases hs with heq | ⟨c, a, rfl, ho⟩ | ⟨hcan, -⟩
  · rw [heq]
    exact hp
  · refine Outbound.stays_step hp ho ?_ hc hn
    rintro rfl
    exact hok rfl
  · rw [hc] at hcan
    cases hcan

/-- **The loop of an open session runs.** -/
theorem stays_of_reachable (hr : Reachable (Session.step cfg) reliable {} s)
    (ho : s.mem.flags.isClosed = false) : s.out.pc.leaving = false := by
  induction hr with
  | init => rfl
  | @step s s' l hr hok hs ih =>
      have ho₀ : s.mem.flags.isClosed = false := by
        cases hc : s.mem.flags.isClosed with
        | false => rfl
        | true =>
            rw [isClosed_of_step hc hs] at ho
            cases ho
      have hopen := stillOpen_of_reachable hr ho₀
      exact stays_of_step (ih ho₀) hopen.cancelled hopen.notify hok hs

/-! ## What is kept -/

/-- The loop waits, and nothing is queued. -/
def Session.drained (s : Session) : Bool := s.mem.chan.queue.isEmpty && s.out.pc.selects

/-- The transport does not fail, and the session is cancelled, or the peer's close notified, only
when the loop has drained or has sent the close of a `Shutdown`. -/
def unhurried (cfg : Config) (s : Session) (l : Label) : Prop :=
  reliable s l ∧ ((s.access cfg l).any Access.stopping = true →
    s.drained = true ∨ s.out.closeSent = true)

instance (s : Session) (l : Label) : Decidable (unhurried cfg s l) := by
  unfold unhurried
  infer_instance

/-- The loop is running, and nothing makes it stop. -/
structure Session.Running (s : Session) : Prop where
  cancelled : s.mem.flags.cancelled = false
  notify : s.mem.flags.peerCloseNotify = false
  stays : s.out.pc.leaving = false
  closeSent : s.out.closeSent = false

/-- The frames `fs` are written, or the loop runs and will take what is missing. -/
def Kept (fs : List Frame) (s : Session) : Prop :=
  fs.Sublist s.out.sunk ∨
    (s.Running ∧ fs.Sublist (s.out.taken ++ s.out.coming s.mem.chan.queue))

/-- A loop that has drained has written what it took. -/
theorem sunk_of_drained {fs : List Frame} (hbox : Outbox s.mem.chan.queue s.out)
    (hd : s.drained = true) (h : fs.Sublist (s.out.taken ++ s.out.coming s.mem.chan.queue)) :
    fs.Sublist s.out.sunk := by
  obtain ⟨hq, hsel⟩ := (Bool.and_eq_true_iff.1 hd)
  have hq : s.mem.chan.queue = [] := List.isEmpty_iff.1 hq
  have hnil : s.out.coming [] = [] := by
    unfold Outbound.coming
    split_ifs <;> rfl
  rw [hq, hnil, List.append_nil, ← hbox.sunk_eq_taken hsel hq] at h
  exact h

/-- When the close of a `Shutdown` is sent, everything before it is written. -/
theorem sunk_of_closing {fs : List Frame} {n : Nat} (hbox : Outbox s.mem.chan.queue s.out)
    (hp : s.out.pc = .flushing (.ackShutdown n) ∨ s.out.pc = .closing (.ackShutdown n))
    (h : fs.Sublist (s.out.taken ++ s.out.coming s.mem.chan.queue)) : fs.Sublist s.out.sunk := by
  have hat := hbox.place
  rcases hp with hp | hp
  · simp only [Outbound.At, hp] at hat
    cases hat.2.2
  · have hshut : s.out.shutting = true := by
      unfold Outbound.shutting
      rw [hp]
      exact Bool.or_true _
    have hnil : s.out.coming s.mem.chan.queue = [] := by
      unfold Outbound.coming
      rw [if_pos hshut]
    simp only [Outbound.At, hp] at hat
    obtain ⟨hr, hk⟩ := hat
    have hb : s.out.batched = [] := by
      cases hk with
      | shutdown n hb => exact hb
    rw [hnil, List.append_nil, hr.taken, hb, List.append_nil, List.append_nil] at h
    exact h

/-- **A step loses no frame**, unless it hurries. -/
theorem Kept.step {fs : List Frame} (h : Kept fs s) (hbox : Outbox s.mem.chan.queue s.out)
    (hok : unhurried cfg s l) (hs : s.step cfg l = some s') : Kept fs s' := by
  obtain ⟨a, ha, hm, ht⟩ := takes_of_step hs
  have hgrow : fs.Sublist s.out.sunk → Kept fs s' := fun h => .inl (h.trans ht.grows.2.sublist)
  rcases h with h | ⟨hrun, h⟩
  · exact hgrow h
  rw [unhurried, ha] at hok
  by_cases hstop : a.stopping = true
  · rcases hok.2 hstop with hd | hc
    · exact hgrow (sunk_of_drained hbox hd h)
    · rw [hrun.closeSent] at hc
      cases hc
  · obtain ⟨hc, hn⟩ := Memory.flags_not_stopping (Bool.eq_false_of_not_eq_true hstop)
      hrun.cancelled hrun.notify
    rw [← hm] at hc hn
    have hstays := stays_of_step hrun.stays hrun.cancelled hrun.notify hok.1 hs
    cases hclose : s'.out.closeSent with
    | true =>
        -- the close of a `Shutdown` is sent in this step
        rcases Session.out_cases hs with heq | ⟨c, b, rfl, ho⟩ | ⟨hcan, -⟩
        · rw [heq, hrun.closeSent] at hclose
          cases hclose
        · obtain ⟨n, hp⟩ := Outbound.closeSent_step ho hrun.closeSent hclose
          exact hgrow (sunk_of_closing hbox hp h)
        · rw [hrun.cancelled] at hcan
          cases hcan
    | false =>
        refine .inr ⟨⟨hc, hn, hstays, hclose⟩, ?_⟩
        have hsub := ht.coming_sublist (Outbound.left_of_leaving hstays)
        rw [← hm] at hsub
        exact h.trans hsub

/-- **A run loses no frame** that was kept at its start. -/
theorem Kept.run {fs : List Frame} {s₀ : Session} {ok : Session → Label → Prop}
    (hr : Reachable (Session.step cfg) ok {} s₀) (h : Kept fs s₀)
    (hr' : Reachable (Session.step cfg) (unhurried cfg) s₀ s) : Kept fs s := by
  induction hr' with
  | init => exact h
  | step hr' hok hs ih =>
      exact ih.step (outbox_of_reachable (hr.any.trans hr'.any)) hok hs

/-- When the sink is closed or dropped, what was kept is written. -/
theorem Kept.written {fs : List Frame} {ok : Session → Label → Prop} (h : Kept fs s)
    (hr : Reachable (Session.step cfg) ok {} s)
    (hend : s.out.sinkClosed = true ∨ s.out.sinkDropped = true) : fs.Sublist s.out.sunk := by
  rcases h with h | ⟨hrun, -⟩
  · exact h
  · have hleft := Outbound.left_of_leaving hrun.stays
    have hbox := outbox_of_reachable hr
    rcases hend with hclosed | hdropped
    · rcases hbox.closing (hbox.closed (.inl hclosed)) with hc | hl
      · rw [hrun.closeSent] at hc
        cases hc
      · rw [hleft] at hl
        cases hl
    · rw [left_of_dropped hr (.inr hdropped)] at hleft
      cases hleft

/-- In an open session, every frame that was queued is kept. -/
theorem kept_of_open (hr : Reachable (Session.step cfg) reliable {} s)
    (ho : s.mem.flags.isClosed = false) : Kept s.mem.chan.admitted s := by
  have hopen := stillOpen_of_reachable hr ho
  have hstays := stays_of_reachable hr ho
  have hleft := Outbound.left_of_leaving hstays
  refine .inr ⟨⟨hopen.cancelled, hopen.notify, hstays, ?_⟩, ?_⟩
  · exact (Bool.or_eq_false_iff.1 hopen.shutting).1
  · rw [Outbound.coming_eq_queued hopen.shutting hopen.queue]
    exact (emission_of_reachable hr).sublist hleft hopen.shutting hopen.queue

theorem Kept.mono {fs gs : List Frame} (h : Kept fs s) (hsub : gs.Sublist fs) : Kept gs s :=
  h.imp hsub.trans (And.imp_right hsub.trans)

/-! ## The notification of a protocol error -/

/-- A frame that is written stands in one of the messages. -/
theorem exists_message_of_sunk {q : List OutboundCmd} {f : Frame} (hbox : Outbox q o)
    (hf : f ∈ o.sunk) : ∃ data fs, .binary data ∈ o.written ∧ decodeMessage data = some fs ∧
      f ∈ fs := by
  obtain ⟨data, hdata, fs, hd, hmem⟩ := hbox.sunk.exists_message hf
  obtain ⟨msg, hmsg, hb⟩ := List.mem_filterMap.1 hdata
  cases msg with
  | binary d =>
      cases hb
      exact ⟨data, fs, hmsg, hd, hmem⟩
  | _ => cases hb

/-- The code and the reason of the `ConnectionClose` that the inbound task is about to queue. -/
def InPhase.refusal : InPhase → Option (Nat × String)
  | .running (.trySend (.protocolError code reason) _) _ => some (code, reason)
  | _ => none

theorem InPhase.of_refusal {p : InPhase} {code : Nat} {reason : String}
    (h : p.refusal = some (code, reason)) :
    ∃ k cursor, p = .running (.trySend (.protocolError code reason) k) cursor := by
  unfold InPhase.refusal at h
  split at h
  · cases h
    exact ⟨_, _, rfl⟩
  · cases h

/-- **A protocol error reaches the peer**, when the session is still open at the `try_send` of its
`ConnectionClose`, the queue has room, and from then on every step is unhurried: the sink is not
dropped before a message with the frame has been written. -/
theorem protocol_error_reaches_peer {s₁ s₂ : Session} {code : Nat} {reason : String} {k : Ret}
    {cursor : List UInt8} (hr : Reachable (Session.step cfg) reliable {} s₁)
    (hp : s₁.inb.phase = .running (.trySend (.protocolError code reason) k) cursor)
    (ho : s₁.mem.flags.isClosed = false) (hroom : s₁.mem.chan.hasSlot cfg = true)
    (hs : s₁.step cfg .inbound = some s₂)
    (hr' : Reachable (Session.step cfg) (unhurried cfg) s₂ s) (hd : s.out.sinkDropped = true) :
    ∃ data fs, .binary data ∈ s.out.written ∧ decodeMessage data = some fs ∧
      .connectionClose code reason ∈ fs := by
  have hleft := Outbound.left_of_leaving (stays_of_reachable hr ho)
  have hrx : s₁.mem.chan.rxDropped = false := by
    cases hrx : s₁.mem.chan.rxDropped with
    | false => rfl
    | true =>
        rw [left_of_dropped hr (.inl hrx)] at hleft
        cases hleft
  -- the frame is queued
  have hm : s₂.mem = s₁.mem.apply (.chan (.trySend (.connectionClose code reason))) := by
    simp only [Session.step, Inbound.step, hp, Task.next, hrx, hroom] at hs
    cases hs
    rfl
  have hok : reliable s₁ .inbound := by rintro ⟨⟩
  have hr₂ := hr.step hok hs
  have hkept : Kept [.connectionClose code reason] s₂ := by
    refine (kept_of_open hr₂ ?_).mono ?_
    · rw [hm]
      exact ho
    · rw [hm]
      exact List.sublist_append_right _ _
  have hrun := hr₂.any.trans hr'.any
  have hsunk := (hkept.run hr₂ hr').written hrun (.inr hd)
  exact exists_message_of_sunk (outbox_of_reachable hrun)
    (hsunk.subset (List.mem_singleton_self _))

/-- A text message arrives; the outbound task writes the `ConnectionClose` before the inbound task
cancels the session. -/
theorem protocol_error_reaches_peer_run :
    ∃ s, Reachable (Session.step ⟨false, {}⟩) reliable {} s ∧ s.out.sinkDropped = true ∧
      ∃ data fs, .binary data ∈ s.out.written ∧ decodeMessage data = some fs ∧
        .connectionClose 1 "text message not supported" ∈ fs := by
  obtain ⟨s₁, hr, hp, ho, hroom, hrun⟩ :
      ∃ s₁, Reachable (Session.step ⟨false, {}⟩) reliable {} s₁ ∧
      s₁.inb.phase.refusal = some (1, "text message not supported") ∧
      s₁.mem.flags.isClosed = false ∧ s₁.mem.chan.hasSlot ⟨false, {}⟩ = true ∧
      ((s₁.step ⟨false, {}⟩ .inbound).bind fun s₂ =>
        run (Session.step ⟨false, {}⟩) (unhurried ⟨false, {}⟩) s₂
          (List.flatten [List.replicate 7 (.outbound .ready), List.replicate 9 .inbound,
            [.outboundCancel, .outbound .ready]])).any (fun s => s.out.sinkDropped) = true :=
    Reachable.exists_of_run [.receive .text, .inbound, .inbound] (by decide +kernel)
  obtain ⟨s, hs, hd⟩ := (Option.any_eq_true _ _).1 hrun
  obtain ⟨s₂, hs₂, hr'⟩ := Option.bind_eq_some_iff.1 hs
  have hrun' : Reachable _ _ s₂ s := Reachable.of_run .init hr'
  obtain ⟨k, cursor, hphase⟩ := InPhase.of_refusal hp
  refine ⟨s, ?_, hd, protocol_error_reaches_peer hr hphase ho hroom hs₂ hrun' hd⟩
  have hok : reliable s₁ .inbound := by rintro ⟨⟩
  exact (hr.step hok hs₂).trans (hrun'.weaken fun _ _ h => h.1)

/-- **A protocol error can be lost.** A text message arrives, the inbound task queues the
`ConnectionClose`, closes the session and cancels it; the biased `select!` of the outbound task
then drops its loop, and the sink is dropped with nothing written. -/
theorem protocol_error_lost :
    ∃ s₁ s, Reachable (Session.step ⟨false, {}⟩) reliable {} s₁ ∧
      s₁.mem.flags.isClosed = false ∧
      s₁.mem.chan.queue = [.frame (.connectionClose 1 "text message not supported")] ∧
      Reachable (Session.step ⟨false, {}⟩) reliable s₁ s ∧
      s.out.sinkDropped = true ∧ s.out.written = [] := by
  obtain ⟨s₁, hr, ho, hq, hrun⟩ : ∃ s₁, Reachable (Session.step ⟨false, {}⟩) reliable {} s₁ ∧
      s₁.mem.flags.isClosed = false ∧
      s₁.mem.chan.queue = [.frame (.connectionClose 1 "text message not supported")] ∧
      (run (Session.step ⟨false, {}⟩) reliable s₁ (List.flatten [List.replicate 9 .inbound,
        [.outboundCancel, .outbound .ready]])).any
        (fun s => decide (s.out.sinkDropped = true ∧ s.out.written = [])) = true :=
    Reachable.exists_of_run [.receive .text, .inbound, .inbound, .inbound] (by decide +kernel)
  obtain ⟨s, hs, hd⟩ := (Option.any_eq_true _ _).1 hrun
  exact ⟨s₁, s, hr, ho, hq, Reachable.of_run .init hs, of_decide_eq_true hd⟩

/-! ## Graceful shutdown -/

/-- **A graceful shutdown loses nothing**, when every step from the call on is unhurried: let
`shutdown` be called in an open session. When the sink is closed or dropped, every frame that was
queued before the call has been written. -/
theorem shutdown_loses_nothing {s₀ s₁ : Session} (hr : Reachable (Session.step cfg) reliable {} s₀)
    (ho : s₀.mem.flags.isClosed = false) (hs : s₀.step cfg (.call .shutdown) = some s₁)
    (hr' : Reachable (Session.step cfg) (unhurried cfg) s₁ s)
    (hend : s.out.sinkClosed = true ∨ s.out.sinkDropped = true) :
    s₀.mem.chan.admitted.Sublist s.out.sunk ∧
      decodeMessages (binaries s.out.written) = some s.out.sunk := by
  have hok : reliable s₀ (.call .shutdown) := nofun
  have hr₁ := hr.step hok hs
  have hm : s₁.mem = s₀.mem := by
    simp only [Session.step, Session.call, Call.start] at hs
    split at hs
    · rename_i heq
      cases heq
      split_ifs at hs
      cases hs
      rfl
    · cases hs
  have hkept := kept_of_open hr₁ (by rw [hm]; exact ho)
  rw [hm] at hkept
  have hrun := hr₁.any.trans hr'.any
  exact ⟨(hkept.run hr₁ hr').written hrun hend,
    Frame.decodeMessages_of_carried (outbox_of_reachable hrun).sunk⟩

/-- A stream is opened and the session shut down; the outbound task closes the sink after it has
written the frame. -/
theorem shutdown_loses_nothing_run :
    ∃ s, Reachable (Session.step ⟨false, {}⟩) reliable {} s ∧ s.out.sinkClosed = true ∧
      [.openUni ⟨2⟩].Sublist s.out.sunk := by
  obtain ⟨s₀, hr, hadm, ho, hrun⟩ : ∃ s₀, Reachable (Session.step ⟨false, {}⟩) reliable {} s₀ ∧
      s₀.mem.chan.admitted = [.openUni ⟨2⟩] ∧ s₀.mem.flags.isClosed = false ∧
      ((s₀.step ⟨false, {}⟩ (.call .shutdown)).bind fun s₁ =>
        run (Session.step ⟨false, {}⟩) (unhurried ⟨false, {}⟩) s₁
          (List.flatten [List.replicate 4 (.op 1), List.replicate 12 (.outbound .ready)])).any
        (fun s => s.out.sinkClosed) = true :=
    Reachable.exists_of_run (List.flatten [[.call .openUni], List.replicate 7 (.op 0)])
      (by decide +kernel)
  obtain ⟨s, hs, hd⟩ := (Option.any_eq_true _ _).1 hrun
  obtain ⟨s₁, hs₁, hr'⟩ := Option.bind_eq_some_iff.1 hs
  have hrun' : Reachable _ _ s₁ s := Reachable.of_run .init hr'
  have hok : reliable s₀ (.call .shutdown) := nofun
  refine ⟨s, (hr.step hok hs₁).trans (hrun'.weaken fun _ _ h => h.1), hd, ?_⟩
  rw [← hadm]
  exact (shutdown_loses_nothing hr ho hs₁ hrun' (.inl hd)).1

/-- The transport does not fail, and no operation is cancelled or times out. -/
def undisturbed (s : Session) : Label → Prop
  | .cancelOp _ => False
  | .timeout _ => False
  | .receiveEnd => False
  | l => reliable s l

instance (s : Session) (l : Label) : Decidable (undisturbed s l) := by
  unfold undisturbed
  split <;> infer_instance

/-- **A graceful shutdown can lose frames.** A stream is opened and its frame queued, and `shutdown`
is called. The peer opens a stream: its initial credit is refused because the shutdown has started,
and dropping the new stream cancels the session. The outbound task drops the sink with nothing
written. -/
theorem shutdown_loses_frames :
    ∃ s₀ s₁ s, Reachable (Session.step ⟨false, {}⟩) undisturbed {} s₀ ∧
      s₀.mem.chan.admitted = [.openUni ⟨2⟩] ∧ s₀.mem.flags.isClosed = false ∧
      s₀.step ⟨false, {}⟩ (.call .shutdown) = some s₁ ∧
      Reachable (Session.step ⟨false, {}⟩) undisturbed s₁ s ∧
      s.inb.handled = [.openUni ⟨3⟩] ∧ s.out.sinkDropped = true ∧ s.out.written = [] := by
  obtain ⟨s₀, hr, hadm, ho, hrun⟩ : ∃ s₀, Reachable (Session.step ⟨false, {}⟩) undisturbed {} s₀ ∧
      s₀.mem.chan.admitted = [.openUni ⟨2⟩] ∧ s₀.mem.flags.isClosed = false ∧
      ((s₀.step ⟨false, {}⟩ (.call .shutdown)).bind fun s₁ =>
        run (Session.step ⟨false, {}⟩) undisturbed s₁
          (List.flatten [[.op 1, .op 1, .receive (.binary [0, 3])], List.replicate 11 .inbound,
            [.outboundCancel, .outbound .ready]])).any
        (fun s => decide (s.inb.handled = [.openUni ⟨3⟩] ∧ s.out.sinkDropped = true ∧
          s.out.written = [])) = true :=
    Reachable.exists_of_run (List.flatten [[.call .openUni], List.replicate 7 (.op 0)])
      (by decide +kernel)
  obtain ⟨s, hs, hd⟩ := (Option.any_eq_true _ _).1 hrun
  obtain ⟨s₁, hs₁, hr'⟩ := Option.bind_eq_some_iff.1 hs
  exact ⟨s₀, s₁, s, hr, hadm, ho, hs₁, Reachable.of_run .init hr', of_decide_eq_true hd⟩

end WebsockMux.Native
