import WebsockMux.Native.Moves
import WebsockMux.Proto.Messages

/-!
# The outbound loop

The outbound task takes commands and credits, collects frames in a batch, and writes each batch as
one binary message. `Outbox` is the invariant of its loop: the messages written carry the frames
taken, in order, up to the frames of the message being sent, of the batch and in hand; when the loop
waits on an empty queue the batch is empty; and nothing binary follows a close.
-/

set_option autoImplicit false

namespace WebsockMux.Native

open WebsockMux.Lib WebsockMux.Proto
open WebsockMux.Proto.Frame (encodeAll Carried)

variable {cfg : Config} {m : Memory} {s s' : Session}

/-! ## The queue -/

/-- A command that does not make the loop write a binary or a close message of its own: the only
messages that the inbound task queues are pongs. -/
def OutboundCmd.plain : OutboundCmd → Bool
  | .ws (.pong _) => true
  | .ws _ => false
  | _ => true

/-- An access that takes nothing from the queue or from `pending_credit`, and puts only plain
commands into the queue. -/
def Access.plain : Access → Bool
  | .chan .pop => false
  | .chan .dropRx => false
  | .recv (.takeCredit _) => false
  | .chan (.tryWs msg) => OutboundCmd.plain (.ws msg)
  | _ => true

theorem Memory.queue_plain (m : Memory) {a : Access} (ha : a.plain = true) :
    ∃ new, (m.apply a).chan.queue = m.chan.queue ++ new ∧ ∀ c ∈ new, c.plain = true := by
  have hnone : ∃ new, m.chan.queue = m.chan.queue ++ new ∧
      ∀ c ∈ new, OutboundCmd.plain c = true :=
    ⟨[], (List.append_nil _).symm, fun _ h => absurd h List.not_mem_nil⟩
  have hone : ∀ c : OutboundCmd, c.plain = true → ∃ new, m.chan.queue ++ [c] =
      m.chan.queue ++ new ∧ ∀ c ∈ new, OutboundCmd.plain c = true := by
    intro c hc
    refine ⟨[c], rfl, fun d hd => ?_⟩
    rw [List.mem_singleton.1 hd]
    exact hc
  cases a with
  | chan b =>
      cases b with
      | pop => cases ha
      | dropRx => cases ha
      | publish f => exact hone (.frame f) rfl
      | trySend f => exact hone (.frame f) rfl
      | tryWs msg => exact hone (.ws msg) ha
      | shutdown => exact hone (.shutdown _) rfl
      | takeSlot => exact hnone
      | freeSlot => exact hnone
      | ack n a => exact hnone
  | handle b =>
      cases b with
      | sendData i f => exact hone (.frame f) rfl
      | sendFin i f => exact hone (.frame f) rfl
      | sendFlush i => exact hone (.flush _) rfl
      | _ => exact hnone
  | session clone => cases clone <;> exact hnone
  | _ => exact hnone

theorem Task.plain_next {t t' : Task} {a : Access} (hn : t.next cfg m = some (a, t')) :
    a.plain = true := by
  replace hn := Task.steps_of_next hn
  induction hn with
  | closeAll c k => cases c <;> rfl
  | _ => rfl

theorem Call.plain_start {c : Call} {u : Use} {a : Access} {t : Task}
    (h : c.start m = some (u, a, t)) : a.plain = true := by
  cases Call.starts_of_start h <;> rfl

theorem Inbound.plain_receive {b b' : Inbound} {msg : Message} {a : Access}
    (h : b.receive cfg m msg = some (a, b')) : a.plain = true := by
  unfold Inbound.receive at h
  repeat' split at h
  all_goals cases h
  all_goals rfl

theorem Inbound.plain_step {b b' : Inbound} {a : Access} (h : b.step cfg m = some (a, b')) :
    a.plain = true := by
  cases Inbound.steps_of_step h with
  | next hp hn => exact Task.plain_next hn
  | finishing hp hn => exact Task.plain_next hn
  | _ => rfl

/-- What becomes of the outbound task in a step. -/
inductive OutboundMoves (cfg : Config) (s s' : Session) : Prop where
  | other {a : Access} (hm : s'.mem = s.mem.apply a) (ho : s'.out = s.out) (ha : a.plain = true)
  | step {c : OutChoice} {a : Access} (h : s.out.step cfg s.mem c = some (a, s'.out))
      (hm : s'.mem = s.mem.apply a)
  | cancel {a : Access} (h : s.out.cancel = some (a, s'.out)) (hm : s'.mem = s.mem.apply a)

theorem outboundMoves_of_step {l : Label} (h : s.step cfg l = some s') :
    OutboundMoves cfg s s' := by
  cases Session.steps_of_step h with
  | call ho hst hb => exact .other rfl rfl (Call.plain_start hst)
  | op ho hn => exact .other rfl rfl (Task.plain_next hn)
  | receive hp hb => exact .other rfl rfl (Inbound.plain_receive hb)
  | inbound hb => exact .other rfl rfl (Inbound.plain_step hb)
  | outbound ho => exact .step ho rfl
  | outboundCancel hc ho => exact .cancel ho rfl
  | assign hx hw => exact .other (a := .handle (.reserve _)) rfl rfl rfl
  | _ => exact .other (a := .skip) rfl rfl rfl

/-! ## The invariant of the loop -/

/-- The payload of a binary message. -/
def Message.binary? : Message → Option (List UInt8)
  | .binary data => some data
  | _ => none

/-- The payloads of the binary messages. -/
def binaries (msgs : List Message) : List (List UInt8) := msgs.filterMap Message.binary?

/-- The frame that waits for the batch to be sent. -/
def OutNext.inHand : OutNext → List Frame
  | .append f _ => [f]
  | _ => []

/-- The task has left its loop. -/
def OutPc.left : OutPc → Bool
  | .exit => true
  | .ending _ => true
  | _ => false

/-- The task is in the `select!` of its loop. -/
def OutPc.selects : OutPc → Bool
  | .select => true
  | .selectCancel => true
  | .selectRecv => true
  | _ => false

namespace Outbound

/-- The frame that the loop has taken and not yet added to the batch. A frame taken after the close
of a `Shutdown` is dropped, and not counted as taken. -/
def inHand (o : Outbound) : List Frame :=
  match o.pc with
  | .took (.frame f) => if o.closeSent then [] else [f]
  | .append f _ => [f]
  | .sending _ k => k.inHand
  | .flushing k => k.inHand
  | .closing k => k.inHand
  | _ => []

/-- What a continuation needs. -/
def Next (o : Outbound) : OutNext → Prop
  | .append f bytes => f.encode = some bytes ∧ o.closeSent = false
  | .ws msg => OutboundCmd.plain (.ws msg) = true
  | _ => True

/-- The loop is between two operations of the sink. -/
structure Ready (o : Outbound) (hand : List Frame) : Prop where
  inFlight : o.inFlight = []
  taken : o.taken = o.sunk ++ o.batched ++ hand
  closed : o.closeSent = true → o.batched = []

/-- The loop is in an operation of the sink, and continues with `k`. -/
structure Flushed (o : Outbound) (k : OutNext) : Prop where
  batched : o.batched = []
  taken : o.taken = o.sunk ++ o.inFlight ++ k.inHand
  next : o.Next k

/-- The message being sent: a batch, or a queued message. -/
inductive Sends (o : Outbound) : Message → Prop where
  | batch {data : List UInt8} (hne : data ≠ []) (he : encodeAll o.inFlight = some data)
      (hc : o.closeSent = false) : Sends o (.binary data)
  | queued {msg : Message} (hp : OutboundCmd.plain (.ws msg) = true) (hi : o.inFlight = []) :
      Sends o msg

end Outbound

/-- A continuation of `flush_batch`, or of the send of a queued message. -/
def OutNext.afterBatch : OutNext → Bool
  | .ackFlush _ => false
  | .ackShutdown _ => false
  | .leave => false
  | _ => true

/-- A continuation of a flush. -/
def OutNext.afterFlush : OutNext → Bool
  | .ackShutdown _ => false
  | .leave => false
  | _ => true

theorem OutNext.afterFlush_of_afterBatch {k : OutNext} (h : k.afterBatch = true) :
    k.afterFlush = true := by
  cases k <;> first | rfl | cases h

/-- A continuation of a close: that of a `Shutdown` has sent the batch before. -/
inductive Outbound.Closes (o : Outbound) : OutNext → Prop where
  | shutdown (n : Nat) (hb : o.batched = []) : Closes o (.ackShutdown n)
  | leave : Closes o .leave

/-- What holds at each place of the loop. -/
def Outbound.At (q : List OutboundCmd) (o : Outbound) : Prop :=
  match o.pc with
  | .select | .selectCancel | .selectRecv => o.Ready [] ∧ (q = [] → o.batched = [])
  | .took c => o.Ready o.inHand ∧ c.plain = true
  | .append f bytes => o.Ready [f] ∧ f.encode = some bytes ∧ o.closeSent = false
  | .sending msg k => o.Flushed k ∧ k.afterBatch = true ∧ o.Sends msg
  | .flushing k => o.Flushed k ∧ o.inFlight = [] ∧ k.afterFlush = true
  | .closing k => o.Ready [] ∧ o.Closes k
  | .exit | .ending _ => o.sunk <+: o.taken

/-- The invariant of the outbound loop, with the queue `q`. -/
structure Outbox (q : List OutboundCmd) (o : Outbound) : Prop where
  queue : ∀ c ∈ q, c.plain = true
  batch : encodeAll o.batched = some o.batch
  sunk : Carried (binaries o.written) o.sunk
  place : o.At q
  order : o.written.Pairwise fun x y => x = .close → y.binary? = none
  closing : .close ∈ o.written → o.closeSent = true ∨ o.pc.left = true
  closed : o.sinkClosed = true ∨ o.closeSent = true → .close ∈ o.written

namespace Outbound

variable {q : List OutboundCmd} {o : Outbound} {k : OutNext}

/-- Whatever the place, what was written was taken. -/
theorem At.sunk_prefix (h : o.At q) : o.sunk <+: o.taken := by
  have hready : ∀ hand, o.Ready hand → o.sunk <+: o.taken := by
    intro hand hr
    rw [hr.taken, List.append_assoc]
    exact List.prefix_append _ _
  have hflushed : ∀ k, o.Flushed k → o.sunk <+: o.taken := by
    intro k hf
    rw [hf.taken, List.append_assoc]
    exact List.prefix_append _ _
  unfold At at h
  split at h
  · exact hready _ h.1
  · exact hready _ h.1
  · exact hready _ h.1
  · exact hready _ h.1
  · exact hready _ h.1
  · exact hflushed _ h.1
  · exact hflushed _ h.1
  · exact hready _ h.1
  · exact h
  · exact h

/-- **No frame is lost** while the loop runs. -/
theorem At.taken_eq (h : o.At q) (hl : o.pc.left = false) :
    o.sunk ++ o.inFlight ++ o.batched ++ o.inHand = o.taken := by
  have hready : ∀ hand, o.Ready hand → o.inHand = hand →
      o.sunk ++ o.inFlight ++ o.batched ++ o.inHand = o.taken := by
    intro hand hr heq
    rw [hr.inFlight, hr.taken, heq, List.append_nil]
  have hflushed : ∀ k, o.Flushed k → o.inHand = k.inHand →
      o.sunk ++ o.inFlight ++ o.batched ++ o.inHand = o.taken := by
    intro k hf heq
    rw [hf.batched, hf.taken, heq, List.append_nil]
  unfold At at h
  split at h
  · next hp => exact hready _ h.1 (by simp only [inHand, hp])
  · next hp => exact hready _ h.1 (by simp only [inHand, hp])
  · next hp => exact hready _ h.1 (by simp only [inHand, hp])
  · exact hready _ h.1 rfl
  · next hp => exact hready _ h.1 (by simp only [inHand, hp])
  · next hp => exact hflushed _ h.1 (by simp only [inHand, hp])
  · next hp => exact hflushed _ h.1 (by simp only [inHand, hp])
  · next k hp =>
      refine hready _ h.1 ?_
      simp only [inHand, hp]
      cases h.2 <;> rfl
  · next hp =>
      rw [hp] at hl
      cases hl
  · next hp =>
      rw [hp] at hl
      cases hl

/-- The sink is done. -/
theorem Flushed.proceed (h : o.Flushed k) (hi : o.inFlight = []) : (o.proceed k).At q := by
  have htaken : o.taken = o.sunk ++ k.inHand := by
    rw [h.taken, hi, List.append_nil]
  have hready : o.Ready k.inHand := by
    refine ⟨hi, ?_, fun _ => h.batched⟩
    rw [htaken, h.batched, List.append_nil]
  cases k with
  | append f bytes =>
      exact ⟨⟨hready.inFlight, hready.taken, hready.closed⟩, h.next.1, h.next.2⟩
  | loop => exact ⟨⟨hready.inFlight, hready.taken, hready.closed⟩, fun _ => h.batched⟩
  | ws msg => exact ⟨⟨h.batched, h.taken, trivial⟩, rfl, .queued h.next hi⟩
  | flush n => exact ⟨⟨h.batched, h.taken, trivial⟩, hi, rfl⟩
  | ackFlush n => exact ⟨⟨hready.inFlight, hready.taken, hready.closed⟩, fun _ => h.batched⟩
  | shutdown n =>
      exact ⟨⟨hready.inFlight, hready.taken, hready.closed⟩, .shutdown n h.batched⟩
  | ackShutdown n =>
      exact ⟨⟨hready.inFlight, hready.taken, fun _ => h.batched⟩, fun _ => h.batched⟩
  | close => exact ⟨⟨hready.inFlight, hready.taken, hready.closed⟩, .leave⟩
  | leave =>
      show o.sunk <+: o.taken
      rw [htaken]
      exact List.prefix_append _ _

/-- `flush_batch` sends the batch, or finds nothing to send. -/
theorem Ready.flushBatch (h : o.Ready k.inHand) (hb : encodeAll o.batched = some o.batch)
    (hn : o.Next k) (hk : k.afterBatch = true) : (o.flushBatch k).At q := by
  unfold Outbound.flushBatch
  split_ifs with hempty
  · -- the batch is empty, so that nothing is in it
    rw [hempty] at hb
    have hnil := Frame.encodeAll_eq_nil hb
    refine Flushed.proceed ⟨hnil, ?_, hn⟩ h.inFlight
    rw [h.taken, hnil, h.inFlight]
  · have hopen : o.closeSent = false := by
      by_contra hc
      rw [h.closed (Bool.of_not_eq_false hc)] at hb
      exact hempty (Option.some.inj hb).symm
    exact ⟨⟨rfl, h.taken, hn⟩, hk, .batch hempty hb hopen⟩

end Outbound

/-- In the `select!`, the loop is ready, and with an empty queue nothing is batched. -/
theorem Outbox.ready {q : List OutboundCmd} {o : Outbound} (h : Outbox q o)
    (hs : o.pc.selects = true) : o.Ready [] ∧ (q = [] → o.batched = []) := by
  have hp := h.place
  unfold Outbound.At at hp
  split at hp
  · exact hp
  · exact hp
  · exact hp
  all_goals
    next heq =>
      rw [heq] at hs
      cases hs

/-- A loop that waits has sent its batch. -/
theorem Outbox.batch_eq_nil {q : List OutboundCmd} {o : Outbound} (h : Outbox q o)
    (hs : o.pc.selects = true) (hq : q = []) : o.batch = [] := by
  have hb := h.batch
  rw [(h.ready hs).2 hq] at hb
  exact (Option.some.inj hb).symm

/-- With an empty queue, the loop has written what it took. -/
theorem Outbox.sunk_eq_taken {q : List OutboundCmd} {o : Outbound} (h : Outbox q o)
    (hs : o.pc.selects = true) (hq : q = []) : o.sunk = o.taken := by
  obtain ⟨hready, hnil⟩ := h.ready hs
  rw [hready.taken, hnil hq, List.append_nil, List.append_nil]

/-- The message being sent has the frames in flight. -/
theorem Outbox.sending {q : List OutboundCmd} {o : Outbound} {k : OutNext} {data : List UInt8}
    (h : Outbox q o) (hp : o.pc = .sending (.binary data) k) : encodeAll o.inFlight = some data := by
  have hat := h.place
  simp only [Outbound.At, hp] at hat
  cases hat.2.2 with
  | batch hne he hc => exact he
  | queued hplain hi => cases hplain

/-! ## Steps -/

section

variable {q q' : List OutboundCmd} {o o' : Outbound} {k : OutNext}

theorem Outbound.proceed_fields (o : Outbound) (k : OutNext) :
    (o.proceed k).written = o.written ∧ (o.proceed k).sunk = o.sunk ∧
      (o.proceed k).batched = o.batched ∧ (o.proceed k).batch = o.batch ∧
      (o.proceed k).sinkClosed = o.sinkClosed := by
  cases k <;> exact ⟨rfl, rfl, rfl, rfl, rfl⟩

theorem Outbound.closeSent_proceed (o : Outbound) (hk : k.afterFlush = true) :
    (o.proceed k).closeSent = o.closeSent := by
  cases k <;> first | rfl | cases hk

/-- A step of the loop that writes nothing. -/
theorem Outbox.quiet (h : Outbox q o) (hq : ∀ c ∈ q', c.plain = true) (hleft : o.pc.left = false)
    (hb : encodeAll o'.batched = some o'.batch) (hw : o'.written = o.written)
    (hs : o'.sunk = o.sunk) (hc : o'.closeSent = o.closeSent) (hk : o'.sinkClosed = o.sinkClosed)
    (hp : o'.At q') : Outbox q' o' where
  queue := hq
  batch := hb
  sunk := by
    rw [hw, hs]
    exact h.sunk
  place := hp
  order := by
    rw [hw]
    exact h.order
  closing hmem := by
    rw [hw] at hmem
    rcases h.closing hmem with hclose | hl
    · exact .inl (hc.trans hclose)
    · rw [hleft] at hl
      cases hl
  closed hclosed := by
    rw [hk, hc] at hclosed
    rw [hw]
    exact h.closed hclosed

theorem Outbox.proceed (h : Outbox q o) (hq : ∀ c ∈ q', c.plain = true) (hleft : o.pc.left = false)
    (hk : k.afterFlush = true) (hp : (o.proceed k).At q') : Outbox q' (o.proceed k) := by
  obtain ⟨hw, hs, hb, hb', hsink⟩ := o.proceed_fields k
  refine h.quiet hq hleft ?_ hw hs (o.closeSent_proceed hk) hsink hp
  rw [hb, hb']
  exact h.batch

/-- `flush_batch` of a loop that differs from `o` in its batch only. -/
theorem Outbox.flushBatch {o₁ : Outbound} (h : Outbox q o) (hq : ∀ c ∈ q', c.plain = true)
    (hleft : o.pc.left = false) (hw : o₁.written = o.written) (hs : o₁.sunk = o.sunk)
    (hc : o₁.closeSent = o.closeSent) (hsink : o₁.sinkClosed = o.sinkClosed)
    (hb : encodeAll o₁.batched = some o₁.batch) (hk : k.afterBatch = true)
    (hp : (o₁.flushBatch k).At q') : Outbox q' (o₁.flushBatch k) := by
  unfold Outbound.flushBatch at hp ⊢
  split_ifs at hp ⊢
  · obtain ⟨hw', hs', hb', hb'', hsink'⟩ := o₁.proceed_fields k
    have hc' := o₁.closeSent_proceed (OutNext.afterFlush_of_afterBatch hk)
    refine h.quiet hq hleft ?_ (hw'.trans hw) (hs'.trans hs) (hc'.trans hc) (hsink'.trans hsink) hp
    rw [hb', hb'']
    exact hb
  · exact h.quiet hq hleft rfl hw hs hc hsink hp

/-- The loop is left. -/
theorem Outbox.exit (h : Outbox q o) (hq : ∀ c ∈ q', c.plain = true) :
    Outbox q' { o with pc := .exit } where
  queue := hq
  batch := h.batch
  sunk := h.sunk
  place := h.place.sunk_prefix
  order := h.order
  closing _ := .inr rfl
  closed := h.closed

/-- The queue of the loop changes. -/
theorem Outbox.ofQueue (h : Outbox q o) (hq : ∀ c ∈ q', c.plain = true) (hnil : q' = [] → q = []) :
    Outbox q' o := by
  refine ⟨hq, h.batch, h.sunk, ?_, h.order, h.closing, h.closed⟩
  have hp := h.place
  unfold Outbound.At at hp ⊢
  split at hp
  · exact ⟨hp.1, fun h => hp.2 (hnil h)⟩
  · exact ⟨hp.1, fun h => hp.2 (hnil h)⟩
  · exact ⟨hp.1, fun h => hp.2 (hnil h)⟩
  all_goals exact hp

theorem Message.binary?_of_plain {msg : Message} (h : OutboundCmd.plain (.ws msg) = true) :
    msg.binary? = none ∧ msg ≠ .close := by
  cases msg with
  | pong p => exact ⟨rfl, nofun⟩
  | _ => cases h

theorem binaries_concat (msgs : List Message) (msg : Message) :
    binaries (msgs ++ [msg]) = binaries msgs ++ msg.binary?.toList := by
  unfold binaries
  rw [List.filterMap_append]
  cases msg <;> rfl

theorem pairwise_concat {msgs : List Message} {msg : Message}
    (h : msgs.Pairwise fun x y => x = .close → y.binary? = none)
    (hm : .close ∈ msgs → msg.binary? = none) :
    (msgs ++ [msg]).Pairwise fun x y => x = .close → y.binary? = none := by
  refine List.pairwise_append.2 ⟨h, List.pairwise_singleton _ _, fun x hx y hy hclose => ?_⟩
  rw [List.mem_singleton.1 hy]
  exact hm (hclose ▸ hx)

/-- The sink takes the message. -/
theorem Outbox.write {msg : Message} (h : Outbox q o) (hp : o.pc = .sending msg k)
    (hq : ∀ c ∈ q', c.plain = true) :
    Outbox q' { o with
      pc := .flushing k
      written := o.written ++ [msg]
      inFlight := []
      sunk := o.sunk ++ o.inFlight } := by
  have hat := h.place
  simp only [Outbound.At, hp] at hat
  obtain ⟨hf, hk, hsend⟩ := hat
  have hflush := OutNext.afterFlush_of_afterBatch hk
  have hleft : o.pc.left = false := by rw [hp]; rfl
  have hplace : o.taken = o.sunk ++ o.inFlight ++ [] ++ k.inHand := by
    rw [List.append_nil]
    exact hf.taken
  cases hsend with
  | @batch data hne he hc =>
      refine ⟨hq, h.batch, ?_, ⟨⟨hf.batched, hplace, hf.next⟩, rfl, hflush⟩, ?_, fun hmem => ?_,
        fun hc => List.mem_append_left _ (h.closed hc)⟩
      · rw [binaries_concat]
        exact h.sunk.concat hne he
      · refine pairwise_concat h.order fun hmem => ?_
        -- the loop has not closed the sink
        rcases h.closing hmem with hclose | hl
        · rw [hc] at hclose
          cases hclose
        · rw [hleft] at hl
          cases hl
      · rcases List.mem_append.1 hmem with hmem | hmem
        · exact (h.closing hmem).imp_right fun hl => by rw [hleft] at hl; cases hl
        · cases List.mem_singleton.1 hmem
  | queued hplain hi =>
      obtain ⟨hbin, hne⟩ := Message.binary?_of_plain hplain
      refine ⟨hq, h.batch, ?_, ⟨⟨hf.batched, hplace, hf.next⟩, rfl, hflush⟩, ?_, fun hmem => ?_,
        fun hc => List.mem_append_left _ (h.closed hc)⟩
      · rw [binaries_concat, hbin, hi, List.append_nil]
        exact (List.append_nil _).symm ▸ h.sunk
      · exact pairwise_concat h.order fun _ => hbin
      · rcases List.mem_append.1 hmem with hmem | hmem
        · exact (h.closing hmem).imp_right fun hl => by rw [hleft] at hl; cases hl
        · exact absurd (List.mem_singleton.1 hmem).symm hne

/-- The sink is closed. -/
theorem Outbox.close (h : Outbox q o) (hp : o.pc = .closing k) (hq : ∀ c ∈ q', c.plain = true) :
    Outbox q' (o.closeSink.proceed k) := by
  have hat := h.place
  simp only [Outbound.At, hp] at hat
  obtain ⟨hr, hk⟩ := hat
  have hplace : (o.closeSink.proceed k).At q' := by
    cases hk with
    | shutdown n hb => exact ⟨⟨hr.inFlight, hr.taken, fun _ => hb⟩, fun _ => hb⟩
    | leave =>
        show o.sunk <+: o.taken
        exact h.place.sunk_prefix
  obtain ⟨hw, hs, hb, hb', -⟩ := o.closeSink.proceed_fields k
  have hwritten : o.closeSink.written = o.written ∨ o.closeSink.written = o.written ++ [.close] := by
    unfold Outbound.closeSink
    dsimp only
    split_ifs
    · exact .inl rfl
    · exact .inr rfl
  refine ⟨hq, ?_, ?_, hplace, ?_, fun _ => ?_, fun _ => ?_⟩
  · rw [hb, hb']
    exact h.batch
  · rw [hw, hs]
    rcases hwritten with hw | hw
    · rw [hw]
      exact h.sunk
    · rw [hw, binaries_concat]
      exact (List.append_nil _).symm ▸ h.sunk
  · rw [hw]
    rcases hwritten with hw | hw
    · rw [hw]
      exact h.order
    · rw [hw]
      exact pairwise_concat h.order fun _ => rfl
  · -- after a close the loop is left, or drops every frame
    cases hk with
    | shutdown n hb => exact .inl rfl
    | leave => exact .inr rfl
  · rw [hw]
    unfold Outbound.closeSink
    dsimp only
    split_ifs with hsink
    · exact h.closed (.inl hsink)
    · exact List.mem_append_right _ (List.mem_singleton_self _)

theorem Outbox.process {c : OutboundCmd} (h : Outbox q o) (hp : o.pc = .took c)
    (hs : o.process cfg c = some o') : Outbox q o' := by
  have hat := h.place
  simp only [Outbound.At, hp] at hat
  obtain ⟨hr, hplain⟩ := hat
  have hleft : o.pc.left = false := by rw [hp]; rfl
  simp only [Outbound.inHand, hp] at hr
  cases c with
  | frame f =>
      simp only [Outbound.process] at hs
      dsimp only at hr
      split_ifs at hs with hclose
      · -- after the close of a `Shutdown`
        cases hs
        rw [if_pos hclose] at hr
        exact h.quiet h.queue hleft h.batch rfl rfl rfl rfl
          ⟨⟨hr.inFlight, hr.taken, hr.closed⟩, fun _ => hr.closed hclose⟩
      · rw [if_neg hclose] at hr
        have hopen := Bool.eq_false_of_not_eq_true hclose
        split at hs
        · cases hs
        · next bytes he =>
            split_ifs at hs
            · cases hs
              exact h.flushBatch h.queue hleft rfl rfl rfl rfl h.batch rfl (hr.flushBatch h.batch ⟨he, hopen⟩ rfl)
            · cases hs
              exact h.quiet h.queue hleft h.batch rfl rfl rfl rfl
                ⟨⟨hr.inFlight, hr.taken, hr.closed⟩, he, hopen⟩
  | ws msg =>
      simp only [Outbound.process] at hs
      split_ifs at hs with hclose
      · cases hs
        exact h.quiet h.queue hleft h.batch rfl rfl rfl rfl
          ⟨⟨hr.inFlight, hr.taken, hr.closed⟩, fun _ => hr.closed hclose⟩
      · cases hs
        exact h.flushBatch h.queue hleft rfl rfl rfl rfl h.batch rfl (hr.flushBatch h.batch hplain rfl)
  | flush n =>
      cases hs
      exact h.flushBatch h.queue hleft rfl rfl rfl rfl h.batch rfl (hr.flushBatch h.batch trivial rfl)
  | shutdown n =>
      cases hs
      exact h.flushBatch h.queue hleft rfl rfl rfl rfl h.batch rfl (hr.flushBatch h.batch trivial rfl)

theorem Outbox.append {f : Frame} {bytes : List UInt8} (h : Outbox m.chan.queue o)
    (hp : o.pc = .append f bytes) : Outbox m.chan.queue ((o.add f bytes).settle cfg m) := by
  have hat := h.place
  simp only [Outbound.At, hp] at hat
  obtain ⟨hr, he, hopen⟩ := hat
  have hleft : o.pc.left = false := by rw [hp]; rfl
  have hbatch : encodeAll (o.batched ++ [f]) = some (o.batch ++ bytes) :=
    Frame.encodeAll_concat h.batch he
  have hready : (o.add f bytes).Ready [] := by
    refine ⟨hr.inFlight, ?_, fun hc => ?_⟩
    · rw [List.append_nil]
      show o.taken = o.sunk ++ (o.batched ++ [f])
      rw [hr.taken, List.append_assoc]
    · rw [show o.closeSent = true from hc] at hopen
      cases hopen
  unfold Outbound.settle
  split_ifs with hfull
  · exact h.flushBatch h.queue hleft rfl rfl rfl rfl hbatch rfl (hready.flushBatch hbatch trivial rfl)
  · refine h.quiet h.queue hleft hbatch rfl rfl rfl rfl
      ⟨⟨hready.inFlight, hready.taken, hready.closed⟩, fun hq => ?_⟩
    exact absurd (.inr (.inr hq)) hfull

/-- An operation of the sink fails. -/
theorem Outbox.failed {a : Access} (h : Outbox q o) (hq : ∀ c ∈ q', c.plain = true)
    (hk : (∃ msg, o.pc = .sending msg k) ∨ o.pc = .flushing k ∨ o.pc = .closing k)
    (hs : o.failed k = (a, o')) : Outbox q' o' := by
  by_cases hflush : ∃ n, k = .ackFlush n
  · -- a failed flush is only reported
    obtain ⟨n, rfl⟩ := hflush
    cases hs
    have hat := h.place
    rcases hk with ⟨msg, hp⟩ | hp | hp
    · simp only [Outbound.At, hp] at hat
      cases hat.2.1
    · have hleft : o.pc.left = false := by rw [hp]; rfl
      simp only [Outbound.At, hp] at hat
      obtain ⟨hf, hi, -⟩ := hat
      refine h.quiet hq hleft h.batch rfl rfl rfl rfl (Outbound.Flushed.proceed (k := .ackFlush n) hf hi)
    · simp only [Outbound.At, hp] at hat
      cases hat.2
  · have hexit : o' = { o with pc := .exit } := by
      cases k with
      | ackFlush n => exact absurd ⟨n, rfl⟩ hflush
      | _ =>
          cases hs
          rfl
    rw [hexit]
    exact h.exit hq

theorem queue_ackAccess (m : Memory) (r : Ack) (k : OutNext) :
    (m.apply (Outbound.ackAccess r k)).chan.queue = m.chan.queue := by
  cases k <;> rfl

theorem queue_failed (m : Memory) (o : Outbound) (k : OutNext) :
    (m.apply (o.failed k).1).chan.queue = m.chan.queue := by
  cases k <;> rfl

/-- A command is taken. -/
theorem Outbound.Ready.take (h : o.Ready []) (c : OutboundCmd) :
    { o with pc := .took c, taken := o.note c }.Ready
      { o with pc := .took c, taken := o.note c }.inHand := by
  refine ⟨h.inFlight, ?_, h.closed⟩
  have htaken : o.taken = o.sunk ++ o.batched := h.taken.trans (List.append_nil _)
  cases c with
  | frame f =>
      simp only [Outbound.note, Outbound.inHand]
      split_ifs
      · exact h.taken
      · rw [htaken]
  | _ => exact h.taken

/-- An access of another function. -/
theorem Outbox.grow {a : Access} (h : Outbox m.chan.queue o) (ha : a.plain = true) :
    Outbox (m.apply a).chan.queue o := by
  obtain ⟨new, hnew, hplain⟩ := m.queue_plain ha
  rw [hnew]
  refine h.ofQueue (fun c hc => ?_) fun hnil => (List.append_eq_nil_iff.1 hnil).1
  rcases List.mem_append.1 hc with hc | hc
  · exact h.queue c hc
  · exact hplain c hc

theorem Outbox.step {c : OutChoice} {a : Access} (h : Outbox m.chan.queue o)
    (hs : o.step cfg m c = some (a, o')) : Outbox (m.apply a).chan.queue o' := by
  have hat := h.place
  unfold Outbound.step at hs
  split at hs
  · next hp =>
      have hleft : o.pc.left = false := by rw [hp]; rfl
      simp only [Outbound.At, hp] at hat
      obtain ⟨hr, hwait⟩ := hat
      split_ifs at hs
      · -- the peer has closed: the batch is not sent
        cases hs
        exact h.quiet h.queue hleft h.batch rfl rfl rfl rfl
          ⟨⟨hr.inFlight, hr.taken, hr.closed⟩, .leave⟩
      · cases hs
        exact h.quiet h.queue hleft h.batch rfl rfl rfl rfl
          ⟨⟨hr.inFlight, hr.taken, hr.closed⟩, hwait⟩
  · next hp =>
      have hleft : o.pc.left = false := by rw [hp]; rfl
      simp only [Outbound.At, hp] at hat
      obtain ⟨hr, hwait⟩ := hat
      split_ifs at hs
      · cases hs
        exact h.flushBatch h.queue hleft rfl rfl rfl rfl h.batch rfl (hr.flushBatch h.batch trivial rfl)
      · cases hs
        exact h.quiet h.queue hleft h.batch rfl rfl rfl rfl
          ⟨⟨hr.inFlight, hr.taken, hr.closed⟩, hwait⟩
  · next hp =>
      have hleft : o.pc.left = false := by rw [hp]; rfl
      simp only [Outbound.At, hp] at hat
      obtain ⟨hr, hwait⟩ := hat
      split at hs
      · cases hs
      · next c cs hq =>
          cases hs
          have hplain : ∀ d ∈ c :: cs, d.plain = true := hq ▸ h.queue
          have htail : (m.apply (.chan .pop)).chan.queue = cs := congrArg List.tail hq
          rw [htail]
          exact h.quiet (fun d hd => hplain d (.tail _ hd)) hleft h.batch rfl rfl rfl rfl
            ⟨hr.take c, hplain c (.head _)⟩
  · next id hp =>
      have hleft : o.pc.left = false := by rw [hp]; rfl
      simp only [Outbound.At, hp] at hat
      obtain ⟨hr, hwait⟩ := hat
      split_ifs at hs with hcredit
      cases hs
      have hnote : o.note (.frame (.maxStreamData id (m.recvs.cell id).credit)) =
          o.taken ++ [.maxStreamData id (m.recvs.cell id).credit] := by
        simp only [Outbound.note, hcredit.2, Bool.false_eq_true, if_false]
      have hready := hr.take (.frame (.maxStreamData id (m.recvs.cell id).credit))
      rw [hnote] at hready
      exact h.quiet h.queue hleft h.batch rfl rfl rfl rfl ⟨hready, rfl⟩
  · next hp =>
      have hleft : o.pc.left = false := by rw [hp]; rfl
      simp only [Outbound.At, hp] at hat
      obtain ⟨hr, hwait⟩ := hat
      cases hs
      exact h.quiet h.queue hleft h.batch rfl rfl rfl rfl
        ⟨⟨hr.inFlight, hr.taken, hr.closed⟩, hwait⟩
  · next cmd hp =>
      obtain ⟨o₁, ho₁, heq⟩ := Option.map_eq_some_iff.1 hs
      cases heq
      exact h.process hp ho₁
  · next f bytes hp =>
      cases hs
      exact h.append hp
  · next msg k hp =>
      cases hs
      exact h.write hp h.queue
  · next k hp =>
      have hleft : o.pc.left = false := by rw [hp]; rfl
      simp only [Outbound.At, hp] at hat
      cases hs
      rw [queue_ackAccess]
      exact h.proceed h.queue hleft hat.2.2 (hat.1.proceed hat.2.1)
  · next k hp =>
      cases hs
      rw [queue_ackAccess]
      exact h.close hp h.queue
  · next msg k hp =>
      have hs := Option.some.inj hs
      rw [← queue_failed m o k, hs] at h
      exact h.failed h.queue (.inl ⟨msg, hp⟩) hs
  · next k hp =>
      have hs := Option.some.inj hs
      rw [← queue_failed m o k, hs] at h
      exact h.failed h.queue (.inr (.inl hp)) hs
  · next k hp =>
      have hs := Option.some.inj hs
      rw [← queue_failed m o k, hs] at h
      exact h.failed h.queue (.inr (.inr hp)) hs
  · next hp =>
      cases hs
      simp only [Outbound.At, hp] at hat
      exact ⟨fun _ h => absurd h List.not_mem_nil, h.batch, h.sunk, hat, h.order, fun _ => .inr rfl,
        h.closed⟩
  · next t hp =>
      simp only [Outbound.At, hp] at hat
      split at hs
      · next a t' hn =>
          cases hs
          have hgrow := h.grow (Task.plain_next hn)
          exact ⟨hgrow.queue, h.batch, h.sunk, hat, h.order, fun _ => .inr rfl,
        h.closed⟩
      · cases hs
  · cases hs

theorem Outbox.cancel {a : Access} (h : Outbox m.chan.queue o) (hs : o.cancel = some (a, o')) :
    Outbox (m.apply a).chan.queue o' := by
  have hdrop : ∀ k, (m.apply (Outbound.dropAccess k)).chan.queue = m.chan.queue := by
    intro k
    cases k <;> rfl
  unfold Outbound.cancel at hs
  split at hs
  · cases hs
    exact h.exit h.queue
  · next k _ =>
      cases hs
      rw [hdrop]
      exact h.exit h.queue
  · next k _ =>
      cases hs
      rw [hdrop]
      exact h.exit h.queue
  · next k _ =>
      cases hs
      rw [hdrop]
      exact h.exit h.queue
  · cases hs

end

theorem Outbox.init : Outbox [] {} where
  queue _ h := absurd h List.not_mem_nil
  batch := rfl
  sunk := .nil
  place := ⟨⟨rfl, rfl, fun _ => rfl⟩, fun _ => rfl⟩
  order := .nil
  closing h := absurd h List.not_mem_nil
  closed h := by rcases h with h | h <;> cases h

/-- **The outbound loop keeps its invariant** in every run. -/
theorem outbox_of_reachable {ok : Session → Label → Prop}
    (hr : Reachable (Session.step cfg) ok {} s) : Outbox s.mem.chan.queue s.out := by
  refine Reachable.invariant (I := fun s => Outbox s.mem.chan.queue s.out) .init ?_ hr
  intro s l s' _ h _ hs
  cases outboundMoves_of_step hs with
  | other hm ho ha =>
      rw [hm, ho]
      exact h.grow ha
  | step hs hm =>
      rw [hm]
      exact h.step hs
  | cancel hs hm =>
      rw [hm]
      exact h.cancel hs

end WebsockMux.Native
