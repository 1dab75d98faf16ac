import Mathlib.Data.List.TakeWhile
import WebsockMux.Native.Admission
import WebsockMux.Native.Outbox

/-!
# What the outbound task takes

The frames that the outbound task takes come from the queue, in the order in which they were put
into it, and from `pending_credit`; only credits overtake other frames. A frame behind a `Shutdown`
command is dropped. `Outbound.coming` are the frames of the queue that the loop will take: together
with those taken they only grow while the loop runs (`coming_mono`), and until a `Shutdown` is sent
they are all the frames that were ever put into the queue (`Emission`).
-/

set_option autoImplicit false

namespace WebsockMux.Native

open WebsockMux.Lib WebsockMux.Proto
open WebsockMux.Proto.Frame (ordered)

variable {cfg : Config} {m : Memory} {s s' : Session} {o o' : Outbound} {a : Access}

/-! ## The queue -/

/-- The frame of a command. -/
def OutboundCmd.frame? : OutboundCmd → Option Frame
  | .frame f => some f
  | _ => none

def OutboundCmd.isShutdown : OutboundCmd → Bool
  | .shutdown _ => true
  | _ => false

/-- The frames in the queue. -/
def queued (q : List OutboundCmd) : List Frame := q.filterMap OutboundCmd.frame?

theorem queued_append (q r : List OutboundCmd) : queued (q ++ r) = queued q ++ queued r :=
  List.filterMap_append ..

/-- The command that an access puts into the queue. -/
def Access.command? (m : Memory) : Access → Option OutboundCmd
  | .chan (.publish f) => some (.frame f)
  | .chan (.trySend f) => some (.frame f)
  | .chan (.tryWs msg) => some (.ws msg)
  | .chan .shutdown => some (.shutdown m.chan.acks.length)
  | .handle (.sendData _ f) => some (.frame f)
  | .handle (.sendFin _ f) => some (.frame f)
  | .handle (.sendFlush _) => some (.flush m.chan.acks.length)
  | _ => none

theorem Memory.queue_apply (m : Memory) (ha : a.plain = true) :
    (m.apply a).chan.queue = m.chan.queue ++ (a.command? m).toList := by
  have hnone : m.chan.queue = m.chan.queue ++ [] := (List.append_nil _).symm
  cases a with
  | chan b =>
      cases b with
      | pop => cases ha
      | dropRx => cases ha
      | publish f => rfl
      | trySend f => rfl
      | tryWs msg => rfl
      | shutdown => rfl
      | takeSlot => exact hnone
      | freeSlot => exact hnone
      | ack n a => exact hnone
  | handle b =>
      cases b with
      | sendData i f => rfl
      | sendFin i f => rfl
      | sendFlush i => rfl
      | _ => exact hnone
  | session clone => cases clone <;> exact hnone
  | _ => exact hnone

/-- An access that adds a frame to the history adds it to the queue. -/
theorem Access.command?_frame (a : Access) (m : Memory) :
    (a.command? m).bind OutboundCmd.frame? = a.frame? := by
  cases a with
  | chan b => cases b <;> rfl
  | handle b => cases b <;> rfl
  | session clone => cases clone <;> rfl
  | _ => rfl

theorem queued_command (a : Access) (m : Memory) :
    queued (a.command? m).toList = a.frame?.toList := by
  rw [← a.command?_frame m]
  cases a.command? m with
  | none => rfl
  | some c => cases c <;> rfl

/-! ## What a step of the outbound task takes -/

/-- The `Flush` or `Shutdown` command that the loop is processing. -/
def OutboundCmd.barrier? : OutboundCmd → Option OutboundCmd
  | .flush n => some (.flush n)
  | .shutdown n => some (.shutdown n)
  | _ => none

def OutNext.barrier? : OutNext → Option OutboundCmd
  | .flush n => some (.flush n)
  | .ackFlush n => some (.flush n)
  | .shutdown n => some (.shutdown n)
  | .ackShutdown n => some (.shutdown n)
  | _ => none

def OutPc.barrier? : OutPc → Option OutboundCmd
  | .took c => c.barrier?
  | .sending _ k => k.barrier?
  | .flushing k => k.barrier?
  | .closing k => k.barrier?
  | _ => none

/-- The loop has taken a `Shutdown` command: what follows it in the queue is dropped. -/
def Outbound.shutting (o : Outbound) : Bool :=
  o.closeSent || o.pc.barrier?.any OutboundCmd.isShutdown

/-- What a step keeps that takes nothing. -/
structure Outbound.Keeps (o o' : Outbound) : Prop where
  taken : o'.taken = o.taken
  barrier : o'.pc.barrier? = o.pc.barrier? ∨ o'.pc.barrier? = none
  shutting : o'.pc.left = false → o'.shutting = o.shutting
  started : o'.shutting = true → o.shutting = true
  left : o.pc.left = true → o'.pc.left = true
  written : o.written <+: o'.written
  sunk : o.sunk <+: o'.sunk
  dropped : o'.sinkDropped = o.sinkDropped

/-- What a step of the outbound task takes. -/
inductive Outbound.Takes (m : Memory) (o : Outbound) : Outbound → Access → Prop where
  | nothing {o' : Outbound} {a : Access} (ha : a.plain = true) (hk : o.Keeps o') : Takes m o o' a
  | command {c : OutboundCmd} {rest : List OutboundCmd} (hp : o.pc = .selectRecv)
      (hq : m.chan.queue = c :: rest) :
      Takes m o { o with pc := .took c, taken := o.note c } (.chan .pop)
  | credit {id : StreamId} (hp : o.pc = .selectRecv) (hc : o.closeSent = false)
      (hm : id ∈ m.recvs.pendingCredit) :
      Takes m o { o with
        pc := .took (.frame (.maxStreamData id (m.recvs.cell id).credit))
        taken := o.taken ++ [.maxStreamData id (m.recvs.cell id).credit] } (.recv (.takeCredit id))
  | leave (hp : o.pc = .exit) :
      Takes m o { o with pc := .ending taskFinished, sinkDropped := true } (.chan .dropRx)

namespace Outbound

theorem Keeps.refl (o : Outbound) : o.Keeps o :=
  ⟨rfl, .inl rfl, fun _ => rfl, fun h => h, fun h => h, List.prefix_rfl, List.prefix_rfl, rfl⟩

/-- The history is the same but for what was given to the sink. -/
structure Same (o o' : Outbound) : Prop where
  taken : o'.taken = o.taken
  closeSent : o'.closeSent = o.closeSent
  written : o.written <+: o'.written
  sunk : o.sunk <+: o'.sunk
  dropped : o'.sinkDropped = o.sinkDropped

theorem Same.ofPlace {o : Outbound} {p : OutPc} {b : List UInt8} {n : Nat} {fs gs : List Frame} :
    o.Same { o with pc := p, batch := b, batchFrames := n, batched := fs, inFlight := gs } :=
  ⟨.refl _, .refl _, List.prefix_rfl, List.prefix_rfl, .refl _⟩

/-- The loop runs on. -/
theorem Same.keeps (h : o.Same o') (hl : o.pc.left = false)
    (hb : o'.pc.barrier? = o.pc.barrier?) : o.Keeps o' := by
  have hs : o'.shutting = o.shutting := by
    unfold shutting
    rw [h.closeSent, hb]
  refine ⟨h.taken, .inl hb, fun _ => hs, fun h => hs.symm.trans h, fun h => ?_, h.written, h.sunk,
    h.dropped⟩
  rw [hl] at h
  cases h

/-- The loop is left. -/
theorem Same.leave (h : o.Same o') (hp : o'.pc.left = true) (hb : o'.pc.barrier? = none) :
    o.Keeps o' := by
  refine ⟨h.taken, .inr hb, fun hl => ?_, fun hs => ?_, fun _ => hp, h.written, h.sunk, h.dropped⟩
  · rw [hp] at hl
    cases hl
  · unfold shutting at hs ⊢
    rw [hb, h.closeSent] at hs
    rw [(Bool.or_false _).symm.trans hs]
    exact Bool.true_or _

/-- An operation of the sink, or an empty `flush_batch`, is done. -/
theorem Same.proceed {k : OutNext} (h : o.Same o') (hl : o.pc.left = false)
    (hk : o.pc.barrier? = k.barrier?) : o.Keeps (o'.proceed k) := by
  -- the command is still in hand
  have hsame : ∀ o₂ : Outbound, o.Same o₂ → o₂.pc.barrier? = k.barrier? → o.Keeps o₂ :=
    fun o₂ h hb => h.keeps hl (hb.trans hk.symm)
  -- the command is done
  have hdone : ∀ o₂ : Outbound, o₂.taken = o.taken → o.written <+: o₂.written →
      o.sunk <+: o₂.sunk → o₂.sinkDropped = o.sinkDropped → o₂.pc.barrier? = none →
      o₂.shutting = o.shutting → o.Keeps o₂ := by
    intro o₂ ht hw hs hd hb hsh
    refine ⟨ht, .inr hb, fun _ => hsh, fun h => hsh.symm.trans h, fun h => ?_, hw, hs, hd⟩
    rw [hl] at h
    cases h
  have hsh : o.shutting = (o.closeSent || k.barrier?.any OutboundCmd.isShutdown) := by
    unfold shutting
    rw [hk]
  cases k with
  | append f bytes => exact hsame _ ⟨h.1, h.2, h.3, h.4, h.5⟩ rfl
  | loop => exact hsame _ ⟨h.1, h.2, h.3, h.4, h.5⟩ rfl
  | ws msg => exact hsame _ ⟨h.1, h.2, h.3, h.4, h.5⟩ rfl
  | flush n => exact hsame _ ⟨h.1, h.2, h.3, h.4, h.5⟩ rfl
  | shutdown n => exact hsame _ ⟨h.1, h.2, h.3, h.4, h.5⟩ rfl
  | close => exact hsame _ ⟨h.1, h.2, h.3, h.4, h.5⟩ rfl
  | ackFlush n =>
      refine hdone _ h.1 h.3 h.4 h.5 rfl ?_
      show (o'.closeSent || false) = o.shutting
      rw [hsh, h.closeSent]
      rfl
  | ackShutdown n =>
      refine hdone _ h.1 h.3 h.4 h.5 rfl ?_
      show true = o.shutting
      rw [hsh]
      exact (Bool.or_true _).symm
  | leave => exact Same.leave ⟨h.1, h.2, h.3, h.4, h.5⟩ rfl rfl

theorem Same.flushBatch {k : OutNext} (h : o.Same o') (hl : o.pc.left = false)
    (hk : o.pc.barrier? = k.barrier?) : o.Keeps (o'.flushBatch k) := by
  unfold Outbound.flushBatch
  split_ifs
  · exact h.proceed hl hk
  · exact Same.keeps ⟨h.1, h.2, h.3, h.4, h.5⟩ hl hk.symm

theorem keeps_process {c : OutboundCmd} (hp : o.pc = .took c) (h : o.process cfg c = some o') :
    o.Keeps o' := by
  have hl : o.pc.left = false := by rw [hp]; rfl
  have hb : o.pc.barrier? = c.barrier? := by rw [hp]; rfl
  cases c with
  | frame f =>
      simp only [process] at h
      split_ifs at h
      · cases h
        exact Same.ofPlace.keeps hl hb.symm
      · split at h
        · cases h
        · split_ifs at h
          · cases h
            exact Same.ofPlace.flushBatch (k := .append f _) hl hb
          · cases h
            exact Same.ofPlace.keeps hl hb.symm
  | ws msg =>
      simp only [process] at h
      split_ifs at h
      · cases h
        exact Same.ofPlace.keeps hl hb.symm
      · cases h
        exact Same.ofPlace.flushBatch (k := .ws msg) hl hb
  | flush n =>
      cases h
      exact Same.ofPlace.flushBatch (k := .flush n) hl hb
  | shutdown n =>
      cases h
      exact Same.ofPlace.flushBatch (k := .shutdown n) hl hb

theorem closeSink_written (o : Outbound) : o.written <+: o.closeSink.written := by
  unfold closeSink
  dsimp only
  split_ifs
  · exact List.prefix_rfl
  · exact List.prefix_append _ _

theorem plain_ackAccess (r : Ack) (k : OutNext) : (ackAccess r k).plain = true := by
  cases k <;> rfl

theorem plain_dropAccess (k : OutNext) : (dropAccess k).plain = true := by
  cases k <;> rfl

/-- An operation of the sink fails. -/
theorem takes_failed {k : OutNext} (hl : o.pc.left = false) (hk : o.pc.barrier? = k.barrier?)
    (h : o.failed k = (a, o')) : o.Takes m o' a := by
  cases k with
  | ackFlush n =>
      cases h
      exact .nothing rfl (Same.ofPlace.proceed (k := .ackFlush n) hl hk)
  | _ =>
      cases h
      exact .nothing rfl (Same.ofPlace.leave rfl rfl)

/-- **What a step of the outbound task takes.** -/
theorem takes_of_step {c : OutChoice} (h : o.step cfg m c = some (a, o')) : o.Takes m o' a := by
  unfold step at h
  split at h
  · rename_i hp
    split_ifs at h
    · cases h
      exact .nothing rfl (Same.ofPlace.keeps (by rw [hp]; rfl) (by rw [hp]; rfl))
    · cases h
      exact .nothing rfl (Same.ofPlace.keeps (by rw [hp]; rfl) (by rw [hp]; rfl))
  · rename_i hp
    split_ifs at h
    · cases h
      exact .nothing rfl (Same.ofPlace.flushBatch (by rw [hp]; rfl) (by rw [hp]; rfl))
    · cases h
      exact .nothing rfl (Same.ofPlace.keeps (by rw [hp]; rfl) (by rw [hp]; rfl))
  · rename_i hp
    split at h
    · cases h
    · rename_i c cs hq
      cases h
      exact .command hp hq
  · rename_i id hp
    split_ifs at h with hc
    cases h
    exact .credit hp hc.2 hc.1
  · rename_i hp
    cases h
    exact .nothing rfl (Same.ofPlace.keeps (by rw [hp]; rfl) (by rw [hp]; rfl))
  · rename_i cmd hp
    obtain ⟨o₁, ho₁, heq⟩ := Option.map_eq_some_iff.1 h
    cases heq
    exact .nothing rfl (keeps_process hp ho₁)
  · rename_i f bytes hp
    have hl : o.pc.left = false := by rw [hp]; rfl
    have hb : o.pc.barrier? = none := by rw [hp]; rfl
    cases h
    refine .nothing rfl ?_
    unfold settle
    split_ifs
    · exact Same.flushBatch (k := .loop) ⟨rfl, rfl, List.prefix_rfl, List.prefix_rfl, rfl⟩ hl hb
    · exact Same.keeps ⟨rfl, rfl, List.prefix_rfl, List.prefix_rfl, rfl⟩ hl hb.symm
  · rename_i msg k hp
    cases h
    exact .nothing rfl (Same.keeps
      ⟨rfl, rfl, List.prefix_append _ _, List.prefix_append _ _, rfl⟩ (by rw [hp]; rfl)
      (by rw [hp]; rfl))
  · rename_i k hp
    cases h
    exact .nothing (plain_ackAccess .ok k)
      (Same.ofPlace.proceed (by rw [hp]; rfl) (by rw [hp]; rfl))
  · rename_i k hp
    cases h
    exact .nothing (plain_ackAccess .ok k)
      (Same.proceed ⟨rfl, rfl, o.closeSink_written, List.prefix_rfl, rfl⟩ (by rw [hp]; rfl)
        (by rw [hp]; rfl))
  · rename_i msg k hp
    exact takes_failed (by rw [hp]; rfl) (by rw [hp]; rfl) (Option.some.inj h)
  · rename_i k hp
    exact takes_failed (by rw [hp]; rfl) (by rw [hp]; rfl) (Option.some.inj h)
  · rename_i k hp
    exact takes_failed (by rw [hp]; rfl) (by rw [hp]; rfl) (Option.some.inj h)
  · rename_i hp
    cases h
    exact .leave hp
  · rename_i t hp
    split at h
    · rename_i a t' hn
      cases h
      exact .nothing (Task.plain_next hn) (Same.ofPlace.leave rfl rfl)
    · cases h
  · cases h

theorem takes_of_cancel (h : o.cancel = some (a, o')) : o.Takes m o' a := by
  unfold cancel at h
  split at h
  · cases h
    exact .nothing rfl (Same.ofPlace.leave rfl rfl)
  · rename_i k _
    cases h
    exact .nothing (plain_dropAccess k) (Same.ofPlace.leave rfl rfl)
  · rename_i k _
    cases h
    exact .nothing (plain_dropAccess k) (Same.ofPlace.leave rfl rfl)
  · rename_i k _
    cases h
    exact .nothing (plain_dropAccess k) (Same.ofPlace.leave rfl rfl)
  · cases h

theorem Keeps.left_eq_false (hk : o.Keeps o') (hl : o'.pc.left = false) : o.pc.left = false := by
  cases hleft : o.pc.left with
  | false => rfl
  | true =>
      rw [hk.left hleft] at hl
      cases hl

/-- A loop that runs was running. -/
theorem Takes.left_eq_false (h : o.Takes m o' a) (hl : o'.pc.left = false) : o.pc.left = false := by
  cases h with
  | nothing ha hk => exact hk.left_eq_false hl
  | command hp hq => rw [hp]; rfl
  | credit hp hc hm => rw [hp]; rfl
  | leave hp => cases hl

/-- What was written stays written. -/
theorem Takes.grows (h : o.Takes m o' a) : o.written <+: o'.written ∧ o.sunk <+: o'.sunk := by
  cases h with
  | nothing ha hk => exact ⟨hk.written, hk.sunk⟩
  | _ => exact ⟨List.prefix_rfl, List.prefix_rfl⟩

end Outbound

/-! ## The access of a step -/

/-- The access of a step. -/
def Session.access (cfg : Config) (s : Session) : Label → Option Access
  | .call c => (c.start s.mem).map fun r => r.2.1
  | .op i => (s.ops[i]?).bind fun o => (o.task.next cfg s.mem).map Prod.fst
  | .receive msg => (s.inb.receive cfg s.mem msg).map Prod.fst
  | .inbound => (s.inb.step cfg s.mem).map Prod.fst
  | .outbound c => (s.out.step cfg s.mem c).map Prod.fst
  | .outboundCancel => s.out.cancel.map Prod.fst
  | .assign h => some (.handle (.reserve h))
  | _ => some .skip

/-- **What a step of a session does to the memory and to the frames that were taken.** -/
theorem takes_of_step {l : Label} (h : s.step cfg l = some s') :
    ∃ a, s.access cfg l = some a ∧ s'.mem = s.mem.apply a ∧ s.out.Takes s.mem s'.out a := by
  cases Session.steps_of_step h with
  | call ho hst hb =>
      refine ⟨_, ?_, rfl, .nothing (Call.plain_start hst) (.refl _)⟩
      simp only [Session.access, hst, Option.map_some]
  | @op i o a t ho hn =>
      refine ⟨a, ?_, rfl, .nothing (Task.plain_next hn) (.refl _)⟩
      simp only [Session.access, ho, Option.bind_some, hn, Option.map_some]
  | @receive msg a b hp hb =>
      refine ⟨a, ?_, rfl, .nothing (Inbound.plain_receive hb) (.refl _)⟩
      simp only [Session.access, hb, Option.map_some]
  | @inbound a b hb =>
      refine ⟨a, ?_, rfl, .nothing (Inbound.plain_step hb) (.refl _)⟩
      simp only [Session.access, hb, Option.map_some]
  | @outbound c a o ho =>
      refine ⟨a, ?_, rfl, Outbound.takes_of_step ho⟩
      simp only [Session.access, ho, Option.map_some]
  | @outboundCancel a o hc ho =>
      refine ⟨a, ?_, rfl, Outbound.takes_of_cancel ho⟩
      simp only [Session.access, ho, Option.map_some]
  | assign hx hw => exact ⟨_, rfl, rfl, .nothing rfl (.refl _)⟩
  | _ => exact ⟨.skip, rfl, rfl, .nothing rfl (.refl _)⟩

/-! ## What the loop will take -/

/-- The frames of a part of the queue that the loop will take. -/
def Outbound.coming (o : Outbound) (q : List OutboundCmd) : List Frame :=
  if o.shutting then [] else queued (q.takeWhile fun c => !c.isShutdown)

theorem takeWhile_prefix_append (p : OutboundCmd → Bool) (q r : List OutboundCmd) :
    q.takeWhile p <+: (q ++ r).takeWhile p := by
  induction q with
  | nil => exact List.nil_prefix
  | cons c q ih =>
      rw [List.cons_append, List.takeWhile_cons, List.takeWhile_cons]
      split
      · exact List.cons_prefix_cons.2 ⟨rfl, ih⟩
      · exact List.prefix_rfl

namespace Outbound

theorem coming_append (o : Outbound) (q r : List OutboundCmd) : o.coming q <+: o.coming (q ++ r) := by
  unfold coming
  split_ifs
  · exact List.prefix_rfl
  · exact (takeWhile_prefix_append _ q r).filterMap _

theorem coming_congr {q : List OutboundCmd} (h : o'.shutting = o.shutting) :
    o'.coming q = o.coming q := by
  unfold coming
  rw [h]

/-- Without a `Shutdown` command, the loop will take every frame of the queue. -/
theorem coming_eq_queued {q : List OutboundCmd} (hs : o.shutting = false)
    (hq : ∀ n, .shutdown n ∉ q) : o.coming q = queued q := by
  have hall : q.takeWhile (fun c => !c.isShutdown) = q := by
    refine List.takeWhile_eq_self_iff.2 fun c hc => ?_
    cases c with
    | shutdown n => exact absurd hc (hq n)
    | _ => rfl
  unfold coming
  rw [hs, hall]
  rfl

theorem coming_prefix_queued (o : Outbound) (q : List OutboundCmd) : o.coming q <+: queued q := by
  unfold coming
  split_ifs
  · exact List.nil_prefix
  · exact (List.takeWhile_prefix _).filterMap _

/-- A frame behind a `Shutdown` command will not be taken. -/
theorem coming_append_of_shutdown {q : List OutboundCmd} (r : List OutboundCmd)
    (h : ¬ (o.shutting = false ∧ ∀ n, .shutdown n ∉ q)) : o.coming (q ++ r) = o.coming q := by
  unfold coming
  split_ifs with hs
  · rfl
  · have hmem : ∃ n, .shutdown n ∈ q := by
      by_contra hnone
      exact h ⟨Bool.eq_false_of_not_eq_true hs, not_exists.1 hnone⟩
    obtain ⟨n, hn⟩ := hmem
    rw [List.takeWhile_append, if_neg]
    intro hlen
    -- the whole queue would be free of `Shutdown` commands
    have hall := (List.takeWhile_prefix fun c => !OutboundCmd.isShutdown c).eq_of_length hlen
    have := List.mem_takeWhile_imp (hall.symm ▸ hn)
    cases this

theorem shutting_of_selectRecv (hp : o.pc = .selectRecv) : o.shutting = o.closeSent := by
  unfold shutting
  rw [hp]
  exact Bool.or_false _

/-- The loop takes the first command of the queue. -/
theorem coming_take {c : OutboundCmd} {rest : List OutboundCmd} (hp : o.pc = .selectRecv) :
    o.note c ++ { o with pc := .took c, taken := o.note c }.coming rest =
      o.taken ++ o.coming (c :: rest) := by
  have hs := shutting_of_selectRecv hp
  unfold coming
  rw [hs]
  cases c with
  | frame f =>
      show o.note (.frame f) ++ (if (o.closeSent || false) = true then _ else _) = _
      rw [Bool.or_false]
      unfold note
      split_ifs
      · rfl
      · exact List.append_assoc _ _ _
  | shutdown n =>
      show o.taken ++ (if (o.closeSent || true) = true then _ else _) = _
      rw [Bool.or_true, if_pos rfl]
      split_ifs <;> rfl
  | _ =>
      show o.taken ++ (if (o.closeSent || false) = true then _ else _) = _
      rw [Bool.or_false]
      split_ifs <;> rfl

theorem coming_tookCredit {id : StreamId} {n : Nat} {fs : List Frame} {q : List OutboundCmd}
    (hp : o.pc = .selectRecv) :
    { o with pc := .took (.frame (.maxStreamData id n)), taken := fs }.coming q = o.coming q := by
  refine coming_congr ?_
  rw [shutting_of_selectRecv hp]
  exact Bool.or_false _

/-- The loop takes a credit. -/
theorem coming_credit {id : StreamId} {n : Nat} {q : List OutboundCmd} (hp : o.pc = .selectRecv) :
    ordered (o.taken ++ [Frame.maxStreamData id n] ++
      { o with
        pc := .took (.frame (.maxStreamData id n))
        taken := o.taken ++ [Frame.maxStreamData id n] }.coming q) = ordered (o.taken ++ o.coming q) := by
  rw [coming_tookCredit hp, Frame.ordered_append, Frame.ordered_append, Frame.ordered_append,
    show ordered [Frame.maxStreamData id n] = [] from rfl, List.append_nil]

/-- **What the loop has taken and will take only grows** while it runs. -/
theorem Takes.coming_mono (h : o.Takes m o' a) (hl : o'.pc.left = false) :
    ordered (o.taken ++ o.coming m.chan.queue) <+:
      ordered (o'.taken ++ o'.coming (m.apply a).chan.queue) := by
  cases h with
  | nothing ha hk =>
      rw [hk.taken, coming_congr (hk.shutting hl), m.queue_apply ha]
      exact Frame.ordered_isPrefix ((List.prefix_append_right_inj _).2 (o.coming_append _ _))
  | @command c rest hp hq =>
      have hrest : (m.apply (.chan .pop)).chan.queue = rest := congrArg List.tail hq
      rw [hrest, hq, coming_take hp]
  | credit hp hc hm =>
      show _ <+: ordered (_ ++ Outbound.coming _ m.chan.queue)
      rw [coming_credit hp]
  | leave hp => cases hl

/-- Nor is a frame lost. -/
theorem Takes.coming_sublist (h : o.Takes m o' a) (hl : o'.pc.left = false) :
    (o.taken ++ o.coming m.chan.queue).Sublist
      (o'.taken ++ o'.coming (m.apply a).chan.queue) := by
  cases h with
  | nothing ha hk =>
      rw [hk.taken, coming_congr (hk.shutting hl), m.queue_apply ha]
      exact (List.prefix_append_right_inj _).2 (o.coming_append _ _) |>.sublist
  | @command c rest hp hq =>
      have hrest : (m.apply (.chan .pop)).chan.queue = rest := congrArg List.tail hq
      rw [hrest, hq, coming_take hp]
  | credit hp hc hm =>
      show List.Sublist _ (_ ++ Outbound.coming _ m.chan.queue)
      rw [coming_tookCredit hp]
      exact (List.sublist_append_left _ _).append_right _
  | leave hp => cases hl

end Outbound

/-! ## What was put into the queue -/

/-- How the frames taken stand to the frames that were put into the queue. Their order is kept but
for credits, which may also come from `pending_credit`. -/
structure Emission (o : Outbound) (c : Channel) : Prop where
  taken : ordered o.taken <+: ordered c.admitted
  coming : o.pc.left = false → ordered (o.taken ++ o.coming c.queue) <+: ordered c.admitted
  whole : o.pc.left = false → o.shutting = false → (∀ n, .shutdown n ∉ c.queue) →
    ordered (o.taken ++ queued c.queue) = ordered c.admitted
  sublist : o.pc.left = false → o.shutting = false → (∀ n, .shutdown n ∉ c.queue) →
    c.admitted.Sublist (o.taken ++ queued c.queue)

theorem Emission.ofTaken {c : Channel}
    (hc : o.pc.left = false → ordered (o.taken ++ o.coming c.queue) <+: ordered c.admitted)
    (hl : o.pc.left = true → ordered o.taken <+: ordered c.admitted)
    (hw : o.pc.left = false → o.shutting = false → (∀ n, .shutdown n ∉ c.queue) →
      ordered (o.taken ++ queued c.queue) = ordered c.admitted ∧
        c.admitted.Sublist (o.taken ++ queued c.queue)) : Emission o c := by
  refine ⟨?_, hc, fun h₁ h₂ h₃ => (hw h₁ h₂ h₃).1, fun h₁ h₂ h₃ => (hw h₁ h₂ h₃).2⟩
  cases hleft : o.pc.left with
  | true => exact hl hleft
  | false =>
      rw [Frame.ordered_append] at hc
      exact (List.prefix_append _ _).trans (hc hleft)

theorem Emission.takes (h : Emission o m.chan) (ht : o.Takes m o' a) :
    Emission o' (m.apply a).chan := by
  cases ht with
  | nothing ha hk =>
      have hgrow : ordered m.chan.admitted <+: ordered (m.apply a).chan.admitted := by
        rw [m.admitted_apply, Frame.ordered_append]
        exact List.prefix_append _ _
      -- the new frame is the last one of the queue and of the history
      have hnew : o.pc.left = false → o.shutting = false → (∀ n, .shutdown n ∉ m.chan.queue) →
          ordered (o.taken ++ queued (m.apply a).chan.queue) =
              ordered (m.apply a).chan.admitted ∧
            (m.apply a).chan.admitted.Sublist (o.taken ++ queued (m.apply a).chan.queue) := by
        intro hl hs hq
        rw [m.queue_apply ha, queued_append, queued_command, m.admitted_apply, ← List.append_assoc]
        constructor
        · rw [Frame.ordered_append, h.whole hl hs hq, Frame.ordered_append]
        · exact (h.sublist hl hs hq).append_right _
      refine .ofTaken (fun hl => ?_) (fun _ => hk.taken ▸ h.taken.trans hgrow) ?_
      · have hl₀ := hk.left_eq_false hl
        rw [hk.taken, Outbound.coming_congr (hk.shutting hl)]
        by_cases hall : o.shutting = false ∧ ∀ n, .shutdown n ∉ m.chan.queue
        · rw [← (hnew hl₀ hall.1 hall.2).1]
          exact Frame.ordered_isPrefix
            ((List.prefix_append_right_inj _).2 (o.coming_prefix_queued _))
        · rw [m.queue_apply ha, Outbound.coming_append_of_shutdown _ hall]
          exact (h.coming hl₀).trans hgrow
      · intro hl hs hq
        rw [hk.taken]
        refine hnew (hk.left_eq_false hl) ((hk.shutting hl).symm.trans hs) fun n hn => hq n ?_
        rw [m.queue_apply ha]
        exact List.mem_append_left _ hn
  | @command c rest hp hq =>
      have hrest : (m.apply (.chan .pop)).chan.queue = rest := congrArg List.tail hq
      have hl : o.pc.left = false := by rw [hp]; rfl
      refine .ofTaken (fun _ => ?_) nofun ?_
      · rw [hrest, Outbound.coming_take hp, ← hq]
        exact h.coming hl
      · intro _ hs hno
        rw [hrest] at hno ⊢
        -- the command taken is not a `Shutdown` either
        have hs₀ := Bool.or_eq_false_iff.1 hs
        have hno₀ : ∀ n, .shutdown n ∉ m.chan.queue := by
          intro n hn
          rw [hq] at hn
          rcases List.mem_cons.1 hn with rfl | hn
          · cases hs₀.2
          · exact hno n hn
        have hs₁ : o.shutting = false := (Outbound.shutting_of_selectRecv hp).trans hs₀.1
        rw [← Outbound.coming_eq_queued hs hno, Outbound.coming_take hp, ← hq,
          Outbound.coming_eq_queued hs₁ hno₀]
        exact ⟨h.whole hl hs₁ hno₀, h.sublist hl hs₁ hno₀⟩
  | @credit id hp hc hm =>
      have hl : o.pc.left = false := by rw [hp]; rfl
      refine .ofTaken (fun _ => ?_) nofun ?_
      · show ordered (_ ++ Outbound.coming _ m.chan.queue) <+: _
        rw [Outbound.coming_credit hp]
        exact h.coming hl
      · intro _ hs hno
        have hs₀ : o.shutting = false := (Outbound.shutting_of_selectRecv hp).trans hc
        constructor
        · show ordered (o.taken ++ [_] ++ queued m.chan.queue) = _
          rw [Frame.ordered_append, Frame.ordered_append,
            show ordered [Frame.maxStreamData id (m.recvs.cell id).credit] = [] from rfl,
            List.append_nil, ← Frame.ordered_append]
          exact h.whole hl hs₀ hno
        · exact (h.sublist hl hs₀ hno).trans ((List.sublist_append_left _ _).append_right _)
  | leave hp => exact .ofTaken nofun (fun _ => h.taken) nofun

/-- **Frames are taken in the order in which they were queued**, in every run. -/
theorem emission_of_reachable {ok : Session → Label → Prop}
    (hr : Reachable (Session.step cfg) ok {} s) : Emission s.out s.mem.chan := by
  refine hr.invariant (I := fun s => Emission s.out s.mem.chan) ?_ ?_
  · exact ⟨List.prefix_rfl, fun _ => List.prefix_rfl, fun _ _ _ => rfl, fun _ _ _ => .slnil⟩
  · intro s l s' _ ih _ hs
    obtain ⟨a, -, hm, ht⟩ := takes_of_step hs
    rw [hm]
    exact ih.takes ht

end WebsockMux.Native
