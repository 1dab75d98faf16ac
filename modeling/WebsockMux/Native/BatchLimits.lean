import WebsockMux.Native.Outbox
import WebsockMux.Native.WellFormed

/-!
# Batch limits

A batch is sent before it would grow beyond `max_batch_bytes`, but a frame that is larger than that
on its own is sent all the same. `validate` leaves room for a maximum-size `Stream` frame; it does
not compare the limit with the longest reason of a `ConnectionClose`. With room for that too, no
message is larger than the limits allow (`batch_limits`); without it, one can be
(`close_exceeds_batch`).
-/

set_option autoImplicit false

namespace WebsockMux.Native

open WebsockMux.Lib WebsockMux.Proto
open WebsockMux.Proto.Frame (encodeAll decodeMessage)

variable {cfg : Config} {m : Memory} {s s' : Session}

/-! ## Small frames -/

/-- The bytes of the longest reason that `protocol_error` is called with. -/
def maxReason : Nat := 42

/-- A connection error with one of those reasons: the code fits in one byte. -/
def SmallClose (code : Nat) (reason : String) : Prop :=
  code < 64 ∧ (asBytes reason).length ≤ maxReason

instance (code : Nat) (reason : String) : Decidable (SmallClose code reason) := by
  unfold SmallClose
  infer_instance

/-- The frames that a session enqueues. -/
def FrameSmall (l : Limits) : Frame → Prop
  | .stream _ data _ => data.length ≤ l.maxStreamDataPerFrame
  | .connectionClose code reason => SmallClose code reason
  | _ => True

theorem size_le_eight {x n : Nat} (h : VarInt.size ⟨x⟩ = some n) : n ≤ 8 := by
  unfold VarInt.size at h
  dsimp only at h
  split_ifs at h <;> cases h <;> omega

theorem size_of_lt {x n : Nat} (hx : x < 64) (h : VarInt.size ⟨x⟩ = some n) : n = 1 := by
  rw [(VarInt.encode_one hx).2] at h
  cases h
  rfl

/-- **A frame that a session enqueues fits in a batch**, when the limit has room for the longest
reason. -/
theorem FrameSmall.length_le {l : Limits} {f : Frame} {bytes : List UInt8} (hf : FrameSmall l f)
    (hl : l.Valid) (hroom : maxReason + 3 ≤ l.maxBatchBytes) (he : f.encode = some bytes) :
    bytes.length ≤ l.maxBatchBytes := by
  obtain ⟨bs, he', hlen, -, -⟩ := Frame.exists_encode (Frame.encodable_of_encode he)
  rw [he] at he'
  cases he'
  have hdata := hl.batch_ge
  unfold maxReason at hroom
  cases f with
  | openUni id =>
      simp only [Frame.encodedLen, Option.bind_eq_bind, Option.bind_eq_some_iff, Option.pure_def,
        Option.some.injEq] at hlen
      obtain ⟨n, hn, hlen⟩ := hlen
      have := size_le_eight hn
      omega
  | openBi id =>
      simp only [Frame.encodedLen, Option.bind_eq_bind, Option.bind_eq_some_iff, Option.pure_def,
        Option.some.injEq] at hlen
      obtain ⟨n, hn, hlen⟩ := hlen
      have := size_le_eight hn
      omega
  | stream id data fin =>
      simp only [Frame.encodedLen, Option.bind_eq_bind, Option.bind_eq_some_iff, Option.pure_def,
        Option.some.injEq] at hlen
      obtain ⟨n, hn, k, hk, j, hj, hlen⟩ := hlen
      have := size_le_eight hn
      have := size_le_eight hk
      have := size_le_eight hj
      have hd : data.length ≤ l.maxStreamDataPerFrame := hf
      omega
  | connectionClose code reason =>
      simp only [Frame.encodedLen, Option.bind_eq_bind, Option.bind_eq_some_iff, Option.pure_def,
        Option.some.injEq] at hlen
      obtain ⟨n, hn, k, hk, hlen⟩ := hlen
      have hr : (asBytes reason).length ≤ 42 := hf.2
      have := size_of_lt hf.1 hn
      have := size_of_lt (by omega) hk
      omega
  | _ =>
      simp only [Frame.encodedLen, Option.bind_eq_bind, Option.bind_eq_some_iff, Option.pure_def,
        Option.some.injEq] at hlen
      obtain ⟨n, hn, k, hk, hlen⟩ := hlen
      have := size_le_eight hn
      have := size_le_eight hk
      omega

/-! ## What the functions enqueue -/

/-- A chunk is at most as long as the limit for one frame. -/
def Chunk.Small (l : Limits) (c : Chunk) : Prop := c.grant ≤ l.maxStreamDataPerFrame

def Ret.Small : Ret → Prop
  | .requestShutdown k => k.Small
  | .protocolError code reason k => SmallClose code reason ∧ k.Small
  | .releaseHandle _ k => k.Small
  | .closeReceiver _ k => k.Small
  | .dropRecv _ k => k.Small
  | .dropSend _ _ k => k.Small
  | .dropTx _ k => k.Small
  | _ => True

def SendSite.Small (l : Limits) : SendSite → Prop
  | .write c => c.Small l
  | _ => True

def TrySite.Small : TrySite → Prop
  | .protocolError code reason => SmallClose code reason
  | _ => True

def Check.Small (l : Limits) : Check → Prop
  | .send s => s.Small l
  | .trySend s k => s.Small ∧ k.Small
  | .dropSend _ _ k => k.Small
  | _ => True

/-- A function in progress that enqueues small frames only. -/
def Task.Small (l : Limits) : Task → Prop
  | .anyOf _ c => c.Small l
  | .reserve s => s.Small l
  | .publish s => s.Small l
  | .trySend s k => s.Small ∧ k.Small
  | .storeShutdown k => k.Small
  | .cancel k => k.Small
  | .closeAll _ k => k.Small
  | .pollReserve c => c.Small l
  | .pollPublish c => c.Small l
  | .dropSend _ _ k => k.Small
  | .dropSendRemove _ _ k => k.Small
  | .releaseHandle _ k => k.Small
  | .dropRecv _ k => k.Small
  | .dropRecvSwap _ k => k.Small
  | .closeReceiver _ k => k.Small
  | .dropTx _ k => k.Small
  | _ => True

/-- An access that enqueues small frames only. -/
def Access.Small (l : Limits) : Access → Prop
  | .chan (.publish f) => FrameSmall l f
  | .chan (.trySend f) => FrameSmall l f
  | .handle (.sendData _ f) => FrameSmall l f
  | .handle (.sendFin _ f) => FrameSmall l f
  | _ => True

section Functions

variable {l : Limits}

theorem Ret.small_resume {k : Ret} (h : k.Small) : k.resume.Small l := by
  cases k <;> exact h

theorem small_writeLoop (w : Writer) : (writeLoop cfg w).Small l := by
  unfold writeLoop
  split_ifs <;> trivial

theorem small_outOfCredit (w : Writer) : (outOfCredit w).Small l := by
  unfold outOfCredit
  split_ifs <;> trivial

theorem SendSite.small_resume (s : SendSite) (ok : Bool) : (s.resume cfg ok).Small l := by
  cases s with
  | write c =>
      cases ok with
      | false => trivial
      | true => exact small_writeLoop _
  | inboundCredit i bi => cases bi <;> cases ok <;> trivial
  | _ => cases ok <;> trivial

theorem TrySite.small_resume {k : Ret} (hk : k.Small) (s : TrySite) (ok : Bool) :
    (s.resume k ok).Small l := by
  cases s <;> cases ok <;> exact hk

theorem Check.small_resume {c : Check} (h : c.Small l) (b : Bool) : (c.resume cfg b).Small l := by
  cases c with
  | send s =>
      cases b with
      | false => exact h
      | true => exact s.small_resume _
  | trySend s k =>
      cases b with
      | false => exact h
      | true => exact s.small_resume h.2 _
  | dropSend x i k =>
      cases b with
      | false => exact ⟨trivial, h⟩
      | true => exact h
  | writeStart w =>
      cases b with
      | false => exact small_writeLoop w
      | true => trivial
  | reserveOpen w =>
      cases b with
      | false => trivial
      | true => exact small_outOfCredit w
  | noCredit w =>
      cases b with
      | false =>
          simp only [Check.resume]
          split_ifs <;> trivial
      | true => trivial
  | _ => cases b <;> trivial

theorem SendCall.small_body (c : SendCall) : c.body.Small l := by
  cases c with
  | write w =>
      simp only [SendCall.body]
      split_ifs <;> trivial
  | reset i code =>
      simp only [SendCall.body]
      split_ifs <;> trivial
  | _ => trivial

theorem Chunk.small_frame {c : Chunk} (h : c.Small l) : FrameSmall l c.frame := by
  show (c.data.take c.grant).length ≤ l.maxStreamDataPerFrame
  rw [List.length_take]
  exact (Nat.min_le_left _ _).trans h

theorem SendSite.small_frame {s : SendSite} (h : s.Small cfg.limits) :
    FrameSmall cfg.limits (s.frame cfg) := by
  cases s with
  | write c => exact Chunk.small_frame h
  | finish i => exact Nat.zero_le _
  | _ => trivial

theorem TrySite.small_frame {s : TrySite} (h : s.Small) : FrameSmall l s.frame := by
  cases s with
  | protocolError code reason => exact h
  | _ => trivial

theorem small_acceptDrop (i : StreamId) (x : Option Nat) : (acceptDrop i x).Small := by
  cases x <;> trivial

/-- A chunk asks for at most the limit of one frame. -/
theorem Writer.small_chunk (w : Writer) (sent max : Nat) : (w.chunk cfg sent max).Small cfg.limits :=
  (Nat.min_le_right _ _).trans (Nat.min_le_right _ _)

/-- The reasons of the functions that register streams and check data. -/
theorem RecvTable.small_refuses {t : RecvTable} {i : StreamId} {code : Nat} {reason : String}
    (h : t.refuses cfg i = some (code, reason)) : SmallClose code reason := by
  unfold RecvTable.refuses at h
  split_ifs at h <;> cases h <;> decide

theorem SendTable.small_refuses {t : SendTable} {i : StreamId} {reason : String}
    (h : t.refuses cfg i = some reason) : SmallClose 3 ("protocol error: " ++ reason) := by
  unfold SendTable.refuses at h
  split_ifs at h <;> cases h <;> decide

theorem RecvTable.small_refusesData {t : RecvTable} {i : StreamId} {n : Nat} {reason : String}
    (h : t.refusesData i n = some reason) : SmallClose 2 reason := by
  unfold RecvTable.refusesData at h
  split_ifs at h <;> cases h <;> decide

end Functions

/-- **A function that enqueues small frames only** keeps doing so. -/
theorem Task.small_next {t t' : Task} {a : Access} (ht : t.Small cfg.limits)
    (hn : t.next cfg m = some (a, t')) : t'.Small cfg.limits ∧ a.Small cfg.limits := by
  replace hn := Task.steps_of_next hn
  induction hn with
  | anyOfNil | anyOfSet | anyOfLast => exact ⟨Check.small_resume ht _, trivial⟩
  | reserveClosed x | unpublished x => exact ⟨x.small_resume _, trivial⟩
  | publish x => exact ⟨x.small_resume _, SendSite.small_frame ht⟩
  | trySend x k => exact ⟨x.small_resume ht.2 _, TrySite.small_frame ht.1⟩
  | trySendFull x k => exact ⟨x.small_resume ht.2 _, trivial⟩
  | closeAll c k =>
      cases c with
      | closeFlows => exact ⟨Ret.small_resume ht, trivial⟩
      | _ => exact ⟨ht, trivial⟩
  | cancel | closeAllAgain | releaseHandle | closeReceiver | dropTx =>
      exact ⟨Ret.small_resume ht, trivial⟩
  | selectApi c | selectApiSame c => exact ⟨by cases c <;> trivial, trivial⟩
  | swapOperation c => exact ⟨c.small_body, trivial⟩
  | outOfCredit w => exact ⟨small_outOfCredit w, trivial⟩
  | casSent w sent max =>
      exact ⟨granted_elim _ (w.small_chunk sent max) (w.small_chunk sent max), trivial⟩
  | pollPublish c => exact ⟨trivial, Chunk.small_frame ht⟩
  | shutdownPublish x i => exact ⟨trivial, Nat.zero_le _⟩
  | anyOf | reserve | pollReserveReady | pollReserve | dropSendLast | dropSend | dropRecvFinished
  | dropRecv | dropRecvGone | dropRecvAgain | dropSendRemove | storeShutdown => exact ⟨ht, trivial⟩
  | dropRecvSwap i k => exact ⟨⟨trivial, ht⟩, trivial⟩
  | peerRefused i bi | unknown i bi => exact ⟨by cases bi <;> trivial, trivial⟩
  | tryRefused i bi code reason href => exact ⟨⟨RecvTable.small_refuses href, trivial⟩, trivial⟩
  | flowRefused i reason href => exact ⟨⟨SendTable.small_refuses href, trivial⟩, trivial⟩
  | acceptLockGone i x | acceptClosed i x =>
      exact ⟨Ret.small_resume (small_acceptDrop i x), trivial⟩
  | acceptFull i x =>
      have hclose : SmallClose 3 "accept queue full" := by decide
      exact ⟨⟨hclose, small_acceptDrop i x⟩, trivial⟩
  | dataRefused i data fin reason href =>
      exact ⟨⟨RecvTable.small_refusesData href, trivial⟩, trivial⟩
  | eventsFull i data fin =>
      have hclose : SmallClose 3 "receive queue full" := by decide
      exact ⟨⟨hclose, trivial⟩, trivial⟩
  | _ => exact ⟨trivial, trivial⟩

theorem Task.small_cancelled {t t' : Task} (h : t.cancelled = some t') : t'.Small cfg.limits := by
  cases t with
  | reserve x => cases x <;> cases h <;> trivial
  | _ => cases h <;> trivial

theorem Task.small_timedOut {t t' : Task} (h : t.timedOut = some t') : t'.Small cfg.limits := by
  cases t <;> cases h <;> trivial

theorem Task.small_aborted {t t' : Task} (ht : t.Small cfg.limits) (h : t.aborted = some t') :
    t'.Small cfg.limits := by
  cases t with
  | reserve x => cases x <;> cases h <;> trivial
  | acceptLock i x =>
      cases h
      exact Ret.small_resume (small_acceptDrop i x)
  | closeAll c k => cases c <;> cases h <;> exact Ret.small_resume ht
  | _ => cases h

theorem small_handleFrame (f : Frame) : (handleFrame cfg f).Small cfg.limits := by
  cases f with
  | openUni i =>
      simp only [handleFrame]
      split_ifs <;> trivial
  | openBi i =>
      simp only [handleFrame]
      split_ifs <;> trivial
  | stream i data fin =>
      simp only [handleFrame]
      split_ifs <;> trivial
  | _ => trivial

theorem Call.small_start {c : Call} {u : Use} {a : Access} {t : Task}
    (h : c.start m = some (u, a, t)) : t.Small cfg.limits ∧ a.Small cfg.limits := by
  cases Call.starts_of_start h <;> exact ⟨trivial, trivial⟩

/-- The inbound task calls `protocol_error` with short reasons. -/
theorem Session.InboundMoves.small {b b' : Inbound} (h : Session.InboundMoves cfg m b b')
    (hb : b.phase.task.Small cfg.limits) : b'.phase.task.Small cfg.limits := by
  have hleave : ∀ {b' : Inbound}, b.leave = some b' → b'.phase.task.Small cfg.limits := by
    intro b' hl
    unfold Inbound.leave at hl
    split at hl <;> cases hl <;> trivial
  cases h with
  | same => exact hb
  | receive hp hrec =>
      unfold Inbound.receive at hrec
      split at hrec
      · split_ifs at hrec <;> cases hrec <;> trivial
      · split_ifs at hrec <;> cases hrec <;> exact hb
      · cases hrec
        trivial
      · cases hrec
        trivial
      · cases hrec
        exact hb
  | leave hl => exact hleave hl
  | next hs =>
      cases Inbound.steps_of_step hs with
      | frame hp hd => exact small_handleFrame _
      | next hp hn =>
          rw [hp] at hb
          exact (Task.small_next hb hn).1
      | finishing hp hn =>
          rw [hp] at hb
          exact (Task.small_next hb hn).1
      | _ => trivial
  | cancel hc =>
      unfold Inbound.cancel at hc
      split at hc
      · rename_i hp
        rw [hp] at hb
        split at hc
        · rename_i ha
          cases hc
          exact Task.small_aborted hb ha
        · cases hc
      · exact hleave hc

/-! ## What is queued -/

/-- The functions in progress, and the frames in the queue. -/
structure View.Small (l : Limits) (v : View) : Prop where
  tasks : ∀ t ∈ v.tasks, t.Small l
  queue : ∀ f, OutboundCmd.frame f ∈ v.mem.chan.queue → FrameSmall l f

theorem Memory.small_queue {l : Limits} {a : Access} (ha : a.Small l)
    (hq : ∀ f, OutboundCmd.frame f ∈ m.chan.queue → FrameSmall l f) :
    ∀ f, OutboundCmd.frame f ∈ (m.apply a).chan.queue → FrameSmall l f := by
  intro f hf
  -- a command is added
  have hadd : ∀ c : OutboundCmd, OutboundCmd.frame f ∈ m.chan.queue ++ [c] →
      (∀ g, c = .frame g → FrameSmall l g) → FrameSmall l f := by
    intro c hc hsmall
    rcases List.mem_append.1 hc with hc | hc
    · exact hq f hc
    · exact hsmall f (List.mem_singleton.1 hc).symm
  cases a with
  | chan b =>
      cases b with
      | publish g => exact hadd (.frame g) hf fun g' hg => by cases hg; exact ha
      | trySend g => exact hadd (.frame g) hf fun g' hg => by cases hg; exact ha
      | tryWs msg => exact hadd (.ws msg) hf nofun
      | shutdown => exact hadd (.shutdown _) hf nofun
      | pop => exact hq f (List.mem_of_mem_tail hf)
      | dropRx => exact absurd hf List.not_mem_nil
      | _ => exact hq f hf
  | handle b =>
      cases b with
      | sendData i g => exact hadd (.frame g) hf fun g' hg => by cases hg; exact ha
      | sendFin i g => exact hadd (.frame g) hf fun g' hg => by cases hg; exact ha
      | sendFlush i => exact hadd (.flush _) hf nofun
      | _ => exact hq f hf
  | session clone => cases clone <;> exact hq f hf
  | _ => exact hq f hf

/-- A move keeps it; the new function of the inbound task is given. -/
theorem Moves.small {v v' : View} {who : Option Nat} (h : Moves cfg v who v')
    (h₀ : ∀ t, v'.tasks[0]? = some t → t.Small cfg.limits) (hv : v.Small cfg.limits) :
    v'.Small cfg.limits := by
  cases h with
  | next hi hn =>
      have hs := Task.small_next (hv.tasks _ (List.mem_of_getElem? hi)) hn
      exact ⟨forall_mem_set hv.tasks hs.1, Memory.small_queue hs.2 hv.queue⟩
  | cancel hi hc => exact ⟨forall_mem_set hv.tasks (Task.small_cancelled hc), hv.queue⟩
  | timeout hi hc => exact ⟨forall_mem_set hv.tasks (Task.small_timedOut hc), hv.queue⟩
  | abort hi ha =>
      exact ⟨forall_mem_set hv.tasks
        (Task.small_aborted (hv.tasks _ (List.mem_of_getElem? hi)) ha), hv.queue⟩
  | @turn _ t t' fs b hi ht =>
      refine ⟨forall_mem_set hv.tasks (h₀ t' ?_), hv.queue⟩
      show (v.tasks.set 0 t')[0]? = some t'
      rw [List.getElem?_set_self', hi]
      rfl
  | exit hi =>
      exact ⟨forall_mem_set hv.tasks trivial, Memory.small_queue (a := .chan .dropRx) trivial hv.queue⟩
  | @spawn _ c u a t hc =>
      have hs : t.Small cfg.limits ∧ a.Small cfg.limits := Call.small_start hc
      exact ⟨forall_mem_concat hv.tasks hs.1, Memory.small_queue hs.2 hv.queue⟩
  | loop ha hb => exact ⟨hv.tasks, Memory.small_queue (by cases ha <;> trivial) hv.queue⟩

/-- **Only small frames are queued** in a run. -/
theorem small_of_reachable {ok : Session → Label → Prop}
    (hr : Reachable (Session.step cfg) ok {} s) : s.view.Small cfg.limits := by
  refine hr.invariant (I := fun s => s.view.Small cfg.limits) ?_ ?_
  · refine ⟨?_, nofun⟩
    intro t ht
    have ht : t = .done := by simpa [Session.view, Session.tasks, InPhase.task, OutPc.task] using ht
    rw [ht]
    trivial
  · intro s l s' _ ih _ hs
    refine (Session.moves_of_step hs).small ?_ ih
    intro t ht
    cases ht
    exact (Session.inboundMoves_of_step hs).small (ih.tasks _ (List.mem_cons_self))

/-! ## What is written -/

/-- A message within the limits. -/
def Message.Within (l : Limits) (msg : Message) : Prop :=
  ∀ data, msg = .binary data → data.length ≤ l.maxBatchBytes ∧
    ∃ fs, encodeAll fs = some data ∧ fs.length ≤ l.maxBatchFrames

namespace Outbound

/-- The batch has room for a frame: `batch_frames` counts it, and it is not full. After the close of
a `Shutdown` no frame is added. -/
def Room (l : Limits) (o : Outbound) : Prop :=
  o.closeSent = false →
    o.batched.length = o.batchFrames ∧ o.batchFrames < l.maxBatchFrames ∧
      o.batch.length ≤ l.maxBatchBytes

/-- What a continuation needs for the limits. -/
def NextWithin (l : Limits) (o : Outbound) : OutNext → Prop
  | .append _ bytes => bytes.length ≤ l.maxBatchBytes
  | .ackFlush _ => o.batchFrames = 0
  | _ => True

/-- What holds for the limits at each place of the loop. -/
def Within (l : Limits) (o : Outbound) : Prop :=
  match o.pc with
  | .select | .selectCancel | .selectRecv => o.Room l
  | .took c => o.Room l ∧ ∀ f, c = .frame f → FrameSmall l f
  | .append _ bytes => o.Room l ∧ o.batch.length + bytes.length ≤ l.maxBatchBytes
  | .sending msg k => msg.Within l ∧ o.NextWithin l k
  | .flushing k => o.NextWithin l k
  | _ => True

end Outbound

/-- The limits of the loop. -/
structure BatchBound (l : Limits) (o : Outbound) : Prop where
  place : o.Within l
  written : ∀ msg ∈ o.written, msg.Within l
/-! ## The loop keeps the limits -/

section

variable {l : Limits} {q : List OutboundCmd} {o o' : Outbound} {k : OutNext}

theorem Message.within_of_plain {msg : Message} (h : OutboundCmd.plain (.ws msg) = true) :
    msg.Within l := by
  intro data hd
  rw [hd] at h
  cases h

/-- A continuation of `flush_batch` other than a frame. -/
theorem Outbound.nextWithin_of_afterBatch (hk : k.afterBatch = true)
    (happ : ∀ f bytes, k = .append f bytes → bytes.length ≤ l.maxBatchBytes) :
    o.NextWithin l k := by
  cases k with
  | append f bytes => exact happ f bytes rfl
  | ackFlush n => cases hk
  | _ => trivial

/-- The sink is done: the next batch is empty. -/
theorem Outbound.Flushed.within (h : o.Flushed k) (hb : encodeAll o.batched = some o.batch)
    (hpos : 0 < l.maxBatchFrames) (hk : o.NextWithin l k) : (o.proceed k).Within l := by
  have hnil := h.batched
  rw [hnil] at hb
  have hempty : o.batch = [] := (Option.some.inj hb).symm
  have hroom : o.batched.length = 0 ∧ 0 < l.maxBatchFrames ∧ o.batch.length ≤ l.maxBatchBytes := by
    rw [hnil, hempty]
    exact ⟨rfl, hpos, Nat.zero_le _⟩
  cases k with
  | append f bytes =>
      refine ⟨fun _ => hroom, ?_⟩
      show o.batch.length + bytes.length ≤ l.maxBatchBytes
      rw [hempty, List.length_nil, Nat.zero_add]
      exact hk
  | loop => exact fun _ => hroom
  | ws msg => exact ⟨Message.within_of_plain h.next, trivial⟩
  | flush n => exact (rfl : (0 : Nat) = 0)
  | ackFlush n =>
      intro _
      have hzero : o.batchFrames = 0 := hk
      show o.batched.length = o.batchFrames ∧ o.batchFrames < l.maxBatchFrames ∧ _
      rw [hzero]
      exact hroom
  | shutdown n => trivial
  | ackShutdown n => exact fun hc => nomatch hc
  | close => trivial
  | leave => trivial

/-- `flush_batch` sends a batch within the limits. -/
theorem Outbound.Ready.within (h : o.Ready k.inHand) (hb : encodeAll o.batched = some o.batch)
    (hn : o.Next k) (hk : k.afterBatch = true) (hpos : 0 < l.maxBatchFrames)
    (hsize : o.closeSent = false →
      o.batched.length ≤ l.maxBatchFrames ∧ o.batch.length ≤ l.maxBatchBytes)
    (happ : ∀ f bytes, k = .append f bytes → bytes.length ≤ l.maxBatchBytes) :
    (o.flushBatch k).Within l := by
  unfold Outbound.flushBatch
  split_ifs with hempty
  · have hb' := hb
    rw [hempty] at hb'
    have hnil := Frame.encodeAll_eq_nil hb'
    refine Flushed.within ⟨hnil, ?_, hn⟩ hb hpos (nextWithin_of_afterBatch hk happ)
    rw [h.taken, hnil, h.inFlight]
  · refine ⟨?_, nextWithin_of_afterBatch hk happ⟩
    intro data hd
    cases hd
    have hopen : o.closeSent = false := by
      by_contra hc
      rw [h.closed (Bool.of_not_eq_false hc)] at hb
      exact hempty (Option.some.inj hb).symm
    exact ⟨(hsize hopen).2, o.batched, hb, (hsize hopen).1⟩

theorem Outbound.Room.size (h : o.Room l) (hc : o.closeSent = false) :
    o.batched.length ≤ l.maxBatchFrames ∧ o.batch.length ≤ l.maxBatchBytes := by
  obtain ⟨heq, hlt, hle⟩ := h hc
  omega

/-- The next batch is not larger than the batch limit. -/
theorem maxBytes_eq (hl : cfg.limits.Valid) : Outbound.maxBytes cfg = cfg.limits.maxBatchBytes :=
  Nat.min_eq_left hl.batch_le

theorem Outbound.Within.process {c : OutboundCmd} (h : o.Within cfg.limits) (hbox : Outbox q o)
    (hl : cfg.limits.Valid) (hroom : maxReason + 3 ≤ cfg.limits.maxBatchBytes)
    (hp : o.pc = .took c) (hs : o.process cfg c = some o') :
    o'.Within cfg.limits ∧ o'.written = o.written := by
  have hpos : 0 < cfg.limits.maxBatchFrames :=
    hl.nonZero ("max_batch_frames", _) (by simp [Limits.nonZero])
  have hat := hbox.place
  simp only [Outbound.At, hp] at hat
  simp only [Outbound.Within, hp] at h
  obtain ⟨hr, hplain⟩ := hat
  obtain ⟨hfits, hsmall⟩ := h
  simp only [Outbound.inHand, hp] at hr
  have hwritten : ∀ k, (o.flushBatch k).written = o.written := by
    intro k
    unfold Outbound.flushBatch
    split_ifs
    · exact (o.proceed_fields k).1
    · rfl
  -- `flush_batch`, with the continuation of another command than a frame
  have hflush : ∀ k, o.Ready [] → k.inHand = [] → o.Next k → k.afterBatch = true →
      (o.flushBatch k).Within cfg.limits ∧ (o.flushBatch k).written = o.written := by
    intro k hr hk hn hafter
    refine ⟨Outbound.Ready.within (hk.symm ▸ hr) hbox.batch hn hafter hpos hfits.size ?_, hwritten k⟩
    intro f bytes heq
    rw [heq] at hk
    cases hk
  cases c with
  | frame f =>
      simp only [Outbound.process] at hs
      dsimp only at hr
      split_ifs at hs with hclose
      · cases hs
        exact ⟨hfits, rfl⟩
      · rw [if_neg hclose] at hr
        have hopen := Bool.eq_false_of_not_eq_true hclose
        split at hs
        · cases hs
        · rename_i bytes he
          have hlen := (hsmall f rfl).length_le hl hroom he
          split_ifs at hs with hbig
          · -- the frame does not fit: it goes to the next batch
            cases hs
            refine ⟨Outbound.Ready.within hr hbox.batch ⟨he, hopen⟩ rfl hpos hfits.size ?_,
              hwritten _⟩
            intro f' bytes' heq
            cases heq
            exact hlen
          · cases hs
            refine ⟨⟨hfits, ?_⟩, rfl⟩
            show o.batch.length + bytes.length ≤ cfg.limits.maxBatchBytes
            by_cases hempty : o.batch = []
            · rw [hempty, List.length_nil, Nat.zero_add]
              exact hlen
            · rw [maxBytes_eq hl] at hbig
              exact Nat.not_lt.1 fun hlt => hbig ⟨hempty, hlt⟩
  | ws msg =>
      simp only [Outbound.process] at hs
      split_ifs at hs with hclose
      · cases hs
        exact ⟨hfits, rfl⟩
      · cases hs
        exact hflush (.ws msg) hr rfl hplain rfl
  | flush n =>
      cases hs
      exact hflush (.flush n) hr rfl trivial rfl
  | shutdown n =>
      cases hs
      exact hflush (.shutdown n) hr rfl trivial rfl

theorem Outbound.Within.append {f : Frame} {bytes : List UInt8} (h : o.Within cfg.limits)
    (hbox : Outbox m.chan.queue o) (hl : cfg.limits.Valid) (hp : o.pc = .append f bytes) :
    ((o.add f bytes).settle cfg m).Within cfg.limits ∧
      ((o.add f bytes).settle cfg m).written = o.written := by
  have hpos : 0 < cfg.limits.maxBatchFrames :=
    hl.nonZero ("max_batch_frames", _) (by simp [Limits.nonZero])
  have hat := hbox.place
  simp only [Outbound.At, hp] at hat
  simp only [Outbound.Within, hp] at h
  obtain ⟨hr, he, hopen⟩ := hat
  obtain ⟨hfits, hlen⟩ := h
  obtain ⟨heq, hlt, -⟩ := hfits hopen
  have hframes : (o.add f bytes).batched.length = (o.add f bytes).batchFrames := by
    show (o.batched ++ [f]).length = o.batchFrames + 1
    rw [List.length_append, heq]
    rfl
  have hbytes : (o.add f bytes).batch.length ≤ cfg.limits.maxBatchBytes := by
    show (o.batch ++ bytes).length ≤ _
    rw [List.length_append]
    exact hlen
  have hbatch : encodeAll (o.batched ++ [f]) = some (o.batch ++ bytes) :=
    Frame.encodeAll_concat hbox.batch he
  have hready : (o.add f bytes).Ready [] := by
    refine ⟨hr.inFlight, ?_, fun hc => ?_⟩
    · rw [List.append_nil]
      show o.taken = o.sunk ++ (o.batched ++ [f])
      rw [hr.taken, List.append_assoc]
    · rw [show o.closeSent = true from hc] at hopen
      cases hopen
  unfold Outbound.settle
  split_ifs with hfull
  · refine ⟨Outbound.Ready.within (k := .loop) hready hbatch trivial rfl hpos (fun _ => ⟨?_, hbytes⟩)
      (by rintro _ _ ⟨⟩), ?_⟩
    · rw [hframes]
      exact hlt
    · unfold Outbound.flushBatch
      split_ifs <;> rfl
  · refine ⟨fun _ => ⟨hframes, ?_, hbytes⟩, rfl⟩
    exact Nat.not_le.1 fun hle => hfull (.inl hle)

theorem BatchBound.exit (h : BatchBound l o) : BatchBound l { o with pc := .exit } :=
  ⟨trivial, h.written⟩

/-- An operation of the sink fails. -/
theorem BatchBound.failed {a : Access} (h : BatchBound l o) (hbox : Outbox q o)
    (hpos : 0 < l.maxBatchFrames)
    (hk : (∃ msg, o.pc = .sending msg k) ∨ o.pc = .flushing k ∨ o.pc = .closing k)
    (hs : o.failed k = (a, o')) : BatchBound l o' := by
  by_cases hflush : ∃ n, k = .ackFlush n
  · obtain ⟨n, rfl⟩ := hflush
    cases hs
    have hat := hbox.place
    have hin := h.place
    rcases hk with ⟨msg, hp⟩ | hp | hp
    · simp only [Outbound.At, hp] at hat
      cases hat.2.1
    · simp only [Outbound.At, hp] at hat
      simp only [Outbound.Within, hp] at hin
      exact ⟨hat.1.within hbox.batch hpos hin, h.written⟩
    · simp only [Outbound.At, hp] at hat
      cases hat.2
  · have hexit : o' = { o with pc := .exit } := by
      cases k with
      | ackFlush n => exact absurd ⟨n, rfl⟩ hflush
      | _ =>
          cases hs
          rfl
    rw [hexit]
    exact h.exit

theorem BatchBound.step {c : OutChoice} {a : Access} (h : BatchBound cfg.limits o)
    (hbox : Outbox m.chan.queue o) (hl : cfg.limits.Valid)
    (hroom : maxReason + 3 ≤ cfg.limits.maxBatchBytes)
    (hq : ∀ f, OutboundCmd.frame f ∈ m.chan.queue → FrameSmall cfg.limits f)
    (hs : o.step cfg m c = some (a, o')) : BatchBound cfg.limits o' := by
  have hpos : 0 < cfg.limits.maxBatchFrames :=
    hl.nonZero ("max_batch_frames", _) (by simp [Limits.nonZero])
  have hat := hbox.place
  have hin := h.place
  unfold Outbound.step at hs
  split at hs
  · rename_i hp
    simp only [Outbound.Within, hp] at hin
    split_ifs at hs
    · cases hs
      exact ⟨trivial, h.written⟩
    · cases hs
      exact ⟨hin, h.written⟩
  · rename_i hp
    simp only [Outbound.Within, hp] at hin
    simp only [Outbound.At, hp] at hat
    split_ifs at hs
    · cases hs
      refine ⟨Outbound.Ready.within hat.1 hbox.batch trivial rfl hpos hin.size
        (by rintro _ _ ⟨⟩), ?_⟩
      unfold Outbound.flushBatch
      split_ifs <;> exact h.written
    · cases hs
      exact ⟨hin, h.written⟩
  · rename_i hp
    simp only [Outbound.Within, hp] at hin
    split at hs
    · cases hs
    · rename_i c cs hqueue
      cases hs
      refine ⟨⟨hin, fun f hf => hq f ?_⟩, h.written⟩
      rw [hqueue, hf]
      exact List.mem_cons_self
  · rename_i id hp
    simp only [Outbound.Within, hp] at hin
    split_ifs at hs
    cases hs
    refine ⟨⟨hin, fun f hf => ?_⟩, h.written⟩
    cases hf
    trivial
  · rename_i hp
    simp only [Outbound.Within, hp] at hin
    cases hs
    exact ⟨hin, h.written⟩
  · rename_i cmd hp
    obtain ⟨o₁, ho₁, heq⟩ := Option.map_eq_some_iff.1 hs
    cases heq
    obtain ⟨hplace, hwritten⟩ := hin.process hbox hl hroom hp ho₁
    exact ⟨hplace, hwritten.symm ▸ h.written⟩
  · rename_i f bytes hp
    cases hs
    obtain ⟨hplace, hwritten⟩ := hin.append hbox hl hp
    exact ⟨hplace, hwritten.symm ▸ h.written⟩
  · rename_i msg k hp
    simp only [Outbound.Within, hp] at hin
    cases hs
    refine ⟨hin.2, ?_⟩
    intro msg' hmsg
    rcases List.mem_append.1 hmsg with hmsg | hmsg
    · exact h.written msg' hmsg
    · rw [List.mem_singleton.1 hmsg]
      exact hin.1
  · rename_i k hp
    simp only [Outbound.Within, hp] at hin
    simp only [Outbound.At, hp] at hat
    cases hs
    exact ⟨hat.1.within hbox.batch hpos hin, (o.proceed_fields k).1.symm ▸ h.written⟩
  · rename_i k hp
    simp only [Outbound.At, hp] at hat
    cases hs
    have hclose : ∀ msg ∈ o.closeSink.written, msg.Within cfg.limits := by
      unfold Outbound.closeSink
      dsimp only
      split_ifs
      · exact h.written
      · intro msg hmsg
        rcases List.mem_append.1 hmsg with hmsg | hmsg
        · exact h.written msg hmsg
        · rw [List.mem_singleton.1 hmsg]
          rintro _ ⟨⟩
    refine ⟨?_, (o.closeSink.proceed_fields k).1.symm ▸ hclose⟩
    -- after the close of a `Shutdown` no frame is added
    cases hat.2 with
    | shutdown n hb => rintro ⟨⟩
    | leave => trivial
  · rename_i msg k hp
    exact h.failed hbox hpos (.inl ⟨msg, hp⟩) (Option.some.inj hs)
  · rename_i k hp
    exact h.failed hbox hpos (.inr (.inl hp)) (Option.some.inj hs)
  · rename_i k hp
    exact h.failed hbox hpos (.inr (.inr hp)) (Option.some.inj hs)
  · cases hs
    exact ⟨trivial, h.written⟩
  · split at hs
    · cases hs
      exact ⟨trivial, h.written⟩
    · cases hs
  · cases hs

theorem BatchBound.cancel {a : Access} (h : BatchBound l o) (hs : o.cancel = some (a, o')) :
    BatchBound l o' := by
  unfold Outbound.cancel at hs
  split at hs
  · cases hs
    exact h.exit
  · cases hs
    exact h.exit
  · cases hs
    exact h.exit
  · cases hs
    exact h.exit
  · cases hs

end

/-- **The loop keeps the limits** in every run, when they have room for the longest reason. -/
theorem batchBound_of_reachable {ok : Session → Label → Prop} (hl : cfg.limits.Valid)
    (hroom : maxReason + 3 ≤ cfg.limits.maxBatchBytes)
    (hr : Reachable (Session.step cfg) ok {} s) : BatchBound cfg.limits s.out := by
  have hpos : 0 < cfg.limits.maxBatchFrames :=
    hl.nonZero ("max_batch_frames", _) (by simp [Limits.nonZero])
  refine hr.invariant (I := fun s => BatchBound cfg.limits s.out) ?_ ?_
  · exact ⟨fun _ => ⟨rfl, hpos, Nat.zero_le _⟩, List.forall_mem_nil _⟩
  · intro s l s' hr ih _ hs
    cases outboundMoves_of_step hs with
    | other hm ho ha => exact ho.symm ▸ ih
    | step hs hm =>
        exact ih.step (outbox_of_reachable hr) hl hroom (small_of_reachable hr).queue hs
    | cancel hs hm => exact ih.cancel hs

/-- A message above the limit of the receiver is refused. -/
theorem Inbound.receive_of_lt {b : Inbound} {data : List UInt8}
    (h : cfg.limits.maxWsMessageSize < data.length) :
    b.receive cfg m (.binary data) = some (.skip, { b with
      phase := .running (protocolError 2 "ws message too large" (.handled false)) [] }) :=
  if_pos h

theorem Inbound.receive_of_le {b : Inbound} {data : List UInt8}
    (h : data.length ≤ cfg.limits.maxWsMessageSize) :
    b.receive cfg m (.binary data) = some (.skip, { b with phase := .decoding data }) :=
  if_neg (Nat.not_lt.2 h)

/-- **Batch limits.** Let validated limits leave room for the longest reason of a
`ConnectionClose`. Every binary message of a run has at most `max_batch_bytes` bytes and at most
`max_batch_frames` frames, and a peer with the same limits decodes it. -/
theorem batch_limits (hl : cfg.limits.validate = .ok ())
    (hroom : maxReason + 3 ≤ cfg.limits.maxBatchBytes)
    (hr : Reachable (Session.step cfg) anyStep {} s) {data : List UInt8}
    (hd : .binary data ∈ s.out.written) :
    data.length ≤ cfg.limits.maxBatchBytes ∧
      (∃ fs, decodeMessage data = some fs ∧ fs.length ≤ cfg.limits.maxBatchFrames) ∧
      ∀ (server : Bool) (m : Memory) (b : Inbound),
        b.receive ⟨server, cfg.limits⟩ m (.binary data) =
          some (.skip, { b with phase := .decoding data }) := by
  have hv := (Limits.validate_iff cfg.limits).1 hl
  obtain ⟨hlen, fs, he, hfs⟩ := (batchBound_of_reachable hv hroom hr).written _ hd data rfl
  refine ⟨hlen, ⟨fs, Frame.decodeMessage_of_encodeAll he, hfs⟩, ?_⟩
  intro server m b
  exact Inbound.receive_of_le (hlen.trans hv.batch_le)

/-- With the default limits, the answer to an `OpenUni` is one message of six bytes. -/
theorem batch_limits_run :
    ∃ s data, Reachable (Session.step ⟨false, {}⟩) anyStep {} s ∧ .binary data ∈ s.out.written ∧
      data.length ≤ 512 * 1024 ∧ ∃ fs, decodeMessage data = some fs ∧ fs.length ≤ 64 := by
  obtain ⟨s, hr, hw⟩ : ∃ s, Reachable (Session.step ⟨false, {}⟩) anyStep {} s ∧
      .binary ((encodeAll [.maxStreamData ⟨3⟩ (512 * 1024)]).getD []) ∈ s.out.written :=
    Reachable.exists_of_run (List.flatten [[.receive (.binary [0, 3])],
      List.replicate 10 .inbound, List.replicate 6 (.outbound .ready)]) (by decide +kernel)
  have h := batch_limits Limits.validate_default (by decide) hr hw
  exact ⟨s, _, hr, hw, h.1, h.2.1⟩

/-- A client whose limits are the smallest that `validate` accepts for one byte of data a frame. -/
def smallBatch : Config where
  isServer := false
  limits := { maxWsMessageSize := 34, maxStreamDataPerFrame := 1, maxBatchBytes := 34 }

/-- **A message can exceed the limits.** The peer opens a stream twice. The `ConnectionClose` that
answers it has 38 bytes and is sent all the same, and a peer with these limits refuses it. -/
theorem close_exceeds_batch :
    smallBatch.limits.validate = .ok () ∧
      ∃ s data, Reachable (Session.step smallBatch) anyStep {} s ∧
        encodeAll [.connectionClose 1 "OpenUni with non-monotonic StreamId"] = some data ∧
        .binary data ∈ s.out.written ∧ smallBatch.limits.maxBatchBytes < data.length ∧
        ∀ (server : Bool) (m : Memory) (b : Inbound),
          b.receive ⟨server, smallBatch.limits⟩ m (.binary data) = some (.skip, { b with
            phase := .running (protocolError 2 "ws message too large" (.handled false)) [] }) := by
  refine ⟨by decide, ?_⟩
  have hbig : 34 <
      ((encodeAll [.connectionClose 1 "OpenUni with non-monotonic StreamId"]).getD []).length := by
    decide +kernel
  obtain ⟨s, hr, hw⟩ : ∃ s, Reachable (Session.step smallBatch) anyStep {} s ∧
      .binary ((encodeAll [.connectionClose 1 "OpenUni with non-monotonic StreamId"]).getD []) ∈
        s.out.written :=
    Reachable.exists_of_run (List.flatten [[.receive (.binary [0, 3, 0, 3])],
      List.replicate 15 .inbound, List.replicate 13 (.outbound .ready)]) (by decide +kernel)
  refine ⟨s, _, hr, ?_, hw, hbig, ?_⟩
  · decide +kernel
  · intro server m b
    exact Inbound.receive_of_lt hbig

end WebsockMux.Native
