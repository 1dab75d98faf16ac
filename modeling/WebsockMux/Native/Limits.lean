import WebsockMux.Proto.StreamId

/-!
# Session limits

`Limits` of `websock-tungstenite-mux/src/session.rs`, with its defaults and `validate`. The fields
are `usize` values of a 64-bit platform. `validate_iff` lists what a validated configuration
satisfies; the other modules use it in place of the checks.
-/

set_option autoImplicit false

namespace WebsockMux.Native

open WebsockMux.Proto

/-- `MAX_WRITE_CHUNK`. -/
def maxWriteChunk : Nat := 16 * 1024

/-- Session limits to prevent unbounded buffering. -/
structure Limits where
  maxWsMessageSize : Nat := 1024 * 1024
  maxStreamDataPerFrame : Nat := 256 * 1024
  maxOpenStreams : Nat := 1024
  recvEventQueueLen : Nat := 128
  outboundQueueLen : Nat := 256
  maxBatchFrames : Nat := 64
  maxBatchBytes : Nat := 512 * 1024
  initialStreamWindow : Nat := 512 * 1024
  streamWindowUpdateThreshold : Nat := 256 * 1024
  acceptUniQueueLen : Nat := 128
  acceptBiQueueLen : Nat := 128
  deriving DecidableEq, Repr

namespace Limits

/-- The limits that must not be zero, in the order in which they are checked. -/
def nonZero (l : Limits) : List (String × Nat) :=
  [("max_ws_message_size", l.maxWsMessageSize),
    ("max_stream_data_per_frame", l.maxStreamDataPerFrame),
    ("max_open_streams", l.maxOpenStreams),
    ("recv_event_queue_len", l.recvEventQueueLen),
    ("outbound_queue_len", l.outboundQueueLen),
    ("max_batch_frames", l.maxBatchFrames),
    ("max_batch_bytes", l.maxBatchBytes),
    ("initial_stream_window", l.initialStreamWindow),
    ("stream_window_update_threshold", l.streamWindowUpdateThreshold),
    ("accept_uni_queue_len", l.acceptUniQueueLen),
    ("accept_bi_queue_len", l.acceptBiQueueLen)]

/-- `usize::saturating_add` on a 64-bit platform. -/
def saturatingAdd (a b : Nat) : Nat := min (a + b) (2 ^ 64 - 1)

/-- The counter of an identifier that fits in a varint is far from saturation. -/
theorem saturatingAdd_counter {id : StreamId} (h : id.val ≤ VarInt.max) :
    saturatingAdd id.counter 1 = id.counter + 1 := by
  have hc := id.counter_eq
  unfold VarInt.max at h
  unfold saturatingAdd
  omega

theorem saturatingAdd_le (a b : Nat) : saturatingAdd a b ≤ a + b := Nat.min_le_left _ _

theorem le_saturatingAdd {a b : Nat} (h : a < 2 ^ 64) :
    a ≤ saturatingAdd a b ∧ saturatingAdd a b < 2 ^ 64 := by
  unfold saturatingAdd
  omega

theorem saturatingAdd_of_le {a b : Nat} (h : a + b ≤ VarInt.max) : saturatingAdd a b = a + b := by
  unfold VarInt.max at h
  unfold saturatingAdd
  omega

/-- Validate that the limits are non-zero and internally consistent. -/
def validate (l : Limits) : Except String Unit :=
  match l.nonZero.find? fun e => e.2 == 0 with
  | some (name, _) => .error (name ++ " must be greater than zero")
  | none =>
      if l.maxStreamDataPerFrame > l.maxWsMessageSize then
        .error "max_stream_data_per_frame must not exceed max_ws_message_size"
      else if l.maxBatchBytes > l.maxWsMessageSize then
        .error "max_batch_bytes must not exceed max_ws_message_size"
      else if l.maxBatchBytes < saturatingAdd l.maxStreamDataPerFrame 33 then
        .error "max_batch_bytes must accommodate a maximum-size stream frame"
      else if l.streamWindowUpdateThreshold > l.initialStreamWindow then
        .error "stream_window_update_threshold must not exceed initial_stream_window"
      else if l.maxWsMessageSize > VarInt.max ∨ l.initialStreamWindow > VarInt.max then
        .error "byte and flow-control limits must fit in a mux varint"
      else .ok ()

/-- What `validate` establishes. -/
structure Valid (l : Limits) : Prop where
  nonZero : ∀ e ∈ l.nonZero, 0 < e.2
  streamData_le : l.maxStreamDataPerFrame ≤ l.maxWsMessageSize
  batch_le : l.maxBatchBytes ≤ l.maxWsMessageSize
  batch_ge : l.maxStreamDataPerFrame + 33 ≤ l.maxBatchBytes
  threshold_le : l.streamWindowUpdateThreshold ≤ l.initialStreamWindow
  message_le : l.maxWsMessageSize ≤ VarInt.max
  window_le : l.initialStreamWindow ≤ VarInt.max

/-- **What a validated configuration satisfies.** -/
theorem validate_iff (l : Limits) : l.validate = .ok () ↔ l.Valid := by
  have hfind : l.nonZero.find? (fun e => e.2 == 0) = none ↔ ∀ e ∈ l.nonZero, 0 < e.2 := by
    rw [List.find?_eq_none]
    simp only [beq_iff_eq, Nat.pos_iff_ne_zero]
  constructor
  · intro h
    unfold validate at h
    split at h
    · cases h
    · rename_i hnone
      split_ifs at h with h1 h2 h3 h4 h5
      have hmsg : l.maxWsMessageSize ≤ VarInt.max ∧ l.initialStreamWindow ≤ VarInt.max := by omega
      refine ⟨hfind.1 hnone, by omega, by omega, ?_, by omega, hmsg.1, hmsg.2⟩
      simp only [saturatingAdd, VarInt.max] at h3 hmsg
      omega
  · rintro ⟨h0, h1, h2, h3, h4, h5, h6⟩
    have hs : ¬ l.maxBatchBytes < saturatingAdd l.maxStreamDataPerFrame 33 := by
      unfold saturatingAdd
      omega
    unfold validate
    rw [hfind.2 h0]
    show (if _ then _ else _ : Except String Unit) = _
    rw [if_neg (by omega), if_neg (by omega), if_neg hs, if_neg (by omega), if_neg (by omega)]

/-- The default limits are valid. -/
theorem validate_default : ({} : Limits).validate = .ok () := by decide

theorem Valid.window_pos {l : Limits} (h : l.Valid) : 0 < l.initialStreamWindow :=
  h.nonZero ("initial_stream_window", _) (by simp [Limits.nonZero])

theorem Valid.threshold_pos {l : Limits} (h : l.Valid) : 0 < l.streamWindowUpdateThreshold :=
  h.nonZero ("stream_window_update_threshold", _) (by simp [Limits.nonZero])

end Limits

end WebsockMux.Native
