import WebsockMux.Lib.AsyncBytes
import WebsockMux.Proto.VarInt

/-!
# The laws of the varint codec

`VarInt::read` and `VarInt::write` of `websock-mux-proto/src/varint.rs`, which work on asynchronous
byte streams, and the laws of the codec (`VarInt.codec_laws`). The reader takes the first byte, then
as many as its tag asks for, and decodes the buffer with an `unwrap`; where that would panic, the
model has `none`.

What a decode does depends only on the tag of the first byte: with enough bytes it reads one varint
(`VarInt.exists_reads`), and without it fails (`VarInt.decode_short`).
-/

set_option autoImplicit false

namespace WebsockMux.Proto

open WebsockMux.Lib

namespace VarInt

/-- `VarInt::read`. The length of the varint is `1 << (buf[0] >> 6)`. -/
def read (s : List ReadPoll) : Option (Except VarIntUnexpectedEnd (VarInt × List ReadPoll)) :=
  match readExact 1 s with
  | none => some (.error .mk)
  | some (first, s) =>
      let size := 1 <<< ((first.headD 0).toNat >>> 6)
      match readExact (size - 1) s with
      | none => some (.error .mk)
      | some (rest, s) =>
          match decode (first ++ rest) with
          | .ok (v, _) => some (.ok (v, s))
          -- `unwrap` panics
          | .error _ => none

/-- `VarInt::write`: the value is encoded into a buffer of eight bytes, and the part of it that was
filled is written. The result is what the sink got and whether the write succeeded. -/
def write (v : VarInt) (sink : List WritePoll) : Option (List UInt8 × Bool) :=
  v.encode.map fun bytes =>
    let buf := bytes ++ List.replicate (8 - bytes.length) 0
    let size := 8 - (8 - bytes.length)
    writeAll (buf.take size) sink

/-! ## What a decode depends on -/

/-- The number of bytes that the tag of a first byte asks for. -/
def width (first : UInt8) : Nat := 2 ^ (first.toNat >>> 6)

theorem tag_cases (first : UInt8) :
    first.toNat >>> 6 = 0b00 ∨ first.toNat >>> 6 = 0b01 ∨ first.toNat >>> 6 = 0b10 ∨
      first.toNat >>> 6 = 0b11 := by
  have := first.toNat_lt
  rw [shiftRight_six]
  omega

/-- **With as many bytes as the tag asks for, a varint is read**, and its value has two bits less
than these bytes have. -/
theorem exists_reads {first : UInt8} {bs : List UInt8} (h : bs.length + 1 = width first) :
    ∃ v, v < 2 ^ (8 * width first - 2) ∧ Reads decode (first :: bs) ⟨v⟩ := by
  have hbody : first.toNat % 64 < 64 := Nat.mod_lt _ (by decide)
  rcases tag_cases first with ht | ht | ht | ht
  · simp only [width, ht] at h ⊢
    obtain rfl : bs = [] := List.eq_nil_of_length_eq_zero (by omega)
    refine ⟨first.toNat % 64, hbody, fun r => ?_⟩
    simp only [List.cons_append, List.nil_append, decode, ht, and_body]
  · simp only [width, ht] at h ⊢
    have k0 : bs.length = 0 + 1 := by omega
    obtain ⟨b0, bs, rfl, k1⟩ := List.length_eq_succ_iff.1 k0
    obtain rfl : bs = [] := List.eq_nil_of_length_eq_zero k1
    have h0 := b0.toNat_lt
    refine ⟨first.toNat % 64 * 2 ^ 8 + b0.toNat, by omega, fun r => ?_⟩
    simp only [List.cons_append, List.nil_append, decode, ht, and_body]
    rw [assemble_two _ _ h0]
  · simp only [width, ht] at h ⊢
    have k0 : bs.length = 2 + 1 := by omega
    obtain ⟨b0, bs, rfl, k1⟩ := List.length_eq_succ_iff.1 k0
    obtain ⟨b1, bs, rfl, k2⟩ := List.length_eq_succ_iff.1 k1
    obtain ⟨b2, bs, rfl, k3⟩ := List.length_eq_succ_iff.1 k2
    obtain rfl : bs = [] := List.eq_nil_of_length_eq_zero k3
    have h0 := b0.toNat_lt
    have h1 := b1.toNat_lt
    have h2 := b2.toNat_lt
    refine ⟨first.toNat % 64 * 2 ^ 24 + b0.toNat * 2 ^ 16 + b1.toNat * 2 ^ 8 + b2.toNat, by omega,
      fun r => ?_⟩
    simp only [List.cons_append, List.nil_append, decode, ht, and_body]
    rw [assemble_four _ _ _ _ h0 h1 h2]
  · simp only [width, ht] at h ⊢
    have k0 : bs.length = 6 + 1 := by omega
    obtain ⟨b0, bs, rfl, k1⟩ := List.length_eq_succ_iff.1 k0
    obtain ⟨b1, bs, rfl, k2⟩ := List.length_eq_succ_iff.1 k1
    obtain ⟨b2, bs, rfl, k3⟩ := List.length_eq_succ_iff.1 k2
    obtain ⟨b3, bs, rfl, k4⟩ := List.length_eq_succ_iff.1 k3
    obtain ⟨b4, bs, rfl, k5⟩ := List.length_eq_succ_iff.1 k4
    obtain ⟨b5, bs, rfl, k6⟩ := List.length_eq_succ_iff.1 k5
    obtain ⟨b6, bs, rfl, k7⟩ := List.length_eq_succ_iff.1 k6
    obtain rfl : bs = [] := List.eq_nil_of_length_eq_zero k7
    have h0 := b0.toNat_lt
    have h1 := b1.toNat_lt
    have h2 := b2.toNat_lt
    have h3 := b3.toNat_lt
    have h4 := b4.toNat_lt
    have h5 := b5.toNat_lt
    have h6 := b6.toNat_lt
    refine ⟨first.toNat % 64 * 2 ^ 56 + b0.toNat * 2 ^ 48 + b1.toNat * 2 ^ 40 + b2.toNat * 2 ^ 32 +
      b3.toNat * 2 ^ 24 + b4.toNat * 2 ^ 16 + b5.toNat * 2 ^ 8 + b6.toNat, by omega, fun r => ?_⟩
    simp only [List.cons_append, List.nil_append, decode, ht, and_body]
    rw [assemble_eight _ _ _ _ _ _ _ _ h0 h1 h2 h3 h4 h5 h6]

/-- **With fewer bytes a decode fails.** -/
theorem decode_short {first : UInt8} {bs : List UInt8} (h : bs.length + 1 < width first) :
    decode (first :: bs) = .error .mk := by
  rcases tag_cases first with ht | ht | ht | ht <;> simp only [width, ht] at h <;>
    simp only [decode, ht]
  · omega
  · -- one byte is missing
    obtain rfl : bs = [] := List.eq_nil_of_length_eq_zero (by omega)
    rfl
  · split
    · simp only [List.length_cons] at h
      omega
    · rfl
  · split
    · simp only [List.length_cons] at h
      omega
    · rfl

/-- A decode that succeeds reads as many bytes as the tag of the first one asks for. -/
theorem decode_cases (b : List UInt8) :
    (decode b = .error .mk ∧ ∀ first rest, b = first :: rest → b.length < width first) ∨
      ∃ first bs r v, b = first :: bs ++ r ∧ bs.length + 1 = width first ∧
        v < 2 ^ (8 * width first - 2) ∧ Reads decode (first :: bs) ⟨v⟩ := by
  cases b with
  | nil => exact .inl ⟨rfl, nofun⟩
  | cons first rest =>
      by_cases hlen : rest.length + 1 < width first
      · refine .inl ⟨decode_short hlen, ?_⟩
        rintro _ _ ⟨⟩
        exact hlen
      · have hpos : 0 < width first := Nat.two_pow_pos _
        have htake : (rest.take (width first - 1)).length + 1 = width first := by
          rw [List.length_take]
          omega
        obtain ⟨v, hv, hreads⟩ := exists_reads htake
        refine .inr ⟨first, rest.take (width first - 1), rest.drop (width first - 1), v, ?_, htake,
          hv, hreads⟩
        rw [List.cons_append, List.take_append_drop]

/-- A value is encoded in no more bytes than a varint with that value has. -/
theorem size_le {v w n : Nat} (hw : w = 1 ∨ w = 2 ∨ w = 4 ∨ w = 8) (hv : v < 2 ^ (8 * w - 2))
    (hsize : size ⟨v⟩ = some n) : n ≤ w := by
  have hmax : v < 2 ^ 62 := by
    rcases hw with rfl | rfl | rfl | rfl <;> omega
  rcases width_cases hmax with h1 | ⟨hl, h2⟩ | ⟨hl, h3⟩ | ⟨hl, h4⟩
  · cases (encode_one h1).2.symm.trans hsize
    rcases hw with rfl | rfl | rfl | rfl <;> omega
  · cases (encode_two hl h2).2.symm.trans hsize
    rcases hw with rfl | rfl | rfl | rfl <;> omega
  · cases (encode_four hl h3).2.symm.trans hsize
    rcases hw with rfl | rfl | rfl | rfl <;> omega
  · cases (encode_eight hl h4).2.symm.trans hsize
    rcases hw with rfl | rfl | rfl | rfl <;> omega

theorem width_cases_of (first : UInt8) :
    width first = 1 ∨ width first = 2 ∨ width first = 4 ∨ width first = 8 := by
  rcases tag_cases first with ht | ht | ht | ht <;> simp [width, ht]

/-! ## The asynchronous reader and writer -/

/-- **Reading from a stream is decoding its bytes**, however they arrive. -/
theorem read_eq_decode (s : List ReadPoll) :
    (∀ v r, decode (unread s) = .ok (v, r) → ∃ s', read s = some (.ok (v, s')) ∧ unread s' = r) ∧
      ∀ e, decode (unread s) = .error e → read s = some (.error e) := by
  rcases decode_cases (unread s) with ⟨hfail, hshort⟩ | ⟨first, bs, r, v, hs, hlen, -, hreads⟩
  · rw [hfail]
    refine ⟨nofun, ?_⟩
    rintro e ⟨⟩
    cases hu : unread s with
    | nil => simp only [read, readExact_of_lt s 1 (by rw [hu]; exact Nat.one_pos)]
    | cons first rest =>
        obtain ⟨s', hread, hrest⟩ := readExact_of_le s 1 (by rw [hu]; exact Nat.le_add_left 1 _)
        have hlt := hshort first rest hu
        rw [hu] at hread hrest hlt
        have hnone : readExact (1 <<< (first.toNat >>> 6) - 1) s' = none := by
          refine readExact_of_lt s' _ ?_
          rw [hrest, Nat.one_shiftLeft]
          simp only [List.drop_succ_cons, List.drop_zero, List.length_cons, width] at hlt ⊢
          omega
        simp only [read, hread, List.take_succ_cons, List.take_zero, List.headD_cons, hnone]
  · have hdec : decode (unread s) = .ok (⟨v⟩, r) := hs ▸ hreads r
    rw [hdec]
    refine ⟨?_, nofun⟩
    rintro _ _ ⟨⟩
    obtain ⟨s₁, hread₁, hrest₁⟩ := readExact_of_le s 1 (by rw [hs]; exact Nat.le_add_left 1 _)
    rw [hs] at hread₁ hrest₁
    have hsize : 1 <<< (first.toNat >>> 6) - 1 = bs.length := by
      rw [Nat.one_shiftLeft]
      simp only [width] at hlen
      omega
    have hrest : unread s₁ = bs ++ r := hrest₁
    obtain ⟨s₂, hread₂, hrest₂⟩ := readExact_of_le s₁ bs.length (by simp [hrest])
    rw [hrest, List.take_left] at hread₂
    rw [hrest, List.drop_left] at hrest₂
    have hbuf : decode ([first] ++ bs) = .ok (⟨v⟩, []) := by
      have h := hreads []
      rwa [List.append_nil] at h
    refine ⟨s₂, ?_, hrest₂⟩
    simp only [read, hread₁, List.cons_append, List.take_succ_cons, List.take_zero,
      List.headD_cons, hsize, hread₂, List.nil_append]
    rw [show decode (first :: bs) = .ok (⟨v⟩, []) from hbuf]

/-- **Writing to a sink emits the encoding.** -/
theorem write_eq_encode {v : VarInt} {bs : List UInt8} (he : v.encode = some bs)
    (hlen : bs.length ≤ 8) (sink : List WritePoll) : v.write sink = some (writeAll bs sink) := by
  have hsize : 8 - (8 - bs.length) = bs.length := by omega
  simp only [write, he, Option.map_some, hsize, List.take_left]

/-- **The laws of the varint codec.** Below `2 ^ 62` a value is encoded, `size` is the length of the
encoding, decoding reads it back whatever follows, and no shorter byte string decodes to the value. A
decode succeeds exactly when the string has as many bytes as the two top bits of its first byte ask
for, and yields a value below `2 ^ 62`. Reading from a stream yields the same value as decoding its
bytes, leaves the same bytes, and fails in the same cases; its `unwrap` never panics. What is written
to a sink is the encoding. -/
theorem codec_laws :
    (∀ v, v < 2 ^ 62 → ∃ bs, encode ⟨v⟩ = some bs ∧ (∀ r, decode (bs ++ r) = .ok (⟨v⟩, r)) ∧
      size ⟨v⟩ = some bs.length ∧
      ∀ b r, decode b = .ok (⟨v⟩, r) → bs.length + r.length ≤ b.length) ∧
    (∀ b, (∃ v r, decode b = .ok (v, r)) ↔
      ∃ first rest, b = first :: rest ∧ 2 ^ (first.toNat >>> 6) ≤ b.length) ∧
    (∀ b v r, decode b = .ok (v, r) → v.intoInner < 2 ^ 62) ∧
    (∀ s, (∀ v r, decode (unread s) = .ok (v, r) →
        ∃ s', read s = some (.ok (v, s')) ∧ unread s' = r) ∧
      ∀ e, decode (unread s) = .error e → read s = some (.error e)) ∧
    (∀ v, v < 2 ^ 62 → ∀ sink, ∃ bs out ok, encode ⟨v⟩ = some bs ∧
      write ⟨v⟩ sink = some (out, ok) ∧ out <+: bs ∧ (ok = true → out = bs)) := by
  refine ⟨fun v hv => ?_, fun b => ?_, fun b v r h => (decode_ok h).1, read_eq_decode,
    fun v hv sink => ?_⟩
  · obtain ⟨bs, he, hsize, -, hreads⟩ := exists_encode hv
    refine ⟨bs, he, hreads, hsize, fun b r hd => ?_⟩
    rcases decode_cases b with ⟨hfail, -⟩ | ⟨first, cs, r', w, rfl, hlen, hw, hcs⟩
    · rw [hfail] at hd
      cases hd
    · rw [hcs r'] at hd
      cases hd
      have hle := size_le (width_cases_of first) hw hsize
      simp only [List.length_append, List.length_cons]
      omega
  · constructor
    · rintro ⟨v, r, hd⟩
      rcases decode_cases b with ⟨hfail, -⟩ | ⟨first, cs, r', w, rfl, hlen, -, -⟩
      · rw [hfail] at hd
        cases hd
      · refine ⟨first, cs ++ r', rfl, ?_⟩
        simp only [width] at hlen
        simp only [List.length_append, List.length_cons]
        omega
    · rintro ⟨first, rest, hb, hle⟩
      rcases decode_cases b with ⟨-, hshort⟩ | ⟨first', cs, r', w, rfl, -, -, hcs⟩
      · exact absurd hle (Nat.not_le.2 (hshort first rest hb))
      · exact ⟨⟨w⟩, r', hcs r'⟩
  · obtain ⟨bs, he, hsize, -, -⟩ := exists_encode hv
    have hlen : bs.length ≤ 8 := size_le (.inr (.inr (.inr rfl))) hv hsize
    obtain ⟨hpre, hall⟩ := writeAll_isPrefix sink bs
    exact ⟨bs, _, _, he, write_eq_encode he hlen sink, hpre, hall⟩

end VarInt

end WebsockMux.Proto
