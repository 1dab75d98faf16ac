import WebsockMux.Lib.Bytes
import WebsockMux.Lib.Decoder

/-!
# QUIC variable-length integers

`websock-mux-proto/src/varint.rs`. A `VarInt` wraps a `u64`; the values that can be encoded are
those below `2 ^ 62`. The two top bits of the first byte of an encoding give its length: one, two,
four or eight bytes. `encode` and `size` reach `unreachable!()` above `2 ^ 62 - 1`, which is
modelled by `none`.
-/

set_option autoImplicit false

namespace WebsockMux.Proto

open WebsockMux.Lib

/-- An integer that is meant to be below `2 ^ 62`. The Rust type does not enforce the bound. -/
structure VarInt where
  intoInner : Nat
  deriving DecidableEq, Repr

/-- Constructing a `VarInt` from a value of `2 ^ 62` or more. -/
inductive VarIntBoundsExceeded where
  | mk
  deriving DecidableEq, Repr

/-- A buffer that ends before a varint is complete. -/
inductive VarIntUnexpectedEnd where
  | mk
  deriving DecidableEq, Repr

namespace VarInt

def max1Byte : Nat := 2 ^ 6 - 1

def max2Byte : Nat := 2 ^ 14 - 1

def max4Byte : Nat := 2 ^ 30 - 1

/-- The largest representable value, `VarInt::MAX`. -/
def max : Nat := 2 ^ 62 - 1

/-- `VarInt::from_u64`: succeeds for `x < 2 ^ 62`. -/
def fromU64 (x : Nat) : Except VarIntBoundsExceeded VarInt :=
  if x ≤ max then .ok ⟨x⟩ else .error .mk

/-- The number of bytes needed to encode the value. -/
def size (v : VarInt) : Option Nat :=
  let x := v.intoInner
  if x ≤ max1Byte then some 1
  else if x ≤ max2Byte then some 2
  else if x ≤ max4Byte then some 4
  else if x ≤ max then some 8
  else none

/-- Encode the value. The casts `x as u8`, `x as u16` and `x as u32` keep the low-order bits, and
`put_u16`, `put_u32` and `put_u64` write big-endian. -/
def encode (v : VarInt) : Option (List UInt8) :=
  let x := v.intoInner
  if x ≤ max1Byte then some [UInt8.ofNat x]
  else if x ≤ max2Byte then some (bigEndian 2 ((0b01 <<< 14) ||| x % 2 ^ 16))
  else if x ≤ max4Byte then some (bigEndian 4 ((0b10 <<< 30) ||| x % 2 ^ 32))
  else if x ≤ max then some (bigEndian 8 ((0b11 <<< 62) ||| x))
  else none

/-- Decode one varint from the front of a buffer. The tag is the two top bits of a byte, so the
last arm is `0b11`. -/
def decode : Decoder VarIntUnexpectedEnd VarInt
  | [] => .error .mk
  | first :: r =>
      let tag := first.toNat >>> 6
      let body := first.toNat &&& 0b00111111
      match tag with
      | 0b00 => .ok (⟨body⟩, r)
      | 0b01 =>
          match r with
          | b0 :: r => .ok (⟨(body <<< 8) ||| b0.toNat⟩, r)
          | _ => .error .mk
      | 0b10 =>
          match r with
          | b0 :: b1 :: b2 :: r =>
              .ok (⟨(body <<< 24) ||| (b0.toNat <<< 16) ||| (b1.toNat <<< 8) ||| b2.toNat⟩, r)
          | _ => .error .mk
      | _ =>
          match r with
          | b0 :: b1 :: b2 :: b3 :: b4 :: b5 :: b6 :: r =>
              .ok (⟨(body <<< 56) ||| (b0.toNat <<< 48) ||| (b1.toNat <<< 40) |||
                (b2.toNat <<< 32) ||| (b3.toNat <<< 24) ||| (b4.toNat <<< 16) |||
                (b5.toNat <<< 8) ||| b6.toNat⟩, r)
          | _ => .error .mk

/-! ## The bits of a byte -/

theorem shiftRight_six (b : UInt8) : b.toNat >>> 6 = b.toNat / 64 :=
  Nat.shiftRight_eq_div_pow _ 6

theorem and_body (b : UInt8) : b.toNat &&& 0b00111111 = b.toNat % 64 :=
  Nat.and_two_pow_sub_one_eq_mod b.toNat 6

/-- Two bytes assembled by shifting are a base-256 number. -/
theorem assemble_two (a b : Nat) (hb : b < 256) : (a <<< 8) ||| b = a * 2 ^ 8 + b := by
  rw [Nat.shiftLeft_eq]
  exact or_eq_add (i := 8) (by omega) (by omega)

theorem assemble_four (a b c d : Nat) (hb : b < 256) (hc : c < 256) (hd : d < 256) :
    (a <<< 24) ||| (b <<< 16) ||| (c <<< 8) ||| d =
      a * 2 ^ 24 + b * 2 ^ 16 + c * 2 ^ 8 + d := by
  simp only [Nat.shiftLeft_eq]
  rw [or_eq_add (i := 24) (a := a * 2 ^ 24) (by omega) (by omega),
    or_eq_add (i := 16) (b := c * 2 ^ 8) (by omega) (by omega),
    or_eq_add (i := 8) (b := d) (by omega) (by omega)]

theorem assemble_eight (a b c d e f g h : Nat) (hb : b < 256) (hc : c < 256) (hd : d < 256)
    (he : e < 256) (hf : f < 256) (hg : g < 256) (hh : h < 256) :
    (a <<< 56) ||| (b <<< 48) ||| (c <<< 40) ||| (d <<< 32) ||| (e <<< 24) ||| (f <<< 16) |||
        (g <<< 8) ||| h =
      a * 2 ^ 56 + b * 2 ^ 48 + c * 2 ^ 40 + d * 2 ^ 32 + e * 2 ^ 24 + f * 2 ^ 16 + g * 2 ^ 8 +
        h := by
  simp only [Nat.shiftLeft_eq]
  rw [or_eq_add (i := 56) (a := a * 2 ^ 56) (by omega) (by omega),
    or_eq_add (i := 48) (b := c * 2 ^ 40) (by omega) (by omega),
    or_eq_add (i := 40) (b := d * 2 ^ 32) (by omega) (by omega),
    or_eq_add (i := 32) (b := e * 2 ^ 24) (by omega) (by omega),
    or_eq_add (i := 24) (b := f * 2 ^ 16) (by omega) (by omega),
    or_eq_add (i := 16) (b := g * 2 ^ 8) (by omega) (by omega),
    or_eq_add (i := 8) (b := h) (by omega) (by omega)]

/-! ## The four widths of an encoding -/

theorem encode_one {x : Nat} (h : x < 2 ^ 6) : encode ⟨x⟩ = some [UInt8.ofNat x] ∧ size ⟨x⟩ = some 1 := by
  have h1 : x ≤ max1Byte := by simp only [max1Byte]; omega
  simp only [encode, size, if_pos h1, and_self]

theorem encode_two {x : Nat} (hl : 2 ^ 6 ≤ x) (h : x < 2 ^ 14) :
    encode ⟨x⟩ = some (bigEndian 2 (0b01 * 2 ^ 14 + x)) ∧ size ⟨x⟩ = some 2 := by
  have h1 : ¬ x ≤ max1Byte := by simp only [max1Byte]; omega
  have h2 : x ≤ max2Byte := by simp only [max2Byte]; omega
  have hn : (0b01 <<< 14) ||| x % 2 ^ 16 = 0b01 * 2 ^ 14 + x := by
    rw [Nat.mod_eq_of_lt (by omega), Nat.shiftLeft_eq]
    exact or_eq_add (i := 14) (by omega) h
  simp only [encode, size, if_neg h1, if_pos h2, hn, and_self]

theorem encode_four {x : Nat} (hl : 2 ^ 14 ≤ x) (h : x < 2 ^ 30) :
    encode ⟨x⟩ = some (bigEndian 4 (0b10 * 2 ^ 30 + x)) ∧ size ⟨x⟩ = some 4 := by
  have h1 : ¬ x ≤ max1Byte := by simp only [max1Byte]; omega
  have h2 : ¬ x ≤ max2Byte := by simp only [max2Byte]; omega
  have h3 : x ≤ max4Byte := by simp only [max4Byte]; omega
  have hn : (0b10 <<< 30) ||| x % 2 ^ 32 = 0b10 * 2 ^ 30 + x := by
    rw [Nat.mod_eq_of_lt (by omega), Nat.shiftLeft_eq]
    exact or_eq_add (i := 30) (by omega) h
  simp only [encode, size, if_neg h1, if_neg h2, if_pos h3, hn, and_self]

theorem encode_eight {x : Nat} (hl : 2 ^ 30 ≤ x) (h : x < 2 ^ 62) :
    encode ⟨x⟩ = some (bigEndian 8 (0b11 * 2 ^ 62 + x)) ∧ size ⟨x⟩ = some 8 := by
  have h1 : ¬ x ≤ max1Byte := by simp only [max1Byte]; omega
  have h2 : ¬ x ≤ max2Byte := by simp only [max2Byte]; omega
  have h3 : ¬ x ≤ max4Byte := by simp only [max4Byte]; omega
  have h4 : x ≤ max := by simp only [max]; omega
  have hn : (0b11 <<< 62) ||| x = 0b11 * 2 ^ 62 + x := by
    rw [Nat.shiftLeft_eq]
    exact or_eq_add (i := 62) (by omega) h
  simp only [encode, size, if_neg h1, if_neg h2, if_neg h3, if_pos h4, hn, and_self]

/-- Every value below `2 ^ 62` falls in exactly one width. -/
theorem width_cases {x : Nat} (h : x < 2 ^ 62) :
    x < 2 ^ 6 ∨ (2 ^ 6 ≤ x ∧ x < 2 ^ 14) ∨ (2 ^ 14 ≤ x ∧ x < 2 ^ 30) ∨ (2 ^ 30 ≤ x ∧ x < 2 ^ 62) := by
  omega

/-! ## Round trip -/

theorem byte_toNat (n : Nat) : (UInt8.ofNat n).toNat = n % 256 := UInt8.toNat_ofNat' ..

/-- The quotients of a number by the powers of 256 differ by a digit. -/
theorem digit_step (n k : Nat) : n / 256 ^ k = n / 256 ^ (k + 1) * 256 + n / 256 ^ k % 256 := by
  rw [Nat.pow_succ, ← Nat.div_div_eq_div_mul]
  exact (Nat.div_add_mod' _ _).symm

/-- Decoding the bytes of a `k`-byte big-endian number that starts with the tag of its width. -/
theorem reads_bigEndian_two {x : Nat} (h : x < 2 ^ 14) :
    Reads decode (bigEndian 2 (0b01 * 2 ^ 14 + x)) ⟨x⟩ := by
  intro r
  have ht : (UInt8.ofNat ((0b01 * 2 ^ 14 + x) / 256 ^ 1)).toNat >>> 6 = 0b01 := by
    rw [shiftRight_six, byte_toNat]; omega
  unfold decode
  simp only [bigEndian, List.cons_append, List.nil_append, ht, and_body]
  rw [assemble_two _ _ (UInt8.toNat_lt _)]
  simp only [byte_toNat]
  congr 3
  omega

theorem reads_bigEndian_four {x : Nat} (h : x < 2 ^ 30) :
    Reads decode (bigEndian 4 (0b10 * 2 ^ 30 + x)) ⟨x⟩ := by
  intro r
  have ht : (UInt8.ofNat ((0b10 * 2 ^ 30 + x) / 256 ^ 3)).toNat >>> 6 = 0b10 := by
    rw [shiftRight_six, byte_toNat]; omega
  unfold decode
  simp only [bigEndian, List.cons_append, List.nil_append, ht, and_body]
  rw [assemble_four _ _ _ _ (UInt8.toNat_lt _) (UInt8.toNat_lt _) (UInt8.toNat_lt _)]
  simp only [byte_toNat]
  congr 3
  omega

theorem reads_bigEndian_eight {x : Nat} (h : x < 2 ^ 62) :
    Reads decode (bigEndian 8 (0b11 * 2 ^ 62 + x)) ⟨x⟩ := by
  intro r
  have ht : (UInt8.ofNat ((0b11 * 2 ^ 62 + x) / 256 ^ 7)).toNat >>> 6 = 0b11 := by
    rw [shiftRight_six, byte_toNat]; omega
  unfold decode
  simp only [bigEndian, List.cons_append, List.nil_append, ht, and_body]
  rw [assemble_eight _ _ _ _ _ _ _ _ (UInt8.toNat_lt _) (UInt8.toNat_lt _) (UInt8.toNat_lt _)
    (UInt8.toNat_lt _) (UInt8.toNat_lt _) (UInt8.toNat_lt _) (UInt8.toNat_lt _)]
  simp only [byte_toNat]
  congr 3
  -- the number is put together again digit by digit, from below its tag
  have htop : (0b11 * 2 ^ 62 + x) / 256 ^ 7 % 256 % 64 + 192 = (0b11 * 2 ^ 62 + x) / 256 ^ 7 := by
    omega
  have hnum : (0b11 * 2 ^ 62 + x) / 256 ^ 0 = 0b11 * 2 ^ 62 + x := Nat.div_one _
  have hdigit := fun k => digit_step (0b11 * 2 ^ 62 + x) k
  have h0 := hdigit 0
  have h1 := hdigit 1
  have h2 := hdigit 2
  have h3 := hdigit 3
  have h4 := hdigit 4
  have h5 := hdigit 5
  have h6 := hdigit 6
  generalize (0b11 * 2 ^ 62 + x) / 256 ^ 7 % 256 % 64 = top at htop ⊢
  omega

/-- **The round trip of a varint.** Below `2 ^ 62` the encoder and `size` are defined, they agree,
and decoding reads the encoding back. -/
theorem exists_encode {x : Nat} (h : x < 2 ^ 62) :
    ∃ bs, encode ⟨x⟩ = some bs ∧ size ⟨x⟩ = some bs.length ∧ bs ≠ [] ∧ Reads decode bs ⟨x⟩ := by
  rcases width_cases h with h1 | ⟨hl, h2⟩ | ⟨hl, h3⟩ | ⟨hl, h4⟩
  · obtain ⟨he, hs⟩ := encode_one h1
    refine ⟨_, he, hs, by simp, fun r => ?_⟩
    have hx : (UInt8.ofNat x).toNat = x := by rw [byte_toNat]; omega
    have ht : (UInt8.ofNat x).toNat >>> 6 = 0b00 := by rw [shiftRight_six, hx]; omega
    unfold decode
    simp only [List.cons_append, List.nil_append, ht, and_body]
    rw [hx, Nat.mod_eq_of_lt (by omega)]
  · obtain ⟨he, hs⟩ := encode_two hl h2
    exact ⟨_, he, by rw [hs, length_bigEndian], by simp [bigEndian], reads_bigEndian_two h2⟩
  · obtain ⟨he, hs⟩ := encode_four hl h3
    exact ⟨_, he, by rw [hs, length_bigEndian], by simp [bigEndian], reads_bigEndian_four h3⟩
  · obtain ⟨he, hs⟩ := encode_eight hl h4
    exact ⟨_, he, by rw [hs, length_bigEndian], by simp [bigEndian], reads_bigEndian_eight h4⟩

/-- A successful decode yields a value below `2 ^ 62` and consumes at least one byte. -/
theorem decode_ok {b r : List UInt8} {v : VarInt} (h : decode b = .ok (v, r)) :
    v.intoInner < 2 ^ 62 ∧ r.length < b.length := by
  cases b with
  | nil => cases h
  | cons first b =>
      have hf := first.toNat_lt
      unfold decode at h
      simp only [and_body] at h
      -- one case per tag; in each the assembled value is a sum of bounded digits
      split at h
      · simp only [Except.ok.injEq, Prod.mk.injEq] at h
        obtain ⟨rfl, rfl⟩ := h
        simp
        omega
      · split at h
        · rename_i b0 r'
          simp only [Except.ok.injEq, Prod.mk.injEq] at h
          obtain ⟨rfl, rfl⟩ := h
          have h0 := b0.toNat_lt
          rw [assemble_two _ _ h0]
          simp
          omega
        · cases h
      · split at h
        · rename_i b0 b1 b2 r'
          simp only [Except.ok.injEq, Prod.mk.injEq] at h
          obtain ⟨rfl, rfl⟩ := h
          have h0 := b0.toNat_lt
          have h1 := b1.toNat_lt
          have h2 := b2.toNat_lt
          rw [assemble_four _ _ _ _ h0 h1 h2]
          simp
          omega
        · cases h
      · split at h
        · rename_i b0 b1 b2 b3 b4 b5 b6 r'
          simp only [Except.ok.injEq, Prod.mk.injEq] at h
          obtain ⟨rfl, rfl⟩ := h
          have h0 := b0.toNat_lt
          have h1 := b1.toNat_lt
          have h2 := b2.toNat_lt
          have h3 := b3.toNat_lt
          have h4 := b4.toNat_lt
          have h5 := b5.toNat_lt
          have h6 := b6.toNat_lt
          rw [assemble_eight _ _ _ _ _ _ _ _ h0 h1 h2 h3 h4 h5 h6]
          simp
          omega
        · cases h

end VarInt

end WebsockMux.Proto
