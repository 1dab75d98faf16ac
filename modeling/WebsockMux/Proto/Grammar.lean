import Mathlib.Data.List.Basic
import WebsockMux.Proto.Decoded

/-!
# The grammar of frames

The layouts of the seven frames (the table of `docs/mux-protocol.md`), with any QUIC encoding of
each integer, minimal or not. `Frame::decode` accepts exactly the byte strings that start with such
a layout, it rejects every proper prefix of one as truncated, and encoding a decoded frame again
gives its shortest layout (`decode_accepts_grammar`).
-/

set_option autoImplicit false

namespace WebsockMux.Proto

open WebsockMux.Lib

/-! ## Integers -/

/-- The bytes of `bs` behind the digits of `n`, in base 256. -/
def bigEndianValue (n : Nat) (bs : List UInt8) : Nat := bs.foldl (fun n b => n * 256 + b.toNat) n

/-- **A QUIC encoding of an integer**, minimal or not. The two top bits of the first byte are the
binary logarithm of the length; the other bits are the number, most significant first. -/
def VarInt.Encodes (x : Nat) : List UInt8 → Prop
  | [] => False
  | first :: rest => rest.length + 1 = 2 ^ (first.toNat / 64) ∧
      x = bigEndianValue (first.toNat % 64) rest

namespace VarInt

/-- The bytes of a value with few digits. -/
theorem bigEndianValue_lt {n k : Nat} {bs : List UInt8} (h : n < 2 ^ k) :
    bigEndianValue n bs < 2 ^ (k + 8 * bs.length) := by
  induction bs generalizing n k with
  | nil => exact h
  | cons b bs ih =>
      have hb := b.toNat_lt
      have hn : n * 256 + b.toNat < 2 ^ (k + 8) := by
        rw [Nat.pow_add]
        omega
      have h := ih hn
      rw [List.length_cons, Nat.mul_succ, Nat.add_comm (8 * bs.length), ← Nat.add_assoc]
      exact h

theorem length_eq_seven {xs : List UInt8} (h : xs.length = 7) :
    ∃ b0 b1 b2 b3 b4 b5 b6, xs = [b0, b1, b2, b3, b4, b5, b6] := by
  obtain ⟨b0, ys, rfl⟩ := List.exists_cons_of_length_eq_add_one h
  obtain ⟨b1, zs, rfl⟩ := List.exists_cons_of_length_eq_add_one (Nat.succ.inj h)
  have hz : zs.length = 2 + 3 := by
    simp only [List.length_cons] at h
    omega
  have htake : (zs.take 2).length = 2 := by rw [List.length_take]; omega
  have hdrop : (zs.drop 2).length = 3 := by rw [List.length_drop]; omega
  obtain ⟨b2, b3, h₁⟩ := List.length_eq_two.1 htake
  obtain ⟨b4, b5, b6, h₂⟩ := List.length_eq_three.1 hdrop
  refine ⟨b0, b1, b2, b3, b4, b5, b6, ?_⟩
  rw [← List.take_append_drop 2 zs, h₁, h₂]
  rfl

/-- Decoding by the two top bits of the first byte. -/
theorem decode_cons {first : UInt8} {rest r : List UInt8}
    (hlen : rest.length + 1 = 2 ^ (first.toNat / 64)) :
    decode (first :: (rest ++ r)) = .ok (⟨bigEndianValue (first.toNat % 64) rest⟩, r) := by
  have hf := first.toNat_lt
  have htag : first.toNat / 64 = 0 ∨ first.toNat / 64 = 1 ∨ first.toNat / 64 = 2 ∨
      first.toNat / 64 = 3 := by omega
  simp only [decode, and_body, shiftRight_six]
  rcases htag with h | h | h | h <;> rw [h] at hlen ⊢
  · obtain rfl : rest = [] := by
      apply List.eq_nil_of_length_eq_zero
      omega
    rfl
  · obtain ⟨b0, rfl⟩ := List.length_eq_one_iff.1 (Nat.succ.inj hlen)
    simp only [List.cons_append, List.nil_append, bigEndianValue, List.foldl]
    rw [assemble_two _ _ b0.toNat_lt]
    rfl
  · obtain ⟨b0, b1, b2, rfl⟩ := List.length_eq_three.1 (Nat.succ.inj hlen)
    simp only [List.cons_append, List.nil_append, bigEndianValue, List.foldl]
    rw [assemble_four _ _ _ _ b0.toNat_lt b1.toNat_lt b2.toNat_lt]
    refine congrArg (fun n => Except.ok (VarInt.mk n, r)) ?_
    omega
  · obtain ⟨b0, b1, b2, b3, b4, b5, b6, rfl⟩ := length_eq_seven (Nat.succ.inj hlen)
    simp only [List.cons_append, List.nil_append, bigEndianValue, List.foldl]
    rw [assemble_eight _ _ _ _ _ _ _ _ b0.toNat_lt b1.toNat_lt b2.toNat_lt b3.toNat_lt
      b4.toNat_lt b5.toNat_lt b6.toNat_lt]
    refine congrArg (fun n => Except.ok (VarInt.mk n, r)) ?_
    omega

/-- Decoding a buffer that ends too early. -/
theorem decode_cut {first : UInt8} {rest : List UInt8}
    (hlen : rest.length + 1 < 2 ^ (first.toNat / 64)) : decode (first :: rest) = .error .mk := by
  have hf := first.toNat_lt
  have htag : first.toNat / 64 = 0 ∨ first.toNat / 64 = 1 ∨ first.toNat / 64 = 2 ∨
      first.toNat / 64 = 3 := by omega
  simp only [decode, shiftRight_six]
  rcases htag with h | h | h | h <;> rw [h] at hlen ⊢
  · omega
  · have hnil : rest = [] := List.eq_nil_of_length_eq_zero (by omega)
    rw [hnil]
    rfl
  · -- at most two bytes, where three are needed
    rcases rest with _ | ⟨b0, _ | ⟨b1, _ | ⟨b2, rest⟩⟩⟩
    iterate 3 rfl
    simp only [List.length_cons] at hlen
    omega
  · -- at most six bytes, where seven are needed
    rcases rest with _ | ⟨b0, _ | ⟨b1, _ | ⟨b2, _ | ⟨b3, _ | ⟨b4, _ | ⟨b5, _ | ⟨b6, rest⟩⟩⟩⟩⟩⟩⟩
    iterate 7 rfl
    simp only [List.length_cons] at hlen
    omega

/-- **Decoding reads an encoding completely.** -/
theorem Encodes.readsWhole {x : Nat} {bs : List UInt8} (h : Encodes x bs) :
    ReadsWhole .mk decode bs ⟨x⟩ := by
  cases bs with
  | nil => exact h.elim
  | cons first rest =>
      obtain ⟨hlen, rfl⟩ := h
      constructor
      · intro r
        exact decode_cons hlen
      · intro p hp hne
        cases p with
        | nil => rfl
        | cons b q =>
            obtain ⟨rfl, hq⟩ := List.cons_prefix_cons.1 hp
            have hlt : q.length < rest.length := by
              refine lt_of_le_of_ne hq.length_le fun heq => hne ?_
              rw [hq.eq_of_length heq]
            exact decode_cut (by omega)

/-- **What decoding reads is an encoding.** -/
theorem encodes_of_decode {b r : List UInt8} {v : VarInt} (h : decode b = .ok (v, r)) :
    ∃ bs, Encodes v.intoInner bs ∧ b = bs ++ r := by
  cases b with
  | nil => cases h
  | cons first rest =>
      by_cases hshort : rest.length + 1 < 2 ^ (first.toNat / 64)
      · rw [decode_cut hshort] at h
        cases h
      · -- the bytes that belong to the integer
        have hlen : (rest.take (2 ^ (first.toNat / 64) - 1)).length + 1 =
            2 ^ (first.toNat / 64) := by
          have := Nat.two_pow_pos (first.toNat / 64)
          rw [List.length_take]
          omega
        have hsplit := List.take_append_drop (2 ^ (first.toNat / 64) - 1) rest
        have hd := decode_cons (r := rest.drop (2 ^ (first.toNat / 64) - 1)) hlen
        rw [hsplit, h] at hd
        cases hd
        exact ⟨first :: rest.take (2 ^ (first.toNat / 64) - 1), ⟨hlen, rfl⟩,
          congrArg (first :: ·) hsplit.symm⟩

theorem Encodes.length_pos {x : Nat} {bs : List UInt8} (h : Encodes x bs) : 0 < bs.length := by
  cases bs with
  | nil => exact h.elim
  | cons first rest => exact Nat.succ_pos _

/-- The canonical encoding is the shortest one. -/
theorem Encodes.size_le {x : Nat} {bs : List UInt8} (h : Encodes x bs) :
    ∃ n, size ⟨x⟩ = some n ∧ n ≤ bs.length := by
  cases bs with
  | nil => exact h.elim
  | cons first rest =>
      obtain ⟨hlen, rfl⟩ := h
      have hf := first.toNat_lt
      have hlt : bigEndianValue (first.toNat % 64) rest < 2 ^ (6 + 8 * rest.length) :=
        bigEndianValue_lt (by omega)
      have htag : first.toNat / 64 = 0 ∨ first.toNat / 64 = 1 ∨ first.toNat / 64 = 2 ∨
          first.toNat / 64 = 3 := by omega
      rw [List.length_cons]
      generalize bigEndianValue (first.toNat % 64) rest = x at hlt
      -- a longer encoding has room for the shorter widths too
      rcases htag with h | h | h | h <;> rw [h] at hlen
      · have hl : rest.length = 0 := by omega
        rw [hl] at hlt
        exact ⟨1, (encode_one hlt).2, by omega⟩
      · have hl : rest.length = 1 := by omega
        rw [hl] at hlt
        rcases Nat.lt_or_ge x (2 ^ 6) with h1 | h1
        · exact ⟨1, (encode_one h1).2, by omega⟩
        · exact ⟨2, (encode_two h1 hlt).2, by omega⟩
      · have hl : rest.length = 3 := by omega
        rw [hl] at hlt
        rcases Nat.lt_or_ge x (2 ^ 6) with h1 | h1
        · exact ⟨1, (encode_one h1).2, by omega⟩
        rcases Nat.lt_or_ge x (2 ^ 14) with h2 | h2
        · exact ⟨2, (encode_two h1 h2).2, by omega⟩
        · exact ⟨4, (encode_four h2 hlt).2, by omega⟩
      · have hl : rest.length = 7 := by omega
        rw [hl] at hlt
        rcases width_cases hlt with h1 | ⟨h1, h2⟩ | ⟨h2, h3⟩ | ⟨h3, h4⟩
        · exact ⟨1, (encode_one h1).2, by omega⟩
        · exact ⟨2, (encode_two h1 h2).2, by omega⟩
        · exact ⟨4, (encode_four h2 h3).2, by omega⟩
        · exact ⟨8, (encode_eight h3 h4).2, by omega⟩

end VarInt

/-! ## Frames -/

namespace Frame

/-- **The layouts of the frames**: a tag and the fields of the table, every integer in any encoding. -/
inductive Layout : Frame → List UInt8 → Prop where
  | openUni {id : Nat} {t i : List UInt8} (ht : VarInt.Encodes 0 t) (hi : VarInt.Encodes id i) :
      Layout (.openUni ⟨id⟩) (t ++ i)
  | openBi {id : Nat} {t i : List UInt8} (ht : VarInt.Encodes 1 t) (hi : VarInt.Encodes id i) :
      Layout (.openBi ⟨id⟩) (t ++ i)
  | stream {id : Nat} {fin : Bool} {data t i f l : List UInt8} (ht : VarInt.Encodes 2 t)
      (hi : VarInt.Encodes id i) (hf : VarInt.Encodes fin.toNat f)
      (hl : VarInt.Encodes data.length l) :
      Layout (.stream ⟨id⟩ data fin) (t ++ (i ++ (f ++ (l ++ data))))
  | resetStream {id code : Nat} {t i c : List UInt8} (ht : VarInt.Encodes 3 t)
      (hi : VarInt.Encodes id i) (hc : VarInt.Encodes code c) :
      Layout (.resetStream ⟨id⟩ code) (t ++ (i ++ c))
  | stopSending {id code : Nat} {t i c : List UInt8} (ht : VarInt.Encodes 4 t)
      (hi : VarInt.Encodes id i) (hc : VarInt.Encodes code c) :
      Layout (.stopSending ⟨id⟩ code) (t ++ (i ++ c))
  | connectionClose {code : Nat} {reason : String} {t c l data : List UInt8}
      (ht : VarInt.Encodes 5 t) (hc : VarInt.Encodes code c) (hl : VarInt.Encodes data.length l)
      (hu : fromUtf8 data = some reason) :
      Layout (.connectionClose code reason) (t ++ (c ++ (l ++ data)))
  | maxStreamData {id max : Nat} {t i m : List UInt8} (ht : VarInt.Encodes 6 t)
      (hi : VarInt.Encodes id i) (hm : VarInt.Encodes max m) :
      Layout (.maxStreamData ⟨id⟩ max) (t ++ (i ++ m))

/-! ### What is laid out is read -/

theorem readsWhole_varint {x : Nat} {bs : List UInt8} (h : VarInt.Encodes x bs) :
    ReadsWhole .unexpectedEnd varint bs x where
  reads := (h.readsWhole.reads.mapError _).map (Reads.pure x)
  cut := by
    intro p hp hne
    refine bind_of_error _ ?_
    unfold Decoder.mapError
    rw [h.readsWhole.cut p hp hne]

theorem readsWhole_copyToBytes (data : List UInt8) :
    ReadsWhole .unexpectedEnd (copyToBytes data.length) data data where
  reads := reads_copyToBytes data
  cut := by
    intro p hp hne
    have hlt : p.length < data.length := by
      refine lt_of_le_of_ne hp.length_le fun heq => hne ?_
      exact hp.eq_of_length heq
    show (if p.length < data.length then _ else _ : Decoder _ _) p = _
    rw [if_pos hlt]
    rfl

/-- A length that fits in a varint survives the cast to a 64-bit `usize`. -/
theorem readsWhole_payload {data l : List UInt8} (h : VarInt.Encodes data.length l) :
    ReadsWhole .unexpectedEnd (copyToBytes (data.length % 2 ^ 64)) data data := by
  have hlt : data.length < 2 ^ 62 := (varint_ok ((readsWhole_varint h).reads [])).1
  rw [Nat.mod_eq_of_lt (by omega)]
  exact readsWhole_copyToBytes data

theorem reads_utf8_of {data : List UInt8} {reason : String} (h : fromUtf8 data = some reason) :
    Reads (utf8 data) [] reason := by
  unfold utf8
  rw [h]
  exact Reads.pure reason

/-- The frame is built from the fields that were read. -/
theorem readsWhole_pure (f : Frame) :
    ReadsWhole .unexpectedEnd (pure f : Decoder FrameDecodeError Frame) [] f := .nil (Reads.pure f)

/-- **A layout is read completely.** -/
theorem Layout.readsWhole {f : Frame} {bs : List UInt8} (h : Layout f bs) :
    ReadsWhole .unexpectedEnd (decode 64) bs f := by
  -- the fields are read in wire order; the last steps read nothing
  cases h with
  | @openUni id t i ht hi =>
      have h : ReadsWhole .unexpectedEnd (decode 64) (t ++ (i ++ [])) (.openUni ⟨id⟩) :=
        (readsWhole_varint ht).bind ((readsWhole_varint hi).bind (readsWhole_pure _))
      rwa [List.append_nil] at h
  | @openBi id t i ht hi =>
      have h : ReadsWhole .unexpectedEnd (decode 64) (t ++ (i ++ [])) (.openBi ⟨id⟩) :=
        (readsWhole_varint ht).bind ((readsWhole_varint hi).bind (readsWhole_pure _))
      rwa [List.append_nil] at h
  | @stream id fin data t i f l ht hi hf hl =>
      have h : ReadsWhole .unexpectedEnd (decode 64)
          (t ++ (i ++ (f ++ ([] ++ (l ++ (data ++ [])))))) (.stream ⟨id⟩ data fin) :=
        (readsWhole_varint ht).bind ((readsWhole_varint hi).bind ((readsWhole_varint hf).bind
          ((ReadsWhole.nil (reads_finBit fin)).bind ((readsWhole_varint hl).bind
            ((readsWhole_payload hl).bind (readsWhole_pure _))))))
      rwa [List.nil_append, List.append_nil] at h
  | @resetStream id code t i c ht hi hc =>
      have h : ReadsWhole .unexpectedEnd (decode 64) (t ++ (i ++ (c ++ [])))
          (.resetStream ⟨id⟩ code) :=
        (readsWhole_varint ht).bind ((readsWhole_varint hi).bind ((readsWhole_varint hc).bind
          (readsWhole_pure _)))
      rwa [List.append_nil] at h
  | @stopSending id code t i c ht hi hc =>
      have h : ReadsWhole .unexpectedEnd (decode 64) (t ++ (i ++ (c ++ [])))
          (.stopSending ⟨id⟩ code) :=
        (readsWhole_varint ht).bind ((readsWhole_varint hi).bind ((readsWhole_varint hc).bind
          (readsWhole_pure _)))
      rwa [List.append_nil] at h
  | @connectionClose code reason t c l data ht hc hl hu =>
      have h : ReadsWhole .unexpectedEnd (decode 64)
          (t ++ (c ++ (l ++ (data ++ ([] ++ []))))) (.connectionClose code reason) :=
        (readsWhole_varint ht).bind ((readsWhole_varint hc).bind ((readsWhole_varint hl).bind
          ((readsWhole_payload hl).bind ((ReadsWhole.nil (reads_utf8_of hu)).bind
            (readsWhole_pure _)))))
      rwa [List.append_nil, List.append_nil] at h
  | @maxStreamData id max t i m ht hi hm =>
      have h : ReadsWhole .unexpectedEnd (decode 64) (t ++ (i ++ (m ++ [])))
          (.maxStreamData ⟨id⟩ max) :=
        (readsWhole_varint ht).bind ((readsWhole_varint hi).bind ((readsWhole_varint hm).bind
          (readsWhole_pure _)))
      rwa [List.append_nil] at h

/-! ### What is read is laid out -/

theorem encodes_of_varint {b r : List UInt8} {x : Nat} (h : varint b = .ok (x, r)) :
    ∃ bs, VarInt.Encodes x bs ∧ b = bs ++ r := by
  obtain ⟨v, r', hv, hp⟩ := bind_ok h
  cases hp
  unfold Decoder.mapError at hv
  cases hd : VarInt.decode b with
  | error e =>
      rw [hd] at hv
      cases hv
  | ok v =>
      rw [hd] at hv
      cases hv
      exact VarInt.encodes_of_decode hd

/-- The bytes that are copied are those that follow, as many as the length says. -/
theorem copyToBytes_eq {len : Nat} {b data r : List UInt8} (hlen : len < 2 ^ 62)
    (h : copyToBytes (len % 2 ^ 64) b = .ok (data, r)) : b = data ++ r ∧ data.length = len := by
  have hl := copyToBytes_ok h
  rw [Nat.mod_eq_of_lt (by omega)] at h hl
  have h' : (if b.length < len then Decoder.fail .unexpectedEnd else Decoder.take len :
      Decoder FrameDecodeError (List UInt8)) b = .ok (data, r) := h
  split_ifs at h' with hlt
  · cases h'
  · cases h'
    exact ⟨(List.take_append_drop len b).symm, hl⟩

/-- A sequence that starts with an integer. -/
theorem bind_varint {α : Type} {k : Nat → Decoder FrameDecodeError α} {b : List UInt8}
    {y : α × List UInt8} (h : (varint >>= k) b = .ok y) :
    ∃ x bs r, VarInt.Encodes x bs ∧ x < 2 ^ 62 ∧ b = bs ++ r ∧ k x r = .ok y := by
  obtain ⟨x, r, hx, hk⟩ := bind_ok h
  obtain ⟨bs, hbs, hb⟩ := encodes_of_varint hx
  exact ⟨x, bs, r, hbs, (varint_ok hx).1, hb, hk⟩

/-- **What is decoded is a layout**, followed by the rest. -/
theorem layout_of_decode {b rest : List UInt8} {f : Frame} (hd : decode 64 b = .ok (f, rest)) :
    ∃ bs, Layout f bs ∧ b = bs ++ rest := by
  obtain ⟨tag, t, r0, ht, -, rfl, h⟩ := bind_varint hd
  clear hd
  -- one case for each tag of the table
  split at h
  · obtain ⟨id, i, r1, hi, -, rfl, k1⟩ := bind_varint h
    cases k1
    exact ⟨_, .openUni ht hi, (List.append_assoc ..).symm⟩
  · obtain ⟨id, i, r1, hi, -, rfl, k1⟩ := bind_varint h
    cases k1
    exact ⟨_, .openBi ht hi, (List.append_assoc ..).symm⟩
  · obtain ⟨id, i, r1, hi, -, rfl, k1⟩ := bind_varint h
    obtain ⟨x, bf, r2, hf, -, rfl, k2⟩ := bind_varint k1
    obtain ⟨fin, r3, h3, k3⟩ := bind_ok k2
    obtain rfl := finBit_ok h3
    obtain rfl := finBit_value h3
    obtain ⟨len, l, r4, hl, hlen, rfl, k4⟩ := bind_varint k3
    obtain ⟨data, r5, h5, k5⟩ := bind_ok k4
    obtain ⟨rfl, rfl⟩ := copyToBytes_eq hlen h5
    cases k5
    exact ⟨_, .stream ht hi hf hl, by simp only [List.append_assoc]⟩
  · obtain ⟨id, i, r1, hi, -, rfl, k1⟩ := bind_varint h
    obtain ⟨code, c, r2, hc, -, rfl, k2⟩ := bind_varint k1
    cases k2
    exact ⟨_, .resetStream ht hi hc, by simp only [List.append_assoc]⟩
  · obtain ⟨id, i, r1, hi, -, rfl, k1⟩ := bind_varint h
    obtain ⟨code, c, r2, hc, -, rfl, k2⟩ := bind_varint k1
    cases k2
    exact ⟨_, .stopSending ht hi hc, by simp only [List.append_assoc]⟩
  · obtain ⟨code, c, r1, hc, -, rfl, k1⟩ := bind_varint h
    obtain ⟨len, l, r2, hl, hlen, rfl, k2⟩ := bind_varint k1
    obtain ⟨data, r3, h3, k3⟩ := bind_ok k2
    obtain ⟨rfl, rfl⟩ := copyToBytes_eq hlen h3
    obtain ⟨reason, r4, h4, k4⟩ := bind_ok k3
    obtain ⟨hu, rfl⟩ := utf8_eq h4
    cases k4
    exact ⟨_, .connectionClose ht hc hl hu, by simp only [List.append_assoc]⟩
  · obtain ⟨id, i, r1, hi, -, rfl, k1⟩ := bind_varint h
    obtain ⟨max, m, r2, hm, -, rfl, k2⟩ := bind_varint k1
    cases k2
    exact ⟨_, .maxStreamData ht hi hm, by simp only [List.append_assoc]⟩
  · cases h

/-! ### Lengths -/

theorem Layout.encodedLen_le {f : Frame} {bs : List UInt8} (h : Layout f bs) :
    ∃ n, f.encodedLen = some n ∧ n ≤ bs.length := by
  cases h with
  | openUni ht hi =>
      have h0 := ht.length_pos
      obtain ⟨n, hn, hle⟩ := hi.size_le
      exact ⟨1 + n, by simp [encodedLen, hn], by simp; omega⟩
  | openBi ht hi =>
      have h0 := ht.length_pos
      obtain ⟨n, hn, hle⟩ := hi.size_le
      exact ⟨1 + n, by simp [encodedLen, hn], by simp; omega⟩
  | stream ht hi hf hl =>
      have h0 := ht.length_pos
      obtain ⟨ni, hni, hi⟩ := hi.size_le
      obtain ⟨nf, hnf, hf⟩ := hf.size_le
      obtain ⟨nl, hnl, hl⟩ := hl.size_le
      exact ⟨_, by simp [encodedLen, hni, hnf, hnl]; rfl, by simp; omega⟩
  | resetStream ht hi hc =>
      have h0 := ht.length_pos
      obtain ⟨ni, hni, hi⟩ := hi.size_le
      obtain ⟨nc, hnc, hc⟩ := hc.size_le
      exact ⟨1 + ni + nc, by simp [encodedLen, hni, hnc], by simp; omega⟩
  | stopSending ht hi hc =>
      have h0 := ht.length_pos
      obtain ⟨ni, hni, hi⟩ := hi.size_le
      obtain ⟨nc, hnc, hc⟩ := hc.size_le
      exact ⟨1 + ni + nc, by simp [encodedLen, hni, hnc], by simp; omega⟩
  | connectionClose ht hc hl hu =>
      have h0 := ht.length_pos
      obtain ⟨nc, hnc, hc⟩ := hc.size_le
      obtain ⟨nl, hnl, hl⟩ := hl.size_le
      have hdata := asBytes_of_fromUtf8 hu
      exact ⟨_, by simp [encodedLen, hnc, hdata, hnl]; rfl, by simp; omega⟩
  | maxStreamData ht hi hm =>
      have h0 := ht.length_pos
      obtain ⟨ni, hni, hi⟩ := hi.size_le
      obtain ⟨nm, hnm, hm⟩ := hm.size_le
      exact ⟨1 + ni + nm, by simp [encodedLen, hni, hnm], by simp; omega⟩

/-- Two integers take two bytes. -/
theorem Layout.two_le {f : Frame} {bs : List UInt8} (h : Layout f bs) : 2 ≤ bs.length := by
  have hpos : ∀ {x y : Nat} {t u w : List UInt8}, VarInt.Encodes x t → VarInt.Encodes y u →
      2 ≤ (t ++ (u ++ w)).length := by
    intro x y t u w ht hu
    have := ht.length_pos
    have := hu.length_pos
    simp only [List.length_append]
    omega
  have hpos' : ∀ {x y : Nat} {t u : List UInt8}, VarInt.Encodes x t → VarInt.Encodes y u →
      2 ≤ (t ++ u).length := by
    intro x y t u ht hu
    have h := hpos (w := []) ht hu
    rwa [List.append_nil] at h
  cases h with
  | openUni ht hi => exact hpos' ht hi
  | openBi ht hi => exact hpos' ht hi
  | stream ht hi hf hl => exact hpos ht hi
  | resetStream ht hi hc => exact hpos ht hi
  | stopSending ht hi hc => exact hpos ht hi
  | connectionClose ht hc hl hu => exact hpos ht hc
  | maxStreamData ht hi hm => exact hpos ht hi

/-- **The parser accepts exactly the grammar.** With a 64-bit `usize`: a byte string is decoded as a
frame and a rest if and only if it is a layout of the frame followed by the rest; a decoded frame
takes at least two bytes, so the decode loop of the inbound task ends on every message; every proper
prefix of the bytes of a frame is rejected with `UnexpectedEnd`; and a decoded frame is encoded
again in at most as many bytes, from which it is decoded back. -/
theorem decode_accepts_grammar :
    (∀ b f rest, decode 64 b = .ok (f, rest) ↔ ∃ bs, Layout f bs ∧ b = bs ++ rest) ∧
    (∀ b f rest, decode 64 b = .ok (f, rest) → rest.length + 2 ≤ b.length) ∧
    (∀ b, ∃ y, decodeAll 64 b.length b = some y) ∧
    (∀ bs f rest p, decode 64 (bs ++ rest) = .ok (f, rest) → p <+: bs → p ≠ bs →
      decode 64 p = .error .unexpectedEnd) ∧
    (∀ b f rest, decode 64 b = .ok (f, rest) →
      ∃ e, f.encode = some e ∧ e.length + rest.length ≤ b.length ∧ decode 64 e = .ok (f, [])) := by
  have htwo : ∀ b f rest, decode 64 b = .ok (f, rest) → rest.length + 2 ≤ b.length := by
    intro b f rest h
    obtain ⟨bs, hbs, rfl⟩ := layout_of_decode h
    have hle := hbs.two_le
    rw [List.length_append]
    omega
  refine ⟨?_, htwo, ?_, ?_, ?_⟩
  · intro b f rest
    constructor
    · exact layout_of_decode
    · rintro ⟨bs, hbs, rfl⟩
      exact hbs.readsWhole.reads rest
  · intro b
    refine exists_drain (fun b f rest h => ?_) b.length b (Nat.le_refl _)
    have := htwo b f rest h
    omega
  · intro bs f rest p h hp hne
    obtain ⟨cs, hcs, heq⟩ := layout_of_decode h
    obtain rfl : bs = cs := List.append_cancel_right heq
    exact hcs.readsWhole.cut p hp hne
  · intro b f rest h
    obtain ⟨bs, hbs, rfl⟩ := layout_of_decode h
    obtain ⟨e, he, hlen, -, hread⟩ := exists_encode (encodable_of_decode h)
    obtain ⟨n, hn, hle⟩ := hbs.encodedLen_le
    cases hlen.symm.trans hn
    have hback := hread []
    rw [List.append_nil] at hback
    refine ⟨e, he, ?_, hback⟩
    rw [List.length_append]
    omega

/-- A `MaxStreamData` frame with a two-byte tag, a four-byte identifier and an eight-byte limit: cut
behind the identifier it is truncated, and it is encoded again in three bytes. -/
theorem decode_accepts_grammar_long :
    decode 64 [0x40, 6, 0x80, 0, 0, 5, 0xC0, 0, 0, 0, 0, 0, 0, 9, 1] =
        .ok (.maxStreamData ⟨5⟩ 9, [1]) ∧
      decode 64 [0x40, 6, 0x80, 0, 0, 5] = .error .unexpectedEnd ∧
      ∃ e, (Frame.maxStreamData ⟨5⟩ 9).encode = some e ∧ e.length + 1 ≤ 15 ∧
        decode 64 e = .ok (.maxStreamData ⟨5⟩ 9, []) := by
  have h : decode 64 [0x40, 6, 0x80, 0, 0, 5, 0xC0, 0, 0, 0, 0, 0, 0, 9, 1] =
      .ok (.maxStreamData ⟨5⟩ 9, [1]) := by rfl
  refine ⟨h, ?_, decode_accepts_grammar.2.2.2.2 _ _ _ h⟩
  exact decode_accepts_grammar.2.2.2.1 [0x40, 6, 0x80, 0, 0, 5, 0xC0, 0, 0, 0, 0, 0, 0, 9] _ [1] _ h
    ⟨[0xC0, 0, 0, 0, 0, 0, 0, 9], rfl⟩ (by decide)

end Frame

end WebsockMux.Proto
