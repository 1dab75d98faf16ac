import WebsockMux.Proto.RoundTrip

/-!
# Decoded frames

What `Frame::decode` can return: every integer field of a decoded frame is below `2 ^ 62`, so a
decoded frame can be encoded again (`encodable_of_decode`).
-/

set_option autoImplicit false

namespace WebsockMux.Proto.Frame

open WebsockMux.Lib

/-- A varint read yields a value below `2 ^ 62` and shortens the input. -/
theorem varint_ok {b r : List UInt8} {x : Nat} (h : varint b = .ok (x, r)) :
    x < 2 ^ 62 ∧ r.length < b.length := by
  obtain ⟨v, r', hv, hp⟩ := bind_ok h
  cases hp
  unfold Decoder.mapError at hv
  cases hd : VarInt.decode b with
  | error e => rw [hd] at hv; cases hv
  | ok v =>
      rw [hd] at hv
      cases hv
      exact VarInt.decode_ok hd

/-- Checking the FIN value reads no byte. -/
theorem finBit_ok {x : Nat} {b r : List UInt8} {fin : Bool} (h : finBit x b = .ok (fin, r)) :
    r = b := by
  unfold finBit at h
  split at h
  · cases h; rfl
  · cases h; rfl
  · cases h

theorem finBit_value {x : Nat} {b r : List UInt8} {fin : Bool} (h : finBit x b = .ok (fin, r)) :
    fin.toNat = x := by
  unfold finBit at h
  split at h
  · cases h; rfl
  · cases h; rfl
  · cases h

/-- The copied bytes have the length that was asked for. -/
theorem copyToBytes_ok {len : Nat} {b data r : List UInt8}
    (h : copyToBytes len b = .ok (data, r)) : data.length = len := by
  have h' : (if b.length < len then Decoder.fail .unexpectedEnd else Decoder.take len :
      Decoder FrameDecodeError (List UInt8)) b = .ok (data, r) := h
  split_ifs at h' with hlt
  · cases h'
  · cases h'
    rw [List.length_take]
    omega

theorem asBytes_of_fromUtf8 {data : List UInt8} {reason : String}
    (h : fromUtf8 data = some reason) : asBytes reason = data := by
  unfold fromUtf8 String.fromUTF8? at h
  split_ifs at h
  cases h
  rfl

/-- The text of a close reason is that of the bytes. -/
theorem utf8_eq {data b r : List UInt8} {reason : String} (h : utf8 data b = .ok (reason, r)) :
    fromUtf8 data = some reason ∧ r = b := by
  unfold utf8 at h
  cases hu : fromUtf8 data with
  | none =>
      rw [hu] at h
      cases h
  | some s =>
      rw [hu] at h
      cases h
      exact ⟨rfl, rfl⟩

/-- The bytes of a decoded text are the bytes that were read. -/
theorem utf8_ok {data b r : List UInt8} {reason : String} (h : utf8 data b = .ok (reason, r)) :
    asBytes reason = data :=
  asBytes_of_fromUtf8 (utf8_eq h).1

/-- **A decoded frame can be encoded.** -/
theorem encodable_of_decode {usizeBits : Nat} {b rest : List UInt8} {f : Frame}
    (h : decode usizeBits b = .ok (f, rest)) : f.Encodable := by
  obtain ⟨tag, r0, h0, h⟩ := bind_ok h
  split at h
  · obtain ⟨id, r1, h1, h⟩ := bind_ok h
    cases h
    simp only [Encodable, varints, List.forall_mem_cons]
    exact ⟨by omega, (varint_ok h1).1, by simp⟩
  · obtain ⟨id, r1, h1, h⟩ := bind_ok h
    cases h
    simp only [Encodable, varints, List.forall_mem_cons]
    exact ⟨by omega, (varint_ok h1).1, by simp⟩
  · obtain ⟨id, r1, h1, h⟩ := bind_ok h
    obtain ⟨x, r2, h2, h⟩ := bind_ok h
    obtain ⟨fin, r3, h3, h⟩ := bind_ok h
    obtain ⟨len, r4, h4, h⟩ := bind_ok h
    obtain ⟨data, r5, h5, h⟩ := bind_ok h
    cases h
    have hfin : fin.toNat < 2 ^ 62 := finBit_value h3 ▸ (varint_ok h2).1
    have hlen : data.length < 2 ^ 62 :=
      copyToBytes_ok h5 ▸ (Nat.mod_le _ _).trans_lt (varint_ok h4).1
    simp only [Encodable, varints, List.forall_mem_cons]
    exact ⟨by omega, (varint_ok h1).1, hfin, hlen, by simp⟩
  · obtain ⟨id, r1, h1, h⟩ := bind_ok h
    obtain ⟨code, r2, h2, h⟩ := bind_ok h
    cases h
    simp only [Encodable, varints, List.forall_mem_cons]
    exact ⟨by omega, (varint_ok h1).1, (varint_ok h2).1, by simp⟩
  · obtain ⟨id, r1, h1, h⟩ := bind_ok h
    obtain ⟨code, r2, h2, h⟩ := bind_ok h
    cases h
    simp only [Encodable, varints, List.forall_mem_cons]
    exact ⟨by omega, (varint_ok h1).1, (varint_ok h2).1, by simp⟩
  · obtain ⟨code, r1, h1, h⟩ := bind_ok h
    obtain ⟨len, r2, h2, h⟩ := bind_ok h
    obtain ⟨data, r3, h3, h⟩ := bind_ok h
    obtain ⟨reason, r4, h4, h⟩ := bind_ok h
    cases h
    have hlen : (asBytes reason).length < 2 ^ 62 := by
      rw [utf8_ok h4, copyToBytes_ok h3]
      exact (Nat.mod_le _ _).trans_lt (varint_ok h2).1
    simp only [Encodable, varints, List.forall_mem_cons]
    exact ⟨by omega, (varint_ok h1).1, hlen, by simp⟩
  · obtain ⟨id, r1, h1, h⟩ := bind_ok h
    obtain ⟨max, r2, h2, h⟩ := bind_ok h
    cases h
    simp only [Encodable, varints, List.forall_mem_cons]
    exact ⟨by omega, (varint_ok h1).1, (varint_ok h2).1, by simp⟩
  · cases h

end WebsockMux.Proto.Frame
