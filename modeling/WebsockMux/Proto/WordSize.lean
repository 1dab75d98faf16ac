import WebsockMux.Proto.Decoded

/-!
# Decoding and the width of `usize`

`Frame::decode` casts the 62-bit length of a `Stream` or `ConnectionClose` frame to `usize` before
it compares the length with the bytes that are present. On a 32-bit platform the cast drops the
high bits, so a length of `2 ^ 32` or more can pass the check. `decode_word_size_iff` says for which
byte strings the two widths agree.
-/

set_option autoImplicit false

namespace WebsockMux.Proto.Frame

open WebsockMux.Lib

/-- A byte string that fits a platform with a `w`-bit `usize`: its length is a `usize`. -/
structure Buffer (w : Nat) where
  bytes : List UInt8
  fits : bytes.length < 2 ^ w

/-- The declared length of a length-prefixed frame, with the bytes after its header. -/
def declaredLength : Decoder FrameDecodeError Nat := do
  let tag ← varint
  match tag with
  | 2 =>
      let _ ← varint
      let _ ← finBit (← varint)
      varint
  | 5 =>
      let _ ← varint
      varint
  | _ => Decoder.fail (.unknownTag tag)

/-! ## Reading the header -/

/-- The last step of a length-prefixed frame: it builds the frame from the payload, and its only
error is invalid text. -/
def Finishes (k : List UInt8 → Decoder FrameDecodeError Frame) : Prop :=
  ∀ data r, (∃ f, k data r = .ok (f, r)) ∨ k data r = .error .invalidUtf8

/-- With a readable header, decoding continues with the payload. Only the length cast depends on
the width of `usize`. -/
theorem decode_of_declaredLength {b rest : List UInt8} {len : Nat}
    (h : declaredLength b = .ok (len, rest)) :
    len < 2 ^ 62 ∧ rest.length < b.length ∧ ∃ k, Finishes k ∧
      ∀ w, decode w b = (copyToBytes (len % 2 ^ w) >>= k) rest := by
  obtain ⟨tag, r0, h0, h⟩ := bind_ok h
  have hb0 := (varint_ok h0).2
  by_cases h2 : tag = 2
  · subst h2
    obtain ⟨id, r1, h1, h⟩ := bind_ok h
    obtain ⟨x, r2, hx, h⟩ := bind_ok h
    obtain ⟨fin, r3, h3, hlen⟩ := bind_ok h
    have hl := varint_ok hlen
    have hr3 := finBit_ok h3
    have hb1 := (varint_ok h1).2
    have hb2 := (varint_ok hx).2
    subst hr3
    refine ⟨hl.1, by omega, fun data => pure (stream ⟨id⟩ data fin), ?_, fun w => ?_⟩
    · exact fun data r => Or.inl ⟨_, rfl⟩
    · rw [decode, bind_of_ok _ h0]
      show (varint >>= _) r0 = _
      rw [bind_of_ok _ h1, bind_of_ok _ hx, bind_of_ok _ h3, bind_of_ok _ hlen]
  · by_cases h5 : tag = 5
    · subst h5
      obtain ⟨code, r1, h1, h⟩ := bind_ok h
      have hl := varint_ok h
      have hb1 := (varint_ok h1).2
      refine ⟨hl.1, by omega, fun data => utf8 data >>= fun s => pure (connectionClose code s), ?_,
        fun w => ?_⟩
      · intro data r
        cases hu : fromUtf8 data with
        | none =>
            have hn : utf8 data r = .error .invalidUtf8 := by rw [utf8, hu]; rfl
            exact Or.inr (bind_of_error _ hn)
        | some s =>
            have hs : utf8 data r = .ok (s, r) := by rw [utf8, hu]; rfl
            exact Or.inl ⟨connectionClose code s, bind_of_ok _ hs⟩
      · rw [decode, bind_of_ok _ h0]
        show (varint >>= _) r0 = _
        rw [bind_of_ok _ h1, bind_of_ok _ h]
    · exfalso
      split at h
      · exact h2 rfl
      · exact h5 rfl
      · cases h

/-- Without a readable header the width of `usize` is never looked at. -/
theorem decode_of_declaredLength_error {b : List UInt8} {e : FrameDecodeError}
    (h : declaredLength b = .error e) (w w' : Nat) : decode w b = decode w' b := by
  cases h0 : varint b with
  | error e0 => rw [decode, decode, bind_of_error _ h0, bind_of_error _ h0]
  | ok p =>
      obtain ⟨tag, r0⟩ := p
      rw [declaredLength, bind_of_ok _ h0] at h
      rw [decode, decode, bind_of_ok _ h0, bind_of_ok _ h0]
      split
      · rfl
      · rfl
      · change (varint >>= _) r0 = .error e at h
        cases h1 : varint r0 with
        | error e1 => rw [bind_of_error _ h1, bind_of_error _ h1]
        | ok p1 =>
            rw [bind_of_ok _ h1] at h ⊢
            rw [bind_of_ok _ h1]
            cases hx : varint p1.2 with
            | error e2 => rw [bind_of_error _ hx, bind_of_error _ hx]
            | ok p2 =>
                rw [bind_of_ok _ hx] at h ⊢
                rw [bind_of_ok _ hx]
                cases h3 : finBit p2.1 p2.2 with
                | error e3 => rw [bind_of_error _ h3, bind_of_error _ h3]
                | ok p3 =>
                    rw [bind_of_ok _ h3] at h ⊢
                    rw [bind_of_ok _ h3, bind_of_error _ h, bind_of_error _ h]
      · rfl
      · rfl
      · change (varint >>= _) r0 = .error e at h
        cases h1 : varint r0 with
        | error e1 => rw [bind_of_error _ h1, bind_of_error _ h1]
        | ok p1 =>
            rw [bind_of_ok _ h1] at h ⊢
            rw [bind_of_ok _ h1, bind_of_error _ h, bind_of_error _ h]
      · rfl
      · rfl

/-! ## Copying the payload -/

theorem copyToBytes_short {len : Nat} {rest : List UInt8}
    (k : List UInt8 → Decoder FrameDecodeError Frame) (h : rest.length < len) :
    (copyToBytes len >>= k) rest = .error .unexpectedEnd := by
  refine bind_of_error _ ?_
  show (if rest.length < len then _ else _ : Decoder _ _) rest = _
  rw [if_pos h]
  rfl

/-- A payload that is present is not rejected as truncated. -/
theorem copyToBytes_present {len : Nat} {rest : List UInt8}
    {k : List UInt8 → Decoder FrameDecodeError Frame} (hk : Finishes k) (h : ¬ rest.length < len) :
    (copyToBytes len >>= k) rest ≠ .error .unexpectedEnd := by
  have hc : copyToBytes len rest = .ok (rest.take len, rest.drop len) := by
    show (if rest.length < len then _ else _ : Decoder _ _) rest = _
    rw [if_neg h]
    rfl
  rw [bind_of_ok _ hc]
  rcases hk (rest.take len) (rest.drop len) with ⟨f, hf⟩ | hf
  · rw [hf]; simp
  · rw [hf]; simp

/-! ## Comparing the two widths -/

/-- The two widths agree on a byte string: the same frame and remaining bytes or the same error,
and a declared length that exceeds the bytes present is `UnexpectedEnd` on both. -/
def WordSizeIndependent (b : List UInt8) : Prop :=
  decode 32 b = decode 64 b ∧
    ∀ len rest, declaredLength b = .ok (len, rest) → rest.length < len →
      decode 32 b = .error .unexpectedEnd ∧ decode 64 b = .error .unexpectedEnd

/-- The length field of the byte string survives the cast to 32 bits, or what is left of it still
exceeds the bytes present. -/
def LengthSurvives (b : List UInt8) : Prop :=
  ∀ len rest, declaredLength b = .ok (len, rest) →
    len < 2 ^ 32 ∨ rest.length < len % 2 ^ 32

/-- **When decoding does not depend on the width of `usize`.** -/
theorem decode_word_size_iff (b : Buffer 32) :
    WordSizeIndependent b.bytes ↔ LengthSurvives b.bytes := by
  obtain ⟨b, hfits⟩ := b
  cases hd : declaredLength b with
  | error e =>
      constructor
      · intro _ len rest h
        rw [hd] at h
        cases h
      · intro _
        refine ⟨decode_of_declaredLength_error hd 32 64, fun len rest h => ?_⟩
        rw [hd] at h
        cases h
  | ok p =>
      obtain ⟨len, rest⟩ := p
      obtain ⟨hlen, hrest, k, hk, hdec⟩ := decode_of_declaredLength hd
      have h64 : len % 2 ^ 64 = len := Nat.mod_eq_of_lt (by omega)
      have d64 : decode 64 b = (copyToBytes len >>= k) rest := by rw [hdec 64, h64]
      constructor
      · rintro ⟨heq, hshort⟩ len' rest' h
        rw [hd] at h
        cases h
        by_cases hsmall : len < 2 ^ 32
        · exact Or.inl hsmall
        · -- the buffer is shorter than the declared length, so both widths must report the end
          have herr := (hshort len rest hd (by omega)).1
          rw [hdec 32] at herr
          exact Or.inr (not_not.1 fun hn => copyToBytes_present hk hn herr)
      · intro hs
        have hcase := hs len rest hd
        have hsame : decode 32 b = decode 64 b := by
          rw [hdec 32, d64]
          rcases hcase with hsmall | hshort
          · rw [Nat.mod_eq_of_lt hsmall]
          · rw [copyToBytes_short k hshort, copyToBytes_short k (by omega)]
        refine ⟨hsame, fun len' rest' h hl => ?_⟩
        rw [hd] at h
        cases h
        have : decode 64 b = .error .unexpectedEnd := by rw [d64, copyToBytes_short k hl]
        exact ⟨hsame.trans this, this⟩

/-- A `Stream` frame that declares `2 ^ 32` bytes and carries none. -/
def truncatedStream : Buffer 32 where
  bytes := [2, 0, 0, 0xC0, 0, 0, 1, 0, 0, 0, 0]
  fits := by decide

/-- The 64-bit decoder rejects `truncatedStream`; the 32-bit decoder accepts it as an empty
frame. -/
theorem decode_word_size_differs :
    decode 64 truncatedStream.bytes = .error .unexpectedEnd ∧
      decode 32 truncatedStream.bytes = .ok (.stream ⟨0⟩ [] false, []) ∧
      ¬ WordSizeIndependent truncatedStream.bytes := by
  have h64 : decode 64 truncatedStream.bytes = .error .unexpectedEnd := by rfl
  have h32 : decode 32 truncatedStream.bytes = .ok (.stream ⟨0⟩ [] false, []) := by rfl
  refine ⟨h64, h32, fun h => ?_⟩
  have := h.1
  rw [h64, h32] at this
  cases this

end WebsockMux.Proto.Frame
