import WebsockMux.Proto.Frame

/-!
# Round trip of frames and messages

For a frame whose varints are below `2 ^ 62`, `encode` is defined, its length is `encodedLen`, and
a decoder with a 64-bit `usize` reads exactly the encoding, whatever follows it
(`exists_encode`). The decode loop of the inbound task therefore maps the concatenation of the
encodings of a list of frames back to the list (`decodeAll_encodeAll`).
-/

set_option autoImplicit false

namespace WebsockMux.Proto.Frame

open WebsockMux.Lib

theorem fromUtf8_asBytes (s : String) : fromUtf8 (asBytes s) = some s := by
  have h : (⟨(asBytes s).toArray⟩ : ByteArray) = s.toByteArray := by
    simp [asBytes]
  rw [fromUtf8, h, String.fromUTF8?, dif_pos s.isValidUTF8]
  rfl

/-- One varint of a frame: its encoding, and what `varint` reads. -/
theorem exists_varint {x : Nat} (h : x < 2 ^ 62) :
    ∃ bs, VarInt.encode ⟨x⟩ = some bs ∧ VarInt.size ⟨x⟩ = some bs.length ∧ bs ≠ [] ∧
      Reads varint bs x := by
  obtain ⟨bs, he, hs, hne, hr⟩ := VarInt.exists_encode h
  exact ⟨bs, he, hs, hne, (hr.mapError _).map (Reads.pure x)⟩

/-- `copy_to_bytes` of a length that is present. -/
theorem reads_copyToBytes (data : List UInt8) : Reads (copyToBytes data.length) data data := by
  intro r
  have h : ¬ (data ++ r).length < data.length := by simp
  show (if (data ++ r).length < data.length then _ else _ : Decoder _ _) (data ++ r) = _
  rw [if_neg h]
  exact Reads.take data r

theorem reads_finBit (fin : Bool) : Reads (finBit fin.toNat) [] fin := by
  cases fin with
  | false => exact Reads.pure false
  | true => exact Reads.pure true

theorem reads_utf8 (reason : String) : Reads (utf8 (asBytes reason)) [] reason := by
  unfold utf8
  rw [fromUtf8_asBytes]
  exact Reads.pure reason

theorem put_cons {x : Nat} {xs : List Nat} {bs cs slice : List UInt8}
    (hx : VarInt.encode ⟨x⟩ = some bs) (hxs : put xs slice = some cs) :
    put (x :: xs) slice = some (bs ++ cs) := by
  simp [put, hx, hxs]

/-- A tag takes one byte, so a frame is never encoded by the empty string. -/
theorem exists_tag {t : Nat} (h : t < 7) :
    ∃ bs, VarInt.encode ⟨t⟩ = some bs ∧ bs.length = 1 ∧ Reads varint bs t ∧
      ∀ cs, bs ++ cs ≠ [] := by
  obtain ⟨bs, he, hs, hne, hr⟩ := exists_varint (x := t) (by omega)
  obtain ⟨-, hs'⟩ := VarInt.encode_one (x := t) (by omega)
  exact ⟨bs, he, Option.some.inj (hs.symm.trans hs'), hr, fun cs => List.append_ne_nil_of_left_ne_nil hne cs⟩

/-- **The round trip of a frame.** Where the varints are below `2 ^ 62`, `encode` is defined, its
length is `encodedLen`, and `decode` reads it back. -/
theorem exists_encode {f : Frame} (hf : f.Encodable) :
    ∃ bs, f.encode = some bs ∧ f.encodedLen = some bs.length ∧ bs ≠ [] ∧
      Reads (decode 64) bs f := by
  -- one case per layout: the encodings of the fields are read back in wire order
  cases f with
  | openUni id =>
      obtain ⟨bt, het, hlt, hrt, hne⟩ := exists_tag (t := 0) (by omega)
      obtain ⟨bi, hei, hsi, -, hri⟩ := exists_varint (hf id.val (by simp [varints]))
      refine ⟨bt ++ (bi ++ []), put_cons het (put_cons hei rfl), ?_, hne _,
        hrt.bind (hri.bind (Reads.pure _))⟩
      simp [encodedLen, hsi, hlt]
  | openBi id =>
      obtain ⟨bt, het, hlt, hrt, hne⟩ := exists_tag (t := 1) (by omega)
      obtain ⟨bi, hei, hsi, -, hri⟩ := exists_varint (hf id.val (by simp [varints]))
      refine ⟨bt ++ (bi ++ []), put_cons het (put_cons hei rfl), ?_, hne _,
        hrt.bind (hri.bind (Reads.pure _))⟩
      simp [encodedLen, hsi, hlt]
  | stream id data fin =>
      obtain ⟨bt, het, hlt, hrt, hne⟩ := exists_tag (t := 2) (by omega)
      obtain ⟨bi, hei, hsi, -, hri⟩ := exists_varint (hf id.val (by simp [varints]))
      obtain ⟨bf, hef, hsf, -, hrf⟩ := exists_varint (hf fin.toNat (by simp [varints]))
      have hlen : data.length < 2 ^ 62 := hf data.length (by simp [varints])
      obtain ⟨bl, hel, hsl, -, hrl⟩ := exists_varint hlen
      have hmod : data.length % 2 ^ 64 = data.length := Nat.mod_eq_of_lt (by omega)
      have hread : Reads (copyToBytes (data.length % 2 ^ 64)) data data := by
        rw [hmod]; exact reads_copyToBytes data
      refine ⟨bt ++ (bi ++ (bf ++ ([] ++ (bl ++ (data ++ []))))), ?_, ?_, hne _,
        hrt.bind (hri.bind (hrf.bind ((reads_finBit fin).bind
          (hrl.bind (hread.bind (Reads.pure _))))))⟩
      · rw [List.append_nil, List.nil_append]
        exact put_cons het (put_cons hei (put_cons hef (put_cons hel rfl)))
      · simp [encodedLen, hsi, hsf, hsl, hlt]
        omega
  | resetStream id code =>
      obtain ⟨bt, het, hlt, hrt, hne⟩ := exists_tag (t := 3) (by omega)
      obtain ⟨bi, hei, hsi, -, hri⟩ := exists_varint (hf id.val (by simp [varints]))
      obtain ⟨bc, hec, hsc, -, hrc⟩ := exists_varint (hf code (by simp [varints]))
      refine ⟨bt ++ (bi ++ (bc ++ [])), put_cons het (put_cons hei (put_cons hec rfl)), ?_, hne _,
        hrt.bind (hri.bind (hrc.bind (Reads.pure _)))⟩
      simp [encodedLen, hsi, hsc, hlt, Nat.add_assoc]
  | stopSending id code =>
      obtain ⟨bt, het, hlt, hrt, hne⟩ := exists_tag (t := 4) (by omega)
      obtain ⟨bi, hei, hsi, -, hri⟩ := exists_varint (hf id.val (by simp [varints]))
      obtain ⟨bc, hec, hsc, -, hrc⟩ := exists_varint (hf code (by simp [varints]))
      refine ⟨bt ++ (bi ++ (bc ++ [])), put_cons het (put_cons hei (put_cons hec rfl)), ?_, hne _,
        hrt.bind (hri.bind (hrc.bind (Reads.pure _)))⟩
      simp [encodedLen, hsi, hsc, hlt, Nat.add_assoc]
  | maxStreamData id max =>
      obtain ⟨bt, het, hlt, hrt, hne⟩ := exists_tag (t := 6) (by omega)
      obtain ⟨bi, hei, hsi, -, hri⟩ := exists_varint (hf id.val (by simp [varints]))
      obtain ⟨bm, hem, hsm, -, hrm⟩ := exists_varint (hf max (by simp [varints]))
      refine ⟨bt ++ (bi ++ (bm ++ [])), put_cons het (put_cons hei (put_cons hem rfl)), ?_, hne _,
        hrt.bind (hri.bind (hrm.bind (Reads.pure _)))⟩
      simp [encodedLen, hsi, hsm, hlt, Nat.add_assoc]
  | connectionClose code reason =>
      obtain ⟨bt, het, hlt, hrt, hne⟩ := exists_tag (t := 5) (by omega)
      obtain ⟨bc, hec, hsc, -, hrc⟩ := exists_varint (hf code (by simp [varints]))
      have hlen : (asBytes reason).length < 2 ^ 62 := hf _ (by simp [varints])
      obtain ⟨bl, hel, hsl, -, hrl⟩ := exists_varint hlen
      have hread : Reads (copyToBytes ((asBytes reason).length % 2 ^ 64)) (asBytes reason)
          (asBytes reason) := by
        rw [Nat.mod_eq_of_lt (by omega)]; exact reads_copyToBytes _
      refine ⟨bt ++ (bc ++ (bl ++ (asBytes reason ++ ([] ++ [])))), ?_, ?_, hne _,
        hrt.bind (hrc.bind (hrl.bind (hread.bind ((reads_utf8 reason).bind (Reads.pure _)))))⟩
      · rw [List.append_nil, List.append_nil]
        exact put_cons het (put_cons hec (put_cons hel rfl))
      · simp [encodedLen, hsc, hsl, hlt]
        omega

/-- The encodings of a list of encodable frames are the image of an encoding function that
`decode` reads back frame by frame. -/
theorem exists_encodeAll : ∀ fs : List Frame, (∀ f ∈ fs, f.Encodable) →
    ∃ bs, encodeAll fs = some bs ∧
      ∀ fuel, fs.length ≤ fuel → decodeAll 64 fuel bs = some (.ok fs)
  | [], _ => ⟨[], rfl, fun fuel _ => by cases fuel <;> rfl⟩
  | f :: fs, h => by
      obtain ⟨b, hb, -, hne, hr⟩ := exists_encode (h f List.mem_cons_self)
      obtain ⟨bs, hbs, hd⟩ := exists_encodeAll fs fun g hg => h g (List.mem_cons_of_mem _ hg)
      refine ⟨b ++ bs, by simp [encodeAll, hb, hbs], fun fuel hfuel => ?_⟩
      cases fuel with
      | zero => simp at hfuel
      | succ fuel =>
          have hrest := hd fuel (by simpa using hfuel)
          exact drain_reads hr hne hrest

/-- **Wire-format round trip for frames and whole messages.** An encodable frame has an encoding of
length `encodedLen` that `decode` reads exactly, whatever follows it. The decode loop maps the
concatenation of the encodings of a list of encodable frames back to the list; one turn of the
loop for each frame is enough. -/
theorem wire_round_trip :
    (∀ f : Frame, f.Encodable → ∃ b, f.encode = some b ∧ f.encodedLen = some b.length ∧
      ∀ r, decode 64 (b ++ r) = .ok (f, r)) ∧
    (∀ fs : List Frame, (∀ f ∈ fs, f.Encodable) → ∃ bs, encodeAll fs = some bs ∧
      ∀ fuel, fs.length ≤ fuel → decodeAll 64 fuel bs = some (.ok fs)) := by
  refine ⟨fun f hf => ?_, exists_encodeAll⟩
  obtain ⟨b, he, hl, -, hr⟩ := exists_encode hf
  exact ⟨b, he, hl, hr⟩

/-- Two frames whose fields lie at the boundaries of the one-byte and two-byte widths. -/
theorem wire_round_trip_boundary :
    ∃ bs, encodeAll [.stream ⟨63⟩ [7] true, .maxStreamData ⟨64⟩ 16383] = some bs ∧
      ∀ fuel, 2 ≤ fuel →
        decodeAll 64 fuel bs = some (.ok [.stream ⟨63⟩ [7] true, .maxStreamData ⟨64⟩ 16383]) :=
  wire_round_trip.2 _ (by decide)

end WebsockMux.Proto.Frame
