import Mathlib.Data.List.Forall2
import WebsockMux.Proto.RoundTrip

/-!
# Frames in WebSocket messages

A binary message holds the encodings of some frames, one after the other. `Carried msgs fs` says that
the frames `fs` are distributed over the messages in order, each message with at least one frame and
none split. The decode loop of the receiver then reads the same frames back from the messages
(`decodeMessages_of_carried`).
-/

set_option autoImplicit false

namespace WebsockMux.Proto.Frame

open WebsockMux.Lib

/-! ## Encodings -/

theorem varint_lt_of_encode {x : Nat} {bs : List UInt8} (h : VarInt.encode ⟨x⟩ = some bs) :
    x < 2 ^ 62 := by
  unfold VarInt.encode at h
  dsimp only at h
  split_ifs at h
  all_goals
    simp only [VarInt.max1Byte, VarInt.max2Byte, VarInt.max4Byte, VarInt.max] at *
    omega

theorem varints_lt_of_put {xs : List Nat} {slice bs : List UInt8} (h : put xs slice = some bs) :
    ∀ x ∈ xs, x < 2 ^ 62 := by
  induction xs generalizing bs with
  | nil => exact fun x hx => absurd hx List.not_mem_nil
  | cons y ys ih =>
      simp only [put, Option.bind_eq_bind, Option.bind_eq_some_iff, Option.pure_def] at h
      obtain ⟨b, hb, c, hc, -⟩ := h
      intro x hx
      rcases List.mem_cons.1 hx with rfl | hx
      · exact varint_lt_of_encode hb
      · exact ih hc x hx

/-- Only an encodable frame has an encoding. -/
theorem encodable_of_encode {f : Frame} {bs : List UInt8} (h : f.encode = some bs) :
    f.Encodable :=
  varints_lt_of_put h

/-- What an encoding is: not empty, and read back by `decode`. -/
theorem encode_spec {f : Frame} {bs : List UInt8} (h : f.encode = some bs) :
    bs ≠ [] ∧ Reads (decode 64) bs f := by
  obtain ⟨bs', he, -, hne, hr⟩ := exists_encode (encodable_of_encode h)
  rw [h] at he
  cases he
  exact ⟨hne, hr⟩

theorem encodeAll_cons_eq {f : Frame} {fs : List Frame} {bs : List UInt8}
    (h : encodeAll (f :: fs) = some bs) :
    ∃ b c, f.encode = some b ∧ encodeAll fs = some c ∧ bs = b ++ c := by
  simp only [encodeAll, Option.bind_eq_bind, Option.bind_eq_some_iff, Option.pure_def,
    Option.some.injEq] at h
  obtain ⟨b, hb, c, hc, rfl⟩ := h
  exact ⟨b, c, hb, hc, rfl⟩

theorem encodeAll_cons {f : Frame} {fs : List Frame} {b c : List UInt8} (hb : f.encode = some b)
    (hc : encodeAll fs = some c) : encodeAll (f :: fs) = some (b ++ c) := by
  simp [encodeAll, hb, hc]

theorem encodeAll_singleton {f : Frame} {b : List UInt8} (h : f.encode = some b) :
    encodeAll [f] = some b := by
  rw [encodeAll_cons h rfl, List.append_nil]

/-- A frame is added at the end. -/
theorem encodeAll_concat {fs : List Frame} {f : Frame} {bs b : List UInt8}
    (hs : encodeAll fs = some bs) (hb : f.encode = some b) :
    encodeAll (fs ++ [f]) = some (bs ++ b) := by
  induction fs generalizing bs with
  | nil =>
      cases hs
      exact encodeAll_singleton hb
  | cons g gs ih =>
      obtain ⟨x, y, hx, hy, rfl⟩ := encodeAll_cons_eq hs
      rw [List.append_assoc]
      exact encodeAll_cons hx (ih hy)

/-- There are not more frames than bytes. -/
theorem length_le_of_encodeAll {fs : List Frame} {bs : List UInt8} (h : encodeAll fs = some bs) :
    fs.length ≤ bs.length := by
  induction fs generalizing bs with
  | nil => exact Nat.zero_le _
  | cons f fs ih =>
      obtain ⟨b, c, hb, hc, rfl⟩ := encodeAll_cons_eq h
      have hpos := List.length_pos_iff.2 (encode_spec hb).1
      have hle := ih hc
      rw [List.length_cons, List.length_append]
      omega

theorem encodeAll_eq_nil {fs : List Frame} (h : encodeAll fs = some []) : fs = [] :=
  List.length_eq_zero_iff.1 (Nat.le_zero.1 (length_le_of_encodeAll h))

/-! ## Messages -/

/-- The frames of one message, as the decode loop of the receiver reads them. -/
def decodeMessage (data : List UInt8) : Option (List Frame) :=
  match decodeAll 64 data.length data with
  | some (.ok fs) => some fs
  | _ => none

/-- The frames of several messages. -/
def decodeMessages : List (List UInt8) → Option (List Frame)
  | [] => some []
  | data :: msgs => do return (← decodeMessage data) ++ (← decodeMessages msgs)

theorem decodeMessage_of_encodeAll {fs : List Frame} {bs : List UInt8}
    (h : encodeAll fs = some bs) : decodeMessage bs = some fs := by
  have hall : ∀ f ∈ fs, f.Encodable := by
    induction fs generalizing bs with
    | nil => exact fun f hf => absurd hf List.not_mem_nil
    | cons g gs ih =>
        obtain ⟨b, c, hb, hc, rfl⟩ := encodeAll_cons_eq h
        intro f hf
        rcases List.mem_cons.1 hf with rfl | hf
        · exact encodable_of_encode hb
        · exact ih hc f hf
  obtain ⟨bs', he, hd⟩ := exists_encodeAll fs hall
  rw [h] at he
  cases he
  unfold decodeMessage
  rw [hd bs.length (length_le_of_encodeAll h)]

/-- The frames `fs` stand in the messages in order, none split and no message empty. -/
def Carried (msgs : List (List UInt8)) (fs : List Frame) : Prop :=
  ∃ parts : List (List Frame), parts.flatten = fs ∧
    List.Forall₂ (fun data part => data ≠ [] ∧ encodeAll part = some data) msgs parts

theorem Carried.nil : Carried [] [] := ⟨[], rfl, .nil⟩

/-- One more message is sent. -/
theorem Carried.concat {msgs : List (List UInt8)} {fs part : List Frame} {data : List UInt8}
    (h : Carried msgs fs) (hne : data ≠ []) (hp : encodeAll part = some data) :
    Carried (msgs ++ [data]) (fs ++ part) := by
  obtain ⟨parts, rfl, hparts⟩ := h
  refine ⟨parts ++ [part], ?_, List.rel_append hparts (.cons ⟨hne, hp⟩ .nil)⟩
  rw [List.flatten_append, List.flatten_singleton]

theorem Carried.ne_nil {msgs : List (List UInt8)} {fs : List Frame} (h : Carried msgs fs) :
    [] ∉ msgs := by
  obtain ⟨parts, -, hparts⟩ := h
  intro hmem
  induction hparts with
  | nil => exact List.not_mem_nil hmem
  | cons hd _ ih =>
      rcases List.mem_cons.1 hmem with rfl | hmem
      · exact hd.1 rfl
      · exact ih hmem

/-- **The receiver decodes the frames that were sent.** -/
theorem decodeMessages_of_carried {msgs : List (List UInt8)} {fs : List Frame}
    (h : Carried msgs fs) : decodeMessages msgs = some fs := by
  obtain ⟨parts, rfl, hparts⟩ := h
  induction hparts with
  | nil => rfl
  | cons hd _ ih => simp [decodeMessages, decodeMessage_of_encodeAll hd.2, ih]

/-- Each frame stands in one of the messages. -/
theorem Carried.exists_message {msgs : List (List UInt8)} {fs : List Frame} {f : Frame}
    (h : Carried msgs fs) (hf : f ∈ fs) :
    ∃ data ∈ msgs, ∃ part, decodeMessage data = some part ∧ f ∈ part := by
  obtain ⟨parts, rfl, hparts⟩ := h
  induction hparts with
  | nil => cases hf
  | @cons data part msgs parts hd _ ih =>
      rw [List.flatten_cons] at hf
      rcases List.mem_append.1 hf with hf | hf
      · exact ⟨data, List.mem_cons_self, part, decodeMessage_of_encodeAll hd.2, hf⟩
      · obtain ⟨data', hdata, hrest⟩ := ih hf
        exact ⟨data', List.mem_cons_of_mem _ hdata, hrest⟩

/-- More messages carry more frames. -/
theorem decodeMessages_prefix {msgs msgs' : List (List UInt8)} {fs gs : List Frame}
    (h : msgs <+: msgs') (hf : decodeMessages msgs = some fs) (hg : decodeMessages msgs' = some gs) :
    fs <+: gs := by
  obtain ⟨more, rfl⟩ := h
  induction msgs generalizing fs gs with
  | nil =>
      cases hf
      exact List.nil_prefix
  | cons data msgs ih =>
      simp only [decodeMessages, List.cons_append, Option.bind_eq_bind, Option.bind_eq_some_iff,
        Option.pure_def, Option.some.injEq] at hf hg
      obtain ⟨part, hpart, rest, hrest, rfl⟩ := hf
      obtain ⟨part', hpart', rest', hrest', rfl⟩ := hg
      rw [hpart] at hpart'
      cases hpart'
      exact (List.prefix_append_right_inj part).2 (ih hrest hrest')

/-- The frames of the first messages, and those of the messages behind them. -/
theorem Carried.split {msgs more : List (List UInt8)} {fs : List Frame}
    (h : Carried (msgs ++ more) fs) :
    ∃ gs hs, gs ++ hs = fs ∧ Carried msgs gs ∧ Carried more hs := by
  obtain ⟨parts, rfl, hparts⟩ := h
  have htake := List.forall₂_take msgs.length hparts
  have hdrop := List.forall₂_drop msgs.length hparts
  rw [List.take_left] at htake
  rw [List.drop_left] at hdrop
  refine ⟨(parts.take msgs.length).flatten, (parts.drop msgs.length).flatten, ?_, ⟨_, rfl, htake⟩,
    ⟨_, rfl, hdrop⟩⟩
  rw [← List.flatten_append, List.take_append_drop]

/-- The frames of one message. -/
theorem Carried.encode_eq {data : List UInt8} {fs : List Frame} (h : Carried [data] fs) :
    encodeAll fs = some data := by
  obtain ⟨parts, rfl, hparts⟩ := h
  cases hparts with
  | cons hd hnil =>
      cases hnil
      rw [List.flatten_singleton]
      exact hd.2

/-- The first frame of a cursor. -/
theorem decode_of_encodeAll {fs : List Frame} {c : UInt8} {cs : List UInt8}
    (h : encodeAll fs = some (c :: cs)) :
    ∃ f gs rest, fs = f :: gs ∧ decode 64 (c :: cs) = .ok (f, rest) ∧
      encodeAll gs = some rest := by
  cases fs with
  | nil => cases h
  | cons f gs =>
      obtain ⟨b, rest, hb, hrest, heq⟩ := encodeAll_cons_eq h
      refine ⟨f, gs, rest, rfl, ?_, hrest⟩
      rw [heq]
      exact (encode_spec hb).2 rest

/-! ## Order -/

/-- A `MaxStreamData` frame. Unlike the other frames it may overtake what was queued before it. -/
def isCredit : Frame → Bool
  | .maxStreamData _ _ => true
  | _ => false

/-- The frames that keep their order. -/
def ordered (fs : List Frame) : List Frame := fs.filter fun f => !f.isCredit

@[simp] theorem ordered_append (fs gs : List Frame) : ordered (fs ++ gs) = ordered fs ++ ordered gs :=
  List.filter_append _ _

theorem ordered_isPrefix {fs gs : List Frame} (h : fs <+: gs) : ordered fs <+: ordered gs :=
  h.filter _

theorem mem_ordered {f : Frame} {fs : List Frame} :
    f ∈ ordered fs ↔ f ∈ fs ∧ f.isCredit = false := by
  simp [ordered]

/-- What is read off frames that are not credits can be read off the ordered frames. -/
theorem filterMap_ordered {α : Type} {g : Frame → Option α}
    (hg : ∀ f : Frame, f.isCredit = true → g f = none) (fs : List Frame) :
    (ordered fs).filterMap g = fs.filterMap g := by
  induction fs with
  | nil => rfl
  | cons f fs ih =>
      unfold ordered at ih ⊢
      cases hf : f.isCredit with
      | false => simp [hf, List.filterMap_cons, ih]
      | true => simp [hf, List.filterMap_cons, ih, hg f hf]

end WebsockMux.Proto.Frame
