import Mathlib.Tactic.Basic

/-!
# Byte-string decoders

A `Decoder ε α` reads a value of type `α` from the front of a byte string and returns the bytes it
did not read, or fails with an error of type `ε`. `Reads d bs a` says that `d` reads exactly the
bytes `bs` as the value `a`, whatever follows them; it composes along monadic sequencing
(`Reads.bind`), so the round trip of a record format follows from the round trips of its fields.

`drain` is the loop that decodes until no byte remains. It carries fuel; each encoding that `d`
reads needs one unit of it (`drain_reads`).
-/

set_option autoImplicit false

namespace WebsockMux.Lib

/-- A decoder over byte strings. -/
abbrev Decoder (ε α : Type) := StateT (List UInt8) (Except ε) α

variable {ε α β : Type}

namespace Decoder

/-- The number of bytes that are still unread. -/
def remaining : Decoder ε Nat := fun b => .ok (b.length, b)

/-- Take the next `n` bytes, all the rest when fewer are left. -/
def take (n : Nat) : Decoder ε (List UInt8) := fun b => .ok (b.take n, b.drop n)

/-- Fail with an error. -/
def fail (e : ε) : Decoder ε α := fun _ => .error e

/-- Read with a decoder whose errors are translated. -/
def mapError {ε' : Type} (f : ε → ε') (d : Decoder ε α) : Decoder ε' α := fun b =>
  match d b with
  | .ok r => .ok r
  | .error e => .error (f e)

end Decoder

/-! ## Running a sequence -/

theorem bind_of_ok {d : Decoder ε α} (f : α → Decoder ε β) {b r : List UInt8} {a : α}
    (h : d b = .ok (a, r)) : (d >>= f) b = f a r := by
  show (d b).bind (fun p => f p.1 p.2) = _
  rw [h]
  rfl

theorem bind_of_error {d : Decoder ε α} (f : α → Decoder ε β) {b : List UInt8} {e : ε}
    (h : d b = .error e) : (d >>= f) b = .error e := by
  show (d b).bind (fun p => f p.1 p.2) = _
  rw [h]
  rfl

/-- A sequence that succeeds succeeds in both parts. -/
theorem bind_ok {d : Decoder ε α} {f : α → Decoder ε β} {b : List UInt8} {x : β × List UInt8}
    (h : (d >>= f) b = .ok x) : ∃ a r, d b = .ok (a, r) ∧ f a r = .ok x := by
  cases hd : d b with
  | error e =>
      rw [bind_of_error f hd] at h
      cases h
  | ok p =>
      rw [bind_of_ok f hd] at h
      exact ⟨p.1, p.2, rfl, h⟩

/-! ## Reading an encoding -/

/-- `d` reads the bytes `bs` as the value `a`, and leaves what follows them. -/
def Reads (d : Decoder ε α) (bs : List UInt8) (a : α) : Prop :=
  ∀ r, d (bs ++ r) = .ok (a, r)

theorem Reads.pure (a : α) : Reads (pure a : Decoder ε α) [] a := fun _ => rfl

/-- **Sequencing reads the concatenation.** -/
theorem Reads.bind {d : Decoder ε α} {f : α → Decoder ε β} {bs cs : List UInt8} {a : α} {b : β}
    (hd : Reads d bs a) (hf : Reads (f a) cs b) : Reads (d >>= f) (bs ++ cs) b := by
  intro r
  show (d (bs ++ cs ++ r)).bind (fun x => f x.1 x.2) = _
  rw [List.append_assoc, hd (cs ++ r)]
  exact hf r

/-- Sequencing with a last step that reads nothing. -/
theorem Reads.map {d : Decoder ε α} {f : α → Decoder ε β} {bs : List UInt8} {a : α} {b : β}
    (hd : Reads d bs a) (hf : Reads (f a) [] b) : Reads (d >>= f) bs b := by
  have h := hd.bind hf
  rwa [List.append_nil] at h

theorem Reads.mapError {ε' : Type} {d : Decoder ε α} {bs : List UInt8} {a : α} (f : ε → ε')
    (hd : Reads d bs a) : Reads (d.mapError f) bs a := by
  intro r
  simp only [Decoder.mapError, hd r]

/-- A step that looks at the number of unread bytes. -/
theorem Reads.remaining {f : Nat → Decoder ε β} {bs : List UInt8} {b : β}
    (hf : ∀ r, f (bs ++ r).length (bs ++ r) = .ok (b, r)) :
    Reads (Decoder.remaining >>= f) bs b :=
  hf

theorem Reads.take (bs : List UInt8) : Reads (Decoder.take bs.length : Decoder ε _) bs bs := by
  intro r
  simp [Decoder.take]

/-! ## Reading an encoding completely -/

/-- `d` reads the bytes `bs` as the value `a`, and fails with `e` on every proper prefix of them. -/
structure ReadsWhole (e : ε) (d : Decoder ε α) (bs : List UInt8) (a : α) : Prop where
  reads : Reads d bs a
  cut : ∀ p, p <+: bs → p ≠ bs → d p = .error e

/-- A step that reads nothing. -/
theorem ReadsWhole.nil {e : ε} {d : Decoder ε α} {a : α} (h : Reads d [] a) :
    ReadsWhole e d [] a where
  reads := h
  cut _ hp hne := absurd (List.prefix_nil.1 hp) hne

/-- **Sequencing reads the concatenation completely.** A proper prefix ends in the first part, or it
is the first part with a proper prefix of the second. -/
theorem ReadsWhole.bind {e : ε} {d : Decoder ε α} {f : α → Decoder ε β} {bs cs : List UInt8} {a : α}
    {b : β} (hd : ReadsWhole e d bs a) (hf : ReadsWhole e (f a) cs b) :
    ReadsWhole e (d >>= f) (bs ++ cs) b where
  reads := hd.reads.bind hf.reads
  cut := by
    -- the second part is cut
    have hsecond : ∀ q, q <+: cs → q ≠ cs → (d >>= f) (bs ++ q) = .error e := by
      intro q hq hne
      rw [bind_of_ok f (hd.reads q)]
      exact hf.cut q hq hne
    rintro p ⟨t, ht⟩ hne
    rcases List.append_eq_append_iff.1 ht with ⟨as, rfl, has⟩ | ⟨q, rfl, hcs⟩
    · by_cases hnil : as = []
      · subst hnil
        rw [List.append_nil] at hne hsecond
        have hcs : [] ≠ cs := by
          rintro rfl
          exact hne (List.append_nil p).symm
        have h := hsecond [] (List.nil_prefix) hcs
        rwa [List.append_nil] at h
      · refine bind_of_error f (hd.cut p (List.prefix_append p as) ?_)
        intro h
        exact hnil (List.self_eq_append_right.1 h)
    · refine hsecond q ⟨t, hcs.symm⟩ ?_
      rintro rfl
      exact hne rfl

/-! ## The loop -/

/-- Decode values until no byte remains; `none` when the fuel runs out first. -/
def drain (d : Decoder ε α) : Nat → List UInt8 → Option (Except ε (List α))
  | _, [] => some (.ok [])
  | 0, _ :: _ => none
  | fuel + 1, b :: bs =>
      match d (b :: bs) with
      | .error e => some (.error e)
      | .ok (a, rest) => (drain d fuel rest).map (·.map (a :: ·))

/-- **One turn of the loop**: what `d` reads first is the head of the result. -/
theorem drain_reads {d : Decoder ε α} {bs rest : List UInt8} {a : α} {as : List α} {fuel : Nat}
    (hd : Reads d bs a) (hne : bs ≠ []) (h : drain d fuel rest = some (.ok as)) :
    drain d (fuel + 1) (bs ++ rest) = some (.ok (a :: as)) := by
  obtain ⟨c, cs, rfl⟩ := List.exists_cons_of_ne_nil hne
  have hr := hd rest
  rw [List.cons_append] at hr ⊢
  simp only [drain, hr, h]
  rfl

/-- **The loop terminates** when every turn that succeeds shortens the input. -/
theorem exists_drain {d : Decoder ε α}
    (hd : ∀ b a r, d b = .ok (a, r) → r.length < b.length) :
    ∀ (fuel : Nat) (b : List UInt8), b.length ≤ fuel → ∃ y, drain d fuel b = some y := by
  intro fuel
  induction fuel with
  | zero =>
      intro b hb
      obtain rfl : b = [] := List.eq_nil_of_length_eq_zero (Nat.le_zero.1 hb)
      exact ⟨.ok [], rfl⟩
  | succ fuel ih =>
      intro b hb
      cases b with
      | nil => exact ⟨.ok [], rfl⟩
      | cons c cs =>
          cases hr : d (c :: cs) with
          | error e => exact ⟨.error e, by simp only [drain, hr]⟩
          | ok p =>
              have hlt := hd _ p.1 p.2 hr
              obtain ⟨y, hy⟩ := ih p.2 (by omega)
              exact ⟨y.map (p.1 :: ·), by simp only [drain, hr, hy, Option.map_some]⟩

end WebsockMux.Lib
