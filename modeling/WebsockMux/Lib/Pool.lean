import Mathlib.Algebra.BigOperators.Group.List.Basic
import Mathlib.Algebra.GroupWithZero.Nat
import Mathlib.Algebra.Order.BigOperators.Group.List
import Mathlib.Algebra.Order.Group.Nat

/-!
# Pools of concurrent participants

A pool is a list of participants, each at an index. `total f xs` adds up a weight `f` over the
pool. A step of one participant replaces it (`total_set`), a new participant is appended
(`total_append`). A weight that is one for the holders of a resource counts them: a total of at
most one means that two different indices cannot both hold it (`add_le_total`).
-/

set_option autoImplicit false

namespace WebsockMux.Lib

variable {α : Type} {f : α → Nat} {xs : List α} {i j : Nat} {x y : α}

/-- The sum of a weight over a pool. -/
def total (f : α → Nat) (xs : List α) : Nat := (xs.map f).sum

@[simp] theorem total_nil : total f [] = 0 := rfl

@[simp] theorem total_cons : total f (x :: xs) = f x + total f xs := by
  simp [total]

@[simp] theorem total_append : total f (xs ++ [x]) = total f xs + f x := by
  simp [total]

/-- **A participant is replaced**: the total changes by its weight. -/
theorem total_set (h : xs[i]? = some x) : total f (xs.set i y) + f x = total f xs + f y := by
  induction xs generalizing i with
  | nil => cases h
  | cons z zs ih =>
      cases i with
      | zero =>
          cases h
          simp only [List.set_cons_zero, total_cons]
          omega
      | succ i =>
          have h' : zs[i]? = some x := h
          simp only [List.set_cons_succ, total_cons]
          have := ih h'
          omega

theorem total_set_of_eq (h : xs[i]? = some x) (hf : f y = f x) :
    total f (xs.set i y) = total f xs := by
  have := total_set (f := f) (y := y) h
  omega

theorem le_total (h : x ∈ xs) : f x ≤ total f xs :=
  List.single_le_sum (fun _ _ => Nat.zero_le _) _ (List.mem_map_of_mem h)

/-- **Two participants** at different indices weigh at most the total. -/
theorem add_le_total (hi : xs[i]? = some x) (hj : xs[j]? = some y) (hij : i ≠ j) :
    f x + f y ≤ total f xs := by
  induction xs generalizing i j with
  | nil => cases hi
  | cons z zs ih =>
      rw [total_cons]
      cases i with
      | zero =>
          cases hi
          cases j with
          | zero => exact absurd rfl hij
          | succ j =>
              have hj' : zs[j]? = some y := hj
              have := le_total (f := f) (List.mem_of_getElem? hj')
              omega
      | succ i =>
          have hi' : zs[i]? = some x := hi
          cases j with
          | zero =>
              cases hj
              have := le_total (f := f) (List.mem_of_getElem? hi')
              omega
          | succ j =>
              have := ih hi' (show zs[j]? = some y from hj) (by omega)
              omega

theorem total_eq_zero (h : ∀ x ∈ xs, f x = 0) : total f xs = 0 := by
  induction xs with
  | nil => rfl
  | cons z zs ih =>
      rw [total_cons, h z List.mem_cons_self, ih fun x hx => h x (List.mem_cons_of_mem _ hx)]

/-- **A total of at most one**: the weights are at most one, and no two participants have one. -/
theorem total_le_one (hf : ∀ x, f x ≤ 1)
    (h : ∀ (i j : Nat) x y, xs[i]? = some x → xs[j]? = some y → i ≠ j → f x = 0 ∨ f y = 0) :
    total f xs ≤ 1 := by
  induction xs with
  | nil => exact Nat.zero_le 1
  | cons z zs ih =>
      rw [total_cons]
      by_cases hz : f z = 0
      · rw [hz, Nat.zero_add]
        refine ih fun i j x y hi hj hij => ?_
        exact h (i + 1) (j + 1) x y hi hj (by omega)
      · -- the head has its one, so the rest has none
        have hrest : total f zs = 0 := by
          refine total_eq_zero fun x hx => ?_
          obtain ⟨j, hj⟩ := List.getElem?_of_mem hx
          exact (h 0 (j + 1) z x rfl hj (by omega)).resolve_left hz
        rw [hrest]
        exact hf z

/-- A positive total has a participant of positive weight. -/
theorem exists_of_total_pos (h : 0 < total f xs) : ∃ x ∈ xs, 0 < f x := by
  by_contra hne
  have hz : total f xs = 0 := total_eq_zero fun x hx => by
    by_contra hx0
    exact hne ⟨x, hx, by omega⟩
  omega

/-- A participant is replaced by itself. -/
theorem set_same (h : xs[i]? = some x) : xs.set i x = xs := by
  obtain ⟨hlt, rfl⟩ := List.getElem?_eq_some_iff.1 h
  exact List.set_getElem_self hlt

/-- A participant after a replacement is the new one, or was there at the same index. -/
theorem getElem?_set_cases (h : (xs.set i y)[j]? = some x) :
    (j = i ∧ x = y) ∨ (j ≠ i ∧ xs[j]? = some x) := by
  by_cases hij : i = j
  · subst hij
    rw [List.getElem?_set_self'] at h
    cases hx : xs[i]? with
    | none => rw [hx] at h; cases h
    | some z =>
        rw [hx] at h
        cases h
        exact .inl ⟨rfl, rfl⟩
  · rw [List.getElem?_set_ne hij] at h
    exact .inr ⟨Ne.symm hij, h⟩

/-- A participant after an arrival was there at the same index, or is the new one at the end. -/
theorem getElem?_concat_last (h : (xs ++ [y])[j]? = some x) :
    xs[j]? = some x ∨ (j = xs.length ∧ x = y) := by
  rcases Nat.lt_or_ge j xs.length with hj | hj
  · rw [List.getElem?_append_left hj] at h
    exact .inl h
  · have hx : x = y := by
      rw [List.getElem?_append_right hj] at h
      exact List.mem_singleton.1 (List.mem_of_getElem? h)
    have hlt := (List.getElem?_eq_some_iff.1 h).1
    rw [List.length_append, List.length_singleton] at hlt
    exact .inr ⟨by omega, hx⟩

/-- A participant after an arrival is the new one, or was there. -/
theorem getElem?_concat_cases (h : (xs ++ [y])[j]? = some x) : x = y ∨ xs[j]? = some x := by
  rcases getElem?_concat_last h with hj | ⟨-, hx⟩
  · exact .inr hj
  · exact .inl hx

/-- What holds of every participant still holds when one is replaced. -/
theorem forall_mem_set {P : α → Prop} (h : ∀ x ∈ xs, P x) (hy : P y) : ∀ x ∈ xs.set i y, P x := by
  intro x hx
  rcases List.mem_or_eq_of_mem_set hx with hx | rfl
  · exact h x hx
  · exact hy

theorem forall_mem_concat {P : α → Prop} (h : ∀ x ∈ xs, P x) (hy : P y) :
    ∀ x ∈ xs ++ [y], P x := by
  intro x hx
  rcases List.mem_append.1 hx with hx | hx
  · exact h x hx
  · cases List.mem_singleton.1 hx
    exact hy

/-- A participant with a property is still there, or was the replaced one. -/
theorem exists_mem_set {P : α → Prop} (hi : xs[i]? = some x) (h : ∃ z ∈ xs, P z) :
    P x ∨ ∃ z ∈ xs.set i y, P z := by
  obtain ⟨z, hz, hP⟩ := h
  obtain ⟨j, hj, rfl⟩ := List.getElem_of_mem hz
  by_cases hij : i = j
  · subst hij
    rw [List.getElem?_eq_getElem hj] at hi
    exact .inl (Option.some.inj hi ▸ hP)
  · refine .inr ⟨xs[j], List.mem_iff_getElem.2 ⟨j, by simpa using hj, ?_⟩, hP⟩
    rw [List.getElem_set_ne hij]

/-- A participant other than the replaced one is still there. -/
theorem mem_set_of_ne (hi : xs[i]? = some x) (hy : y ∈ xs) (hne : y ≠ x) (z : α) :
    y ∈ xs.set i z := by
  obtain ⟨j, hj, rfl⟩ := List.getElem_of_mem hy
  have hij : i ≠ j := by
    rintro rfl
    rw [List.getElem?_eq_getElem hj] at hi
    exact hne (Option.some.inj hi)
  refine List.mem_iff_getElem.2 ⟨j, by simpa using hj, ?_⟩
  rw [List.getElem_set_ne hij]

/-- Where not exactly one item is counted, another one is beside a given one. -/
theorem exists_ne_of_countP_ne_one {p : α → Bool}
    (hj : xs[j]? = some x) (hx : p x = true) (hc : xs.countP p ≠ 1) :
    ∃ i, i ≠ j ∧ ∃ y, xs[i]? = some y ∧ p y = true := by
  induction xs generalizing j with
  | nil => cases hj
  | cons z zs ih =>
      cases j with
      | zero =>
          cases hj
          rw [List.countP_cons_of_pos hx] at hc
          have hpos : 0 < zs.countP p := by omega
          obtain ⟨y, hy, hp⟩ := List.countP_pos_iff.1 hpos
          obtain ⟨i, hi⟩ := List.getElem?_of_mem hy
          exact ⟨i + 1, Nat.succ_ne_zero i, y, hi, hp⟩
      | succ j =>
          by_cases hz : p z = true
          · exact ⟨0, (Nat.succ_ne_zero j).symm, z, rfl, hz⟩
          · rw [List.countP_cons_of_neg hz] at hc
            obtain ⟨i, hi, y, hy, hp⟩ := ih hj hc
            exact ⟨i + 1, fun h => hi (Nat.succ.inj h), y, hy, hp⟩

end WebsockMux.Lib
