import Mathlib.Data.List.Basic

/-!
# Order of occurrence in a list

A list in which every element with a property comes after one with another property (`Precedes`). The
order survives appending, cutting the list off, and leaving out elements that do not matter.
-/

set_option autoImplicit false

namespace WebsockMux.Lib

variable {α : Type} {p q : α → Prop} {l l' : List α}

/-- Every element with the property `q` has an element with the property `p` before it. -/
def Precedes (p q : α → Prop) (l : List α) : Prop :=
  ∀ l₁ x l₂, l = l₁ ++ x :: l₂ → q x → ∃ y ∈ l₁, p y

namespace Precedes

theorem nil : Precedes p q [] := by
  intro l₁ x l₂ heq
  exact absurd heq (by simp)

/-- An element is appended. -/
theorem concat (h : Precedes p q l) {x : α} (hx : q x → ∃ y ∈ l, p y) :
    Precedes p q (l ++ [x]) := by
  intro l₁ z l₂ heq hz
  rcases List.eq_nil_or_concat l₂ with rfl | ⟨l₃, w, rfl⟩
  · -- the element is the new one
    obtain ⟨rfl, hxz⟩ := List.append_inj' heq rfl
    exact hx (List.singleton_injective hxz ▸ hz)
  · rw [List.concat_eq_append, ← List.cons_append, ← List.append_assoc] at heq
    exact h l₁ z l₃ (List.append_inj_left' heq rfl) hz

theorem of_isPrefix (h : Precedes p q l) (hl : l' <+: l) : Precedes p q l' := by
  obtain ⟨rest, rfl⟩ := hl
  intro l₁ x l₂ heq hx
  refine h l₁ x (l₂ ++ rest) ?_ hx
  rw [heq, List.append_assoc, List.cons_append]

/-- Elements are left out that have neither property. -/
theorem filter (h : Precedes p q l) {keep : α → Bool} (hp : ∀ y, p y → keep y = true) :
    Precedes p q (l.filter keep) := by
  intro l₁ x l₂ heq hx
  obtain ⟨m₁, m₂, rfl, hm₁, hm₂⟩ := List.filter_eq_append_iff.1 heq
  obtain ⟨n₁, n₂, rfl, hn₁, -⟩ := List.filter_eq_cons_iff.1 hm₂
  obtain ⟨y, hy, hpy⟩ := h (m₁ ++ n₁) x n₂ (List.append_assoc _ _ _).symm hx
  refine ⟨y, ?_, hpy⟩
  rcases List.mem_append.1 hy with hy | hy
  · rw [← hm₁]
    exact List.mem_filter.2 ⟨hy, hp y hpy⟩
  · exact absurd (hp y hpy) (hn₁ y hy)

theorem exists_of_mem (h : Precedes p q l) {x : α} (hx : x ∈ l) (hq : q x) : ∃ y ∈ l, p y := by
  obtain ⟨l₁, l₂, rfl⟩ := List.append_of_mem hx
  obtain ⟨y, hy, hp⟩ := h l₁ x l₂ rfl hq
  exact ⟨y, List.mem_append_left _ hy, hp⟩

end Precedes

/-- An element is inserted into a list that respects an order. -/
theorem pairwise_insert {R : α → α → Prop} {l₁ l₂ : List α} {x : α}
    (h : (l₁ ++ l₂).Pairwise R) (h₁ : ∀ y ∈ l₁, R y x) (h₂ : ∀ y ∈ l₂, R x y) :
    (l₁ ++ [x] ++ l₂).Pairwise R := by
  obtain ⟨hl₁, hl₂, hcross⟩ := List.pairwise_append.1 h
  rw [List.append_assoc, List.singleton_append]
  refine List.pairwise_append.2 ⟨hl₁, List.pairwise_cons.2 ⟨h₂, hl₂⟩, fun y hy z hz => ?_⟩
  rcases List.mem_cons.1 hz with rfl | hz
  · exact h₁ y hy
  · exact hcross y hy z hz

end WebsockMux.Lib
