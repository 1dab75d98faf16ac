import Mathlib.Data.List.Infix
import WebsockMux.Lib.Run

/-!
# Two machines joined by channels

A `Party` is a machine that sends messages, which it appends to a list, and takes messages, one with
each label that `takes` one. In a `Link` two parties are joined by a reliable channel in each
direction: a party takes the messages that the other one has sent, each once and in order, at any
later time.

What a party has taken is a prefix of what the other one has sent, and a party together with what it
has taken is a state of its own machine with a log (`Link.logged_of_reachable`). So an invariant that
relates the state of one machine to the messages it took is proved for that machine alone.
-/

set_option autoImplicit false

namespace WebsockMux.Lib

/-! ## Sides -/

/-- One of two sides. -/
inductive Side where
  | left
  | right
  deriving DecidableEq

/-- The side at the other end. -/
def Side.other : Side → Side
  | left => right
  | right => left

@[simp] theorem Side.other_other (i : Side) : i.other.other = i := by
  cases i <;> rfl

theorem Side.other_ne (i : Side) : i.other ≠ i := by
  cases i <;> nofun

theorem Side.eq_or_eq_other (i j : Side) : j = i ∨ j = i.other := by
  cases i <;> cases j <;> decide

instance {P : Side → Prop} [DecidablePred P] : Decidable (∀ i, P i) :=
  decidable_of_iff (P .left ∧ P .right)
    ⟨fun h i => match i with
      | .left => h.1
      | .right => h.2, fun h => ⟨h .left, h .right⟩⟩

/-- A value for each side. -/
structure Ends (α : Type) where
  left : α
  right : α

namespace Ends

variable {α : Type}

/-- The value of a side. -/
def get (x : Ends α) : Side → α
  | .left => x.left
  | .right => x.right

/-- Change the value of a side. -/
def set (x : Ends α) (i : Side) (a : α) : Ends α :=
  match i with
  | .left => { x with left := a }
  | .right => { x with right := a }

@[simp] theorem get_set (x : Ends α) (i : Side) (a : α) : (x.set i a).get i = a := by
  cases i <;> rfl

@[simp] theorem get_set_other (x : Ends α) (i : Side) (a : α) :
    (x.set i a).get i.other = x.get i.other := by
  cases i <;> rfl

theorem get_set_of_ne (x : Ends α) {i j : Side} (h : j ≠ i) (a : α) : (x.set i a).get j = x.get j := by
  rcases Side.eq_or_eq_other i j with rfl | rfl
  · exact absurd rfl h
  · exact get_set_other x i a

end Ends

/-! ## Parties -/

variable {σ ℓ μ : Type}

/-- A machine that exchanges messages: its transition function, the message that a label takes, and
the messages that a state has sent. -/
structure Party (σ ℓ μ : Type) where
  step : σ → ℓ → Option σ
  takes : ℓ → Option μ
  sent : σ → List μ

/-- The machine with a log of the messages that it took. -/
def Party.logged (p : Party σ ℓ μ) (x : σ × List μ) (l : ℓ) : Option (σ × List μ) :=
  (p.step x.1 l).map fun s => (s, x.2 ++ (p.takes l).toList)

/-- Without its log, a run of the machine is left. -/
theorem Party.reachable_of_logged {p : Party σ ℓ μ} {ok : σ → ℓ → Prop} {s₀ : σ} {x : σ × List μ}
    (hr : Reachable p.logged (fun x l => ok x.1 l) (s₀, []) x) : Reachable p.step ok s₀ x.1 := by
  induction hr with
  | init => exact .init
  | step _ hok hs ih =>
      obtain ⟨s, hstep, rfl⟩ := Option.map_eq_some_iff.1 hs
      exact ih.step hok hstep

/-! ## Links -/

/-- Two parties, and how many messages each has taken. -/
structure Link (σ : Type) where
  party : Ends σ
  taken : Ends Nat

namespace Link

variable [DecidableEq μ] (p : Side → Party σ ℓ μ)

/-- A party takes a step. A message that it takes is the next one of the other party. -/
def step (x : Link σ) (l : Side × ℓ) : Option (Link σ) :=
  match (p l.1).takes l.2 with
  | none => ((p l.1).step (x.party.get l.1) l.2).map fun s =>
      { x with party := x.party.set l.1 s }
  | some msg =>
      if ((p l.1.other).sent (x.party.get l.1.other))[x.taken.get l.1]? = some msg then
        ((p l.1).step (x.party.get l.1) l.2).map fun s =>
          { party := x.party.set l.1 s, taken := x.taken.set l.1 (x.taken.get l.1 + 1) }
      else none

/-- Two parties before their first step. -/
def initial (s₀ : σ) : Link σ := ⟨⟨s₀, s₀⟩, ⟨0, 0⟩⟩

/-- The messages that a party has taken. -/
def log (x : Link σ) (i : Side) : List μ :=
  ((p i.other).sent (x.party.get i.other)).take (x.taken.get i)

variable {p} {x x' : Link σ} {i : Side} {l : ℓ}

theorem get_initial (s₀ : σ) (i : Side) : (initial s₀).party.get i = s₀ := by
  cases i <;> rfl

theorem taken_initial (s₀ : σ) (i : Side) : (initial s₀).taken.get i = 0 := by
  cases i <;> rfl

/-- **What a step of a link does**: one party takes a step of its own machine, the other one keeps its
state, and a message that is taken is the next one. -/
theorem step_cases (h : step p x (i, l) = some x') :
    ∃ s, (p i).step (x.party.get i) l = some s ∧ x'.party.get i = s ∧
      x'.party.get i.other = x.party.get i.other ∧ x'.taken.get i.other = x.taken.get i.other ∧
      (((p i).takes l = none ∧ x'.taken.get i = x.taken.get i) ∨
        ∃ msg, (p i).takes l = some msg ∧ x'.taken.get i = x.taken.get i + 1 ∧
          ((p i.other).sent (x.party.get i.other))[x.taken.get i]? = some msg) := by
  unfold step at h
  split at h
  · rename_i ht
    obtain ⟨s, hs, rfl⟩ := Option.map_eq_some_iff.1 h
    exact ⟨s, hs, Ends.get_set _ _ _, Ends.get_set_other _ _ _, rfl, .inl ⟨ht, rfl⟩⟩
  · rename_i msg ht
    split_ifs at h with hmsg
    obtain ⟨s, hs, rfl⟩ := Option.map_eq_some_iff.1 h
    exact ⟨s, hs, Ends.get_set _ _ _, Ends.get_set_other _ _ _, Ends.get_set_other _ _ _,
      .inr ⟨msg, ht, Ends.get_set _ _ _, hmsg⟩⟩

section Logs

variable {ok : Link σ → Side × ℓ → Prop} {ok' : Side → σ → ℓ → Prop} {s₀ : σ}

/-- No more was taken than was sent, where what was sent only grows. -/
theorem taken_le (hgrow : ∀ i s l s', (p i).step s l = some s' → (p i).sent s <+: (p i).sent s')
    (hr : Reachable (step p) ok (initial s₀) x) (i : Side) :
    x.taken.get i ≤ ((p i.other).sent (x.party.get i.other)).length := by
  induction hr generalizing i with
  | init =>
      rw [taken_initial]
      exact Nat.zero_le _
  | @step y y' lab hr hok hs ih =>
      obtain ⟨j, l⟩ := lab
      obtain ⟨s, hstep, hget, hother, htaken, hcase⟩ := step_cases hs
      rcases Side.eq_or_eq_other j i with rfl | rfl
      · rw [hother]
        rcases hcase with ⟨-, hk⟩ | ⟨msg, -, hk, hmsg⟩
        · rw [hk]
          exact ih i
        · rw [hk]
          exact (List.getElem?_eq_some_iff.1 hmsg).1
      · rw [htaken]
        have hle := ih j.other
        rw [Side.other_other] at hle ⊢
        rw [hget]
        exact hle.trans (hgrow j _ _ _ hstep).length_le

/-- **A party with what it took** is a state of its machine with a log. -/
theorem logged_of_reachable
    (hgrow : ∀ i s l s', (p i).step s l = some s' → (p i).sent s <+: (p i).sent s')
    (hok : ∀ x i l, ok x (i, l) → ok' i (x.party.get i) l)
    (hr : Reachable (step p) ok (initial s₀) x) (i : Side) :
    Reachable (p i).logged (fun y l => ok' i y.1 l) (s₀, []) (x.party.get i, x.log p i) := by
  induction hr generalizing i with
  | init =>
      rw [get_initial, log, taken_initial, List.take_zero]
      exact .init
  | @step y y' lab hr hokl hs ih =>
      obtain ⟨j, l⟩ := lab
      obtain ⟨s, hstep, hget, hother, htaken, hcase⟩ := step_cases hs
      rcases Side.eq_or_eq_other j i with rfl | rfl
      · refine (ih i).step (hok y i l hokl) (Option.map_eq_some_iff.2 ⟨s, hstep, ?_⟩)
        rw [hget, log, log, hother]
        rcases hcase with ⟨ht, hk⟩ | ⟨msg, ht, hk, hmsg⟩
        · rw [ht, hk, Option.toList_none, List.append_nil]
        · rw [ht, hk, Option.toList_some, List.take_add_one, hmsg, Option.toList_some]
      · -- the other party took a step: what this one took is still there
        have hlog : y'.log p j.other = y.log p j.other := by
          have hle := taken_le hgrow hr j.other
          unfold log
          rw [htaken]
          rw [Side.other_other] at hle ⊢
          obtain ⟨more, hmore⟩ := hgrow j _ _ _ hstep
          rw [hget, ← hmore]
          exact List.take_append_of_le_length hle
        rw [hlog, hother]
        exact ih j.other

/-- Each party is in a state of its own machine. -/
theorem reachable_party
    (hgrow : ∀ i s l s', (p i).step s l = some s' → (p i).sent s <+: (p i).sent s')
    (hok : ∀ x i l, ok x (i, l) → ok' i (x.party.get i) l)
    (hr : Reachable (step p) ok (initial s₀) x) (i : Side) :
    Reachable (p i).step (ok' i) s₀ (x.party.get i) :=
  Party.reachable_of_logged (logged_of_reachable hgrow hok hr i)

end Logs

end Link

end WebsockMux.Lib
