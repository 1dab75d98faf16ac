import Mathlib.Data.Finset.Basic

/-!
# A slot for one waker

Tasks wait for a condition that other functions make true. A task that polls registers its waker in
a slot that holds one waker, then looks at the condition, and waits when it does not hold. Who makes
the condition true wakes what the slot holds afterwards, so between the two a wake is due.

A task is covered (`WakerSlot.Covers`) when it has been woken since it registered, or the slot holds
its waker and the condition does not hold unless a wake is due. Registering before looking makes a
waiting task covered (`Sound.wait`), and whatever is done to the condition keeps it so, with one
exception: another task that registers. It has to find all the tasks that wait woken
(`allWoken_register`).
-/

set_option autoImplicit false

namespace WebsockMux.Lib

variable {τ : Type}

/-- The slot: the waker that it holds, the tasks that wait, those that were woken through the slot
since they registered, and the number of wakes that are due. -/
structure WakerSlot (τ : Type) where
  registered : Option τ := none
  waiting : Finset τ := ∅
  woken : Finset τ := ∅
  due : Nat := 0

namespace WakerSlot

/-- The condition was made true: a wake is due. -/
def owe (w : WakerSlot τ) : WakerSlot τ := { w with due := w.due + 1 }

section Operations

variable [DecidableEq τ]

/-- A task that polls registers its waker, in place of the one that the slot holds. -/
def register (w : WakerSlot τ) (t : τ) : WakerSlot τ :=
  { w with registered := some t, waiting := w.waiting.erase t, woken := w.woken.erase t }

/-- The poll of a task ends without the condition: the task waits. -/
def wait (w : WakerSlot τ) (t : τ) : WakerSlot τ := { w with waiting := insert t w.waiting }

/-- A wake takes the waker from the slot. -/
def wake (w : WakerSlot τ) : WakerSlot τ where
  registered := none
  waiting := w.waiting
  woken := w.registered.elim w.woken (insert · w.woken)
  due := w.due - 1

end Operations

/-- A task has been woken, or the slot holds its waker; in that case `idle` holds unless a wake is
due. -/
def Covers (w : WakerSlot τ) (t : τ) (idle : Prop) : Prop :=
  t ∈ w.woken ∨ w.registered = some t ∧ (w.due = 0 → idle)

/-- All the tasks that wait are covered. -/
def Sound (w : WakerSlot τ) (idle : Prop) : Prop := ∀ t ∈ w.waiting, w.Covers t idle

/-- All the tasks that wait have been woken. -/
def AllWoken (w : WakerSlot τ) : Prop := ∀ t ∈ w.waiting, t ∈ w.woken

variable {w : WakerSlot τ} {t : τ} {idle idle' : Prop}

theorem Covers.mono (h : w.Covers t idle) (hi : idle → idle') : w.Covers t idle' :=
  h.imp_right fun h => ⟨h.1, fun hd => hi (h.2 hd)⟩

/-- The condition may become true when a wake is due for it. -/
theorem Covers.owe (h : w.Covers t idle) : w.owe.Covers t idle' :=
  h.imp_right fun h => ⟨h.1, fun hd => absurd hd (Nat.succ_ne_zero _)⟩

theorem Sound.mono (h : w.Sound idle) (hi : idle → idle') : w.Sound idle' :=
  fun t ht => (h t ht).mono hi

theorem Sound.owe (h : w.Sound idle) : w.owe.Sound idle' := fun t ht => (h t ht).owe

theorem AllWoken.owe (h : w.AllWoken) : w.owe.AllWoken := h

theorem AllWoken.sound (h : w.AllWoken) : w.Sound idle := fun t ht => .inl (h t ht)

/-- **No lost wake-up**: a task that waits has been woken or has its waker in the slot, and where
the condition holds a wake is due for the latter. -/
theorem Sound.not_lost (h : w.Sound idle) (ht : t ∈ w.waiting) :
    t ∈ w.woken ∨ w.registered = some t ∧ (¬idle → 0 < w.due) :=
  (h t ht).imp_right fun h => ⟨h.1, fun hi => Nat.pos_of_ne_zero fun hd => hi (h.2 hd)⟩

variable [DecidableEq τ]

/-- A wake reaches every task that is covered. -/
theorem Covers.wake (h : w.Covers t idle) : w.wake.Covers t idle' := by
  refine .inl ?_
  show t ∈ w.registered.elim w.woken (insert · w.woken)
  rcases h with h | ⟨h, -⟩
  · cases w.registered with
    | none => exact h
    | some u => exact Finset.mem_insert_of_mem h
  · rw [h]
    exact Finset.mem_insert_self _ _

theorem Sound.wake (h : w.Sound idle) : w.wake.Sound idle' := fun t ht => (h t ht).wake

theorem AllWoken.wake (h : w.AllWoken) : w.wake.AllWoken := by
  intro t ht
  show t ∈ w.registered.elim w.woken (insert · w.woken)
  cases w.registered with
  | none => exact h t ht
  | some u => exact Finset.mem_insert_of_mem (h t ht)

/-- A task that has registered is covered, whatever it will find. -/
theorem covers_register (w : WakerSlot τ) (t : τ) : (w.register t).Covers t True :=
  .inr ⟨rfl, fun _ => trivial⟩

/-- **A task may register** when all the others that wait have been woken. -/
theorem allWoken_register (h : ∀ u ∈ w.waiting, u ≠ t → u ∈ w.woken) : (w.register t).AllWoken := by
  intro u hu
  obtain ⟨hne, hu⟩ := Finset.mem_erase.1 hu
  exact Finset.mem_erase.2 ⟨hne, h u hu hne⟩

/-- **A covered task may wait** when all those that wait already have been woken. -/
theorem Sound.wait (h : w.AllWoken) (ht : w.Covers t idle) : (w.wait t).Sound idle := by
  intro u hu
  rcases Finset.mem_insert.1 hu with rfl | hu
  · exact ht
  · exact .inl (h u hu)

end WakerSlot

end WebsockMux.Lib
