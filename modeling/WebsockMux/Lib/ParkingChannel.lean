import Mathlib.Tactic.SplitIfs
import Mathlib.Data.List.Nodup
import Mathlib.Data.List.Perm.Subperm

/-!
# A bounded channel with parking senders

The bounded channel of `futures_channel::mpsc`, for code on one thread. A sender that puts an item
into a channel with more than `buffer` items parks itself, and a parked sender cannot send. The
receiver unparks one sender, the one that waits longest, for each item that it takes. So every
sender has one slot beyond the buffer. A clone of a sender is not parked.
-/

set_option autoImplicit false

namespace WebsockMux.Lib

/-- The channel. Senders are numbered in the order of their creation. `parkedQueue` has the parked
senders that wait for the receiver; `admitted` is a history, the items that were put into the
channel. -/
structure ParkingChannel (α : Type) where
  queue : List α := []
  isOpen : Bool := true
  parked : List Bool := [false]
  parkedQueue : List Nat := []
  admitted : List α := []

/-- The results of `try_send`. -/
inductive TrySend where
  | ok
  | full
  | disconnected
  deriving DecidableEq

/-- The results of `poll_ready`. -/
inductive PollReady where
  | ready
  | pending
  | disconnected
  deriving DecidableEq

namespace ParkingChannel

variable {α : Type} (buffer : Nat) (c : ParkingChannel α) (i : Nat) (x : α)

/-- Whether a sender is parked. -/
def isParked : Bool := (c.parked[i]?).getD false

/-- Whether `try_send` of a sender succeeds. -/
def canSend : Bool := c.isOpen && !c.isParked i

/-- An item is put into the channel; the sender parks itself when the buffer is exceeded. -/
def push : ParkingChannel α :=
  if buffer < c.queue.length + 1 then
    { c with
      queue := c.queue ++ [x]
      admitted := c.admitted ++ [x]
      parked := c.parked.set i true
      parkedQueue := c.parkedQueue ++ [i] }
  else { c with queue := c.queue ++ [x], admitted := c.admitted ++ [x] }

/-- `Sender::try_send`. -/
def trySend : ParkingChannel α × TrySend :=
  if c.isParked i then (c, .full)
  else if c.isOpen then (c.push buffer i x, .ok)
  else (c, .disconnected)

/-- `Sender::poll_ready`. -/
def pollReady : PollReady :=
  if c.isOpen then if c.isParked i then .pending else .ready else .disconnected

/-- The clone of a sender: the channel, and the number of the clone. -/
def clone : ParkingChannel α × Nat := ({ c with parked := c.parked ++ [false] }, c.parked.length)

/-- The receiver takes the first item and unparks a sender. -/
def pop : ParkingChannel α :=
  { c with
    queue := c.queue.tail
    parkedQueue := c.parkedQueue.tail
    parked := (c.parkedQueue.head?).elim c.parked fun i => c.parked.set i false }

/-- `Sender::close_channel`. -/
def close : ParkingChannel α := { c with isOpen := false }

/-- The receiver is dropped: the channel is closed, its items are dropped, all senders unparked. -/
def dropRx : ParkingChannel α :=
  { c with
    queue := []
    isOpen := false
    parked := c.parked.map fun _ => false
    parkedQueue := [] }

variable {buffer c i x}

theorem admitted_push : (c.push buffer i x).admitted = c.admitted ++ [x] := by
  unfold push
  split_ifs <;> rfl

theorem length_parked_push : (c.push buffer i x).parked.length = c.parked.length := by
  unfold push
  split_ifs
  · exact List.length_set
  · rfl

/-- Only the sender of the item is parked. -/
theorem parkedQueue_push {j : Nat} (h : j ∈ (c.push buffer i x).parkedQueue) :
    j ∈ c.parkedQueue ∨ j = i := by
  unfold push at h
  split_ifs at h
  · rcases List.mem_append.1 h with h | h
    · exact .inl h
    · exact .inr (List.mem_singleton.1 h)
  · exact .inl h

theorem trySend_of_canSend (h : c.canSend i = true) :
    c.trySend buffer i x = (c.push buffer i x, .ok) := by
  simp only [canSend, Bool.and_eq_true, Bool.not_eq_true'] at h
  simp [trySend, h.1, h.2]

/-- A sender that cannot send leaves the channel as it is. -/
theorem trySend_of_not_canSend (h : c.canSend i = false) :
    (c.trySend buffer i x).1 = c ∧ (c.trySend buffer i x).2 ≠ .ok := by
  simp only [canSend, Bool.and_eq_false_iff, Bool.not_eq_false'] at h
  unfold trySend
  by_cases hp : c.isParked i = true
  · simp [hp]
  · rcases h with h | h
    · simp [hp, h]
    · exact absurd h hp

/-- **What `try_send` does**: it puts the item into the channel, or leaves the channel as it is. -/
theorem trySend_cases (buffer : Nat) (c : ParkingChannel α) (i : Nat) (x : α) :
    (c.canSend i = true ∧ c.trySend buffer i x = (c.push buffer i x, .ok)) ∨
      (c.canSend i = false ∧ (c.trySend buffer i x).1 = c ∧ (c.trySend buffer i x).2 ≠ .ok) := by
  cases h : c.canSend i with
  | false => exact .inr ⟨rfl, trySend_of_not_canSend h⟩
  | true => exact .inl ⟨rfl, trySend_of_canSend h⟩

theorem canSend_of_pollReady (h : c.pollReady i = .ready) : c.canSend i = true := by
  unfold pollReady at h
  split_ifs at h with ho hp
  simp [canSend, ho, hp]

/-- A sender that did not exceed the buffer can send again. -/
theorem canSend_push (h : c.canSend i = true) (hlen : c.queue.length + 1 ≤ buffer) :
    (c.push buffer i x).canSend i = true := by
  unfold push
  rw [if_neg (by omega)]
  exact h

/-! ## The bound

A sender that exceeds the buffer is parked until the receiver takes an item, so the items beyond the
buffer are at most the parked senders. -/

/-- Every item beyond the buffer has a parked sender of its own. -/
structure Slotted (buffer : Nat) (c : ParkingChannel α) : Prop where
  bound : c.queue.length ≤ buffer + c.parkedQueue.length
  nodup : c.parkedQueue.Nodup
  parked : ∀ i ∈ c.parkedQueue, c.isParked i = true

theorem Slotted.lt_length {n : Nat} (h : Slotted n c) (hi : i ∈ c.parkedQueue) :
    i < c.parked.length := by
  have hp := h.parked i hi
  by_contra hlen
  rw [isParked, List.getElem?_eq_none (by omega)] at hp
  cases hp

/-- A sender parks itself with the item that exceeds the buffer. -/
theorem Slotted.push (h : Slotted buffer c) (hi : i < c.parked.length)
    (hp : c.isParked i = false) : Slotted buffer (c.push buffer i x) := by
  unfold ParkingChannel.push
  split_ifs with hlen
  · constructor
    · have hb := h.bound
      simp only [List.length_append, List.length_singleton]
      omega
    · refine List.nodup_append.2 ⟨h.nodup, List.nodup_singleton i, ?_⟩
      intro j hj k hk hjk
      rw [hjk, List.mem_singleton.1 hk] at hj
      rw [h.parked i hj] at hp
      cases hp
    · intro j hj
      simp only [isParked, List.getElem?_set]
      split_ifs with hij
      · rfl
      · rcases List.mem_append.1 hj with hj | hj
        · exact h.parked j hj
        · exact absurd (List.mem_singleton.1 hj).symm hij
  · refine ⟨?_, h.nodup, h.parked⟩
    simp only [List.length_append, List.length_singleton]
    omega

/-- A sender that stays within the buffer is not parked. -/
theorem Slotted.push_of_lt (h : Slotted buffer c) (hlen : c.queue.length < buffer) :
    Slotted buffer (c.push buffer i x) ∧ (c.push buffer i x).parkedQueue = c.parkedQueue := by
  unfold ParkingChannel.push
  rw [if_neg (by omega)]
  refine ⟨⟨?_, h.nodup, h.parked⟩, rfl⟩
  simp only [List.length_append, List.length_singleton]
  omega

theorem Slotted.clone (h : Slotted buffer c) : Slotted buffer c.clone.1 := by
  refine ⟨h.bound, h.nodup, ?_⟩
  intro i hi
  have hlt := h.lt_length hi
  have hp := h.parked i hi
  simp only [isParked, ParkingChannel.clone, List.getElem?_append_left hlt] at hp ⊢
  exact hp

/-- The receiver takes an item, and the sender that it unparks is the one it has waited for. -/
theorem Slotted.pop (h : Slotted buffer c) : Slotted buffer c.pop := by
  have hb := h.bound
  constructor
  · simp only [ParkingChannel.pop, List.length_tail]
    omega
  · exact h.nodup.tail
  · intro i hi
    have hp := h.parked i (List.mem_of_mem_tail hi)
    have hn := h.nodup
    simp only [isParked, ParkingChannel.pop] at hp hi ⊢
    cases hq : c.parkedQueue with
    | nil => exact hp
    | cons k rest =>
        rw [hq] at hi hn
        have hne : k ≠ i := fun hk => (List.nodup_cons.1 hn).1 (hk ▸ hi)
        simp only [List.head?_cons, Option.elim, List.getElem?_set, if_neg hne]
        exact hp

theorem Slotted.dropRx (c : ParkingChannel α) : Slotted buffer c.dropRx :=
  ⟨Nat.zero_le _, List.nodup_nil, nofun⟩

/-- **The bound of the channel**: one item beyond the buffer for each sender that may be parked. -/
theorem Slotted.length_le {owners : List Nat} (h : Slotted buffer c)
    (ho : ∀ i ∈ c.parkedQueue, i ∈ owners) : c.queue.length ≤ buffer + owners.length := by
  have hle : c.parkedQueue.length ≤ owners.length := (List.subperm_of_subset h.nodup ho).length_le
  have hb := h.bound
  omega

end ParkingChannel

end WebsockMux.Lib
