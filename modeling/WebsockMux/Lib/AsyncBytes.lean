import Mathlib.Data.List.Basic

/-!
# Asynchronous byte streams

A byte stream as its user meets it: the list of what its polls return, one after the other. A poll
may be pending, may yield some of the bytes, or may fail; a poll that yields no byte reports the end.
`readExact` and `writeAll` are the loops over such polls that fill a buffer and empty one. What they
transfer does not depend on how the polls cut the bytes up (`readExact_of_le`, `writeAll_isPrefix`).
-/

set_option autoImplicit false

namespace WebsockMux.Lib

/-! ## Reading -/

/-- What a poll for reading returns. -/
inductive ReadPoll where
  | pending
  | ready (chunk : List UInt8)
  | fail

/-- The bytes that a stream yields before it ends or fails. -/
def unread : List ReadPoll → List UInt8
  | [] => []
  | .pending :: s => unread s
  | .ready [] :: _ => []
  | .ready (b :: bs) :: s => (b :: bs) ++ unread s
  | .fail :: _ => []

/-- Fill a buffer of `n` bytes; `none` when the stream ends or fails before that. A chunk that is
longer than the rest of the buffer is read in part. -/
def readExact : Nat → List ReadPoll → Option (List UInt8 × List ReadPoll)
  | 0, s => some ([], s)
  | _ + 1, [] => none
  | n + 1, .pending :: s => readExact (n + 1) s
  | n + 1, .ready chunk :: s =>
      if chunk = [] then none
      else if chunk.length ≤ n + 1 then
        (readExact (n + 1 - chunk.length) s).map fun (bytes, s) => (chunk ++ bytes, s)
      else some (chunk.take (n + 1), .ready (chunk.drop (n + 1)) :: s)
  | _ + 1, .fail :: _ => none

/-- A chunk with bytes comes before the rest of the stream. -/
theorem unread_ready {chunk : List UInt8} (h : chunk ≠ []) (s : List ReadPoll) :
    unread (.ready chunk :: s) = chunk ++ unread s := by
  cases chunk with
  | nil => exact absurd rfl h
  | cons b bs => rfl

/-- **A buffer is filled with the next bytes**, however the polls cut them up. By induction on the
polls: a chunk that fits leaves a shorter buffer for the rest of the stream. -/
theorem readExact_of_le (s : List ReadPoll) :
    ∀ n, n ≤ (unread s).length →
      ∃ s', readExact n s = some ((unread s).take n, s') ∧ unread s' = (unread s).drop n := by
  induction s with
  | nil =>
      intro n hn
      obtain rfl : n = 0 := Nat.le_zero.1 hn
      exact ⟨[], rfl, rfl⟩
  | cons p s ih =>
      intro n hn
      cases n with
      | zero => exact ⟨p :: s, rfl, rfl⟩
      | succ n =>
          cases p with
          | pending => exact ih (n + 1) hn
          | fail => exact absurd hn (Nat.not_succ_le_zero n)
          | ready chunk =>
              by_cases hnil : chunk = []
              · subst hnil
                exact absurd hn (Nat.not_succ_le_zero n)
              rw [unread_ready hnil, List.length_append] at hn
              rw [unread_ready hnil]
              by_cases hfit : chunk.length ≤ n + 1
              · obtain ⟨s', hread, hrest⟩ := ih (n + 1 - chunk.length) (by omega)
                refine ⟨s', ?_, ?_⟩
                · simp only [readExact, if_neg hnil, if_pos hfit, hread, Option.map_some]
                  rw [List.take_append, List.take_of_length_le hfit]
                · rw [hrest, List.drop_append, List.drop_of_length_le hfit, List.nil_append]
              · -- the chunk is read in part, and its rest is the next chunk
                have hdrop : chunk.drop (n + 1) ≠ [] := by
                  intro hd
                  have := List.drop_eq_nil_iff.1 hd
                  omega
                refine ⟨.ready (chunk.drop (n + 1)) :: s, ?_, ?_⟩
                · simp only [readExact, if_neg hnil, if_neg hfit]
                  rw [List.take_append_of_le_length (by omega)]
                · rw [unread_ready hdrop, List.drop_append_of_le_length (by omega)]

/-- A buffer that is longer than the stream is not filled. -/
theorem readExact_of_lt (s : List ReadPoll) :
    ∀ n, (unread s).length < n → readExact n s = none := by
  induction s with
  | nil =>
      intro n hn
      obtain ⟨n, rfl⟩ := Nat.exists_eq_succ_of_ne_zero (Nat.ne_of_gt (Nat.zero_lt_of_lt hn))
      rfl
  | cons p s ih =>
      intro n hn
      obtain ⟨n, rfl⟩ := Nat.exists_eq_succ_of_ne_zero (Nat.ne_of_gt (Nat.zero_lt_of_lt hn))
      cases p with
      | pending => exact ih (n + 1) hn
      | fail => rfl
      | ready chunk =>
          by_cases hnil : chunk = []
          · simp only [readExact, if_pos hnil]
          · rw [unread_ready hnil, List.length_append] at hn
            have hfit : chunk.length ≤ n + 1 := by omega
            simp only [readExact, if_neg hnil, if_pos hfit]
            rw [ih (n + 1 - chunk.length) (by omega)]
            rfl

/-! ## Writing -/

/-- What a poll for writing returns; `accept n` takes at most `n` bytes. -/
inductive WritePoll where
  | pending
  | accept (n : Nat)
  | fail

/-- Write out a buffer: the bytes that the sink took, and whether these are all. A sink that takes
no byte, fails or ends makes the write fail. -/
def writeAll : List UInt8 → List WritePoll → List UInt8 × Bool
  | [], _ => ([], true)
  | _ :: _, [] => ([], false)
  | bs, .pending :: s => writeAll bs s
  | bs, .accept n :: s =>
      if n = 0 then ([], false)
      else
        let (out, ok) := writeAll (bs.drop n) s
        (bs.take n ++ out, ok)
  | _, .fail :: _ => ([], false)

/-- **A sink gets the bytes of the buffer in order**, all of them when the write succeeds. By
induction on the polls. -/
theorem writeAll_isPrefix (s : List WritePoll) :
    ∀ bs, (writeAll bs s).1 <+: bs ∧ ((writeAll bs s).2 = true → (writeAll bs s).1 = bs) := by
  induction s with
  | nil =>
      intro bs
      cases bs with
      | nil => exact ⟨List.prefix_rfl, fun _ => rfl⟩
      | cons b bs => exact ⟨List.nil_prefix, nofun⟩
  | cons p s ih =>
      intro bs
      cases bs with
      | nil => exact ⟨by simp [writeAll], fun _ => by simp [writeAll]⟩
      | cons b bs =>
          cases p with
          | pending => exact ih (b :: bs)
          | fail => exact ⟨List.nil_prefix, nofun⟩
          | accept n =>
              by_cases hn : n = 0
              · simp only [writeAll, if_pos hn]
                exact ⟨List.nil_prefix, nofun⟩
              · obtain ⟨hpre, hall⟩ := ih ((b :: bs).drop n)
                simp only [writeAll, if_neg hn]
                refine ⟨?_, fun hok => ?_⟩
                · conv_rhs => rw [← List.take_append_drop n (b :: bs)]
                  exact (List.prefix_append_right_inj _).2 hpre
                · rw [hall hok, List.take_append_drop]

end WebsockMux.Lib
