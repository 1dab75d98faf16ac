import Mathlib.Data.Nat.Bitwise

/-!
# Fixed-width big-endian integers

`bigEndian k n` is the `k`-byte big-endian representation of `n`, reduced modulo `256 ^ k`.
`or_eq_add` turns the disjunction of two numbers with disjoint bits into a sum, which is how a
decoder that assembles a value from shifted bytes is related to the bytes of a number.
-/

set_option autoImplicit false

namespace WebsockMux.Lib

/-- The `k` low-order bytes of `n`, most significant first. -/
def bigEndian : Nat → Nat → List UInt8
  | 0, _ => []
  | k + 1, n => UInt8.ofNat (n / 256 ^ k) :: bigEndian k n

@[simp] theorem length_bigEndian (k n : Nat) : (bigEndian k n).length = k := by
  induction k with
  | zero => rfl
  | succ k ih => simp [bigEndian, ih]

/-- Numbers with disjoint bits: the disjunction is the sum. -/
theorem or_eq_add {i a b : Nat} (ha : a % 2 ^ i = 0) (hb : b < 2 ^ i) : a ||| b = a + b := by
  obtain ⟨c, rfl⟩ := Nat.dvd_of_mod_eq_zero ha
  exact (Nat.two_pow_add_eq_or_of_lt hb c).symm

end WebsockMux.Lib
