/-
Rounding a natural number to a given number of significant bits, to nearest with ties to even:
the value a binary floating-point format stores for it (exponents unbounded). Numbers that fit
are kept; larger ones never round below the first number that does not fit.
-/
import Mathlib.Data.Nat.Size
import Mathlib.Tactic

namespace Rounding

/-- The bits of `n` beyond the first `p`. -/
def excess (p n : Nat) : Nat := n.size - p

/-- `n` rounded to `p` significant bits, to nearest, ties to even. -/
def roundEven (p n : Nat) : Nat :=
  let u := 2 ^ excess p n
  let q := n / u
  let r := n % u
  if u < 2 * r ∨ (u = 2 * r ∧ q % 2 = 1) then (q + 1) * u else q * u

theorem excess_eq_zero {p n : Nat} (h : n < 2 ^ p) : excess p n = 0 := by
  have := Nat.size_le.2 h
  unfold excess; omega

/-- A number of at most `p` bits is kept. -/
theorem roundEven_of_lt {p n : Nat} (h : n < 2 ^ p) : roundEven p n = n := by
  unfold roundEven
  simp only [excess_eq_zero h, pow_zero, Nat.mod_one, Nat.div_one]
  rw [if_neg (by omega), Nat.mul_one]

/-- Rounding keeps the leading bit. -/
theorem floor_le_roundEven (p n : Nat) : n / 2 ^ excess p n * 2 ^ excess p n ≤ roundEven p n := by
  unfold roundEven
  dsimp only
  split
  · exact Nat.mul_le_mul_right _ (Nat.le_succ _)
  · exact le_refl _

/-- Rounding moves a number by at most half a unit. -/
theorem two_mul_roundEven_le (p n : Nat) : 2 * roundEven p n ≤ 2 * n + 2 ^ excess p n := by
  unfold roundEven
  have hsplit := Nat.div_add_mod' n (2 ^ excess p n)
  dsimp only
  split
  · rename_i hup
    have hhalf : 2 ^ excess p n ≤ 2 * (n % 2 ^ excess p n) := by omega
    rw [Nat.add_mul, Nat.one_mul]
    omega
  · omega

/-- A multiple of the unit below a number stays below it. -/
theorem le_roundEven_of_dvd {p n m : Nat} (h : 2 ^ excess p n ∣ m) (hle : m ≤ n) : m ≤ roundEven p n := by
  obtain ⟨k, rfl⟩ := h
  refine le_trans ?_ (floor_le_roundEven p n)
  rw [Nat.mul_comm]
  refine Nat.mul_le_mul_right _ ?_
  rwa [Nat.le_div_iff_mul_le (Nat.two_pow_pos _), Nat.mul_comm]

/-- A number of more than `p` bits stays above every number of `p` bits. -/
theorem le_roundEven {p n : Nat} (hp : 0 < p) (h : 2 ^ p ≤ n) : 2 ^ p ≤ roundEven p n := by
  have hsize : p < n.size := Nat.lt_size.2 h
  have hlead : 2 ^ (n.size - 1) ≤ n := Nat.lt_size.1 (by omega)
  have hsplit : 2 ^ (p - 1) * 2 ^ excess p n = 2 ^ (n.size - 1) := by
    rw [← pow_add]; unfold excess; congr 1; omega
  have hq : 2 ^ (p - 1) ≤ n / 2 ^ excess p n := by
    rw [Nat.le_div_iff_mul_le (Nat.two_pow_pos _), hsplit]
    exact hlead
  calc 2 ^ p ≤ 2 ^ (n.size - 1) := Nat.pow_le_pow_right (by omega) (by omega)
    _ = 2 ^ (p - 1) * 2 ^ excess p n := hsplit.symm
    _ ≤ n / 2 ^ excess p n * 2 ^ excess p n := Nat.mul_le_mul_right _ hq
    _ ≤ roundEven p n := floor_le_roundEven p n

/-- A rounded number below the first number of more than `p` bits was not rounded. -/
theorem roundEven_eq_of_lt {p n : Nat} (hp : 0 < p) (h : roundEven p n < 2 ^ p) : roundEven p n = n := by
  by_cases hn : n < 2 ^ p
  · exact roundEven_of_lt hn
  · have := le_roundEven hp (Nat.le_of_not_lt hn)
    omega

example : roundEven 53 (2 ^ 53 + 1) = 2 ^ 53 ∧ roundEven 53 (2 ^ 53 + 3) = 2 ^ 53 + 4 := by decide

end Rounding
