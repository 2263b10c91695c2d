/-
`convUnitsToAmount` of `packages/shared`: cents to a string with two decimals. On what `convAmountToUnits` returns it
gives the canonical spelling of the amount that was parsed.
-/
import PaymentsProcessor.Shared.Amounts

namespace PaymentsProcessor

open Rounding

/-! ## JavaScript numbers -/

/-- The bit kept of what a division leaves. -/
def sticky (rem : Nat) : Nat := if rem = 0 then 0 else 1

/-- `Math.floor(val / 100)` of a non-negative integer: the floor of the quotient rounded to a double, which is computed
with sixty further bits and one for what they leave. -/
def floorHundredth (val : Nat) : Nat :=
  let scaled := val * 2 ^ 60
  roundEven 53 (2 * (scaled / 100) + sticky (scaled % 100)) / 2 ^ 61

/-- The decimal of the fewest digits that rounds to `x`, the nearest one of these. -/
def shortestDecimal (x : Nat) : Nat :=
  let n := (Nat.toDigits 10 x).length
  let decimals := (List.range n).findSome? fun k =>
    let unit := 10 ^ (n - (k + 1))
    let below := x / unit * unit
    let above := below + unit
    if toNumber below = x ∧ (x - below ≤ above - x ∨ toNumber above ≠ x) then some below
    else if toNumber above = x then some above
    else none
  decimals.getD x

/-- `d.ddde+n`. -/
def exponential (v : Nat) : String :=
  let digits := Nat.toDigits 10 v
  let mantissa := ((digits.drop 1).reverse.dropWhile (· = '0')).reverse
  String.ofList (digits.take 1 ++ if mantissa = [] then [] else '.' :: mantissa) ++ "e+" ++ toString (digits.length - 1)

/-- `String(x)` of a non-negative integer. -/
def numberToString (x : Nat) : String :=
  if shortestDecimal x < 10 ^ 21 then toString (shortestDecimal x) else exponential (shortestDecimal x)

theorem sticky_le (rem : Nat) : sticky rem ≤ 1 := by
  unfold sticky
  split <;> simp

/-- The quotient of a safe integer is rounded by less than what is missing to the next integer. -/
theorem floorHundredth_eq {val : Nat} (h : val < 2 ^ 53) : floorHundredth val = val / 100 := by
  unfold floorHundredth
  dsimp only
  have hsticky := sticky_le (val * 2 ^ 60 % 100)
  generalize sticky (val * 2 ^ 60 % 100) = b at hsticky ⊢
  generalize hn : 2 * (val * 2 ^ 60 / 100) + b = n
  have hlow : val / 100 * 2 ^ 61 ≤ n := by omega
  have hsize : n.size ≤ 108 := Nat.size_le.2 (by omega)
  have hexcess : excess 53 n ≤ 55 := by unfold excess; omega
  have hunit : 2 ^ excess 53 n ≤ 2 ^ 55 := Nat.pow_le_pow_right (by omega) hexcess
  have hdvd : 2 ^ excess 53 n ∣ val / 100 * 2 ^ 61 := Dvd.dvd.mul_left (pow_dvd_pow 2 (by omega)) _
  have hbelow := le_roundEven_of_dvd hdvd hlow
  have habove := two_mul_roundEven_le 53 n
  generalize roundEven 53 n = m at hbelow habove ⊢
  generalize 2 ^ excess 53 n = u at hunit habove
  omega

/-- A safe integer is its own shortest decimal. -/
theorem shortestDecimal_eq {x : Nat} (h : x < 2 ^ 53) : shortestDecimal x = x := by
  have hkeep : ∀ v, toNumber v = x → v = x := by
    intro v hv
    rw [← toNumber_eq_of_lt (n := v) (by omega)]
    exact hv
  unfold shortestDecimal
  dsimp only
  cases hfound : List.findSome? _ _ with
  | none => rfl
  | some v =>
    obtain ⟨k, -, hk⟩ := List.exists_of_findSome?_eq_some hfound
    split at hk
    · rename_i hbelow
      cases hk
      exact hkeep _ hbelow.1
    · split at hk
      · rename_i habove
        cases hk
        exact hkeep _ habove
      · cases hk

theorem numberToString_eq {x : Nat} (h : x < 2 ^ 53) : numberToString x = toString x := by
  unfold numberToString
  rw [shortestDecimal_eq h, if_pos (by omega)]

/-! ## The formatter -/

/-- `padStart(n, c)`. -/
def padStart (n : Nat) (c : Char) (s : List Char) : List Char := List.replicate (n - s.length) c ++ s

/-- `convUnitsToAmount` of a finite number. -/
def convUnitsToAmount (cents : ℚ) : Except String String :=
  if cents.den ≠ 1 then .error "Cents number must be integer"
  else
    let val := cents.num.natAbs
    let dollars := floorHundredth val
    let rem := val % 100
    .ok (numberToString dollars ++ "." ++ String.ofList (padStart 2 '0' (numberToString rem).toList))

example : numberToString (2 ^ 70) = "1.1805916207174113e+21" ∧ numberToString (2 ^ 60) = "1152921504606847000" ∧
    numberToString (toNumber (10 ^ 23)) = "1e+23" := by
  decide +kernel

end PaymentsProcessor
