/-
`convAmountToUnits` of `packages/shared`: a decimal amount string to a whole number of cents, with
the arithmetic done on JavaScript numbers (doubles). Whatever it returns is exact.
-/
import PaymentsProcessor.Base.Rounding
import Mathlib.Data.List.TakeWhile
import Mathlib.Tactic

namespace PaymentsProcessor

open Rounding

/-! ## JavaScript numbers -/

/-- The JavaScript number for a non-negative integer: the nearest double. -/
def toNumber (n : Nat) : Nat := roundEven 53 n

/-- `Number.isSafeInteger` on a non-negative integer. -/
def isSafeInteger (n : Nat) : Bool := n ≤ 2 ^ 53 - 1

/-- `length` of a JavaScript string: its UTF-16 code units. -/
def utf16Length (s : String) : Nat := (s.toList.map fun c => if c.val < 0x10000 then 1 else 2).sum

theorem toNumber_eq_of_lt {n : Nat} (h : toNumber n < 2 ^ 53) : toNumber n = n :=
  roundEven_eq_of_lt (by decide) h

/-! ## The parser -/

/-- The value of a string of decimal digits. -/
def digitsValue (ds : List Char) : Nat := ds.foldl (fun v c => 10 * v + (c.toNat - '0'.toNat)) 0

/-- `Number(ds)` of a string of decimal digits. -/
def numberOf (ds : List Char) : Nat := toNumber (digitsValue ds)

/-- The capture groups of `/^(\d+)(?:\.(\d{1,2}))?$/`. A digit run ends where a non-digit begins,
so the two groups are determined. -/
def matchAmount (s : List Char) : Option (List Char × Option (List Char)) :=
  let dollars := s.takeWhile Char.isDigit
  if dollars = [] then none
  else match s.dropWhile Char.isDigit with
    | [] => some (dollars, none)
    | c :: cents =>
      if c = '.' ∧ cents.all Char.isDigit ∧ 1 ≤ cents.length ∧ cents.length ≤ 2 then some (dollars, some cents)
      else none

/-- `padEnd(n, c)`. -/
def padEnd (n : Nat) (c : Char) (s : List Char) : List Char := s ++ List.replicate (n - s.length) c

/-- `convAmountToUnits`. -/
def convAmountToUnits (amount : String) : Except String Nat :=
  if utf16Length amount > 20 then .error "Amount input string too long"
  else match matchAmount amount.toList with
    | none => .error ("Invalid amount string format: " ++ amount)
    | some (dollars, cents) =>
      let padCents := padEnd 2 '0' (cents.getD [])
      let res := toNumber (toNumber (numberOf dollars * 100) + numberOf padCents)
      if isSafeInteger res then .ok res
      else .error ("Amount exceeds safe int range: " ++ amount)

/-! ## Exactness -/

/-- The digits before the decimal point. -/
def integerDigits (s : List Char) : List Char := s.takeWhile (· != '.')

/-- The digits after the decimal point. -/
def fractionDigits (s : List Char) : List Char := (s.dropWhile (· != '.')).drop 1

/-- The value of a decimal numeral. -/
def decimalValue (s : List Char) : ℚ :=
  digitsValue (integerDigits s) + digitsValue (fractionDigits s) / 10 ^ (fractionDigits s).length

theorem digitsValue_append (a b : List Char) :
    digitsValue (a ++ b) = digitsValue a * 10 ^ b.length + digitsValue b := by
  induction b using List.reverseRecOn with
  | nil => simp [digitsValue]
  | append_singleton b c ih =>
    have hsnoc : ∀ l : List Char, digitsValue (l ++ [c]) = 10 * digitsValue l + (c.toNat - '0'.toNat) :=
      fun l => List.foldl_append
    rw [← List.append_assoc, hsnoc, hsnoc, ih, List.length_append, List.length_singleton, pow_succ]
    ring

theorem digitsValue_replicate_zero (n : Nat) : digitsValue (List.replicate n '0') = 0 := by
  induction n with
  | zero => rfl
  | succ n ih => rw [List.replicate_succ', digitsValue_append, ih]; rfl

/-- The shape of a matched amount: its dollars, then nothing or a point and one or two digits. -/
theorem matchAmount_some {s dollars : List Char} {cents : Option (List Char)}
    (h : matchAmount s = some (dollars, cents)) :
    dollars ≠ [] ∧ (∀ c ∈ dollars, c.isDigit = true) ∧
      ((cents = none ∧ s = dollars) ∨
        ∃ cs, cents = some cs ∧ s = dollars ++ '.' :: cs ∧ (∀ c ∈ cs, c.isDigit = true) ∧
          1 ≤ cs.length ∧ cs.length ≤ 2) := by
  have hdig : ∀ c ∈ s.takeWhile Char.isDigit, c.isDigit = true := fun c hc => List.mem_takeWhile_imp hc
  have hcat := List.takeWhile_append_dropWhile (p := Char.isDigit) (l := s)
  unfold matchAmount at h
  dsimp only at h
  split at h
  · cases h
  · rename_i hne
    split at h
    · rename_i hrest
      cases h
      rw [hrest, List.append_nil] at hcat
      exact ⟨hne, hdig, Or.inl ⟨rfl, hcat.symm⟩⟩
    · rename_i c cs hrest
      split at h
      · rename_i hc
        cases h
        obtain ⟨rfl, hall, h1, h2⟩ := hc
        rw [hrest] at hcat
        refine ⟨hne, hdig, Or.inr ⟨cs, rfl, hcat.symm, ?_, h1, h2⟩⟩
        simpa using hall
      · cases h

theorem ne_point_of_isDigit {c : Char} (h : c.isDigit = true) : (c != '.') = true := by
  rw [bne_iff_ne]
  rintro rfl
  exact absurd h (by decide)

theorem integerDigits_of_digits {ds : List Char} (h : ∀ c ∈ ds, c.isDigit = true) : integerDigits ds = ds :=
  List.takeWhile_eq_self_iff.2 fun c hc => ne_point_of_isDigit (h c hc)

theorem dropWhile_of_digits {ds : List Char} (h : ∀ c ∈ ds, c.isDigit = true) :
    ds.dropWhile (· != '.') = [] :=
  List.dropWhile_eq_nil_iff.2 fun c hc => ne_point_of_isDigit (h c hc)

/-- The padded cents are the fraction in hundredths. -/
theorem digitsValue_padEnd {cs : List Char} (h : cs.length ≤ 2) :
    (digitsValue (padEnd 2 '0' cs) : ℚ) = 100 * (digitsValue cs / 10 ^ cs.length) := by
  unfold padEnd
  rw [digitsValue_append, digitsValue_replicate_zero, List.length_replicate]
  have h100 : (100 : ℚ) = 10 ^ (2 - cs.length) * 10 ^ cs.length := by
    rw [← pow_add, Nat.sub_add_cancel h]; norm_num
  rw [h100]
  push_cast
  field_simp
  ring

/-- The exact cents of a matched amount. -/
theorem matchAmount_value {s dollars : List Char} {cents : Option (List Char)}
    (h : matchAmount s = some (dollars, cents)) :
    ((digitsValue dollars * 100 + digitsValue (padEnd 2 '0' (cents.getD [])) : Nat) : ℚ) =
      100 * decimalValue s := by
  obtain ⟨-, hd, ⟨rfl, rfl⟩ | ⟨cs, rfl, rfl, hc, -, h2⟩⟩ := matchAmount_some h
  · have hp := digitsValue_padEnd (show ([] : List Char).length ≤ 2 by simp)
    have hf : fractionDigits s = [] := by unfold fractionDigits; rw [dropWhile_of_digits hd]; rfl
    unfold decimalValue
    rw [integerDigits_of_digits hd, hf]
    simp only [Option.getD_none] at hp ⊢
    push_cast
    rw [hp]
    ring
  · have hi : integerDigits (dollars ++ '.' :: cs) = dollars := by
      unfold integerDigits
      rw [List.takeWhile_append_of_pos fun c hc => ne_point_of_isDigit (hd c hc)]
      simp
    have hf : fractionDigits (dollars ++ '.' :: cs) = cs := by
      unfold fractionDigits
      rw [List.dropWhile_append, dropWhile_of_digits hd]
      simp
    unfold decimalValue
    rw [hi, hf]
    simp only [Option.getD_some]
    push_cast
    rw [digitsValue_padEnd h2]
    ring

/-- What the parser returns is exactly the amount in cents, below the safe bound. -/
theorem convAmountToUnits_exact {amount : String} {c : Nat} (h : convAmountToUnits amount = .ok c) :
    (c : ℚ) = 100 * decimalValue amount.toList ∧ c < 2 ^ 53 := by
  unfold convAmountToUnits at h
  split at h
  · cases h
  · split at h
    · cases h
    · rename_i dollars cents hm
      dsimp only at h
      split at h
      · rename_i hs
        cases h
        have hlt : toNumber (toNumber (numberOf dollars * 100) + numberOf (padEnd 2 '0' (cents.getD []))) < 2 ^ 53 := by
          unfold isSafeInteger at hs
          have := of_decide_eq_true hs
          omega
        -- each rounding on the way was below the bound, so none of them rounded
        have e1 := toNumber_eq_of_lt hlt
        rw [e1] at hlt ⊢
        have e2 := toNumber_eq_of_lt (n := numberOf dollars * 100) (by omega)
        rw [e2] at hlt ⊢
        have e3 : numberOf dollars = digitsValue dollars := toNumber_eq_of_lt (by unfold numberOf at hlt; omega)
        have e4 : numberOf (padEnd 2 '0' (cents.getD [])) = digitsValue (padEnd 2 '0' (cents.getD [])) :=
          toNumber_eq_of_lt (by unfold numberOf at hlt; omega)
        refine ⟨?_, hlt⟩
        rw [e3, e4]
        exact matchAmount_value hm
      · cases h

example : convAmountToUnits "10.5" = .ok 1050 ∧ convAmountToUnits "90071992547409.91" = .ok (2 ^ 53 - 1) ∧
    convAmountToUnits "90071992547409.92" = .error "Amount exceeds safe int range: 90071992547409.92" := by
  decide

end PaymentsProcessor
