/-
What `convAmountToUnits` accepts: the spellings of an amount, of at most twenty characters and a safe number of cents,
and for each of them it returns exactly these cents.
-/
import PaymentsProcessor.Shared.Money

namespace PaymentsProcessor

/-! ## Spellings -/

/-- `s` spells an amount with the integer digits `dollars` and the fraction digits `cents`. -/
inductive Spells : List Char → List Char → List Char → Prop
  | whole (dollars : List Char) (hne : dollars ≠ []) (hdollars : ∀ c ∈ dollars, c.isDigit = true) :
      Spells dollars dollars []
  | point (dollars cents : List Char) (hne : dollars ≠ []) (hdollars : ∀ c ∈ dollars, c.isDigit = true)
      (hcents : ∀ c ∈ cents, c.isDigit = true) (hlen : cents.length = 1 ∨ cents.length = 2) :
      Spells (dollars ++ '.' :: cents) dollars cents

/-- The cents of one or two fraction digits, one digit meaning tenths, or of none. -/
def fractionCents (cents : List Char) : Nat := digitsValue cents * 10 ^ (2 - cents.length)

/-- The exact value of a spelling in cents. -/
def spelledCents (dollars cents : List Char) : Nat := 100 * digitsValue dollars + fractionCents cents

/-- `s` spells the amount of `n` cents. -/
def SpellsCents (s : List Char) (n : Nat) : Prop := ∃ dollars cents, Spells s dollars cents ∧ n = spelledCents dollars cents

variable {s dollars cents : List Char} {n : Nat}

theorem Spells.dollars_ne (h : Spells s dollars cents) : dollars ≠ [] := by
  cases h with
  | whole _ hne => exact hne
  | point _ _ hne => exact hne

theorem Spells.dollars_isDigit (h : Spells s dollars cents) : ∀ c ∈ dollars, c.isDigit = true := by
  cases h with
  | whole _ _ hdollars => exact hdollars
  | point _ _ _ hdollars => exact hdollars

theorem Spells.cents_isDigit (h : Spells s dollars cents) : ∀ c ∈ cents, c.isDigit = true := by
  cases h with
  | whole => exact fun c hc => absurd hc List.not_mem_nil
  | point _ _ _ _ hcents => exact hcents

theorem Spells.cents_length (h : Spells s dollars cents) : cents.length ≤ 2 := by
  cases h with
  | whole => simp
  | point _ _ _ _ _ hlen => omega

theorem Spells.integerDigits_eq (h : Spells s dollars cents) : integerDigits s = dollars := by
  cases h with
  | whole _ _ hdollars => exact integerDigits_of_digits hdollars
  | point _ _ _ hdollars =>
    unfold integerDigits
    rw [List.takeWhile_append_of_pos fun c hc => ne_point_of_isDigit (hdollars c hc)]
    simp

theorem Spells.fractionDigits_eq (h : Spells s dollars cents) : fractionDigits s = cents := by
  unfold fractionDigits
  cases h with
  | whole _ _ hdollars => rw [dropWhile_of_digits hdollars]; rfl
  | point _ _ _ hdollars =>
    rw [List.dropWhile_append, dropWhile_of_digits hdollars]
    simp

theorem takeWhile_isDigit (hdollars : ∀ c ∈ dollars, c.isDigit = true) (rest : List Char)
    (hrest : rest.head?.any Char.isDigit = false) :
    (dollars ++ rest).takeWhile Char.isDigit = dollars ∧ (dollars ++ rest).dropWhile Char.isDigit = rest := by
  have htake : rest.takeWhile Char.isDigit = [] := by
    cases rest with
    | nil => rfl
    | cons c rest => simpa using hrest
  have hdrop : rest.dropWhile Char.isDigit = rest := by
    have happend := List.takeWhile_append_dropWhile (p := Char.isDigit) (l := rest)
    rwa [htake] at happend
  constructor
  · rw [List.takeWhile_append_of_pos hdollars, htake, List.append_nil]
  · rw [List.dropWhile_append_of_pos hdollars, hdrop]

/-- The pattern of the parser matches the spellings, with their digits as its groups. -/
theorem matchAmount_isSome_iff : (∃ cents', matchAmount s = some (dollars, cents') ∧ cents = cents'.getD []) ↔
    Spells s dollars cents := by
  constructor
  · rintro ⟨cents', hmatch, rfl⟩
    obtain ⟨hne, hdollars, ⟨rfl, rfl⟩ | ⟨cs, rfl, rfl, hcs, hone, htwo⟩⟩ := matchAmount_some hmatch
    · exact .whole s hne hdollars
    · exact .point dollars cs hne hdollars hcs (by omega)
  · intro h
    cases h with
    | whole _ hne hdollars =>
      obtain ⟨htake, hdrop⟩ := takeWhile_isDigit hdollars [] rfl
      rw [List.append_nil] at htake hdrop
      refine ⟨none, ?_, rfl⟩
      unfold matchAmount
      rw [htake, hdrop]
      simp [hne]
    | point _ _ hne hdollars hcents hlen =>
      obtain ⟨htake, hdrop⟩ := takeWhile_isDigit hdollars ('.' :: cents) rfl
      refine ⟨some cents, ?_, rfl⟩
      unfold matchAmount
      rw [htake, hdrop]
      have hall : cents.all Char.isDigit = true := List.all_eq_true.2 hcents
      simp only [hne, if_false, hall, true_and]
      rw [if_pos (by omega)]

/-! ## Length -/

theorem utf16Length_of_ascii {s : String} (h : ∀ c ∈ s.toList, c.val < 0x10000) : utf16Length s = s.toList.length := by
  have hunits : ∀ cs : List Char, (∀ c ∈ cs, c.val < 0x10000) →
      (cs.map fun c => if c.val < 0x10000 then 1 else 2).sum = cs.length := by
    intro cs hcs
    induction cs with
    | nil => rfl
    | cons c cs ih =>
      rw [List.map_cons, List.sum_cons, if_pos (hcs c List.mem_cons_self), List.length_cons,
        ih fun c hc => hcs c (List.mem_cons_of_mem _ hc)]
      omega
  exact hunits _ h

theorem isDigit_lt {c : Char} (h : c.isDigit = true) : c.val < 0x10000 := by
  have hle : c.val ≤ '9'.val := by
    unfold Char.isDigit at h
    simp only [ge_iff_le, Bool.and_eq_true, decide_eq_true_eq] at h
    exact h.2
  have hnine : ('9'.val : UInt32) < 0x10000 := by decide
  exact UInt32.lt_of_le_of_lt hle hnine

/-- A spelling has only characters of one code unit. -/
theorem Spells.length {s : String} (h : Spells s.toList dollars cents) : utf16Length s = s.length := by
  rw [utf16Length_of_ascii, String.length_toList]
  intro c hc
  generalize s.toList = l at h hc
  cases h with
  | whole _ _ hdollars => exact isDigit_lt (hdollars c hc)
  | point _ _ _ hdollars hcents =>
    rcases List.mem_append.1 hc with hc | hc
    · exact isDigit_lt (hdollars c hc)
    · rcases List.mem_cons.1 hc with rfl | hc
      · decide
      · exact isDigit_lt (hcents c hc)

/-! ## The parser -/

theorem digitsValue_padEnd_eq (cents : List Char) : digitsValue (padEnd 2 '0' cents) = fractionCents cents := by
  unfold padEnd fractionCents
  rw [digitsValue_append, digitsValue_replicate_zero, List.length_replicate, Nat.add_zero]

/-- Rounding after each operation changes nothing about which sums are safe, and nothing about those that are. -/
theorem safe_sum_iff (d c : Nat) :
    isSafeInteger (toNumber (toNumber (toNumber d * 100) + toNumber c)) = true ↔ d * 100 + c ≤ 2 ^ 53 - 1 := by
  unfold isSafeInteger
  rw [decide_eq_true_eq]
  constructor
  · intro hle
    have hsum := toNumber_eq_of_lt (n := toNumber (toNumber d * 100) + toNumber c) (by omega)
    rw [hsum] at hle
    have hprod := toNumber_eq_of_lt (n := toNumber d * 100) (by omega)
    rw [hprod] at hle
    have hd := toNumber_eq_of_lt (n := d) (by omega)
    have hc := toNumber_eq_of_lt (n := c) (by omega)
    rw [hd, hc] at hle
    exact hle
  · intro hle
    have hkeep : ∀ m, m ≤ 2 ^ 53 - 1 → toNumber m = m := fun m hm => Rounding.roundEven_of_lt (by omega)
    rw [hkeep d (by omega), hkeep c (by omega), hkeep (d * 100) (by omega), hkeep _ hle]
    exact hle

theorem safe_sum_eq {d c : Nat} (h : d * 100 + c ≤ 2 ^ 53 - 1) :
    toNumber (toNumber (toNumber d * 100) + toNumber c) = d * 100 + c := by
  have hkeep : ∀ m, m ≤ 2 ^ 53 - 1 → toNumber m = m := fun m hm => Rounding.roundEven_of_lt (by omega)
  rw [hkeep d (by omega), hkeep c (by omega), hkeep (d * 100) (by omega), hkeep _ h]

/-- The parser returns a number exactly for a spelling within its bounds, and then the exact value. -/
theorem convAmountToUnits_eq_ok {s : String} {n : Nat} :
    convAmountToUnits s = .ok n ↔ s.length ≤ 20 ∧ SpellsCents s.toList n ∧ n ≤ 2 ^ 53 - 1 := by
  unfold convAmountToUnits
  constructor
  · intro h
    split at h
    · cases h
    · rename_i hlong
      split at h
      · cases h
      · rename_i dollars cents' hmatch
        have hspells : Spells s.toList dollars (cents'.getD []) := matchAmount_isSome_iff.1 ⟨cents', hmatch, rfl⟩
        dsimp only at h
        split at h
        · rename_i hsafe
          unfold numberOf at h hsafe
          have hbound := (safe_sum_iff _ _).1 hsafe
          rw [safe_sum_eq hbound] at h
          cases h
          rw [hspells.length] at hlong
          refine ⟨Nat.le_of_not_lt hlong, ⟨_, _, hspells, ?_⟩, hbound⟩
          rw [digitsValue_padEnd_eq, Nat.mul_comm]
          rfl
        · cases h
  · rintro ⟨hlen, ⟨dollars, cents, hspells, rfl⟩, hbound⟩
    obtain ⟨cents', hmatch, rfl⟩ := matchAmount_isSome_iff.2 hspells
    rw [if_neg (by rw [hspells.length]; omega), hmatch]
    have hsum : digitsValue dollars * 100 + digitsValue (padEnd 2 '0' (cents'.getD [])) ≤ 2 ^ 53 - 1 := by
      rw [digitsValue_padEnd_eq, Nat.mul_comm]
      exact hbound
    dsimp only
    unfold numberOf
    rw [if_pos ((safe_sum_iff _ _).2 hsum), safe_sum_eq hsum, digitsValue_padEnd_eq, Nat.mul_comm]
    rfl

/-- The parser returns the exact cents of the spellings of at most twenty characters and a safe value, and throws on
every other string. -/
theorem accepts_exactly (s : String) :
    (∀ n, convAmountToUnits s = .ok n ↔ s.length ≤ 20 ∧ SpellsCents s.toList n ∧ n ≤ 2 ^ 53 - 1) ∧
    ((∃ message, convAmountToUnits s = .error message) ↔
      ¬ ∃ n, s.length ≤ 20 ∧ SpellsCents s.toList n ∧ n ≤ 2 ^ 53 - 1) := by
  refine ⟨fun n => convAmountToUnits_eq_ok, ?_⟩
  constructor
  · rintro ⟨message, herror⟩ ⟨n, hn⟩
    rw [convAmountToUnits_eq_ok.2 hn] at herror
    cases herror
  · intro hnone
    cases hconv : convAmountToUnits s with
    | error message => exact ⟨message, rfl⟩
    | ok n => exact absurd ⟨n, convAmountToUnits_eq_ok.1 hconv⟩ hnone

end PaymentsProcessor
