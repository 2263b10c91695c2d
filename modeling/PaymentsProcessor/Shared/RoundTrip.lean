/-
Parsing and formatting: the formatter undoes the parser up to the spelling of the amount. What comes back is the
canonical spelling, without leading zeros and with two decimals. The parser undoes the formatter on the safe integers
that are not negative, and on no others.
-/
import PaymentsProcessor.Shared.Formatting

namespace PaymentsProcessor

variable {s dollars cents : List Char}

/-! ## Canonical spellings -/

/-- Without leading zeros, and `0` if nothing remains. -/
def stripZeros (ds : List Char) : List Char :=
  match ds.dropWhile (· = '0') with
  | [] => ['0']
  | ds => ds

/-- The canonical spelling of an amount. -/
def canonical (s : List Char) : List Char := stripZeros (integerDigits s) ++ '.' :: padEnd 2 '0' (fractionDigits s)

/-! ## Digits -/

theorem digitsValue_snoc (ds : List Char) (c : Char) : digitsValue (ds ++ [c]) = 10 * digitsValue ds + (c.toNat - '0'.toNat) :=
  List.foldl_append

/-- A digit is the one written for its value. -/
theorem digitChar_of_isDigit {c : Char} (h : c.isDigit = true) :
    c.toNat - '0'.toNat < 10 ∧ Nat.digitChar (c.toNat - '0'.toNat) = c := by
  unfold Char.isDigit at h
  simp only [ge_iff_le, Bool.and_eq_true, decide_eq_true_eq] at h
  have hlow : 48 ≤ c.toNat := h.1
  have hhigh : c.toNat ≤ 57 := h.2
  have hc : c = Char.ofNat c.toNat := (Char.ofNat_toNat c).symm
  generalize c.toNat = n at hlow hhigh hc
  subst hc
  interval_cases n <;> decide

theorem digitsValue_pos (hds : ∀ c ∈ dollars, c.isDigit = true) (hne : dollars.dropWhile (· = '0') ≠ []) :
    0 < digitsValue dollars := by
  induction dollars using List.reverseRecOn with
  | nil => exact absurd rfl hne
  | append_singleton ds c ih =>
    rw [digitsValue_snoc]
    rw [List.dropWhile_append] at hne
    cases hdrop : ds.dropWhile (· = '0') with
    | nil =>
      rw [hdrop] at hne
      have hc : c ≠ '0' := by
        rintro rfl
        exact hne rfl
      have hdigit := digitChar_of_isDigit (hds c (List.mem_append_right _ (List.mem_singleton_self c)))
      have hpos : c.toNat - '0'.toNat ≠ 0 := by
        intro hzero
        rw [hzero] at hdigit
        exact hc hdigit.2.symm
      omega
    | cons d rest =>
      have hpos := ih (fun d hd => hds d (List.mem_append_left _ hd)) (by rw [hdrop]; exact List.cons_ne_nil _ _)
      omega

theorem digitsValue_zeros (h : dollars.dropWhile (· = '0') = []) : digitsValue dollars = 0 := by
  have hall : ∀ c ∈ dollars, c = '0' := fun c hc => by simpa using List.dropWhile_eq_nil_iff.1 h c hc
  rw [List.eq_replicate_of_mem hall]
  exact digitsValue_replicate_zero _

/-- A value is written as its digits without leading zeros. -/
theorem toDigits_digitsValue (hds : ∀ c ∈ dollars, c.isDigit = true) :
    Nat.toDigits 10 (digitsValue dollars) = stripZeros dollars := by
  induction dollars using List.reverseRecOn with
  | nil => rfl
  | append_singleton ds c ih =>
    have hold : ∀ d ∈ ds, d.isDigit = true := fun d hd => hds d (List.mem_append_left _ hd)
    obtain ⟨hlt, hchar⟩ := digitChar_of_isDigit (hds c (List.mem_append_right _ (List.mem_singleton_self c)))
    rw [digitsValue_snoc]
    generalize c.toNat - '0'.toNat = d at hlt hchar
    unfold stripZeros at ih ⊢
    rw [List.dropWhile_append]
    cases hdrop : ds.dropWhile (· = '0') with
    | nil =>
      rw [digitsValue_zeros hdrop, Nat.mul_zero, Nat.zero_add, Nat.toDigits_of_lt_base hlt, hchar]
      by_cases hc : c = '0'
      · rw [hc]; rfl
      · simp [hc]
    | cons e rest =>
      have hpos := digitsValue_pos hold (by rw [hdrop]; exact List.cons_ne_nil _ _)
      rw [Nat.toDigits_of_base_le (by omega) (by omega), show (10 * digitsValue ds + d) / 10 = digitsValue ds by omega,
        show (10 * digitsValue ds + d) % 10 = d by omega, hchar, ih hold, hdrop]
      simp

/-- Two digits are written for their value, a single one after a zero. -/
theorem padStart_toDigits {ds : List Char} (hds : ∀ c ∈ ds, c.isDigit = true) (hlen : ds.length = 2) :
    padStart 2 '0' (Nat.toDigits 10 (digitsValue ds)) = ds := by
  rw [toDigits_digitsValue hds]
  obtain ⟨a, b, rfl⟩ := List.length_eq_two.1 hlen
  unfold stripZeros padStart
  by_cases ha : a = '0'
  · by_cases hb : b = '0'
    · simp [ha, hb]
    · simp [ha, hb]
  · simp [ha]

theorem digitsValue_lt (hds : ∀ c ∈ dollars, c.isDigit = true) : digitsValue dollars < 10 ^ dollars.length := by
  induction dollars using List.reverseRecOn with
  | nil => simp [digitsValue]
  | append_singleton ds c ih =>
    have hold := ih fun d hd => hds d (List.mem_append_left _ hd)
    have hdigit := (digitChar_of_isDigit (hds c (List.mem_append_right _ (List.mem_singleton_self c)))).1
    rw [digitsValue_snoc, List.length_append, List.length_singleton, pow_succ]
    omega

/-! ## The canonical spelling -/

theorem digitsValue_toDigits (n : Nat) : digitsValue (Nat.toDigits 10 n) = n := Nat.ofDigitChars_ten_toDigits

theorem padEnd_isDigit (hcents : ∀ c ∈ cents, c.isDigit = true) : ∀ c ∈ padEnd 2 '0' cents, c.isDigit = true := by
  intro c hc
  rcases List.mem_append.1 hc with hold | hzero
  · exact hcents c hold
  · rw [List.eq_of_mem_replicate hzero]
    decide

theorem padEnd_length (hlen : cents.length ≤ 2) : (padEnd 2 '0' cents).length = 2 := by
  unfold padEnd
  rw [List.length_append, List.length_replicate]
  omega

theorem padEnd_of_length (hlen : cents.length = 2) : padEnd 2 '0' cents = cents := by
  unfold padEnd
  rw [hlen]
  simp

/-! ## What the formatter writes -/

theorem padStart_isDigit (hcents : ∀ c ∈ cents, c.isDigit = true) : ∀ c ∈ padStart 2 '0' cents, c.isDigit = true := by
  intro c hc
  rcases List.mem_append.1 hc with hzero | hold
  · rw [List.eq_of_mem_replicate hzero]
    decide
  · exact hcents c hold

theorem padStart_length (hlen : cents.length ≤ 2) : (padStart 2 '0' cents).length = 2 := by
  unfold padStart
  rw [List.length_append, List.length_replicate]
  omega

theorem digitsValue_padStart (cents : List Char) : digitsValue (padStart 2 '0' cents) = digitsValue cents := by
  unfold padStart
  rw [digitsValue_append, digitsValue_replicate_zero]
  omega

/-- The digits of the dollars and those of the cents. -/
def spelling (n : Nat) : List Char := Nat.toDigits 10 (n / 100) ++ '.' :: padStart 2 '0' (Nat.toDigits 10 (n % 100))

theorem toDigits_isDigit (n : Nat) : ∀ c ∈ Nat.toDigits 10 n, c.isDigit = true :=
  fun _ hc => Nat.isDigit_of_mem_toDigits (by omega) (by omega) hc

theorem toDigits_cents_length (n : Nat) : (Nat.toDigits 10 (n % 100)).length ≤ 2 :=
  (Nat.length_toDigits_le_iff (by omega) (by omega)).2 (by omega)

/-- What is written for a number spells it. -/
theorem spelling_spells (n : Nat) : SpellsCents (spelling n) n := by
  have hlen := toDigits_cents_length n
  refine ⟨_, _, .point _ _ Nat.toDigits_ne_nil (toDigits_isDigit _) (padStart_isDigit (toDigits_isDigit _))
    (Or.inr (padStart_length hlen)), ?_⟩
  unfold spelledCents
  rw [← digitsValue_padEnd_eq, padEnd_of_length (padStart_length hlen), digitsValue_padStart, digitsValue_toDigits,
    digitsValue_toDigits]
  omega

/-- What is written for a safe number is short. -/
theorem spelling_length {n : Nat} (hsafe : n ≤ 2 ^ 53 - 1) : (spelling n).length ≤ 20 := by
  have hdollars : (Nat.toDigits 10 (n / 100)).length ≤ 14 := (Nat.length_toDigits_le_iff (by omega) (by omega)).2 (by omega)
  unfold spelling
  rw [List.length_append, List.length_cons, padStart_length (toDigits_cents_length n)]
  omega

/-- The formatter does not throw on integers, and writes nothing of their sign. -/
theorem convUnitsToAmount_int (c : ℤ) : convUnitsToAmount c = .ok (numberToString (floorHundredth c.natAbs) ++ "." ++
    String.ofList (padStart 2 '0' (numberToString (c.natAbs % 100)).toList)) := by
  have hden : ¬ (c : ℚ).den ≠ 1 := by simp
  unfold convUnitsToAmount
  rw [if_neg hden, Rat.num_intCast]

/-- On a safe integer of either sign the arithmetic is exact. -/
theorem convUnitsToAmount_of_safe {c : ℤ} (hsafe : c.natAbs ≤ 2 ^ 53 - 1) :
    convUnitsToAmount c = .ok (String.ofList (spelling c.natAbs)) := by
  rw [convUnitsToAmount_int, floorHundredth_eq (by omega), numberToString_eq (by omega), numberToString_eq (by omega)]
  congr 1
  rw [← String.toList_inj]
  unfold spelling
  simp [Nat.toString_eq_repr]

/-! ## The round trip -/

/-- The parser reads what is written for a safe number. -/
theorem convAmountToUnits_spelling {n : Nat} (hsafe : n ≤ 2 ^ 53 - 1) :
    convAmountToUnits (String.ofList (spelling n)) = .ok n := by
  refine convAmountToUnits_eq_ok.2 ⟨?_, ?_, hsafe⟩
  · rw [String.length_ofList]
    exact spelling_length hsafe
  · rw [String.toList_ofList]
    exact spelling_spells n

/-- What is written for an amount is the canonical one of its spellings. -/
theorem Spells.canonical_eq_spelling (h : Spells s dollars cents) :
    PaymentsProcessor.canonical s = spelling (spelledCents dollars cents) := by
  have hpad : digitsValue (padEnd 2 '0' cents) < 100 := by
    have hlt := digitsValue_lt (padEnd_isDigit h.cents_isDigit)
    rwa [padEnd_length h.cents_length] at hlt
  have hcents : spelledCents dollars cents = 100 * digitsValue dollars + digitsValue (padEnd 2 '0' cents) := by
    unfold spelledCents
    rw [digitsValue_padEnd_eq]
  unfold PaymentsProcessor.canonical spelling
  rw [hcents, show (100 * digitsValue dollars + digitsValue (padEnd 2 '0' cents)) / 100 = digitsValue dollars by omega,
    show (100 * digitsValue dollars + digitsValue (padEnd 2 '0' cents)) % 100 = digitsValue (padEnd 2 '0' cents) by omega,
    h.integerDigits_eq, h.fractionDigits_eq, toDigits_digitsValue h.dollars_isDigit,
    padStart_toDigits (padEnd_isDigit h.cents_isDigit) (padEnd_length h.cents_length)]

/-- No leading zero, but for a zero alone, and two decimals. -/
def IsCanonical (s : List Char) : Prop :=
  (integerDigits s = ['0'] ∨ (integerDigits s).head? ≠ some '0') ∧ (fractionDigits s).length = 2

theorem stripZeros_eq_self (h : dollars = ['0'] ∨ dollars.head? ≠ some '0') (hne : dollars ≠ []) :
    stripZeros dollars = dollars := by
  unfold stripZeros
  rcases h with rfl | hhead
  · rfl
  · cases dollars with
    | nil => exact absurd rfl hne
    | cons c ds =>
      have hc : c ≠ '0' := fun hzero => hhead (congrArg some hzero)
      simp [hc]

/-- The canonical spelling of a canonical one is itself. -/
theorem Spells.canonical_eq_self (h : Spells s dollars cents) (hs : IsCanonical s) :
    PaymentsProcessor.canonical s = s := by
  unfold IsCanonical at hs
  unfold PaymentsProcessor.canonical
  rw [h.integerDigits_eq, h.fractionDigits_eq] at hs ⊢
  rw [stripZeros_eq_self hs.1 h.dollars_ne, padEnd_of_length hs.2]
  cases h with
  | whole => cases hs.2
  | point => rfl

/-- Parse and format. -/
def respell (s : String) : Except String String := (convAmountToUnits s).bind fun n => convUnitsToAmount n

/-- Formatting what was parsed gives the canonical spelling, which the parser accepts as the same amount; so a canonical
spelling comes back as it was, and what came back once comes back again. -/
theorem format_undoes_parse {s : String} {n : Nat} (h : convAmountToUnits s = .ok n) :
    convUnitsToAmount n = .ok (String.ofList (canonical s.toList)) ∧
    convAmountToUnits (String.ofList (canonical s.toList)) = .ok n ∧
    (IsCanonical s.toList → respell s = .ok s) ∧ (respell s).bind respell = respell s := by
  obtain ⟨-, ⟨dollars, cents, hspells, rfl⟩, hsafe⟩ := convAmountToUnits_eq_ok.1 h
  have hparse := convAmountToUnits_spelling hsafe
  have hformat := convUnitsToAmount_of_safe (c := (spelledCents dollars cents : Nat)) hsafe
  rw [Int.cast_natCast, Int.natAbs_natCast] at hformat
  rw [← hspells.canonical_eq_spelling] at hparse hformat
  have hrespell : respell s = .ok (String.ofList (canonical s.toList)) := by
    unfold respell
    rw [h]
    exact hformat
  refine ⟨hformat, hparse, fun hs => ?_, ?_⟩
  · rw [hrespell, hspells.canonical_eq_self hs, String.ofList_toList]
  · have hagain : respell (String.ofList (canonical s.toList)) = .ok (String.ofList (canonical s.toList)) := by
      unfold respell
      rw [hparse]
      exact hformat
    rw [hrespell]
    simp only [Except.bind]
    exact hagain

theorem format_undoes_parse_padded : convUnitsToAmount (730 : Nat) = .ok "7.30" ∧ respell "7.30" = .ok "7.30" := by
  have h : convAmountToUnits "007.3" = .ok 730 := by decide
  have h' : convAmountToUnits "7.30" = .ok 730 := by decide
  exact ⟨(format_undoes_parse h).1, (format_undoes_parse h').2.2.1 (by unfold IsCanonical; decide)⟩

/-! ## The other way round -/

/-- What the formatter writes for `c` is read back as `c`. -/
def Undone (c : ℤ) : Prop := ∀ s, convUnitsToAmount c = .ok s → ∃ n : Nat, convAmountToUnits s = .ok n ∧ (n : ℤ) = c

theorem undone_iff (c : ℤ) : Undone c ↔ 0 ≤ c ∧ c ≤ 2 ^ 53 - 1 := by
  constructor
  · intro h
    obtain ⟨n, hparse, rfl⟩ := h _ (convUnitsToAmount_int c)
    -- the parser returns safe integers only
    obtain ⟨-, -, hsafe⟩ := convAmountToUnits_eq_ok.1 hparse
    omega
  · rintro ⟨hpos, hsafe⟩ s hs
    rw [convUnitsToAmount_of_safe (by omega)] at hs
    cases hs
    refine ⟨c.natAbs, convAmountToUnits_spelling (by omega), ?_⟩
    omega

/-- The parser undoes the formatter exactly on the safe integers that are not negative. Two safe integers of either sign
are written in the same way exactly if they differ at most in the sign. -/
theorem parse_undoes_format_iff (c : ℤ) : (Undone c ↔ 0 ≤ c ∧ c ≤ 2 ^ 53 - 1) ∧
    ∀ c' : ℤ, c.natAbs ≤ 2 ^ 53 - 1 → c'.natAbs ≤ 2 ^ 53 - 1 →
      (convUnitsToAmount c = convUnitsToAmount c' ↔ c.natAbs = c'.natAbs) := by
  refine ⟨undone_iff c, fun c' hc hc' => ?_⟩
  rw [convUnitsToAmount_of_safe hc, convUnitsToAmount_of_safe hc']
  constructor
  · intro h
    have hread := convAmountToUnits_spelling hc
    rw [Except.ok.inj h, convAmountToUnits_spelling hc'] at hread
    exact (Except.ok.inj hread).symm
  · intro h
    rw [h]

/-- A negative number of cents is written without its sign. -/
theorem negative_read_positive : convUnitsToAmount (-1050 : ℤ) = .ok "10.50" ∧ convUnitsToAmount (1050 : ℤ) = .ok "10.50" ∧
    convAmountToUnits "10.50" = .ok 1050 ∧ ¬ Undone (-1050) := by
  have hformat : convUnitsToAmount (-1050 : ℤ) = .ok "10.50" := by
    rw [convUnitsToAmount_int]
    decide +kernel
  have hparse : convAmountToUnits "10.50" = .ok 1050 := by decide
  refine ⟨hformat, ?_, hparse, fun h => ?_⟩
  · rw [convUnitsToAmount_int]
    decide +kernel
  · obtain ⟨n, hread, hn⟩ := h _ hformat
    omega

end PaymentsProcessor
