/-
`SimulatedBankAdapter`: its state, the part of `authorize` after the latency wait, `setConfig`,
and its laws: an answer for a stored key is the stored one, only authorisations are stored, under
a reference made from the key, and the charges counter counts the stored keys.
-/
import PaymentsProcessor.Bank.Port
import Mathlib.Data.List.AList
import Mathlib.Tactic

namespace PaymentsProcessor

/-- `BankMode`. -/
inductive BankMode
  | alwaysAuthorize | alwaysDecline | alwaysError | failNThenAuthorize
  deriving DecidableEq

/-- The adapter's fields with their initial values. -/
structure SimulatedBankAdapter where
  mode : BankMode := .alwaysAuthorize
  failCount : Nat := 0
  failN : Nat := 2
  latencyMs : Nat := 200
  store : AList fun _ : String => BankOutcome := ∅
  charges : Nat := 0

/-- The argument of `setConfig`: only the given keys are changed. -/
structure BankConfigPatch where
  mode : Option BankMode := none
  failN : Option Nat := none
  latencyMs : Option Nat := none

namespace SimulatedBankAdapter

/-- The reference the adapter gives for an idempotency key. -/
def bankRef (key : String) : String := "bank_" ++ key

/-- The branch that charges: count the charge and store the authorisation. -/
def charge (key : String) (b : SimulatedBankAdapter) : BankReply × SimulatedBankAdapter :=
  let outcome := BankOutcome.authorized (bankRef key)
  (.resolved outcome, { b with charges := b.charges + 1, store := b.store.insert key outcome })

/-- `authorize` after its latency wait. -/
def authorize (req : BankAuthorizeRequest) (b : SimulatedBankAdapter) : BankReply × SimulatedBankAdapter :=
  match b.store.lookup req.idempotencyKey with
  | some outcome => (.resolved outcome, b)
  | none =>
    match b.mode with
    | .alwaysAuthorize => charge req.idempotencyKey b
    | .alwaysDecline => (.resolved (.declined "insufficient_funds"), b)
    | .alwaysError => (.resolved (.error true "bank_unavailable"), b)
    | .failNThenAuthorize =>
      if b.failCount < b.failN then
        (.resolved (.error true "bank_unavailable"), { b with failCount := b.failCount + 1 })
      else charge req.idempotencyKey { b with failCount := 0 }

/-- `setConfig`. -/
def setConfig (patch : BankConfigPatch) (b : SimulatedBankAdapter) : SimulatedBankAdapter :=
  let b := match patch.mode with
    | some mode => { b with mode := mode, failCount := 0 }
    | none => b
  let b := match patch.failN with
    | some failN => { b with failN := failN }
    | none => b
  match patch.latencyMs with
  | some latencyMs => { b with latencyMs := latencyMs }
  | none => b

/-- The adapter as a bank port. -/
def port : BankPort SimulatedBankAdapter BankConfigPatch where
  init := {}
  latencyMs := latencyMs
  authorize := authorize
  setConfig := setConfig

/-! ## Laws -/

@[simp] theorem setConfig_store (patch : BankConfigPatch) (b : SimulatedBankAdapter) :
    (setConfig patch b).store = b.store := by
  unfold setConfig
  rcases patch with ⟨m | m, n | n, l | l⟩ <;> rfl

@[simp] theorem setConfig_charges (patch : BankConfigPatch) (b : SimulatedBankAdapter) :
    (setConfig patch b).charges = b.charges := by
  unfold setConfig
  rcases patch with ⟨m | m, n | n, l | l⟩ <;> rfl

/-- What one answered call does: it repeats the stored authorisation, or it charges a key that was
not stored, or it answers with a decline or a retryable error and stores and charges nothing. -/
theorem authorize_cases (req : BankAuthorizeRequest) (b : SimulatedBankAdapter) :
    (∃ o, b.store.lookup req.idempotencyKey = some o ∧ authorize req b = (.resolved o, b)) ∨
    (b.store.lookup req.idempotencyKey = none ∧
      (authorize req b).1 = .resolved (.authorized (bankRef req.idempotencyKey)) ∧
      (authorize req b).2.store = b.store.insert req.idempotencyKey (.authorized (bankRef req.idempotencyKey)) ∧
      (authorize req b).2.charges = b.charges + 1) ∨
    (b.store.lookup req.idempotencyKey = none ∧
      ((authorize req b).1 = .resolved (.declined "insufficient_funds") ∨
        (authorize req b).1 = .resolved (.error true "bank_unavailable")) ∧
      (authorize req b).2.store = b.store ∧ (authorize req b).2.charges = b.charges) := by
  unfold authorize
  cases hl : b.store.lookup req.idempotencyKey with
  | some o => exact Or.inl ⟨o, rfl, rfl⟩
  | none =>
    refine Or.inr ?_
    cases hm : b.mode with
    | alwaysAuthorize => exact Or.inl ⟨rfl, rfl, rfl, rfl⟩
    | alwaysDecline => exact Or.inr ⟨rfl, Or.inl rfl, rfl, rfl⟩
    | alwaysError => exact Or.inr ⟨rfl, Or.inr rfl, rfl, rfl⟩
    | failNThenAuthorize =>
      dsimp only
      split
      · exact Or.inr ⟨rfl, Or.inr rfl, rfl, rfl⟩
      · exact Or.inl ⟨rfl, rfl, rfl, rfl⟩

/-- Everything stored is an authorisation under the reference of its key, and the charges counter
counts the stored keys. -/
structure WF (b : SimulatedBankAdapter) : Prop where
  authorized : ∀ key o, b.store.lookup key = some o → o = .authorized (bankRef key)
  charges : b.charges = b.store.keys.length

theorem init_wf : WF {} := ⟨fun key o h => by simp at h, rfl⟩

theorem setConfig_wf {b : SimulatedBankAdapter} (h : WF b) (patch : BankConfigPatch) : WF (setConfig patch b) :=
  ⟨by simpa using h.authorized, by simpa using h.charges⟩

theorem authorize_wf {b : SimulatedBankAdapter} (h : WF b) (req : BankAuthorizeRequest) :
    WF (authorize req b).2 := by
  rcases authorize_cases req b with ⟨o, -, he⟩ | ⟨hl, -, hs, hc⟩ | ⟨-, -, hs, hc⟩
  · rw [he]; exact h
  · refine ⟨fun key o ho => ?_, ?_⟩
    · rw [hs] at ho
      by_cases hk : key = req.idempotencyKey
      · subst hk
        rw [AList.lookup_insert] at ho
        exact (Option.some.inj ho).symm
      · rw [AList.lookup_insert_ne hk] at ho
        exact h.authorized key o ho
    · have hnot : req.idempotencyKey ∉ b.store.keys := by
        rwa [← AList.mem_keys, ← AList.lookup_eq_none]
      rw [hs, hc, AList.keys_insert, List.erase_of_not_mem hnot, List.length_cons, h.charges]
  · exact ⟨by rw [hs]; exact h.authorized, by rw [hs, hc]; exact h.charges⟩

/-- A stored answer is never replaced. -/
theorem authorize_store_mono {b : SimulatedBankAdapter} {key : String} {o : BankOutcome}
    (h : b.store.lookup key = some o) (req : BankAuthorizeRequest) :
    (authorize req b).2.store.lookup key = some o := by
  rcases authorize_cases req b with ⟨_, -, he⟩ | ⟨hl, -, hs, -⟩ | ⟨-, -, hs, -⟩
  · rw [he]; exact h
  · have hk : key ≠ req.idempotencyKey := by rintro rfl; rw [h] at hl; cases hl
    rw [hs, AList.lookup_insert_ne hk]; exact h
  · rw [hs]; exact h

end SimulatedBankAdapter

end PaymentsProcessor
