/-
Chaos control: `BankConfigService` of the API writes the `bank_config` row and `BankConfigSyncService` of the worker polls
it and sets the adapter. Whether the row has changed is read off `updated_at`, which an update sets to the clock of its
own process, so a change is noticed exactly if its time is later than that of the row that was read before.
-/
import PaymentsProcessor.Base.Transition
import PaymentsProcessor.Bank.Simulated

namespace PaymentsProcessor

/-! ## The row -/

/-- The row `singleton` of `bank_config`; `updatedAt` is the JavaScript time it is read as. -/
structure BankConfig where
  mode : BankMode
  latencyMs : Nat
  failN : Nat
  updatedAt : Int
  deriving DecidableEq

/-- `UpdateBankConfigDto` after validation. -/
structure UpdateBankConfigDto where
  mode : Option BankMode := none
  latencyMs : Option Nat := none
  failN : Option Nat := none
  latencyMs_max : ∀ n ∈ latencyMs, n ≤ 30000 := by decide
  failN_max : ∀ n ∈ failN, n ≤ 100 := by decide

/-- `BankConfigService.update`: the row after its statement, `now` being `new Date()` in the process that runs it. -/
def BankConfig.update (now : Int) (dto : UpdateBankConfigDto) (row : BankConfig) : BankConfig where
  mode := dto.mode.getD row.mode
  latencyMs := dto.latencyMs.getD row.latencyMs
  failN := dto.failN.getD row.failN
  updatedAt := now

/-- The argument of `setConfig` for a row. -/
def BankConfig.patch (row : BankConfig) : BankConfigPatch :=
  { mode := some row.mode, failN := some row.failN, latencyMs := some row.latencyMs }

/-- What a row sets on the adapter. -/
def BankConfig.settings (row : BankConfig) : BankMode × Nat × Nat := (row.mode, row.failN, row.latencyMs)

namespace SimulatedBankAdapter

def settings (b : SimulatedBankAdapter) : BankMode × Nat × Nat := (b.mode, b.failN, b.latencyMs)

theorem setConfig_settings (row : BankConfig) (b : SimulatedBankAdapter) : (b.setConfig row.patch).settings = row.settings :=
  rfl

/-- A call changes none of the settings. -/
theorem authorize_settings (req : BankAuthorizeRequest) (b : SimulatedBankAdapter) :
    (authorize req b).2.settings = b.settings := by
  unfold authorize
  cases b.store.lookup req.idempotencyKey with
  | some o => rfl
  | none =>
    cases hm : b.mode with
    | failNThenAuthorize =>
      dsimp only
      by_cases hn : b.failCount < b.failN
      · rw [if_pos hn]
        simp [settings, hm]
      · rw [if_neg hn]
        simp [settings, charge, hm]
    | _ => simp [settings, charge, hm]

end SimulatedBankAdapter

namespace BankConfigSync

open Transition

/-! ## The system -/

/-- A row as it was read, with the number of updates before. -/
structure Read where
  row : BankConfig
  updates : Nat
  deriving DecidableEq

/-- The row, the adapter, the service's `lastAppliedAt` and what its running `sync_once` has read. `updates` counts the
updates, and `previous` is what the last `sync_once` read. -/
structure State where
  row : BankConfig
  bank : SimulatedBankAdapter := {}
  lastAppliedAt : Option Int := none
  selected : Option Read := none
  updates : Nat := 0
  previous : Option Read := none

/-- The update of the row by any API process, the two halves of `sync_once`, and a call of the bank. -/
inductive Action
  | update (now : Int) (dto : UpdateBankConfigDto)
  | select
  | apply
  | authorize (req : BankAuthorizeRequest)

/-- The test and `setConfig`. -/
def apply (lastAppliedAt : Option Int) (row : BankConfig) (b : SimulatedBankAdapter) : SimulatedBankAdapter :=
  if lastAppliedAt.all (· < row.updatedAt) then b.setConfig row.patch else b

/-- The next `sync_once` is scheduled when the one before has ended. -/
def step (s : State) : Action → Option State
  | .update now dto => some { s with row := s.row.update now dto, updates := s.updates + 1 }
  | .select => if s.selected.isSome then none else some { s with selected := some ⟨s.row, s.updates⟩ }
  | .apply => s.selected.map fun read =>
      { s with
        bank := apply s.lastAppliedAt read.row s.bank
        lastAppliedAt := some read.row.updatedAt
        selected := none
        previous := some read }
  | .authorize req => some { s with bank := (s.bank.authorize req).2 }

/-- The worker starts with whatever row there is. -/
def system (row : BankConfig) : System State Action where
  init := { row := row }
  step := step

/-! ## The law -/

/-- A `sync_once` leaves the adapter with the settings of the row it read, and as it was if there was no update since the
previous one read the row. -/
def Follows (s : State) (a : Action) (s' : State) : Prop :=
  ∀ read, a = .apply → s.selected = some read →
    s'.bank.settings = read.row.settings ∧ (s.previous.map Read.updates = some read.updates → s'.bank = s.bank)

/-- Of two rows that are read one after the other with different settings, the second has the later time. -/
def Noticed (s : State) (a : Action) : Prop :=
  ∀ read previous, a = .apply → s.selected = some read → s.previous = some previous →
    previous.row.updatedAt < read.row.updatedAt ∨ read.row.settings = previous.row.settings

/-! ## What a service has read -/

/-- A row that was read is the present one if there was no update since. -/
def Read.Of (read : Read) (s : State) : Prop := read.updates ≤ s.updates ∧ (read.updates = s.updates → read.row = s.row)

structure Inv (s : State) : Prop where
  stamp : s.lastAppliedAt = s.previous.map fun previous => previous.row.updatedAt
  settings : ∀ previous, s.previous = some previous → s.bank.settings = previous.row.settings
  previous : ∀ previous, s.previous = some previous → previous.Of s
  selected : ∀ read, s.selected = some read → read.Of s
  same : ∀ read previous, s.selected = some read → s.previous = some previous → read.updates = previous.updates →
    read.row = previous.row

variable {row : BankConfig} {s s' : State} {a : Action}

theorem Read.Of.update {read : Read} (h : read.Of s) (hs : s'.updates = s.updates + 1) : read.Of s' := by
  obtain ⟨hle, -⟩ := h
  constructor
  · omega
  · intro hsame
    omega

/-- A service that has read the row twice without an update between keeps the adapter, and one that has applied the row
before sets it if the time is later. -/
theorem follows_iff (h : Inv s) (hs : step s a = some s') : Follows s a s' ↔ Noticed s a := by
  constructor
  · rintro hfollows read previous rfl hread hprevious
    obtain ⟨hset, -⟩ := hfollows read rfl hread
    simp only [step, hread, Option.map_some, Option.some.injEq] at hs
    subst hs
    rw [apply, h.stamp, hprevious] at hset
    by_cases hlater : previous.row.updatedAt < read.row.updatedAt
    · exact Or.inl hlater
    · rw [if_neg (by simpa using hlater)] at hset
      exact Or.inr (hset.symm.trans (h.settings previous hprevious))
  · rintro hnoticed read rfl hread
    simp only [step, hread, Option.map_some, Option.some.injEq] at hs
    subst hs
    rw [apply, h.stamp]
    cases hprevious : s.previous with
    | none => exact ⟨SimulatedBankAdapter.setConfig_settings read.row s.bank, by simp⟩
    | some previous =>
      simp only [Option.map_some, Option.all_some, decide_eq_true_eq, Option.some.injEq]
      by_cases hlater : previous.row.updatedAt < read.row.updatedAt
      · rw [if_pos hlater]
        refine ⟨SimulatedBankAdapter.setConfig_settings read.row s.bank, fun hupdates => ?_⟩
        -- the row would have been read as it was
        rw [h.same read previous hread hprevious hupdates.symm] at hlater
        exact absurd hlater (lt_irrefl _)
      · rw [if_neg hlater]
        refine ⟨?_, fun _ => rfl⟩
        rw [h.settings previous hprevious]
        exact ((hnoticed read previous rfl hread hprevious).resolve_left hlater).symm

theorem Inv.step (h : Inv s) (hC : Noticed s a) (hs : step s a = some s') : Inv s' := by
  -- the settings follow the row because the step before it did
  have hfollows := (follows_iff h hs).2 hC
  cases a with
  | update now dto =>
    cases hs
    constructor
    · exact h.stamp
    · exact h.settings
    · exact fun previous hprevious => (h.previous previous hprevious).update rfl
    · exact fun read hread => (h.selected read hread).update rfl
    · exact h.same
  | select =>
    simp only [BankConfigSync.step] at hs
    split at hs
    · cases hs
    · cases hs
      constructor
      · exact h.stamp
      · exact h.settings
      · exact h.previous
      · rintro read hread
        cases hread
        exact ⟨le_rfl, fun _ => rfl⟩
      · rintro read previous hread hprevious hupdates
        cases hread
        -- no update since the previous select, so the row is still the one it read
        exact ((h.previous previous hprevious).2 hupdates.symm).symm
  | apply =>
    simp only [BankConfigSync.step] at hs
    obtain ⟨read, hread, rfl⟩ := Option.map_eq_some_iff.1 hs
    constructor
    · rfl
    · rintro previous hprevious
      cases hprevious
      exact (hfollows read rfl hread).1
    · rintro previous hprevious
      cases hprevious
      exact h.selected read hread
    · intro read hnone
      cases hnone
    · intro read previous hnone
      cases hnone
  | authorize req =>
    cases hs
    constructor
    · exact h.stamp
    · intro previous hprevious
      rw [SimulatedBankAdapter.authorize_settings]
      exact h.settings previous hprevious
    · exact h.previous
    · exact h.selected
    · exact h.same

theorem inv (h : Reach (system row) Noticed s) : Inv s :=
  h.invariant (I := Inv)
    ⟨rfl, fun _ h => (by cases h), fun _ h => (by cases h), fun _ h => (by cases h), fun _ _ => by rintro ⟨⟩⟩
    fun _ _ _ _ hI hC hs => hI.step hC hs

/-- In every run, each `sync_once` leaves the adapter with the settings of the row it read, and as it was without an update
since the previous one, if and only if of two rows that are read one after the other with different settings the second has
always the later time. -/
theorem follows_run_iff {l : List (State × Action)} (h : Transition.Run (system row) l s) :
    (∀ x ∈ l, ∀ s', step x.1 x.2 = some s' → Follows x.1 x.2 s') ↔ ∀ x ∈ l, Noticed x.1 x.2 :=
  h.forall_steps_iff (C := Noticed) (Q := Follows) fun _ _ _ hr hs => follows_iff (inv hr) hs

/-- The row as it is created. -/
def created : BankConfig := ⟨.alwaysAuthorize, 200, 2, 0⟩

/-- A bank that fails twice is set and called, and polled again after the first failure. -/
def failing : List Action :=
  [.update 1000 { mode := some .failNThenAuthorize }, .select, .apply, .authorize ⟨"0", 100, "EUR", "0"⟩, .select, .apply]

theorem follows_run_failing : ∃ l s, Transition.Run (system created) l s ∧ s.bank.failCount = 1 ∧
    ((∀ x ∈ l, ∀ s', step x.1 x.2 = some s' → Follows x.1 x.2 s') ↔ ∀ x ∈ l, Noticed x.1 x.2) := by
  obtain ⟨l, s, hl, hp⟩ := exists_run_of_exec (show (exec (system created) (system created).init failing).any
    (fun s => s.bank.failCount = 1) = true by decide)
  exact ⟨l, s, hl, of_decide_eq_true hp, follows_run_iff hl⟩

/-- An operator switches the bank to errors and back, the second time through a process whose clock is a second late. -/
def behind : List Action :=
  [.update 5000 { mode := some .alwaysError }, .select, .apply, .update 4000 { mode := some .alwaysAuthorize }, .select]

/-- The bank goes on failing. -/
theorem change_missed : ∃ s s', Reach (system created) Free s ∧ step s .apply = some s' ∧ ¬ Follows s .apply s' ∧
    s'.bank.mode = .alwaysError ∧ s'.row.mode = .alwaysAuthorize := by
  obtain ⟨s, hs, hp⟩ := exists_reach_of_exec (show (exec (system created) (system created).init behind).any
    (fun s => (step s .apply).any fun s' => s.selected.any fun read =>
      s'.bank.settings ≠ read.row.settings ∧ s'.bank.mode = .alwaysError ∧ s'.row.mode = .alwaysAuthorize) = true by decide)
  obtain ⟨s', hstep, hp⟩ := (Option.any_eq_true _ _).1 hp
  obtain ⟨read, hread, hp⟩ := (Option.any_eq_true _ _).1 hp
  obtain ⟨hne, hbank, hrow⟩ := of_decide_eq_true hp
  exact ⟨s, s', hs, hstep, fun h => hne (h read rfl hread).1, hbank, hrow⟩

end BankConfigSync

end PaymentsProcessor
