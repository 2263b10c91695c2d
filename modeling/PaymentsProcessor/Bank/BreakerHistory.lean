/-
The circuit breaker against its history: whatever calls of `allow` and `record` came before, in any order, its state and
its next answer are told by the failures recorded since the last success and by what was admitted since the last failure.
-/
import PaymentsProcessor.Bank.CircuitBreaker
import PaymentsProcessor.Base.Transition
import Mathlib.Tactic

namespace PaymentsProcessor.CircuitBreaker

open Transition

/-! ## Histories -/

/-- A call with the time it was made at and what it answered. -/
inductive Entry
  | allowed (time : Nat) (answer : Bool)
  | recorded (time : Nat) (success : Bool)
  deriving DecidableEq

def Entry.isRecord : Entry → Bool
  | .allowed _ _ => false
  | .recorded _ _ => true

/-- The failures since the last success, the newest call first. -/
def failuresSince : List Entry → Nat
  | [] => 0
  | .allowed _ _ :: h => failuresSince h
  | .recorded _ true :: _ => 0
  | .recorded _ false :: h => failuresSince h + 1

/-- When the last failure was recorded. -/
def lastFailure : List Entry → Option Nat
  | [] => none
  | .recorded time false :: _ => some time
  | .recorded _ true :: h => lastFailure h
  | .allowed _ _ :: h => lastFailure h

/-- Some `allow` has been true since the last failure was recorded. -/
def admittedSince : List Entry → Bool
  | [] => false
  | .recorded _ false :: _ => false
  | .recorded _ true :: h => admittedSince h
  | .allowed _ answer :: h => answer || admittedSince h

/-! ## The system -/

structure Traced where
  now : Nat
  breaker : CircuitBreaker
  /-- the newest call first -/
  history : List Entry

inductive Call
  | tick (ms : Nat)
  | allow
  | record (success : Bool)

/-- The clock goes on, or a call is made. -/
def step (cfg : Config) (s : Traced) : Call → Option Traced
  | .tick ms => some { s with now := s.now + ms }
  | .allow =>
    let answer := s.breaker.allow cfg s.now
    some { s with breaker := answer.2, history := .allowed s.now answer.1 :: s.history }
  | .record success =>
    some { s with breaker := s.breaker.record cfg s.now success, history := .recorded s.now success :: s.history }

/-- A breaker created at a time. -/
def system (cfg : Config) (created : Nat) : System Traced Call where
  init := ⟨created, { openedAt := created }, []⟩
  step := step cfg

variable {cfg : Config} {created : Nat} {s s' : Traced} {a : Call} {C : Traced → Call → Prop}

/-! ## The invariant -/

/-- The three fields by the history. -/
structure TraceInv (cfg : Config) (s : Traced) : Prop where
  failures : s.breaker.failures = failuresSince s.history
  closed : s.breaker.state = .CLOSED ↔ failuresSince s.history < cfg.breakerThreshold
  openedAt : s.breaker.state ≠ .CLOSED → lastFailure s.history = some s.breaker.openedAt
  halfOpen : s.breaker.state ≠ .CLOSED → (s.breaker.state = .HALF_OPEN ↔ admittedSince s.history = true)

/-- The ways `allow` can go. -/
theorem allow_cases (cfg : Config) (now : Nat) (b : CircuitBreaker) :
    (b.state = .CLOSED ∧ b.allow cfg now = (true, b)) ∨
    (b.state = .OPEN ∧ b.openedAt + cfg.breakerOpenMs ≤ now ∧ b.allow cfg now = (true, { b with state := .HALF_OPEN })) ∨
    (b.state = .OPEN ∧ now < b.openedAt + cfg.breakerOpenMs ∧ b.allow cfg now = (false, b)) ∨
    (b.state = .HALF_OPEN ∧ b.allow cfg now = (false, b)) := by
  unfold CircuitBreaker.allow
  cases hst : b.state with
  | CLOSED => simp
  | HALF_OPEN => simp
  | OPEN =>
    by_cases hdue : b.openedAt + cfg.breakerOpenMs ≤ now
    · simp [hdue]
    · simp [hdue, Nat.lt_of_not_le hdue]

/-- The ways `record` can go. -/
theorem record_cases (cfg : Config) (now : Nat) (success : Bool) (b : CircuitBreaker) :
    (success = true ∧ b.record cfg now success = { b with state := .CLOSED, failures := 0 }) ∨
    (success = false ∧ (b.state = .HALF_OPEN ∨ cfg.breakerThreshold ≤ b.failures + 1) ∧
      b.record cfg now success = { state := .OPEN, openedAt := now, failures := b.failures + 1 }) ∨
    (success = false ∧ b.failures + 1 < cfg.breakerThreshold ∧
      b.record cfg now success = { b with failures := b.failures + 1 }) := by
  unfold CircuitBreaker.record
  cases success with
  | true => simp
  | false =>
    by_cases hhalf : b.state = .HALF_OPEN
    · simp [hhalf]
    · by_cases hmany : cfg.breakerThreshold ≤ b.failures + 1
      · simp [hhalf, hmany]
      · simp [hhalf, hmany]
        omega

theorem TraceInv.allow (h : TraceInv cfg s) (hs : step cfg s .allow = some s') : TraceInv cfg s' := by
  cases hs
  obtain ⟨hfailures, hclosed, hopened, hhalf⟩ := h
  rcases allow_cases cfg s.now s.breaker with ⟨hst, he⟩ | ⟨hst, -, he⟩ | ⟨hst, -, he⟩ | ⟨hst, he⟩
  · rw [he]
    exact ⟨hfailures, hclosed, fun hne => absurd hst hne, fun hne => absurd hst hne⟩
  · rw [he]
    refine ⟨hfailures, ?_, fun _ => hopened (by simp [hst]), fun _ => by simp [admittedSince]⟩
    simpa [hst, failuresSince] using hclosed
  · rw [he]
    refine ⟨hfailures, hclosed, hopened, fun hne => ?_⟩
    simpa [admittedSince] using hhalf hne
  · rw [he]
    refine ⟨hfailures, hclosed, hopened, fun hne => ?_⟩
    simpa [admittedSince] using hhalf hne

theorem TraceInv.record (h : TraceInv cfg s) {success : Bool} (hs : step cfg s (.record success) = some s') :
    TraceInv cfg s' := by
  cases hs
  obtain ⟨hfailures, hclosed, hopened, hhalf⟩ := h
  have hpos : 0 < cfg.breakerThreshold := cfg.breakerThreshold_pos
  rcases record_cases cfg s.now success s.breaker with ⟨rfl, he⟩ | ⟨rfl, hmany, he⟩ | ⟨rfl, hfew, he⟩
  · rw [he]
    exact ⟨rfl, by simpa [failuresSince] using hpos, fun hne => absurd rfl hne, fun hne => absurd rfl hne⟩
  · rw [he]
    -- a breaker that is not closed has its failures already
    have hopen : cfg.breakerThreshold ≤ failuresSince s.history + 1 := by
      rcases hmany with hst | hmany
      · rw [hst] at hclosed
        have hfull : cfg.breakerThreshold ≤ failuresSince s.history := by simpa using hclosed
        omega
      · omega
    refine ⟨congrArg (· + 1) hfailures, ?_, fun _ => rfl, fun _ => by simp [admittedSince]⟩
    simpa [failuresSince] using hopen
  · rw [he]
    -- below the threshold the breaker was closed, and stays so
    have hst : s.breaker.state = .CLOSED := hclosed.2 (by omega)
    refine ⟨congrArg (· + 1) hfailures, ?_, fun hne => absurd hst hne, fun hne => absurd hst hne⟩
    simp only [failuresSince, hst, true_iff]
    omega

theorem traceInv (h : Reach (system cfg created) C s) : TraceInv cfg s := by
  refine h.invariant (I := TraceInv cfg) ⟨rfl, ?_, fun hne => absurd rfl hne, fun hne => absurd rfl hne⟩
    fun s a s' _ hI _ hs => ?_
  · have hpos : 0 < cfg.breakerThreshold := cfg.breakerThreshold_pos
    simpa [system, failuresSince] using hpos
  · cases a with
    | tick ms =>
      cases hs
      exact ⟨hI.failures, hI.closed, hI.openedAt, hI.halfOpen⟩
    | allow => exact hI.allow hs
    | record success => exact hI.record hs

/-! ## Probes -/

/-- Of two admissions without a record between them, the first was not a probe. -/
def ProbesApart (cfg : Config) (history : List Entry) : Prop :=
  ∀ later mid earlier time time', history = later ++ .allowed time' true :: (mid ++ .allowed time true :: earlier) →
    cfg.breakerThreshold ≤ failuresSince earlier → ∃ e ∈ mid, e.isRecord = true

theorem failuresSince_append {mid : List Entry} (hmid : ∀ e ∈ mid, e.isRecord = false) (earlier : List Entry) :
    failuresSince (mid ++ earlier) = failuresSince earlier := by
  induction mid with
  | nil => rfl
  | cons e mid ih =>
    have hrest := ih fun e' he' => hmid e' (List.mem_cons_of_mem _ he')
    cases e with
    | allowed time answer => exact hrest
    | recorded time success => cases hmid _ List.mem_cons_self

theorem admittedSince_append {mid : List Entry} (hmid : ∀ e ∈ mid, e.isRecord = false) {earlier : List Entry}
    (h : admittedSince earlier = true) : admittedSince (mid ++ earlier) = true := by
  induction mid with
  | nil => exact h
  | cons e mid ih =>
    have hrest := ih fun e' he' => hmid e' (List.mem_cons_of_mem _ he')
    cases e with
    | allowed time answer => simp [admittedSince, hrest]
    | recorded time success => cases hmid _ List.mem_cons_self

/-- What `allow` answers next, and when. -/
theorem TraceInv.answers (h : TraceInv cfg s) (now : Nat) :
    (s.breaker.state = .CLOSED → (s.breaker.allow cfg now).1 = true) ∧
    (s.breaker.state ≠ .CLOSED → ((s.breaker.allow cfg now).1 = true ↔
      (∃ time, lastFailure s.history = some time ∧ time + cfg.breakerOpenMs ≤ now) ∧
        admittedSince s.history = false)) := by
  obtain ⟨-, -, hopened, hhalf⟩ := h
  rcases allow_cases cfg now s.breaker with ⟨hst, he⟩ | ⟨hst, hdue, he⟩ | ⟨hst, hearly, he⟩ | ⟨hst, he⟩
  · exact ⟨fun _ => by rw [he], fun hne => absurd hst hne⟩
  · rw [hst] at hopened hhalf ⊢
    have hquiet : admittedSince s.history = false := by simpa using hhalf
    refine ⟨by simp, fun _ => ?_⟩
    simp [he, hopened (by simp), hquiet, hdue]
  · rw [hst] at hopened ⊢
    refine ⟨by simp, fun _ => ?_⟩
    simp [he, hopened (by simp), Nat.not_le.2 hearly]
  · rw [hst] at hhalf ⊢
    have hadmitted : admittedSince s.history = true := by simpa using hhalf
    refine ⟨by simp, fun _ => ?_⟩
    simp [he, hadmitted]

theorem probesApart (h : Reach (system cfg created) C s) : ProbesApart cfg s.history := by
  induction h with
  | init => intro later mid earlier time time' heq; cases later <;> cases heq
  | @step s s' a hr _ hs ih =>
    have hI := traceInv hr
    cases a with
    | tick ms => cases hs; exact ih
    | record success =>
      cases hs
      rintro (_ | ⟨e, later⟩) mid earlier time time' heq hopen
      · cases heq
      · exact ih later mid earlier time time' (List.cons.inj heq).2 hopen
    | allow =>
      cases hs
      rintro (_ | ⟨e, later⟩) mid earlier time time' heq hopen
      · obtain ⟨hentry, hrest⟩ := List.cons.inj heq
        have hanswer : (s.breaker.allow cfg s.now).1 = true := (Entry.allowed.inj hentry).2
        by_contra hnone
        have hmid : ∀ e ∈ mid, e.isRecord = false := fun e he => by
          by_contra hrecord
          exact hnone ⟨e, he, by simpa using hrecord⟩
        -- the breaker was not closed at the first admission, nor is it now
        have hfailures : cfg.breakerThreshold ≤ failuresSince s.history := by
          rw [hrest, failuresSince_append hmid]
          exact hopen
        have hnot : s.breaker.state ≠ .CLOSED := fun hc => absurd (hI.closed.1 hc) (by omega)
        have hquiet := (((hI.answers s.now).2 hnot).1 hanswer).2
        rw [hrest, admittedSince_append hmid (by simp [admittedSince])] at hquiet
        cases hquiet
      · exact ih later mid earlier time time' (List.cons.inj heq).2 hopen

/-! ## The law -/

/-- After any calls the breaker is closed exactly while the failures since the last success are fewer than the threshold,
and then it admits; otherwise it admits exactly when the last failure is far enough back and nothing was admitted since;
so there is a record between any two probes. -/
theorem breaker_law (h : Reach (system cfg created) C s) :
    (s.breaker.state = .CLOSED ↔ failuresSince s.history < cfg.breakerThreshold) ∧
    (∀ now, s.now ≤ now → s.breaker.state = .CLOSED → (s.breaker.allow cfg now).1 = true) ∧
    (∀ now, s.now ≤ now → s.breaker.state ≠ .CLOSED → ((s.breaker.allow cfg now).1 = true ↔
      (∃ time, lastFailure s.history = some time ∧ time + cfg.breakerOpenMs ≤ now) ∧
        admittedSince s.history = false)) ∧
    ProbesApart cfg s.history := by
  have hI := traceInv h
  exact ⟨hI.closed, fun now _ => (hI.answers now).1, fun now _ => (hI.answers now).2, probesApart h⟩

/-- Two failures open a breaker of threshold two; after its time it admits one probe. -/
theorem breaker_law_opened : ∃ s, Reach (system { breakerThreshold := 2 } 0) Free s ∧
    failuresSince s.history = 2 ∧ s.breaker.state ≠ .CLOSED ∧ (s.breaker.allow { breakerThreshold := 2 } 10000).1 = true := by
  have hs : exec (system { breakerThreshold := 2 } 0) (system { breakerThreshold := 2 } 0).init
      [.allow, .record false, .record false] = some ⟨0, ⟨.OPEN, 0, 2⟩,
        [.recorded 0 false, .recorded 0 false, .allowed 0 true]⟩ := rfl
  have hr := Reach.init.exec hs
  have hlaw := breaker_law hr
  have hnot : (⟨.OPEN, 0, 2⟩ : CircuitBreaker).state ≠ .CLOSED := by simp
  exact ⟨_, hr, rfl, hnot, (hlaw.2.2.1 10000 (by decide) hnot).2 ⟨⟨0, rfl, by decide⟩, rfl⟩⟩

end PaymentsProcessor.CircuitBreaker
