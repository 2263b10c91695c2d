/-
Rounds of a transition system: paths of steps that pass a test, and a relation, which may depend on the number of the
round, taken one time after the other. Rounds that go on exactly while their number is below a bound come to the bound
and no further.
-/
import PaymentsProcessor.Base.Transition
import Mathlib.Logic.Relation

namespace Transition

variable {σ α : Type} {S : System σ α} {p : α → Bool} {s t : σ}

/-! ## Paths -/

/-- Steps whose actions all pass the test. -/
abbrev Path (S : System σ α) (p : α → Bool) : σ → σ → Prop :=
  Relation.ReflTransGen fun s t => ∃ a, p a = true ∧ S.step s a = some t

theorem Path.single (a : α) (ha : p a = true) (hs : S.step s a = some t) : Path S p s t :=
  Relation.ReflTransGen.single ⟨a, ha, hs⟩

theorem Path.mono_test {q : α → Bool} (h : Path S p s t) (hpq : ∀ a, p a = true → q a = true) : Path S q s t := by
  induction h with
  | refl => exact .refl
  | tail _ hstep ih =>
    obtain ⟨a, ha, hs⟩ := hstep
    exact ih.tail ⟨a, hpq a ha, hs⟩

/-- The states an execution goes through are on a path. -/
theorem Path.of_exec {as : List α} : ∀ {s t : σ}, (∀ a ∈ as, p a = true) → exec S s as = some t → Path S p s t := by
  induction as with
  | nil => intro s t _ h; cases h; exact .refl
  | cons a as ih =>
    intro s t hp h
    obtain ⟨u, hu, h⟩ := Option.bind_eq_some_iff.1 h
    exact (Path.single a (hp a List.mem_cons_self) hu).trans (ih (fun b hb => hp b (List.mem_cons_of_mem _ hb)) h)

theorem Reach.path (hr : Reach S Free s) (h : Path S p s t) : Reach S Free t := by
  induction h with
  | refl => exact hr
  | tail _ hstep ih =>
    obtain ⟨a, -, hs⟩ := hstep
    exact .step ih trivial hs

/-- What such steps keep, a path keeps. -/
theorem Path.invariant {I : σ → Prop} (hr : Reach S Free s) (h : Path S p s t) (hI : I s)
    (hstep : ∀ u a u', Reach S Free u → I u → p a = true → S.step u a = some u' → I u') : I t := by
  induction h with
  | refl => exact hI
  | tail hbefore hlast ih =>
    obtain ⟨a, ha, hs⟩ := hlast
    exact hstep _ a _ (hr.path hbefore) ih ha hs

/-! ## Rounds -/

/-- So many rounds from a state on, the `n`-th of them in the relation `R n`. -/
inductive Rounds (R : ℕ → σ → σ → Prop) (s : σ) : ℕ → σ → Prop
  | start : Rounds R s 0 s
  | next {n : ℕ} {t u : σ} : Rounds R s n t → R n t u → Rounds R s (n + 1) u

/-- Rounds of one relation, with one more before them. -/
theorem Rounds.cons {R : σ → σ → Prop} {n : ℕ} {u : σ} (h : R s t) (hrest : Rounds (fun _ => R) t n u) :
    Rounds (fun _ => R) s (n + 1) u := by
  induction hrest with
  | start => exact .next .start h
  | next _ hround ih => exact .next ih hround

/-- An invariant that each round before the bound keeps, and that leaves no round at the bound, holds after every number
of rounds, and the bound is not passed. -/
theorem Rounds.invariant {R : ℕ → σ → σ → Prop} {I : ℕ → σ → Prop} {n bound : ℕ} (h : Rounds R s n t) (hI : I 0 s)
    (hnext : ∀ n t u, n < bound → I n t → R n t u → I (n + 1) u) (hstop : ∀ t u, I bound t → ¬ R bound t u) :
    n ≤ bound ∧ I n t := by
  induction h with
  | start => exact ⟨Nat.zero_le _, hI⟩
  | @next n t u _ hround ih =>
    obtain ⟨hle, hIn⟩ := ih
    rcases Nat.lt_or_eq_of_le hle with hlt | rfl
    · exact ⟨hlt, hnext n t u hlt hIn hround⟩
    · exact absurd hround (hstop t u hIn)

end Transition
