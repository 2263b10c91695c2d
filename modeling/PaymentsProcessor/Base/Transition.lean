/-
Transition systems given by a partial step function: the states reached by steps that all meet a
condition, the induction rule for their invariants, executions of a list of actions, and runs
with their steps listed, for statements of the form "every state of the run is good exactly when
every step of the run meets the condition".
-/
import Mathlib.Data.List.Basic

namespace Transition

/-- A transition system: an initial state and a step function, `none` where the action is not
enabled. -/
structure System (σ α : Type) where
  init : σ
  step : σ → α → Option σ

variable {σ α : Type} {S : System σ α} {C D : σ → α → Prop}

/-- The condition every step meets. -/
def Free : σ → α → Prop := fun _ _ => True

/-- The states reached from the initial one by steps that all meet `C`. -/
inductive Reach (S : System σ α) (C : σ → α → Prop) : σ → Prop
  | init : Reach S C S.init
  | step {s s' : σ} {a : α} : Reach S C s → C s a → S.step s a = some s' → Reach S C s'

theorem Reach.mono (hCD : ∀ s a, C s a → D s a) {s : σ} (h : Reach S C s) : Reach S D s := by
  induction h with
  | init => exact .init
  | step _ hc hs ih => exact .step ih (hCD _ _ hc) hs

theorem Reach.free {s : σ} (h : Reach S C s) : Reach S Free s := h.mono fun _ _ _ => trivial

/-- What holds initially and is kept by every step between reached states holds of every reached
state. -/
theorem Reach.invariant {I : σ → Prop} {s : σ} (h : Reach S C s) (hinit : I S.init)
    (hstep : ∀ s a s', Reach S C s → I s → C s a → S.step s a = some s' → I s') : I s := by
  induction h with
  | init => exact hinit
  | step hr hc hs ih => exact hstep _ _ _ hr ih hc hs

/-! ## Executions -/

/-- Execute a list of actions. -/
def exec (S : System σ α) : σ → List α → Option σ
  | s, [] => some s
  | s, a :: as => (S.step s a).bind fun s' => exec S s' as

/-- Execute a list of actions as long as every step meets `C`. -/
def execIf (S : System σ α) (C : σ → α → Prop) [∀ s a, Decidable (C s a)] : σ → List α → Option σ
  | s, [] => some s
  | s, a :: as => if C s a then (S.step s a).bind fun s' => execIf S C s' as else none

theorem Reach.exec {as : List α} : ∀ {s t : σ}, Reach S Free s → Transition.exec S s as = some t →
    Reach S Free t := by
  induction as with
  | nil => intro s t hs h; cases h; exact hs
  | cons a as ih =>
    intro s t hs h
    obtain ⟨s', h1, h2⟩ := Option.bind_eq_some_iff.1 h
    exact ih (.step hs trivial h1) h2

theorem Reach.execIf [∀ s a, Decidable (C s a)] {as : List α} : ∀ {s t : σ}, Reach S C s →
    Transition.execIf S C s as = some t → Reach S C t := by
  induction as with
  | nil => intro s t hs h; cases h; exact hs
  | cons a as ih =>
    intro s t hs h
    unfold Transition.execIf at h
    split at h
    · rename_i hc
      obtain ⟨s', h1, h2⟩ := Option.bind_eq_some_iff.1 h
      exact ih (.step hs hc h1) h2
    · cases h

/-- A test that the state after executing `as` passes is passed by some reached state. -/
theorem exists_reach_of_exec {as : List α} {p : σ → Bool}
    (h : (exec S S.init as).any p = true) : ∃ s, Reach S Free s ∧ p s = true := by
  obtain ⟨s, hs, hp⟩ := (Option.any_eq_true _ _).1 h
  exact ⟨s, Reach.init.exec hs, hp⟩

theorem exists_reach_of_execIf [∀ s a, Decidable (C s a)] {as : List α} {p : σ → Bool}
    (h : (execIf S C S.init as).any p = true) : ∃ s, Reach S C s ∧ p s = true := by
  obtain ⟨s, hs, hp⟩ := (Option.any_eq_true _ _).1 h
  exact ⟨s, Reach.init.execIf hs, hp⟩

/-! ## Runs with their steps -/

/-- A run from the initial state to `s`, with the state and the action of each of its steps. -/
inductive Run (S : System σ α) : List (σ × α) → σ → Prop
  | init : Run S [] S.init
  | step {l : List (σ × α)} {s s' : σ} {a : α} : Run S l s → S.step s a = some s' →
      Run S (l ++ [(s, a)]) s'

/-- The states of a run. -/
def states (l : List (σ × α)) (s : σ) : List σ := l.map Prod.fst ++ [s]

theorem states_snoc (l : List (σ × α)) (s s' : σ) (a : α) :
    states (l ++ [(s, a)]) s' = states l s ++ [s'] := by
  simp [states]

theorem Run.reach {l : List (σ × α)} {s : σ} (h : Run S l s) (hC : ∀ x ∈ l, C x.1 x.2) :
    Reach S C s := by
  induction h with
  | init => exact .init
  | step _ hs ih =>
    refine .step (ih fun x hx => hC x (List.mem_append_left _ hx)) ?_ hs
    exact hC _ (List.mem_append_right _ (List.mem_singleton_self _))

/-- The states in which the steps of a run are taken are reached by such steps. -/
theorem Run.reach_of_mem_of {l : List (σ × α)} {s : σ} (h : Run S l s) (hC : ∀ x ∈ l, C x.1 x.2) {x : σ × α}
    (hx : x ∈ l) : Reach S C x.1 ∧ ∃ s', S.step x.1 x.2 = some s' := by
  induction h with
  | init => cases hx
  | @step l s s' a hr hs ih =>
    have hbefore : ∀ y ∈ l, C y.1 y.2 := fun y hy => hC y (List.mem_append_left _ hy)
    rcases List.mem_append.1 hx with hx | hx
    · exact ih hbefore hx
    · rw [List.mem_singleton] at hx
      subst hx
      exact ⟨hr.reach hbefore, s', hs⟩

/-- The states in which the steps of a run are taken are reached. -/
theorem Run.reach_of_mem {l : List (σ × α)} {s : σ} (h : Run S l s) {x : σ × α} (hx : x ∈ l) :
    Reach S Free x.1 ∧ ∃ s', S.step x.1 x.2 = some s' :=
  h.reach_of_mem_of (fun _ _ => trivial) hx

/-- What holds of the empty run and is kept by every step holds of every run. -/
theorem Run.invariant {I : List (σ × α) → σ → Prop} {l : List (σ × α)} {s : σ} (h : Run S l s) (hinit : I [] S.init)
    (hstep : ∀ l s a s', Run S l s → I l s → S.step s a = some s' → I (l ++ [(s, a)]) s') : I l s := by
  induction h with
  | init => exact hinit
  | step hr hs ih => exact hstep _ _ _ _ hr ih hs

theorem Run.exists_of_exec {as : List α} : ∀ {l : List (σ × α)} {s t : σ}, Run S l s →
    Transition.exec S s as = some t → ∃ l', Run S (l ++ l') t ∧ l'.map Prod.snd = as := by
  induction as with
  | nil => intro l s t hs h; cases h; exact ⟨[], by simpa using hs, rfl⟩
  | cons a as ih =>
    intro l s t hs h
    obtain ⟨s', h1, h2⟩ := Option.bind_eq_some_iff.1 h
    obtain ⟨l', h3, h4⟩ := ih (.step hs h1) h2
    exact ⟨(s, a) :: l', by simpa using h3, by simp [h4]⟩

/-- A test that the state after executing `as` passes is passed at the end of some run. -/
theorem exists_run_of_exec {as : List α} {p : σ → Bool} (h : (Transition.exec S S.init as).any p = true) :
    ∃ l s, Run S l s ∧ p s = true := by
  obtain ⟨s, hs, hp⟩ := (Option.any_eq_true _ _).1 h
  obtain ⟨l, hl, -⟩ := Run.init.exists_of_exec hs
  exact ⟨[] ++ l, s, hl, hp⟩

/-- If a step that meets `D` leads from a good state to a good state exactly when it meets `C`, the states of
a run whose steps meet `D` are all good exactly when its steps all meet `C`. -/
theorem Run.forall_iff_of {P : σ → Prop} (hinit : P S.init)
    (hstep : ∀ s a s', Reach S D s → Reach S C s → D s a → P s → S.step s a = some s' → (P s' ↔ C s a))
    {l : List (σ × α)} {s : σ} (h : Run S l s) (hD : ∀ x ∈ l, D x.1 x.2) :
    (∀ t ∈ states l s, P t) ↔ ∀ x ∈ l, C x.1 x.2 := by
  induction h with
  | init => simpa [states] using hinit
  | @step l s s' a hr hs ih =>
    have hDl : ∀ x ∈ l, D x.1 x.2 := fun x hx => hD x (List.mem_append_left _ hx)
    have hDa : D s a := hD (s, a) (by simp)
    rw [states_snoc]
    constructor
    · intro hP
      have hl := (ih hDl).1 fun t ht => hP t (List.mem_append_left _ ht)
      have hPs : P s := hP s (by simp [states])
      have hPs' : P s' := hP s' (by simp)
      intro x hx
      rcases List.mem_append.1 hx with hx | hx
      · exact hl x hx
      · rw [List.mem_singleton] at hx
        subst hx
        exact (hstep s a s' (hr.reach hDl) (hr.reach hl) hDa hPs hs).1 hPs'
    · intro hC
      have hl : ∀ x ∈ l, C x.1 x.2 := fun x hx => hC x (List.mem_append_left _ hx)
      have hP := (ih hDl).2 hl
      have hPs : P s := hP s (by simp [states])
      intro t ht
      rcases List.mem_append.1 ht with ht | ht
      · exact hP t ht
      · rw [List.mem_singleton] at ht
        subst ht
        exact (hstep s a t (hr.reach hDl) (hr.reach hl) hDa hPs hs).2 (hC (s, a) (by simp))

/-- If a step from a good state leads to a good state exactly when it meets `C`, the states of a
run are all good exactly when its steps all meet `C`. -/
theorem Run.forall_iff {P : σ → Prop} (hinit : P S.init)
    (hstep : ∀ s a s', Reach S C s → P s → S.step s a = some s' → (P s' ↔ C s a))
    {l : List (σ × α)} {s : σ} (h : Run S l s) :
    (∀ t ∈ states l s, P t) ↔ ∀ x ∈ l, C x.1 x.2 :=
  h.forall_iff_of (D := Free) hinit (fun s a s' _ hC _ hP hs => hstep s a s' hC hP hs) fun _ _ => trivial

/-- If a step is good exactly when it meets `C`, as long as those before it met `C`, the steps of a run are all good
exactly when they all meet `C`. -/
theorem Run.forall_steps_iff {Q : σ → α → σ → Prop}
    (hstep : ∀ s a s', Reach S C s → S.step s a = some s' → (Q s a s' ↔ C s a)) {l : List (σ × α)} {s : σ}
    (h : Run S l s) : (∀ x ∈ l, ∀ s', S.step x.1 x.2 = some s' → Q x.1 x.2 s') ↔ ∀ x ∈ l, C x.1 x.2 := by
  induction h with
  | init => simp
  | @step l s s' a hr hs ih =>
    simp only [List.forall_mem_append, List.forall_mem_singleton]
    constructor
    · rintro ⟨hl, hlast⟩
      have hC := ih.1 hl
      exact ⟨hC, (hstep s a s' (hr.reach hC) hs).1 (hlast s' hs)⟩
    · rintro ⟨hl, hlast⟩
      refine ⟨ih.2 hl, fun t ht => ?_⟩
      exact (hstep s a t (hr.reach hl) ht).2 hlast

end Transition
