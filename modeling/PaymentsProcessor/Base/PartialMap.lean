/-
Partial maps as functions into `Option`: what holds of every entry still holds when one entry is set
or erased, or all are mapped, if it holds of the others and of the new one; and of finitely many entries
some key is always free.
-/
import Mathlib.Data.Set.Finite.Basic
import Mathlib.Data.Set.Finite.Range
import Mathlib.Logic.Function.Basic

namespace PartialMap

variable {ι α : Type} {f : ι → Option α} {P : ι → α → Prop} {i : ι} {x : α}

/-- `P` holds of every entry. -/
def All (f : ι → Option α) (P : ι → α → Prop) : Prop := ∀ ⦃i x⦄, f i = some x → P i x

/-- `P` holds of every entry but perhaps the one of `i`. -/
def AllBut (f : ι → Option α) (i : ι) (P : ι → α → Prop) : Prop := ∀ ⦃j x⦄, j ≠ i → f j = some x → P j x

theorem All.but (h : All f P) : AllBut f i P := fun _ _ _ hx => h hx

theorem all_empty : All (fun _ => none) P := fun _ _ h => by cases h

theorem All.mono {Q : ι → α → Prop} (h : All f P) (hPQ : ∀ i x, P i x → Q i x) : All f Q :=
  fun i x hx => hPQ i x (h hx)

theorem All.map (g : ι → α → α) (h : All f fun i x => P i (g i x)) : All (fun i => (f i).map (g i)) P := by
  intro i x hx
  obtain ⟨y, hy, rfl⟩ := Option.map_eq_some_iff.1 hx
  exact h hy

/-- Every value of a list looked up whole is the value of one of its keys. -/
theorem exists_of_mem_mapM {g : ι → Option α} : ∀ {l : List ι} {xs : List α}, l.mapM g = some xs →
    ∀ x ∈ xs, ∃ i ∈ l, g i = some x
  | [], _, h, x, hx => by cases h; cases hx
  | i :: l, xs, h, x, hx => by
    rw [List.mapM_cons] at h
    obtain ⟨y, hy, h⟩ := Option.bind_eq_some_iff.1 h
    obtain ⟨ys, hys, h⟩ := Option.bind_eq_some_iff.1 h
    cases h
    rcases List.mem_cons.1 hx with rfl | hmem
    · exact ⟨i, List.mem_cons_self, hy⟩
    · obtain ⟨j, hj, hx⟩ := exists_of_mem_mapM hys x hmem
      exact ⟨j, List.mem_cons_of_mem _ hj, hx⟩

variable [DecidableEq ι]

theorem AllBut.set (h : AllBut f i P) (hx : P i x) : All (Function.update f i (some x)) P := by
  intro j y hy
  by_cases hj : j = i
  · subst hj
    rw [Function.update_self] at hy
    cases hy
    exact hx
  · rw [Function.update_of_ne hj] at hy
    exact h hj hy

theorem AllBut.erase (h : AllBut f i P) : All (Function.update f i none) P := by
  intro j y hy
  by_cases hj : j = i
  · subst hj
    rw [Function.update_self] at hy
    cases hy
  · rw [Function.update_of_ne hj] at hy
    exact h hj hy

/-! ## Finitely many entries -/

/-- There are finitely many entries. -/
def FinitelyMany {ι α : Type} (f : ι → Option α) : Prop := {i | (f i).isSome = true}.Finite

theorem finitelyMany_empty {ι α : Type} : FinitelyMany fun _ : ι => (none : Option α) := by
  simp [FinitelyMany]

theorem FinitelyMany.mono {ι α β : Type} {f : ι → Option α} {g : ι → Option β} (h : FinitelyMany f)
    (hsub : ∀ i, (g i).isSome = true → (f i).isSome = true) : FinitelyMany g :=
  Set.Finite.subset h hsub

theorem FinitelyMany.map {ι α β : Type} {f : ι → Option α} (h : FinitelyMany f) (g : ι → α → β) :
    FinitelyMany fun i => (f i).map (g i) :=
  h.mono fun i hi => by rwa [Option.isSome_map] at hi

theorem FinitelyMany.update (h : FinitelyMany f) (i : ι) (x : Option α) : FinitelyMany (Function.update f i x) := by
  refine (Set.Finite.insert i h).subset fun j hj => ?_
  by_cases hi : j = i
  · exact Or.inl hi
  · exact Or.inr (by simpa [hi] using hj)

/-- Of infinitely many keys, one is free. -/
theorem FinitelyMany.exists_free {ι α : Type} {f : ι → Option α} (h : FinitelyMany f) {g : Nat → ι} (hg : g.Injective) (m : Nat) :
    ∃ n, m ≤ n ∧ f (g n) = none := by
  by_contra hall
  push Not at hall
  have hinj : Function.Injective fun n => g (m + n) := fun a b hab => Nat.add_left_cancel (hg hab)
  refine (Set.infinite_range_of_injective hinj) (Set.Finite.subset h ?_)
  rintro _ ⟨n, rfl⟩
  exact Option.isSome_iff_ne_none.2 (hall (m + n) (Nat.le_add_right _ _))

/-! ## Locks -/

/-- Release the locks of a holder. -/
def unlock {ι : Type} (locks : ι → Option Nat) (k : Nat) : ι → Option Nat :=
  fun i => if locks i = some k then none else locks i

theorem unlock_eq_some {ι : Type} {locks : ι → Option Nat} {k k' : Nat} {i : ι} (hne : k' ≠ k)
    (h : locks i = some k') : unlock locks k i = some k' := by
  unfold unlock
  rw [if_neg fun hc => hne (Option.some.inj (h.symm.trans hc)), h]

/-- What is locked after a release was locked before, by another holder. -/
theorem of_unlock_eq_some {ι : Type} {locks : ι → Option Nat} {k k' : Nat} {i : ι}
    (h : unlock locks k i = some k') : locks i = some k' ∧ k' ≠ k := by
  unfold unlock at h
  split at h
  · cases h
  · rename_i hne
    refine ⟨h, ?_⟩
    rintro rfl
    exact hne h

/-- The release of the one that holds a lock. -/
theorem unlock_holder {ι : Type} (locks : ι → Option Nat) (i : ι) : unlock locks ((locks i).getD 0) i = none := by
  cases hlock : locks i with
  | none => simp [unlock, hlock]
  | some k => simp [unlock, hlock]

end PartialMap
