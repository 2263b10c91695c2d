/-
Work that is left. The weights of the entries of a partial map add up to a total, as long as the entries are finitely many,
and an entry that is set exchanges its old weight for the new one. A measure that counted steps lower and the others do not
raise bounds how often the counted ones are taken, in any execution.
-/
import PaymentsProcessor.Base.PartialMap
import PaymentsProcessor.Base.Rounds
import Mathlib.Algebra.BigOperators.Finprod

/-! ## Totals -/

namespace PartialMap

variable {ι α : Type} {f : ι → Option α} {w : α → ℕ} {i : ι}

/-- The weight of an entry, and nothing where there is none. -/
def weight (w : α → ℕ) (x : Option α) : ℕ := (x.map w).getD 0

@[simp] theorem weight_none : weight w none = 0 := rfl

@[simp] theorem weight_some (x : α) : weight w (some x) = w x := rfl

/-- The weights of all entries. -/
noncomputable def total (f : ι → Option α) (w : α → ℕ) : ℕ := ∑ᶠ i, weight w (f i)

theorem support_weight_subset : (Function.support fun i => weight w (f i)) ⊆ {i | (f i).isSome = true} := by
  intro i hi
  cases hf : f i with
  | none => exact absurd (show weight w (f i) = 0 by rw [hf]; rfl) hi
  | some x => simp [hf]

/-- Setting an entry exchanges its weight. -/
theorem total_update [DecidableEq ι] (h : FinitelyMany f) (i : ι) (x : Option α) :
    total (Function.update f i x) w + weight w (f i) = total f w + weight w x := by
  -- both sums over the keys there are, and `i`
  obtain ⟨keys, hkeys⟩ : ∃ keys : Finset ι, ∀ j, (f j).isSome = true → j ∈ keys := by
    have hfinite : {i | (f i).isSome = true}.Finite := h
    exact ⟨hfinite.toFinset, fun j hj => hfinite.mem_toFinset.2 hj⟩
  have hsub : ∀ g : ι → Option α, (∀ j, j ≠ i → g j = f j) →
      (Function.support fun j => weight w (g j)) ⊆ ↑(insert i keys) := by
    intro g hg j hj
    have hsome : (g j).isSome = true := support_weight_subset hj
    by_cases hji : j = i
    · exact Finset.mem_coe.2 (hji ▸ Finset.mem_insert_self i keys)
    · exact Finset.mem_coe.2 (Finset.mem_insert_of_mem (hkeys j (by rw [← hg j hji]; exact hsome)))
  unfold total
  rw [finsum_eq_sum_of_support_subset _ (hsub _ fun j hj => Function.update_of_ne hj ..),
    finsum_eq_sum_of_support_subset _ (hsub f fun _ _ => rfl),
    ← Finset.add_sum_erase _ _ (Finset.mem_insert_self i keys),
    ← Finset.add_sum_erase _ (fun j => weight w (f j)) (Finset.mem_insert_self i keys), Function.update_self]
  have hrest : ∀ j ∈ (insert i keys).erase i, weight w (Function.update f i x j) = weight w (f j) :=
    fun j hj => by rw [Function.update_of_ne (Finset.ne_of_mem_erase hj)]
  rw [Finset.sum_congr rfl hrest]
  omega

end PartialMap

/-! ## Measures -/

namespace Transition

variable {σ α : Type} {S : System σ α}

/-- If counted steps lower the measure and the others of a kind do not raise it, an execution of steps of the kind has at
most so many counted ones. -/
theorem countP_le_measure {counted kind : α → Bool} {measure : σ → ℕ} {I : σ → Prop}
    (hstep : ∀ s a t, I s → kind a = true → S.step s a = some t →
      I t ∧ measure t + (if counted a then 1 else 0) ≤ measure s) : ∀ {as : List α} {s t : σ}, I s →
    (∀ a ∈ as, kind a = true) → exec S s as = some t → as.countP counted + measure t ≤ measure s
  | [], s, t, _, _, h => by cases h; simp
  | a :: as, s, t, hI, hkind, h => by
    obtain ⟨u, hu, h⟩ := Option.bind_eq_some_iff.1 h
    obtain ⟨hIu, hle⟩ := hstep s a u hI (hkind a List.mem_cons_self) hu
    have ih := countP_le_measure hstep hIu (fun b hb => hkind b (List.mem_cons_of_mem _ hb)) h
    rw [List.countP_cons]
    omega

/-- If wherever a goal is not reached a path to a smaller measure goes on, a path leads to the goal. -/
theorem exists_path_of_measure {p : α → Bool} (measure : σ → ℕ) {I goal : σ → Prop}
    (hstep : ∀ s, I s → ¬ goal s → ∃ t, Path S p s t ∧ I t ∧ measure t < measure s) :
    ∀ {s : σ}, I s → ∃ t, Path S p s t ∧ goal t := by
  intro s hI
  generalize hn : measure s = n
  induction n using Nat.strong_induction_on generalizing s with
  | _ n ih =>
    by_cases hgoal : goal s
    · exact ⟨s, .refl, hgoal⟩
    · obtain ⟨u, hpath, hIu, hlt⟩ := hstep s hI hgoal
      obtain ⟨t, hpath', ht⟩ := ih _ (hn ▸ hlt) hIu rfl
      exact ⟨t, hpath.trans hpath', ht⟩

end Transition
