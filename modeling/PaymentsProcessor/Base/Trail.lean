/-
Audit trails of a life cycle. Over any statuses with an edge relation and a first status, a trail is
the list of steps `(none, start), (some start, s₁), (some s₁, s₂), …` along the edges. Every trail
starts at the start, is an unbroken chain of edges, ends at the current status, and has no step
after a status without edges; a status entered only from a set of statuses that lead nowhere else is
entered as often as the set is left.
-/
import Mathlib.Data.List.Chain
import Mathlib.Tactic

namespace Trail

variable {τ : Type} {E : τ → τ → Prop} {start : τ}

/-- `IsTrail E start l s`: `l` is a trail from `start` that ends in `s`. -/
inductive IsTrail (E : τ → τ → Prop) (start : τ) : List (Option τ × τ) → τ → Prop
  | start : IsTrail E start [(none, start)] start
  | step {l : List (Option τ × τ)} {s t : τ} : IsTrail E start l s → E s t →
      IsTrail E start (l ++ [(some s, t)]) t

variable {l : List (Option τ × τ)} {s : τ}

theorem IsTrail.ne_nil (h : IsTrail E start l s) : l ≠ [] := by
  cases h <;> simp

theorem IsTrail.head? (h : IsTrail E start l s) : l.head? = some (none, start) := by
  induction h with
  | start => rfl
  | step _ _ ih => rw [List.head?_append, ih]; rfl

theorem IsTrail.getLast? (h : IsTrail E start l s) : l.getLast?.map Prod.snd = some s := by
  cases h <;> simp

theorem IsTrail.isChain (h : IsTrail E start l s) : l.IsChain fun a b => b.1 = some a.2 ∧ E a.2 b.2 := by
  induction h with
  | start => exact .singleton _
  | @step l s t h hE ih =>
    refine List.isChain_append.2 ⟨ih, .singleton _, fun x hx y hy => ?_⟩
    have hx : l.getLast? = some x := hx
    have hlast := h.getLast?
    rw [hx] at hlast
    cases Option.some.inj hlast
    cases Option.some.inj hy
    exact ⟨rfl, hE⟩

/-- Every step but the last ends in a status with an edge. -/
theorem IsTrail.exists_edge (h : IsTrail E start l s) : ∀ x ∈ l.dropLast, ∃ t, E x.2 t := by
  induction h with
  | start => intro x hx; cases hx
  | @step l s t h hE ih =>
    rw [List.dropLast_concat]
    intro x hx
    have hne := h.ne_nil
    rw [← List.dropLast_append_getLast hne, List.mem_append, List.mem_singleton] at hx
    rcases hx with hx | rfl
    · exact ih x hx
    · have hlast := h.getLast?
      rw [List.getLast?_eq_some_getLast hne] at hlast
      exact ⟨t, Option.some.inj hlast ▸ hE⟩

/-- How often a trail enters a set of statuses. -/
def entries (p : τ → Bool) (l : List (Option τ × τ)) : Nat := l.countP fun x => p x.2

theorem entries_snoc (p : τ → Bool) (l : List (Option τ × τ)) (x : Option τ × τ) :
    entries p (l ++ [x]) = entries p l + if p x.2 then 1 else 0 := by
  unfold entries
  rw [List.countP_append, List.countP_singleton]

/-- Entries into a union of disjoint sets add up. -/
theorem entries_or {p q : τ → Bool} (hdisj : ∀ s, p s = true → q s = false) :
    ∀ l : List (Option τ × τ), entries (fun s => p s || q s) l = entries p l + entries q l
  | [] => rfl
  | x :: l => by
    have ih := entries_or hdisj l
    unfold entries at ih ⊢
    simp only [List.countP_cons, ih]
    cases hp : p x.2
    · simp only [Bool.false_or, Bool.false_eq_true, if_false]; omega
    · simp only [Bool.true_or, hdisj x.2 hp, Bool.false_eq_true, if_true, if_false]; omega

/-- A status no edge enters is entered once, at the start. -/
theorem IsTrail.entries_start {p : τ → Bool} (hstart : p start = true) (hno : ∀ s t, E s t → p t = false)
    (h : IsTrail E start l s) : entries p l = 1 := by
  induction h with
  | start => simp [entries, hstart]
  | step _ hE ih => rw [entries_snoc, ih, hno _ _ hE]; rfl

/-- If every edge into `q` comes from `p`, no edge leads from `p` but into `q`, and the trail starts
in `p`, then `q` has been entered once for each entry into `p`, except one while the trail is in
`p`. -/
theorem IsTrail.entries_eq {p q : τ → Bool} (hpq : ∀ s t, E s t → (q t = true ↔ p s = true))
    (hdisj : ∀ s, p s = true → q s = false) (hstart : p start = true) (h : IsTrail E start l s) :
    entries q l + (if p s then 1 else 0) = entries p l := by
  induction h with
  | start => simp [entries, hstart, hdisj start hstart]
  | @step l s t h hE ih =>
    rw [entries_snoc, entries_snoc]
    have hqt := hpq s t hE
    by_cases hp : p s = true
    · have hpt : p t = false := by
        cases hc : p t
        · rfl
        · rw [hdisj t hc] at hqt; exact absurd (hqt.2 hp) Bool.false_ne_true
      simp only [hp, hqt.2 hp, hpt, if_true, Bool.false_eq_true, if_false] at ih ⊢
      omega
    · have hq : q t = false := Bool.eq_false_iff.2 fun hc => hp (hqt.1 hc)
      simp only [hp, hq, Bool.false_eq_true, if_false] at ih ⊢
      omega

end Trail
