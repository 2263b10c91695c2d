/-
Lists in which every element is justified by the ones before it, as the events of a history are by
what happened earlier.
-/
import Mathlib.Data.List.Basic

namespace History

variable {α : Type} {P Q : List α → α → Prop} {l : List α}

/-- Every element of `l` stands in `P` to the elements before it. -/
def Justified (P : List α → α → Prop) (l : List α) : Prop :=
  ∀ ⦃pre e post⦄, l = pre ++ e :: post → P pre e

theorem justified_nil : Justified P [] := by
  intro pre e post h
  cases pre <;> cases h

theorem Justified.mono (h : Justified P l) (hPQ : ∀ pre e, P pre e → Q pre e) : Justified Q l :=
  fun _ _ _ hl => hPQ _ _ (h hl)

theorem Justified.snoc {e : α} (h : Justified P l) (he : P l e) : Justified P (l ++ [e]) := by
  intro pre x post hl
  rcases List.eq_nil_or_concat post with rfl | ⟨post', y, rfl⟩
  · obtain ⟨rfl, hx⟩ := List.append_inj' hl rfl
    cases hx
    exact he
  · rw [List.concat_eq_append, ← List.cons_append, ← List.append_assoc] at hl
    exact h (List.append_inj' hl rfl).1

/-- Appending elements that are justified one after the other. -/
theorem Justified.append_of {es : List α} (h : Justified P l)
    (hes : ∀ pre e post, es = pre ++ e :: post → P (l ++ pre) e) : Justified P (l ++ es) := by
  induction es generalizing l with
  | nil => rwa [List.append_nil]
  | cons e es ih =>
    have hsnoc : Justified P (l ++ [e]) := h.snoc (by simpa using hes [] e es rfl)
    have happ : Justified P (l ++ [e] ++ es) := ih hsnoc fun pre x post heq => by
      simpa using hes (e :: pre) x post (by rw [heq, List.cons_append])
    rwa [List.append_assoc, List.singleton_append] at happ

/-- Appending elements that need no justification. -/
theorem Justified.append (h : Justified P l) {es : List α} (hes : ∀ pre, ∀ e ∈ es, P pre e) :
    Justified P (l ++ es) :=
  h.append_of fun _ e _ heq => hes _ e (heq ▸ List.mem_append_right _ List.mem_cons_self)

/-- A list whose last element passes one test and some earlier one another, taken apart at the two. -/
theorem exists_split_last {p q : α → Bool} (hp : l.dropLast.any p = true) (hq : l.getLast?.any q = true) :
    ∃ pre x mid y, l = pre ++ x :: mid ++ [y] ∧ p x = true ∧ q y = true := by
  obtain ⟨x, hx, hpx⟩ := List.any_eq_true.1 hp
  obtain ⟨y, hy, hqy⟩ := (Option.any_eq_true _ _).1 hq
  obtain ⟨ys, rfl⟩ := List.getLast?_eq_some_iff.1 hy
  rw [List.dropLast_concat] at hx
  obtain ⟨pre, mid, rfl⟩ := List.append_of_mem hx
  exact ⟨pre, x, mid, y, rfl, hpx, hqy⟩

end History
