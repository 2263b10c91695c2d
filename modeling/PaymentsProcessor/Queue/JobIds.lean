/-
Job ids that are made of an id without colons, a tag between colons and a number. The parts can be read off them.
-/
import Mathlib.Data.String.Basic
import Mathlib.Data.List.TakeWhile
import Std.Data.String.ToNat
import Mathlib.Tactic

namespace JobId

/-- The part before the first colon, and the rest. -/
theorem colon_inj {x x' rest rest' : List Char} (hx : ':' ∉ x) (hx' : ':' ∉ x') (h : x ++ ':' :: rest = x' ++ ':' :: rest') :
    x = x' ∧ rest = rest' := by
  have htake : ∀ {y : List Char} (l : List Char), ':' ∉ y → (y ++ ':' :: l).takeWhile (· ≠ ':') = y := by
    intro y l hy
    rw [List.takeWhile_append_of_pos fun c hc => decide_eq_true (ne_of_mem_of_not_mem hc hy)]
    simp
  have heq : x = x' := by rw [← htake rest hx, h, htake rest' hx']
  subst heq
  simpa using h

variable {id id' tag tag' : String} {t t' : List Char} {n n' : Nat}

theorem tagged_inj (htag : tag.toList = ':' :: t) (htag' : tag'.toList = ':' :: t') (hid : ':' ∉ id.toList)
    (hid' : ':' ∉ id'.toList) (h : id ++ tag ++ toString n = id' ++ tag' ++ toString n') :
    id = id' ∧ t ++ (toString n).toList = t' ++ (toString n').toList := by
  have hlist := congrArg String.toList h
  rw [String.toList_append, String.toList_append, String.toList_append, String.toList_append, htag, htag', List.append_assoc,
    List.append_assoc] at hlist
  obtain ⟨heq, hrest⟩ := colon_inj hid hid' hlist
  exact ⟨String.toList_inj.1 heq, hrest⟩

/-- Under one tag, the id and the number. -/
theorem same_tag_inj (htag : tag.toList = ':' :: t) (hid : ':' ∉ id.toList) (hid' : ':' ∉ id'.toList)
    (h : id ++ tag ++ toString n = id' ++ tag ++ toString n') : id = id' ∧ n = n' := by
  obtain ⟨heq, hrest⟩ := tagged_inj htag htag hid hid' h
  exact ⟨heq, Nat.repr_injective (String.toList_inj.1 (List.append_cancel_left hrest))⟩

end JobId
