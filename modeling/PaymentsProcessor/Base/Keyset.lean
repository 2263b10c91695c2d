/-
Keyset paging: a table is read page by page in descending order of its keys, each page after the last key of the one
before. Between two pages rows may come and change, but their keys stay.
-/
import Mathlib.Data.List.Sort
import Mathlib.Data.Finset.Card
import Mathlib.Tactic

namespace Keyset

variable {α κ : Type} [LinearOrder κ] (key : α → κ) (p : α → Bool)

/-! ## One page -/

/-- The first `n` rows that pass the test below the cursor, in descending order. -/
def select (n : Nat) (cursor : Option κ) (rows : List α) : List α :=
  ((rows.filter fun x => p x && cursor.all (key x < ·)).insertionSort fun a b => key b ≤ key a).take n

/-- What is returned of `limit + 1` rows, and the last of it if there is more. -/
def cut (limit : Nat) (rows : List α) : List α × Option α :=
  if rows.length = limit + 1 then (rows.take limit, rows[rows.length - 2]?) else (rows, none)

/-- A page. -/
def page (limit : Nat) (cursor : Option κ) (rows : List α) : List α × Option α :=
  cut limit (select key p (limit + 1) cursor rows)

/-- The rows a page has to choose from. -/
def Candidate (cursor : Option κ) (rows : List α) (x : α) : Prop := x ∈ rows ∧ p x = true ∧ ∀ k ∈ cursor, key x < k

/-- A page in full. -/
structure PageSpec (limit : Nat) (cursor : Option κ) (rows data : List α) (next : Option α) : Prop where
  candidate : ∀ x ∈ data, Candidate key p cursor rows x
  descending : data.Pairwise fun a b => key b < key a
  last : ∀ x, next = some x → x ∈ data ∧ data.length = limit ∧ (∀ y ∈ data, key x ≤ key y) ∧
    ∀ y, Candidate key p cursor rows y → y ∈ data ∨ key y < key x
  all : next = none → ∀ y, Candidate key p cursor rows y → y ∈ data

variable {key p} {limit : Nat} {cursor : Option κ} {rows : List α}

theorem mem_sorted {x : α} : x ∈ (rows.filter fun x => p x && cursor.all (key x < ·)).insertionSort (fun a b => key b ≤ key a) ↔
    Candidate key p cursor rows x := by
  rw [List.mem_insertionSort, List.mem_filter]
  unfold Candidate
  simp [Option.all_eq_true]

/-- Rows with distinct keys are sorted strictly. -/
theorem sorted_descending (p : α → Bool) (cursor : Option κ) (hnodup : (rows.map key).Nodup) :
    ((rows.filter fun x => p x && cursor.all (key x < ·)).insertionSort fun a b => key b ≤ key a).Pairwise
      fun a b => key b < key a := by
  have htotal : Std.Total fun a b : α => key b ≤ key a := ⟨fun a b => le_total _ _⟩
  have htrans : IsTrans α fun a b => key b ≤ key a := ⟨fun a b c hab hbc => le_trans hbc hab⟩
  have hsorted := List.pairwise_insertionSort (fun a b : α => key b ≤ key a)
    (rows.filter fun x => p x && cursor.all (key x < ·))
  have hdistinct : ((rows.filter fun x => p x && cursor.all (key x < ·)).insertionSort fun a b => key b ≤ key a).Pairwise
      fun a b => key a ≠ key b := by
    rw [← List.pairwise_map, ← List.nodup_iff_pairwise_ne]
    refine ((List.perm_insertionSort _ _).map key).nodup_iff.2 ?_
    exact hnodup.sublist (List.Sublist.map key List.filter_sublist)
  exact hsorted.imp₂ (fun a b hle hne => lt_of_le_of_ne hle (Ne.symm hne)) hdistinct

theorem page_spec (cursor : Option κ) (hlimit : 1 ≤ limit) (hnodup : (rows.map key).Nodup) :
    PageSpec key p limit cursor rows (page key p limit cursor rows).1 (page key p limit cursor rows).2 := by
  have hmem : ∀ x, x ∈ _ ↔ Candidate key p cursor rows x := fun _ => mem_sorted
  have hsorted := sorted_descending p cursor hnodup
  unfold page select cut
  generalize (rows.filter fun x => p x && cursor.all (key x < ·)).insertionSort (fun a b => key b ≤ key a) = l at hmem hsorted
  by_cases hlong : limit < l.length
  -- the probe is there: it is cut off, and the cursor is the row before it
  · have hlen : (l.take (limit + 1)).length = limit + 1 := by
      rw [List.length_take]
      omega
    have hdata : (l.take (limit + 1)).take limit = l.take limit := by
      rw [List.take_take]
      congr 1
      omega
    have hlast : (l.take (limit + 1))[limit + 1 - 2]? = some l[limit - 1] := by
      rw [List.getElem?_take_of_lt (by omega), show limit + 1 - 2 = limit - 1 by omega, List.getElem?_eq_getElem]
    rw [if_pos hlen, hlen, hdata, hlast]
    have htake : l.take limit = l.take (limit - 1) ++ [l[limit - 1]] := by
      have happend := List.take_append_getElem (show limit - 1 < l.length by omega)
      rw [happend, Nat.sub_add_cancel hlimit]
    have hcat := List.take_append_drop limit l
    rw [← hcat] at hsorted
    obtain ⟨hpair, -, hafter⟩ := List.pairwise_append.1 hsorted
    have hin : l[limit - 1] ∈ l.take limit := by
      rw [htake]
      exact List.mem_append_right _ (List.mem_singleton_self _)
    refine ⟨fun x hx => (hmem x).1 (List.mem_of_mem_take hx), hpair, fun x hx => ?_, by simp⟩
    cases hx
    refine ⟨hin, by rw [List.length_take]; omega, fun y hy => ?_, fun y hy => ?_⟩
    · rw [htake] at hy hpair
      obtain ⟨-, -, hbefore⟩ := List.pairwise_append.1 hpair
      rcases List.mem_append.1 hy with hy | hy
      · exact le_of_lt (hbefore y hy _ (List.mem_singleton_self _))
      · rw [List.mem_singleton.1 hy]
    · have hy := (hmem y).2 hy
      rw [← hcat] at hy
      rcases List.mem_append.1 hy with hy | hy
      · exact Or.inl hy
      · exact Or.inr (hafter _ hin y hy)
  -- everything fits on the page
  · have hall : l.take (limit + 1) = l := List.take_of_length_le (by omega)
    rw [hall, if_neg (by omega)]
    exact ⟨fun x hx => (hmem x).1 hx, hsorted, by simp, fun _ y hy => (hmem y).2 hy⟩

/-! ## The walk -/

variable (key p) (limit : Nat) (T : ℕ → List α)

/-- The cursor of the `n`-th page, `none` where the walk has ended before. -/
def cursorAt : ℕ → Option (Option κ)
  | 0 => some none
  | n + 1 => (cursorAt n).bind fun cursor => (page key p limit cursor (T n)).2.map fun x => some (key x)

/-- The `n`-th page. -/
def pageAt (n : ℕ) : List α :=
  match cursorAt key p limit T n with
  | some cursor => (page key p limit cursor (T n)).1
  | none => []

/-- The rows of the first `n` pages. -/
def returnedTo (n : ℕ) : List α := (List.range n).flatMap (pageAt key p limit T)

/-- The `n`-th page is the last one. -/
def LastAt (n : ℕ) : Prop := cursorAt key p limit T n ≠ none ∧ cursorAt key p limit T (n + 1) = none

variable {key p limit T} {n : ℕ}

theorem mem_pageAt {x : α} (h : x ∈ pageAt key p limit T n) :
    ∃ cursor, cursorAt key p limit T n = some cursor ∧ x ∈ (page key p limit cursor (T n)).1 := by
  unfold pageAt at h
  split at h
  · rename_i cursor hc
    exact ⟨cursor, hc, h⟩
  · cases h

theorem cursorAt_succ {cursor : Option κ} (h : cursorAt key p limit T (n + 1) = some cursor) :
    ∃ before x, cursorAt key p limit T n = some before ∧ (page key p limit before (T n)).2 = some x ∧ cursor = some (key x) := by
  obtain ⟨before, hbefore, h⟩ := Option.bind_eq_some_iff.1 h
  obtain ⟨x, hx, rfl⟩ := Option.map_eq_some_iff.1 h
  exact ⟨before, x, hbefore, hx, rfl⟩

/-- The tables have distinct keys. -/
def Distinct (key : α → κ) (T : ℕ → List α) : Prop := ∀ n, ((T n).map key).Nodup

/-- The cursor of a page is at or below all keys of the pages before. -/
theorem cursorAt_le (hlimit : 1 ≤ limit) (hT : Distinct key T) {k : κ} (h : cursorAt key p limit T n = some (some k)) :
    ∀ m < n, ∀ x ∈ pageAt key p limit T m, k ≤ key x := by
  induction n generalizing k with
  | zero => cases h
  | succ n ih =>
    obtain ⟨before, last, hbefore, hnext, hk⟩ := cursorAt_succ h
    cases hk
    have hspec := page_spec (p := p) before hlimit (hT n)
    obtain ⟨hlast, -, hleast, -⟩ := hspec.last last hnext
    intro m hm x hx
    rcases Nat.lt_or_eq_of_le (Nat.le_of_lt_succ hm) with hlt | rfl
    · cases before with
      | none =>
        -- only the first page has no cursor
        cases n with
        | zero => omega
        | succ n =>
          obtain ⟨_, _, -, -, hc⟩ := cursorAt_succ hbefore
          cases hc
      | some k =>
        have hbelow := (hspec.candidate last hlast).2.2 k rfl
        exact le_trans (le_of_lt hbelow) (ih hbefore m hlt x hx)
    · obtain ⟨cursor, hc, hx⟩ := mem_pageAt hx
      rw [hbefore] at hc
      cases hc
      exact hleast x hx

/-! ## The laws of the walk -/

variable (hlimit : 1 ≤ limit) (hT : Distinct key T)

include hlimit hT

/-- What a page returns is in the table and passes the test then. -/
theorem pageAt_mem {x : α} (hx : x ∈ pageAt key p limit T n) : x ∈ T n ∧ p x = true := by
  obtain ⟨cursor, -, hx⟩ := mem_pageAt hx
  obtain ⟨hmem, hp, -⟩ := (page_spec _ hlimit (hT n)).candidate x hx
  exact ⟨hmem, hp⟩

/-- Each page is in descending order. -/
theorem pageAt_descending (n : ℕ) : (pageAt key p limit T n).Pairwise fun a b => key b < key a := by
  unfold pageAt
  split
  · exact (page_spec _ hlimit (hT n)).descending
  · exact List.Pairwise.nil

/-- A later page is below an earlier one. -/
theorem pageAt_lt {m : ℕ} (hlt : m < n) {x y : α} (hx : x ∈ pageAt key p limit T m) (hy : y ∈ pageAt key p limit T n) :
    key y < key x := by
  obtain ⟨cursor, hc, hy⟩ := mem_pageAt hy
  cases n with
  | zero => omega
  | succ n =>
    obtain ⟨_, last, -, -, rfl⟩ := cursorAt_succ hc
    have hbelow := ((page_spec _ hlimit (hT (n + 1))).candidate y hy).2.2 _ rfl
    exact lt_of_lt_of_le hbelow (cursorAt_le hlimit hT hc m hlt x hx)

/-- The pages together are in descending order. -/
theorem returnedTo_descending (n : ℕ) : (returnedTo key p limit T n).Pairwise fun a b => key b < key a := by
  unfold returnedTo
  induction n with
  | zero => exact List.Pairwise.nil
  | succ n ih =>
    rw [List.range_succ, List.flatMap_append, List.flatMap_singleton]
    refine List.pairwise_append.2 ⟨ih, pageAt_descending hlimit hT n, fun x hx y hy => ?_⟩
    obtain ⟨m, hm, hx⟩ := List.mem_flatMap.1 hx
    exact pageAt_lt hlimit hT (List.mem_range.1 hm) hx hy

/-- A page that is not the last one is full. -/
theorem pageAt_length (h : cursorAt key p limit T (n + 1) ≠ none) : (pageAt key p limit T n).length = limit := by
  obtain ⟨cursor, hc⟩ := Option.ne_none_iff_exists'.1 h
  obtain ⟨before, last, hbefore, hnext, -⟩ := cursorAt_succ hc
  unfold pageAt
  rw [hbefore]
  exact ((page_spec _ hlimit (hT n)).last last hnext).2.1

/-- A key that is in the table and passes the test at every fetch is returned, or still below the cursor. -/
theorem returned_or_below {k : κ} {cursor : Option κ} (hc : cursorAt key p limit T n = some cursor)
    (hk : ∀ m < n, ∃ x ∈ T m, key x = k ∧ p x = true) :
    (∃ m < n, ∃ x ∈ pageAt key p limit T m, key x = k) ∨ ∀ bound ∈ cursor, k < bound := by
  induction n generalizing cursor with
  | zero =>
    cases hc
    exact Or.inr fun _ h => by cases h
  | succ n ih =>
    obtain ⟨before, last, hbefore, hnext, rfl⟩ := cursorAt_succ hc
    rcases ih hbefore fun m hm => hk m (by omega) with ⟨m, hm, hx⟩ | hbelow
    · exact Or.inl ⟨m, by omega, hx⟩
    · obtain ⟨x, hx, rfl, hp⟩ := hk n (by omega)
      rcases ((page_spec _ hlimit (hT n)).last last hnext).2.2.2 x ⟨hx, hp, hbelow⟩ with hdata | hlt
      · refine Or.inl ⟨n, by omega, x, ?_, rfl⟩
        unfold pageAt
        rwa [hbefore]
      · refine Or.inr fun bound hbound => ?_
        cases hbound
        exact hlt

/-- A key that is in the table and passes the test at every fetch of a walk is returned by it. -/
theorem exists_mem_pageAt {k : κ} (hlast : LastAt key p limit T n) (hk : ∀ m ≤ n, ∃ x ∈ T m, key x = k ∧ p x = true) :
    ∃ m ≤ n, ∃ x ∈ pageAt key p limit T m, key x = k := by
  obtain ⟨cursor, hc⟩ := Option.ne_none_iff_exists'.1 hlast.1
  rcases returned_or_below hlimit hT hc fun m hm => hk m (by omega) with ⟨m, hm, hx⟩ | hbelow
  · exact ⟨m, by omega, hx⟩
  · obtain ⟨x, hx, rfl, hp⟩ := hk n le_rfl
    have hnext : (page key p limit cursor (T n)).2 = none := by
      cases hn : (page key p limit cursor (T n)).2 with
      | none => rfl
      | some last =>
        have hsucc := hlast.2
        unfold cursorAt at hsucc
        rw [hc] at hsucc
        simp [hn] at hsucc
    refine ⟨n, le_rfl, x, ?_, rfl⟩
    unfold pageAt
    rw [hc]
    exact (page_spec _ hlimit (hT n)).all hnext x ⟨hx, hp, hbelow⟩

/-- It is returned exactly once. -/
theorem count_returnedTo {k : κ} (hlast : LastAt key p limit T n) (hk : ∀ m ≤ n, ∃ x ∈ T m, key x = k ∧ p x = true) :
    ((returnedTo key p limit T (n + 1)).map key).count k = 1 := by
  refine List.count_eq_one_of_mem ?_ ?_
  · have hdescending := returnedTo_descending hlimit hT (p := p) (n + 1)
    rw [List.nodup_iff_pairwise_ne, List.pairwise_map]
    exact hdescending.imp fun h => (ne_of_lt h).symm
  · obtain ⟨m, hm, x, hx, rfl⟩ := exists_mem_pageAt hlimit hT hlast hk
    exact List.mem_map_of_mem (List.mem_flatMap.2 ⟨m, List.mem_range.2 (Nat.lt_succ_of_le hm), hx⟩)

omit hlimit hT in
theorem exists_lastAt_of_none (h : cursorAt key p limit T n = none) : ∃ m, LastAt key p limit T m := by
  induction n with
  | zero => cases h
  | succ n ih =>
    cases hc : cursorAt key p limit T n with
    | none => exact ih hc
    | some cursor => exact ⟨n, by rw [hc]; exact Option.some_ne_none _, h⟩

/-- The walk ends once no more keys come. -/
theorem exists_lastAt {m : ℕ} (keys : Finset κ) (hkeys : ∀ n, m ≤ n → ∀ x ∈ T n, key x ∈ keys) :
    ∃ n, LastAt key p limit T n := by
  by_cases hm : cursorAt key p limit T m = none
  · exact exists_lastAt_of_none hm
  obtain ⟨cursor, hc⟩ := Option.ne_none_iff_exists'.1 hm
  -- induction on the number of keys left below the cursor
  induction hcard : (keys.filter fun k => ∀ bound ∈ cursor, k < bound).card using Nat.strongRecOn generalizing m cursor with
  | ind card ih =>
    cases hnext : cursorAt key p limit T (m + 1) with
    | none => exact ⟨m, by rw [hc]; exact Option.some_ne_none _, hnext⟩
    | some cursor' =>
      obtain ⟨before, last, hbefore, hpage, rfl⟩ := cursorAt_succ hnext
      rw [hc] at hbefore
      cases hbefore
      have hspec := page_spec (p := p) cursor hlimit (hT m)
      obtain ⟨hmem, -, hbelow⟩ := hspec.candidate last (hspec.last last hpage).1
      have hfewer : (keys.filter fun k => ∀ bound ∈ some (key last), k < bound).card < card := by
        rw [← hcard]
        refine Finset.card_lt_card (Finset.ssubset_iff_of_subset ?_ |>.2 ⟨key last, ?_, ?_⟩)
        · intro k hk
          rw [Finset.mem_filter] at hk ⊢
          exact ⟨hk.1, fun bound hbound => lt_trans (hk.2 _ rfl) (hbelow bound hbound)⟩
        · exact Finset.mem_filter.2 ⟨hkeys m le_rfl last hmem, hbelow⟩
        · intro hk
          exact lt_irrefl _ ((Finset.mem_filter.1 hk).2 _ rfl)
      exact ih _ hfewer (fun n hn => hkeys n (by omega)) (by rw [hnext]; exact Option.some_ne_none _) _ hnext rfl

end Keyset
