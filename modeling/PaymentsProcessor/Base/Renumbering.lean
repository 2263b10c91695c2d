/-
A source of names that is shared. A system that draws its names one after the other is a system over every sequence of
names, and depends on no more of the sequence than it has drawn. To one of those who share a source the draws of the others
are names left out: it is as if it drew alone, from the sequence without them. So what such a system reaches in company it
reaches alone, and where it can go on from there alone it can go on in company.
-/
import PaymentsProcessor.Base.Rounds
import Mathlib.Order.Monotone.Basic

namespace Transition

/-! ## Drawing -/

/-- A system over every sequence of names, with how many it has drawn in a state. -/
structure Drawing (υ ι σ α : Type) where
  name : υ → ℕ → ι
  system : υ → System σ α
  drawn : σ → ℕ
  init_eq : ∀ u v, (system u).init = (system v).init
  mono : ∀ u s a t, (system u).step s a = some t → drawn s ≤ drawn t
  reads : ∀ u v s a t, (system u).step s a = some t → (∀ i, drawn s ≤ i → i < drawn t → name u i = name v i) →
    (system v).step s a = some t

variable {υ ι σ α : Type} {C : σ → α → Prop} {u v : υ} {s : σ}

/-- What is reached depends on the names drawn until then. -/
theorem Drawing.reach_congr (D : Drawing υ ι σ α) (h : Reach (D.system u) C s)
    (hnames : ∀ i < D.drawn s, D.name u i = D.name v i) : Reach (D.system v) C s := by
  induction h with
  | init => rw [D.init_eq u v]; exact .init
  | @step s t a _ hC hs ih =>
    refine .step (ih fun i hi => hnames i (Nat.lt_of_lt_of_le hi (D.mono u s a t hs))) hC ?_
    exact D.reads u v s a t hs fun i _ hi => hnames i hi

/-! ## Names left out -/

/-- The `m` names drawn so far are some of the first `n`, and those that follow are the ones that follow. -/
structure Renumbering (m n : ℕ) where
  place : ℕ → ℕ
  strictMono : StrictMono place
  onward : ∀ k, place (m + k) = n + k

namespace Renumbering

variable {m n : ℕ}

/-- No names are drawn. -/
def start : Renumbering 0 0 := ⟨id, strictMono_id, fun _ => rfl⟩

/-- Names are drawn. -/
def draw (f : Renumbering m n) (d : ℕ) : Renumbering (m + d) (n + d) where
  place := f.place
  strictMono := f.strictMono
  onward k := by rw [Nat.add_assoc, f.onward, Nat.add_assoc]

theorem place_lt (f : Renumbering m n) {i : ℕ} (hi : i < m) : f.place i < n :=
  calc f.place i < f.place m := f.strictMono hi
    _ = n := f.onward 0

/-- Names are drawn by others. -/
def skip (f : Renumbering m n) (d : ℕ) : Renumbering m (n + d) where
  place i := if i < m then f.place i else n + d + (i - m)
  strictMono i j hij := by
    dsimp only
    split
    · rename_i hi
      have := f.place_lt hi
      split
      · exact f.strictMono hij
      · omega
    · split <;> omega
  onward k := by
    rw [if_neg (Nat.not_lt.2 (Nat.le_add_right m k)), Nat.add_sub_cancel_left]

theorem skip_place (f : Renumbering m n) (d : ℕ) {i : ℕ} (hi : i < m) : (f.skip d).place i = f.place i := if_pos hi

end Renumbering

/-! ## Sharing -/

/-- A system that draws names, together with what a state is when it is alone: another number of names drawn, and without
what others have written. -/
structure Sharing (υ ι σ α : Type) extends Drawing υ ι σ α where
  leave : ∀ {m n : ℕ}, υ → Renumbering m n → υ
  name_leave : ∀ {m n : ℕ} (u : υ) (f : Renumbering m n) (i : ℕ), name (leave u f) i = name u (f.place i)
  alone : ℕ → σ → σ
  drawn_alone : ∀ m s, drawn (alone m s) = m
  init_alone : ∀ u, alone 0 (system u).init = (system u).init ∧ drawn (system u).init = 0
  step_alone : ∀ u v m s a, (∀ k, name v (m + k) = name u (drawn s + k)) →
    (system v).step (alone m s) a = ((system u).step s a).map fun t => alone (m + (drawn t - drawn s)) t

namespace Sharing

variable (S : Sharing υ ι σ α) {ok : α → Prop} {p : α → Bool} {s t : σ} {a : α} {m n : ℕ}

/-- The state is, alone, reached from the names that are left. -/
def Alone (u : υ) (ok : α → Prop) (s : σ) : Prop :=
  ∃ m n, ∃ f : Renumbering m n, S.drawn s = n ∧ Reach (S.system (S.leave u f)) (fun _ a => ok a) (S.alone m s)

variable {S}

theorem name_onward (f : Renumbering m n) (hs : S.drawn s = n) (k : ℕ) :
    S.name (S.leave u f) (m + k) = S.name u (S.drawn s + k) := by
  rw [S.name_leave, f.onward, hs]

theorem Alone.init (S : Sharing υ ι σ α) (u v : υ) : S.Alone u ok (S.system v).init := by
  obtain ⟨hsame, hnone⟩ := S.init_alone v
  refine ⟨0, 0, .start, hnone, ?_⟩
  rw [hsame, S.init_eq v (S.leave u .start)]
  exact .init

/-- A step of its own. -/
theorem Alone.step (h : S.Alone u ok s) (ha : ok a) (hs : (S.system u).step s a = some t) : S.Alone u ok t := by
  obtain ⟨m, n, f, hn, hr⟩ := h
  have hle := S.mono u s a t hs
  have hr' : Reach (S.system (S.leave u (f.draw (S.drawn t - S.drawn s)))) (fun _ a => ok a) (S.alone m s) :=
    S.reach_congr hr fun i _ => by rw [S.name_leave, S.name_leave]; rfl
  have hname : ∀ k, S.name (S.leave u (f.draw (S.drawn t - S.drawn s))) (m + k) = S.name u (S.drawn s + k) := fun k => by
    rw [S.name_leave, ← name_onward f hn, S.name_leave]
    rfl
  refine ⟨m + (S.drawn t - S.drawn s), n + (S.drawn t - S.drawn s), f.draw _, by omega, .step hr' ha ?_⟩
  rw [S.step_alone u _ m s a hname, hs]
  rfl

/-- A step of another, which draws names and writes what is not seen alone. -/
theorem Alone.skip (h : S.Alone u ok s) (hle : S.drawn s ≤ S.drawn t) (hsame : ∀ m, S.alone m t = S.alone m s) :
    S.Alone u ok t := by
  obtain ⟨m, n, f, hn, hr⟩ := h
  refine ⟨m, n + (S.drawn t - S.drawn s), f.skip _, by omega, ?_⟩
  rw [hsame]
  refine S.reach_congr hr fun i hi => ?_
  rw [S.drawn_alone] at hi
  rw [S.name_leave, S.name_leave, f.skip_place _ hi]

/-- Where it can go on alone, it can go on in company. -/
theorem exists_path (f : Renumbering m n) (hs : S.drawn s = n) {t₀ : σ}
    (h : Path (S.system (S.leave u f)) p (S.alone m s) t₀) :
    ∃ t m', Path (S.system u) p s t ∧ t₀ = S.alone m' t ∧ S.drawn s ≤ S.drawn t ∧
      ∃ n', ∃ f' : Renumbering m' n', S.drawn t = n' ∧ f'.place = f.place := by
  induction h with
  | refl => exact ⟨s, m, .refl, rfl, Nat.le_refl _, n, f, hs, rfl⟩
  | tail _ hlast ih =>
    obtain ⟨a, ha, hstep⟩ := hlast
    obtain ⟨t, m', hpath, rfl, hle, n', f', hn', hplace⟩ := ih
    have hname : ∀ k, S.name (S.leave u f) (m' + k) = S.name u (S.drawn t + k) := fun k => by
      rw [S.name_leave, ← hplace, f'.onward, hn']
    rw [S.step_alone u _ m' t a hname] at hstep
    obtain ⟨t', ht', rfl⟩ := Option.map_eq_some_iff.1 hstep
    have hmore := S.mono u t a t' ht'
    refine ⟨t', _, hpath.tail ⟨a, ha, ht'⟩, rfl, hle.trans hmore, n' + (S.drawn t' - S.drawn t), f'.draw _, by omega, hplace⟩

end Sharing

end Transition
