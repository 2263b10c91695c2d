/-
Customers do not interact: leaving out the actions of the calls of all others gives a run in which the calls of a
customer hold the same entries, find the same keys and get the same answers, also where their keys equal those of
others.
-/
import PaymentsProcessor.Payments.Linearised

namespace PaymentsProcessor.Submissions

open Transition PartialMap

/-- The customer whose call an action is part of. -/
def customerOf (s : State) : Action → Option String
  | .tick _ => none
  | .start _ dto .. => some dto.customerId
  | .begin_ c | .insertPayment c | .insertEvent c _ | .insertKey c | .insertOutbox c | .commit c | .answer c | .read c
  | .fail c _ | .crash c => (s.calls c).map fun call => call.x.dto.customerId

/-- The step is part of no other customer's call. -/
def concerns (u : String) (x : State × Action) : Bool := (customerOf x.1 x.2).all (· = u)

def Call.isOf (u : String) (call : Call) : Bool := call.x.dto.customerId = u

def Answer.isOf (u : String) (a : Answer) : Bool := a.x.dto.customerId = u

/-- The state `t` is what customer `u` sees of the state `s`. -/
structure Seen (u : String) (s t : State) : Prop where
  now : t.now = s.now
  calls : ∀ c, t.calls c = (s.calls c).filter (Call.isOf u)
  held : ∀ p c, t.held p = some c ↔ s.held p = some c ∧ p.1 = u
  drawn : ∀ id ∈ t.drawn, id ∈ s.drawn
  answers : t.answers = s.answers.filter (Answer.isOf u)
  keys : ∀ key, t.db.findKey u key = s.db.findKey u key

variable {u : String} {s s' t : State} {a : Action} {c : Nat} {x y : Submission} {pc pc' : CallPc}

/-! ## The parts -/

theorem Seen.own (h : Seen u s t) (hx : x.dto.customerId = u) (hc : s.calls c = some ⟨x, pc⟩) :
    t.calls c = some ⟨x, pc⟩ := by
  rw [h.calls, hc]
  exact Option.filter_some_pos (decide_eq_true hx)

theorem Seen.calls_own (h : Seen u s t) (hy : y.dto.customerId = u) (c' : Nat) :
    Function.update t.calls c (some ⟨y, pc'⟩) c' =
      (Function.update s.calls c (some ⟨y, pc'⟩) c').filter (Call.isOf u) := by
  by_cases hc : c' = c
  · subst hc
    have hof : Call.isOf u ⟨y, pc'⟩ = true := decide_eq_true hy
    rw [Function.update_self, Function.update_self, Option.filter_some_pos hof]
  · rw [Function.update_of_ne hc, Function.update_of_ne hc, h.calls]

theorem Seen.calls_other (h : Seen u s t) (hy : y.dto.customerId ≠ u)
    (hold : ∀ call, s.calls c = some call → call.x.dto.customerId ≠ u) (c' : Nat) :
    t.calls c' = (Function.update s.calls c (some ⟨y, pc'⟩) c').filter (Call.isOf u) := by
  by_cases hc : c' = c
  · subst hc
    rw [Function.update_self, h.calls, Option.filter_some_neg (by simpa [Call.isOf] using hy), Option.filter_eq_none_iff]
    intro call hcall
    simpa [Call.isOf] using hold call hcall
  · rw [Function.update_of_ne hc, h.calls]

theorem unlock_eq_some_iff (held : String × String → Option Nat) (p : String × String) (c c' : Nat) :
    unlock held c p = some c' ↔ held p = some c' ∧ c' ≠ c :=
  ⟨of_unlock_eq_some, fun hp => unlock_eq_some hp.2 hp.1⟩

theorem Seen.unlock_own (h : Seen u s t) (p : String × String) (c' : Nat) :
    unlock t.held c p = some c' ↔ unlock s.held c p = some c' ∧ p.1 = u := by
  rw [unlock_eq_some_iff, unlock_eq_some_iff, h.held, and_right_comm]

theorem Seen.unlock_other (h : Seen u s t) (hI : SubmissionsInv s) (hx : x.dto.customerId ≠ u)
    (hc : s.calls c = some ⟨x, pc⟩) (p : String × String) (c' : Nat) :
    t.held p = some c' ↔ unlock s.held c p = some c' ∧ p.1 = u := by
  rw [h.held, unlock_eq_some_iff]
  constructor
  · rintro ⟨hp, hu⟩
    refine ⟨⟨hp, ?_⟩, hu⟩
    rintro rfl
    have hpair := (hI.holds hc hp).2.1
    exact hx ((congrArg Prod.fst hpair).trans hu)
  · rintro ⟨⟨hp, -⟩, hu⟩
    exact ⟨hp, hu⟩

theorem Seen.answers_own (h : Seen u s t) (b : Answer) (hb : b.x.dto.customerId = u) :
    t.answers ++ [b] = (s.answers ++ [b]).filter (Answer.isOf u) := by
  rw [List.filter_append, ← h.answers]
  simp [Answer.isOf, hb]

theorem Seen.answers_other (h : Seen u s t) (b : Answer) (hb : b.x.dto.customerId ≠ u) :
    t.answers = (s.answers ++ [b]).filter (Answer.isOf u) := by
  rw [List.filter_append, ← h.answers]
  simp [Answer.isOf, hb]

theorem Seen.findKey (h : Seen u s t) (hx : x.dto.customerId = u) :
    t.db.findKey x.dto.customerId x.key = s.db.findKey x.dto.customerId x.key := by
  rw [hx]
  exact h.keys x.key

/-! ## Steps -/

/-- A step of a call of the customer. -/
theorem Seen.step_own (h : Seen u s t) (hs : Step s a s') (ha : concerns u (s, a) = true) :
    ∃ t', Step t a t' ∧ Seen u s' t' := by
  have hmine : ∀ {c x pc}, s.calls c = some ⟨x, pc⟩ → customerOf s a = (s.calls c).map (fun call => call.x.dto.customerId) →
      x.dto.customerId = u := by
    intro c x pc hc hof
    unfold concerns at ha
    rw [hof, hc] at ha
    exact of_decide_eq_true ha
  cases hs with
  | tick ms => exact ⟨_, .tick ms, congrArg (· + ms) h.now, h.calls, h.held, h.drawn, h.answers, h.keys⟩
  | start c x pc hx hc hfresh hpc =>
    have hu : x.dto.customerId = u := of_decide_eq_true ha
    have hc' : t.calls c = none := by rw [h.calls, hc]; rfl
    refine ⟨_, .start c x pc hx hc' ⟨fun hid => hfresh.1 (h.drawn _ hid), fun hid => hfresh.2.1 (h.drawn _ hid),
      hfresh.2.2⟩ hpc, h.now, h.calls_own hu, h.held, fun id hid => ?_, h.answers, h.keys⟩
    show id ∈ x.id :: x.outboxId :: s.drawn
    simp only [List.mem_cons] at hid ⊢
    exact hid.imp_right (Or.imp_right (h.drawn id))
  | walk c x y a pc pc' ids hc hwalk =>
    have hu : x.dto.customerId = u := hmine hc (by cases hwalk <;> rfl)
    have hy : y.dto.customerId = u := by cases hwalk <;> exact hu
    have hwalk' : Walk t c x a pc y pc' ids := by
      cases hwalk with
      | begin_ => rw [← h.now]; exact .begin_
      | insertPayment => exact .insertPayment
      | insertEvent eventId hfresh => exact .insertEvent eventId fun hid => hfresh (h.drawn _ hid)
      | insertOutbox => exact .insertOutbox
      | answer => exact .answer
    refine ⟨_, .walk c x y a pc pc' ids (h.own hu hc) hwalk', h.now, h.calls_own hy, h.held, fun id hid => ?_, h.answers,
      h.keys⟩
    exact List.mem_append.2 ((List.mem_append.1 hid).imp_right (h.drawn id))
  | violate c x hc htaken =>
    have hu := hmine hc rfl
    refine ⟨_, .violate c x (h.own hu hc) ?_, h.now, h.calls_own hu, h.unlock_own, h.drawn, h.answers, h.keys⟩
    rw [h.findKey hu]
    exact htaken
  | insertKey c x hc hfree hheld =>
    have hu := hmine hc rfl
    refine ⟨_, .insertKey c x (h.own hu hc) ((h.findKey hu).trans hfree) ?_, h.now, h.calls_own hu, fun p c' => ?_, h.drawn,
      h.answers, h.keys⟩
    -- who holds the entry on its own holds it among all the calls too
    · rw [Option.eq_none_iff_forall_ne_some]
      intro c' hc'
      rw [((h.held _ _).1 hc').1] at hheld
      cases hheld
    · show Function.update t.held x.pair (some c) p = some c' ↔ Function.update s.held x.pair (some c) p = some c' ∧ _
      by_cases hp : p = x.pair
      · subst hp
        rw [Function.update_self, Function.update_self]
        exact ⟨fun heq => ⟨heq, hu⟩, And.left⟩
      · rw [Function.update_of_ne hp, Function.update_of_ne hp, h.held]
  | commit c x hc =>
    have hu := hmine hc rfl
    refine ⟨_, .commit c x (h.own hu hc), h.now, h.calls_own hu, h.unlock_own, h.drawn, h.answers_own _ hu, fun key => ?_⟩
    show (x.store x.payment t.db).findKey u key = (x.store x.payment s.db).findKey u key
    rw [findKey_store, findKey_store, h.keys]
  | read c x hc =>
    have hu := hmine hc rfl
    refine ⟨_, .read c x (h.own hu hc), h.now, ?_, h.held, h.drawn, ?_, h.keys⟩
    · rw [h.findKey hu]
      exact h.calls_own hu
    · dsimp only
      rw [h.findKey hu]
      exact h.answers_own _ hu
  | fail c x pc message hc hpc =>
    have hu := hmine hc rfl
    exact ⟨_, .fail c x pc message (h.own hu hc) hpc, h.now, h.calls_own hu, h.unlock_own, h.drawn, h.answers, h.keys⟩
  | crash c x pc hc hpc =>
    have hu := hmine hc rfl
    exact ⟨_, .crash c x pc (h.own hu hc) hpc, h.now, h.calls_own hu, h.unlock_own, h.drawn, h.answers, h.keys⟩

/-- A step of a call of another customer. -/
theorem Seen.step_other (h : Seen u s t) (hI : SubmissionsInv s) (hs : Step s a s') (ha : concerns u (s, a) = false) :
    Seen u s' t := by
  have hother : ∀ {c x pc}, s.calls c = some ⟨x, pc⟩ →
      customerOf s a = (s.calls c).map (fun call => call.x.dto.customerId) → x.dto.customerId ≠ u := by
    intro c x pc hc hof
    unfold concerns at ha
    rw [hof, hc] at ha
    exact of_decide_eq_false ha
  have hcall : ∀ {c x pc}, s.calls c = some ⟨x, pc⟩ → x.dto.customerId ≠ u →
      ∀ call, s.calls c = some call → call.x.dto.customerId ≠ u := by
    intro c x pc hc hu call hc'
    rw [hc] at hc'
    cases hc'
    exact hu
  cases hs with
  | tick ms => cases ha
  | start c x pc hx hc hfresh hpc =>
    have hu : x.dto.customerId ≠ u := of_decide_eq_false ha
    refine ⟨h.now, h.calls_other hu fun call hcall => ?_, h.held, fun id hid => ?_, h.answers, h.keys⟩
    · rw [hc] at hcall
      cases hcall
    · exact List.mem_cons_of_mem _ (List.mem_cons_of_mem _ (h.drawn id hid))
  | walk c x y a pc pc' ids hc hwalk =>
    have hu : x.dto.customerId ≠ u := hother hc (by cases hwalk <;> rfl)
    have hy : y.dto.customerId ≠ u := by cases hwalk <;> exact hu
    exact ⟨h.now, h.calls_other hy (hcall hc hu), h.held, fun id hid => List.mem_append_right _ (h.drawn id hid), h.answers,
      h.keys⟩
  | violate c x hc htaken =>
    have hu := hother hc rfl
    exact ⟨h.now, h.calls_other hu (hcall hc hu), h.unlock_other hI hu hc, h.drawn, h.answers, h.keys⟩
  | insertKey c x hc hfree hheld =>
    have hu := hother hc rfl
    refine ⟨h.now, h.calls_other hu (hcall hc hu), fun p c' => ?_, h.drawn, h.answers, h.keys⟩
    -- the lock is on another customer's pair
    show t.held p = some c' ↔ Function.update s.held x.pair (some c) p = some c' ∧ p.1 = u
    by_cases hp : p = x.pair
    · subst hp
      rw [h.held]
      exact ⟨fun heq => absurd heq.2 hu, fun heq => absurd heq.2 hu⟩
    · rw [Function.update_of_ne hp, h.held]
  | commit c x hc =>
    have hu := hother hc rfl
    refine ⟨h.now, h.calls_other hu (hcall hc hu), h.unlock_other hI hu hc, h.drawn, h.answers_other _ hu, fun key => ?_⟩
    show t.db.findKey u key = (x.store x.payment s.db).findKey u key
    -- the entry that is inserted is of another customer's pair
    have hpair : x.pair ≠ (u, key) := fun heq => hu (congrArg Prod.fst heq)
    rw [findKey_store, if_neg hpair, Option.or_none, h.keys]
  | read c x hc =>
    have hu := hother hc rfl
    exact ⟨h.now, h.calls_other hu (hcall hc hu), h.held, h.drawn, h.answers_other _ hu, h.keys⟩
  | fail c x pc message hc hpc =>
    have hu := hother hc rfl
    exact ⟨h.now, h.calls_other hu (hcall hc hu), h.unlock_other hI hu hc, h.drawn, h.answers, h.keys⟩
  | crash c x pc hc hpc =>
    have hu := hother hc rfl
    exact ⟨h.now, h.calls_other hu (hcall hc hu), h.unlock_other hI hu hc, h.drawn, h.answers, h.keys⟩

theorem seen_initial (u : String) : Seen u State.initial State.initial where
  now := rfl
  calls _ := rfl
  held _ _ := ⟨fun hp => (by cases hp), fun hp => (by cases hp.1)⟩
  drawn _ hid := hid
  answers := rfl
  keys _ := rfl

/-- The actions of a customer's calls are a run of their own. -/
theorem seen_run {l : List (State × Action)} (h : Run system l s) (u : String) : ∃ l' t, Run system l' t ∧
    l'.map Prod.snd = (l.filter (concerns u)).map Prod.snd ∧ Seen u s t := by
  induction h with
  | init => exact ⟨[], _, .init, rfl, seen_initial u⟩
  | @step l s s' a hr hs ih =>
    obtain ⟨l', t, hr', hl', hseen⟩ := ih
    cases ha : concerns u (s, a) with
    | true =>
      obtain ⟨t', hs', hseen'⟩ := hseen.step_own (step_sound hs) ha
      refine ⟨l' ++ [(t, a)], t', .step hr' (step_complete hs'), ?_, hseen'⟩
      rw [List.filter_append, List.map_append, List.map_append, hl']
      simp [ha]
    | false =>
      have hI : SubmissionsInv s := submissionsInv (hr.reach (C := Free) fun _ _ => trivial)
      refine ⟨l', t, hr', ?_, hseen.step_other hI (step_sound hs) ha⟩
      rw [List.filter_append, List.map_append, hl']
      simp [ha]

end PaymentsProcessor.Submissions
