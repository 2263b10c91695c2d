/-
How often a stranded payment is re-driven. A tick that claims a payment in PROCESSING moves it, one that claims
it in RETRYING leaves the row as it is, so the next tick claims it again; and a worker whose update had to wait
for the tick writes a time it read before. Where every claim leaves its mark in `updatedAt`, the claims of a
payment lie a deadline apart.
-/
import PaymentsProcessor.Base.History
import PaymentsProcessor.Pipeline.Locks

namespace PaymentsProcessor.Pipeline

open PaymentStatus Worker Reaper Transition PartialMap History

variable {β κ : Type} {port : BankPort β κ} {env : Env} {s s' : State β} {a : Action κ} {pid : String}

/-! ## Claims of a payment -/

/-- A tick claims a payment only when a deadline has passed since every earlier claim of it. -/
def ClaimsSpaced (deadline : Nat) : List (Effect β) → Prop := Justified fun pre e =>
  ∀ k pid status t, e = .reaped k pid status t → ∀ k' status' t', .reaped k' pid status' t' ∈ pre → t' + deadline ≤ t

/-- The time of the last claim of a payment in RETRYING, if the payment has not been moved since. -/
def remark (pid : String) (last : Option Nat) : Effect β → Option Nat
  | .moved _ pid' _ _ _ => if pid' = pid then none else last
  | .reaped _ pid' .RETRYING t => if pid' = pid then some t else last
  | _ => last

def unmarked (pid : String) (h : List (Effect β)) : Option Nat := h.foldl (remark pid) none

/-- The time of an effect that claims the payment. -/
def claimTime (pid : String) : Effect β → Option Nat
  | .reaped _ pid' _ t => if pid' = pid then some t else none
  | _ => none

/-- The times at which a payment has been claimed. -/
def claimTimes (pid : String) (h : List (Effect β)) : List Nat := h.filterMap (claimTime pid)

theorem mem_claimTimes {k t : Nat} {status : PaymentStatus} {h : List (Effect β)} (hm : .reaped k pid status t ∈ h) :
    t ∈ claimTimes pid h :=
  List.mem_filterMap.2 ⟨_, hm, if_pos rfl⟩

/-- The status the next update of a run has to find, and the time it writes. -/
def Pc.swap? : Pc → Option (PaymentStatus × Nat)
  | .claimRead _ status (some clock) => some (status, clock)
  | .settleBegun _ _ (some clock) => some (PROCESSING, clock)
  | _ => none

/-- The next update of a run, if it finds its payment, writes a time that was read after the payment's claims. -/
def writesInTime (s : State β) (r : Nat) : Bool :=
  (s.runs r).all fun run => (Pc.swap? run.pc).all fun swap =>
    !((s.db.payments run.data.paymentId).any fun p => p.status = swap.1) ||
      (claimTimes run.data.paymentId s.history).all fun t => t ≤ swap.2

/-- Claims leave their mark: no tick selects a payment which a tick has claimed in RETRYING and which has not been
moved since, and no worker writes a payment with a time it read before a claim of the payment. -/
def claimsMarked (s : State β) : Action κ → Bool
  | .reapSelect _ pids => pids.all fun pid => unmarked pid s.history = none
  | .claimUpdate r | .retryUpdate r | .finalUpdate r => writesInTime s r
  | _ => true

/-! ## The last unmarked claim -/

theorem unmarked_append (pid : String) (h es : List (Effect β)) :
    unmarked pid (h ++ es) = es.foldl (remark pid) (unmarked pid h) :=
  List.foldl_append

/-- The moves of a batch unmark its payments. -/
theorem foldl_moves (pid : String) (k : Nat) (version : String → Nat) : ∀ (pids : List String) (last : Option Nat),
    (pids.map fun pid' => (.moved (.reaper k) pid' (some PROCESSING) RETRYING (version pid') : Effect β)).foldl
      (remark pid) last = if pid ∈ pids then none else last
  | [], last => by simp
  | pid' :: pids, last => by
    rw [List.map_cons, List.foldl_cons, foldl_moves pid k version pids]
    by_cases hc : pid' = pid
    · simp [remark, hc]
    · simp [remark, hc, Ne.symm hc]

/-- The claims of a batch mark the payments it found in RETRYING. -/
theorem foldl_claims (pid : String) (k now : Nat) : ∀ (stuck : List StuckRow) (last : Option Nat),
    (stuck.map fun row => (.reaped k row.id row.status now : Effect β)).foldl (remark pid) last =
      if ∃ row ∈ stuck, row.id = pid ∧ row.status = RETRYING then some now else last
  | [], last => by simp
  | row :: stuck, last => by
    rw [List.map_cons, List.foldl_cons, foldl_claims pid k now stuck]
    have hrow : remark pid last (.reaped k row.id row.status now : Effect β) =
        if row.id = pid ∧ row.status = RETRYING then some now else last := by
      cases hst : row.status <;> simp [remark]
    simp only [hrow, List.mem_cons, exists_eq_or_imp]
    by_cases hrest : ∃ row ∈ stuck, row.id = pid ∧ row.status = RETRYING
    · rw [if_pos hrest, if_pos (Or.inr hrest)]
    · simp only [hrest, if_false, or_false]

/-- A claim in the history after a batch is an earlier one, or one of a payment of the batch. -/
theorem mem_batch {k time : Nat} {pids : List String} {version : String → Nat} {stuck : List StuckRow} {h : List (Effect β)}
    {k' t : Nat} {pid : String} {status : PaymentStatus}
    (hm : (.reaped k' pid status t : Effect β) ∈ h ++
      (pids.map fun pid => .moved (.reaper k) pid (some PROCESSING) RETRYING (version pid)) ++
      stuck.map fun row => .reaped k row.id row.status time) :
    .reaped k' pid status t ∈ h ∨ ∃ row ∈ stuck, row.id = pid ∧ row.status = status ∧ t = time := by
  rw [List.append_assoc] at hm
  rcases List.mem_append.1 hm with hold | hnew
  · exact Or.inl hold
  · rcases List.mem_append.1 hnew with hmoved | hclaimed
    · obtain ⟨x, -, hx⟩ := List.mem_map.1 hmoved
      cases hx
    · obtain ⟨row, hrow, hx⟩ := List.mem_map.1 hclaimed
      cases hx
      exact Or.inr ⟨row, hrow, rfl, rfl, rfl⟩

/-! ## Marks -/

/-- Every claim of a payment lies in the past; the payment has been written since with a later time, or it was found
RETRYING and has not been moved since. -/
def MarkInv (s : State β) : Prop := ∀ k pid status t, .reaped k pid status t ∈ s.history → t ≤ s.now ∧
  (unmarked pid s.history ≠ none ∨ ∀ p, s.db.payments pid = some p → t ≤ p.updatedAt)

/-- What an open tick has selected was claimed a deadline before its select or earlier, and is PROCESSING or RETRYING;
its clock readings are in order. -/
def TickMarks (deadline now : Nat) (history : List (Effect β)) : Reap → Prop
  | .begun _ clock => ∀ c, clock = some c → c ≤ now
  | .selected _ time stuck clock => time ≤ now ∧ (∀ c, clock = some c → time ≤ c) ∧
      ∀ row ∈ stuck, (row.status = PROCESSING ∨ row.status = RETRYING) ∧
        ∀ k status t, .reaped k row.id status t ∈ history → t + deadline ≤ time
  | _ => True

def DueInv (env : Env) (s : State β) : Prop :=
  All s.reaps fun _ => TickMarks env.cfg.reaperDeadlineMs s.now s.history

/-- A step that neither claims nor writes. -/
theorem MarkInv.keep (h : MarkInv s) {es : List (Effect β)} (hh : s'.history = s.history ++ es)
    (hes : ∀ e ∈ es, ∀ pid last, remark pid last e = last ∧ ∀ k status t, e ≠ .reaped k pid status t)
    (hnow : s.now ≤ s'.now) (hdb : s'.db.payments = s.db.payments) : MarkInv s' := by
  have hunmarked : ∀ pid, unmarked pid s'.history = unmarked pid s.history := by
    intro pid
    rw [hh, unmarked_append]
    refine List.foldlRecOn es (remark pid) (motive := fun last => last = unmarked pid s.history) rfl ?_
    intro last hlast e he
    rw [(hes e he pid last).1, hlast]
  intro k pid status t hm
  rw [hh] at hm
  rcases List.mem_append.1 hm with hold | hnew
  · obtain ⟨hle, hmark⟩ := h k pid status t hold
    rw [hunmarked, hdb]
    exact ⟨Nat.le_trans hle hnow, hmark⟩
  · exact absurd rfl ((hes _ hnew pid none).2 k status t)

/-- A step that moves one payment, and writes a time that is not before the payment's claims. -/
theorem MarkInv.move (h : MarkInv s) (pid : String) {q : Payment} {es : List (Effect β)}
    (hh : s'.history = s.history ++ es)
    (hes : ∀ pid' last, es.foldl (remark pid') last = if pid' = pid then none else last)
    (hclaims : ∀ e ∈ es, ∀ k pid status t, e ≠ .reaped k pid status t)
    (hnow : s'.now = s.now) (hdb : s'.db.payments = Function.update s.db.payments pid (some q))
    (hq : ∀ k status t, .reaped k pid status t ∈ s.history → t ≤ q.updatedAt) : MarkInv s' := by
  intro k pid' status t hm
  rw [hh] at hm
  rcases List.mem_append.1 hm with hold | hnew
  · obtain ⟨hle, hmark⟩ := h k pid' status t hold
    refine ⟨hnow ▸ hle, ?_⟩
    by_cases hc : pid' = pid
    · refine Or.inr fun p hp => ?_
      rw [hdb, hc, Function.update_self] at hp
      cases hp
      exact hq k status t (hc ▸ hold)
    · rw [hh, unmarked_append, hes, if_neg hc, hdb, Function.update_of_ne hc]
      exact hmark
  · exact absurd rfl (hclaims _ hnew k pid' status t)

/-- The update of a run that writes in time. -/
theorem le_of_writesInTime {r clock : Nat} {run : Run} {p : Payment} {status : PaymentStatus} (h : writesInTime s r = true)
    (hr : s.runs r = some run) (hswap : Pc.swap? run.pc = some (status, clock))
    (hp : s.db.payments run.data.paymentId = some p) (hst : p.status = status) :
    ∀ k st t, .reaped k run.data.paymentId st t ∈ s.history → t ≤ clock := by
  unfold writesInTime at h
  rw [hr, Option.all_some, hswap, Option.all_some, hp, Option.any_some] at h
  simp only [hst, decide_true, Bool.not_true, Bool.false_or, List.all_eq_true, decide_eq_true_eq] at h
  exact fun k st t hm => h t (mem_claimTimes hm)

theorem MarkInv.step (h : MarkInv s) (hdue : DueInv env s) (hmarked : claimsMarked s a = true) (hs : Step port env s a s') :
    MarkInv s' := by
  have hmoved : ∀ {actor : Actor} {pid : String} {src : Option PaymentStatus} {dst : PaymentStatus} {version : Nat}
      (pid' : String) (last : Option Nat),
      [(.moved actor pid src dst version : Effect β)].foldl (remark pid') last = if pid' = pid then none else last :=
    fun {_ pid _ _ _} pid' last => by simp [remark, eq_comm]
  cases hs with
  | accepted dto key hash correlationId amountCents row hvalid hconv hrow =>
    refine h.move row.id rfl (fun pid' last => ?_) (by simp) rfl rfl fun k status t hm => ?_
    · simp [remark, eq_comm]
    · rw [hrow]
      exact (h k row.id status t hm).1
  | claim r run began clock p hr hpc hp =>
    exact h.move _ rfl hmoved (by simp) rfl rfl (le_of_writesInTime hmarked hr (by rw [hpc]; rfl) hp rfl)
  | exhaust r run began clock reason p hr hpc hp hst =>
    exact h.move _ rfl hmoved (by simp) rfl rfl (le_of_writesInTime hmarked hr (by rw [hpc]; rfl) hp hst)
  | retry r run began clock reason p hr hpc hp hst =>
    exact h.move _ rfl hmoved (by simp) rfl rfl (le_of_writesInTime hmarked hr (by rw [hpc]; rfl) hp hst)
  | final r run began clock dis target p hr hpc htarget hp hst =>
    exact h.move _ rfl hmoved (by simp) rfl rfl (le_of_writesInTime hmarked hr (by rw [hpc]; rfl) hp hst)
  | reapUpdate k began time clock stuck hk =>
    obtain ⟨hpast, hread, hrows⟩ : TickMarks _ _ _ (.selected began time stuck (some clock)) := hdue hk
    have hclock := hread clock rfl
    intro k' pid status t hm
    -- the tick ends the marks of what it moves, and marks what it found RETRYING
    have hunmarked : ∀ pid, unmarked pid (s.history ++ ((processingIds stuck).map fun pid =>
          .moved (.reaper k) pid (some PROCESSING) RETRYING
            ((((s.db.updateIn (processingIds stuck) (reapSet clock)).payments pid).map Payment.version).getD 0)) ++
          (stuck.map fun row => .reaped k row.id row.status time)) =
        if ∃ row ∈ stuck, row.id = pid ∧ row.status = RETRYING then some time
        else if pid ∈ processingIds stuck then none else unmarked pid s.history := by
      intro pid
      rw [unmarked_append, unmarked_append, foldl_moves pid k _ (processingIds stuck), foldl_claims]
    have hreaped : pid ∈ processingIds stuck → t ≤ clock → ∀ p,
        (s.db.updateIn (processingIds stuck) (reapSet clock)).payments pid = some p → t ≤ p.updatedAt := by
      intro hmem hle p hp
      rw [Db.updateIn_payments, if_pos hmem] at hp
      obtain ⟨q, -, rfl⟩ := Option.map_eq_some_iff.1 hp
      exact hle
    rw [hunmarked]
    rcases mem_batch hm with hold | ⟨row, hrow, rfl, rfl, rfl⟩
    -- a claim of an earlier tick
    · obtain ⟨hle, hmark⟩ := h k' pid status t hold
      refine ⟨hle, ?_⟩
      split
      · exact Or.inl (by simp)
      · split
        · rename_i hmem
          obtain ⟨row, hrow, rfl⟩ := List.mem_map.1 hmem
          have hbefore := (hrows row (List.mem_of_mem_filter hrow)).2 k' status t hold
          exact Or.inr (hreaped hmem (by omega))
        · rename_i hnot
          rw [Db.insertEvents_payments, Db.updateIn_payments, if_neg hnot]
          exact hmark
    -- a claim of this one: what was PROCESSING is written now, what was RETRYING is marked now
    · refine ⟨hpast, ?_⟩
      rcases (hrows row hrow).1 with hst | hst
      · have hmem : row.id ∈ processingIds stuck := List.mem_map_of_mem (List.mem_filter.2 ⟨hrow, by simp [hst]⟩)
        exact Or.inr (hreaped hmem hclock)
      · rw [if_pos ⟨row, hrow, rfl, hst⟩]
        exact Or.inl (by simp)
  | tick ms => exact h.keep (List.append_nil _).symm (fun _ he => absurd he List.not_mem_nil) (Nat.le_add_right _ _) rfl
  | inject | pollAdd | call | refuse | answer | receive | rethrow | timeout | retryAdd | reapAdd =>
    exact h.keep rfl (by simp [remark]) (Nat.le_refl _) rfl
  | _ => exact h.keep (List.append_nil _).symm (fun _ he => absurd he List.not_mem_nil) (Nat.le_refl _) rfl

/-! ## Claims of a step -/

/-- The payment an effect claims. -/
def claimed? : Effect β → Option String
  | .reaped _ pid _ _ => some pid
  | _ => none

/-- A step that is not the commit of a tick claims nothing. -/
theorem Step.claims (h : Step port env s a s') : (∃ k, a = .reapUpdate k) ∨
    (∀ k, a ≠ .reapUpdate k) ∧ ∃ es, s'.history = s.history ++ es ∧ ∀ e ∈ es, claimed? e = none := by
  cases h with
  | reapUpdate k => exact Or.inl ⟨k, rfl⟩
  | walk _ r run pc hr hw =>
    refine Or.inr ⟨?_, [], (List.append_nil _).symm, fun _ he => absurd he List.not_mem_nil⟩
    rintro k rfl
    cases hw
  | accepted | inject | pollAdd | claim | call | refuse | answer | receive | rethrow | timeout | exhaust | retry | final |
    retryAdd | reapAdd => exact Or.inr ⟨by simp, _, rfl, by simp [claimed?]⟩
  | _ => exact Or.inr ⟨by simp, [], (List.append_nil _).symm, fun _ he => absurd he List.not_mem_nil⟩

/-- The batch of a tick claims each of its payments once. -/
theorem filterMap_claimed? (k time : Nat) (pids : List String) (version : String → Nat) (stuck : List StuckRow) :
    ((pids.map fun pid => (.moved (.reaper k) pid (some PROCESSING) RETRYING (version pid) : Effect β)) ++
      stuck.map fun row => (.reaped k row.id row.status time : Effect β)).filterMap claimed? = stuck.map StuckRow.id := by
  rw [List.filterMap_append, List.filterMap_map, List.filterMap_map]
  have hnone : pids.filterMap (claimed? ∘ fun pid =>
      (.moved (.reaper k) pid (some PROCESSING) RETRYING (version pid) : Effect β)) = [] :=
    List.filterMap_eq_nil_iff.2 fun _ _ => rfl
  rw [hnone, List.nil_append]
  exact congrFun (List.filterMap_eq_map (f := StuckRow.id)) stuck

theorem TickMarks.mono {deadline now now' : Nat} {h h' : List (Effect β)} {reap : Reap} (hreap : TickMarks deadline now h reap)
    (hnow : now ≤ now') (hclaims : ∀ k pid status t, .reaped k pid status t ∈ h' → .reaped k pid status t ∈ h) :
    TickMarks deadline now' h' reap := by
  cases reap with
  | begun began clock => exact fun c hc => Nat.le_trans (hreap c hc) hnow
  | selected began time stuck clock =>
    obtain ⟨hpast, hread, hrows⟩ := hreap
    refine ⟨Nat.le_trans hpast hnow, hread, fun row hrow => ⟨(hrows row hrow).1, fun k status t hm => ?_⟩⟩
    exact (hrows row hrow).2 k status t (hclaims k row.id status t hm)
  | committed | adding => trivial

theorem DueInv.step (h : DueInv env s) (hmark : MarkInv s) (hlocks : LockInv s) (hmarked : claimsMarked s a = true)
    (hs : Step port env s a s') : DueInv env s' := by
  have hkeep : ∀ {es : List (Effect β)} {now : Nat}, (∀ e ∈ es, claimed? e = none) → s.now ≤ now →
      All s.reaps fun _ => TickMarks env.cfg.reaperDeadlineMs now (s.history ++ es) := by
    intro es now hes hnow
    refine h.mono fun k reap hreap => hreap.mono hnow fun k' pid status t hm => ?_
    exact (List.mem_append.1 hm).resolve_right fun hnew => by cases hes _ hnew
  cases hs with
  | tick ms => exact h.mono fun k reap hreap => hreap.mono (Nat.le_add_right _ _) fun _ _ _ _ hm => hm
  | reapBegin k hk => exact h.but.set fun c hc => by cases hc
  | deadlineClock k began hk => exact h.but.set fun c hc => by cases hc; exact Nat.le_refl _
  | batchClock k began time stuck hk =>
    obtain ⟨hpast, -, hrows⟩ : TickMarks _ _ _ (.selected began time stuck none) := h hk
    exact h.but.set ⟨hpast, fun c hc => by cases hc; exact hpast, hrows⟩
  | reapSelect k pids began clock stuck hk hnodup hstuck =>
    have hread : TickMarks _ s.now s.history (.begun began (some clock)) := h hk
    obtain ⟨hids, hrows⟩ := mapM_stuckRow hstuck
    refine h.but.set ⟨Nat.le_refl _, (fun c hc => by cases hc), fun row hrow => ?_⟩
    obtain ⟨-, -, p, hp, hcan, hst, -, -, hdue⟩ := stuckRow_eq_some (hrows row hrow)
    refine ⟨hst ▸ hcan, fun k' status t hm => ?_⟩
    -- the last claim has left its mark, so the payment was written after it
    have hnone : unmarked row.id s.history = none :=
      of_decide_eq_true (List.all_eq_true.1 hmarked row.id (hids ▸ List.mem_map_of_mem hrow))
    have hwritten := (hmark k' row.id status t hm).2.resolve_left (fun hne => hne hnone) p hp
    have hclock := hread clock rfl
    omega
  | reapUpdate k began time clock stuck hk =>
    refine AllBut.set (fun k' reap hne hk' => ?_) trivial
    have hreap : TickMarks _ s.now s.history reap := h hk'
    cases reap with
    | selected began' time' stuck' clock' =>
      obtain ⟨hpast, hread, hrows⟩ := hreap
      refine ⟨hpast, hread, fun row hrow => ⟨(hrows row hrow).1, fun k₁ status t hm => ?_⟩⟩
      rcases mem_batch hm with hold | ⟨own, hown, hid, -, -⟩
      · exact (hrows row hrow).2 k₁ status t hold
      · -- another tick's payments are locked by it
        have hlock := ((hlocks hk).2 own hown).1
        have hlock' := ((hlocks hk').2 row hrow).1
        rw [hid, hlock'] at hlock
        exact absurd (Option.some.inj hlock) hne
    | begun began' clock' => exact hreap
    | committed | adding => trivial
  | reapStamp k stuck hk => exact h.but.set trivial
  | reapAdd k stamp stuck row hk => exact (hkeep (by simp [claimed?]) (Nat.le_refl _)).but.set trivial
  | reapEnd k => exact h.but.erase
  | accepted | inject | pollAdd | claim | call | refuse | answer | receive | rethrow | timeout | exhaust | retry | final |
    retryAdd => exact hkeep (by simp [claimed?]) (Nat.le_refl _)
  | _ => exact h

/-! ## Claims lie a deadline apart -/

/-- The claims of a tick that commits follow the earlier ones a deadline later. -/
theorem ClaimsSpaced.step (h : ClaimsSpaced env.cfg.reaperDeadlineMs s.history) (hdue : DueInv env s) (hlocks : LockInv s)
    (hs : Step port env s a s') : ClaimsSpaced env.cfg.reaperDeadlineMs s'.history := by
  rcases hs.claims with ⟨k, rfl⟩ | ⟨-, es, hes, hnone⟩
  · cases hs with
    | walk _ _ _ _ _ hw => cases hw
    | reapUpdate _ began time clock stuck hk =>
      obtain ⟨-, -, hrows⟩ : TickMarks _ _ _ (.selected began time stuck (some clock)) := hdue hk
      rw [List.append_assoc]
      refine h.append_of fun pre e post heq k₁ pid status t he k' status' t' hm => ?_
      subst he
      have hids := congrArg (List.filterMap claimed?) heq
      have hclaim : claimed? (.reaped k₁ pid status t : Effect β) = some pid := rfl
      rw [filterMap_claimed?, List.filterMap_append, List.filterMap_cons_some hclaim] at hids
      have hnodup := (hlocks hk).1
      rw [hids, List.nodup_append] at hnodup
      obtain ⟨row, hrow, hx⟩ : ∃ row ∈ stuck, (.reaped k row.id row.status time : Effect β) = .reaped k₁ pid status t := by
        have hmem := List.mem_append_right pre (List.mem_cons_self (a := Effect.reaped k₁ pid status t) (l := post))
        rw [← heq] at hmem
        rcases List.mem_append.1 hmem with hmoved | hclaimed
        · obtain ⟨x, -, hx⟩ := List.mem_map.1 hmoved
          cases hx
        · exact List.mem_map.1 hclaimed
      cases hx
      rcases List.mem_append.1 hm with hold | hnew
      · exact (hrows row hrow).2 k' status' t' hold
      · -- no other claim of the batch is of the same payment
        have hmem : row.id ∈ pre.filterMap claimed? := List.mem_filterMap.2 ⟨_, hnew, rfl⟩
        exact absurd rfl (hnodup.2.2 _ hmem _ List.mem_cons_self)
  · rw [hes]
    refine h.append fun pre e he k pid status t heq => ?_
    have hno := hnone e he
    rw [heq] at hno
    cases hno

/-- In every run of the pipeline over any bank in which every claim leaves its mark, the claims of every payment lie a
deadline apart. -/
theorem claims_spaced (h : Reach (system port env) (fun s a => claimsMarked s a = true) s) :
    ClaimsSpaced env.cfg.reaperDeadlineMs s.history := by
  have hI : MarkInv s ∧ DueInv env s ∧ ClaimsSpaced env.cfg.reaperDeadlineMs s.history := by
    refine h.invariant (I := fun s => MarkInv s ∧ DueInv env s ∧ ClaimsSpaced env.cfg.reaperDeadlineMs s.history)
      ⟨fun _ _ _ _ hm => absurd hm List.not_mem_nil, all_empty, justified_nil⟩ fun t a t' hr hI hmarked hs => ?_
    obtain ⟨hmark, hdue, hspaced⟩ := hI
    have hrule := step_sound hs
    exact ⟨hmark.step hdue hmarked hrule, hdue.step hmark (lockInv hr) hmarked hrule, hspaced.step hdue (lockInv hr) hrule⟩
  exact hI.2.2

/-- A payment is claimed in RETRYING, re-driven, left by a crashed worker, and claimed again. -/
theorem claims_spaced_twice : ∃ s,
    Reach (system SimulatedBankAdapter.port standard) (fun s a => claimsMarked s a = true) s ∧
    claimTimes "0" s.history = [60201, 120202] ∧ ClaimsSpaced standard.cfg.reaperDeadlineMs s.history := by
  obtain ⟨s, hs, hp⟩ := exists_reach_of_execIf (show (execIf (system SimulatedBankAdapter.port standard)
    (fun s a => claimsMarked s a = true) (system SimulatedBankAdapter.port standard).init
      (accept order 0 "00" ++ [.setConfig { mode := some .alwaysError }] ++ claim 0 0 "00" ++ call 0 200 ++
        [.settleBegin 0, .readClock 0, .retryUpdate 0, .fail 0, .finish 0] ++ reap 0 60001 "0" ++
        claim 1 0 "0:reap:60201" ++ [.crash 0] ++ reap 1 60001 "0")).any
      (fun s => claimTimes "0" s.history = [60201, 120202]) = true by decide)
  exact ⟨s, hs, of_decide_eq_true hp, claims_spaced hs⟩

/-- A run reads the time at 1200 and writes it after the claim at 60201; a second later the next tick claims again. -/
example : ((exec (system SimulatedBankAdapter.port standard) (system SimulatedBankAdapter.port standard).init
    (accept order 0 "00" ++ [.setConfig { mode := some .alwaysError }] ++ claim 0 0 "00" ++ call 0 200 ++ retry 0 1000 ++
      [.dequeue 1 1 "0:retry:1", .claimBegin 1, .claimSelect 1, .readClock 1] ++ reap 0 59001 "0" ++ [.claimUpdate 1] ++
        reap 1 1000 "0")).map fun s => claimTimes "0" s.history) = some [60201, 61201] := by decide

/-- A payment whose retry job could not be added is claimed in RETRYING and re-driven; a second later the next
tick claims it again and adds another job. -/
theorem retrying_claimed_twice : ∃ s, Reach (system SimulatedBankAdapter.port standard) Free s ∧
    (s.queue "0:reap:60201").isSome = true ∧ (s.queue "0:reap:61201").isSome = true ∧
    ¬ ClaimsSpaced standard.cfg.reaperDeadlineMs s.history := by
  obtain ⟨s, hs, hp⟩ := exists_reach_of_exec (show (exec (system SimulatedBankAdapter.port standard)
    (system SimulatedBankAdapter.port standard).init
      (accept order 0 "00" ++ [.setConfig { mode := some .alwaysError }] ++ claim 0 0 "00" ++ call 0 200 ++
        [.settleBegin 0, .readClock 0, .retryUpdate 0, .fail 0, .finish 0] ++ reap 0 60001 "0" ++
        [.tick 1000, .reapBegin 1, .reapClock 1, .reapSelect 1 ["0"], .reapClock 1, .reapUpdate 1, .reapStamp 1,
          .reapAdd 1 "0"])).any
      (fun s => ((s.queue "0:reap:60201").isSome && (s.queue "0:reap:61201").isSome) &&
        (s.history.dropLast.dropLast.any (fun e =>
            match e with | .reaped _ pid _ t => pid = "0" && t = 60201 | _ => false) &&
          s.history.dropLast.getLast?.any fun e =>
            match e with | .reaped _ pid _ t => pid = "0" && t = 61201 | _ => false)) = true by decide)
  rw [Bool.and_eq_true, Bool.and_eq_true, Bool.and_eq_true] at hp
  obtain ⟨⟨hfirst, hsecond⟩, hclaims⟩ := hp
  refine ⟨s, hs, hfirst, hsecond, fun hspaced => ?_⟩
  obtain ⟨pre, x, mid, y, hsplit, hx, hy⟩ := exists_split_last hclaims.1 hclaims.2
  split at hx
  · rename_i k pid status t
    split at hy
    · rename_i k' pid' status' t'
      rw [Bool.and_eq_true, decide_eq_true_iff, decide_eq_true_iff] at hx hy
      obtain ⟨rfl, rfl⟩ := hx
      obtain ⟨rfl, rfl⟩ := hy
      obtain ⟨last, hlast⟩ := List.dropLast_prefix s.history
      rw [hsplit, List.append_assoc] at hlast
      have hle := hspaced hlast.symm k' "0" status' 61201 rfl k status 60201 (by simp)
      exact absurd hle (by decide)
    · cases hy
  · cases hx

end PaymentsProcessor.Pipeline
