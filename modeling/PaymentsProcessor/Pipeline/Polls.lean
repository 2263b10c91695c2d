/-
Polls of the relay one after the other. A poll takes the oldest hundred of the submissions that are not published and
that no other poll holds, so a backlog of any length is worked off in order, a hundred rows a poll.
-/
import PaymentsProcessor.Pipeline.Delivery

namespace PaymentsProcessor.Pipeline

open PaymentStatus Worker Relay Reaper Transition PartialMap

variable {β κ : Type} {port : BankPort β κ} {env : Env} {s s' : State β} {a : Action κ} {k : Nat}

/-! ## What polls hold -/

/-- A poll holds submissions, each once, and a lock is one of an open poll on a row it holds. -/
structure PollsInv (s : State β) : Prop where
  batches : All s.polls fun _ poll => (∀ row ∈ poll.rows, row.submitted?.isSome = true) ∧
    (poll.rows.map OutboxRow.id).Nodup
  locks : ∀ id k, s.outboxLocks id = some k →
    ∃ poll, s.polls k = some poll ∧ poll.live = true ∧ id ∈ poll.rows.map OutboxRow.id

theorem nodup_unpublished (h : (s.db.outbox.map OutboxRow.id).Nodup) : ((unpublished s).map OutboxRow.id).Nodup := by
  refine List.Nodup.sublist (List.Sublist.map _ (List.take_sublist _ _)) ?_
  refine ((List.perm_insertionSort _ _).map OutboxRow.id).nodup_iff.2 ?_
  exact h.sublist (List.Sublist.map _ List.filter_sublist)

theorem PollsInv.step (h : PollsInv s) (hids : IdsInv env s) (hs : Step port env s a s') : PollsInv s' := by
  obtain ⟨hbatches, hlocks⟩ := h
  -- a poll that is set anew keeps the locks of the others
  have hother : ∀ {k new id k'}, k' ≠ k → s.outboxLocks id = some k' →
      ∃ poll, Function.update s.polls k new k' = some poll ∧ poll.live = true ∧ id ∈ poll.rows.map OutboxRow.id := by
    intro k new id k' hne hlock
    rw [Function.update_of_ne hne]
    exact hlocks id k' hlock
  cases hs with
  | pollSelect k hk =>
    refine ⟨AllBut.set (All.but hbatches) ⟨fun row hrow => (mem_unpublished hrow).2.2.1, nodup_unpublished hids.nodup⟩,
      fun id k' hlock => ?_⟩
    dsimp only at hlock ⊢
    split at hlock
    · rename_i hmem
      cases hlock
      exact ⟨_, Function.update_self .., rfl, hmem⟩
    · refine hother (fun hc => ?_) hlock
      obtain ⟨poll, hpoll, -⟩ := hlocks id k' hlock
      rw [hc, hk] at hpoll
      cases hpoll
  | pollAdd k poll row data hk =>
    refine ⟨AllBut.set (All.but hbatches) (hbatches hk :), fun id k' hlock => ?_⟩
    by_cases hc : k' = k
    · subst hc
      obtain ⟨poll', hpoll', hlive, hmem⟩ := hlocks id k' hlock
      cases hk.symm.trans hpoll'
      exact ⟨_, Function.update_self .., hlive, hmem⟩
    · exact hother hc hlock
  | pollCommit k poll hk =>
    refine ⟨AllBut.erase (All.but hbatches), fun id k' hlock => ?_⟩
    obtain ⟨hlock, hne⟩ := of_unlock_eq_some hlock
    exact hother hne hlock
  | pollAbort k poll hk =>
    refine ⟨AllBut.set (All.but hbatches) (hbatches hk :), fun id k' hlock => ?_⟩
    obtain ⟨hlock, hne⟩ := of_unlock_eq_some hlock
    exact hother hne hlock
  | _ => exact ⟨hbatches, hlocks⟩

theorem pollsInv {C : State β → Action κ → Prop} (h : Reach (system port env) C s) : PollsInv s :=
  h.invariant (I := PollsInv) ⟨all_empty, fun _ _ hlock => by cases hlock⟩
    fun _ _ _ hr hI _ hs => hI.step (idsInv hr) (step_sound hs)

/-- A poll that is over holds no lock. -/
theorem PollsInv.unlock_eq (h : PollsInv s) (hk : s.polls k = none) : unlock s.outboxLocks k = s.outboxLocks := by
  funext id
  unfold unlock
  split
  · rename_i hlock
    obtain ⟨poll, hpoll, -⟩ := h.locks id k hlock
    rw [hk] at hpoll
    cases hpoll
  · rfl

/-! ## One poll -/

/-- The submissions a poll may take. -/
def backlog (s : State β) : List OutboxRow := s.db.outbox.filter fun row =>
  row.publishedAt = none ∧ row.submitted?.isSome ∧ s.outboxLocks row.id = none

/-- The rows a poll leaves. -/
def later (s : State β) : List OutboxRow := ((backlog s).insertionSort fun a b => a.createdAt ≤ b.createdAt).drop 100

/-- A poll whose adds and commit succeed, with no one interfering. -/
def cycle (k : Nat) (s : State β) : List (Action κ) :=
  .pollSelect k :: (unpublished s).map (fun row => .pollAdd k row.id) ++ [.pollCommit k]

theorem perm_backlog (s : State β) : (unpublished s ++ later s).Perm (backlog s) := by
  unfold later
  rw [show unpublished s = ((backlog s).insertionSort fun a b => a.createdAt ≤ b.createdAt).take 100 from rfl,
    List.take_append_drop]
  exact List.perm_insertionSort _ _

/-- What a poll takes is no younger than what it leaves. -/
theorem unpublished_oldest {row left : OutboxRow} (hrow : row ∈ unpublished s) (hleft : left ∈ later s) :
    row.createdAt ≤ left.createdAt := by
  have hsorted : ((backlog s).insertionSort fun a b => a.createdAt ≤ b.createdAt).Pairwise
      fun a b => a.createdAt ≤ b.createdAt := List.pairwise_insertionSort _ _
  rw [← List.take_append_drop 100 ((backlog s).insertionSort fun a b => a.createdAt ≤ b.createdAt),
    List.pairwise_append] at hsorted
  exact hsorted.2.2 row hrow left hleft

theorem length_later (s : State β) : (later s).length = (backlog s).length - 100 := by
  rw [later, List.length_drop, List.length_insertionSort]

/-- No job changes, and those that are new wait. -/
def Grows (q q' : Queue) : Prop := ∀ id, q' id = q id ∨ q id = none ∧ (q' id).map Job.state = some .waiting

theorem Grows.trans {q q' q'' : Queue} (h : Grows q q') (h' : Grows q' q'') : Grows q q'' := by
  intro id
  rcases h id with hsame | ⟨hnone, hnew⟩ <;> rcases h' id with hsame' | ⟨hnone', hnew'⟩
  · exact Or.inl (hsame'.trans hsame)
  · exact Or.inr ⟨hsame ▸ hnone', hnew'⟩
  · exact Or.inr ⟨hnone, hsame' ▸ hnew⟩
  · rw [hnone'] at hnew
    cases hnew

theorem Grows.isSome {q q' : Queue} (h : Grows q q') {id : String} (hid : (q id).isSome = true) : (q' id).isSome = true := by
  rcases h id with hsame | ⟨hnone, -⟩
  · rw [hsame]
    exact hid
  · rw [hnone] at hid
    cases hid

theorem grows_add (q : Queue) (jobId name : String) (data : JobData) : Grows q (q.add jobId name data .waiting) := by
  intro id
  rw [Queue.add_apply]
  split
  · rename_i hfree
    exact Or.inr ⟨by rw [hfree.1]; exact hfree.2, rfl⟩
  · exact Or.inl rfl

/-- What is left after the adds of a poll: the jobs are in the queue, and the tables are as they were. -/
structure Added (s t : State β) (k : Nat) (ids : List String) : Prop where
  poll : ∀ poll, s.polls k = some poll → t.polls k = some { poll with added := ids.reverse ++ poll.added }
  db : t.db = s.db
  locks : t.outboxLocks = s.outboxLocks
  now : t.now = s.now
  queue : Grows s.queue t.queue
  jobs : ∀ id ∈ ids, (t.queue id).isSome = true

variable (port env) in
/-- The adds of an open poll, one after the other. -/
theorem exists_added : ∀ (rows : List OutboxRow) {s : State β} {poll : Poll}, s.polls k = some poll →
    (∀ row ∈ rows, row ∈ poll.rows) → (∀ row ∈ rows, row.submitted?.isSome = true) → (poll.rows.map OutboxRow.id).Nodup →
    (rows.map OutboxRow.id).Nodup → (∀ row ∈ rows, row.id ∉ poll.added) →
    ∃ t, exec (system port env) s (rows.map fun row => .pollAdd k row.id) = some t ∧ Added s t k (rows.map OutboxRow.id)
  | [], s, poll, hk, _, _, _, _, _ =>
    ⟨s, rfl, fun poll' hk' => hk', rfl, rfl, rfl, fun _ => Or.inl rfl, fun _ h => by cases h⟩
  | row :: rows, s, poll, hk, hmem, hsub, hids, hnodup, hadd => by
    rw [List.map_cons, List.nodup_cons] at hnodup
    obtain ⟨data, hdata⟩ := Option.isSome_iff_exists.1 (hsub row List.mem_cons_self)
    have hfind : poll.rows.find? (fun other => other.id = row.id) = some row := by
      obtain ⟨other, hother⟩ : ∃ other, poll.rows.find? (fun other => other.id = row.id) = some other :=
        Option.isSome_iff_exists.1 (List.find?_isSome.2 ⟨row, hmem row List.mem_cons_self, by simp⟩)
      have hid : other.id = row.id := by simpa using List.find?_some hother
      rw [hother, List.inj_on_of_nodup_map hids (List.mem_of_find?_eq_some hother) (hmem row List.mem_cons_self) hid]
    obtain ⟨u, hadd1, hpoll, hdb, hlocks, hnow, hqueue⟩ : ∃ u, step port env s (.pollAdd k row.id) = some u ∧
        u.polls k = some { poll with added := row.id :: poll.added } ∧ u.db = s.db ∧ u.outboxLocks = s.outboxLocks ∧
        u.now = s.now ∧ u.queue = s.queue.add row.id "payment.submitted" data .waiting := by
      apply Exists.intro
      constructor
      · simp [step, pollAdd, hk, hfind, hdata, hadd row List.mem_cons_self]
        rfl
      · exact ⟨Function.update_self .., rfl, rfl, rfl, rfl⟩
    obtain ⟨t, hexec, ht⟩ := exists_added rows hpoll (fun other hother => hmem other (List.mem_cons_of_mem _ hother))
      (fun other hother => hsub other (List.mem_cons_of_mem _ hother)) hids hnodup.2 fun other hother hin => by
        rcases List.mem_cons.1 hin with heq | hin
        · exact hnodup.1 (heq ▸ List.mem_map_of_mem hother)
        · exact hadd other (List.mem_cons_of_mem _ hother) hin
    have hgrows : Grows s.queue u.queue := by
      rw [hqueue]
      exact grows_add _ _ _ _
    refine ⟨t, ?_, ?_, ht.db.trans hdb, ht.locks.trans hlocks, ht.now.trans hnow, hgrows.trans ht.queue,
      fun id hid => ?_⟩
    · show (step port env s (.pollAdd k row.id)).bind _ = some t
      rw [hadd1]
      exact hexec
    · intro poll' hk'
      cases hk.symm.trans hk'
      rw [ht.poll _ hpoll]
      simp
    · rcases List.mem_cons.1 hid with rfl | hid
      · exact ht.queue.isSome (by rw [hqueue]; exact Queue.add_isSome ..)
      · exact ht.jobs id hid

/-- What a poll does: the rows it takes have their jobs and their marks, the backlog is what it leaves. -/
structure Polled (s t : State β) (k : Nat) : Prop where
  ended : t.polls k = none
  now : t.now = s.now
  outbox : t.db.outbox = (s.db.markPublished ((unpublished s).map OutboxRow.id) s.now).outbox
  jobs : ∀ row ∈ unpublished s, (t.queue row.id).isSome = true
  queue : Grows s.queue t.queue
  backlog : (backlog t).Perm (later s)

theorem exec_append {S : System (State β) (Action κ)} {as bs : List (Action κ)} : ∀ {s t : State β},
    exec S s as = some t → exec S s (as ++ bs) = exec S t bs := by
  induction as with
  | nil => intro s t h; cases h; rfl
  | cons a as ih =>
    intro s t h
    obtain ⟨u, hu, h⟩ := Option.bind_eq_some_iff.1 h
    show (S.step s a).bind _ = _
    rw [hu]
    exact ih h

/-- The rows that were not taken are those that are left. -/
theorem filter_backlog (hids : (s.db.outbox.map OutboxRow.id).Nodup) :
    ((backlog s).filter fun row => row.id ∉ (unpublished s).map OutboxRow.id).Perm (later s) := by
  have hperm := perm_backlog s
  have hnodup : ((unpublished s ++ later s).map OutboxRow.id).Nodup :=
    (hperm.map OutboxRow.id).nodup_iff.2 (hids.sublist (List.Sublist.map _ List.filter_sublist))
  rw [List.map_append, List.nodup_append] at hnodup
  refine (hperm.filter _).symm.trans ?_
  rw [List.filter_append, List.filter_eq_nil_iff.2, List.nil_append, List.filter_eq_self.2]
  · intro row hrow
    refine decide_eq_true fun hin => ?_
    exact hnodup.2.2 _ hin _ (List.mem_map_of_mem hrow) rfl
  · intro row hrow hnot
    exact of_decide_eq_true hnot (List.mem_map_of_mem hrow)

/-- Marked rows are no longer waiting, and the others wait as they did. -/
theorem backlog_marked (db : Db) (locks : String → Option Nat) (ids : List String) (now : Nat) :
    ((db.markPublished ids now).outbox.filter fun row =>
        row.publishedAt = none ∧ row.submitted?.isSome ∧ locks row.id = none) =
      (db.outbox.filter fun row => row.publishedAt = none ∧ row.submitted?.isSome ∧ locks row.id = none).filter
        fun row => row.id ∉ ids := by
  unfold Db.markPublished
  dsimp only
  induction db.outbox with
  | nil => rfl
  | cons row rows ih =>
    rw [List.map_cons]
    by_cases hin : row.id ∈ ids
    · rw [if_pos hin, List.filter_cons_of_neg (by simp), ih, List.filter_cons]
      split
      · rw [List.filter_cons_of_neg (by simpa using hin)]
      · rfl
    · rw [if_neg hin, List.filter_cons, List.filter_cons, ih]
      split
      · rw [List.filter_cons_of_pos (by simpa using hin)]
      · rfl

/-- An undisturbed poll succeeds. -/
theorem exists_polled {C : State β → Action κ → Prop} (h : Reach (system port env) C s) (hk : s.polls k = none) :
    ∃ t, exec (system port env) s (cycle k s) = some t ∧ Polled s t k := by
  have hids := (idsInv h).nodup
  obtain ⟨u, hselect, hpoll, hdb, hlocks, hnow, hqueue⟩ : ∃ u, step port env s (.pollSelect k) = some u ∧
      u.polls k = some ⟨unpublished s, [], true⟩ ∧ u.db = s.db ∧
      u.outboxLocks = (fun id => if id ∈ (unpublished s).map OutboxRow.id then some k else s.outboxLocks id) ∧
      u.now = s.now ∧ u.queue = s.queue := by
    apply Exists.intro
    constructor
    · simp only [step, pollSelect, hk]
      rfl
    · exact ⟨Function.update_self .., rfl, rfl, rfl, rfl⟩
  obtain ⟨v, hadds, hadded⟩ := exists_added port env (unpublished s) hpoll (fun _ h => h)
    (fun row hrow => (mem_unpublished hrow).2.2.1) (nodup_unpublished hids) (nodup_unpublished hids)
    fun _ _ hin => by cases hin
  have hpoll' := hadded.poll _ hpoll
  obtain ⟨t, hcommit, hended, houtbox, hnow', hlocks', hqueue'⟩ : ∃ t, step port env v (.pollCommit k) = some t ∧
      t.polls k = none ∧ t.db.outbox = (s.db.markPublished ((unpublished s).map OutboxRow.id) s.now).outbox ∧
      t.now = s.now ∧ t.outboxLocks = s.outboxLocks ∧ t.queue = v.queue := by
    apply Exists.intro
    constructor
    · have hall : ∀ row ∈ unpublished s, row.id ∈ ((unpublished s).map OutboxRow.id).reverse ++ [] := fun row hrow => by
        rw [List.append_nil, List.mem_reverse]
        exact List.mem_map_of_mem hrow
      simp only [step, pollCommit, hpoll']
      exact if_pos ⟨trivial, hall⟩
    · refine ⟨Function.update_self .., ?_, hadded.now.trans hnow, ?_, rfl⟩
      · dsimp only
        rw [hadded.db, hdb, hadded.now, hnow]
      · -- the locks of this poll are all it has locked
        dsimp only
        rw [hadded.locks, hlocks, ← (pollsInv h).unlock_eq hk]
        funext id
        unfold unlock
        by_cases hin : id ∈ (unpublished s).map OutboxRow.id
        · obtain ⟨row, hrow, rfl⟩ := List.mem_map.1 hin
          simp [hin, (mem_unpublished hrow).2.2.2]
        · simp [hin]
  refine ⟨t, ?_, hended, hnow', houtbox, fun row hrow => ?_, ?_, ?_⟩
  · show (step port env s (.pollSelect k)).bind _ = some t
    rw [hselect]
    refine (exec_append hadds).trans ?_
    show (step port env v (.pollCommit k)).bind _ = some t
    rw [hcommit]
    rfl
  · rw [hqueue']
    exact hadded.jobs _ (List.mem_map_of_mem hrow)
  · rw [hqueue', ← hqueue]
    exact hadded.queue
  · refine List.Perm.trans (List.Perm.of_eq ?_) (filter_backlog hids)
    unfold Pipeline.backlog
    rw [houtbox, hlocks']
    exact backlog_marked _ _ _ _

/-! ## Polls in a row -/

variable (port env) in
/-- So many polls under one number, each over before the next. -/
def drain (k : Nat) : Nat → State β → Option (State β)
  | 0, s => some s
  | m + 1, s => (exec (system port env) s (cycle k s)).bind (drain k m)

/-- The row is marked, and its job is in the queue. -/
def Published (t : State β) (id : String) : Prop :=
  (t.queue id).isSome = true ∧ ∃ row ∈ t.db.outbox, row.id = id ∧ row.publishedAt ≠ none

/-- What `m` polls make of a backlog: a hundred rows fewer for each, the others published, no row before an older one,
and no job but those is touched. -/
structure Drained (s t : State β) (m : Nat) : Prop where
  length : (backlog t).length = (backlog s).length - 100 * m
  left : ∀ row ∈ backlog t, row ∈ backlog s
  published : ∀ row ∈ backlog s, row ∉ backlog t → Published t row.id
  ordered : ∀ row ∈ backlog s, row ∉ backlog t → ∀ other ∈ backlog t, row.createdAt ≤ other.createdAt
  kept : ∀ id, Published s id → Published t id
  queue : Grows s.queue t.queue

theorem Polled.kept (h : Polled s s' k) {id : String} (hid : Published s id) : Published s' id := by
  obtain ⟨hjob, row, hrow, rfl, hpub⟩ := hid
  refine ⟨h.queue.isSome hjob, ?_⟩
  rw [h.outbox]
  refine ⟨_, List.mem_map_of_mem hrow, ?_, ?_⟩
  · split <;> rfl
  · split
    · rintro ⟨⟩
    · exact hpub

/-- What a poll has taken is published. -/
theorem Polled.published (h : Polled s s' k) {row : OutboxRow} (hrow : row ∈ unpublished s) : Published s' row.id := by
  refine ⟨h.jobs row hrow, ?_⟩
  rw [h.outbox]
  refine ⟨_, List.mem_map_of_mem (mem_unpublished hrow).1, ?_, ?_⟩
  · split <;> rfl
  · rw [if_pos (List.mem_map_of_mem hrow)]
    rintro ⟨⟩

theorem Drained.cons {t u : State β} {m : Nat} (hu : Polled s u k) (ht : Drained u t m) : Drained s t (m + 1) := by
  have hleft : ∀ row ∈ backlog t, row ∈ later s := fun row hrow => hu.backlog.mem_iff.1 (ht.left row hrow)
  have hcases : ∀ row ∈ backlog s, row ∈ unpublished s ∨ row ∈ backlog u := fun row hrow =>
    (List.mem_append.1 ((perm_backlog s).mem_iff.2 hrow)).imp_right hu.backlog.mem_iff.2
  refine ⟨?_, fun row hrow => ?_, fun row hrow hnot => ?_, fun row hrow hnot other hother => ?_, fun id hid => ?_,
    hu.queue.trans ht.queue⟩
  · rw [ht.length, hu.backlog.length_eq, length_later]
    omega
  · exact (perm_backlog s).mem_iff.1 (List.mem_append_right _ (hleft row hrow))
  · rcases hcases row hrow with htaken | hlater
    · exact ht.kept _ (hu.published htaken)
    · exact ht.published row hlater hnot
  · rcases hcases row hrow with htaken | hlater
    · exact unpublished_oldest htaken (hleft other hother)
    · exact ht.ordered row hlater hnot other hother
  · exact ht.kept id (hu.kept hid)

theorem exists_drained {C : State β → Action κ → Prop} (h : Reach (system port env) C s) (hk : s.polls k = none) (m : Nat) :
    ∃ t, drain port env k m s = some t ∧ Drained s t m := by
  have hfree := h.free
  clear h
  induction m generalizing s with
  | zero =>
    exact ⟨s, rfl, by simp, fun _ hrow => hrow, fun _ hrow hnot => absurd hrow hnot, fun _ hrow hnot => absurd hrow hnot,
      fun _ hid => hid, fun _ => Or.inl rfl⟩
  | succ m ih =>
    obtain ⟨u, hcycle, hu⟩ := exists_polled (k := k) hfree hk
    obtain ⟨t, hdrain, ht⟩ := ih hu.ended (hfree.exec hcycle)
    refine ⟨t, ?_, ht.cons hu⟩
    unfold drain
    rw [hcycle]
    exact hdrain

/-- From any reached state, however long its backlog, polls that nobody disturbs work it off in order, a hundred rows
each. -/
theorem relay_drains {C : State β → Action κ → Prop} (h : Reach (system port env) C s) (hk : s.polls k = none) (m : Nat) :
    ∃ t, drain port env k m s = some t ∧ Drained s t m :=
  exists_drained h hk m

/-- Two submissions in one poll. -/
theorem relay_drains_two : ∃ s t, Reach (system SimulatedBankAdapter.port standard) Free s ∧ (backlog s).length = 2 ∧
    drain SimulatedBankAdapter.port standard 0 1 s = some t ∧ Drained s t 1 := by
  obtain ⟨s, hs, hp⟩ := exists_reach_of_exec (show (exec (system SimulatedBankAdapter.port standard)
    (system SimulatedBankAdapter.port standard).init
      [.submit order "key" "hash" "corr", .tick 5, .submit order "key2" "hash2" "corr2"]).any
      (fun s => (backlog s).length = 2 ∧ s.polls 0 = none) = true by decide)
  obtain ⟨hlength, hpolls⟩ := of_decide_eq_true hp
  obtain ⟨t, hdrain, ht⟩ := relay_drains hs hpolls 1
  exact ⟨s, t, hs, hlength, hdrain, ht⟩

end PaymentsProcessor.Pipeline
