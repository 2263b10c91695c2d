/-
What can still become of an event. The constraints of the deliveries never stop a poll: of what it holds nothing was
delivered before. So a terminal event that is not yet dispatched can always be, behind however many others, and each
delivery made of it can come to its receiver.
-/
import PaymentsProcessor.Webhooks.Fanout
import PaymentsProcessor.Webhooks.Recovery

namespace PaymentsProcessor.Webhooks

open Transition PartialMap Processor Dispatcher Webhooks.Reaper

variable {env : Env} {s s' t : State} {a : Action} {k : Nat} {C : State → Action → Prop}

/-! ## Keys -/

/-- The ids of the deliveries were drawn once each, no event has two for one endpoint, the endpoints a poll has read are
distinct, and locks are held by polls. -/
structure KeysInv (env : Env) (s : State) : Prop where
  ids : Minted env s.ulids (s.deliveries.map WebhookDelivery.id)
  targets : (targets s.deliveries).Nodup
  endpoints : All s.polls fun _ poll => (poll.endpoints.map WebhookEndpoint.id).Nodup
  holders : All s.eventLocks fun _ k => (s.polls k).isSome = true
  polls : FinitelyMany s.polls

theorem deliveriesFor_ids (began n : Nat) (events : List OutboxRow) (endpoints : List WebhookEndpoint) :
    (deliveriesFor env began n events endpoints).map WebhookDelivery.id =
      (List.range' 0 (deliveriesFor env began n events endpoints).length).map fun i => env.u.ulid (n + i) := by
  unfold deliveriesFor
  rw [List.map_map, List.length_map, List.length_zipIdx, ← List.zipIdx_map_snd, List.map_map]
  rfl

/-- The ids of a poll's deliveries are drawn one after the other. -/
theorem Minted.deliveriesFor {n : Nat} {ids : List String} (h : Minted env n ids) (began : Nat) (events : List OutboxRow)
    (endpoints : List WebhookEndpoint) :
    Minted env (n + (deliveriesFor env began n events endpoints).length)
      (ids ++ (deliveriesFor env began n events endpoints).map WebhookDelivery.id) := by
  rw [deliveriesFor_ids]
  refine ⟨List.nodup_append.2 ⟨h.1, ?_, ?_⟩, fun id hid => ?_⟩
  · exact List.Nodup.map (fun i j hij => Nat.add_left_cancel (env.u.injective hij)) List.nodup_range'
  · rintro id hid _ hnew rfl
    obtain ⟨m, hm, rfl⟩ := h.2 id hid
    obtain ⟨i, -, heq⟩ := List.mem_map.1 hnew
    have := env.u.injective heq
    omega
  · rcases List.mem_append.1 hid with hold | hnew
    · obtain ⟨m, hm, rfl⟩ := h.2 id hold
      exact ⟨m, by omega, rfl⟩
    · obtain ⟨i, hi, rfl⟩ := List.mem_map.1 hnew
      have := List.mem_range'_1.1 hi
      exact ⟨n + i, by omega, rfl⟩

/-- The deliveries of a batch of which nothing was delivered are new. -/
theorem nodup_targets {deliveries : List WebhookDelivery} {events : List OutboxRow} {endpoints : List WebhookEndpoint}
    (h : (targets deliveries).Nodup) (hevents : (events.map OutboxRow.id).Nodup)
    (hendpoints : (endpoints.map WebhookEndpoint.id).Nodup)
    (hnone : ∀ row ∈ events, endpointsOf (targets deliveries) row.id = []) (began n : Nat) :
    (targets (deliveries ++ deliveriesFor env began n events endpoints)).Nodup := by
  unfold targets
  rw [List.map_append]
  change (targets deliveries ++ targets (deliveriesFor env began n events endpoints)).Nodup
  rw [targets_deliveriesFor]
  refine List.nodup_append.2 ⟨h, ?_, ?_⟩
  · refine List.nodup_flatMap.2 ⟨fun row _ => ?_, ?_⟩
    · refine List.Nodup.of_map Prod.snd ?_
      rw [List.map_map]
      exact hendpoints
    · refine (List.pairwise_map.1 hevents).imp fun {row row'} hne => List.disjoint_left.2 ?_
      intro pair hpair hpair'
      obtain ⟨_, -, rfl⟩ := List.mem_map.1 hpair
      obtain ⟨_, -, heq⟩ := List.mem_map.1 hpair'
      exact hne (Prod.mk.inj heq).1.symm
  · rintro pair hpair _ hnew rfl
    obtain ⟨row, hrow, hin⟩ := List.mem_flatMap.1 hnew
    obtain ⟨endpoint, -, rfl⟩ := List.mem_map.1 hin
    have hmem : endpoint.id ∈ endpointsOf (targets deliveries) row.id :=
      List.mem_map.2 ⟨_, List.mem_filter.2 ⟨hpair, decide_eq_true rfl⟩, rfl⟩
    rw [hnone row hrow] at hmem
    cases hmem

theorem constraints_eq_true {deliveries : List WebhookDelivery} : constraints deliveries = true ↔
    (deliveries.map WebhookDelivery.id).Nodup ∧ (targets deliveries).Nodup := by
  unfold constraints targets
  exact decide_eq_true_iff

/-- The constraints never stop a commit. -/
theorem KeysInv.constraints (h : KeysInv env s) (hI : FanoutInv env s) {poll : Poll} (hk : s.polls k = some poll)
    (hpc : poll.pc = .located) :
    constraints (s.deliveries ++ deliveriesFor env poll.began s.ulids poll.events poll.endpoints) = true := by
  have hhold : HoldInv s.outbox s.eventLocks k poll.events := hI.polls hk (by rw [hpc]; rfl)
  refine constraints_eq_true.2 ⟨?_, nodup_targets h.targets hhold.nodup (h.endpoints hk) (fun row hrow => ?_) _ _⟩
  · rw [List.map_append]
    exact (h.ids.deliveriesFor poll.began poll.events poll.endpoints).1
  · exact hI.unmarked row (hhold.waiting row hrow).1 (hhold.waiting row hrow).2.1

theorem KeysInv.step (h : KeysInv env s) (hI : FanoutInv env s) (hs : Step env s a s') : KeysInv env s' := by
  obtain ⟨hids, htargets, hendpoints, hholders, hpolls⟩ := h
  -- the polls there are stay
  have hkept : ∀ {k new}, All s.eventLocks fun _ k' => (Function.update s.polls k (some new) k').isSome = true := by
    intro k new id k' hk'
    by_cases hc : k' = k
    · subst hc
      rw [Function.update_self]
      rfl
    · rw [Function.update_of_ne hc]
      exact hholders hk'
  have hunlocked : ∀ {k k' new}, All (unlock s.eventLocks k') fun _ k'' =>
      (Function.update s.polls k (some new) k'').isSome = true := by
    intro k k' new id k'' hk''
    exact hkept (of_unlock_eq_some hk'').1
  cases hs with
  | emit => exact ⟨hids.mono (Nat.le_succ _), htargets, hendpoints, hholders, hpolls⟩
  | insertEndpoint => exact ⟨hids.mono (Nat.le_succ _), htargets, hendpoints, hholders, hpolls⟩
  | pollBegin k hk => exact ⟨hids, htargets, hendpoints.but.set List.nodup_nil, hkept, hpolls.update _ _⟩
  | pollNone k poll hk => exact ⟨hids, htargets, hendpoints.but.set (hendpoints hk :), hkept, hpolls.update _ _⟩
  | pollSelect k poll hk =>
    refine ⟨hids, htargets, hendpoints.but.set (hendpoints hk :), fun id k' hk' => ?_, hpolls.update _ _⟩
    dsimp only at hk'
    split at hk'
    · cases hk'
      show (Function.update s.polls k _ k).isSome = true
      rw [Function.update_self]
      rfl
    · exact hkept hk'
  | pollEndpoints k poll hk =>
    refine ⟨hids, htargets, hendpoints.but.set ?_, hkept, hpolls.update _ _⟩
    exact hI.endpoints.1.sublist (List.filter_sublist.map _)
  | pollCommit k poll rows hk hpc hrows hconstraints =>
    subst hrows
    refine ⟨?_, (constraints_eq_true.1 hconstraints).2, hendpoints.but.set (hendpoints hk :), hunlocked, hpolls.update _ _⟩
    show Minted env _ ((s.deliveries ++ _).map WebhookDelivery.id)
    rw [List.map_append]
    exact hids.deliveriesFor _ _ _
  | pollAdd k id poll left hk => exact ⟨hids, htargets, hendpoints.but.set (hendpoints hk :), hkept, hpolls.update _ _⟩
  | pollEnd k poll hk => exact ⟨hids, htargets, hendpoints.but.set (hendpoints hk :), hunlocked, hpolls.update _ _⟩
  | write r run d w =>
    have hsame : (update s.deliveries d.id w.set).map WebhookDelivery.id = s.deliveries.map WebhookDelivery.id := by
      unfold update
      rw [List.map_map]
      refine List.map_congr_left fun e _ => ?_
      rw [Function.comp_apply]
      split
      · exact w.set_id e
      · rfl
    refine ⟨?_, ?_, hendpoints, hholders, hpolls⟩
    · show Minted env _ ((update s.deliveries d.id w.set).map WebhookDelivery.id)
      rw [hsame]
      exact hids
    · show (Webhooks.targets (update s.deliveries d.id w.set)).Nodup
      rw [targets_update]
      exact htargets
  | _ => exact ⟨hids, htargets, hendpoints, hholders, hpolls⟩

theorem keysInv (h : Reach (system env) C s) : KeysInv env s :=
  h.invariant (I := KeysInv env)
    ⟨⟨List.nodup_nil, fun _ hid => absurd hid List.not_mem_nil⟩, List.nodup_nil, all_empty, all_empty, finitelyMany_empty⟩
    fun _ _ _ hr hI _ hs => hI.step (fanoutInv hr) (step_sound hs)

/-! ## A poll -/

variable {reply : Reply}

/-- A poll from its begin to its commit, which nobody disturbs. -/
structure Dispatched (env : Env) (reply : Reply) (s t : State) : Prop where
  path : Path (system env) (answering reply) s t
  outbox : t.outbox = markDispatched s.outbox ((undispatched s).map OutboxRow.id) s.now
  deliveries : t.deliveries = s.deliveries ++ deliveriesFor env s.now s.ulids (undispatched s) (activeEndpoints s)
  endpoints : t.endpoints = s.endpoints
  locks : ∀ id, s.eventLocks id = none → t.eventLocks id = none

variable (reply) in
/-- If there is something to dispatch, it can be dispatched. -/
theorem exists_dispatched (h : Reach (system env) C s) (hnonempty : undispatched s ≠ []) :
    ∃ t, Dispatched env reply s t := by
  obtain ⟨k, -, hk⟩ := (keysInv h).polls.exists_free Function.injective_id 0
  have hk : s.polls k = none := hk
  obtain ⟨s1, h1, hk1, hsame1⟩ : ∃ s1, step env s (.pollBegin k) = some s1 ∧ s1.polls k = some ⟨s.now, [], [], .begun⟩ ∧
      s1.outbox = s.outbox ∧ s1.deliveries = s.deliveries ∧ s1.endpoints = s.endpoints ∧ s1.ulids = s.ulids ∧
      s1.eventLocks = s.eventLocks ∧ s1.now = s.now := by
    apply Exists.intro
    constructor
    · simp only [step, pollBegin, hk]
      rfl
    · exact ⟨Function.update_self .., rfl, rfl, rfl, rfl, rfl, rfl⟩
  obtain ⟨hout1, hdel1, hend1, hulids1, hlocks1, hnow1⟩ := hsame1
  have hbatch : undispatched s1 = undispatched s := by
    unfold undispatched
    rw [hout1, hlocks1]
  obtain ⟨s2, h2, hk2, hsame2⟩ : ∃ s2, step env s1 (.pollSelect k) = some s2 ∧
      s2.polls k = some ⟨s.now, undispatched s, [], .selected⟩ ∧ s2.outbox = s.outbox ∧ s2.deliveries = s.deliveries ∧
      s2.endpoints = s.endpoints ∧ s2.ulids = s.ulids ∧
      s2.eventLocks = (fun id => if id ∈ (undispatched s).map OutboxRow.id then some k else s.eventLocks id) ∧
      s2.now = s.now := by
    cases hrows : undispatched s with
    | nil => exact absurd hrows hnonempty
    | cons row rows =>
      apply Exists.intro
      constructor
      · simp only [step, pollSelect, hk1, hbatch, hrows]
        rfl
      · exact ⟨Function.update_self .., hout1, hdel1, hend1, hulids1, by rw [← hlocks1], hnow1⟩
  obtain ⟨hout2, hdel2, hend2, hulids2, hlocks2, hnow2⟩ := hsame2
  obtain ⟨s3, h3, hk3, hsame3⟩ : ∃ s3, step env s2 (.pollEndpoints k) = some s3 ∧
      s3.polls k = some ⟨s.now, undispatched s, activeEndpoints s, .located⟩ ∧ s3.outbox = s.outbox ∧
      s3.deliveries = s.deliveries ∧ s3.endpoints = s.endpoints ∧ s3.ulids = s.ulids ∧ s3.eventLocks = s2.eventLocks ∧
      s3.now = s.now := by
    have hactive : activeEndpoints s2 = activeEndpoints s := congrArg (List.filter WebhookEndpoint.active) hend2
    apply Exists.intro
    constructor
    · simp only [step, pollEndpoints, hk2, hactive]
      rfl
    · exact ⟨Function.update_self .., hout2, hdel2, hend2, hulids2, rfl, hnow2⟩
  obtain ⟨hout3, hdel3, hend3, hulids3, hlocks3, hnow3⟩ := hsame3
  have hpath : Path (system env) (answering reply) s s3 :=
    (Path.single (.pollBegin k) rfl h1).trans ((Path.single (.pollSelect k) rfl h2).trans (Path.single (.pollEndpoints k) rfl h3))
  have hreach : Reach (system env) Free s3 := h.free.path hpath
  have hconstraints := (keysInv hreach).constraints (fanoutInv hreach) hk3 rfl
  obtain ⟨s4, h4, hout4, hdel4, hend4, hlocks4⟩ : ∃ s4, step env s3 (.pollCommit k) = some s4 ∧
      s4.outbox = markDispatched s3.outbox ((undispatched s).map OutboxRow.id) s3.now ∧
      s4.deliveries = s3.deliveries ++ deliveriesFor env s.now s3.ulids (undispatched s) (activeEndpoints s) ∧
      s4.endpoints = s3.endpoints ∧ s4.eventLocks = unlock s3.eventLocks k := by
    apply Exists.intro
    constructor
    · simp only [step, pollCommit, hk3]
      rw [if_pos hconstraints]
    · exact ⟨rfl, rfl, rfl, rfl⟩
  refine ⟨s4, hpath.trans (Path.single (.pollCommit k) rfl h4), by rw [hout4, hout3, hnow3], by rw [hdel4, hdel3, hulids3],
    hend4.trans hend3, fun id hid => ?_⟩
  rw [hlocks4, hlocks3, hlocks2]
  by_cases hmem : id ∈ (undispatched s).map OutboxRow.id
  · simp [unlock, hmem]
  · simp [unlock, hmem, hid]

/-! ## Behind the others -/

/-- The terminal events that are not yet dispatched. -/
def waiting (s : State) : List OutboxRow :=
  s.outbox.filter fun row => row.webhookDispatchedAt = none ∧ row.terminal?.isSome = true

/-- A batch is taken out of those that wait. -/
theorem Dispatched.waiting (h : Dispatched env reply s t) :
    waiting t = (waiting s).filter fun row => row.id ∉ (undispatched s).map OutboxRow.id := by
  unfold Webhooks.waiting
  rw [h.outbox, markDispatched, List.filter_map, List.filter_filter]
  generalize (undispatched s).map OutboxRow.id = ids
  induction s.outbox with
  | nil => rfl
  | cons row rows ih =>
    by_cases hmem : row.id ∈ ids
    · simpa [List.filter_cons, hmem] using ih
    · by_cases hwaits : row.webhookDispatchedAt = none ∧ row.terminal?.isSome = true
      · simpa [List.filter_cons, hmem, hwaits] using ih
      · simpa [List.filter_cons, hmem, hwaits] using ih

theorem undispatched_ne_nil {row : OutboxRow} (hrow : row ∈ s.outbox) (hunmarked : row.webhookDispatchedAt = none)
    (hterminal : row.terminal?.isSome = true) (hfree : s.eventLocks row.id = none) : undispatched s ≠ [] := by
  intro hnil
  have hmem : row ∈ (s.outbox.filter fun row =>
      row.webhookDispatchedAt = none ∧ row.terminal?.isSome ∧ s.eventLocks row.id = none).insertionSort
        fun a b => a.createdAt ≤ b.createdAt :=
    (List.mem_insertionSort _).2 (List.mem_filter.2 ⟨hrow, decide_eq_true ⟨hunmarked, hterminal, hfree⟩⟩)
  rcases List.take_eq_nil_iff.1 hnil with hzero | hempty
  · cases hzero
  · rw [hempty] at hmem
    cases hmem

/-- The event has a delivery to the endpoint, which has not been attempted. -/
def Delivers (s : State) (row : OutboxRow) (endpoint : WebhookEndpoint) (d : WebhookDelivery) : Prop :=
  s.delivery d.id = some d ∧ d.eventId = row.id ∧ d.endpointId = endpoint.id ∧ d.event = row.event ∧ d.status = .pending

variable {row : OutboxRow} {endpoint : WebhookEndpoint}

/-- An event of the batch is delivered to every active endpoint. -/
theorem Dispatched.delivers (h : Dispatched env reply s t) (hr : Reach (system env) C s) (hrow : row ∈ undispatched s)
    (hendpoint : endpoint ∈ s.endpoints) (hactive : endpoint.active = true) : ∃ d, Delivers t row endpoint d := by
  have hpair : (row.id, endpoint.id) ∈ targets (deliveriesFor env s.now s.ulids (undispatched s) (activeEndpoints s)) := by
    rw [targets_deliveriesFor]
    refine List.mem_flatMap.2 ⟨row, hrow, List.mem_map.2 ⟨endpoint, ?_, rfl⟩⟩
    exact List.mem_filter.2 ⟨hendpoint, hactive⟩
  obtain ⟨d, hd, heq⟩ := List.mem_map.1 hpair
  obtain ⟨hevent, hend⟩ := Prod.mk.inj heq
  obtain ⟨row', hrow', hid, hsame⟩ := deliveriesFor_sourced hd
  have hnodup : (s.outbox.map OutboxRow.id).Nodup := (fanoutInv hr).events.1
  have hrow'' : row' = row :=
    List.inj_on_of_nodup_map hnodup (mem_undispatched hrow').1 (mem_undispatched hrow).1 (hid.trans hevent)
  subst hrow''
  have hkeys := keysInv (hr.free.path h.path)
  have hmem : d ∈ t.deliveries := by
    rw [h.deliveries]
    exact List.mem_append_right _ hd
  exact ⟨d, find_of_mem hkeys.ids.1 hmem, hevent, hend, hsame.symm, (of_mem_deliveriesFor hd).1⟩

/-- An event that is not of the batch waits on, unlocked. -/
theorem Dispatched.waits (h : Dispatched env reply s t) (hr : Reach (system env) C s) (hrow : row ∈ Webhooks.waiting s)
    (hother : row ∉ undispatched s) : row ∈ Webhooks.waiting t := by
  rw [h.waiting]
  refine List.mem_filter.2 ⟨hrow, decide_eq_true fun hin => ?_⟩
  obtain ⟨row', hrow', hid⟩ := List.mem_map.1 hin
  have hsame : row' = row :=
    List.inj_on_of_nodup_map (fanoutInv hr).events.1 (mem_undispatched hrow').1 (List.mem_filter.1 hrow).1 hid
  exact hother (hsame ▸ hrow')

/-- Fewer wait after a batch. -/
theorem Dispatched.fewer (h : Dispatched env reply s t) (hnonempty : undispatched s ≠ []) :
    (Webhooks.waiting t).length < (Webhooks.waiting s).length := by
  rw [h.waiting, List.length_filter_lt_length_iff_exists]
  obtain ⟨first, hfirst⟩ := List.exists_mem_of_ne_nil _ hnonempty
  obtain ⟨hmem, hunmarked, hterminal, -⟩ := mem_undispatched hfirst
  refine ⟨first, List.mem_filter.2 ⟨hmem, decide_eq_true ⟨hunmarked, hterminal⟩⟩, fun hnot => ?_⟩
  exact of_decide_eq_true hnot (List.mem_map_of_mem hfirst)

variable (reply) in
theorem exists_delivers {n : Nat} : ∀ {s : State}, Reach (system env) Free s → (Webhooks.waiting s).length ≤ n →
    row ∈ Webhooks.waiting s → s.eventLocks row.id = none → endpoint ∈ s.endpoints → endpoint.active = true →
    ∃ t d, Path (system env) (answering reply) s t ∧ Delivers t row endpoint d := by
  -- by induction on how many wait: a batch takes the event, or others that were before it
  induction n with
  | zero =>
    intro s _ hn hrow
    rw [List.length_eq_zero_iff.1 (Nat.le_zero.1 hn)] at hrow
    cases hrow
  | succ n ih =>
    intro s hr hn hrow hfree hendpoint hactive
    obtain ⟨hmem, hwaits⟩ := List.mem_filter.1 hrow
    obtain ⟨hunmarked, hterminal⟩ := of_decide_eq_true hwaits
    have hnonempty := undispatched_ne_nil hmem hunmarked hterminal hfree
    obtain ⟨u, hu⟩ := exists_dispatched reply hr hnonempty
    by_cases htaken : row ∈ undispatched s
    · obtain ⟨d, hd⟩ := hu.delivers hr htaken hendpoint hactive
      exact ⟨u, d, hu.path, hd⟩
    · have hfewer := hu.fewer hnonempty
      obtain ⟨t, d, hpath, hd⟩ := ih (hr.path hu.path) (by omega) (hu.waits hr hrow htaken) (hu.locks _ hfree)
        (hu.endpoints ▸ hendpoint) hactive
      exact ⟨t, d, hu.path.trans hpath, hd⟩

/-! ## To the receiver -/

/-- A delivery keeps its event and its endpoint. -/
theorem target_of_path {test : Action → Bool} {id : String} {d : WebhookDelivery} (hpath : Path (system env) test s t)
    (hd : s.delivery id = some d) : ∃ d', t.delivery id = some d' ∧ d'.eventId = d.eventId ∧ d'.endpointId = d.endpointId ∧
      d'.event = d.event := by
  induction hpath with
  | refl => exact ⟨d, hd, rfl, rfl, rfl⟩
  | tail _ hlast ih =>
    obtain ⟨d', hd', hevent, hend, hsame⟩ := ih
    obtain ⟨a, -, hs⟩ := hlast
    rcases (step_sound hs).delivery hd' with hstay | ⟨r, run, read, w, -, -, -, -, hset⟩
    · exact ⟨d', hstay, hevent, hend, hsame⟩
    · exact ⟨_, hset, (w.set_eventId d').trans hevent, (w.set_endpointId d').trans hend, (w.set_event d').trans hsame⟩

variable (reply) in
/-- An event that is not yet dispatched can be brought to an active endpoint. -/
theorem exists_delivered (h : Reach (system env) C s) (hrow : row ∈ s.outbox) (hunmarked : row.webhookDispatchedAt = none)
    (hterminal : row.terminal?.isSome = true) (hendpoint : endpoint ∈ s.endpoints) (hactive : endpoint.active = true) :
    ∃ t id d, Path (system env) (answering reply) s t ∧ t.delivery id = some d ∧ d.eventId = row.id ∧
      d.endpointId = endpoint.id ∧ d.event = row.event ∧
      d.status = if reply.lastError = none then .delivered else .dead := by
  -- the poll that holds the event ends
  obtain ⟨u, hpath, hout, hend, hfree⟩ : ∃ u, Path (system env) (answering reply) s u ∧ u.outbox = s.outbox ∧
      u.endpoints = s.endpoints ∧ u.eventLocks row.id = none := by
    cases hlock : s.eventLocks row.id with
    | none => exact ⟨s, .refl, rfl, rfl, hlock⟩
    | some k =>
      obtain ⟨poll, hk⟩ := Option.isSome_iff_exists.1 ((keysInv h).holders hlock)
      obtain ⟨u, hu, hsame⟩ : ∃ u, step env s (.pollEnd k) = some u ∧ u.outbox = s.outbox ∧ u.endpoints = s.endpoints ∧
          u.eventLocks row.id = none := by
        apply Exists.intro
        constructor
        · simp only [step, pollEnd, hk]
          rfl
        · exact ⟨rfl, rfl, if_pos hlock⟩
      exact ⟨u, Path.single (.pollEnd k) rfl hu, hsame⟩
  have hr := h.free.path hpath
  have hwaits : row ∈ waiting u := List.mem_filter.2 ⟨hout ▸ hrow, decide_eq_true ⟨hunmarked, hterminal⟩⟩
  obtain ⟨v, d, hpath', hd, hevent, hendpointId, hsame, hpending⟩ :=
    exists_delivers reply hr (Nat.le_refl _) hwaits hfree (hend ▸ hendpoint) hactive
  have hopen : d.status.final = false := by rw [hpending]; rfl
  obtain ⟨t, d', hpath'', hd', hstatus⟩ := exists_final (hr.path hpath') hd hopen reply
  obtain ⟨e, he, hevent', hend', hsame'⟩ := target_of_path hpath'' hd
  cases hd'.symm.trans he
  exact ⟨t, d.id, d', hpath.trans (hpath'.trans hpath''), hd', hevent'.trans hevent, hend'.trans hendpointId,
    hsame'.trans hsame, hstatus⟩

/-- From any reached state, however many events are before it and whatever holds it, a terminal event that is not yet
dispatched can be delivered to an active endpoint by the dispatcher, the reaper and a worker, if receivers accept; and if
they refuse, its delivery can come to be dead. The constraints of the deliveries never stop a commit on the way. -/
theorem event_deliverable (h : Reach (system env) C s) (hrow : row ∈ s.outbox) (hunmarked : row.webhookDispatchedAt = none)
    (hterminal : row.terminal?.isSome = true) (hendpoint : endpoint ∈ s.endpoints) (hactive : endpoint.active = true)
    (reply : Reply) : ∃ t id d, Path (system env) (answering reply) s t ∧ t.delivery id = some d ∧ d.eventId = row.id ∧
      d.endpointId = endpoint.id ∧ d.event = row.event ∧
      d.status = if reply.lastError = none then .delivered else .dead :=
  exists_delivered reply h hrow hunmarked hterminal hendpoint hactive

/-- A poll holds the event and has not come further. -/
theorem event_deliverable_held : ∃ s row endpoint, Reach (system standard) Free s ∧ row ∈ s.outbox ∧
    row.webhookDispatchedAt = none ∧ row.terminal?.isSome = true ∧ endpoint ∈ s.endpoints ∧ endpoint.active = true ∧
    s.eventLocks row.id = some 0 ∧ ∀ reply : Reply, ∃ t id d, Path (system standard) (answering reply) s t ∧
      t.delivery id = some d ∧ d.eventId = row.id ∧ d.endpointId = endpoint.id ∧ d.event = row.event ∧
      d.status = if reply.lastError = none then .delivered else .dead := by
  obtain ⟨s, hs, hp⟩ := exists_reach_of_exec (show (exec (system standard) (system standard).init (announce.take 4)).any
    (fun s => s.outbox.any (fun row => row.webhookDispatchedAt = none ∧ row.terminal?.isSome = true ∧
      s.eventLocks row.id = some 0) && s.endpoints.any WebhookEndpoint.active) = true by decide)
  obtain ⟨hrow, hendpoint⟩ := Bool.and_eq_true_iff.1 hp
  obtain ⟨row, hrow, hcond⟩ := List.any_eq_true.1 hrow
  obtain ⟨hunmarked, hterminal, hlock⟩ := of_decide_eq_true hcond
  obtain ⟨endpoint, hendpoint, hactive⟩ := List.any_eq_true.1 hendpoint
  exact ⟨s, row, endpoint, hs, hrow, hunmarked, hterminal, hendpoint, hactive, hlock,
    event_deliverable hs hrow hunmarked hterminal hendpoint hactive⟩

end PaymentsProcessor.Webhooks
