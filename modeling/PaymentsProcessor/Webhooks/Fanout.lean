/-
The fan-out of terminal events to endpoints. A poll locks its events until its commit marks them and inserts their
deliveries at once, so that a marked event has the deliveries one poll has inserted, and an unmarked one none.
-/
import PaymentsProcessor.Webhooks.Snapshots

namespace PaymentsProcessor.Webhooks

open Transition PartialMap Processor Dispatcher Webhooks.Reaper

variable {env : Env} {s s' : State} {a : Action} {l : List (State × Action)} {k : Nat}

/-! ## Events and endpoints of deliveries -/

/-- The event and the endpoint of each delivery. -/
def targets (deliveries : List WebhookDelivery) : List (String × String) :=
  deliveries.map fun d => (d.eventId, d.endpointId)

/-- The endpoints an event is paired with. -/
def endpointsOf (pairs : List (String × String)) (eventId : String) : List String :=
  (pairs.filter fun pair => pair.1 = eventId).map Prod.snd

theorem endpointsOf_append (pairs pairs' : List (String × String)) (eventId : String) :
    endpointsOf (pairs ++ pairs') eventId = endpointsOf pairs eventId ++ endpointsOf pairs' eventId := by
  simp [endpointsOf]

/-- The endpoints of an event's deliveries. -/
theorem endpointsOf_targets (deliveries : List WebhookDelivery) (eventId : String) :
    endpointsOf (targets deliveries) eventId =
      (deliveries.filter fun d => d.eventId = eventId).map WebhookDelivery.endpointId := by
  unfold endpointsOf targets
  rw [List.filter_map, List.map_map]
  rfl

theorem targets_update (deliveries : List WebhookDelivery) (id : String) (w : StatusWrite) :
    targets (update deliveries id w.set) = targets deliveries := by
  unfold targets update
  rw [List.map_map]
  refine List.map_congr_left fun d _ => ?_
  rw [Function.comp_apply]
  split
  · rw [StatusWrite.set_eventId, StatusWrite.set_endpointId]
  · rfl

theorem targets_deliveriesFor (began n : Nat) (events : List OutboxRow) (endpoints : List WebhookEndpoint) :
    targets (deliveriesFor env began n events endpoints) =
      events.flatMap fun row => endpoints.map fun endpoint => (row.id, endpoint.id) := by
  have hpairs : ∀ (pairs : List (OutboxRow × WebhookEndpoint)) (m : Nat),
      targets ((pairs.zipIdx m).map fun x => deliveryFor x.1.1 x.1.2 (env.u.ulid (n + x.2)) began) =
        pairs.map fun pair => (pair.1.id, pair.2.id) := by
    intro pairs m
    unfold targets
    rw [List.map_map]
    show (pairs.zipIdx m).map ((fun pair => (pair.1.id, pair.2.id)) ∘ Prod.fst) = _
    rw [← List.map_map, List.zipIdx_map_fst]
  unfold deliveriesFor
  rw [hpairs, List.map_flatMap]
  simp [List.map_map, Function.comp_def]

/-- An event of the batch is paired with each endpoint once, and no other event with any. -/
theorem endpointsOf_flatMap (endpoints : List WebhookEndpoint) (eventId : String) : ∀ {events : List OutboxRow},
    (events.map OutboxRow.id).Nodup →
      endpointsOf (events.flatMap fun row => endpoints.map fun endpoint => (row.id, endpoint.id)) eventId =
        if eventId ∈ events.map OutboxRow.id then endpoints.map WebhookEndpoint.id else []
  | [], _ => rfl
  | row :: events, hnodup => by
    rw [List.map_cons, List.nodup_cons] at hnodup
    have ih := endpointsOf_flatMap endpoints eventId hnodup.2
    rw [List.flatMap_cons, endpointsOf_append, ih]
    by_cases hrow : row.id = eventId
    · subst hrow
      have hself : endpointsOf (endpoints.map fun endpoint => (row.id, endpoint.id)) row.id =
          endpoints.map WebhookEndpoint.id := by
        simp [endpointsOf, List.filter_map, Function.comp_def]
      rw [hself, if_neg hnodup.1, List.map_cons, if_pos List.mem_cons_self, List.append_nil]
    · have hnone : endpointsOf (endpoints.map fun endpoint => (row.id, endpoint.id)) eventId = [] := by
        simp [endpointsOf, List.filter_map, Function.comp_def, hrow]
      have hmem : eventId ∈ (row :: events).map OutboxRow.id ↔ eventId ∈ events.map OutboxRow.id := by
        rw [List.map_cons, List.mem_cons]
        exact ⟨fun h => h.resolve_left (Ne.symm hrow), Or.inr⟩
      rw [hnone, List.nil_append]
      simp only [hmem]

/-! ## The invariant -/

/-- The ids are distinct and were drawn before the `n`-th. -/
def Minted (env : Env) (n : Nat) (ids : List String) : Prop := ids.Nodup ∧ ∀ id ∈ ids, ∃ m < n, id = env.u.ulid m

theorem Minted.mono {n n' : Nat} {ids : List String} (h : Minted env n ids) (hle : n ≤ n') : Minted env n' ids := by
  refine ⟨h.1, fun id hid => ?_⟩
  obtain ⟨m, hm, hid⟩ := h.2 id hid
  exact ⟨m, Nat.lt_of_lt_of_le hm hle, hid⟩

theorem Minted.fresh {n : Nat} {ids : List String} (h : Minted env n ids) : env.u.ulid n ∉ ids := by
  intro hmem
  obtain ⟨m, hm, hid⟩ := h.2 _ hmem
  have := env.u.injective hid
  omega

theorem Minted.snoc {n : Nat} {ids : List String} (h : Minted env n ids) : Minted env (n + 1) (ids ++ [env.u.ulid n]) := by
  refine ⟨List.nodup_append.2 ⟨h.1, List.nodup_singleton _, ?_⟩, fun id hid => ?_⟩
  · rintro id hid _ hnew rfl
    rw [List.mem_singleton] at hnew
    subst hnew
    exact h.fresh hid
  · rcases List.mem_append.1 hid with hold | hnew
    · obtain ⟨m, hm, hid⟩ := h.2 id hold
      exact ⟨m, by omega, hid⟩
    · exact ⟨n, by omega, List.mem_singleton.1 hnew⟩

/-- The transaction of the poll holds its events. -/
def PollPc.holds : PollPc → Bool
  | .selected | .located => true
  | _ => false

/-- The events of an open poll: locked by it, and in the outbox as it has read them. -/
structure HoldInv (outbox : List OutboxRow) (locks : String → Option Nat) (k : Nat) (events : List OutboxRow) : Prop where
  nodup : (events.map OutboxRow.id).Nodup
  locked : ∀ row ∈ events, locks row.id = some k
  waiting : ∀ row ∈ events, row ∈ outbox ∧ row.webhookDispatchedAt = none ∧ row.terminal?.isSome = true

/-- Poll `k` has committed an event, with an endpoint for each of its deliveries. -/
def Announced (s : State) (k : Nat) (eventId : String) (endpointIds : List String) : Prop :=
  ∃ poll, s.polls k = some poll ∧ poll.pc.committed = true ∧ eventId ∈ poll.events.map OutboxRow.id ∧
    poll.endpoints.map WebhookEndpoint.id = endpointIds

structure FanoutInv (env : Env) (s : State) : Prop where
  events : Minted env s.ulids (s.outbox.map OutboxRow.id)
  endpoints : Minted env s.ulids (s.endpoints.map WebhookEndpoint.id)
  sourced : ∀ d ∈ s.deliveries, ∃ row ∈ s.outbox, row.id = d.eventId ∧ row.terminal?.isSome = true ∧ row.event = d.event
  polls : All s.polls fun k poll => poll.pc.holds = true → HoldInv s.outbox s.eventLocks k poll.events
  unmarked : ∀ row ∈ s.outbox, row.webhookDispatchedAt = none → endpointsOf (targets s.deliveries) row.id = []
  marked : ∀ row ∈ s.outbox, row.webhookDispatchedAt ≠ none →
    ∃ k, Announced s k row.id (endpointsOf (targets s.deliveries) row.id)

/-- A poll that has committed stays so. -/
theorem Announced.step {eventId : String} {endpointIds : List String} (h : Announced s k eventId endpointIds)
    (hs : Step env s a s') : Announced s' k eventId endpointIds := by
  obtain ⟨poll, hk, hcommitted, hevent, hendpoints⟩ := h
  have hset : ∀ q new, (∀ old, s.polls q = some old → old.pc.committed = true →
        new.pc.committed = true ∧ new.events = old.events ∧ new.endpoints = old.endpoints) →
      ∃ poll, Function.update s.polls q (some new) k = some poll ∧ poll.pc.committed = true ∧
        eventId ∈ poll.events.map OutboxRow.id ∧ poll.endpoints.map WebhookEndpoint.id = endpointIds := by
    intro q new hnew
    by_cases hq : k = q
    · subst hq
      obtain ⟨hpc, hev, hep⟩ := hnew poll hk hcommitted
      exact ⟨new, Function.update_self .., hpc, by rw [hev]; exact hevent, by rw [hep]; exact hendpoints⟩
    · exact ⟨poll, by rw [Function.update_of_ne hq]; exact hk, hcommitted, hevent, hendpoints⟩
  have hopen : ∀ q old, s.polls q = some old → old.pc.committed = false → ∀ (new : Poll) old', s.polls q = some old' →
      old'.pc.committed = true → new.pc.committed = true ∧ new.events = old'.events ∧ new.endpoints = old'.endpoints := by
    intro q old hq hnot new old' hq' hcom
    rw [hq] at hq'
    cases hq'
    rw [hnot] at hcom
    cases hcom
  cases hs with
  | pollBegin q hq =>
    refine hset q _ fun old hold _ => ?_
    rw [hq] at hold
    cases hold
  | pollNone q old hq hpc => exact hset q _ (hopen q old hq (by rw [hpc]; rfl) _)
  | pollSelect q old hq hpc => exact hset q _ (hopen q old hq (by rw [hpc]; rfl) _)
  | pollEndpoints q old hq hpc => exact hset q _ (hopen q old hq (by rw [hpc]; rfl) _)
  | pollCommit q old rows hq hpc => exact hset q _ (hopen q old hq (by rw [hpc]; rfl) _)
  | pollAdd q id old left hq hpc =>
    refine hset q _ fun old' hold' _ => ?_
    rw [hq] at hold'
    cases hold'
    exact ⟨rfl, rfl, rfl⟩
  | pollEnd q old hq =>
    refine hset q _ fun old' hold' hcom => ?_
    rw [hq] at hold'
    cases hold'
    exact ⟨by rw [if_pos hcom]; rfl, rfl, rfl⟩
  | _ => exact ⟨poll, hk, hcommitted, hevent, hendpoints⟩

/-! ## Selects and commits -/

theorem mem_undispatched {row : OutboxRow} (h : row ∈ undispatched s) : row ∈ s.outbox ∧
    row.webhookDispatchedAt = none ∧ row.terminal?.isSome = true ∧ s.eventLocks row.id = none := by
  have hmem := List.mem_of_mem_take h
  rw [List.mem_insertionSort, List.mem_filter] at hmem
  exact ⟨hmem.1, of_decide_eq_true hmem.2⟩

theorem nodup_undispatched (h : (s.outbox.map OutboxRow.id).Nodup) : ((undispatched s).map OutboxRow.id).Nodup := by
  refine List.Nodup.sublist (List.Sublist.map _ (List.take_sublist _ _)) ?_
  refine ((List.perm_insertionSort _ _).map OutboxRow.id).nodup_iff.2 ?_
  exact h.sublist (List.Sublist.map _ List.filter_sublist)

/-- The events of the select, as the poll holds them. -/
theorem holdInv_select (h : (s.outbox.map OutboxRow.id).Nodup) :
    HoldInv s.outbox (fun id => if id ∈ (undispatched s).map OutboxRow.id then some k else s.eventLocks id) k
      (undispatched s) where
  nodup := nodup_undispatched h
  locked _ hrow := if_pos (List.mem_map_of_mem hrow)
  waiting _ hrow := ⟨(mem_undispatched hrow).1, (mem_undispatched hrow).2.1, (mem_undispatched hrow).2.2.1⟩

/-- A select takes no lock that is held. -/
theorem HoldInv.select {k' : Nat} {events : List OutboxRow} (h : HoldInv s.outbox s.eventLocks k events) :
    HoldInv s.outbox (fun id => if id ∈ (undispatched s).map OutboxRow.id then some k' else s.eventLocks id) k
      events where
  nodup := h.nodup
  locked row hrow := by
    rw [if_neg]
    · exact h.locked row hrow
    · intro hmem
      obtain ⟨other, hother, hid⟩ := List.mem_map.1 hmem
      have hfree := (mem_undispatched hother).2.2.2
      rw [hid, h.locked row hrow] at hfree
      cases hfree
  waiting := h.waiting

/-- A release of other locks. -/
theorem HoldInv.unlock {k' : Nat} {events : List OutboxRow} (h : HoldInv s.outbox s.eventLocks k events) (hne : k ≠ k') :
    HoldInv s.outbox (unlock s.eventLocks k') k events where
  nodup := h.nodup
  locked row hrow := unlock_eq_some hne (h.locked row hrow)
  waiting := h.waiting

theorem markDispatched_ids (outbox : List OutboxRow) (ids : List String) (now : Nat) :
    (markDispatched outbox ids now).map OutboxRow.id = outbox.map OutboxRow.id := by
  unfold markDispatched
  rw [List.map_map]
  refine List.map_congr_left fun row _ => ?_
  rw [Function.comp_apply]
  split <;> rfl

theorem markDispatched_mem {outbox : List OutboxRow} {row : OutboxRow} (ids : List String) (now : Nat) (h : row ∈ outbox) :
    ∃ row' ∈ markDispatched outbox ids now, row'.id = row.id ∧ row'.event = row.event := by
  refine ⟨_, List.mem_map_of_mem h, ?_⟩
  split <;> exact ⟨rfl, rfl⟩

/-- A commit leaves the events another poll holds as they are. -/
theorem HoldInv.commit {k' now : Nat} {events others : List OutboxRow} (h : HoldInv s.outbox s.eventLocks k events)
    (hother : HoldInv s.outbox s.eventLocks k' others) (hne : k ≠ k') :
    HoldInv (markDispatched s.outbox (others.map OutboxRow.id) now) (PartialMap.unlock s.eventLocks k') k events where
  nodup := h.nodup
  locked row hrow := unlock_eq_some hne (h.locked row hrow)
  waiting row hrow := by
    obtain ⟨hmem, hrest⟩ := h.waiting row hrow
    refine ⟨List.mem_map.2 ⟨row, hmem, if_neg fun hin => ?_⟩, hrest⟩
    obtain ⟨other, hmem', hid⟩ := List.mem_map.1 hin
    have hlock := hother.locked other hmem'
    rw [hid, h.locked row hrow] at hlock
    exact hne (Option.some.inj hlock)

/-- The pairs after a commit. -/
theorem endpointsOf_commit {deliveries : List WebhookDelivery} {events : List OutboxRow}
    {endpoints : List WebhookEndpoint} {began n : Nat} (hnodup : (events.map OutboxRow.id).Nodup) (eventId : String) :
    endpointsOf (targets (deliveries ++ deliveriesFor env began n events endpoints)) eventId =
      endpointsOf (targets deliveries) eventId ++
        if eventId ∈ events.map OutboxRow.id then endpoints.map WebhookEndpoint.id else [] := by
  have happ : targets (deliveries ++ deliveriesFor env began n events endpoints) =
      targets deliveries ++ targets (deliveriesFor env began n events endpoints) := List.map_append
  rw [happ, endpointsOf_append, targets_deliveriesFor, endpointsOf_flatMap endpoints eventId hnodup]

theorem deliveriesFor_sourced {began n : Nat} {events : List OutboxRow} {endpoints : List WebhookEndpoint}
    {d : WebhookDelivery} (h : d ∈ deliveriesFor env began n events endpoints) :
    ∃ row ∈ events, row.id = d.eventId ∧ row.event = d.event := by
  obtain ⟨x, hx, rfl⟩ := List.mem_map.1 h
  have hpair : x.1 ∈ events.flatMap fun row => endpoints.map fun endpoint => (row, endpoint) := by
    rw [← List.zipIdx_map_fst 0 (events.flatMap fun row => endpoints.map fun endpoint => (row, endpoint))]
    exact List.mem_map_of_mem hx
  obtain ⟨row, hrow, hin⟩ := List.mem_flatMap.1 hpair
  obtain ⟨endpoint, -, heq⟩ := List.mem_map.1 hin
  refine ⟨row, hrow, ?_⟩
  rw [← heq]
  exact ⟨rfl, rfl⟩

/-! ## Steps -/

/-- An event without deliveries is paired with no endpoint. -/
theorem endpointsOf_eq_nil {deliveries : List WebhookDelivery} {eventId : String}
    (h : ∀ d ∈ deliveries, d.eventId ≠ eventId) : endpointsOf (targets deliveries) eventId = [] := by
  rw [endpointsOf_targets, List.filter_eq_nil_iff.2, List.map_nil]
  intro d hd
  simpa using h d hd

/-- The commit of a poll. -/
theorem FanoutInv.commit {poll : Poll} {rows : List WebhookDelivery} {now : Nat} (h : FanoutInv env s)
    (hk : s.polls k = some poll) (hpc : poll.pc = .located)
    (hrows : rows = deliveriesFor env poll.began s.ulids poll.events poll.endpoints)
    (hs' : s'.outbox = markDispatched s.outbox (poll.events.map OutboxRow.id) now)
    (hdel : s'.deliveries = s.deliveries ++ rows) (hend : s'.endpoints = s.endpoints)
    (hulids : s'.ulids = s.ulids + rows.length) (hlocks : s'.eventLocks = PartialMap.unlock s.eventLocks k)
    (hpolls : s'.polls = Function.update s.polls k (some { poll with pc := .adding (rows.map WebhookDelivery.id) }))
    (hann : ∀ k id ids, Announced s k id ids → Announced s' k id ids) : FanoutInv env s' := by
  have hhold : HoldInv s.outbox s.eventLocks k poll.events := h.polls hk (by rw [hpc]; rfl)
  -- each event of the poll gets one delivery for each endpoint of the poll; no other event gets any
  have hpairs : ∀ id, endpointsOf (targets s'.deliveries) id = endpointsOf (targets s.deliveries) id ++
      if id ∈ poll.events.map OutboxRow.id then poll.endpoints.map WebhookEndpoint.id else [] := fun id => by
    rw [hdel, hrows]
    exact endpointsOf_commit hhold.nodup id
  refine ⟨?_, ?_, fun d hd => ?_, ?_, fun row hrow hnone => ?_, fun row hrow hsome => ?_⟩
  · rw [hs', markDispatched_ids, hulids]
    exact h.events.mono (Nat.le_add_right _ _)
  · rw [hend, hulids]
    exact h.endpoints.mono (Nat.le_add_right _ _)
  · rw [hs']
    have hsource : ∃ row ∈ s.outbox, row.id = d.eventId ∧ row.terminal?.isSome = true ∧ row.event = d.event := by
      rw [hdel] at hd
      rcases List.mem_append.1 hd with hold | hnew
      · exact h.sourced d hold
      · rw [hrows] at hnew
        obtain ⟨row, hrow, hid, hevent⟩ := deliveriesFor_sourced hnew
        exact ⟨row, (hhold.waiting row hrow).1, hid, (hhold.waiting row hrow).2.2, hevent⟩
    obtain ⟨row, hrow, hid, hterminal, hevent⟩ := hsource
    obtain ⟨row', hrow', hid', hevent'⟩ := markDispatched_mem (poll.events.map OutboxRow.id) now hrow
    refine ⟨row', hrow', hid'.trans hid, ?_, hevent'.trans hevent⟩
    unfold OutboxRow.terminal? at hterminal ⊢
    rw [hevent']
    exact hterminal
  · rw [hpolls, hs', hlocks]
    refine AllBut.set (fun k' other hne hother hholds => ?_) (by rintro ⟨⟩)
    exact (h.polls hother hholds).commit hhold hne
  · rw [hs'] at hrow
    obtain ⟨old, hold, heq⟩ := List.mem_map.1 hrow
    split at heq
    · rw [← heq] at hnone
      cases hnone
    · rename_i hout
      subst heq
      rw [hpairs, if_neg hout, List.append_nil]
      exact h.unmarked old hold hnone
  · rw [hs'] at hrow
    obtain ⟨old, hold, heq⟩ := List.mem_map.1 hrow
    split at heq
    · rename_i hin
      -- marked by this commit: before it the event had no mark, hence no delivery
      have hid : row.id = old.id := by rw [← heq]
      obtain ⟨event, hevent, hevid⟩ := List.mem_map.1 hin
      obtain ⟨hmem, hwaiting, -⟩ := hhold.waiting event hevent
      have hempty : endpointsOf (targets s.deliveries) old.id = [] := by
        rw [← hevid]
        exact h.unmarked event hmem hwaiting
      refine ⟨k, ?_⟩
      rw [hid, hpairs, if_pos hin, hempty, List.nil_append]
      have hself : s'.polls k = some { poll with pc := .adding (rows.map WebhookDelivery.id) } := by
        rw [hpolls]
        exact Function.update_self ..
      exact ⟨_, hself, rfl, hin, rfl⟩
    · rename_i hout
      subst heq
      rw [hpairs, if_neg hout, List.append_nil]
      obtain ⟨k', hk'⟩ := h.marked old hold hsome
      -- marked by an earlier one
      exact ⟨k', hann _ _ _ hk'⟩

theorem FanoutInv.step (h : FanoutInv env s) (hs : Step env s a s') : FanoutInv env s' := by
  have hann : ∀ k id ids, Announced s k id ids → Announced s' k id ids := fun k id ids hk => hk.step hs
  have hmarked' : ∀ row ∈ s.outbox, row.webhookDispatchedAt ≠ none →
      ∃ k, Announced s' k row.id (endpointsOf (targets s.deliveries) row.id) := fun row hrow hsome => by
    obtain ⟨k, hk⟩ := h.marked row hrow hsome
    exact ⟨k, hann k _ _ hk⟩
  obtain ⟨hevents, hendpoints, hsourced, hpolls, hunmarked, hmarked⟩ := h
  cases hs with
  | emit event aggregateId began row hid hnew =>
    -- an event that is only now inserted has no delivery
    have hfresh : ∀ d ∈ s.deliveries, d.eventId ≠ row.id := by
      intro d hd heq
      obtain ⟨old, hold, hsame, -⟩ := hsourced d hd
      refine hevents.fresh ?_
      rw [← hid, ← heq, ← hsame]
      exact List.mem_map_of_mem hold
    refine ⟨?_, hendpoints.mono (Nat.le_succ _), fun d hd => ?_, hpolls.mono fun k poll hhold hpc => ?_,
      fun old hold hnone => ?_, fun old hold hsome => ?_⟩
    · rw [List.map_append, List.map_singleton, hid]
      exact hevents.snoc
    · obtain ⟨old, hold, hrest⟩ := hsourced d hd
      exact ⟨old, List.mem_append_left _ hold, hrest⟩
    · obtain ⟨hnodup, hlocked, hwaiting⟩ := hhold hpc
      exact ⟨hnodup, hlocked, fun old hold => ⟨List.mem_append_left _ (hwaiting old hold).1, (hwaiting old hold).2⟩⟩
    · rcases List.mem_append.1 hold with hold | hold
      · exact hunmarked old hold hnone
      · cases List.mem_singleton.1 hold
        exact endpointsOf_eq_nil hfresh
    · rcases List.mem_append.1 hold with hold | hold
      · exact hmarked' old hold hsome
      · cases List.mem_singleton.1 hold
        exact absurd hnew hsome
  | insertEndpoint url secret endpoint hid =>
    refine ⟨hevents.mono (Nat.le_succ _), ?_, hsourced, hpolls, hunmarked, hmarked'⟩
    rw [List.map_append, List.map_singleton, hid]
    exact hendpoints.snoc
  | deactivate id =>
    refine ⟨hevents, ?_, hsourced, hpolls, hunmarked, hmarked'⟩
    rw [List.map_map, show WebhookEndpoint.id ∘ (fun endpoint : WebhookEndpoint =>
      if endpoint.id = id then { endpoint with active := false } else endpoint) = WebhookEndpoint.id from
        funext fun endpoint => by rw [Function.comp_apply]; split <;> rfl]
    exact hendpoints
  | pollBegin q hq => exact ⟨hevents, hendpoints, hsourced, hpolls.but.set (by rintro ⟨⟩), hunmarked, hmarked'⟩
  | pollNone q poll hq hpc => exact ⟨hevents, hendpoints, hsourced, hpolls.but.set (by rintro ⟨⟩), hunmarked, hmarked'⟩
  | pollSelect q poll hq hpc =>
    refine ⟨hevents, hendpoints, hsourced, ?_, hunmarked, hmarked'⟩
    refine AllBut.set (fun k other hne hother hholds => (hpolls hother hholds).select) fun _ => ?_
    exact holdInv_select hevents.1
  | pollEndpoints q poll hq hpc =>
    have hhold : HoldInv s.outbox s.eventLocks q poll.events := hpolls hq (by rw [hpc]; rfl)
    exact ⟨hevents, hendpoints, hsourced, hpolls.but.set fun _ => hhold, hunmarked, hmarked'⟩
  | pollCommit q poll rows hq hpc hrows =>
    exact FanoutInv.commit ⟨hevents, hendpoints, hsourced, hpolls, hunmarked, hmarked⟩ hq hpc hrows rfl rfl rfl rfl rfl rfl hann
  | pollAdd q id poll left hq hpc =>
    exact ⟨hevents, hendpoints, hsourced, hpolls.but.set (by rintro ⟨⟩), hunmarked, hmarked'⟩
  | pollEnd q poll hq =>
    refine ⟨hevents, hendpoints, hsourced, ?_, hunmarked, hmarked'⟩
    refine AllBut.set (fun k other hne hother hholds => (hpolls hother hholds).unlock hne) fun hholds => ?_
    dsimp only at hholds
    split at hholds <;> cases hholds
  | write r run d w basis hr hpc =>
    -- a write keeps the event and the endpoint of its delivery
    refine ⟨hevents, hendpoints, fun e he => ?_, hpolls, fun row hrow hnone => ?_, fun row hrow hsome => ?_⟩
    · obtain ⟨old, hold, rfl⟩ := List.mem_map.1 he
      split
      · rw [StatusWrite.set_eventId, StatusWrite.set_event]
        exact hsourced old hold
      · exact hsourced old hold
    · dsimp only
      rw [targets_update]
      exact hunmarked row hrow hnone
    · dsimp only
      rw [targets_update]
      exact hmarked' row hrow hsome
  | _ => exact ⟨hevents, hendpoints, hsourced, hpolls, hunmarked, hmarked'⟩

theorem fanoutInv_initial : FanoutInv env State.initial where
  events := ⟨List.nodup_nil, fun _ hid => absurd hid List.not_mem_nil⟩
  endpoints := ⟨List.nodup_nil, fun _ hid => absurd hid List.not_mem_nil⟩
  sourced _ hd := absurd hd List.not_mem_nil
  polls := all_empty
  unmarked _ hrow := absurd hrow List.not_mem_nil
  marked _ hrow := absurd hrow List.not_mem_nil

theorem fanoutInv {C : State → Action → Prop} (h : Reach (system env) C s) : FanoutInv env s :=
  h.invariant (I := FanoutInv env) fanoutInv_initial fun _ _ _ _ hI _ hs => hI.step (step_sound hs)

/-! ## The reads of the endpoints -/

/-- Poll `k` has read its endpoints in a step of the run. -/
def ReadIn (l : List (State × Action)) (k : Nat) (poll : Poll) : Prop :=
  ∃ x ∈ l, x.2 = .pollEndpoints k ∧ poll.endpoints = activeEndpoints x.1

/-- Whatever a poll commits for its events, it has read in the run. -/
def EndpointsReadInv (l : List (State × Action)) (s : State) : Prop :=
  All s.polls fun k poll =>
    poll.pc = .located ∨ poll.pc.committed = true ∧ poll.events ≠ [] → ReadIn l k poll

theorem EndpointsReadInv.step (h : EndpointsReadInv l s) (hs : Step env s a s') : EndpointsReadInv (l ++ [(s, a)]) s' := by
  have hold : EndpointsReadInv (l ++ [(s, a)]) s := h.mono fun k poll hread hpc => by
    obtain ⟨x, hx, hread⟩ := hread hpc
    exact ⟨x, List.mem_append_left _ hx, hread⟩
  cases hs with
  | pollBegin k hk => exact AllBut.set (All.but hold) (by simp [PollPc.committed])
  | pollNone k poll hk hpc => exact AllBut.set (All.but hold) (by simp)
  | pollSelect k poll hk hpc => exact AllBut.set (All.but hold) (by simp [PollPc.committed])
  | pollEndpoints k poll hk hpc =>
    exact AllBut.set (All.but hold) fun _ => ⟨_, List.mem_append_right _ (List.mem_singleton_self _), rfl, rfl⟩
  | pollCommit k poll rows hk hpc =>
    have hread : ReadIn _ k poll := hold hk (Or.inl hpc)
    exact AllBut.set (All.but hold) fun _ => hread
  | pollAdd k id poll left hk hpc =>
    refine AllBut.set (All.but hold) fun hnow => ?_
    rcases hnow with hlocated | ⟨-, hevents⟩
    · cases hlocated
    · have hread : ReadIn _ k poll := hold hk (Or.inr ⟨by rw [hpc]; rfl, hevents⟩)
      exact hread
  | pollEnd k poll hk =>
    refine AllBut.set (All.but hold) fun hnow => ?_
    dsimp only at hnow
    split at hnow
    · rename_i hcommitted
      rcases hnow with hlocated | ⟨-, hevents⟩
      · cases hlocated
      · have hread : ReadIn _ k poll := hold hk (Or.inr ⟨hcommitted, hevents⟩)
        exact hread
    · rcases hnow with hlocated | ⟨hcommitted, -⟩
      · cases hlocated
      · cases hcommitted
  | _ => exact hold

theorem endpointsReadInv (h : Transition.Run (system env) l s) : EndpointsReadInv l s :=
  h.invariant (I := EndpointsReadInv) all_empty fun _ _ _ _ _ hI hs => hI.step (step_sound hs)

/-! ## Exactly once -/

/-- The deliveries of an event. -/
def deliveriesOf (s : State) (eventId : String) : List WebhookDelivery :=
  s.deliveries.filter fun d => d.eventId = eventId

/-- Poll `k` has marked the event in its transaction. -/
def markedBy (s : State) (k : Nat) (eventId : String) : Prop :=
  ∃ poll, s.polls k = some poll ∧ poll.pc.committed = true ∧ eventId ∈ poll.events.map OutboxRow.id

/-- A marked event was marked by a poll, and has one delivery for each endpoint active when that poll read them. -/
theorem marked_once (h : Transition.Run (system env) l s) {row : OutboxRow} (hrow : row ∈ s.outbox)
    (hmarked : row.webhookDispatchedAt ≠ none) : ∃ k, markedBy s k row.id ∧ ∃ x ∈ l, x.2 = .pollEndpoints k ∧
      (deliveriesOf s row.id).map WebhookDelivery.endpointId = (activeEndpoints x.1).map WebhookEndpoint.id ∧
      ((activeEndpoints x.1).map WebhookEndpoint.id).Nodup := by
  have hI : FanoutInv env s := fanoutInv (h.reach (C := Free) fun _ _ => trivial)
  obtain ⟨k, poll, hk, hcommitted, hevent, hendpoints⟩ := hI.marked row hrow hmarked
  have hne : poll.events ≠ [] := by
    intro hnil
    rw [hnil] at hevent
    cases hevent
  obtain ⟨x, hx, hact, hread⟩ := endpointsReadInv h hk (Or.inr ⟨hcommitted, hne⟩)
  refine ⟨k, ⟨poll, hk, hcommitted, hevent⟩, x, hx, hact, ?_, ?_⟩
  · rw [← hread, hendpoints, endpointsOf_targets]
    rfl
  · have hI' : FanoutInv env x.1 := fanoutInv (h.reach_of_mem hx).1
    exact hI'.endpoints.1.sublist (List.Sublist.map _ List.filter_sublist)

/-- The delivery of an add of a dispatcher is committed. -/
theorem delivery_of_pollAdd (hI : SnapshotInv s) {id : String} (hs : Step env s (.pollAdd k id) s') :
    (s.delivery id).isSome = true := by
  cases hs with
  | pollAdd _ _ poll left hk hpc hid => exact hI.polls hk id (by rw [hpc]; exact hid)
  | walk _ _ _ _ _ hwalk => cases hwalk

/-- In every state of every run, a terminal event that is marked has one delivery for each endpoint that was active
when the poll that marked it read the endpoints, and no other delivery; one that is not marked has no delivery; and a
job named by a delivery's id is added only when the delivery is committed. -/
theorem fan_out_once (h : Transition.Run (system env) l s) :
    (∀ row ∈ s.outbox, row.terminal?.isSome = true →
      (row.webhookDispatchedAt = none → deliveriesOf s row.id = []) ∧
      (row.webhookDispatchedAt ≠ none → ∃ k, markedBy s k row.id ∧ ∃ x ∈ l, x.2 = .pollEndpoints k ∧
        (deliveriesOf s row.id).map WebhookDelivery.endpointId = (activeEndpoints x.1).map WebhookEndpoint.id ∧
        ((activeEndpoints x.1).map WebhookEndpoint.id).Nodup)) ∧
    (∀ x ∈ l, ∀ k id, x.2 = .pollAdd k id → (x.1.delivery id).isSome = true) ∧
    ∀ i job, s.queue i = some job → (s.delivery job.data.deliveryId).isSome = true := by
  have hreach : Reach (system env) Free s := h.reach fun _ _ => trivial
  refine ⟨fun row hrow _ => ⟨fun hnone => ?_, marked_once h hrow⟩, fun x hx k id hadd => ?_, fun i job hjob => ?_⟩
  · have hempty := (fanoutInv hreach).unmarked row hrow hnone
    rw [endpointsOf_targets] at hempty
    exact List.map_eq_nil_iff.1 hempty
  · obtain ⟨hx, s', hs⟩ := h.reach_of_mem hx
    have hstep := step_sound hs
    rw [hadd] at hstep
    exact delivery_of_pollAdd (snapshotInv hx) hstep
  · obtain ⟨d, hd, -⟩ := (snapshotInv hreach).queue hjob
    rw [hd]
    rfl

theorem fan_out_once_announced : ∃ l s, Transition.Run (system standard) l s ∧
    (s.outbox.any fun row => row.id = "00" ∧ row.webhookDispatchedAt = some 0) = true ∧
    ∀ i job, s.queue i = some job → (s.delivery job.data.deliveryId).isSome = true := by
  obtain ⟨l, s, hrun, hp⟩ := exists_run_of_exec (show (exec (system standard) (system standard).init announce).any
    (fun s => s.outbox.any fun row => row.id = "00" ∧ row.webhookDispatchedAt = some 0) = true by decide +kernel)
  exact ⟨l, s, hrun, hp, (fan_out_once hrun).2.2⟩

end PaymentsProcessor.Webhooks
