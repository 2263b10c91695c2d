/-
The audit ledger: in every reached state, the audit rows of every payment tell its life from its
submission to its present status, and its version and attempts can be read off them.
-/
import PaymentsProcessor.Ledger.Refinement

namespace PaymentsProcessor

open PaymentStatus Transition

/-- The audit rows of a payment, in commit order, mirror its row: they start at PENDING, form a chain
along the transition map, end in its status, and end with the first terminal status; the version counts
them but the first, the attempts those into RETRYING and the exhausting one. -/
structure Mirrors (events : List PaymentEvent) (p : Payment) : Prop where
  first : events.head?.map (fun e => (e.fromStatus, e.toStatus)) = some (none, PENDING)
  chain : events.IsChain fun e e' => e'.fromStatus = some e.toStatus ∧ e'.toStatus ∈ e.toStatus.transitionMap
  last : events.getLast?.map PaymentEvent.toStatus = some p.status
  final : ∀ e ∈ events.dropLast, e.toStatus ≠ COMPLETED ∧ e.toStatus ≠ FAILED
  version : events.length = p.version + 1
  attempts : p.attemptCount =
    events.countP (fun e => e.toStatus = RETRYING) + if events.any PaymentEvent.exhausting then 1 else 0
  exhausted : events.any PaymentEvent.exhausting = true → p.status = FAILED

/-- Agreeing books of an account are a mirror of the payment's row. -/
theorem Account.WF.mirrors {db : Db} {pid : String} {p : Payment} {x : Account} (h : x.WF)
    (hx : db.account pid = some x) (hp : db.payments pid = some p) : Mirrors (db.eventsOf pid) p := by
  obtain ⟨p', hp', hst, hv, hat, htrail, hexh, -⟩ := Db.account_eq_some hx
  cases hp.symm.trans hp'
  have hwalk := h.trail
  rw [htrail, hst] at hwalk
  refine ⟨?_, ?_, ?_, ?_, ?_, ?_, ?_⟩
  · rw [← List.head?_map]; exact hwalk.head?
  · have hchain := (List.isChain_map _).1 hwalk.isChain
    refine hchain.imp fun e e' he => ⟨he.1, ?_⟩
    exact List.contains_iff_mem.1 he.2
  · have hlast := hwalk.getLast?
    rwa [List.getLast?_map, Option.map_map] at hlast
  · intro e he
    have hedge := hwalk.exists_edge (e.fromStatus, e.toStatus) (by
      rw [← List.map_dropLast]
      exact List.mem_map_of_mem he)
    obtain ⟨t, ht⟩ := hedge
    constructor
    · intro hc; rw [Edge, hc] at ht; cases t <;> cases ht
    · intro hc; rw [Edge, hc] at ht; cases t <;> cases ht
  · have hlen := h.version
    rwa [htrail, List.length_map, hv] at hlen
  · rw [← hat, h.attempts, htrail, hexh, Trail.entries, List.countP_map]
    rfl
  · rw [← hexh, ← hst]; exact h.exhausted

/-- Every event but the first enters its status along an edge. -/
theorem Mirrors.enters {events pre post : List PaymentEvent} {e : PaymentEvent} {p : Payment} (h : Mirrors events p)
    (hevents : events = pre ++ e :: post) (hne : (e.fromStatus, e.toStatus) ≠ (none, PENDING)) :
    ∃ src, e.fromStatus = some src ∧ e.toStatus ∈ src.transitionMap := by
  subst hevents
  rcases List.eq_nil_or_concat pre with rfl | ⟨init, last, rfl⟩
  · exact absurd (Option.some.inj h.first) hne
  · have hchain := (List.isChain_append.1 h.chain).2.2 last (by simp) e (by simp)
    exact ⟨_, hchain.1, hchain.2⟩

/-- A completed payment has one event into COMPLETED, from PROCESSING. -/
theorem Mirrors.completed {events : List PaymentEvent} {p : Payment} (h : Mirrors events p)
    (hst : p.status = COMPLETED) :
    ∃ e, events.filter (fun e => e.toStatus = COMPLETED) = [e] ∧ e.fromStatus = some PROCESSING := by
  obtain ⟨e, he, hto⟩ := Option.map_eq_some_iff.1 h.last
  obtain ⟨pre, rfl⟩ := List.getLast?_eq_some_iff.1 he
  rw [hst] at hto
  refine ⟨e, ?_, ?_⟩
  · have hnone : pre.filter (fun e => e.toStatus = COMPLETED) = [] :=
      List.filter_eq_nil_iff.2 fun x hx hc =>
        (h.final x (by rwa [List.dropLast_concat])).1 (of_decide_eq_true hc)
    rw [List.filter_append, hnone, List.nil_append, List.filter_cons_of_pos (by simpa using hto), List.filter_nil]
  · obtain ⟨src, hfrom, hedge⟩ := h.enters rfl (by simp [hto])
    rw [hto] at hedge
    rw [hfrom]
    cases src <;> first | rfl | (simp [transitionMap] at hedge)

variable {β κ : Type} {port : BankPort β κ} {env : Env} {s : State β}

/-- In every reached state, whatever ran in whatever order and crashed wherever, the audit rows of
every payment mirror its row. -/
theorem audit_mirrors_payments (h : Reach (Pipeline.system port env) Free s) {pid : String} {p : Payment}
    (hp : s.db.payments pid = some p) : Mirrors (s.db.eventsOf pid) p := by
  obtain ⟨x, hx, -⟩ := Pipeline.account_of_payment hp
  exact ((Pipeline.ledgerInv h).wf hx).mirrors hx hp

open Pipeline in
/-- A payment that is retried once and then completed. -/
theorem audit_mirrors_payments_retried : ∃ s, Reach (system SimulatedBankAdapter.port standard) Free s ∧
    ∃ p, s.db.payments "0" = some p ∧ p.status = COMPLETED ∧ Mirrors (s.db.eventsOf "0") p := by
  obtain ⟨s, hs, hp⟩ := exists_reach_of_exec (show (exec (system SimulatedBankAdapter.port standard)
    (system SimulatedBankAdapter.port standard).init
      (accept order 0 "00" ++ [.setConfig { mode := some .alwaysError }] ++ claim 0 0 "00" ++ call 0 200 ++
        retry 0 1000 ++ [.setConfig { mode := some .alwaysAuthorize }] ++ claim 1 0 "0:retry:1" ++ call 1 200 ++
        settle 1)).any (fun s => (s.db.payments "0").any fun p => p.status = COMPLETED) = true by decide)
  obtain ⟨p, hp, hst⟩ := (Option.any_eq_true _ _).1 hp
  exact ⟨s, hs, p, hp, of_decide_eq_true hst, audit_mirrors_payments hs hp⟩

end PaymentsProcessor
