/-
Charges against payments, over the simulated bank. The bank stores one authorisation for each
idempotency key and charges when it stores it; the worker's key is the payment's id. So each payment
accounts for at most one charge, and a COMPLETED one for exactly one, under the reference its event names.
-/
import PaymentsProcessor.Ledger.Audit
import PaymentsProcessor.Pipeline.Calls

namespace PaymentsProcessor.Pipeline

open PaymentStatus Worker Reaper Transition PartialMap SimulatedBankAdapter

variable {env : Env} {s s' : State SimulatedBankAdapter} {a : Action BankConfigPatch}

/-! ## Charges in the history -/

/-- By how much a bank answer raised the charges counter. -/
def chargeOf : Effect SimulatedBankAdapter → Nat
  | .answered _ _ _ before after => after.charges - before.charges
  | _ => 0

/-- The payment a bank answer is for. -/
def answeredFor : Effect SimulatedBankAdapter → Option String
  | .answered _ req _ _ _ => some req.paymentId
  | _ => none

/-- By how much the answers for a payment raised the charges counter. -/
def charged (pid : String) (h : List (Effect SimulatedBankAdapter)) : Nat :=
  ((h.filter fun e => answeredFor e = some pid).map chargeOf).sum

theorem charged_snoc (pid : String) (h : List (Effect SimulatedBankAdapter)) (e : Effect SimulatedBankAdapter) :
    charged pid (h ++ [e]) = charged pid h + if answeredFor e = some pid then chargeOf e else 0 := by
  unfold charged
  rw [List.filter_append, List.map_append, List.sum_append]
  by_cases he : answeredFor e = some pid <;> simp [he]

/-- Each payment accounts for at most one charge; a COMPLETED one for exactly one, and the reference in its
single event into COMPLETED is the one the bank stores for it. All charges are accounted for. -/
structure ChargedOnce (s : State SimulatedBankAdapter) : Prop where
  total : (s.history.map chargeOf).sum = s.bank.charges
  once : ∀ pid, charged pid s.history ≤ 1
  completed : ∀ pid p, s.db.payments pid = some p → p.status = COMPLETED → charged pid s.history = 1 ∧
    ∃ e ref, (s.db.eventsOf pid).filter (fun e => e.toStatus = COMPLETED) = [e] ∧ e.fromStatus = some PROCESSING ∧
      e.metadata.bind Metadata.bankRef = some ref ∧ s.bank.store.lookup pid = some (.authorized ref)

/-! ## The invariant -/

/-- What the answers so far charged is what the bank counts, and for each payment one if its key is
stored. -/
structure ChargeInv (s : State SimulatedBankAdapter) : Prop where
  total : (s.history.map chargeOf).sum = s.bank.charges
  charged : ∀ pid, charged pid s.history = if (s.bank.store.lookup pid).isSome then 1 else 0

/-- Effects that answer no call charge nothing. -/
theorem ChargeInv.quiet (h : ChargeInv s) (es : List (Effect SimulatedBankAdapter))
    (hh : s'.history = s.history ++ es) (hes : ∀ e ∈ es, answeredFor e = none)
    (hstore : s'.bank.store = s.bank.store) (hcharges : s'.bank.charges = s.bank.charges) : ChargeInv s' := by
  have hzero : (es.map chargeOf).sum = 0 := by
    refine List.sum_eq_zero fun n hn => ?_
    obtain ⟨e, he, rfl⟩ := List.mem_map.1 hn
    have hnone := hes e he
    cases e <;> first | rfl | cases hnone
  refine ⟨?_, fun pid => ?_⟩
  · rw [hh, List.map_append, List.sum_append, hzero, hcharges]
    exact h.total
  · have hfilter : es.filter (fun e => answeredFor e = some pid) = [] :=
      List.filter_eq_nil_iff.2 fun e he hc => by
        rw [hes e he] at hc
        cases of_decide_eq_true hc
    rw [hh, Pipeline.charged, List.filter_append, hfilter, List.append_nil, hstore]
    exact h.charged pid

/-- An answered call charges its key exactly if it was not stored and is now. -/
theorem ChargeInv.answer (h : ChargeInv s) (r : Nat) {req : BankAuthorizeRequest}
    (hkey : req.idempotencyKey = req.paymentId) (hbank : s'.bank = (authorize req s.bank).2)
    (hh : s'.history = s.history ++ [.answered r req (authorize req s.bank).1 s.bank (authorize req s.bank).2]) :
    ChargeInv s' := by
  have hraise : (authorize req s.bank).2.charges =
        s.bank.charges + ((authorize req s.bank).2.charges - s.bank.charges) ∧
      ∀ pid, (if ((authorize req s.bank).2.store.lookup pid).isSome then 1 else 0) =
        (if (s.bank.store.lookup pid).isSome then 1 else 0) +
          if req.paymentId = pid then (authorize req s.bank).2.charges - s.bank.charges else 0 := by
    rcases authorize_cases req s.bank with ⟨o, -, he⟩ | ⟨hnone, -, hs, hc⟩ | ⟨-, -, hs, hc⟩
    · simp [he]
    · refine ⟨by omega, fun pid => ?_⟩
      rw [hs, hc, Nat.add_sub_cancel_left]
      rw [hkey] at hnone ⊢
      by_cases hpid : pid = req.paymentId
      · subst hpid
        simp [hnone]
      · simp [AList.lookup_insert_ne hpid, Ne.symm hpid]
    · simp [hs, hc]
  refine ⟨?_, fun pid => ?_⟩
  · rw [hh, hbank, List.map_append, List.sum_append, h.total, hraise.1]
    simp [chargeOf]
  · rw [hh, hbank, charged_snoc, h.charged pid, hraise.2 pid]
    simp [answeredFor, chargeOf]

theorem ChargeInv.step (h : ChargeInv s) (hcalls : CallInv s) (hs : Step SimulatedBankAdapter.port env s a s') :
    ChargeInv s' := by
  have hnil : ∀ e ∈ ([] : List (Effect SimulatedBankAdapter)), answeredFor e = none :=
    fun e he => absurd he List.not_mem_nil
  cases hs with
  | answer r call hcall =>
    obtain ⟨-, run, -, hreq, -⟩ := hcalls hcall
    exact h.answer r (by rw [hreq]; rfl) rfl rfl
  | setConfig c => exact h.quiet [] (List.append_nil _).symm hnil (setConfig_store c s.bank) (setConfig_charges c s.bank)
  | reapUpdate k began time clock stuck hk =>
    refine h.quiet _ (List.append_assoc _ _ _) (fun e he => ?_) rfl rfl
    rcases List.mem_append.1 he with he | he
    all_goals
      obtain ⟨x, -, rfl⟩ := List.mem_map.1 he
      rfl
  | accepted | receive | timeout => exact h.quiet _ rfl (by simp [answeredFor]) rfl rfl
  | inject | pollAdd | claim | call | refuse | rethrow | exhaust | retry | final | retryAdd | reapAdd =>
    exact h.quiet _ rfl (fun e he => by rw [List.mem_singleton.1 he]; rfl) rfl rfl
  | _ => exact h.quiet [] (List.append_nil _).symm hnil rfl rfl

theorem chargeInv {C : State SimulatedBankAdapter → Action BankConfigPatch → Prop}
    (h : Reach (system SimulatedBankAdapter.port env) C s) : ChargeInv s :=
  h.invariant (I := ChargeInv) ⟨rfl, fun _ => rfl⟩ fun _ _ _ hr hI _ hs => hI.step (callInv hr) (step_sound hs)

/-- Whoever holds an authorisation holds a stored one: the answered calls, the runs about to complete their
payment, and the events of the completed payments. -/
structure StoredInv (s : State SimulatedBankAdapter) : Prop where
  calls : All s.calls fun _ call => ∀ ref, call.reply = some (.resolved (.authorized ref)) →
    s.bank.store.lookup call.req.paymentId = some (.authorized ref)
  runs : All s.runs fun _ run => ∀ ref, Pc.disposition run.pc = some (.complete ref) →
    s.bank.store.lookup run.data.paymentId = some (.authorized ref)
  events : ∀ e ∈ s.db.paymentEvents, e.toStatus = COMPLETED → ∃ ref,
    e.metadata.bind Metadata.bankRef = some ref ∧ s.bank.store.lookup e.paymentId = some (.authorized ref)

/-- A stored authorisation stays. -/
theorem Step.store_mono (h : Step SimulatedBankAdapter.port env s a s') {key : String} {o : BankOutcome}
    (hkey : s.bank.store.lookup key = some o) : s'.bank.store.lookup key = some o := by
  cases h with
  | answer r call => exact authorize_store_mono hkey call.req
  | setConfig c => exact (setConfig_store c s.bank).symm ▸ hkey
  | _ => exact hkey

/-- An authorisation the bank answers with is stored. -/
theorem authorize_stored {b : SimulatedBankAdapter} {req : BankAuthorizeRequest} {ref : String}
    (h : (authorize req b).1 = .resolved (.authorized ref)) :
    (authorize req b).2.store.lookup req.idempotencyKey = some (.authorized ref) := by
  rcases authorize_cases req b with ⟨o, hstored, he⟩ | ⟨-, hreply, hs, -⟩ | ⟨-, hreply | hreply, -⟩
  · rw [he] at h ⊢
    cases h
    exact hstored
  · rw [hreply] at h
    cases h
    rw [hs, AList.lookup_insert]
  · rw [hreply] at h; cases h
  · rw [hreply] at h; cases h

/-- A disposition to complete comes from an authorisation. -/
theorem dispositionOf_complete {outcome : BankOutcome} {ref : String} (h : dispositionOf outcome = .complete ref) :
    outcome = .authorized ref := by
  cases outcome with
  | authorized ref' => cases h; rfl
  | declined reason => cases h
  | error retryable reason => cases retryable <;> cases h

theorem StoredInv.step (h : StoredInv s) (hcalls : CallInv s) (hs : Step SimulatedBankAdapter.port env s a s') :
    StoredInv s' := by
  have hC : All s.calls fun _ call => ∀ ref, call.reply = some (.resolved (.authorized ref)) →
      s'.bank.store.lookup call.req.paymentId = some (.authorized ref) :=
    h.calls.mono fun _ _ hcall ref hreply => hs.store_mono (hcall ref hreply)
  have hR : All s.runs fun _ run => ∀ ref, Pc.disposition run.pc = some (.complete ref) →
      s'.bank.store.lookup run.data.paymentId = some (.authorized ref) :=
    h.runs.mono fun _ _ hrun ref hdis => hs.store_mono (hrun ref hdis)
  have hE : ∀ e ∈ s.db.paymentEvents, e.toStatus = COMPLETED → ∃ ref,
      e.metadata.bind Metadata.bankRef = some ref ∧ s'.bank.store.lookup e.paymentId = some (.authorized ref) := by
    intro e he hto
    obtain ⟨ref, hmeta, hstored⟩ := h.events e he hto
    exact ⟨ref, hmeta, hs.store_mono hstored⟩
  cases hs with
  | walk _ r run pc hr hw => exact ⟨hC, hR.but.set fun ref hdis => (hR hr :) ref (hw.disposition hdis), hE⟩
  | dequeue | refuse | rethrow | timeout | retryAdd | finish => exact ⟨hC, hR.but.set (fun _ h => by cases h), hE⟩
  | call r run hr => exact ⟨hC.but.set (by simp), hR.but.set (fun _ h => by cases h), hE⟩
  | answer r call hcall =>
    refine ⟨hC.but.set fun ref hreply => ?_, hR, hE⟩
    obtain ⟨-, run, -, hreq, -⟩ := hcalls hcall
    -- the adapter stores an authorisation before it answers with it
    have hstored := authorize_stored (Option.some.inj hreply)
    rwa [show call.req.idempotencyKey = call.req.paymentId by rw [hreq]; rfl] at hstored
  | receive r run call since outcome hr hpc hcall hreply =>
    refine ⟨hC, hR.but.set fun ref hdis => ?_, hE⟩
    obtain ⟨-, run', hr', hreq, -⟩ := hcalls hcall
    cases hr.symm.trans hr'
    have hstored := (hC hcall :) ref (by rw [hreply, dispositionOf_complete (Option.some.inj hdis)])
    rwa [hreq] at hstored
  | accepted | claim | exhaust | retry =>
    first
    | refine ⟨hC, hR, fun e he hto => ?_⟩
    | refine ⟨hC, hR.but.set (fun _ h => by cases h), fun e he hto => ?_⟩
    rcases List.mem_append.1 he with hold | hnew
    · exact hE e hold hto
    · rw [List.mem_singleton.1 hnew] at hto
      cases hto
  | final r run began clock dis target p hr hpc htarget =>
    refine ⟨hC, hR.but.set (fun _ h => by cases h), fun e he hto => ?_⟩
    rcases List.mem_append.1 he with hold | hnew
    · exact hE e hold hto
    · rw [List.mem_singleton.1 hnew] at hto ⊢
      -- only an authorisation completes, and its event carries the reference
      have htarget : dis.target = some COMPLETED := htarget.trans (congrArg some hto)
      cases dis with
      | complete ref => exact ⟨ref, rfl, (hR hr :) ref (by rw [hpc]; rfl)⟩
      | fail reason | retry reason => cases htarget
  | reapUpdate k began time clock stuck hk =>
    refine ⟨hC, hR, fun e he hto => ?_⟩
    rcases List.mem_append.1 he with hold | hnew
    · exact hE e hold hto
    · rw [(mem_reapEvents hnew).2] at hto
      cases hto
  | crash w =>
    refine ⟨hC, All.map _ (hR.mono fun r run hrun => ?_), hE⟩
    by_cases hw : run.worker = w
    · rw [if_pos hw]
      intro _ h
      cases h
    · rw [if_neg hw]; exact hrun
  | _ => exact ⟨hC, hR, hE⟩

theorem storedInv {C : State SimulatedBankAdapter → Action BankConfigPatch → Prop}
    (h : Reach (system SimulatedBankAdapter.port env) C s) : StoredInv s :=
  h.invariant (I := StoredInv) ⟨all_empty, all_empty, fun _ he => absurd he List.not_mem_nil⟩ fun _ _ _ hr hI _ hs =>
    hI.step (callInv hr) (step_sound hs)

/-! ## At most one charge -/

/-- In every reached state each payment accounts for at most one charge, and a completed one for exactly
one, under the reference its event names. -/
theorem charged_once (h : Reach (system SimulatedBankAdapter.port env) Free s) : ChargedOnce s := by
  have hcharges := chargeInv h
  have hstored := storedInv h
  refine ⟨hcharges.total, fun pid => ?_, fun pid p hp hst => ?_⟩
  · rw [hcharges.charged pid]
    split <;> decide
  · obtain ⟨x, hx, -⟩ := account_of_payment hp
    obtain ⟨e, he, hfrom⟩ := (((ledgerInv h).wf hx).mirrors hx hp).completed hst
    have hmem : e ∈ (s.db.eventsOf pid).filter fun e => e.toStatus = COMPLETED := he ▸ List.mem_singleton_self e
    obtain ⟨hmem, hto⟩ := List.mem_filter.1 hmem
    obtain ⟨hmem, hpid⟩ := List.mem_filter.1 hmem
    obtain ⟨ref, hmeta, hlookup⟩ := hstored.events e hmem (of_decide_eq_true hto)
    rw [of_decide_eq_true hpid] at hlookup
    refine ⟨?_, e, ref, he, hfrom, hmeta, hlookup⟩
    rw [hcharges.charged pid, hlookup]
    rfl

/-- A call answered after its run gave up charges; the retry is answered from the store and completes. -/
theorem charged_once_late : ∃ s, Reach (system SimulatedBankAdapter.port standard) Free s ∧
    s.bank.charges = 1 ∧ (s.db.payments "0").any (fun p => p.status = COMPLETED) = true ∧ ChargedOnce s := by
  obtain ⟨s, hs, hp⟩ := exists_reach_of_exec (show (exec (system SimulatedBankAdapter.port standard)
    (system SimulatedBankAdapter.port standard).init
      (accept order 0 "00" ++ claim 0 0 "00" ++ [.authorize 0, .tick 2000, .timeout 0, .answer 0] ++ retry 0 1000 ++
        claim 1 0 "0:retry:1" ++ call 1 200 ++ settle 1)).any
      (fun s => s.bank.charges = 1 ∧ (s.db.payments "0").any fun p => p.status = COMPLETED) = true by decide)
  obtain ⟨hcharges, hst⟩ := of_decide_eq_true hp
  exact ⟨s, hs, hcharges, hst, charged_once hs⟩

end PaymentsProcessor.Pipeline
