/-
The history records the transitions: those it has of a payment, in order, are the trail of the
payment's account, numbered by the versions they wrote.
-/
import PaymentsProcessor.Ledger.Refinement

namespace PaymentsProcessor.Pipeline

open PaymentStatus Worker Reaper Account

variable {β κ : Type} {port : BankPort β κ} {env : Env} {s s' : State β} {a : Action κ} {pid : String}

/-! ## Recorded transitions -/

/-- From, to and version of a recorded transition of a payment. -/
def moveOf (pid : String) : Effect β → Option ((Option PaymentStatus × PaymentStatus) × Nat)
  | .moved _ paymentId src dst version => if paymentId = pid then some ((src, dst), version) else none
  | _ => none

/-- The recorded transitions of a payment. -/
def moves (pid : String) (h : List (Effect β)) : List ((Option PaymentStatus × PaymentStatus) × Nat) :=
  h.filterMap (moveOf pid)

theorem moves_append (h es : List (Effect β)) : moves pid (h ++ es) = moves pid h ++ moves pid es :=
  List.filterMap_append

theorem moveOf_self {actor : Actor} {src : Option PaymentStatus} {dst : PaymentStatus} {version : Nat} :
    moveOf pid (.moved actor pid src dst version : Effect β) = some ((src, dst), version) := if_pos rfl

theorem moveOf_ne {actor : Actor} {pid' : String} {src : Option PaymentStatus} {dst : PaymentStatus} {version : Nat}
    (h : pid' ≠ pid) : moveOf pid (.moved actor pid' src dst version : Effect β) = none := if_neg h

theorem mem_moves {h : List (Effect β)} {actor : Actor} {src : Option PaymentStatus} {dst : PaymentStatus}
    {version : Nat} (hmem : .moved actor pid src dst version ∈ h) : ((src, dst), version) ∈ moves pid h :=
  List.mem_filterMap.2 ⟨_, hmem, moveOf_self⟩

/-- The transition between two contents of a row of `payments`. -/
def changeOf : Option Payment → Option Payment → List ((Option PaymentStatus × PaymentStatus) × Nat)
  | some p, some q => if q.version = p.version then [] else [((some p.status, q.status), q.version)]
  | none, some q => [((none, q.status), q.version)]
  | _, none => []

theorem changeOf_self (p : Option Payment) : changeOf p p = [] := by
  cases p with
  | none => rfl
  | some p => exact if_pos rfl

/-- A payment written with one version more, and the effect that records it. -/
theorem moves_write {actor : Actor} {pid' : String} {p q : Payment} (hp : s.db.payments pid' = some p)
    (hversion : q.version = p.version + 1) :
    moves pid (s.history ++ [.moved actor pid' (some p.status) q.status q.version]) = moves pid s.history ++
      changeOf (s.db.payments pid) (Function.update s.db.payments pid' (some q) pid) := by
  rw [moves_append]
  congr 1
  by_cases hpid : pid = pid'
  · subst hpid
    rw [Function.update_self, hp, changeOf, if_neg (by omega)]
    simp [moves, moveOf]
  · rw [Function.update_of_ne hpid, changeOf_self]
    simp [moves, moveOf, Ne.symm hpid]

/-- A step that writes no payment and records no transition. -/
theorem moves_quiet (es : List (Effect β)) (hh : s'.history = s.history ++ es) (hes : moves pid es = [])
    (hp : s'.db.payments pid = s.db.payments pid) :
    moves pid s'.history = moves pid s.history ++ changeOf (s.db.payments pid) (s'.db.payments pid) := by
  rw [hh, moves_append, hes, hp, changeOf_self]

/-- The transitions a batch records: one for each of its payments. -/
theorem moves_batch (k : Nat) (version : String → Nat) : ∀ {pids : List String}, pids.Nodup →
    moves pid (pids.map fun pid => (.moved (.reaper k) pid (some PROCESSING) RETRYING (version pid) : Effect β)) =
      if pid ∈ pids then [((some PROCESSING, RETRYING), version pid)] else []
  | [], _ => rfl
  | other :: pids, h => by
    have hnodup := List.nodup_cons.1 h
    have ih := moves_batch k version hnodup.2
    unfold moves at ih ⊢
    rw [List.map_cons]
    by_cases hc : other = pid
    · subst hc
      rw [List.filterMap_cons_some moveOf_self, ih, if_neg hnodup.1, if_pos List.mem_cons_self]
    · rw [List.filterMap_cons_none (moveOf_ne hc), ih]
      simp [Ne.symm hc]

/-- Every step records the transitions it makes. -/
theorem Step.moves (hlocks : LockInv s) (h : Step port env s a s') (pid : String) :
    moves pid s'.history = moves pid s.history ++ changeOf (s.db.payments pid) (s'.db.payments pid) := by
  cases h with
  | accepted dto key hash correlationId amountCents row hvalid hamount hrow hfresh =>
    rw [moves_append]
    congr 1
    by_cases hpid : pid = row.id
    · subst hrow hpid
      rw [Db.insertSubmission_payments, Function.update_self, hfresh, Pipeline.moves, List.filterMap_cons_none rfl,
        List.filterMap_cons_some moveOf_self]
      rfl
    · rw [Db.insertSubmission_payments, Function.update_of_ne hpid, changeOf_self]
      simp [Pipeline.moves, moveOf, Ne.symm hpid]
  | claim r run began clock p hr hpc hp => exact moves_write (q := claimSet clock p) hp rfl
  | exhaust r run began clock reason p hr hpc hp hst hlock hspent =>
    have hw := @moves_write β s pid (.worker r) _ p (retrySet env.cfg clock reason p) hp rfl
    rwa [retrySet_spent hspent, hst] at hw
  | retry r run began clock reason p hr hpc hp hst hlock hleft =>
    have hw := @moves_write β s pid (.worker r) _ p (retrySet env.cfg clock reason p) hp rfl
    rwa [retrySet_left hleft, hst] at hw
  | final r run began clock dis target p hr hpc htarget hp hst =>
    have hw := @moves_write β s pid (.worker r) _ p (settleSet clock target p) hp rfl
    rwa [hst] at hw
  | reapUpdate k began time clock stuck hk =>
    have hreaped : Pipeline.moves pid (stuck.map fun row => (.reaped k row.id row.status time : Effect β)) = [] :=
      List.filterMap_eq_nil_iff.2 fun e he => by obtain ⟨row, -, rfl⟩ := List.mem_map.1 he; rfl
    rw [List.append_assoc, moves_append, moves_append, moves_batch k _ (hlocks.nodup hk), hreaped, List.append_nil]
    congr 1
    rw [Db.insertEvents_payments, Db.updateIn_payments]
    split
    · rename_i hmem
      obtain ⟨-, -, -, -, p, hp, hstatus⟩ := hlocks.processing hk hmem
      rw [hp]
      simp [changeOf, reapSet, hstatus]
    · rw [changeOf_self]
  | _ =>
    first
    | exact moves_quiet _ rfl rfl rfl
    | exact moves_quiet [] (List.append_nil _).symm rfl rfl

/-! ## The recorded trail -/

/-- The recorded transitions of every payment are the trail of its account, numbered by version. -/
def HistoryInv (s : State β) : Prop := ∀ pid, moves pid s.history =
  match s.db.account pid with
  | none => []
  | some x => x.trail.zipIdx

theorem historyInv {C : State β → Action κ → Prop} (h : Transition.Reach (system port env) C s) : HistoryInv s := by
  refine h.invariant (I := HistoryInv) (fun _ => rfl) fun t a t' hr hI _ hs pid => ?_
  have hrule := step_sound hs
  have hL := ledgerInv hr
  rw [hrule.moves (lockInv hr) pid, hI pid]
  have hstep := hrule.account (lockInv hr) (pcInv hr) hL.owned pid
  generalize hx : t.db.account pid = x, hy : t'.db.account pid = y at hstep
  cases hstep with
  | same =>
    cases x with
    | none => rw [Db.account_eq_none.1 hx, Db.account_eq_none.1 hy]; rfl
    | some x =>
      obtain ⟨p, hp, -, hv, -⟩ := Db.account_eq_some hx
      obtain ⟨q, hq, -, hv', -⟩ := Db.account_eq_some hy
      rw [hp, hq, changeOf, if_pos (hv'.symm.trans hv), List.append_nil]
  | opened =>
    obtain ⟨q, hq, hst, hv, -⟩ := Db.account_eq_some hy
    rw [Db.account_eq_none.1 hx, hq, changeOf, ← hst, ← hv]
    rfl
  | moved hm hmove =>
    rename_i m x y
    obtain ⟨p, hp, hst, hv, -⟩ := Db.account_eq_some hx
    obtain ⟨q, hq, hst', hv', -⟩ := Db.account_eq_some hy
    have hadv := hmove.advance
    have hlen := (hL.wf hx).version
    rw [hp, hq, changeOf, ← hst, ← hst', ← hv, ← hv', if_neg (by omega)]
    dsimp only
    rw [hadv.1, List.zipIdx_append, Nat.zero_add, hlen, hadv.2]
    rfl

/-- A payment that was moved to a terminal status is still in it. -/
theorem status_of_moved (hL : LedgerInv s) (hH : HistoryInv s) {actor : Actor} {src : Option PaymentStatus}
    {dst : PaymentStatus} {version : Nat} (hmem : .moved actor pid src dst version ∈ s.history)
    (hterm : dst.terminal = true) : ∃ p, s.db.payments pid = some p ∧ p.status = dst := by
  have hmove := mem_moves hmem
  rw [hH pid] at hmove
  cases hx : s.db.account pid with
  | none => rw [hx] at hmove; cases hmove
  | some x =>
    rw [hx] at hmove
    obtain ⟨p, hp, hst, -⟩ := Db.account_eq_some hx
    refine ⟨p, hp, ?_⟩
    have htrail := (hL.wf hx).trail
    have hin : (src, dst) ∈ x.trail := (List.mem_zipIdx' hmove).2 ▸ List.getElem_mem _
    rw [← List.dropLast_append_getLast htrail.ne_nil, List.mem_append, List.mem_singleton] at hin
    rcases hin with hin | hin
    · obtain ⟨t, ht⟩ := htrail.exists_edge _ hin
      rw [Edge, not_canTransition_of_terminal hterm] at ht
      cases ht
    · have hlast := htrail.getLast?
      rw [List.getLast?_eq_some_getLast htrail.ne_nil, ← hin] at hlast
      rw [← hst]
      exact (Option.some.inj hlast).symm

/-- The transitions of a payment are recorded in the order of their versions. -/
theorem versions_increase (hH : HistoryInv s) {pre mid post : List (Effect β)} {e e' : Effect β}
    {m m' : (Option PaymentStatus × PaymentStatus) × Nat} (hh : s.history = pre ++ e :: mid ++ e' :: post)
    (he : moveOf pid e = some m) (he' : moveOf pid e' = some m') : m.2 < m'.2 := by
  have hsorted : (moves pid s.history).Pairwise fun m m' => m.2 < m'.2 := by
    rw [hH pid]
    cases s.db.account pid with
    | none => exact .nil
    | some x =>
      refine List.pairwise_map.1 ?_
      rw [List.zipIdx_map_snd]
      exact List.pairwise_lt_range'
  rw [hh, List.append_assoc, moves_append, List.cons_append, moves, moves, List.filterMap_cons_some he] at hsorted
  have hlater := (List.pairwise_append.1 hsorted).2.1
  refine (List.pairwise_cons.1 hlater).1 m' (List.mem_filterMap.2 ⟨e', ?_, he'⟩)
  exact List.mem_append_right _ List.mem_cons_self

end PaymentsProcessor.Pipeline
