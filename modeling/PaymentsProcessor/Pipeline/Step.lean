/-
What each step of the pipeline can do, as a relation: one rule for every way an action can end, with
its guards and the state it leads to. `step_sound` derives the rules from the step function; the
invariants are proved over the rules.
-/
import PaymentsProcessor.Pipeline.System

namespace PaymentsProcessor.Pipeline

open PaymentStatus Worker Relay Reaper PartialMap

variable {β κ : Type} (port : BankPort β κ) (env : Env)

/-! ## The rules -/

/-- The steps that only move a run on, from the database as it is. -/
inductive Walk (s : State β) (r : Nat) (run : Run) : Action κ → Pc → Prop
  | claimBegin (hpc : run.pc = .start) : Walk s r run (.claimBegin r) (.claimBegun s.now)
  | claimNone {began : Nat} (hpc : run.pc = .claimBegun began) (hp : s.db.payments run.data.paymentId = none) :
      Walk s r run (.claimSelect r) .claimDone
  | claimIllegal {began : Nat} {p : Payment} (hpc : run.pc = .claimBegun began)
      (hp : s.db.payments run.data.paymentId = some p) (hst : canTransition p.status PROCESSING = false) :
      Walk s r run (.claimSelect r) .claimDone
  | claimRead {began : Nat} {p : Payment} (hpc : run.pc = .claimBegun began)
      (hp : s.db.payments run.data.paymentId = some p) (hst : canTransition p.status PROCESSING = true) :
      Walk s r run (.claimSelect r) (.claimRead began p.status none)
  | claimClock {began : Nat} {status : PaymentStatus} (hpc : run.pc = .claimRead began status none) :
      Walk s r run (.readClock r) (.claimRead began status (some s.now))
  | claimLost {began clock : Nat} {status : PaymentStatus} (hpc : run.pc = .claimRead began status (some clock))
      (hp : ∀ p, s.db.payments run.data.paymentId = some p → p.status ≠ status) :
      Walk s r run (.claimUpdate r) .claimDone
  | settleBegin {dis : Disposition} (hpc : run.pc = .decided dis) :
      Walk s r run (.settleBegin r) (.settleBegun s.now dis none)
  | settleClock {began : Nat} {dis : Disposition} (hpc : run.pc = .settleBegun began dis none) :
      Walk s r run (.readClock r) (.settleBegun began dis (some s.now))
  | retryLost {began clock : Nat} {reason : String} (hpc : run.pc = .settleBegun began (.retry reason) (some clock))
      (hp : ∀ p, s.db.payments run.data.paymentId = some p → p.status ≠ PROCESSING) :
      Walk s r run (.retryUpdate r) .returned
  | finalLost {began clock : Nat} {dis : Disposition} {target : PaymentStatus}
      (hpc : run.pc = .settleBegun began dis (some clock)) (htarget : dis.target = some target)
      (hp : ∀ p, s.db.payments run.data.paymentId = some p → p.status ≠ PROCESSING) :
      Walk s r run (.finalUpdate r) .returned
  | retryInvalid {attempt delay : Nat} (hpc : run.pc = .retryAdd attempt) (hlt : attempt < 1) :
      Walk s r run (.retryAdd r delay) .threw
  | fail (hpc : Pc.mayFail run.pc = true) : Walk s r run (.fail r) .threw

/-- The rules of the pipeline. -/
inductive Step (s : State β) : Action κ → State β → Prop
  | tick (ms : Nat) : Step s (.tick ms) { s with now := s.now + ms }
  /-- a submission that is refused or replayed -/
  | rejected (dto : CreatePaymentDto) (key hash correlationId : String) :
      Step s (.submit dto key hash correlationId) { s with ulids := s.ulids + 3 }
  | accepted (dto : CreatePaymentDto) (key hash correlationId : String) (amountCents : Nat) (row : Payment)
      (hvalid : dto.valid = true) (hamount : convAmountToUnits dto.amount = .ok amountCents)
      (hrow : row = paymentRow dto (env.u.ulid s.ulids) amountCents s.now) (hfresh : s.db.payments row.id = none) :
      Step s (.submit dto key hash correlationId) { s with
        db := s.db.insertSubmission row (submittedEvent row (env.u.ulid (s.ulids + 2)) correlationId s.now)
          (keyRow dto row key hash s.now) (submittedRow row (env.u.ulid (s.ulids + 1)) correlationId s.now)
        ulids := s.ulids + 3
        history := s.history ++ [.submitted row.id dto correlationId, .moved .submission row.id none PENDING 0] }
  | inject (jobId name : String) (data : JobData) :
      Step s (.inject jobId name data) (s.enqueue jobId name data .waiting)
  | setConfig (c : κ) : Step s (.setConfig c) { s with bank := port.setConfig c s.bank }
  | pollSelect (k : Nat) (hk : s.polls k = none) :
      Step s (.pollSelect k) { s with
        polls := Function.update s.polls k (some ⟨unpublished s, [], true⟩)
        outboxLocks := fun id => if id ∈ (unpublished s).map OutboxRow.id then some k else s.outboxLocks id }
  | pollAdd (k : Nat) (poll : Poll) (row : OutboxRow) (data : JobData) (hk : s.polls k = some poll)
      (hrow : row ∈ poll.rows) (hdata : row.submitted? = some data) (hadd : row.id ∉ poll.added) :
      Step s (.pollAdd k row.id) { s.enqueue row.id "payment.submitted" data .waiting with
        polls := Function.update s.polls k (some { poll with added := row.id :: poll.added }) }
  | pollCommit (k : Nat) (poll : Poll) (hk : s.polls k = some poll) (hlive : poll.live = true)
      (hadded : ∀ row ∈ poll.rows, row.id ∈ poll.added) :
      Step s (.pollCommit k) { s with
        db := s.db.markPublished (poll.rows.map OutboxRow.id) s.now
        polls := Function.update s.polls k none
        outboxLocks := unlock s.outboxLocks k }
  | pollAbort (k : Nat) (poll : Poll) (hk : s.polls k = some poll) (hlive : poll.live = true) :
      Step s (.pollAbort k) { s with
        polls := Function.update s.polls k (some { poll with live := false })
        outboxLocks := unlock s.outboxLocks k }
  | dequeue (r w : Nat) (jobId : String) (job : Job) (hr : s.runs r = none) (hjob : s.queue jobId = some job)
      (hready : ready s.now job.state = true) :
      Step s (.dequeue r w jobId) { s with
        queue := s.queue.setState jobId (.active r)
        runs := Function.update s.runs r (some ⟨jobId, job.data, w, .start⟩) }
  | walk (a : Action κ) (r : Nat) (run : Run) (pc : Pc) (hr : s.runs r = some run) (hwalk : Walk s r run a pc) :
      Step s a (s.setPc r run pc)
  | claim (r : Nat) (run : Run) (began clock : Nat) (p : Payment) (hr : s.runs r = some run)
      (hpc : run.pc = .claimRead began p.status (some clock)) (hp : s.db.payments run.data.paymentId = some p)
      (hlock : s.rowLocks run.data.paymentId = none) :
      Step s (.claimUpdate r) { s with
        db := (s.db.setPayment run.data.paymentId (claimSet clock p)).insertEvents
          [eventFor run.data (env.u.ulid s.ulids) p.status PROCESSING none began]
        ulids := s.ulids + 1
        runs := Function.update s.runs r (some { run with pc := .claimDone })
        history := s.history ++
          [.moved (.worker r) run.data.paymentId (some p.status) PROCESSING (p.version + 1)] }
  | call (r : Nat) (run : Run) (hr : s.runs r = some run) (hpc : run.pc = .claimDone)
      (hallow : ((s.breakers run.worker).allow env.cfg s.now).1 = true) :
      Step s (.authorize r) { s with
        breakers := Function.update s.breakers run.worker ((s.breakers run.worker).allow env.cfg s.now).2
        calls := Function.update s.calls r (some ⟨requestOf run.data, s.now + port.latencyMs s.bank, none⟩)
        runs := Function.update s.runs r (some { run with pc := .calling s.now })
        history := s.history ++ [.called r (requestOf run.data)] }
  | refuse (r : Nat) (run : Run) (hr : s.runs r = some run) (hpc : run.pc = .claimDone)
      (hallow : ((s.breakers run.worker).allow env.cfg s.now).1 = false) :
      Step s (.authorize r) { s with
        breakers := Function.update s.breakers run.worker ((s.breakers run.worker).allow env.cfg s.now).2
        runs := Function.update s.runs r (some { run with pc := .decided (.retry "circuit_open") })
        history := s.history ++ [.refused r] }
  | answer (r : Nat) (call : Call) (hcall : s.calls r = some call) (hreply : call.reply = none)
      (hready : call.readyAt ≤ s.now) :
      Step s (.answer r) { s with
        bank := (port.authorize call.req s.bank).2
        calls := Function.update s.calls r (some { call with reply := some (port.authorize call.req s.bank).1 })
        history := s.history ++
          [.answered r call.req (port.authorize call.req s.bank).1 s.bank (port.authorize call.req s.bank).2] }
  | receive (r : Nat) (run : Run) (call : Call) (since : Nat) (outcome : BankOutcome) (hr : s.runs r = some run)
      (hpc : run.pc = .calling since) (hcall : s.calls r = some call)
      (hreply : call.reply = some (.resolved outcome)) :
      Step s (.receive r) { s with
        breakers := Function.update s.breakers run.worker
          ((s.breakers run.worker).record env.cfg s.now (!(dispositionOf outcome).isRetry))
        runs := Function.update s.runs r (some { run with pc := .decided (dispositionOf outcome) })
        history := s.history ++ [.received r (.resolved outcome), .recorded r (!(dispositionOf outcome).isRetry)] }
  | rethrow (r : Nat) (run : Run) (call : Call) (since : Nat) (message : String) (hr : s.runs r = some run)
      (hpc : run.pc = .calling since) (hcall : s.calls r = some call)
      (hreply : call.reply = some (.rejected message)) :
      Step s (.receive r) { s with
        runs := Function.update s.runs r (some { run with pc := .threw })
        history := s.history ++ [.received r (.rejected message)] }
  | timeout (r : Nat) (run : Run) (since : Nat) (hr : s.runs r = some run) (hpc : run.pc = .calling since)
      (hlate : since + env.cfg.bankTimeoutMs ≤ s.now ∨ (s.calls r).bind Call.reply = some .timeoutError) :
      Step s (.timeout r) { s with
        breakers := Function.update s.breakers run.worker ((s.breakers run.worker).record env.cfg s.now false)
        runs := Function.update s.runs r (some { run with pc := .decided (.retry "bank_timeout") })
        history := s.history ++ [.timedOut r, .recorded r false] }
  | exhaust (r : Nat) (run : Run) (began clock : Nat) (reason : String) (p : Payment) (hr : s.runs r = some run)
      (hpc : run.pc = .settleBegun began (.retry reason) (some clock)) (hp : s.db.payments run.data.paymentId = some p)
      (hst : p.status = PROCESSING) (hlock : s.rowLocks run.data.paymentId = none)
      (hspent : p.attemptCount + 1 > env.cfg.maxRetries) :
      Step s (.retryUpdate r) { s with
        db := (s.db.setPayment run.data.paymentId (retrySet env.cfg clock reason p)).insertEvents
            [eventFor run.data (env.u.ulid s.ulids) PROCESSING FAILED
              (some { reason := some reason, retriesExhausted := true }) began]
        ulids := s.ulids + 1
        runs := Function.update s.runs r (some { run with pc := .returned })
        history := s.history ++ [.moved (.worker r) run.data.paymentId (some PROCESSING) FAILED (p.version + 1)] }
  | retry (r : Nat) (run : Run) (began clock : Nat) (reason : String) (p : Payment) (hr : s.runs r = some run)
      (hpc : run.pc = .settleBegun began (.retry reason) (some clock)) (hp : s.db.payments run.data.paymentId = some p)
      (hst : p.status = PROCESSING) (hlock : s.rowLocks run.data.paymentId = none)
      (hleft : p.attemptCount + 1 ≤ env.cfg.maxRetries) :
      Step s (.retryUpdate r) { s with
        db := (s.db.setPayment run.data.paymentId (retrySet env.cfg clock reason p)).insertEvents
            [eventFor run.data (env.u.ulid s.ulids) PROCESSING RETRYING
              (some { reason := some reason, attempt := some (p.attemptCount + 1) }) began]
        ulids := s.ulids + 1
        runs := Function.update s.runs r (some { run with pc := .retryAdd (p.attemptCount + 1) })
        history := s.history ++ [.moved (.worker r) run.data.paymentId (some PROCESSING) RETRYING (p.version + 1)] }
  | final (r : Nat) (run : Run) (began clock : Nat) (dis : Disposition) (target : PaymentStatus) (p : Payment)
      (hr : s.runs r = some run) (hpc : run.pc = .settleBegun began dis (some clock)) (htarget : dis.target = some target)
      (hp : s.db.payments run.data.paymentId = some p) (hst : p.status = PROCESSING)
      (hlock : s.rowLocks run.data.paymentId = none) :
      Step s (.finalUpdate r) { s with
        db := ((s.db.setPayment run.data.paymentId (settleSet clock target p)).insertEvents
            [eventFor run.data (env.u.ulid s.ulids) PROCESSING target (some dis.metadata) began]).insertOutbox
              (terminalRow run.data (env.u.ulid (s.ulids + 1)) target began)
        ulids := s.ulids + 2
        runs := Function.update s.runs r (some { run with pc := .returned })
        history := s.history ++ [.moved (.worker r) run.data.paymentId (some PROCESSING) target (p.version + 1)] }
  | retryAdd (r delay : Nat) (run : Run) (attempt : Nat) (hr : s.runs r = some run)
      (hpc : run.pc = .retryAdd attempt) (hpos : 1 ≤ attempt) :
      Step s (.retryAdd r delay) ((s.enqueue (retryJobId run.data.paymentId attempt) "payment_retry" run.data
        (.delayed (s.now + delay))).setPc r run .returned)
  | finish (r : Nat) (run : Run) (state : JobState) (hr : s.runs r = some run)
      (hpc : run.pc = .returned ∧ state = .completed ∨ run.pc = .threw ∧ state = .failed) :
      Step s (.finish r) { s.setPc r run .gone with queue := closeJob s.queue run.jobId r state }
  | stall (jobId : String) (job : Job) (r : Nat) (hjob : s.queue jobId = some job) (hst : job.state = .active r) :
      Step s (.stall jobId) { s with queue := s.queue.setState jobId .waiting }
  | crash (w : Nat) :
      Step s (.crash w) { s with
        runs := fun r => (s.runs r).map fun run => if run.worker = w then { run with pc := .gone } else run
        breakers := Function.update s.breakers w { openedAt := s.now } }
  | reapBegin (k : Nat) (hk : s.reaps k = none) :
      Step s (.reapBegin k) { s with reaps := Function.update s.reaps k (some (.begun s.now none)) }
  | deadlineClock (k began : Nat) (hk : s.reaps k = some (.begun began none)) :
      Step s (.reapClock k) { s with reaps := Function.update s.reaps k (some (.begun began (some s.now))) }
  | reapSelect (k : Nat) (pids : List String) (began clock : Nat) (stuck : List StuckRow)
      (hk : s.reaps k = some (.begun began (some clock))) (hnodup : pids.Nodup)
      (hstuck : pids.mapM (stuckRow env clock s) = some stuck) :
      Step s (.reapSelect k pids) { s with
        reaps := Function.update s.reaps k (some (.selected began s.now stuck none))
        rowLocks := fun pid => if pid ∈ pids then some k else s.rowLocks pid }
  | batchClock (k began time : Nat) (stuck : List StuckRow) (hk : s.reaps k = some (.selected began time stuck none)) :
      Step s (.reapClock k) { s with
        reaps := Function.update s.reaps k (some (.selected began time stuck (some s.now))) }
  | reapUpdate (k began time clock : Nat) (stuck : List StuckRow)
      (hk : s.reaps k = some (.selected began time stuck (some clock))) :
      Step s (.reapUpdate k) { s with
        db := (s.db.updateIn (processingIds stuck) (reapSet clock)).insertEvents
          (reapEvents env began s.ulids (processingIds stuck))
        ulids := s.ulids + (processingIds stuck).length
        reaps := Function.update s.reaps k (some (.committed stuck))
        rowLocks := unlock s.rowLocks k
        history := s.history ++
          ((processingIds stuck).map fun pid =>
            .moved (.reaper k) pid (some PROCESSING) RETRYING
              ((((s.db.updateIn (processingIds stuck) (reapSet clock)).payments pid).map Payment.version).getD 0)) ++
          (stuck.map fun row => .reaped k row.id row.status time) }
  | reapStamp (k : Nat) (stuck : List StuckRow) (hk : s.reaps k = some (.committed stuck)) :
      Step s (.reapStamp k) { s with reaps := Function.update s.reaps k (some (.adding s.now stuck)) }
  | reapAdd (k stamp : Nat) (stuck : List StuckRow) (row : StuckRow) (hk : s.reaps k = some (.adding stamp stuck))
      (hrow : row ∈ stuck) :
      Step s (.reapAdd k row.id) { s.enqueue (reapJobId row.id stamp) "payment_reap" (reapData row) .waiting with
        reaps := Function.update s.reaps k (some (.adding stamp (stuck.filter fun other => other.id ≠ row.id))) }
  | reapEnd (k : Nat) :
      Step s (.reapEnd k) { s with reaps := Function.update s.reaps k none, rowLocks := unlock s.rowLocks k }

/-! ## Soundness -/

variable {port : BankPort β κ} {env : Env} {s s' : State β}

theorem submitLog_nil {dto : CreatePaymentDto} {correlationId : String} {e : InsertResult}
    (h : ∀ status body, e ≠ .returned false status body) : (submitLog dto correlationId e : List (Effect β)) = [] := by
  unfold submitLog
  split
  · exact absurd rfl (h _ _)
  · rfl

theorem submit_sound {dto : CreatePaymentDto} {key hash correlationId : String}
    (h : submit env dto key hash correlationId s = some s') :
    Step port env s (.submit dto key hash correlationId) s' := by
  unfold submit at h
  split at h
  · rename_i hvalid
    cases h
    rcases insertTxn_cases env.u s.now s.ulids dto key hash correlationId s.db with
      ⟨e, he, hne⟩ | ⟨amountCents, hamount, hfresh, he⟩
    · rw [he]
      dsimp only
      rw [submitLog_nil hne, List.append_nil]
      exact .rejected dto key hash correlationId
    · rw [he]
      exact .accepted dto key hash correlationId amountCents _ hvalid.1 hamount rfl hfresh
  · cases h

theorem pollSelect_sound {k : Nat} (h : pollSelect k s = some s') : Step port env s (.pollSelect k) s' := by
  unfold pollSelect at h
  split at h
  · rename_i hk; cases h; exact .pollSelect k hk
  · cases h

theorem pollAdd_sound {k : Nat} {id : String} (h : pollAdd k id s = some s') :
    Step port env s (.pollAdd k id) s' := by
  unfold pollAdd at h
  split at h
  · rename_i poll hk
    split at h
    · rename_i row hrow
      split at h
      · rename_i data hdata
        split at h
        · cases h
        · rename_i hadd; cases h
          have hid : row.id = id := by simpa using List.find?_some hrow
          subst hid
          exact .pollAdd k poll row data hk (List.mem_of_find?_eq_some hrow) hdata hadd
      · cases h
    · cases h
  · cases h

theorem pollCommit_sound {k : Nat} (h : pollCommit k s = some s') : Step port env s (.pollCommit k) s' := by
  unfold pollCommit at h
  split at h
  · rename_i poll hk
    split at h
    · rename_i hc; cases h; exact .pollCommit k poll hk hc.1 hc.2
    · cases h
  · cases h

theorem pollAbort_sound {k : Nat} (h : pollAbort k s = some s') : Step port env s (.pollAbort k) s' := by
  unfold pollAbort at h
  split at h
  · rename_i poll hk
    split at h
    · rename_i hlive; cases h; exact .pollAbort k poll hk hlive
    · cases h
  · cases h

theorem dequeue_sound {r w : Nat} {jobId : String} (h : dequeue r w jobId s = some s') :
    Step port env s (.dequeue r w jobId) s' := by
  unfold dequeue at h
  split at h
  · rename_i job hr hjob
    split at h
    · rename_i hready; cases h; exact .dequeue r w jobId job hr hjob hready
    · cases h
  · cases h

theorem claimBegin_sound {r : Nat} (h : claimBegin r s = some s') : Step port env s (.claimBegin r) s' := by
  unfold claimBegin at h
  split at h
  · rename_i run hr
    split at h
    · rename_i hpc; cases h; exact .walk _ r run _ hr (.claimBegin hpc)
    · cases h
  · cases h

theorem claimSelect_sound {r : Nat} (h : claimSelect r s = some s') : Step port env s (.claimSelect r) s' := by
  unfold claimSelect at h
  split at h
  · rename_i run hr
    split at h
    · rename_i began hpc
      split at h
      · rename_i hp; cases h; exact .walk _ r run _ hr (.claimNone hpc hp)
      · rename_i p hp
        split at h
        · rename_i hst; cases h; exact .walk _ r run _ hr (.claimRead hpc hp hst)
        · rename_i hst; cases h
          exact .walk _ r run _ hr (.claimIllegal hpc hp (Bool.eq_false_iff.2 hst))
    · cases h
  · cases h

theorem readClock_sound {r : Nat} (h : readClock r s = some s') : Step port env s (.readClock r) s' := by
  unfold readClock at h
  split at h
  · rename_i run hr
    split at h
    · rename_i began status hpc; cases h; exact .walk _ r run _ hr (.claimClock hpc)
    · rename_i began dis hpc; cases h; exact .walk _ r run _ hr (.settleClock hpc)
    · cases h
  · cases h

theorem claimUpdate_sound {r : Nat} (h : claimUpdate env r s = some s') :
    Step port env s (.claimUpdate r) s' := by
  unfold claimUpdate at h
  split at h
  · rename_i run hr
    split at h
    · rename_i began status clock hpc
      split at h
      · rename_i hnone; cases h
        exact .walk _ r run _ hr (.claimLost hpc (Db.updateWhere_eq_none hnone))
      · rename_i q db hsome
        obtain ⟨p, hp, rfl, rfl, rfl⟩ := Db.updateWhere_eq_some hsome
        split at h
        · cases h
        · rename_i hlock; cases h
          exact .claim r run began clock p hr hpc hp (Option.not_isSome_iff_eq_none.1 hlock)
    · cases h
  · cases h

theorem authorize_sound {r : Nat} (h : Worker.authorize port env r s = some s') :
    Step port env s (.authorize r) s' := by
  unfold Worker.authorize at h
  split at h
  · rename_i run hr
    split at h
    · rename_i hpc
      dsimp only at h
      split at h
      · rename_i hallow; cases h; exact .call r run hr hpc hallow
      · rename_i hallow; cases h; exact .refuse r run hr hpc (Bool.eq_false_iff.2 hallow)
    · cases h
  · cases h

theorem answer_sound {r : Nat} (h : answer port r s = some s') : Step port env s (.answer r) s' := by
  unfold answer at h
  split at h
  · rename_i call hcall
    split at h
    · rename_i hc; cases h; exact .answer r call hcall hc.1 hc.2
    · cases h
  · cases h

theorem receive_sound {r : Nat} (h : receive env r s = some s') : Step port env s (.receive r) s' := by
  unfold receive at h
  split at h
  · rename_i run call hr hcall
    split at h
    · rename_i since outcome hpc hreply; cases h
      exact .receive r run call since outcome hr hpc hcall hreply
    · rename_i since message hpc hreply; cases h
      exact .rethrow r run call since message hr hpc hcall hreply
    · cases h
  · cases h

theorem timeout_sound {r : Nat} (h : timeout env r s = some s') : Step port env s (.timeout r) s' := by
  unfold timeout at h
  split at h
  · rename_i run hr
    split at h
    · rename_i since hpc
      split at h
      · rename_i hlate; cases h; exact .timeout r run since hr hpc hlate
      · cases h
    · cases h
  · cases h

/-- The check before txn 2 always passes: a disposition only targets COMPLETED and FAILED. -/
theorem target_canTransition (dis : Disposition) : dis.target.all (canTransition PROCESSING) = true := by
  cases dis <;> rfl

theorem settleBegin_sound {r : Nat} (h : settleBegin r s = some s') : Step port env s (.settleBegin r) s' := by
  unfold settleBegin at h
  split at h
  · rename_i run hr
    split at h
    · rename_i dis hpc
      rw [if_pos (target_canTransition dis)] at h
      cases h
      exact .walk _ r run _ hr (.settleBegin hpc)
    · cases h
  · cases h

theorem retryUpdate_sound {r : Nat} (h : retryUpdate env r s = some s') :
    Step port env s (.retryUpdate r) s' := by
  unfold retryUpdate at h
  split at h
  · rename_i run hr
    split at h
    · rename_i began reason clock hpc
      rw [if_neg (by decide)] at h
      split at h
      · rename_i hnone; cases h
        exact .walk _ r run _ hr (.retryLost hpc (Db.updateWhere_eq_none hnone))
      · rename_i q db hsome
        obtain ⟨p, hp, hst, rfl, rfl⟩ := Db.updateWhere_eq_some hsome
        split at h
        · cases h
        · rename_i hlock
          rw [Option.not_isSome_iff_eq_none] at hlock
          by_cases hspent : p.attemptCount + 1 > env.cfg.maxRetries
          · rw [if_pos (retrySet_spent hspent)] at h
            cases h
            exact .exhaust r run began clock reason p hr hpc hp hst hlock hspent
          · have hleft := Nat.le_of_not_gt hspent
            have hne : (retrySet env.cfg clock reason p).status ≠ FAILED := by
              rw [retrySet_left hleft]; decide
            rw [if_neg hne] at h
            cases h
            exact .retry r run began clock reason p hr hpc hp hst hlock hleft
    · cases h
  · cases h

theorem finalUpdate_sound {r : Nat} (h : finalUpdate env r s = some s') :
    Step port env s (.finalUpdate r) s' := by
  unfold finalUpdate at h
  split at h
  · rename_i run hr
    split at h
    · rename_i began dis clock hpc
      split at h
      · cases h
      · rename_i target htarget
        split at h
        · rename_i hnone; cases h
          exact .walk _ r run _ hr (.finalLost hpc htarget (Db.updateWhere_eq_none hnone))
        · rename_i q db hsome
          obtain ⟨p, hp, hst, rfl, rfl⟩ := Db.updateWhere_eq_some hsome
          split at h
          · cases h
          · rename_i hlock; cases h
            exact .final r run began clock dis target p hr hpc htarget hp hst (Option.not_isSome_iff_eq_none.1 hlock)
    · cases h
  · cases h

theorem retryAdd_sound {r delay : Nat} (h : retryAdd env r delay s = some s') :
    Step port env s (.retryAdd r delay) s' := by
  unfold retryAdd at h
  split at h
  · rename_i run hr
    split at h
    · rename_i attempt hpc
      split at h
      · rename_i hlt; cases h; exact .walk _ r run _ hr (.retryInvalid hpc hlt)
      · rename_i hlt
        split at h
        · cases h; exact .retryAdd r delay run attempt hr hpc (Nat.le_of_not_lt hlt)
        · cases h
    · cases h
  · cases h

theorem fail_sound {r : Nat} (h : fail r s = some s') : Step port env s (.fail r) s' := by
  unfold fail at h
  split at h
  · rename_i run hr
    split at h
    · rename_i hpc; cases h; exact .walk _ r run _ hr (.fail hpc)
    · cases h
  · cases h

theorem finish_sound {r : Nat} (h : finish r s = some s') : Step port env s (.finish r) s' := by
  unfold finish at h
  split at h
  · rename_i run hr
    split at h
    · rename_i hpc; cases h; exact .finish r run _ hr (Or.inl ⟨hpc, rfl⟩)
    · rename_i hpc; cases h; exact .finish r run _ hr (Or.inr ⟨hpc, rfl⟩)
    · cases h
  · cases h

theorem stall_sound {jobId : String} (h : stall jobId s = some s') : Step port env s (.stall jobId) s' := by
  unfold stall at h
  split at h
  · rename_i job hjob
    split at h
    · rename_i r hst; cases h; exact .stall jobId job r hjob hst
    · cases h
  · cases h

theorem reapBegin_sound {k : Nat} (h : reapBegin k s = some s') : Step port env s (.reapBegin k) s' := by
  unfold reapBegin at h
  split at h
  · rename_i hk; cases h; exact .reapBegin k hk
  · cases h

theorem reapClock_sound {k : Nat} (h : reapClock k s = some s') : Step port env s (.reapClock k) s' := by
  unfold reapClock at h
  split at h
  · rename_i began hk; cases h; exact .deadlineClock k began hk
  · rename_i began time stuck hk; cases h; exact .batchClock k began time stuck hk
  · cases h

theorem reapSelect_sound {k : Nat} {pids : List String} (h : reapSelect env k pids s = some s') :
    Step port env s (.reapSelect k pids) s' := by
  unfold reapSelect at h
  split at h
  · rename_i began clock hk
    split at h
    · rename_i hpids
      split at h
      · rename_i stuck hstuck; cases h; exact .reapSelect k pids began clock stuck hk hpids.1 hstuck
      · cases h
    · cases h
  · cases h

theorem reapUpdate_sound {k : Nat} (h : reapUpdate env k s = some s') : Step port env s (.reapUpdate k) s' := by
  unfold reapUpdate at h
  split at h
  · rename_i began time stuck clock hk; cases h; exact .reapUpdate k began time clock stuck hk
  · cases h

theorem reapStamp_sound {k : Nat} (h : reapStamp k s = some s') : Step port env s (.reapStamp k) s' := by
  unfold reapStamp at h
  split at h
  · rename_i stuck hk; cases h; exact .reapStamp k stuck hk
  · cases h

theorem reapAdd_sound {k : Nat} {pid : String} (h : reapAdd k pid s = some s') :
    Step port env s (.reapAdd k pid) s' := by
  unfold reapAdd at h
  split at h
  · rename_i stamp stuck hk
    split at h
    · rename_i row hrow; cases h
      have hid : row.id = pid := by simpa using List.find?_some hrow
      subst hid
      exact .reapAdd k stamp stuck row hk (List.mem_of_find?_eq_some hrow)
    · cases h
  · cases h

/-- Every step of the pipeline is one of the rules. -/
theorem step_sound {a : Action κ} (h : step port env s a = some s') : Step port env s a s' := by
  cases a with
  | tick ms => cases h; exact .tick ms
  | submit dto key hash correlationId => exact submit_sound h
  | inject jobId name data => cases h; exact .inject jobId name data
  | setConfig c => cases h; exact .setConfig c
  | pollSelect k => exact pollSelect_sound h
  | pollAdd k id => exact pollAdd_sound h
  | pollCommit k => exact pollCommit_sound h
  | pollAbort k => exact pollAbort_sound h
  | dequeue r w jobId => exact dequeue_sound h
  | claimBegin r => exact claimBegin_sound h
  | claimSelect r => exact claimSelect_sound h
  | readClock r => exact readClock_sound h
  | claimUpdate r => exact claimUpdate_sound h
  | authorize r => exact authorize_sound h
  | answer r => exact answer_sound h
  | receive r => exact receive_sound h
  | timeout r => exact timeout_sound h
  | settleBegin r => exact settleBegin_sound h
  | retryUpdate r => exact retryUpdate_sound h
  | finalUpdate r => exact finalUpdate_sound h
  | retryAdd r delay => exact retryAdd_sound h
  | fail r => exact fail_sound h
  | finish r => exact finish_sound h
  | stall jobId => exact stall_sound h
  | crash w => cases h; exact .crash w
  | reapBegin k => exact reapBegin_sound h
  | reapClock k => exact reapClock_sound h
  | reapSelect k pids => exact reapSelect_sound h
  | reapUpdate k => exact reapUpdate_sound h
  | reapStamp k => exact reapStamp_sound h
  | reapAdd k pid => exact reapAdd_sound h
  | reapEnd k => cases h; exact .reapEnd k

end PaymentsProcessor.Pipeline
