/-
What the drawer tells is true: each payment it shows is the one committed for the pair of its customer and key, it is called
new at most once and a replay only after that, and a request that was lost can be made again until the payment is shown,
which changes nothing in the tables.
-/
import PaymentsProcessor.Web.SubmitForm

namespace PaymentsProcessor.SubmitForm

open Transition PartialMap Submissions PaymentStatus History

variable {env : Env} {key : String} {s s' : State} {a : Action}

/-! ## The calls of the API -/

/-- The calls have the same arguments. -/
structure SameArgs (x y : Submission) : Prop where
  dto : y.dto = x.dto
  key : y.key = x.key
  hash : y.hash = x.hash

/-- A call keeps its arguments. -/
theorem calls_kept {api api' : Submissions.State} {b : Submissions.Action} (hs : Submissions.Step api b api') {c : Nat}
    {call : Submissions.Call} (hc : api.calls c = some call) : ∃ call', api'.calls c = some call' ∧ SameArgs call.x call'.x := by
  have hmoved : ∀ {c₀ : Nat} {x y : Submission} {pc pc' : CallPc}, api.calls c₀ = some ⟨x, pc⟩ → SameArgs x y →
      ∃ call', Function.update api.calls c₀ (some ⟨y, pc'⟩) c = some call' ∧ SameArgs call.x call'.x := by
    intro c₀ x y pc pc' hc₀ hsame
    by_cases hcc : c = c₀
    · subst hcc
      rw [hc] at hc₀
      cases hc₀
      exact ⟨_, Function.update_self .., hsame⟩
    · exact ⟨call, by rw [Function.update_of_ne hcc, hc], rfl, rfl, rfl⟩
  cases hs with
  | tick => exact ⟨call, hc, rfl, rfl, rfl⟩
  | start c₀ x pc hx hfree =>
    have hne : c ≠ c₀ := by
      rintro rfl
      rw [hc] at hfree
      cases hfree
    exact ⟨call, (Function.update_of_ne hne _ _).trans hc, rfl, rfl, rfl⟩
  | walk c₀ x y a pc pc' ids hc₀ hwalk =>
    refine hmoved hc₀ ?_
    cases hwalk <;> exact ⟨rfl, rfl, rfl⟩
  | violate c₀ x hc₀ | insertKey c₀ x hc₀ | commit c₀ x hc₀ | read c₀ x hc₀ => exact hmoved hc₀ ⟨rfl, rfl, rfl⟩
  | fail c₀ x pc message hc₀ | crash c₀ x pc hc₀ => exact hmoved hc₀ ⟨rfl, rfl, rfl⟩

theorem finitelyMany_calls {C : Submissions.State → Submissions.Action → Prop} {api : Submissions.State}
    (h : Reach Submissions.system C api) : FinitelyMany api.calls := by
  refine h.invariant (I := fun api => FinitelyMany api.calls) finitelyMany_empty fun api b api' _ hI _ hs => ?_
  cases Submissions.step_sound hs with
  | tick => exact hI
  | _ => exact hI.update _ _

theorem committedOf_mono {api api' : Submissions.State} {b : Submissions.Action} (hs : Submissions.Step api b api')
    {y : Submission} (hy : y ∈ committedOf api.answers) : y ∈ committedOf api'.answers := by
  obtain ⟨after, hafter⟩ := answers_prefix_step hs
  unfold committedOf
  rw [← hafter, List.filter_append, List.map_append]
  exact List.mem_append_left _ hy

/-- A payment that is returned is the one committed for the pair, under the hash of the call. -/
theorem committed_of_returned {api : Submissions.State} (hI : SubmissionsInv api) {c : Nat} {x : Submission} {replayed : Bool}
    {status : Nat} {body : Payment} (hc : api.calls c = some ⟨x, .ended (.returned replayed status body)⟩) :
    ∃ y ∈ committedOf api.answers, y.pair = x.pair ∧ y.hash = x.hash ∧ body = y.payment := by
  have hmem : ⟨c, x, .returned replayed status body⟩ ∈ api.answers := (hI.calls hc).ended _ rfl
  cases hI.history.answered _ hmem with
  | committed hresult =>
    dsimp only at hresult
    cases hresult
    exact ⟨x, List.mem_map_of_mem (List.mem_filter.2 ⟨hmem, rfl⟩), rfl, rfl, rfl⟩
  | conflict y hy hpair hhash hresult => cases hresult
  | replayed y hy hpair hhash hresult =>
    dsimp only at hresult
    cases hresult
    exact ⟨y, hy, hpair, hhash, rfl⟩

/-! ## The invariant -/

/-- The id, if the payment is called new. -/
def Result.newId : Result → Option String
  | .new receipt => some receipt.id
  | .replay _ | .error _ => none

/-- The ids called new. -/
def newIds (shown : List Shown) : List String := shown.filterMap fun e => e.result.newId

/-- The receipt is of the payment committed for the request. -/
def Pays (env : Env) (api : Submissions.State) (e : Shown) (receipt : Receipt) : Prop :=
  ∃ y ∈ committedOf api.answers, y.id = receipt.id ∧ y.pair = (e.dto.customerId, e.key) ∧
    y.hash = env.requestHash e.dto ∧ receipt.status = PENDING

/-- A payment is new the first time, and a replay after that. -/
def Told (before : List Shown) (e : Shown) : Prop :=
  match e.result with
  | .new receipt => receipt.id ∉ newIds before
  | .replay receipt => receipt.id ∈ newIds before
  | .error _ => True

/-- The call that serves a request has its arguments. -/
def Serves (env : Env) (api : Submissions.State) (attempt : Attempt) : Prop :=
  ∀ c, attempt.pc = .served c → ∃ call, api.calls c = some call ∧ call.x.dto = attempt.dto ∧ call.x.key = attempt.key ∧
    call.x.hash = env.requestHash attempt.dto

structure DrawerInv (env : Env) (s : State) : Prop where
  api : Reach Submissions.system Free s.api
  serves : All s.attempts fun _ attempt => Serves env s.api attempt
  paid : ∀ e ∈ s.shown, ∀ receipt, e.result.receipt = some receipt → Pays env s.api e receipt
  told : Justified Told s.shown
  created : ∀ id, id ∈ s.createdIds ↔ id ∈ newIds s.shown
  finite : FinitelyMany s.attempts

/-- Whatever a call of the API does. -/
theorem DrawerInv.called (h : DrawerInv env s) {api : Submissions.State} {b : Submissions.Action}
    (hs : Submissions.step s.api b = some api) : DrawerInv env { s with api := api } := by
  have hstep := Submissions.step_sound hs
  refine ⟨.step h.api trivial hs, fun i attempt hi c hpc => ?_, fun e he receipt hreceipt => ?_, h.told, h.created, h.finite⟩
  · obtain ⟨call, hc, hdto, hkey, hhash⟩ := h.serves hi c hpc
    obtain ⟨call', hc', hsame⟩ := calls_kept hstep hc
    exact ⟨call', hc', hsame.dto.trans hdto, hsame.key.trans hkey, hsame.hash.trans hhash⟩
  · obtain ⟨y, hy, hrest⟩ := h.paid e he receipt hreceipt
    exact ⟨y, committedOf_mono hstep hy, hrest⟩

theorem newIds_snoc (shown : List Shown) (e : Shown) : newIds (shown ++ [e]) = newIds shown ++ e.result.newId.toList := by
  unfold newIds
  rw [List.filterMap_append]
  cases he : e.result.newId <;> simp [he]

/-- What `handleSubmit` shows of an answer, if that is true. -/
theorem DrawerInv.settle (h : DrawerInv env s) {i : Nat} {attempt : Attempt} {answer : Except String (Payment × Option String)}
    (hanswer : ∀ payment correlationId, answer = .ok (payment, correlationId) →
      ∃ y ∈ committedOf s.api.answers, y.pair = (attempt.dto.customerId, attempt.key) ∧
        y.hash = env.requestHash attempt.dto ∧ payment = y.payment) : DrawerInv env (settle i attempt answer s) := by
  have hserves : AllBut s.attempts i fun _ attempt => Serves env s.api attempt := h.serves.but
  have hsettled : Serves env s.api { attempt with pc := .settled } := fun c hpc => by cases hpc
  cases answer with
  | error message =>
    refine ⟨h.api, hserves.set hsettled, fun e he receipt hreceipt => ?_, h.told.snoc trivial, fun id => ?_, h.finite.update _ _⟩
    · rcases List.mem_append.1 he with hold | hnew
      · exact h.paid e hold receipt hreceipt
      · rw [List.mem_singleton.1 hnew] at hreceipt
        cases hreceipt
    · show id ∈ s.createdIds ↔ id ∈ newIds (s.shown ++ _)
      rw [newIds_snoc]
      simpa [Result.newId] using h.created id
  | ok answer =>
    obtain ⟨payment, correlationId⟩ := answer
    obtain ⟨y, hy, hpair, hhash, rfl⟩ := hanswer payment correlationId rfl
    have hpays : ∀ e ∈ s.shown ++ [⟨attempt.dto, attempt.key, if y.payment.id ∈ s.createdIds then
        .replay ⟨y.payment.id, y.payment.status, correlationId⟩ else .new ⟨y.payment.id, y.payment.status, correlationId⟩⟩],
        ∀ receipt, e.result.receipt = some receipt → Pays env s.api e receipt := by
      intro e he receipt hreceipt
      rcases List.mem_append.1 he with hold | hnew
      · exact h.paid e hold receipt hreceipt
      · rw [List.mem_singleton.1 hnew] at hreceipt ⊢
        have hreceipt : some (⟨y.payment.id, y.payment.status, correlationId⟩ : Receipt) = some receipt := by
          rw [← hreceipt]
          dsimp only
          split <;> rfl
        cases hreceipt
        exact ⟨y, hy, rfl, hpair, hhash, rfl⟩
    by_cases hmem : y.payment.id ∈ s.createdIds
    · refine ⟨h.api, hserves.set hsettled, hpays, h.told.snoc ?_, fun id => ?_, h.finite.update _ _⟩
      · rw [if_pos hmem]
        exact (h.created _).1 hmem
      · show id ∈ (if y.payment.id ∈ s.createdIds then _ else _) ↔ id ∈ newIds (s.shown ++ _)
        rw [newIds_snoc, if_pos hmem, if_pos hmem]
        simpa [Result.newId] using h.created id
    · refine ⟨h.api, hserves.set hsettled, hpays, h.told.snoc ?_, fun id => ?_, h.finite.update _ _⟩
      · rw [if_neg hmem]
        exact fun hold => hmem ((h.created _).2 hold)
      · show id ∈ (if y.payment.id ∈ s.createdIds then _ else _) ↔ id ∈ newIds (s.shown ++ _)
        rw [newIds_snoc, if_neg hmem, if_neg hmem]
        simp only [Result.newId, Option.toList_some, List.mem_cons, List.mem_append, List.not_mem_nil, or_false, h.created id]
        exact Or.comm

theorem submitPayment_problem {correlationId : String} {problem : Problem} {payment : Payment} {corr : Option String} :
    submitPayment env correlationId (.problem problem) ≠ .ok (payment, corr) := by
  rintro ⟨⟩

theorem DrawerInv.step (h : DrawerInv env s) (hs : step env s a = some s') : DrawerInv env s' := by
  cases a with
  | api b =>
    obtain ⟨api, hb, rfl⟩ := Option.map_eq_some_iff.1 hs
    exact h.called hb
  | set | setIdempotencyKey => cases hs; exact ⟨h.api, h.serves, h.paid, h.told, h.created, h.finite⟩
  | handleSubmit i =>
    dsimp only [SubmitForm.step, handleSubmit] at hs
    split at hs
    · cases hs
      refine ⟨h.api, h.serves.but.set fun c hpc => ?_, h.paid, h.told, h.created, h.finite.update _ _⟩
      cases hpc
    · cases hs
  | arrive i c correlationId id outboxId =>
    dsimp only [SubmitForm.step, arrive] at hs
    split at hs
    · rename_i dto key hi
      split at hs
      · obtain ⟨api, hstart, rfl⟩ := Option.map_eq_some_iff.1 hs
        have hcalled := h.called (b := .start c dto key (env.requestHash dto) correlationId id outboxId) hstart
        refine ⟨hcalled.api, hcalled.serves.but.set ?_, hcalled.paid, h.told, h.created, h.finite.update _ _⟩
        -- the call is started with what the request holds
        rintro c' ⟨⟩
        unfold Submissions.start at hstart
        split at hstart
        · split at hstart
          · dsimp only at hstart
            split at hstart <;> cases hstart <;> exact ⟨_, Function.update_self .., rfl, rfl, rfl⟩
          · cases hstart
        · cases hstart
      · cases hs
    · cases hs
  | refuse i errors =>
    dsimp only [SubmitForm.step, refuse] at hs
    split at hs
    · split at hs
      · cases hs
        exact h.settle fun _ _ hok => absurd hok submitPayment_problem
      · split at hs
        · cases hs
          exact h.settle fun _ _ hok => absurd hok submitPayment_problem
        · cases hs
    · cases hs
  | receive i =>
    dsimp only [SubmitForm.step, receive] at hs
    split at hs
    · rename_i dto key c hi
      obtain ⟨call, hc, hdto, hkey, hhash⟩ := h.serves hi c rfl
      split at hs
      · rename_i x result hended
        rw [hc] at hended
        cases hended
        cases hs
        refine h.settle fun payment corr hok => ?_
        cases result with
        | returned replayed status body =>
          cases hok
          obtain ⟨y, hy, hpair, hyhash, rfl⟩ := committed_of_returned (submissionsInv h.api) hc
          exact ⟨y, hy, hpair.trans (Prod.ext (congrArg CreatePaymentDto.customerId hdto) hkey), hyhash.trans hhash, rfl⟩
        | conflict message | failed message => exact absurd hok submitPayment_problem
      · cases hs
        exact h.settle fun _ _ hok => absurd hok submitPayment_problem
      · cases hs
    · cases hs
  | lose i message =>
    dsimp only [SubmitForm.step, lose] at hs
    split at hs
    · cases hs
    · cases hs
    · cases hs
      exact h.settle fun _ _ hok => by cases hok

theorem drawerInv {C : State → Action → Prop} (h : Reach (system env key) C s) : DrawerInv env s := by
  refine h.invariant (I := DrawerInv env) ?_ fun _ _ _ _ hI _ hs => hI.step hs
  exact ⟨.init, all_empty, fun e he => absurd he List.not_mem_nil, justified_nil, fun id => Iff.rfl, finitelyMany_empty⟩

/-! ## Asking again -/

/-- No other client starts a call, and nothing is typed. -/
def untouched : Action → Bool
  | .api (.start ..) | .set _ | .setIdempotencyKey _ => false
  | _ => true

/-- A call whose pair is taken under its hash can be run to the end: it replays the payment and leaves the tables alone. -/
theorem exists_replay {api : Submissions.State} {c : Nat} {x : Submission} {k : IdempotencyKey}
    (hc : api.calls c = some ⟨x, .started⟩) (hk : api.db.findKey x.dto.customerId x.key = some k)
    (hhash : k.requestHash = x.hash) : ∃ api' y, Path Submissions.system (fun b => untouched (.api b)) api api' ∧
      api'.calls c = some ⟨y, .ended (.returned true k.responseStatus k.responseBody)⟩ ∧ api'.db = api.db := by
  obtain ⟨eventId, hfresh⟩ : ∃ eventId, eventId ∉ api.drawn := by
    obtain ⟨eventId, hnot⟩ := Infinite.exists_notMem_finset api.drawn.toFinset
    exact ⟨eventId, by simpa using hnot⟩
  let x₁ : Submission := { x with began := api.now }
  let x₂ : Submission := { x₁ with eventId := eventId }
  obtain ⟨api₁, h₁, hc₁, hdb₁, hdrawn₁⟩ : ∃ api₁, Submissions.step api (.begin_ c) = some api₁ ∧
      api₁.calls c = some ⟨x₁, .begun⟩ ∧ api₁.db = api.db ∧ api₁.drawn = api.drawn := by
    refine ⟨api.setCall c ⟨x₁, .begun⟩, ?_, Function.update_self .., rfl, rfl⟩
    simp [Submissions.step, begin_, hc, x₁]
  obtain ⟨api₂, h₂, hc₂, hdb₂, hdrawn₂⟩ : ∃ api₂, Submissions.step api₁ (.insertPayment c) = some api₂ ∧
      api₂.calls c = some ⟨x₁, .insertedPayment⟩ ∧ api₂.db = api₁.db ∧ api₂.drawn = api₁.drawn := by
    refine ⟨api₁.setCall c ⟨x₁, .insertedPayment⟩, ?_, Function.update_self .., rfl, rfl⟩
    simp [Submissions.step, insertPayment, hc₁]
  obtain ⟨api₃, h₃, hc₃, hdb₃⟩ : ∃ api₃, Submissions.step api₂ (.insertEvent c eventId) = some api₃ ∧
      api₃.calls c = some ⟨x₂, .insertedEvent⟩ ∧ api₃.db = api₂.db := by
    refine ⟨{ api₂.setCall c ⟨x₂, .insertedEvent⟩ with drawn := eventId :: api₂.drawn }, ?_, Function.update_self .., rfl⟩
    simp [Submissions.step, insertEvent, hc₂, hdrawn₂, hdrawn₁, hfresh, x₂]
  have hk₃ : api₃.db.findKey x₂.dto.customerId x₂.key = some k := by rw [hdb₃, hdb₂, hdb₁]; exact hk
  obtain ⟨api₄, h₄, hc₄, hdb₄⟩ : ∃ api₄, Submissions.step api₃ (.insertKey c) = some api₄ ∧
      api₄.calls c = some ⟨x₂, .violated⟩ ∧ api₄.db = api₃.db := by
    refine ⟨api₃.rollback c ⟨x₂, .violated⟩, ?_, Function.update_self .., rfl⟩
    simp [Submissions.step, insertKey, hc₃, hk₃]
  obtain ⟨api₅, h₅, hc₅, hdb₅⟩ : ∃ api₅, Submissions.step api₄ (.read c) = some api₅ ∧
      api₅.calls c = some ⟨x₂, .ended (replay x₂.dto x₂.key x₂.hash (some k))⟩ ∧ api₅.db = api₄.db := by
    let result := replay x₂.dto x₂.key x₂.hash (some k)
    refine ⟨{ api₄.setCall c ⟨x₂, .ended result⟩ with answers := api₄.answers ++ [⟨c, x₂, result⟩] }, ?_,
      Function.update_self .., rfl⟩
    simp [Submissions.step, Submissions.read, hc₄, hdb₄, hk₃, result]
  have hreplay : replay x₂.dto x₂.key x₂.hash (some k) = .returned true k.responseStatus k.responseBody :=
    if_neg (not_not.2 hhash)
  rw [hreplay] at hc₅
  refine ⟨api₅, x₂, ?_, hc₅, by rw [hdb₅, hdb₄, hdb₃, hdb₂, hdb₁]⟩
  have hone : ∀ {u v : Submissions.State} (b : Submissions.Action), untouched (.api b) = true → Submissions.step u b = some v →
      Path Submissions.system (fun b => untouched (.api b)) u v := fun b hb hs => Path.single b hb hs
  exact (hone _ rfl h₁).trans ((hone _ rfl h₂).trans ((hone _ rfl h₃).trans ((hone _ rfl h₄).trans (hone _ rfl h₅))))

theorem api_path {api : Submissions.State} (h : Path Submissions.system (fun b => untouched (.api b)) s.api api) :
    Path (system env key) untouched s { s with api := api } :=
  h.lift (fun api => { s with api := api }) fun _ _ ⟨b, hb, hs⟩ =>
    ⟨.api b, hb, by show (Submissions.step _ b).map _ = _; rw [show Submissions.step _ b = _ from hs]; rfl⟩

/-- Asking again for a payment that is committed shows it. -/
theorem exists_shown (h : Reach (system env key) Free s) {y : Submission} (hy : y ∈ committedOf s.api.answers)
    (hpair : y.pair = (s.form.customerId, header s.idempotencyKey)) (hhash : y.hash = env.requestHash s.form.body)
    (hvalid : s.form.body.valid = true) (hkey : header s.idempotencyKey ≠ "") {n : Nat}
    (hamount : convAmountToUnits s.form.amount = .ok n) :
    ∃ t receipt, Path (system env key) untouched s t ∧ receipt.id = y.id ∧ t.api.db = s.api.db ∧
      t.result = some (if y.id ∈ s.createdIds then .replay receipt else .new receipt) := by
  have hI := drawerInv h
  obtain ⟨i, -, hi⟩ := hI.finite.exists_free Function.injective_id 0
  obtain ⟨c, -, hc⟩ := (finitelyMany_calls hI.api).exists_free Function.injective_id 0
  obtain ⟨id, hid⟩ := Infinite.exists_notMem_finset s.api.drawn.toFinset
  obtain ⟨outboxId, houtbox⟩ := Infinite.exists_notMem_finset (id :: s.api.drawn).toFinset
  simp only [List.mem_toFinset, List.mem_cons, not_or, id_eq] at hid houtbox hi hc
  -- the request is made, and a call is started for it
  obtain ⟨u, hsubmit, hu⟩ : ∃ u, step env s (.handleSubmit i) = some u ∧
      u.attempts i = some ⟨s.form.body, header s.idempotencyKey, .sent⟩ ∧ u.api = s.api ∧ u.createdIds = s.createdIds := by
    refine ⟨{ s with
      submitting := true
      result := none
      attempts := Function.update s.attempts i (some ⟨s.form.body, header s.idempotencyKey, .sent⟩) }, ?_,
      Function.update_self .., rfl, rfl⟩
    simp [step, handleSubmit, hi]
  obtain ⟨hui, huapi, hucreated⟩ := hu
  let x := called s.form.body (header s.idempotencyKey) (env.requestHash s.form.body) "" id outboxId
  obtain ⟨v, harrive, hv⟩ : ∃ v, step env u (.arrive i c "" id outboxId) = some v ∧
      v.attempts i = some ⟨s.form.body, header s.idempotencyKey, .served c⟩ ∧ v.api.calls c = some ⟨x, .started⟩ ∧
      v.api.db = s.api.db ∧ v.createdIds = s.createdIds := by
    have hstart : Submissions.start c s.form.body (header s.idempotencyKey) (env.requestHash s.form.body) "" id outboxId s.api =
        some { s.api.setCall c ⟨x, .started⟩ with drawn := id :: outboxId :: s.api.drawn } := by
      unfold Submissions.start
      rw [hc]
      dsimp only
      rw [if_pos ⟨hid, houtbox.2, Ne.symm houtbox.1⟩, show convAmountToUnits s.form.body.amount = .ok n from hamount]
    refine ⟨{ u with
      api := { s.api.setCall c ⟨x, .started⟩ with drawn := id :: outboxId :: s.api.drawn }
      attempts := Function.update u.attempts i (some ⟨s.form.body, header s.idempotencyKey, .served c⟩) }, ?_,
      Function.update_self .., Function.update_self .., rfl, hucreated⟩
    simp [step, arrive, hui, hvalid, hkey, huapi, hstart]
  obtain ⟨hvi, hvc, hvdb, hvcreated⟩ := hv
  -- it finds the payment, and the response comes in
  obtain ⟨b, rfl, hown⟩ := owns_of_committed (submissionsInv hI.api) hy
  rw [hpair] at hown
  have hfound : v.api.db.findKey x.dto.customerId x.key = some b.x.keyEntry := by
    rw [hvdb]
    exact findKey_of_owns (submissionsInv hI.api) hown
  obtain ⟨api, y, hpath, hended, hdb⟩ := exists_replay hvc hfound hhash
  have hreceive : step env { v with api := api } (.receive i) = some (settle i ⟨s.form.body, header s.idempotencyKey, .served c⟩
      (.ok (b.x.payment, if env.exposed then some y.correlationId else none)) { v with api := api }) := by
    simp only [step, receive, hvi, hended]
    rfl
  refine ⟨settle i ⟨s.form.body, header s.idempotencyKey, .served c⟩
    (.ok (b.x.payment, if env.exposed then some y.correlationId else none)) { v with api := api },
    ⟨b.x.id, PENDING, if env.exposed then some y.correlationId else none⟩, ?_, rfl, hdb.trans hvdb, ?_⟩
  · have hone : ∀ {u v : State} (a : Action), untouched a = true → step env u a = some v →
        Path (system env key) untouched u v := fun a ha hs => Path.single a ha hs
    exact (hone _ rfl hsubmit).trans ((hone _ rfl harrive).trans ((api_path hpath).trans (hone _ rfl hreceive)))
  · show some (if b.x.payment.id ∈ v.createdIds then _ else _) = _
    rw [hvcreated]
    rfl

/-! ## The whole -/

theorem newIds_nodup {shown : List Shown} (h : Justified Told shown) : (newIds shown).Nodup := by
  induction shown using List.reverseRecOn with
  | nil => exact List.nodup_nil
  | append_singleton shown e ih =>
    have hbefore : Justified Told shown := fun pre x post heq => h (by rw [heq, List.append_assoc, List.cons_append])
    have hlast : Told shown e := h (show shown ++ [e] = shown ++ e :: [] from rfl)
    rw [newIds_snoc, List.nodup_append]
    refine ⟨ih hbefore, ?_, ?_⟩
    · cases e.result.newId <;> simp
    · rintro id hid _ hnew rfl
      unfold Told at hlast
      cases he : e.result <;> rw [he] at hnew hlast
      · simp only [Result.newId, Option.toList_some, List.mem_singleton] at hnew
        exact hlast (hnew ▸ hid)
      · cases hnew
      · cases hnew

/-- What the drawer has told. -/
structure Truthful (env : Env) (s : State) : Prop where
  /-- a payment that is shown is in the tables, committed under the key of its request with the hash of its body -/
  paid : ∀ e ∈ s.shown, ∀ receipt, e.result.receipt = some receipt → ∃ y ∈ committedOf s.api.answers,
    s.api.db.payments receipt.id = some y.payment ∧ y.pair = (e.dto.customerId, e.key) ∧ y.hash = env.requestHash e.dto ∧
      receipt.status = y.payment.status
  /-- no other payment is committed under the key -/
  only : ∀ e ∈ s.shown, ∀ receipt, e.result.receipt = some receipt → ∀ y ∈ committedOf s.api.answers,
    y.pair = (e.dto.customerId, e.key) → y.id = receipt.id
  same : ∀ e ∈ s.shown, ∀ e' ∈ s.shown, ∀ receipt receipt', e.result.receipt = some receipt →
    e'.result.receipt = some receipt' → e.dto.customerId = e'.dto.customerId → e.key = e'.key →
      receipt.id = receipt'.id ∧ env.requestHash e.dto = env.requestHash e'.dto
  /-- each payment is new once, and a replay only after that -/
  once : (newIds s.shown).Nodup
  told : Justified Told s.shown

theorem truthful (h : Reach (system env key) Free s) : Truthful env s := by
  have hI := drawerInv h
  have hapi := submissionsInv hI.api
  have hpairs : ∀ y ∈ committedOf s.api.answers, ∀ z ∈ committedOf s.api.answers, y.pair = z.pair → y = z :=
    fun y hy z hz heq => List.inj_on_of_nodup_map hapi.history.pairs hy hz heq
  refine ⟨fun e he receipt hreceipt => ?_, fun e he receipt hreceipt y hy hpair => ?_,
    fun e he e' he' receipt receipt' hreceipt hreceipt' hcustomer hkey => ?_, newIds_nodup hI.told, hI.told⟩
  · obtain ⟨y, hy, hid, hpair, hhash, hstatus⟩ := hI.paid e he receipt hreceipt
    exact ⟨y, hy, (hapi.history.payments _ _).2 ⟨y, hy, rfl, hid⟩, hpair, hhash, hstatus⟩
  · obtain ⟨z, hz, hid, hzpair, -⟩ := hI.paid e he receipt hreceipt
    rw [hpairs y hy z hz (hpair.trans hzpair.symm), hid]
  · obtain ⟨y, hy, hid, hpair, hhash, -⟩ := hI.paid e he receipt hreceipt
    obtain ⟨z, hz, hid', hzpair, hzhash, -⟩ := hI.paid e' he' receipt' hreceipt'
    have hyz := hpairs y hy z hz (hpair.trans ((Prod.ext hcustomer hkey).trans hzpair.symm))
    exact ⟨by rw [← hid, ← hid', hyz], by rw [← hhash, ← hzhash, hyz]⟩

/-- However the calls of the drawer overlap with each other and with those of other clients, and whatever is lost or crashes:
what the drawer tells is true, and as long as the form and its key are those of a committed payment, submitting can show
that payment and leaves the tables as they are. -/
theorem submit_once (h : Reach (system env key) Free s) : Truthful env s ∧
    ∀ y ∈ committedOf s.api.answers, y.pair = (s.form.customerId, header s.idempotencyKey) →
      y.hash = env.requestHash s.form.body → s.form.body.valid = true → header s.idempotencyKey ≠ "" →
      (∃ n, convAmountToUnits s.form.amount = .ok n) →
      ∃ t receipt, Path (system env key) untouched s t ∧ receipt.id = y.id ∧ t.api.db = s.api.db ∧
        t.result = some (if y.id ∈ s.createdIds then .replay receipt else .new receipt) :=
  ⟨truthful h, fun _ hy hpair hhash hvalid hkey hamount => exists_shown h hy hpair hhash hvalid hkey hamount.choose_spec⟩

/-- The response to the first of three submissions is lost, the others overlap. -/
def overlapping : List Action :=
  [.handleSubmit 0, .arrive 0 0 "corr0" "00" "01", .api (.begin_ 0), .api (.insertPayment 0), .api (.insertEvent 0 "02"),
    .api (.insertKey 0), .api (.insertOutbox 0), .lose 0 "Failed to fetch", .api (.commit 0), .api (.answer 0),
    .handleSubmit 1, .handleSubmit 2, .arrive 2 2 "corr2" "20" "21", .arrive 1 1 "corr1" "10" "11", .api (.begin_ 1),
    .api (.insertPayment 1), .api (.insertEvent 1 "12"), .api (.insertKey 1), .api (.begin_ 2), .api (.insertPayment 2),
    .api (.insertEvent 2 "22"), .api (.insertKey 2), .api (.read 2), .api (.read 1), .receive 2, .receive 1]

/-- A hash that shows the body, and a page that may read the header. -/
def sample : Env where
  requestHash dto := dto.customerId ++ dto.sourceAccount ++ dto.destinationAccount ++ dto.amount ++ dto.reference.getD ""
  statusCodes _ := none
  exposed := true

theorem submit_once_overlapping : ∃ s, Reach (system sample "key") Free s ∧
    s.shown.map Shown.result = [.error "Failed to fetch", .new ⟨"00", .PENDING, some "corr2"⟩,
      .replay ⟨"00", .PENDING, some "corr1"⟩] ∧ Truthful sample s := by
  obtain ⟨s, hs, hshown⟩ := exists_reach_of_exec (show (exec (system sample "key") (system sample "key").init overlapping).any
    (fun s => s.shown.map Shown.result = [.error "Failed to fetch", .new ⟨"00", .PENDING, some "corr2"⟩,
      .replay ⟨"00", .PENDING, some "corr1"⟩]) = true by decide +kernel)
  exact ⟨s, hs, of_decide_eq_true hshown, (submit_once hs).1⟩

end PaymentsProcessor.SubmitForm
