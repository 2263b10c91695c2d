/-
The webhooks beside others. The relay marks rows of the outbox as published and the pipeline draws ids from the same source;
the webhooks read no such mark. So their steps are those of webhooks that are alone, without the marks and with the ids
counted without those of the others.
-/
import PaymentsProcessor.Base.Renumbering
import PaymentsProcessor.Webhooks.System

namespace PaymentsProcessor.Webhooks

open Transition PartialMap Processor Dispatcher Webhooks.Reaper

variable {env : Env} {u v : UlidSource} {m : ℕ} {w w' : State} {row : OutboxRow} {rows : List OutboxRow}

/-! ## The webhooks alone -/

/-- A row without the mark of the relay. -/
def unpublish (row : OutboxRow) : OutboxRow := { row with publishedAt := none }

def unpublishPoll (poll : Poll) : Poll := { poll with events := poll.events.map unpublish }

/-- The webhooks as they would be alone, with `m` ids drawn. -/
def solo (m : ℕ) (w : State) : State :=
  { w with
    ulids := m
    outbox := w.outbox.map unpublish
    polls := Option.map unpublishPoll ∘ w.polls }

@[simp] theorem solo_now : (solo m w).now = w.now := rfl
@[simp] theorem solo_ulids : (solo m w).ulids = m := rfl
@[simp] theorem solo_endpoints : (solo m w).endpoints = w.endpoints := rfl
@[simp] theorem solo_deliveries : (solo m w).deliveries = w.deliveries := rfl
@[simp] theorem solo_delivery (id : String) : (solo m w).delivery id = w.delivery id := rfl
@[simp] theorem solo_queue : (solo m w).queue = w.queue := rfl
@[simp] theorem solo_deliveryLocks : (solo m w).deliveryLocks = w.deliveryLocks := rfl
@[simp] theorem solo_polls : (solo m w).polls = Option.map unpublishPoll ∘ w.polls := rfl
@[simp] theorem solo_reaps : (solo m w).reaps = w.reaps := rfl
@[simp] theorem solo_runs : (solo m w).runs = w.runs := rfl

/-- What a step from `w` has led to, alone. -/
def soloAfter (m : ℕ) (w w' : State) : State := solo (m + (w'.ulids - w.ulids)) w'

/-- A step that draws `d` ids. -/
theorem some_solo {q : State} {d : ℕ} (h : w'.ulids = w.ulids + d) (hq : q = solo (m + d) w') :
    some q = (some w').map (soloAfter m w) := by
  rw [hq, Option.map_some, soloAfter, h, Nat.add_sub_cancel_left]

/-- A step that draws none. -/
theorem some_solo_same {q : State} (h : w'.ulids = w.ulids) (hq : q = solo m w') :
    some q = (some w').map (soloAfter m w) := some_solo (d := 0) h hq

theorem ite_solo {c : Prop} [Decidable c] {x y x' y' : Option State} (hx : x = x'.map (soloAfter m w))
    (hy : y = y'.map (soloAfter m w)) : (if c then x else y) = (if c then x' else y').map (soloAfter m w) := by
  split
  · exact hx
  · exact hy

/-! ## Statements -/

theorem undispatched_solo : undispatched (solo m w) = (undispatched w).map unpublish := by
  unfold undispatched
  rw [List.map_take, List.map_insertionSort (fun a b : OutboxRow => a.createdAt ≤ b.createdAt)
    (fun a b : OutboxRow => a.createdAt ≤ b.createdAt) unpublish _ fun _ _ _ _ => Iff.rfl]
  congr 2
  exact List.filter_map

theorem markDispatched_unpublish (ids : List String) (now : ℕ) :
    markDispatched (rows.map unpublish) ids now = (markDispatched rows ids now).map unpublish := by
  unfold markDispatched
  rw [List.map_map, List.map_map]
  refine List.map_congr_left fun row _ => ?_
  by_cases hid : row.id ∈ ids <;> simp [unpublish, hid]

theorem ids_unpublish : (rows.map unpublish).map OutboxRow.id = rows.map OutboxRow.id := by
  rw [List.map_map]
  rfl

theorem pairs_unpublish (endpoints : List WebhookEndpoint) :
    ((rows.map unpublish).flatMap fun row => endpoints.map fun endpoint => (row, endpoint)) =
      (rows.flatMap fun row => endpoints.map fun endpoint => (row, endpoint)).map (Prod.map unpublish id) := by
  rw [List.flatMap_map, List.map_flatMap]
  refine List.flatMap_congr fun row _ => ?_
  rw [List.map_map]
  rfl

variable (env) in
/-- The same deliveries under the same ids. -/
theorem deliveriesFor_solo {n : ℕ} (hu : ∀ k, v.ulid (m + k) = u.ulid (n + k)) (began : ℕ) (endpoints : List WebhookEndpoint) :
    deliveriesFor { env with u := v } began m (rows.map unpublish) endpoints =
      deliveriesFor { env with u := u } began n rows endpoints := by
  unfold deliveriesFor
  rw [pairs_unpublish, List.zipIdx_map, List.map_map]
  refine List.map_congr_left fun x _ => ?_
  dsimp only [Function.comp, Prod.map]
  rw [hu]
  rfl

/-- A poll is set, and the rest is as it was. -/
theorem solo_setPoll (k : ℕ) (poll : Poll) : solo m (w.setPoll k poll) = (solo m w).setPoll k (unpublishPoll poll) := by
  unfold solo State.setPoll
  rw [Function.comp_update]
  rfl

/-! ## The dispatcher -/

theorem pollBegin_solo (k : ℕ) : pollBegin k (solo m w) = (pollBegin k w).map (soloAfter m w) := by
  unfold pollBegin
  simp only [solo_polls, Function.comp_apply]
  cases w.polls k with
  | some poll => rfl
  | none => exact some_solo_same rfl (solo_setPoll k ⟨w.now, [], [], .begun⟩).symm

theorem pollSelect_solo (k : ℕ) : pollSelect k (solo m w) = (pollSelect k w).map (soloAfter m w) := by
  unfold pollSelect
  simp only [solo_polls, Function.comp_apply, undispatched_solo]
  cases w.polls k with
  | none => rfl
  | some poll =>
    simp only [Option.map_some, unpublishPoll]
    cases poll.pc with
    | begun =>
      cases undispatched w with
      | nil => exact some_solo_same rfl (solo_setPoll k { poll with events := [], pc := .ended }).symm
      | cons first rest =>
        refine some_solo_same rfl ?_
        unfold solo State.setPoll
        rw [Function.comp_update]
        simp only [ids_unpublish]
        rfl
    | _ => rfl

theorem pollEndpoints_solo (k : ℕ) : pollEndpoints k (solo m w) = (pollEndpoints k w).map (soloAfter m w) := by
  unfold pollEndpoints
  simp only [solo_polls, Function.comp_apply]
  cases w.polls k with
  | none => rfl
  | some poll =>
    simp only [Option.map_some, unpublishPoll]
    cases poll.pc with
    | selected =>
      exact some_solo_same rfl (solo_setPoll k { poll with endpoints := activeEndpoints w, pc := .located }).symm
    | _ => rfl

theorem pollAdd_solo (k : ℕ) (id : String) : pollAdd k id (solo m w) = (pollAdd k id w).map (soloAfter m w) := by
  unfold pollAdd
  simp only [solo_polls, Function.comp_apply]
  cases w.polls k with
  | none => rfl
  | some poll =>
    simp only [Option.map_some, unpublishPoll]
    cases poll.pc with
    | adding left =>
      refine ite_solo (some_solo_same rfl ?_) rfl
      unfold solo State.setPoll
      rw [Function.comp_update]
      rfl
    | _ => rfl

theorem pollEnd_solo (k : ℕ) : pollEnd k (solo m w) = (pollEnd k w).map (soloAfter m w) := by
  unfold pollEnd
  simp only [solo_polls, Function.comp_apply]
  cases w.polls k with
  | none => rfl
  | some poll =>
    refine some_solo_same rfl ?_
    unfold solo State.setPoll
    rw [Function.comp_update]
    rfl

section Drawing

variable (hu : ∀ k, v.ulid (m + k) = u.ulid (w.ulids + k))
include hu

theorem pollCommit_solo (k : ℕ) : pollCommit { env with u := v } k (solo m w) =
    (pollCommit { env with u := u } k w).map (soloAfter m w) := by
  unfold pollCommit
  simp only [solo_polls, Function.comp_apply]
  cases w.polls k with
  | none => rfl
  | some poll =>
    simp only [Option.map_some, unpublishPoll]
    cases poll.pc with
    | located =>
      simp only [solo_ulids, deliveriesFor_solo env hu, ids_unpublish]
      refine ite_solo (some_solo rfl ?_) rfl
      unfold solo State.setPoll
      rw [Function.comp_update]
      simp only [markDispatched_unpublish]
      rfl
    | _ => rfl

theorem emit_solo (event : OutboxEvent) (aggregateId : String) (began : ℕ) :
    emit { env with u := v } event aggregateId began (solo m w) =
      (emit { env with u := u } event aggregateId began w).map (soloAfter m w) := by
  have hfirst : v.ulid m = u.ulid w.ulids := hu 0
  unfold emit
  refine ite_solo (some_solo (d := 1) rfl ?_) rfl
  unfold solo
  rw [List.map_append]
  simp only [hfirst]
  rfl

theorem insertEndpoint_solo (url secret : String) : insertEndpoint { env with u := v } url secret (solo m w) =
    (insertEndpoint { env with u := u } url secret w).map (soloAfter m w) := by
  have hfirst : v.ulid m = u.ulid w.ulids := hu 0
  unfold insertEndpoint
  refine some_solo (d := 1) rfl ?_
  simp only [solo_ulids, hfirst]
  rfl

/-! ## Steps -/

/-- Beside others the webhooks make the steps they make alone. -/
theorem step_solo (a : Action) : step { env with u := v } (solo m w) a =
    (step { env with u := u } w a).map (soloAfter m w) := by
  cases a with
  | tick | reapEnd => exact some_solo_same rfl rfl
  | deactivate id => exact ite_solo (some_solo_same rfl rfl) rfl
  | emit => exact emit_solo hu ..
  | insertEndpoint => exact insertEndpoint_solo hu ..
  | pollBegin => exact pollBegin_solo ..
  | pollSelect => exact pollSelect_solo ..
  | pollEndpoints => exact pollEndpoints_solo ..
  | pollCommit => exact pollCommit_solo hu ..
  | pollAdd => exact pollAdd_solo ..
  | pollEnd => exact pollEnd_solo ..
  | reapSelect k ids =>
    have hrow : strandedRow { env with u := v } (solo m w) = strandedRow { env with u := u } w := rfl
    simp only [step, reapSelect, solo_reaps, hrow]
    cases w.reaps k with
    | some reap => rfl
    | none =>
      refine ite_solo ?_ rfl
      cases ids.mapM (strandedRow { env with u := u } w) <;> first | rfl | exact some_solo_same rfl rfl
  | reapCommit k =>
    simp only [step, reapCommit, solo_reaps]
    cases w.reaps k with
    | none => rfl
    | some reap => cases reap <;> first | rfl | exact some_solo_same rfl rfl
  | reapAdd k id =>
    simp only [step, reapAdd, solo_reaps]
    cases w.reaps k with
    | none => rfl
    | some reap =>
      cases reap with
      | adding stuck =>
        dsimp only
        cases stuck.find? fun row => row.id = id <;> first | rfl | exact some_solo_same rfl rfl
      | _ => rfl
  | dequeue r jobId =>
    simp only [step, dequeue, solo_runs, solo_queue]
    cases w.runs r with
    | some run => rfl
    | none =>
      cases w.queue jobId with
      | none => rfl
      | some job => exact ite_solo (some_solo_same rfl rfl) rfl
  | load r =>
    simp only [step, load, solo_runs, solo_delivery]
    cases w.runs r with
    | none => rfl
    | some run =>
      dsimp only
      cases run.pc with
      | start =>
        dsimp only
        cases w.delivery run.data.deliveryId with
        | none => exact some_solo_same rfl rfl
        | some d => exact ite_solo (some_solo_same rfl rfl) (some_solo_same rfl rfl)
      | _ => rfl
  | post r =>
    simp only [step, post, solo_runs, solo_endpoints]
    cases w.runs r with
    | none => rfl
    | some run =>
      dsimp only
      cases run.pc with
      | loaded d =>
        dsimp only
        cases w.endpoints.find? fun endpoint => endpoint.id = d.endpointId <;> exact some_solo_same rfl rfl
      | _ => rfl
  | receive r | write r | retryAdd r | fail r | finish r | crash r =>
    simp only [step, receive, write, retryAdd, fail, finish, crash, solo_runs]
    cases w.runs r with
    | none => rfl
    | some run =>
      dsimp only
      cases run.pc <;>
        first
          | rfl
          | exact some_solo_same rfl rfl
          | exact ite_solo (some_solo_same rfl rfl) rfl
          | exact ite_solo rfl (some_solo_same rfl rfl)
  | stall jobId | giveUp jobId =>
    simp only [step, stall, giveUp, solo_queue]
    cases w.queue jobId with
    | none => rfl
    | some job =>
      dsimp only
      cases job.state <;> first | rfl | exact some_solo_same rfl rfl

end Drawing

/-! ## The ids that are drawn -/

/-- The sources agree on the names drawn between two states. -/
def Agree (u v : UlidSource) (w w' : State) : Prop := ∀ i, w.ulids ≤ i → i < w'.ulids → u.ulid i = v.ulid i

theorem emit_reads {event : OutboxEvent} {aggregateId : String} {began : ℕ}
    (h : emit { env with u := u } event aggregateId began w = some w') (hnames : Agree u v w w') :
    emit { env with u := v } event aggregateId began w = some w' := by
  unfold emit at h ⊢
  split at h
  · rename_i hbegan
    cases h
    rw [if_pos hbegan]
    simp only [hnames _ (Nat.le_refl _) (Nat.lt_succ_self _)]
  · cases h

theorem insertEndpoint_reads {url secret : String} (h : insertEndpoint { env with u := u } url secret w = some w')
    (hnames : Agree u v w w') : insertEndpoint { env with u := v } url secret w = some w' := by
  unfold insertEndpoint at h ⊢
  cases h
  simp only [hnames _ (Nat.le_refl _) (Nat.lt_succ_self _)]

theorem pollCommit_reads {k : ℕ} (h : pollCommit { env with u := u } k w = some w') (hnames : Agree u v w w') :
    pollCommit { env with u := v } k w = some w' := by
  unfold pollCommit at h ⊢
  split at h
  · rename_i poll hk
    split at h
    · dsimp only at h
      split at h
      · rename_i hc
        cases h
        have hsame : deliveriesFor { env with u := v } poll.began w.ulids poll.events poll.endpoints =
            deliveriesFor { env with u := u } poll.began w.ulids poll.events poll.endpoints := by
          unfold deliveriesFor
          refine List.map_congr_left fun x hx => ?_
          have hlt : w.ulids + x.2 < w.ulids + (deliveriesFor { env with u := u } poll.began w.ulids poll.events
              poll.endpoints).length := by
            have hsnd := List.snd_lt_of_mem_zipIdx hx
            unfold deliveriesFor
            rw [List.length_map, List.length_zipIdx]
            omega
          rw [hnames _ (Nat.le_add_right _ _) hlt]
        dsimp only
        rw [hsame, if_pos hc]
      · cases h
    · cases h
  · cases h

theorem step_ulids {a : Action} (hs : Step env w a w') : w.ulids ≤ w'.ulids := by
  cases hs with
  | emit | insertEndpoint | pollCommit => exact Nat.le_add_right _ _
  | _ => exact Nat.le_refl _

/-- The webhooks draw their ids one after the other. -/
def drawing (env : Env) : Drawing UlidSource String State Action where
  name := UlidSource.ulid
  system u := system { env with u := u }
  drawn := State.ulids
  init_eq _ _ := rfl
  mono _ _ _ _ h := step_ulids (step_sound h)
  reads u v w a w' h hnames := by
    cases a with
    | emit => exact emit_reads h hnames
    | insertEndpoint => exact insertEndpoint_reads h hnames
    | pollCommit => exact pollCommit_reads h hnames
    | _ => exact h

end PaymentsProcessor.Webhooks
