/-
Overlapping calls of `SimulatedBankAdapter.authorize`, split at their latency wait, between reconfigurations: what is
answered depends only on what is stored and configured when a wait ends.
-/
import PaymentsProcessor.Bank.Simulated
import PaymentsProcessor.Base.History
import PaymentsProcessor.Base.Transition

namespace PaymentsProcessor.SimulatedBankAdapter

open History Transition

/-! ## The system -/

/-- A completed call: its key, whether the key was found stored, and the reply. -/
structure Answer where
  key : String
  stored : Bool
  reply : BankReply
  deriving DecidableEq

/-- The key was charged, or had been. -/
def Answer.authorized (a : Answer) : Bool :=
  match a.reply with
  | .resolved (.authorized _) => true
  | _ => false

/-- A call in its latency wait. -/
structure Waiting where
  req : BankAuthorizeRequest
  readyAt : Nat

structure Traffic where
  now : Nat
  adapter : SimulatedBankAdapter
  calls : Nat → Option Waiting
  /-- the completed calls in order, which no step reads -/
  answers : List Answer

inductive Call
  | tick (ms : Nat)
  | start (c : Nat) (req : BankAuthorizeRequest)
  | complete (c : Nat)
  | setConfig (patch : BankConfigPatch)

/-- `authorize` up to its wait. -/
def start (c : Nat) (req : BankAuthorizeRequest) (s : Traffic) : Option Traffic :=
  match s.calls c with
  | none => some { s with calls := Function.update s.calls c (some ⟨req, s.now + s.adapter.latencyMs⟩) }
  | some _ => none

/-- The rest of `authorize`. -/
def complete (c : Nat) (s : Traffic) : Option Traffic :=
  match s.calls c with
  | some waiting =>
    if waiting.readyAt ≤ s.now then
      let result := authorize waiting.req s.adapter
      some { s with
        adapter := result.2
        calls := Function.update s.calls c none
        answers := s.answers ++
          [⟨waiting.req.idempotencyKey, (s.adapter.store.lookup waiting.req.idempotencyKey).isSome, result.1⟩] }
    else none
  | none => none

/-- One step. -/
def step (s : Traffic) : Call → Option Traffic
  | .tick ms => some { s with now := s.now + ms }
  | .start c req => start c req s
  | .complete c => complete c s
  | .setConfig patch => some { s with adapter := setConfig patch s.adapter }

/-- A new adapter. -/
def system : System Traffic Call where
  init := ⟨0, {}, fun _ => none, []⟩
  step := step

variable {s s' t : Traffic} {C : Traffic → Call → Prop} {c : Nat}

/-- What a completion does. -/
theorem complete_eq_some (h : step s (.complete c) = some s') : ∃ req,
    s'.adapter = (authorize req s.adapter).2 ∧ s'.answers = s.answers ++
      [⟨req.idempotencyKey, (s.adapter.store.lookup req.idempotencyKey).isSome, (authorize req s.adapter).1⟩] := by
  dsimp only [step, complete] at h
  split at h
  · rename_i waiting hc
    split at h
    · cases h
      exact ⟨waiting.req, rfl, rfl⟩
    · cases h
  · cases h

theorem start_eq_some {req : BankAuthorizeRequest} (h : step s (.start c req) = some s') :
    s'.adapter = s.adapter ∧ s'.answers = s.answers := by
  dsimp only [step, start] at h
  split at h
  · cases h
    exact ⟨rfl, rfl⟩
  · cases h

/-! ## One completion -/

theorem authorized_iff {a : Answer} : a.authorized = true ↔ ∃ ref, a.reply = .resolved (.authorized ref) := by
  unfold Answer.authorized
  constructor
  · intro h
    split at h
    · rename_i ref href
      exact ⟨ref, href⟩
    · cases h
  · rintro ⟨ref, href⟩
    rw [href]

/-- A completion answers with the authorisation of its key, which is stored then, or it finds the key not stored and
changes neither the store nor the charges. -/
theorem authorize_spec {b : SimulatedBankAdapter} (h : WF b) (req : BankAuthorizeRequest) :
    ((authorize req b).1 = .resolved (.authorized (bankRef req.idempotencyKey)) ∧
      ∀ key, key ∈ (authorize req b).2.store.keys ↔ key ∈ b.store.keys ∨ key = req.idempotencyKey) ∨
    ((∀ ref, (authorize req b).1 ≠ .resolved (.authorized ref)) ∧ req.idempotencyKey ∉ b.store.keys ∧
      (authorize req b).2.store = b.store ∧ (authorize req b).2.charges = b.charges) := by
  rcases authorize_cases req b with ⟨o, hl, he⟩ | ⟨hl, hr, hs, hc⟩ | ⟨hl, hr, hs, hc⟩
  · left
    have hmem : req.idempotencyKey ∈ b.store.keys := by
      rw [← AList.mem_keys, ← AList.lookup_isSome, hl]
      rfl
    rw [he, h.authorized _ _ hl]
    refine ⟨rfl, fun key => ⟨Or.inl, ?_⟩⟩
    rintro (hold | rfl)
    · exact hold
    · exact hmem
  · left
    refine ⟨hr, fun key => ?_⟩
    rw [hs, ← AList.mem_keys, AList.mem_insert, AList.mem_keys, or_comm]
  · right
    refine ⟨fun ref href => ?_, ?_, hs, hc⟩
    · rcases hr with hr | hr <;> · rw [hr] at href; cases href
    · rwa [← AList.mem_keys, ← AList.lookup_eq_none]

/-! ## Charges -/

/-- Whoever asks for a key that has been authorised gets an authorisation. -/
def Repeats (pre : List Answer) (a : Answer) : Prop := (∃ b ∈ pre, b.authorized = true ∧ b.key = a.key) → a.authorized = true

/-- The adapter is well formed, its stored keys are those answered as authorised, and each of these answers is the
authorisation of its key. -/
structure TrafficInv (s : Traffic) : Prop where
  wf : WF s.adapter
  stored : ∀ key, key ∈ s.adapter.store.keys ↔ ∃ a ∈ s.answers, a.authorized = true ∧ a.key = key
  replies : ∀ a ∈ s.answers, a.authorized = true → a.reply = .resolved (.authorized (bankRef a.key))
  repeats : Justified Repeats s.answers

theorem TrafficInv.complete (h : TrafficInv s) (hs : step s (.complete c) = some s') : TrafficInv s' := by
  obtain ⟨req, hadapter, hanswers⟩ := complete_eq_some hs
  have hwf : WF s'.adapter := hadapter ▸ authorize_wf h.wf req
  rcases authorize_spec h.wf req with ⟨hreply, hkeys⟩ | ⟨hreply, hnew, hstore, -⟩
  -- an authorisation stores its key, whether it is new or repeated
  · have hauthorized : (⟨req.idempotencyKey, (s.adapter.store.lookup req.idempotencyKey).isSome, (authorize req s.adapter).1⟩ :
        Answer).authorized = true := authorized_iff.2 ⟨_, hreply⟩
    refine ⟨hwf, fun key => ?_, fun a ha hauth => ?_, ?_⟩
    · rw [hadapter, hkeys, h.stored, hanswers]
      constructor
      · rintro (⟨a, ha, hrest⟩ | rfl)
        · exact ⟨a, List.mem_append_left _ ha, hrest⟩
        · exact ⟨_, List.mem_append_right _ (List.mem_singleton_self _), hauthorized, rfl⟩
      · rintro ⟨a, ha, hauth, hkey⟩
        rcases List.mem_append.1 ha with hold | hlast
        · exact Or.inl ⟨a, hold, hauth, hkey⟩
        · rw [List.mem_singleton.1 hlast] at hkey
          exact Or.inr hkey.symm
    · rw [hanswers] at ha
      rcases List.mem_append.1 ha with hold | hlast
      · exact h.replies a hold hauth
      · rw [List.mem_singleton.1 hlast]
        exact hreply
    · rw [hanswers]
      exact h.repeats.snoc fun _ => hauthorized
  -- any other answer stores nothing, and none repeats an authorisation
  · have hnot : ¬ (⟨req.idempotencyKey, (s.adapter.store.lookup req.idempotencyKey).isSome, (authorize req s.adapter).1⟩ :
        Answer).authorized = true := fun hauth => by
      obtain ⟨ref, href⟩ := authorized_iff.1 hauth
      exact hreply ref href
    refine ⟨hwf, fun key => ?_, fun a ha hauth => ?_, ?_⟩
    · rw [hadapter, hstore, h.stored, hanswers]
      constructor
      · rintro ⟨a, ha, hrest⟩
        exact ⟨a, List.mem_append_left _ ha, hrest⟩
      · rintro ⟨a, ha, hauth, hkey⟩
        rcases List.mem_append.1 ha with hold | hlast
        · exact ⟨a, hold, hauth, hkey⟩
        · rw [List.mem_singleton.1 hlast] at hauth
          exact absurd hauth hnot
    · rw [hanswers] at ha
      rcases List.mem_append.1 ha with hold | hlast
      · exact h.replies a hold hauth
      · rw [List.mem_singleton.1 hlast] at hauth
        exact absurd hauth hnot
    · rw [hanswers]
      exact h.repeats.snoc fun hbefore => absurd ((h.stored _).2 hbefore) hnew

theorem trafficInv (h : Reach system C s) : TrafficInv s := by
  refine h.invariant (I := TrafficInv) ⟨init_wf, fun key => ?_, fun a ha => absurd ha List.not_mem_nil, justified_nil⟩
    fun s a s' _ hI _ hs => ?_
  · constructor
    · intro hkey
      exact absurd hkey List.not_mem_nil
    · rintro ⟨a, ha, -⟩
      exact absurd ha List.not_mem_nil
  · cases a with
    | tick ms =>
      cases hs
      exact ⟨hI.wf, hI.stored, hI.replies, hI.repeats⟩
    | start c req =>
      obtain ⟨hadapter, hanswers⟩ := start_eq_some hs
      exact ⟨by rw [hadapter]; exact hI.wf, by rw [hadapter, hanswers]; exact hI.stored, by rw [hanswers]; exact hI.replies,
        by rw [hanswers]; exact hI.repeats⟩
    | complete c => exact hI.complete hs
    | setConfig patch =>
      cases hs
      exact ⟨setConfig_wf hI.wf patch, by simpa using hI.stored, hI.replies, hI.repeats⟩

/-- The distinct keys that were answered as authorised. -/
def authorizedKeys (answers : List Answer) : List String := ((answers.filter Answer.authorized).map Answer.key).dedup

theorem TrafficInv.charges_eq (h : TrafficInv s) : s.adapter.charges = (authorizedKeys s.answers).length := by
  rw [h.wf.charges]
  refine List.Perm.length_eq ((List.perm_ext_iff_of_nodup s.adapter.store.nodupKeys (List.nodup_dedup _)).2 fun key => ?_)
  rw [List.mem_dedup, List.mem_map]
  refine (h.stored key).trans ?_
  constructor
  · rintro ⟨a, ha, hauth, hkey⟩
    exact ⟨a, List.mem_filter.2 ⟨ha, hauth⟩, hkey⟩
  · rintro ⟨a, ha, hkey⟩
    exact ⟨a, (List.mem_filter.1 ha).1, (List.mem_filter.1 ha).2, hkey⟩

/-! ## The pattern -/

/-- The reply to the `j`-th completion of a period that finds its key not stored. -/
def patternReply (n j : Nat) (key : String) : BankReply :=
  if j % (n + 1) = n then .resolved (.authorized (bankRef key)) else .resolved (.error true "bank_unavailable")

/-- `authorize` of a key that is not stored, in mode `fail_n_then_authorize`. -/
theorem authorize_failN {b : SimulatedBankAdapter} {req : BankAuthorizeRequest} {n k : Nat}
    (hkey : b.store.lookup req.idempotencyKey = none) (hmode : b.mode = .failNThenAuthorize) (hn : b.failN = n)
    (hk : b.failCount = k) (hle : k ≤ n) : (authorize req b).1 = patternReply n k req.idempotencyKey ∧
      (authorize req b).2.mode = b.mode ∧ (authorize req b).2.failN = b.failN ∧
      (authorize req b).2.failCount = if k < n then k + 1 else 0 := by
  unfold authorize patternReply
  rw [hkey, hmode, hn, hk, Nat.mod_eq_of_lt (Nat.lt_succ_of_le hle)]
  by_cases hlt : k < n
  · have hne : k ≠ n := by omega
    simp [hlt, hne]
  · have heq : k = n := by omega
    simp [heq, charge]

/-- In a period without reconfiguration the answers for keys not stored follow the pattern from the counter on. -/
theorem replies_of_exec {as : List Call} {n : Nat} (hquiet : ∀ patch, .setConfig patch ∉ as) :
    ∀ {s : Traffic} {k : Nat}, s.adapter.mode = .failNThenAuthorize → s.adapter.failN = n → s.adapter.failCount = k → k ≤ n →
      exec system s as = some t → ∃ new, t.answers = s.answers ++ new ∧
        ∀ i a, (new.filter fun a => !a.stored)[i]? = some a → a.reply = patternReply n (k + i) a.key := by
  induction as with
  | nil =>
    intro s k _ _ _ _ h
    cases h
    exact ⟨[], (List.append_nil _).symm, fun i a ha => by simp at ha⟩
  | cons a as ih =>
    intro s k hmode hn hk hle h
    obtain ⟨s', hs, hrest⟩ := Option.bind_eq_some_iff.1 h
    have hleft : ∀ patch, .setConfig patch ∉ as := fun patch hmem => hquiet patch (List.mem_cons_of_mem _ hmem)
    -- a step that leaves the adapter as it is
    have hsame : s'.adapter = s.adapter → s'.answers = s.answers → ∃ new, t.answers = s.answers ++ new ∧
        ∀ i a, (new.filter fun a => !a.stored)[i]? = some a → a.reply = patternReply n (k + i) a.key := by
      intro hadapter hanswers
      rw [← hadapter] at hmode hn hk
      obtain ⟨new, hnew, hreplies⟩ := ih hleft hmode hn hk hle hrest
      exact ⟨new, by rw [hnew, hanswers], hreplies⟩
    cases a with
    | tick ms =>
      cases hs
      exact hsame rfl rfl
    | start c req =>
      obtain ⟨hadapter, hanswers⟩ := start_eq_some hs
      exact hsame hadapter hanswers
    | setConfig patch => exact absurd List.mem_cons_self (hquiet patch)
    | complete c =>
      obtain ⟨req, hadapter, hanswers⟩ := complete_eq_some hs
      cases hkey : s.adapter.store.lookup req.idempotencyKey with
      | some o =>
        have hstill : (authorize req s.adapter).2 = s.adapter := by
          unfold authorize
          rw [hkey]
        rw [hstill] at hadapter
        rw [← hadapter] at hmode hn hk
        obtain ⟨new, hnew, hreplies⟩ := ih hleft hmode hn hk hle hrest
        refine ⟨⟨req.idempotencyKey, true, (authorize req s.adapter).1⟩ :: new, ?_, ?_⟩
        · rw [hnew, hanswers, hkey]
          simp
        · simpa using hreplies
      | none =>
        obtain ⟨hreply, hmode', hn', hk'⟩ := authorize_failN hkey hmode hn hk hle
        rw [← hadapter] at hmode' hn' hk'
        obtain ⟨new, hnew, hreplies⟩ := ih hleft (hmode'.trans hmode) (hn'.trans hn) hk' (by split <;> omega) hrest
        refine ⟨⟨req.idempotencyKey, false, (authorize req s.adapter).1⟩ :: new, ?_, fun i a ha => ?_⟩
        · rw [hnew, hanswers, hkey]
          simp
        · rw [List.filter_cons_of_pos rfl] at ha
          cases i with
          | zero =>
            cases ha
            exact hreply
          | succ i =>
            rw [hreplies i a (by simpa using ha)]
            -- the counter starts again after each authorisation
            have hshift : ((if k < n then k + 1 else 0) + i) % (n + 1) = (k + (i + 1)) % (n + 1) := by
              split
              · congr 1
                omega
              · have hkn : k = n := by omega
                rw [hkn, show n + (i + 1) = i + (n + 1) by omega, Nat.add_mod_right, Nat.zero_add]
            unfold patternReply
            rw [hshift]

/-! ## The law -/

/-- Over any calls and reconfigurations: the charges count the stored keys, which are the distinct keys ever answered as
authorised; later answers for a key repeat its authorisation; other answers change neither store nor charges; and without
reconfiguration, from a counter of zero on, the answers for keys not stored are `n` errors and one authorisation, again
and again. -/
theorem adapter_law (h : Reach system C s) :
    (s.adapter.charges = s.adapter.store.keys.length ∧ s.adapter.charges = (authorizedKeys s.answers).length) ∧
    (∀ pre a mid b post, s.answers = pre ++ a :: (mid ++ b :: post) → a.authorized = true → b.key = a.key →
      b.reply = a.reply) ∧
    (∀ c s', step s (.complete c) = some s' → ∃ a, s'.answers = s.answers ++ [a] ∧
      (a.authorized = false → s'.adapter.store = s.adapter.store ∧ s'.adapter.charges = s.adapter.charges)) ∧
    (∀ n as t, s.adapter.mode = .failNThenAuthorize → s.adapter.failN = n → s.adapter.failCount = 0 →
      (∀ patch, .setConfig patch ∉ as) → exec system s as = some t → ∃ new, t.answers = s.answers ++ new ∧
        ∀ i a, (new.filter fun a => !a.stored)[i]? = some a → a.reply = patternReply n i a.key) := by
  have hI := trafficInv h
  refine ⟨⟨hI.wf.charges, hI.charges_eq⟩, fun pre a mid b post heq hauth hkey => ?_, fun c s' hs => ?_,
    fun n as t hmode hn hcount hquiet hexec => ?_⟩
  · have hsplit : s.answers = (pre ++ a :: mid) ++ b :: post := by rw [heq]; simp
    have ha : a ∈ s.answers := by
      rw [heq]
      exact List.mem_append_right _ List.mem_cons_self
    have hb : b ∈ s.answers := by
      rw [hsplit]
      exact List.mem_append_right _ List.mem_cons_self
    have hbauth : b.authorized = true :=
      hI.repeats hsplit ⟨a, List.mem_append_right _ List.mem_cons_self, hauth, hkey.symm⟩
    rw [hI.replies a ha hauth, hI.replies b hb hbauth, hkey]
  · obtain ⟨req, hadapter, hanswers⟩ := complete_eq_some hs
    refine ⟨_, hanswers, fun hauth => ?_⟩
    rw [hadapter]
    rcases authorize_spec hI.wf req with ⟨hreply, -⟩ | ⟨-, -, hstore, hcharges⟩
    · rw [authorized_iff.2 ⟨_, hreply⟩] at hauth
      cases hauth
    · exact ⟨hstore, hcharges⟩
  · obtain ⟨new, hnew, hreplies⟩ := replies_of_exec hquiet hmode hn hcount (Nat.zero_le n) hexec
    exact ⟨new, hnew, fun i a ha => by rw [hreplies i a ha, Nat.zero_add]⟩

/-- Two overlapping calls that complete in the other order. -/
def overlapping : List Call :=
  [.start 0 ⟨"p0", 1, "USD", "k0"⟩, .start 1 ⟨"p1", 1, "USD", "k1"⟩, .tick 200, .complete 1, .complete 0]

/-- In the mode that fails once, the first of them to complete fails and the other is authorised. -/
theorem adapter_law_overlapping : ∃ s t, Reach system Free s ∧ exec system s overlapping = some t ∧
    ∃ new, t.answers = s.answers ++ new ∧
      ∀ i a, (new.filter fun a => !a.stored)[i]? = some a → a.reply = patternReply 1 i a.key := by
  have hr : Reach system Free { system.init with
      adapter := setConfig { mode := some .failNThenAuthorize, failN := some 1 } {} } :=
    .step (a := .setConfig { mode := some .failNThenAuthorize, failN := some 1 }) .init trivial rfl
  obtain ⟨t, ht⟩ := Option.isSome_iff_exists.1 (show (exec system { system.init with
      adapter := setConfig { mode := some .failNThenAuthorize, failN := some 1 } {} } overlapping).isSome = true by decide)
  have hquiet : ∀ patch, .setConfig patch ∉ overlapping := by
    intro patch hmem
    simp [overlapping] at hmem
  exact ⟨_, t, hr, ht, (adapter_law hr).2.2.2 1 overlapping t rfl rfl rfl hquiet ht⟩

end PaymentsProcessor.SimulatedBankAdapter
