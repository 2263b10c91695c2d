/-
The amount of a submission between its two readers: the pattern of the DTO, which decides about a 400, and
`convAmountToUnits` behind it, whose error the problem filter can only answer with a 500.
-/
import PaymentsProcessor.Payments.InsertTxn
import PaymentsProcessor.Shared.Amounts
import Mathlib.Computability.RegularExpressions

namespace PaymentsProcessor

open RegularExpression

/-! ## The pattern -/

/-- `\d`. -/
def digitPattern : RegularExpression Char := "0123456789".toList.foldr (fun c p => .char c + p) 0

/-- `/^\d+(\.\d{1,2})?$/` of `CreatePaymentDto.amount`. -/
def amountPattern : RegularExpression Char :=
  digitPattern * digitPattern.star * (1 + .char '.' * (digitPattern * (1 + digitPattern)))

/-- `@Matches` on the amount. -/
def amountMatches (amount : String) : Bool := amountPattern.rmatch amount.toList

theorem mem_foldr_char (cs w : List Char) :
    w ∈ (cs.foldr (fun c p => .char c + p) (0 : RegularExpression Char)).matches' ↔ ∃ c ∈ cs, w = [c] := by
  induction cs with
  | nil => simp
  | cons c cs ih =>
    rw [List.foldr_cons, matches'_add, Language.mem_add, ih, matches'_char]
    simp only [List.mem_cons, exists_eq_or_imp]
    rfl

theorem mem_digits {c : Char} : c ∈ "0123456789".toList ↔ c.isDigit = true := by
  constructor
  · intro h
    simp only [show "0123456789".toList = ['0', '1', '2', '3', '4', '5', '6', '7', '8', '9'] from rfl, List.mem_cons,
      List.not_mem_nil, or_false] at h
    rcases h with rfl | rfl | rfl | rfl | rfl | rfl | rfl | rfl | rfl | rfl <;> rfl
  · intro h
    unfold Char.isDigit at h
    simp only [ge_iff_le, Bool.and_eq_true, decide_eq_true_eq] at h
    have hlow : 48 ≤ c.toNat := h.1
    have hhigh : c.toNat ≤ 57 := h.2
    rw [← Char.ofNat_toNat c]
    generalize c.toNat = n at hlow hhigh
    interval_cases n <;> decide

theorem mem_digitPattern {w : List Char} : w ∈ digitPattern.matches' ↔ ∃ c, c.isDigit = true ∧ w = [c] := by
  unfold digitPattern
  rw [mem_foldr_char]
  simp only [mem_digits]

theorem mem_digitPattern_star {w : List Char} : w ∈ digitPattern.star.matches' ↔ ∀ c ∈ w, c.isDigit = true := by
  rw [matches'_star, Language.mem_kstar]
  constructor
  · rintro ⟨words, rfl, hwords⟩ c hc
    obtain ⟨word, hword, hmem⟩ := List.mem_flatten.1 hc
    obtain ⟨d, hd, rfl⟩ := mem_digitPattern.1 (hwords word hword)
    rwa [List.mem_singleton.1 hmem]
  · intro h
    have hflat : w = (w.map fun c => [c]).flatten := by
      rw [← List.flatMap_def, List.flatMap_singleton']
    refine ⟨w.map fun c => [c], hflat, fun word hword => ?_⟩
    obtain ⟨c, hc, rfl⟩ := List.mem_map.1 hword
    exact mem_digitPattern.2 ⟨c, h c hc, rfl⟩

/-- The pattern accepts the spellings of amounts. -/
theorem amountPattern_iff {s : List Char} : amountPattern.rmatch s = true ↔ ∃ dollars cents, Spells s dollars cents := by
  rw [rmatch_iff_matches']
  unfold amountPattern
  simp only [matches'_mul, matches'_add, matches'_epsilon, matches'_char, Language.mem_mul, Language.mem_add,
    Language.mem_one]
  constructor
  · rintro ⟨dollars, ⟨first, hfirst, rest, hrest, rfl⟩, fraction, hfraction, rfl⟩
    obtain ⟨c, hc, rfl⟩ := mem_digitPattern.1 hfirst
    have hdollars : ∀ d ∈ c :: rest, d.isDigit = true := by
      intro d hd
      rcases List.mem_cons.1 hd with rfl | hd
      · exact hc
      · exact mem_digitPattern_star.1 hrest d hd
    -- the fraction is missing, or has one digit and perhaps a second
    rcases hfraction with rfl | ⟨point, hpoint, cents, ⟨one, hone, two, htwo, rfl⟩, rfl⟩
    · refine ⟨c :: rest, [], ?_⟩
      rw [List.append_nil]
      exact .whole _ (List.cons_ne_nil _ _) hdollars
    · obtain rfl : point = ['.'] := hpoint
      obtain ⟨d, hd, rfl⟩ := mem_digitPattern.1 hone
      rcases htwo with rfl | htwo
      · refine ⟨c :: rest, [d], .point _ _ (List.cons_ne_nil _ _) hdollars ?_ (Or.inl rfl)⟩
        simpa using hd
      · obtain ⟨e, he, rfl⟩ := mem_digitPattern.1 htwo
        refine ⟨c :: rest, [d, e], .point _ _ (List.cons_ne_nil _ _) hdollars ?_ (Or.inr rfl)⟩
        simpa using And.intro hd he
  · rintro ⟨dollars, cents, h⟩
    obtain ⟨c, rest, rfl⟩ := List.exists_cons_of_ne_nil h.dollars_ne
    have hdollars := h.dollars_isDigit
    have hfirst : [c] ∈ digitPattern.matches' := mem_digitPattern.2 ⟨c, hdollars c List.mem_cons_self, rfl⟩
    have hrest : rest ∈ digitPattern.star.matches' :=
      mem_digitPattern_star.2 fun d hd => hdollars d (List.mem_cons_of_mem _ hd)
    cases h with
    | whole => exact ⟨_, ⟨[c], hfirst, rest, hrest, rfl⟩, [], Or.inl rfl, List.append_nil _⟩
    | point _ _ _ _ hcents hlen =>
      refine ⟨_, ⟨[c], hfirst, rest, hrest, rfl⟩, '.' :: cents, Or.inr ⟨['.'], rfl, cents, ?_, rfl⟩, rfl⟩
      rcases hlen with hlen | hlen
      · obtain ⟨d, rfl⟩ := List.length_eq_one_iff.1 hlen
        exact ⟨[d], mem_digitPattern.2 ⟨d, by simpa using hcents, rfl⟩, [], Or.inl rfl, rfl⟩
      · obtain ⟨d, e, rfl⟩ := List.length_eq_two.1 hlen
        have hboth : d.isDigit = true ∧ e.isDigit = true := by simpa using hcents
        exact ⟨[d], mem_digitPattern.2 ⟨d, hboth.1, rfl⟩, [e], Or.inr (mem_digitPattern.2 ⟨e, hboth.2, rfl⟩), rfl⟩

/-- The pattern of the DTO and that of the parser match the same strings. -/
theorem amountMatches_iff (amount : String) : amountMatches amount = (matchAmount amount.toList).isSome := by
  unfold amountMatches
  rw [Bool.eq_iff_iff, amountPattern_iff]
  constructor
  · rintro ⟨dollars, cents, h⟩
    obtain ⟨cents', hmatch, -⟩ := matchAmount_isSome_iff.2 h
    rw [hmatch]
    rfl
  · intro h
    obtain ⟨⟨dollars, cents'⟩, hmatch⟩ := Option.isSome_iff_exists.1 h
    exact ⟨dollars, _, matchAmount_isSome_iff.1 ⟨cents', hmatch, rfl⟩⟩

/-! ## The endpoint -/

/-- What is thrown: an `HttpException` with its status and the message of its response, one or a list, or any other
`Error`. -/
inductive Thrown
  | http (status : Nat) (message : Option (String ⊕ List String))
  | error (message : String)

/-- The body of an error response. -/
structure Problem where
  type : String
  title : Option String
  status : Nat
  detail : String
  url : String
  errors : Option (List String)

/-- `ProblemDetailFilter.catch`, with Node's table `STATUS_CODES`. -/
def catchProblem (statusCodes : Nat → Option String) (url : String) (exception : Thrown) : Problem :=
  match exception with
  | .http status message =>
    match message.getD (.inl "Unknown error") with
    | .inr errors => ⟨"about:blank", statusCodes status, status, "Validation Error", url, some errors⟩
    | .inl detail => ⟨"about:blank", statusCodes status, status, detail, url, none⟩
  | .error _ => ⟨"about:blank", statusCodes 500, 500, "Internal server error occurred", url, none⟩

/-- A response to `POST /v1/payments`. -/
inductive Response
  | accepted (location : String) (body : Payment)
  | problem (problem : Problem)

/-- The status of a response. -/
def Response.status : Response → Nat
  | .accepted _ _ => 202
  | .problem p => p.status

/-- The response to what `insert_txn` returns or throws. -/
def respond (statusCodes : Nat → Option String) (url : String) : InsertResult → Response
  | .returned _ _ body => .accepted ("/v1/payments/" ++ body.id) body
  | .conflict message => .problem (catchProblem statusCodes url (.http 409 (some (.inl message))))
  | .failed message => .problem (catchProblem statusCodes url (.error message))

/-- `create_payment` on a validated body. -/
def createPayment (statusCodes : Nat → Option String) (url : String) (x : Submission) (db : Db) : Response × Db :=
  if x.key = "" then
    (.problem (catchProblem statusCodes url (.http 400 (some (.inl "Idempotency-Key header required")))), db)
  else
    let result := x.insertTxn db
    (respond statusCodes url result.1, result.2)

variable {statusCodes : Nat → Option String} {url : String} {x : Submission} {db : Db}

/-- The response is a 500 exactly if `insert_txn` throws a plain `Error`. -/
theorem respond_status (result : InsertResult) :
    (respond statusCodes url result).status = 500 ↔ ∃ message, result = .failed message := by
  cases result <;> simp [respond, Response.status, catchProblem]

/-- With a parsed amount and a new id, `insert_txn` throws no plain `Error`. -/
theorem insertTxn_ne_failed {n : Nat} (hamount : convAmountToUnits x.dto.amount = .ok n) (hid : db.payments x.id = none)
    (message : String) : (x.insertTxn db).1 ≠ .failed message := by
  unfold Submission.insertTxn
  rw [hamount, hid]
  cases hkey : db.findKey x.dto.customerId x.key with
  | none => simp
  | some k =>
    simp only [Option.isSome_some, or_true, if_true]
    unfold replay
    by_cases hhash : k.requestHash = x.hash <;> simp [hhash]

/-- A submission with a parsed amount and a new id is not answered with a 500. -/
theorem createPayment_status {n : Nat} (hamount : convAmountToUnits x.dto.amount = .ok n) (hid : db.payments x.id = none) :
    (createPayment statusCodes url x db).1.status ≠ 500 := by
  unfold createPayment
  split
  · simp [Response.status, catchProblem]
  · intro hstatus
    obtain ⟨message, hfailed⟩ := (respond_status _).1 hstatus
    exact insertTxn_ne_failed hamount hid message hfailed

/-- A submission whose amount the parser refuses is answered with a 500. -/
theorem createPayment_unparsed {message : String} (hamount : convAmountToUnits x.dto.amount = .error message)
    (hkey : x.key ≠ "") : (createPayment statusCodes url x db).1.status = 500 := by
  unfold createPayment
  rw [if_neg hkey]
  refine (respond_status _).2 ⟨message, ?_⟩
  unfold Submission.insertTxn
  rw [hamount]

/-! ## Agreement -/

/-- The validator and the parser agree on an amount, and no valid submission of it with a new id is answered with
a 500. -/
def AmountsAgree (statusCodes : Nat → Option String) (url amount : String) : Prop :=
  (amountMatches amount = true ↔ ∃ n, convAmountToUnits amount = .ok n) ∧
  ∀ x db, x.dto.amount = amount → x.dto.valid = true → db.payments x.id = none →
    (createPayment statusCodes url x db).1.status ≠ 500

/-- They agree exactly on the strings that are no spelling of an amount and on those within the limits of the parser, of
at most twenty characters and a safe number of cents. -/
theorem amounts_agree_iff (statusCodes : Nat → Option String) (url amount : String) :
    AmountsAgree statusCodes url amount ↔
      ∀ n, SpellsCents amount.toList n → amount.length ≤ 20 ∧ n ≤ 2 ^ 53 - 1 := by
  have hmatches : amountMatches amount = true ↔ ∃ n, SpellsCents amount.toList n := by
    unfold amountMatches
    rw [amountPattern_iff]
    constructor
    · rintro ⟨dollars, cents, h⟩
      exact ⟨_, dollars, cents, h, rfl⟩
    · rintro ⟨_, dollars, cents, h, -⟩
      exact ⟨dollars, cents, h⟩
  constructor
  · rintro ⟨hagree, -⟩ n hn
    obtain ⟨m, hm⟩ := hagree.1 (hmatches.2 ⟨n, hn⟩)
    obtain ⟨hlen, ⟨dollars, cents, hspells, rfl⟩, hsafe⟩ := convAmountToUnits_eq_ok.1 hm
    obtain ⟨dollars', cents', hspells', rfl⟩ := hn
    have hdollars : dollars' = dollars := hspells'.integerDigits_eq.symm.trans hspells.integerDigits_eq
    have hcents : cents' = cents := hspells'.fractionDigits_eq.symm.trans hspells.fractionDigits_eq
    rw [hdollars, hcents]
    exact ⟨hlen, hsafe⟩
  · intro hlimits
    have hparses : amountMatches amount = true → ∃ n, convAmountToUnits amount = .ok n := by
      intro hmatch
      obtain ⟨n, hn⟩ := hmatches.1 hmatch
      obtain ⟨hlen, hsafe⟩ := hlimits n hn
      exact ⟨n, convAmountToUnits_eq_ok.2 ⟨hlen, hn, hsafe⟩⟩
    refine ⟨⟨hparses, ?_⟩, ?_⟩
    · rintro ⟨n, hn⟩
      exact hmatches.2 ⟨n, (convAmountToUnits_eq_ok.1 hn).2.1⟩
    · rintro x db rfl hvalid hid
      have hmatch : amountMatches x.dto.amount = true := by
        rw [amountMatches_iff]
        unfold CreatePaymentDto.valid at hvalid
        simp only [Bool.and_eq_true] at hvalid
        exact hvalid.1.2
      obtain ⟨n, hn⟩ := hparses hmatch
      exact createPayment_status hn hid

/-- An order over an amount of twenty-one digits. -/
def longOrder : Submission where
  dto :=
    { customerId := "c1", sourceAccount := "src", destinationAccount := "dst", amount := "111111111111111111111" }
  key := "key"
  hash := "hash"
  correlationId := "corr"
  id := "0"
  outboxId := "1"
  eventId := "2"
  began := 0

/-- The validator accepts the order, the parser refuses its amount, and the answer is a 500. -/
theorem long_order_fails : longOrder.dto.valid = true ∧ amountMatches longOrder.dto.amount = true ∧
    convAmountToUnits longOrder.dto.amount = .error "Amount input string too long" ∧
    (createPayment (fun _ => none) "/v1/payments" longOrder .empty).1.status = 500 ∧
    ¬ AmountsAgree (fun _ => none) "/v1/payments" longOrder.dto.amount := by
  have hvalid : longOrder.dto.valid = true := by decide
  have herror : convAmountToUnits longOrder.dto.amount = .error "Amount input string too long" := by decide
  have hstatus : (createPayment (fun _ => none) "/v1/payments" longOrder .empty).1.status = 500 :=
    createPayment_unparsed herror (by decide)
  refine ⟨hvalid, ?_, herror, hstatus, fun hagree => hagree.2 longOrder .empty rfl hvalid rfl hstatus⟩
  rw [amountMatches_iff]
  decide

end PaymentsProcessor
