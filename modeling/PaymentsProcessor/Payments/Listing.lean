/-
The two lists, of payments and of webhook deliveries: `limit + 1` rows are selected in descending order of their ids,
the controller cuts the page from them, and a client follows `nextCursor` while rows come and change.
-/
import PaymentsProcessor.Base.Keyset
import PaymentsProcessor.Webhooks.State

namespace PaymentsProcessor

/-! ## The code -/

/-- How the database compares texts: only equal texts compare as equal. -/
structure Collation (κ : Type) where
  key : String → κ
  injective : Function.Injective key

/-- The query of a list, as the validators of its DTO let it through. -/
structure ListQueryDto (σ : Type) where
  status : Option σ := none
  cursor : Option String := none
  limit : Nat := 20
  one_le : 1 ≤ limit := by decide
  le_hundred : limit ≤ 100 := by decide

/-- `ListPaymentsQueryDto`. -/
abbrev ListPaymentsQueryDto := ListQueryDto PaymentStatus

/-- `ListDeliveriesQueryDto`. -/
abbrev ListDeliveriesQueryDto := ListQueryDto WebhookStatus

/-- `{ data, nextCursor }`. -/
structure ListPage (α : Type) where
  data : List α
  nextCursor : Option String

section

variable {κ α σ : Type} [LinearOrder κ] [DecidableEq σ] (C : Collation κ) (id : α → String) (status : α → σ)

/-- The first of `conds`. -/
def ListQueryDto.statusCond (q : ListQueryDto σ) (x : α) : Bool := q.status.all (status x = ·)

/-- The second of `conds`; the empty cursor is falsy. -/
def ListQueryDto.cursorCond (q : ListQueryDto σ) (x : α) : Bool :=
  q.cursor.all fun cursor => cursor = "" || C.key (id x) < C.key cursor

/-- `select().from(…).where(and(…conds)).orderBy(desc(id)).limit(limit + 1)`. -/
def selectRows (q : ListQueryDto σ) (rows : List α) : List α :=
  ((rows.filter fun x => q.statusCond status x && q.cursorCond C id x).insertionSort
    fun x y => C.key (id y) ≤ C.key (id x)).take (q.limit + 1)

/-- The body of both controllers, on the rows of the service. -/
def cutPage (q : ListQueryDto σ) (rows : List α) : ListPage α :=
  if rows.length = q.limit + 1 then ⟨rows.take q.limit, rows[rows.length - 2]?.map id⟩ else ⟨rows, none⟩

end

/-- What `list_deliveries` selects: a delivery without its payload, with the URL of its endpoint. -/
structure DeliveryListing where
  id : String
  endpointId : String
  eventId : String
  eventType : String
  status : WebhookStatus
  attempts : Nat
  nextAttemptAt : Option Nat
  lastError : Option String
  createdAt : Nat
  deliveredAt : Option Nat
  url : Option String
  deriving DecidableEq

/-- `LEFT JOIN webhook_endpoints ON webhook_endpoints.id = endpoint_id`. -/
def WebhookDelivery.listing (endpoints : List WebhookEndpoint) (d : WebhookDelivery) : DeliveryListing where
  id := d.id
  endpointId := d.endpointId
  eventId := d.eventId
  eventType := d.event.type
  status := d.status
  attempts := d.attempts
  nextAttemptAt := d.nextAttemptAt
  lastError := d.lastError
  createdAt := d.createdAt
  deliveredAt := d.deliveredAt
  url := (endpoints.find? fun e => e.id = d.endpointId).map WebhookEndpoint.url

section

variable {κ : Type} [LinearOrder κ] (C : Collation κ)

/-- `PaymentsService.list`. -/
def PaymentsService.list (q : ListPaymentsQueryDto) (payments : List Payment) : List Payment :=
  selectRows C Payment.id Payment.status q payments

/-- `PaymentsController.list`. -/
def PaymentsController.list (q : ListPaymentsQueryDto) (payments : List Payment) : ListPage Payment :=
  cutPage Payment.id q (PaymentsService.list C q payments)

/-- `WebhooksService.list_deliveries`. -/
def WebhooksService.listDeliveries (q : ListDeliveriesQueryDto) (rows : List DeliveryListing) : List DeliveryListing :=
  selectRows C DeliveryListing.id DeliveryListing.status q rows

/-- `WebhookDeliveriesController.list`, on the joined rows. -/
def WebhookDeliveriesController.list (q : ListDeliveriesQueryDto) (rows : List DeliveryListing) :
    ListPage DeliveryListing :=
  cutPage DeliveryListing.id q (WebhooksService.listDeliveries C q rows)

end

/-! ## The walk -/

/-- A table at the fetches of its pages. Between two fetches rows come and change; none goes, and none changes its id. -/
structure TableHistory {α : Type} (id : α → String) where
  rows : ℕ → List α
  distinct : ∀ n, ((rows n).map id).Nodup
  nonempty : ∀ n, ∀ x ∈ rows n, id x ≠ ""
  kept : ∀ n, ∀ x ∈ rows n, ∃ y ∈ rows (n + 1), id y = id x

section

variable {α σ : Type} (list : ListQueryDto σ → List α → ListPage α) (q : ListQueryDto σ) (rows : ℕ → List α)

/-- The request for the `n`-th page, while there is one: the first has no cursor, each other the one of the page before. -/
def requestAt : ℕ → Option (ListQueryDto σ)
  | 0 => some { q with cursor := none }
  | n + 1 => (requestAt n).bind fun r => (list r (rows n)).nextCursor.map fun cursor => { r with cursor := some cursor }

/-- The `n`-th page, while there is one. -/
def responseAt (n : ℕ) : Option (ListPage α) := (requestAt list q rows n).map fun r => list r (rows n)

/-- The ids of the first `n` pages. -/
def returnedIds (id : α → String) (n : ℕ) : List String :=
  (List.range n).flatMap fun m => (responseAt list q rows m).elim [] fun page => page.data.map id

/-- The `n`-th page is the last one. -/
def Ends (n : ℕ) : Prop := ∃ page, responseAt list q rows n = some page ∧ page.nextCursor = none

end

/-- The law of the walk over a table. -/
structure WalkLaw {κ α σ : Type} [LinearOrder κ] [DecidableEq σ] (C : Collation κ) (id : α → String) (status : α → σ)
    (list : ListQueryDto σ → List α → ListPage α) (q : ListQueryDto σ) (T : TableHistory id) : Prop where
  descending : ∀ n, (returnedIds list q T.rows id n).Pairwise fun i j => C.key j < C.key i
  full : ∀ n page, responseAt list q T.rows n = some page → page.nextCursor ≠ none → page.data.length = q.limit
  matching : ∀ n page, responseAt list q T.rows n = some page → ∀ x ∈ page.data, x ∈ T.rows n ∧ q.statusCond status x = true
  once : ∀ n, Ends list q T.rows n → ∀ x ∈ T.rows 0,
    (∀ m ≤ n, ∀ y ∈ T.rows m, id y = id x → q.statusCond status y = true) →
    (returnedIds list q T.rows id (n + 1)).count (id x) = 1
  ends : ∀ m, (∀ n, m ≤ n → ∀ x ∈ T.rows n, ∃ y ∈ T.rows m, id y = id x) → ∃ n, Ends list q T.rows n

/-! ## The walk is a keyset walk -/

section

variable {κ α σ : Type} [LinearOrder κ] [DecidableEq σ] {C : Collation κ} {id : α → String} {status : α → σ}

/-- The cursor as the comparison sees it. -/
def ListQueryDto.bound (C : Collation κ) (q : ListQueryDto σ) : Option κ := (q.cursor.filter (· ≠ "")).map C.key

omit [DecidableEq σ] in
theorem ListQueryDto.cursorCond_eq (q : ListQueryDto σ) (x : α) :
    q.cursorCond C id x = (q.bound C).all (C.key (id x) < ·) := by
  unfold ListQueryDto.cursorCond ListQueryDto.bound
  cases q.cursor with
  | none => rfl
  | some cursor =>
    by_cases hempty : cursor = ""
    · subst hempty
      rfl
    · simp [hempty, Option.filter]

/-- The body of both lists. -/
def listPage (C : Collation κ) (id : α → String) (status : α → σ) (q : ListQueryDto σ) (rows : List α) : ListPage α :=
  cutPage id q (selectRows C id status q rows)

variable (C id status) in
theorem listPage_eq (q : ListQueryDto σ) (rows : List α) :
    (listPage C id status q rows).data =
      (Keyset.page (fun x => C.key (id x)) (q.statusCond status) q.limit (q.bound C) rows).1 ∧
    (listPage C id status q rows).nextCursor =
      (Keyset.page (fun x => C.key (id x)) (q.statusCond status) q.limit (q.bound C) rows).2.map id := by
  have hselect : selectRows C id status q rows =
      Keyset.select (fun x => C.key (id x)) (q.statusCond status) (q.limit + 1) (q.bound C) rows := by
    unfold selectRows Keyset.select
    simp only [ListQueryDto.cursorCond_eq]
  unfold listPage cutPage Keyset.page Keyset.cut
  rw [hselect]
  split
  · exact ⟨rfl, rfl⟩
  · exact ⟨rfl, rfl⟩

variable {q r : ListQueryDto σ} {T : TableHistory id} {n : ℕ}

omit [DecidableEq σ] in
/-- All requests of a walk have the status and the limit of the first. -/
theorem requestAt_same (list : ListQueryDto σ → List α → ListPage α) (rows : ℕ → List α)
    (h : requestAt list q rows n = some r) : r.status = q.status ∧ r.limit = q.limit := by
  induction n generalizing r with
  | zero =>
    cases h
    exact ⟨rfl, rfl⟩
  | succ n ih =>
    obtain ⟨before, hbefore, h⟩ := Option.bind_eq_some_iff.1 h
    obtain ⟨cursor, -, rfl⟩ := Option.map_eq_some_iff.1 h
    obtain ⟨hstatus, hlimit⟩ := ih hbefore
    exact ⟨hstatus, hlimit⟩

theorem statusCond_same (h : r.status = q.status) : (r.statusCond status : α → Bool) = q.statusCond status := by
  unfold ListQueryDto.statusCond
  rw [h]

omit [LinearOrder κ] in
theorem TableHistory.distinct_keys (C : Collation κ) (T : TableHistory id) :
    Keyset.Distinct (fun x => C.key (id x)) T.rows := by
  intro n
  have hmap := (T.distinct n).map C.injective
  rwa [List.map_map] at hmap

/-- The pages of the walk are the pages of the keyset walk over the same table. -/
theorem cursorAt_eq : Keyset.cursorAt (fun x => C.key (id x)) (q.statusCond status) q.limit T.rows n =
    (requestAt (listPage C id status) q T.rows n).map fun r => r.bound C := by
  induction n with
  | zero => rfl
  | succ n ih =>
    unfold Keyset.cursorAt requestAt
    rw [ih]
    cases hr : requestAt (listPage C id status) q T.rows n with
    | none => rfl
    | some r =>
      obtain ⟨hstatus, hlimit⟩ := requestAt_same _ _ hr
      have hspec := Keyset.page_spec (p := r.statusCond status) (r.bound C) r.one_le (T.distinct_keys C n)
      simp only [Option.map_some, Option.bind_some]
      rw [(listPage_eq C id status r (T.rows n)).2, ← statusCond_same hstatus, ← hlimit]
      cases hnext : (Keyset.page (fun x => C.key (id x)) (r.statusCond status) r.limit (r.bound C) (T.rows n)).2 with
      | none => rfl
      | some last =>
        -- the id of the last row is a cursor, as it is not empty
        have hmem := (hspec.candidate last (hspec.last last hnext).1).1
        simp [ListQueryDto.bound, Option.filter, T.nonempty n last hmem]

theorem responseAt_eq {page : ListPage α} (h : responseAt (listPage C id status) q T.rows n = some page) :
    page.data = Keyset.pageAt (fun x => C.key (id x)) (q.statusCond status) q.limit T.rows n ∧
    (page.nextCursor = none ↔ Keyset.LastAt (fun x => C.key (id x)) (q.statusCond status) q.limit T.rows n) := by
  obtain ⟨r, hr, rfl⟩ := Option.map_eq_some_iff.1 h
  obtain ⟨hstatus, hlimit⟩ := requestAt_same _ _ hr
  have hcursor : Keyset.cursorAt (fun x => C.key (id x)) (q.statusCond status) q.limit T.rows n =
      (requestAt (listPage C id status) q T.rows n).map fun r => r.bound C := cursorAt_eq
  rw [hr] at hcursor
  have hpage := listPage_eq C id status r (T.rows n)
  rw [statusCond_same hstatus, hlimit] at hpage
  constructor
  · unfold Keyset.pageAt
    rw [hcursor]
    exact hpage.1
  · unfold Keyset.LastAt
    rw [cursorAt_eq (n := n + 1), hcursor]
    unfold requestAt
    simp [hr]

theorem returnedIds_eq (n : ℕ) : returnedIds (listPage C id status) q T.rows id n =
    (Keyset.returnedTo (fun x => C.key (id x)) (q.statusCond status) q.limit T.rows n).map id := by
  unfold returnedIds Keyset.returnedTo
  rw [List.map_flatMap]
  congr 1
  funext m
  cases hpage : responseAt (listPage C id status) q T.rows m with
  | some page =>
    rw [← (responseAt_eq hpage).1]
    rfl
  | none =>
    have hr := Option.map_eq_none_iff.1 hpage
    unfold Keyset.pageAt
    rw [cursorAt_eq, hr]
    rfl

theorem ends_of_lastAt (h : Keyset.LastAt (fun x => C.key (id x)) (q.statusCond status) q.limit T.rows n) :
    Ends (listPage C id status) q T.rows n := by
  have hne := h.1
  rw [cursorAt_eq] at hne
  obtain ⟨r, hr⟩ : ∃ r, requestAt (listPage C id status) q T.rows n = some r := by
    refine Option.ne_none_iff_exists'.1 fun hnone => hne ?_
    rw [hnone]
    rfl
  have hpage : responseAt (listPage C id status) q T.rows n = some (listPage C id status r (T.rows n)) := by
    unfold responseAt
    rw [hr]
    rfl
  exact ⟨_, hpage, (responseAt_eq hpage).2.2 h⟩

/-- A row of the first fetch is in the table at each later one. -/
theorem TableHistory.kept_of_zero {x : α} (hx : x ∈ T.rows 0) (n : ℕ) : ∃ y ∈ T.rows n, id y = id x := by
  induction n with
  | zero => exact ⟨x, hx, rfl⟩
  | succ n ih =>
    obtain ⟨y, hy, hid⟩ := ih
    obtain ⟨z, hz, hid'⟩ := T.kept n y hy
    exact ⟨z, hz, hid'.trans hid⟩

theorem walkLaw (C : Collation κ) (id : α → String) (status : α → σ) (q : ListQueryDto σ) (T : TableHistory id) :
    WalkLaw C id status (listPage C id status) q T := by
  have hdistinct := T.distinct_keys C
  constructor
  · intro n
    rw [returnedIds_eq, List.pairwise_map]
    exact Keyset.returnedTo_descending q.one_le hdistinct n
  · intro n page hpage hnext
    obtain ⟨hdata, hlast⟩ := responseAt_eq hpage
    rw [hdata]
    apply Keyset.pageAt_length q.one_le hdistinct
    intro hnone
    obtain ⟨r, hr, -⟩ := Option.map_eq_some_iff.1 hpage
    have hcursor : Keyset.cursorAt (fun x => C.key (id x)) (q.statusCond status) q.limit T.rows n ≠ none := by
      rw [cursorAt_eq, hr]
      exact Option.some_ne_none _
    exact hnext (hlast.2 ⟨hcursor, hnone⟩)
  · intro n page hpage x hx
    rw [(responseAt_eq hpage).1] at hx
    exact Keyset.pageAt_mem q.one_le hdistinct hx
  · rintro n ⟨page, hpage, hnext⟩ x hx hmatching
    have hlast := (responseAt_eq hpage).2.1 hnext
    have hcount := Keyset.count_returnedTo (k := C.key (id x)) q.one_le hdistinct hlast fun m hm => by
      obtain ⟨y, hy, hid⟩ := T.kept_of_zero hx m
      exact ⟨y, hy, congrArg C.key hid, hmatching m hm y hy hid⟩
    rw [returnedIds_eq, ← List.count_map_of_injective _ C.key C.injective, List.map_map]
    exact hcount
  · intro m hm
    have hkeys : ∀ n, m ≤ n → ∀ x ∈ T.rows n, C.key (id x) ∈ ((T.rows m).map fun x => C.key (id x)).toFinset := by
      intro n hn x hx
      obtain ⟨y, hy, hid⟩ := hm n hn x hx
      exact List.mem_toFinset.2 (List.mem_map.2 ⟨y, hy, congrArg C.key hid⟩)
    obtain ⟨n, hlast⟩ := Keyset.exists_lastAt q.one_le hdistinct _ hkeys
    exact ⟨n, ends_of_lastAt hlast⟩

end

/-! ## Payments and deliveries -/

/-- The joined rows at the fetches of the pages; the endpoints may change too. -/
def TableHistory.joined (T : TableHistory WebhookDelivery.id) (endpoints : ℕ → List WebhookEndpoint) :
    TableHistory DeliveryListing.id where
  rows n := (T.rows n).map (WebhookDelivery.listing (endpoints n))
  distinct n := by
    rw [List.map_map]
    exact T.distinct n
  nonempty n x hx := by
    obtain ⟨d, hd, rfl⟩ := List.mem_map.1 hx
    exact T.nonempty n d hd
  kept n x hx := by
    obtain ⟨d, hd, rfl⟩ := List.mem_map.1 hx
    obtain ⟨e, he, hid⟩ := T.kept n d hd
    exact ⟨_, List.mem_map_of_mem he, hid⟩

/-- Following `nextCursor` returns no row twice and none that fails the filter, all pages but the last are full, each
row that is there from the first fetch and passes the filter at every fetch is returned once, and the walk ends when no
more rows come; over payments and over deliveries. -/
theorem paging_loses_nothing {κ : Type} [LinearOrder κ] (C : Collation κ) :
    (∀ (q : ListPaymentsQueryDto) (T : TableHistory Payment.id),
      WalkLaw C Payment.id Payment.status (PaymentsController.list C) q T) ∧
    ∀ (q : ListDeliveriesQueryDto) (T : TableHistory WebhookDelivery.id) (endpoints : ℕ → List WebhookEndpoint),
      WalkLaw C DeliveryListing.id DeliveryListing.status (WebhookDeliveriesController.list C) q (T.joined endpoints) :=
  ⟨fun q T => walkLaw C Payment.id Payment.status q T,
    fun q T endpoints => walkLaw C DeliveryListing.id DeliveryListing.status q (T.joined endpoints)⟩

/-- Texts compared by the numbers of their characters. -/
def Collation.byCodePoint : Collation (List ℕ) where
  key text := text.toList.map Char.toNat
  injective _ _ h := String.toList_inj.1 (List.map_injective_iff.2 (fun _ _ => Char.toNat_inj.1) h)

/-- A table that changes once, before its second fetch. -/
def TableHistory.changing {α : Type} {id : α → String} (first second : List α)
    (hdistinct : (first.map id).Nodup ∧ (second.map id).Nodup) (hnonempty : ∀ x ∈ first ++ second, id x ≠ "")
    (hkept : ∀ x ∈ first, ∃ y ∈ second, id y = id x) : TableHistory id where
  rows n := if n = 0 then first else second
  distinct n := by
    split
    · exact hdistinct.1
    · exact hdistinct.2
  nonempty n x hx := by
    split at hx
    · exact hnonempty x (List.mem_append_left _ hx)
    · exact hnonempty x (List.mem_append_right _ hx)
  kept n x hx := by
    rw [if_neg (Nat.succ_ne_zero n)]
    split at hx
    · exact hkept x hx
    · exact ⟨x, hx, rfl⟩

/-- A payment of ten and a half dollars. -/
def paymentOf (id : String) (status : PaymentStatus) : Payment :=
  ⟨id, "c", "a", "b", 1050, "USD", none, status, 0, 0, none, 0, 0⟩

/-- Two payments at the first fetch; before the second one of them is completed, and one comes between the two and one above
them. -/
def arriving : TableHistory Payment.id :=
  .changing [paymentOf "1" .PENDING, paymentOf "3" .PENDING]
    [paymentOf "1" .COMPLETED, paymentOf "3" .PENDING, paymentOf "2" .PENDING, paymentOf "4" .PENDING]
    (by decide) (by decide) (by decide)

/-- The delivery of an event to an endpoint. -/
def deliveryOf (id : String) (status : WebhookStatus) : WebhookDelivery :=
  { id, endpointId := "e", eventId := id, event := .failed ⟨"p", .FAILED, 1050, "USD", none⟩, status, createdAt := 0 }

/-- Three deliveries have failed at the first fetch; before the second one of them is delivered, and one comes below them. -/
def retrying : TableHistory WebhookDelivery.id :=
  .changing [deliveryOf "2" .failed, deliveryOf "3" .failed, deliveryOf "4" .failed]
    [deliveryOf "2" .failed, deliveryOf "3" .delivered, deliveryOf "4" .failed, deliveryOf "1" .failed]
    (by decide) (by decide) (by decide)

/-- Their endpoint, deactivated after the first fetch. -/
def deactivating (n : ℕ) : List WebhookEndpoint := [⟨"e", "https://receiver", "whsec", n = 0, 0⟩]

/-- Pages of one row. The payment that has come between the two is returned and the one above is not; of the deliveries that
have failed the one that is delivered before its page is not. -/
theorem paging_loses_nothing_arriving :
    returnedIds (PaymentsController.list .byCodePoint) { limit := 1 } arriving.rows Payment.id 3 = ["3", "2", "1"] ∧
    Ends (PaymentsController.list .byCodePoint) { limit := 1 } arriving.rows 2 ∧
    returnedIds (WebhookDeliveriesController.list .byCodePoint) { limit := 1, status := some .failed }
      (retrying.joined deactivating).rows DeliveryListing.id 3 = ["4", "2", "1"] ∧
    Ends (WebhookDeliveriesController.list .byCodePoint) { limit := 1, status := some .failed }
      (retrying.joined deactivating).rows 2 ∧
    WalkLaw .byCodePoint Payment.id Payment.status (PaymentsController.list .byCodePoint) { limit := 1 } arriving ∧
    WalkLaw .byCodePoint DeliveryListing.id DeliveryListing.status (WebhookDeliveriesController.list .byCodePoint)
      { limit := 1, status := some .failed } (retrying.joined deactivating) :=
  ⟨by decide, ⟨_, rfl, rfl⟩, by decide, ⟨_, rfl, rfl⟩, (paging_loses_nothing .byCodePoint).1 { limit := 1 } arriving,
    (paging_loses_nothing .byCodePoint).2 { limit := 1, status := some .failed } retrying deactivating⟩

end PaymentsProcessor
