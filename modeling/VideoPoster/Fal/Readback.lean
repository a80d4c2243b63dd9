import VideoPoster.Fal.Billing

/-!
# The readback is exact
-/

namespace VideoPoster.Fal
open Python Documents List Option Nat

variable {fromisoformat : Text → Option Datetime} {request : BillingReadbackRequest}

/-! ## Well-formed events and pages -/

structure Event.Reports (fromisoformat : Text → Option Datetime) (request : BillingReadbackRequest)
    (entries : Entries Scalar) (event : Event) : Prop where
  fields : entries.keysAre eventFields = true
  requestId : entries.get (text "request_id") = some (.str event.requestId)
  requestOpaque : OpaqueId event.requestId
  endpointId : entries.get (text "endpoint_id") = some (.str event.endpointId)
  endpointOpaque : OpaqueId event.endpointId
  timestamp : ∃ stamp timestamp, entries.get (text "timestamp") = some (.str stamp) ∧
    fromisoformat stamp = some timestamp ∧ InWindow request timestamp
  quantity : nullableDecimal (entries.get (text "quantity")) "quantity" = .ok ()
  outputUnits : nullableDecimal (entries.get (text "output_units")) "output_units" = .ok ()
  unit : nullableString (entries.get (text "unit")) "unit" = .ok ()
  unitPrice : nullableDecimal (entries.get (text "unit_price")) "unit_price" = .ok ()
  percentDiscount :
    nullableDecimal (entries.get (text "percent_discount")) "percent_discount" = .ok ()
  costSubtotal : ∃ amount, decimal (entries.get (text "cost_subtotal")) "cost_subtotal" = .ok amount
  costDiscount : ∃ amount, decimal (entries.get (text "cost_discount")) "cost_discount" = .ok amount
  costTotal : ∃ amount, decimal (entries.get (text "cost_total")) "cost_total" = .ok amount ∧
    event.costTotal = orZero amount
  nano : entries.get (text "cost_estimate_nano_usd") = some (.int event.nano)

variable {value : Option Object}

theorem opaqueId_eq_ok {label : String} {id : Text} :
    opaqueId value label = .ok id ↔ value = some (.str id) ∧ OpaqueId id := by
  unfold opaqueId
  split
  · rename_i given
    simp only [bind_eq_ok, require_eq_ok, exists_const, pure_eq_ok, some.injEq, Value.str.injEq]
    constructor
    · rintro ⟨sound, rfl⟩
      exact ⟨rfl, sound⟩
    · rintro ⟨rfl, sound⟩
      exact ⟨sound, rfl⟩
  · rename_i given other
    constructor
    · intro is
      cases is
    · rintro ⟨is, -⟩
      exact absurd (some.inj is) (other id)
  · simp

theorem checkTimestamp_eq_ok {u : Unit} : checkTimestamp fromisoformat request value = .ok u ↔ ∃ stamp timestamp,
      value = some (.str stamp) ∧ fromisoformat stamp = some timestamp ∧ InWindow request timestamp := by
  unfold checkTimestamp
  split
  · rename_i stamp
    cases read : fromisoformat stamp with
    | none => simp [read]
    | some timestamp => simp [read]
  · rename_i given other
    constructor
    · intro is
      cases is
    · rintro ⟨stamp, timestamp, is, -⟩
      exact absurd (some.inj is) (other stamp)
  · simp

theorem nanoUsd_eq_ok {nano : ℕ} : nanoUsd value = .ok nano ↔ value = some (.int nano) := by
  unfold nanoUsd
  split
  · rename_i n
    simp only [bind_eq_ok, require_eq_ok, exists_const, pure_eq_ok, some.injEq, Value.int.injEq]
    omega
  · rename_i given other
    constructor
    · intro is
      cases is
    · intro is
      exact absurd (some.inj is) (other nano)
  · simp

theorem parseEvent_eq_ok {entries : Entries Scalar} {event : Event} :
    parseEvent fromisoformat request entries = .ok event ↔ event.Reports fromisoformat request entries := by
  simp only [parseEvent, bind_eq_ok, require_eq_ok, exists_const, pure_eq_ok, opaqueId_eq_ok,
    checkTimestamp_eq_ok, nanoUsd_eq_ok]
  constructor
  · rintro ⟨fields, requestId, ⟨given, sound⟩, endpointId, ⟨endpoint, endpointSound⟩, timestamp,
      ⟨⟩, quantity, ⟨⟩, outputUnits, ⟨⟩, unit, ⟨⟩, unitPrice, ⟨⟩, percentDiscount, subtotal, subtotalIs,
      discount, discountIs, total, totalIs, nano, nanoIs, rfl⟩
    exact ⟨fields, given, sound, endpoint, endpointSound, timestamp, quantity, outputUnits, unit,
      unitPrice, percentDiscount, ⟨subtotal, subtotalIs⟩, ⟨discount, discountIs⟩,
      ⟨total, totalIs, rfl⟩, nanoIs⟩
  · intro reports
    obtain ⟨subtotal, subtotalIs⟩ := reports.costSubtotal
    obtain ⟨discount, discountIs⟩ := reports.costDiscount
    obtain ⟨total, totalIs, cost⟩ := reports.costTotal
    refine ⟨reports.fields, event.requestId, ⟨reports.requestId, reports.requestOpaque⟩,
      event.endpointId, ⟨reports.endpointId, reports.endpointOpaque⟩, reports.timestamp,
      ⟨⟩, reports.quantity, ⟨⟩, reports.outputUnits, ⟨⟩, reports.unit, ⟨⟩, reports.unitPrice, ⟨⟩,
      reports.percentDiscount, subtotal, subtotalIs, discount, discountIs, total, totalIs, event.nano, reports.nano, ?_⟩
    rw [← cost]

structure Page where
  events : List Event
  cursor : Option Text

def Page.Reads (fromisoformat : Text → Option Datetime) (request : BillingReadbackRequest)
    (answer : Object) (read : Page) : Prop :=
  ∃ items, page answer = .ok (items, read.cursor, read.cursor.isSome) ∧
    List.Forall₂ (fun entries event => Event.Reports fromisoformat request entries event) items
      read.events

variable {items : List (Entries Scalar)} {cursor : Option Text} {more : Bool}

theorem page_more {answer : Object} (read : page answer = .ok (items, cursor, more)) : more = cursor.isSome := by
  unfold page at read
  split at read
  · simp only [bind_eq_ok, require_eq_ok, exists_const, pure_eq_ok, Prod.mk.injEq] at read
    obtain ⟨-, _, -, _, -, said, is, -, rfl, rfl⟩ := read
    unfold pageMore at is
    split at is
    · simp only [bind_eq_ok, require_eq_ok, exists_const, pure_eq_ok] at is
      obtain ⟨same, rfl⟩ := is
      exact same
    · cases is
  · cases read

variable {found : List Event}

theorem matching_eq_ok : matching fromisoformat request items =
    .ok found ↔ ∃ events, List.Forall₂ (fun entries event => Event.Reports fromisoformat request entries event)
    items events ∧ found = events.filter fun event => event.Matches request := by
  induction items generalizing found with
  | nil =>
    constructor
    · rintro ⟨⟩
      exact ⟨[], .nil, rfl⟩
    · rintro ⟨events, ⟨⟩, rfl⟩
      rfl
  | cons item items ih =>
    simp only [matching, bind_eq_ok, pure_eq_ok, parseEvent_eq_ok, ih]
    constructor
    · rintro ⟨event, reports, others, ⟨events, rest, rfl⟩, rfl⟩
      exact ⟨event :: events, .cons reports rest, by rw [filter_cons]; simp⟩
    · rintro ⟨events, is, rfl⟩
      cases is with
      | @cons _ event _ events reports rest =>
        exact ⟨event, reports, _, ⟨events, rest, rfl⟩, by rw [filter_cons]; simp⟩

/-! ## Nothing escapes -/

def Contained {α : Type} (result : Result α) : Prop := ∀ error, result = .error error → error.kind ∈ caught

section Contained
variable {α β : Type}

theorem contained_ok (value : α) : Contained (.ok value : Result α) := nofun

theorem contained_value (message : String) : Contained (.error (.value message) : Result α) := by
  rintro _ ⟨⟩
  simp [caught, Error.value]

theorem contained_type (message : String) : Contained (.error (.type message) : Result α) := by
  rintro _ ⟨⟩
  simp [caught, Error.type]

theorem contained_key (message : String) : Contained (.error (.key message) : Result α) := by
  rintro _ ⟨⟩
  simp [caught, Error.key]

theorem contained_require {condition : Prop} [Decidable condition] (message : String) :
    Contained (require condition (.value message)) := by
  unfold require
  split_ifs
  · exact contained_ok ()
  · exact contained_value message

theorem Contained.bind {result : Result α} {next : α → Result β} (first : Contained result)
    (rest : ∀ value, Contained (next value)) : Contained (result >>= next) := by
  intro error raised
  cases result with
  | error failure =>
    cases raised
    exact first error rfl
  | ok value => exact rest value error raised

end Contained

theorem contained_opaqueId (value : Option Object) (label : String) : Contained (opaqueId value label) := by
  unfold opaqueId
  split
  · exact (contained_require _).bind fun _ => contained_ok _
  · exact contained_value _
  · exact contained_key _

theorem contained_decimal (value : Option Object) (label : String) : Contained (decimal value label) := by
  unfold decimal
  split
  · exact (contained_require _).bind fun _ => contained_ok _
  · exact (contained_require _).bind fun _ => contained_ok _
  · split
    · exact (contained_require _).bind fun _ => contained_ok _
    · exact contained_value _
  · exact contained_type _
  · exact contained_key _

theorem contained_nullableDecimal (value : Option Object) (label : String) :
    Contained (nullableDecimal value label) := by
  unfold nullableDecimal
  split
  · exact contained_ok _
  · exact (contained_decimal _ label).bind fun _ => contained_ok _

theorem contained_nullableString (value : Option Object) (label : String) : Contained (nullableString value label) := by
  unfold nullableString
  split
  · exact contained_ok _
  · exact contained_require _
  · exact contained_value _
  · exact contained_key _

theorem contained_nanoUsd (value : Option Object) : Contained (nanoUsd value) := by
  unfold nanoUsd
  split
  · exact (contained_require _).bind fun _ => contained_ok _
  · exact contained_value _
  · exact contained_key _

theorem contained_checkTimestamp (value : Option Object) : Contained (checkTimestamp fromisoformat request value) := by
  unfold checkTimestamp
  split
  · split
    · exact contained_value _
    · exact contained_require _
  · exact contained_type _
  · exact contained_key _

theorem contained_parseEvent (entries : Entries Scalar) : Contained (parseEvent fromisoformat request entries) := by
  unfold parseEvent
  refine (contained_require _).bind fun _ => ?_
  refine (contained_opaqueId _ _).bind fun _ => ?_
  refine (contained_opaqueId _ _).bind fun _ => ?_
  refine (contained_checkTimestamp _).bind fun _ => ?_
  refine (contained_nullableDecimal _ _).bind fun _ => ?_
  refine (contained_nullableDecimal _ _).bind fun _ => ?_
  refine (contained_nullableString _ _).bind fun _ => ?_
  refine (contained_nullableDecimal _ _).bind fun _ => ?_
  refine (contained_nullableDecimal _ _).bind fun _ => ?_
  refine (contained_decimal _ _).bind fun _ => ?_
  refine (contained_decimal _ _).bind fun _ => ?_
  refine (contained_decimal _ _).bind fun _ => ?_
  exact (contained_nanoUsd _).bind fun _ => contained_ok _

theorem contained_matching (items : List (Entries Scalar)) : Contained (matching fromisoformat request items) := by
  induction items with
  | nil => exact contained_ok _
  | cons item items ih =>
    exact (contained_parseEvent item).bind fun _ => ih.bind fun _ => contained_ok _

theorem contained_page (answer : Object) : Contained (page answer) := by
  have items : ∀ value, Contained (pageItems value) := by
    intro value
    unfold pageItems
    split
    · exact (contained_require _).bind fun _ => contained_ok _
    · exact contained_value _
  have cursors : ∀ value, Contained (pageCursor value) := by
    intro value
    unfold pageCursor
    split
    · exact contained_ok _
    · exact contained_ok _
    · exact (contained_require _).bind fun _ => contained_ok _
    · exact contained_value _
  have mores : ∀ value cursor, Contained (pageMore value cursor) := by
    intro value cursor
    unfold pageMore
    split
    · exact (contained_require _).bind fun _ => contained_ok _
    · exact contained_value _
  unfold page
  split
  · exact (contained_require _).bind fun _ => (items _).bind fun _ => (cursors _).bind fun _ =>
      (mores _ _).bind fun _ => contained_ok _
  · exact contained_value _

theorem contained_answered (T : Transport) (asked : List Params) : Contained (answered T asked) := by
  unfold answered
  cases T asked with
  | ok answer => exact contained_ok answer
  | error message =>
    rintro _ ⟨⟩
    simp [caught, consumerError]

/-! ## Walks -/

def BillingReadbackRequest.after (request : BillingReadbackRequest) (cursor : Text) : Params :=
  { request.params with cursor := some cursor }

inductive Walk (fromisoformat : Text → Option Datetime) (T : Transport)
    (request : BillingReadbackRequest) : List Params → List Text → List Page → Prop
  | last {asked : List Params} {seen : List Text} {answer : Object} {page : Page}
      (answers : T asked = .ok answer) (reads : page.Reads fromisoformat request answer)
      (done : page.cursor = none) : Walk fromisoformat T request asked seen [page]
  | next {asked : List Params} {seen : List Text} {answer : Object} {page : Page} {cursor : Text}
      {pages : List Page} (answers : T asked = .ok answer)
      (reads : page.Reads fromisoformat request answer) (more : page.cursor = some cursor)
      (fresh : cursor ∉ seen)
      (rest : Walk fromisoformat T request (asked ++ [request.after cursor]) (seen ++ [cursor]) pages) :
      Walk fromisoformat T request asked seen (page :: pages)

def eventsOf (request : BillingReadbackRequest) (pages : List Page) : List Event :=
  (pages.flatMap Page.events).filter fun event => event.Matches request

theorem eventsOf_cons (page : Page) (pages : List Page) : eventsOf request (page :: pages) =
      (page.events.filter fun event => event.Matches request) ++ eventsOf request pages := by
  simp [eventsOf]

variable {asked : List Params}

theorem readPage_eq_ok {T : Transport} : readPage fromisoformat T request asked = .ok (found, cursor, more)
    ↔ ∃ answer events, T asked = .ok answer ∧ Page.Reads fromisoformat request answer ⟨events, cursor⟩ ∧
    found = (events.filter fun event => event.Matches request) ∧ more = cursor.isSome := by
  have answers : ∀ answer, answered T asked = .ok answer ↔ T asked = .ok answer := by
    intro answer
    unfold answered
    cases T asked <;> simp [Except.mapError]
  simp only [readPage, bind_eq_ok, pure_eq_ok, Prod.mk.injEq, Prod.exists, answers, matching_eq_ok]
  constructor
  · rintro ⟨answer, is, items, cursor, more, read, found, ⟨events, reports, rfl⟩, rfl, rfl, rfl⟩
    obtain rfl := page_more read
    exact ⟨answer, events, is, ⟨items, read, reports⟩, rfl, rfl⟩
  · rintro ⟨answer, events, is, ⟨items, read, reports⟩, rfl, rfl⟩
    exact ⟨answer, is, items, cursor, _, read, _, ⟨events, reports, rfl⟩, rfl, rfl, rfl⟩

theorem contained_readPage (T : Transport) (asked : List Params) : Contained (readPage fromisoformat T request asked) :=
  (contained_answered T asked).bind fun answer => (contained_page answer).bind fun read =>
    (contained_matching read.1).bind fun _ => contained_ok _

/-! ## The loop follows the walk -/

variable {params : Params}

theorem after_of_base (base : { params with cursor := none } = request.params)
    (cursor : Text) : { params with cursor := some cursor } = request.after cursor := by
  unfold BillingReadbackRequest.after
  rw [← base]

theorem after_base (cursor : Text) : { request.after cursor with cursor := none } = request.params := rfl

variable {T : Transport}

variable {seen : List Text} {left : ℕ}

theorem readPages_walk {queries : List Params} {pages : List Page} (walk : Walk fromisoformat T request queries
    seen pages) (base : { params with cursor := none } = request.params) (made : asked ++ [params] = queries) (matched :
    List Event) (enough : pages.length ≤ left) : (readPages fromisoformat T request left asked params seen matched).2 =
    .ok (concluded request (matched ++ eventsOf request pages)) := by
  induction walk generalizing left asked params matched with
  | last answers reads done =>
    obtain ⟨left, rfl⟩ := exists_eq_add_one_of_ne_zero (ne_of_gt enough)
    have read := readPage_eq_ok.2 ⟨_, _, answers, reads, rfl, rfl⟩
    rw [readPages]
    simp only [made, read, done, isSome_none, if_true]
    simp [eventsOf]
  | @next queries seen answer page cursor pages answers reads more fresh rest ih =>
    obtain ⟨left, rfl⟩ := exists_eq_add_one_of_ne_zero (ne_of_gt (zero_lt_of_lt enough))
    have read := readPage_eq_ok.2 ⟨_, _, answers, reads, rfl, rfl⟩
    have later := ih (after_base cursor) rfl
      (matched ++ page.events.filter fun event => event.Matches request) (le_of_succ_le_succ enough)
    rw [readPages]
    simp only [made, read, more, isSome_some, Bool.true_eq_false, if_false, if_neg fresh]
    rw [after_of_base base, later, eventsOf_cons, append_assoc]

theorem walk_of_readPages {matched : List Event} {readback : BillingReadback} (base : { params with cursor := none }
    = request.params) (result : (readPages fromisoformat T request left asked params seen matched).2 = .ok readback)
    (decided : readback.status ≠ .unknown) : ∃ pages, Walk fromisoformat T request (asked ++ [params])
    seen pages ∧ pages.length ≤ left ∧ readback = concluded request (matched ++ eventsOf request pages) := by
  induction left generalizing asked params seen matched with
  | zero =>
    cases result
    exact absurd rfl decided
  | succ left ih =>
    rw [readPages] at result
    cases read : readPage fromisoformat T request (asked ++ [params]) with
    | error error => simp [read] at result
    | ok found =>
      obtain ⟨found, cursor, more⟩ := found
      obtain ⟨answer, events, answers, reads, rfl, rfl⟩ := readPage_eq_ok.1 read
      simp only [read] at result
      cases cursor with
      | none =>
        cases result
        exact ⟨[⟨events, none⟩], .last answers reads rfl, by simp, by simp [eventsOf]⟩
      | some cursor =>
        simp only [isSome_some, Bool.true_eq_false, if_false] at result
        split_ifs at result with repeated
        · cases result
          exact absurd rfl decided
        · rw [after_of_base base] at result
          obtain ⟨pages, walk, within, is⟩ := ih (after_base cursor) result
          refine ⟨⟨events, some cursor⟩ :: pages, .next answers reads rfl repeated walk, succ_le_succ within, ?_⟩
          rw [is, eventsOf_cons, append_assoc]

theorem contained_readPages (left : ℕ) (asked : List Params) (params : Params) (seen : List Text)
    (matched : List Event) : Contained (readPages fromisoformat T request left asked params seen matched).2 := by
  induction left generalizing asked params seen matched with
  | zero => exact contained_ok _
  | succ left ih =>
    have contained : Contained (readPage fromisoformat T request (asked ++ [params])) :=
      contained_readPage T (asked ++ [params])
    rw [readPages]
    cases read : readPage fromisoformat T request (asked ++ [params]) with
    | error error =>
      intro raised is
      cases is
      exact contained error read
    | ok found =>
      obtain ⟨found, cursor, more⟩ := found
      simp only
      split_ifs
      · exact contained_ok _
      · cases cursor with
        | none => exact contained_ok _
        | some cursor =>
          simp only
          split_ifs
          · exact contained_ok _
          · exact ih _ _ _ _

theorem length_readPages (left : ℕ) (asked : List Params) (params : Params) (seen : List Text) (matched : List Event) :
    (readPages fromisoformat T request left asked params seen matched).1.length ≤ asked.length + left := by
  induction left generalizing asked params seen matched with
  | zero => exact le_refl _
  | succ left ih =>
    have one : (asked ++ [params]).length ≤ asked.length + (left + 1) := by
      rw [length_append, length_singleton]
      omega
    rw [readPages]
    cases readPage fromisoformat T request (asked ++ [params]) with
    | error error => exact one
    | ok found =>
      obtain ⟨found, cursor, more⟩ := found
      simp only
      split_ifs
      · exact one
      · cases cursor with
        | none => exact one
        | some cursor =>
          simp only
          split_ifs
          · exact one
          · refine (ih _ _ _ _).trans ?_
            rw [length_append, length_singleton]
            omega

/-! ## The readback -/

def Pages (fromisoformat : Text → Option Datetime) (T : Transport) (request : BillingReadbackRequest)
    (pageLimit : ℕ) (pages : List Page) : Prop :=
  Walk fromisoformat T request [request.params] [] pages ∧ pages.length ≤ pageLimit

def Billed (fromisoformat : Text → Option Datetime) (T : Transport) (request : BillingReadbackRequest)
    (pageLimit : ℕ) (cost : Decimal) : Prop :=
  ∃ pages event, Pages fromisoformat T request pageLimit pages ∧ eventsOf request pages = [event] ∧
    event.costTotal = cost

def Pending (fromisoformat : Text → Option Datetime) (T : Transport) (request : BillingReadbackRequest)
    (pageLimit : ℕ) : Prop :=
  ∃ pages, Pages fromisoformat T request pageLimit pages ∧ eventsOf request pages = []

variable {events : List Event}

theorem concluded_billed {cost : Decimal} : (concluded request events).status = .billed ∧
    (concluded request events).actualCostUsd = some cost ↔ ∃ event, events = [event] ∧ event.costTotal = cost := by
  match events with
  | [] => simp [concluded]
  | [event] => simp [concluded]
  | first :: second :: others => simp [concluded, unknown]

theorem concluded_pending : (concluded request events).status = .pending ↔ events = [] := by
  match events with
  | [] => simp [concluded]
  | [event] => simp [concluded]
  | first :: second :: others => simp [concluded, unknown]

theorem readback_result (T : Transport) (pageLimit : ℕ) (valid : validateActionRequest request = .ok ()) :
    ∃ answer, (readback fromisoformat T pageLimit request).2 = .ok answer ∧ (∀ pages, Pages fromisoformat
    T request pageLimit pages → answer = concluded request (eventsOf request pages)) ∧ (answer.status ≠ .unknown →
    ∃ pages, Pages fromisoformat T request pageLimit pages ∧ answer = concluded request (eventsOf request pages)) := by
  have base : { request.params with cursor := none } = request.params := rfl
  have contained : Contained (readPages fromisoformat T request pageLimit [] request.params [] []).2 :=
    contained_readPages pageLimit [] request.params [] []
  unfold readback
  simp only [valid]
  cases read : (readPages fromisoformat T request pageLimit [] request.params [] []).2 with
  | error error =>
    rw [read] at contained
    refine ⟨unknown request "billing readback unavailable", ?_, ?_, ?_⟩
    · simp only [if_pos (contained error rfl)]
    · intro pages walk
      have ok := readPages_walk walk.1 base (nil_append [request.params]) [] walk.2
      rw [read] at ok
      cases ok
    · exact fun decided => absurd rfl decided
  | ok answer =>
    refine ⟨answer, rfl, ?_, ?_⟩
    · intro pages walk
      have ok := readPages_walk walk.1 base (nil_append [request.params]) [] walk.2
      rw [read] at ok
      exact Except.ok.inj ok
    · intro decided
      obtain ⟨pages, walk, within, is⟩ := walk_of_readPages base read decided
      exact ⟨pages, ⟨walk, within⟩, is⟩

theorem length_readback (T : Transport) (pageLimit : ℕ) :
    (readback fromisoformat T pageLimit request).1.length ≤ pageLimit := by
  have within : (readPages fromisoformat T request pageLimit [] request.params [] []).1.length ≤
      ([] : List Params).length + pageLimit := length_readPages pageLimit [] request.params [] []
  rw [length_nil, zero_add] at within
  unfold readback
  cases validateActionRequest request with
  | error error => exact zero_le _
  | ok valid =>
    simp only
    split
    · exact within
    · split_ifs
      · exact within
      · exact within

theorem readback_exact (fromisoformat : Text → Option Datetime) (T : Transport) (pageLimit : ℕ)
    (request : BillingReadbackRequest) (valid : validateActionRequest request = .ok ()) : (readback fromisoformat
    T pageLimit request).1.length ≤ pageLimit ∧ ∃ answer, (readback fromisoformat T pageLimit request).2 = .ok answer ∧
    (∀ cost, answer.status = .billed ∧ answer.actualCostUsd = some cost ↔ Billed fromisoformat T request pageLimit cost)
    ∧ (answer.status = .pending ↔ Pending fromisoformat T request pageLimit) ∧ (answer.status = .unknown ↔
    (¬∃ cost, Billed fromisoformat T request pageLimit cost) ∧ ¬Pending fromisoformat T request pageLimit) := by
  obtain ⟨answer, result, follows, decided⟩ := readback_result T pageLimit valid
  have billed : ∀ cost, answer.status = .billed ∧ answer.actualCostUsd = some cost ↔
      Billed fromisoformat T request pageLimit cost := by
    intro cost
    constructor
    · rintro ⟨status, amount⟩
      obtain ⟨pages, walk, rfl⟩ := decided (by rw [status]; nofun)
      obtain ⟨event, one, is⟩ := concluded_billed.1 ⟨status, amount⟩
      exact ⟨pages, event, walk, one, is⟩
    · rintro ⟨pages, event, walk, one, is⟩
      rw [follows pages walk]
      exact concluded_billed.2 ⟨event, one, is⟩
  have pending : answer.status = .pending ↔ Pending fromisoformat T request pageLimit := by
    constructor
    · intro status
      obtain ⟨pages, walk, rfl⟩ := decided (by rw [status]; nofun)
      exact ⟨pages, walk, concluded_pending.1 status⟩
    · rintro ⟨pages, walk, nothing⟩
      rw [follows pages walk]
      exact concluded_pending.2 nothing
  refine ⟨length_readback T pageLimit, answer, result, billed, pending, ?_, ?_⟩
  · intro status
    refine ⟨fun ⟨cost, is⟩ => ?_, fun is => ?_⟩
    · have other := ((billed cost).mpr is).1
      rw [status] at other
      cases other
    · have other := pending.mpr is
      rw [status] at other
      cases other
  · rintro ⟨unbilled, settled⟩
    by_contra known
    obtain ⟨pages, walk, rfl⟩ := decided known
    cases counted : (concluded request (eventsOf request pages)).status with
    | unknown => exact known counted
    | pending => exact settled (pending.mp counted)
    | billed =>
      have amount : ∃ cost, (concluded request (eventsOf request pages)).actualCostUsd = some cost := by
        unfold concluded at counted ⊢
        split at counted
        · cases counted
        · exact ⟨_, rfl⟩
        · cases counted
      obtain ⟨cost, amount⟩ := amount
      exact unbilled ⟨cost, (billed cost).mp ⟨counted, amount⟩⟩

/-! ## A sample -/

def sampleRequest : BillingReadbackRequest where
  requestId := text "fal-1"
  endpointId := text "fal-ai/flux"
  windowStart := ⟨0, some 0⟩
  windowEnd := ⟨10, some 0⟩

def sampleEvent (requestId : String) : Object :=
  .obj [(text "request_id", .str (text requestId)), (text "endpoint_id", .str (text "fal-ai/flux")),
    (text "timestamp", .str (text "5")), (text "quantity", .null), (text "output_units", .null),
    (text "unit", .null), (text "unit_price", .null), (text "percent_discount", .null),
    (text "cost_subtotal", .int 2), (text "cost_discount", .int 0),
    (text "cost_total", .num (.decimal (.finite false 15 (-1)))), (text "cost_estimate_nano_usd", .int 7)]

def sampleTransport : Transport
  | [_] => .ok (.obj [(text "billing_events", .arr [sampleEvent "fal-2"]),
      (text "next_cursor", .str (text "next")), (text "has_more", .bool true)])
  | _ => .ok (.obj [(text "billing_events", .arr [sampleEvent "fal-1"]), (text "has_more", .bool false)])

def sampleStamp (stamp : Text) : Option Datetime := if stamp = text "5" then some ⟨5, some 0⟩ else none

theorem readback_exact_sample : (readback sampleStamp sampleTransport 20 sampleRequest).1.length ≤ 20 ∧ ∃
    answer, (readback sampleStamp sampleTransport 20 sampleRequest).2 = .ok answer ∧ (∀ cost, answer.status = .billed ∧
    answer.actualCostUsd = some cost ↔ Billed sampleStamp sampleTransport sampleRequest 20 cost) ∧ (answer.status =
    .pending ↔ Pending sampleStamp sampleTransport sampleRequest 20) ∧ (answer.status = .unknown ↔ (¬∃ cost, Billed
    sampleStamp sampleTransport sampleRequest 20 cost) ∧ ¬Pending sampleStamp sampleTransport sampleRequest 20) :=
  readback_exact sampleStamp sampleTransport 20 sampleRequest (by decide)

example : ((readback sampleStamp sampleTransport 20 sampleRequest).2.map
    fun answer => (answer.status, answer.actualCostUsd)) = .ok (.billed, some (.finite false 15 (-1))) := by
  decide +kernel

end VideoPoster.Fal
