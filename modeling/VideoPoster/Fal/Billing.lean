import VideoPoster.Documents.Float
import VideoPoster.Python.Decimal

/-!
# `fal_billing`: the readback of billed events

A transport answers every query with a value of its own making, or fails.
-/

namespace VideoPoster.Fal
open Python Documents Entries

inductive Scalar where
  | float (value : Float64)
  | decimal (value : Decimal)
  | other

abbrev Object := Value Scalar

structure Datetime where
  moment : ℤ
  offset : Option ℤ

def maxIdLength : ℕ := 512

structure BillingReadbackRequest where
  requestId : Text
  endpointId : Text
  windowStart : Datetime
  windowEnd : Datetime

def OpaqueId (value : Text) : Prop :=
  value ≠ [] ∧ value.length ≤ maxIdLength ∧ (value.all fun c => 32 ≤ c.val) = true

instance (value : Text) : Decidable (OpaqueId value) := inferInstanceAs (Decidable (_ ∧ _ ∧ _))

def validateActionRequest (request : BillingReadbackRequest) : Result Unit := do
  require (OpaqueId request.endpointId) (.value "invalid endpoint_id")
  require (OpaqueId request.requestId) (.value "invalid request_id")
  require (request.windowStart.offset = some 0) (.value "start must be timezone-aware UTC")
  require (request.windowEnd.offset = some 0) (.value "end must be timezone-aware UTC")
  require (request.windowStart.moment < request.windowEnd.moment) (.value "start must precede end")

def opaqueId (value : Option Object) (label : String) : Result Text :=
  match value with
  | some (.str value) => do
    require (OpaqueId value) (.value s!"invalid {label}")
    pure value
  | some _ => .error (.value s!"invalid {label}")
  | none => .error (.key label)

def ofFloat (value : Float64) : Option Decimal :=
  value.literal.map fun literal => .finite literal.negative literal.mantissa literal.scale

def known (value : Decimal) : Prop := value.isFinite = true ∧ 0 ≤ value.toRat

instance (value : Decimal) : Decidable (known value) := inferInstanceAs (Decidable (_ ∧ _))

def decimal (value : Option Object) (label : String) : Result Decimal :=
  match value with
  | some (.int n) => do
    require (known (.finite (decide (n < 0)) n.natAbs 0)) (.value s!"invalid {label}")
    pure (.finite (decide (n < 0)) n.natAbs 0)
  | some (.num (.decimal value)) => do
    require (known value) (.value s!"invalid {label}")
    pure value
  | some (.num (.float value)) =>
    match ofFloat value with
    | some value => do
      require (known value) (.value s!"invalid {label}")
      pure value
    | none => .error (.value s!"invalid {label}")
  | some _ => .error (.type s!"invalid {label}")
  | none => .error (.key label)

def nullableDecimal (value : Option Object) (label : String) : Result Unit :=
  match value with
  | some .null => .ok ()
  | value => do
    let _ ← decimal value label
    pure ()

def nullableString (value : Option Object) (label : String) : Result Unit :=
  match value with
  | some .null => .ok ()
  | some (.str value) => require (value ≠ [] ∧ value.length ≤ maxIdLength) (.value s!"invalid {label}")
  | some _ => .error (.value s!"invalid {label}")
  | none => .error (.key label)

def nanoUsd (value : Option Object) : Result ℕ :=
  match value with
  | some (.int n) => do
    require (0 ≤ n) (.value "invalid cost_estimate_nano_usd")
    pure n.toNat
  | some _ => .error (.value "invalid cost_estimate_nano_usd")
  | none => .error (.key "cost_estimate_nano_usd")

structure Event where
  requestId : Text
  endpointId : Text
  costTotal : Decimal
  nano : ℕ

def eventFields : List Text :=
  ["request_id", "endpoint_id", "timestamp", "quantity", "output_units", "unit", "unit_price",
    "percent_discount", "cost_subtotal", "cost_discount", "cost_total",
    "cost_estimate_nano_usd"].map text

def orZero (value : Decimal) : Decimal := if value.toRat = 0 then .ofNat 0 else value

def InWindow (request : BillingReadbackRequest) (timestamp : Datetime) : Prop :=
  timestamp.offset.isSome = true ∧ request.windowStart.moment ≤ timestamp.moment ∧
    timestamp.moment < request.windowEnd.moment

instance (request : BillingReadbackRequest) (timestamp : Datetime) :
    Decidable (InWindow request timestamp) := inferInstanceAs (Decidable (_ ∧ _ ∧ _))

variable (fromisoformat : Text → Option Datetime)

def checkTimestamp (request : BillingReadbackRequest) (value : Option Object) : Result Unit :=
  match value with
  | some (.str stamp) =>
    match fromisoformat stamp with
    | none => .error (.value "invalid event timestamp")
    | some timestamp => require (InWindow request timestamp) (.value "event outside readback window")
  | some _ => .error (.type "invalid event timestamp")
  | none => .error (.key "timestamp")

def parseEvent (request : BillingReadbackRequest) (event : Entries Scalar) : Result Event := do
  require (event.keysAre eventFields = true) (.value "invalid FAL billing event")
  let field := fun name => event.get (text name)
  let requestId ← opaqueId (field "request_id") "event request_id"
  let endpointId ← opaqueId (field "endpoint_id") "event endpoint_id"
  checkTimestamp fromisoformat request (field "timestamp")
  nullableDecimal (field "quantity") "quantity"
  nullableDecimal (field "output_units") "output_units"
  nullableString (field "unit") "unit"
  nullableDecimal (field "unit_price") "unit_price"
  nullableDecimal (field "percent_discount") "percent_discount"
  let _ ← decimal (field "cost_subtotal") "cost_subtotal"
  let _ ← decimal (field "cost_discount") "cost_discount"
  let costTotal ← decimal (field "cost_total") "cost_total"
  let nano ← nanoUsd (field "cost_estimate_nano_usd")
  pure { requestId, endpointId, costTotal := orZero costTotal, nano }

def asObject : Object → Option (Entries Scalar)
  | .obj entries => some entries
  | _ => none

def pageItems : Option Object → Result (List (Entries Scalar))
  | some (.arr items) => do
    require (∀ item ∈ items, (asObject item).isSome = true) (.value "invalid FAL response items")
    pure (items.filterMap asObject)
  | _ => .error (.value "invalid FAL response items")

def pageCursor : Option Object → Result (Option Text)
  | none | some .null => .ok none
  | some (.str cursor) => do
    require (cursor ≠ [] ∧ cursor.length ≤ maxIdLength) (.value "invalid FAL response cursor")
    pure (some cursor)
  | some _ => .error (.value "invalid FAL response cursor")

def pageMore (value : Option Object) (cursor : Option Text) : Result Bool :=
  match value with
  | some (.bool more) => do
    require (more = cursor.isSome) (.value "incomplete FAL pagination")
    pure more
  | _ => .error (.value "incomplete FAL pagination")

def page (value : Object) : Result (List (Entries Scalar) × Option Text × Bool) :=
  match value with
  | .obj entries => do
    require (∀ key ∈ keys entries, key ∈ ["billing_events", "next_cursor", "has_more"].map text)
      (.value "invalid FAL response page")
    let items ← pageItems (get entries (text "billing_events"))
    let cursor ← pageCursor (get entries (text "next_cursor"))
    let more ← pageMore (get entries (text "has_more")) cursor
    pure (items, cursor, more)
  | _ => .error (.value "invalid FAL response page")

structure Params where
  requestId : Text
  endpointId : Text
  windowStart : Datetime
  windowEnd : Datetime
  cursor : Option Text := none

def BillingReadbackRequest.params (request : BillingReadbackRequest) : Params where
  requestId := request.requestId
  endpointId := request.endpointId
  windowStart := request.windowStart
  windowEnd := request.windowEnd

/-- The answer to the last of the queries so far, or the message of a `FalConsumerError`. -/
abbrev Transport := List Params → Except String Object

def consumerError (message : String) : Error := ⟨.other "FalConsumerError", message⟩

def answered (T : Transport) (asked : List Params) : Result Object :=
  (T asked).mapError consumerError

def caught : List ErrorKind := [.other "FalConsumerError", .valueError, .keyError, .typeError]

inductive BillingStatus where
  | billed | pending | unknown
  deriving DecidableEq

structure BillingReadback where
  status : BillingStatus
  requestId : Text
  endpointId : Text
  actualCostUsd : Option Decimal
  costEstimateNanoUsd : Option ℕ
  reason : Option String := none

def unknown (request : BillingReadbackRequest) (reason : String) : BillingReadback where
  status := .unknown
  requestId := request.requestId
  endpointId := request.endpointId
  actualCostUsd := none
  costEstimateNanoUsd := none
  reason := some reason

def Event.Matches (request : BillingReadbackRequest) (event : Event) : Prop :=
  event.requestId = request.requestId ∧ event.endpointId = request.endpointId

instance (request : BillingReadbackRequest) (event : Event) : Decidable (event.Matches request) :=
  inferInstanceAs (Decidable (_ ∧ _))

def matching (request : BillingReadbackRequest) : List (Entries Scalar) → Result (List Event)
  | [] => .ok []
  | event :: events => do
    let parsed ← parseEvent fromisoformat request event
    let others ← matching request events
    pure (if parsed.Matches request then parsed :: others else others)

def concluded (request : BillingReadbackRequest) : List Event → BillingReadback
  | [] =>
    { status := .pending, requestId := request.requestId, endpointId := request.endpointId,
      actualCostUsd := none, costEstimateNanoUsd := none }
  | [event] =>
    { status := .billed, requestId := request.requestId, endpointId := request.endpointId,
      actualCostUsd := some event.costTotal, costEstimateNanoUsd := some event.nano }
  | _ :: _ :: _ => unknown request "multiple matching billed events"

def readPage (T : Transport) (request : BillingReadbackRequest) (asked : List Params) :
    Result (List Event × Option Text × Bool) := do
  let answer ← answered T asked
  let (events, cursor, more) ← page answer
  let found ← matching fromisoformat request events
  pure (found, cursor, more)

def readPages (T : Transport) (request : BillingReadbackRequest) :
    ℕ → List Params → Params → List Text → List Event → List Params × Result BillingReadback
  | 0, asked, _, _, _ => (asked, .ok (unknown request "billing page limit reached"))
  | left + 1, asked, params, seenCursors, matched =>
    let asked := asked ++ [params]
    match readPage fromisoformat T request asked with
    | .error error => (asked, .error error)
    | .ok (found, cursor, more) =>
      if more = false then (asked, .ok (concluded request (matched ++ found)))
      else
        match cursor with
        | none => (asked, .ok (unknown request "incomplete billing pagination"))
        | some cursor =>
          if cursor ∈ seenCursors then
            (asked, .ok (unknown request "incomplete billing pagination"))
          else
            readPages T request left asked { params with cursor := some cursor }
              (seenCursors ++ [cursor]) (matched ++ found)

def readback (T : Transport) (pageLimit : ℕ) (request : BillingReadbackRequest) :
    List Params × Result BillingReadback :=
  match validateActionRequest request with
  | .error error => ([], .error error)
  | .ok () =>
    let (asked, result) := readPages fromisoformat T request pageLimit [] request.params [] []
    match result with
    | .ok readback => (asked, .ok readback)
    | .error error =>
      if error.kind ∈ caught then (asked, .ok (unknown request "billing readback unavailable"))
      else (asked, .error error)

end VideoPoster.Fal
