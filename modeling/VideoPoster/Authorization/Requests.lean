import Mathlib.Data.List.Sort
import VideoPoster.Approval.Inbound
import VideoPoster.Authorization.Amounts

/-!
# `_request_document`
-/

namespace VideoPoster.Authorization
open Python Encoding Approval

inductive One where
  | int | bool | float
  deriving DecidableEq

def One.value : One → JsonText.Value
  | .int => .int 1
  | .bool => .bool true
  | .float => .float 10 (-1)

structure Document where
  schema : One
  requestId : String
  episodeId : String
  policySha256 : String
  expiresAt : String
  allowedProviders : List String
  episodeCapUsd : String
  monthCapUsd : String
  experimentCapUsd : String
  deriving DecidableEq

def requestKeys : List String :=
  ["schema", "kind", "mode", "request_id", "episode_id", "policy_sha256", "expires_at", "allowed_providers",
    "currency", "caps_usd"]

def capKeys : List String := ["episode", "month", "experiment"]

def Document.caps (document : Document) : Entries :=
  [("episode", .str document.episodeCapUsd), ("month", .str document.monthCapUsd),
    ("experiment", .str document.experimentCapUsd)]

def Document.entries (document : Document) : Entries :=
  [("schema", document.schema.value), ("kind", .str "BUDGET_AUTHORIZATION"), ("mode", .str "TEST"),
    ("request_id", .str document.requestId), ("episode_id", .str document.episodeId),
    ("policy_sha256", .str document.policySha256), ("expires_at", .str document.expiresAt),
    ("allowed_providers", .arr (document.allowedProviders.map .str)), ("currency", .str "USD"),
    ("caps_usd", .obj document.caps)]

def Document.value (document : Document) : JsonText.Value := .obj document.entries

def field (entries : Entries) (key : String) : JsonText.Value := (entries.lookup key).getD .null

def closed (keys : List String) (message : String) : JsonText.Value → Result Entries
  | .obj entries => do
    require (hasKeys entries keys = true) (authorizationError message)
    pure entries
  | _ => .error (authorizationError message)

def one : JsonText.Value → Option One
  | .int n => if n = 1 then some .int else none
  | .bool b => if b then some .bool else none
  | .float mantissa scale => if equalsInt 1 (.float mantissa scale) then some .float else none
  | _ => none

def heading (entries : Entries) : Result One :=
  match one (field entries "schema") with
  | some schema => do
    require (equalsStr "BUDGET_AUTHORIZATION" (field entries "kind") = true ∧
        equalsStr "TEST" (field entries "mode") = true)
      (authorizationError "BUDGET_AUTHORIZATION schema, kind and mode are required")
    pure schema
  | none => .error (authorizationError "BUDGET_AUTHORIZATION schema, kind and mode are required")

def identifier (text : String) : Bool :=
  match text.toList with
  | [] => false
  | first :: rest => first.isAlphanum && decide (rest.length ≤ 127) &&
      rest.all fun c => c.isAlphanum || c = '.' || c = '_' || c = '-'

def hash (text : String) : Bool :=
  decide (text.length = 64) && text.toList.all fun c => "0123456789abcdef".toList.contains c

def matching (form : String → Bool) (message : String) : JsonText.Value → Result String
  | .str text => do
    require (form text = true) (authorizationError message)
    pure text
  | _ => .error (authorizationError message)

def texts : List JsonText.Value → Option (List String)
  | [] => some []
  | .str text :: rest => (texts rest).map (text :: ·)
  | _ :: _ => none

def unhashable : JsonText.Value → Bool
  | .arr _ | .obj _ => true
  | _ => false

def providers : JsonText.Value → Result (List String)
  | .arr items => do
    require (items ≠ []) (authorizationError "BUDGET_AUTHORIZATION allowed providers are invalid")
    require (items.any unhashable = false) (.type "unhashable type")
    match texts items with
    | some names => do
      require (names.Nodup ∧ names.all identifier = true)
        (authorizationError "BUDGET_AUTHORIZATION allowed providers are invalid")
      pure (names.insertionSort (· ≤ ·))
    | none => .error (authorizationError "BUDGET_AUTHORIZATION allowed providers are invalid")
  | _ => .error (authorizationError "BUDGET_AUTHORIZATION allowed providers are invalid")

def expiry (T : Texts) (now : ℤ) : JsonText.Value → Result String
  | .str text =>
    match T.fromisoformat text with
    | none => .error (authorizationError "BUDGET_AUTHORIZATION expiry is invalid")
    | some .naive => .error (authorizationError "BUDGET_AUTHORIZATION is expired")
    | some .outOfRange => .error ⟨.other "OverflowError", "date value out of range"⟩
    | some (.aware microseconds) => do
      require (now < microseconds) (authorizationError "BUDGET_AUTHORIZATION is expired")
      pure (T.isoformat microseconds)
  | _ => .error (authorizationError "BUDGET_AUTHORIZATION expiry is required")

def requestDocument (T : Texts) (now : ℤ) (raw : JsonText.Value) : Result Document := do
  let entries ← closed requestKeys "BUDGET_AUTHORIZATION request must use the closed schema" raw
  let schema ← heading entries
  let requestId ← matching identifier "BUDGET_AUTHORIZATION request_id is invalid" (field entries "request_id")
  let episodeId ← matching identifier "BUDGET_AUTHORIZATION episode_id is invalid" (field entries "episode_id")
  let policySha256 ← matching hash "BUDGET_AUTHORIZATION policy hash is invalid" (field entries "policy_sha256")
  require (equalsStr "USD" (field entries "currency") = true)
    (authorizationError "BUDGET_AUTHORIZATION currency must be USD")
  let allowedProviders ← providers (field entries "allowed_providers")
  let caps ← closed capKeys "BUDGET_AUTHORIZATION requires exact episode/month/experiment caps"
    (field entries "caps_usd")
  let episodeCapUsd ← positiveUsd T (field caps "episode") "BUDGET_AUTHORIZATION episode cap"
  let experimentCapUsd ← positiveUsd T (field caps "experiment") "BUDGET_AUTHORIZATION experiment cap"
  let monthCapUsd ← positiveUsd T (field caps "month") "BUDGET_AUTHORIZATION month cap"
  let expiresAt ← expiry T now (field entries "expires_at")
  pure ⟨schema, requestId, episodeId, policySha256, expiresAt, allowedProviders, episodeCapUsd, monthCapUsd,
    experimentCapUsd⟩

section Again
variable {T : Texts} {now : ℤ} {raw : JsonText.Value} {document : Document}

theorem texts_map (names : List String) : texts (names.map .str) = some names := by
  induction names with
  | nil => rfl
  | cons name rest ih => simp [texts, ih]

theorem any_unhashable_map (names : List String) : (names.map JsonText.Value.str).any unhashable = false := by
  simp [unhashable]

variable {text : String} {value : JsonText.Value}

theorem matching_ok {form : String → Bool} {message : String}
    (accepted : matching form message value = .ok text) : value = .str text ∧ form text = true := by
  cases value with
  | str other =>
    simp only [matching, bind_eq_ok, require_eq_ok, exists_const, pure_eq_ok] at accepted
    obtain ⟨formed, rfl⟩ := accepted
    exact ⟨rfl, formed⟩
  | _ => cases accepted

theorem providers_ok {names : List String} (accepted : providers value = .ok names) :
    names ≠ [] ∧ names.Nodup ∧ names.all identifier = true ∧ names.Pairwise (· ≤ ·) := by
  cases value with
  | arr items =>
    simp only [providers, bind_eq_ok, require_eq_ok, exists_const] at accepted
    obtain ⟨some_item, -, accepted⟩ := accepted
    cases read : texts items with
    | none => simp [read] at accepted
    | some given =>
      simp only [read, bind_eq_ok, require_eq_ok, exists_const, pure_eq_ok] at accepted
      obtain ⟨⟨unique, formed⟩, rfl⟩ := accepted
      have perm := List.perm_insertionSort (· ≤ ·) given
      refine ⟨fun none => some_item ?_, perm.nodup_iff.mpr unique, ?_, List.pairwise_insertionSort _ _⟩
      · rw [none] at perm
        rw [perm.symm.eq_nil] at read
        cases items with
        | nil => rfl
        | cons item rest => cases item <;> simp [texts] at read
      · rw [List.all_eq_true] at formed ⊢
        exact fun name listed => formed name (perm.subset listed)
  | _ => cases accepted

theorem providers_again {names : List String} (some_name : names ≠ []) (unique : names.Nodup) (formed :
    names.all identifier = true) (sorted : names.Pairwise (· ≤ ·)) : providers (.arr (names.map .str)) = .ok names := by
  unfold providers
  simp only [bind_eq_ok, require_eq_ok, exists_const, texts_map, pure_eq_ok]
  refine ⟨by simpa using some_name, any_unhashable_map names, ⟨unique, formed⟩, ?_⟩
  exact sorted.insertionSort_eq

theorem expiry_ok (accepted : expiry T now value = .ok text) :
    ∃ t, now < t ∧ T.fromisoformat text = some (.aware t) ∧ text = T.isoformat t := by
  cases value with
  | str given =>
    simp only [expiry] at accepted
    cases read : T.fromisoformat given with
    | none => simp [read] at accepted
    | some moment =>
      cases moment with
      | naive => simp [read] at accepted
      | outOfRange => simp [read] at accepted
      | aware t =>
        simp only [read, bind_eq_ok, require_eq_ok, exists_const, pure_eq_ok] at accepted
        obtain ⟨before, rfl⟩ := accepted
        exact ⟨t, before, T.fromisoformat_isoformat read, rfl⟩
  | _ => cases accepted

theorem expiry_again {t : ℤ} (read : T.fromisoformat text = some (.aware t))
    (written : text = T.isoformat t) : expiry T now (.str text) = .ok text ↔ now < t := by
  simp only [expiry, read, bind_eq_ok, require_eq_ok, exists_const, pure_eq_ok, ← written, and_true]

structure Document.Normal (T : Texts) (document : Document) : Prop where
  requestId : identifier document.requestId = true
  episodeId : identifier document.episodeId = true
  policySha256 : hash document.policySha256 = true
  providers : document.allowedProviders ≠ [] ∧ document.allowedProviders.Nodup ∧
    document.allowedProviders.all identifier = true ∧ document.allowedProviders.Pairwise (· ≤ ·)
  expiry : ∃ t, T.fromisoformat document.expiresAt = some (.aware t) ∧ document.expiresAt = T.isoformat t

def Document.expires (T : Texts) (document : Document) : Option ℤ :=
  match T.fromisoformat document.expiresAt with
  | some (.aware t) => some t
  | _ => none

structure Document.KeepsCaps (T : Texts) (document : Document) : Prop where
  episode : positiveUsd T (.str document.episodeCapUsd) "BUDGET_AUTHORIZATION episode cap" =
    .ok document.episodeCapUsd
  experiment : positiveUsd T (.str document.experimentCapUsd) "BUDGET_AUTHORIZATION experiment cap" =
    .ok document.experimentCapUsd
  month : positiveUsd T (.str document.monthCapUsd) "BUDGET_AUTHORIZATION month cap" = .ok document.monthCapUsd

def capGiven (raw : JsonText.Value) (key : String) : JsonText.Value :=
  match raw with
  | .obj entries =>
    match field entries "caps_usd" with
    | .obj caps => field caps key
    | _ => .null
  | _ => .null

theorem closed_ok {keys : List String} {message : String} {entries : Entries}
    (accepted : closed keys message value = .ok entries) : value = .obj entries ∧ hasKeys entries keys = true := by
  cases value with
  | obj given =>
    simp only [closed, bind_eq_ok, require_eq_ok, exists_const, pure_eq_ok] at accepted
    obtain ⟨exact, rfl⟩ := accepted
    exact ⟨rfl, exact⟩
  | _ => cases accepted

theorem requestDocument_ok (accepted : requestDocument T now raw = .ok document) :
    document.Normal T ∧ (∃ t, document.expires T = some t ∧ now < t) ∧
      positiveUsd T (capGiven raw "episode") "BUDGET_AUTHORIZATION episode cap" = .ok document.episodeCapUsd ∧
      positiveUsd T (capGiven raw "experiment") "BUDGET_AUTHORIZATION experiment cap" =
        .ok document.experimentCapUsd ∧
      positiveUsd T (capGiven raw "month") "BUDGET_AUTHORIZATION month cap" = .ok document.monthCapUsd := by
  simp only [requestDocument, bind_eq_ok, require_eq_ok, exists_const, pure_eq_ok] at accepted
  obtain ⟨entries, opened, schema, -, requestId, request, episodeId, episode, policy, hashed, -, names, listed, caps,
    inner, episodeCap, first, experimentCap, second, monthCap, third, expiresAt, expires, rfl⟩ := accepted
  obtain ⟨rfl, -⟩ := closed_ok opened
  obtain ⟨same, -⟩ := closed_ok inner
  obtain ⟨t, before, read, written⟩ := expiry_ok expires
  have given (key : String) : capGiven (.obj entries) key = field caps key := by
    simp only [capGiven, same]
  refine ⟨⟨(matching_ok request).2, (matching_ok episode).2, (matching_ok hashed).2, providers_ok listed,
    t, read, written⟩, ⟨t, by simp only [Document.expires, read], before⟩, ?_⟩
  rw [given, given, given]
  exact ⟨first, second, third⟩

theorem requestDocument_value (normal : document.Normal T) : requestDocument T now document.value = .ok document ↔
      document.KeepsCaps T ∧ ∃ t, document.expires T = some t ∧ now < t := by
  obtain ⟨t, read, written⟩ := normal.expiry
  have expires : document.expires T = some t := by simp only [Document.expires, read]
  have again : expiry T now (.str document.expiresAt) = .ok document.expiresAt ↔ now < t := expiry_again read written
  constructor
  · intro accepted
    obtain ⟨-, moment, episode, experiment, month⟩ := requestDocument_ok accepted
    exact ⟨⟨episode, experiment, month⟩, moment⟩
  rintro ⟨⟨episode, experiment, month⟩, t', same, before⟩
  cases expires.symm.trans same
  obtain ⟨some_name, unique, formed, sorted⟩ := normal.providers
  have first : one document.schema.value = some document.schema := by
    cases document.schema <;> decide
  have headed : heading document.entries = .ok document.schema := by
    unfold heading
    rw [show field document.entries "schema" = document.schema.value from rfl, first]
    rfl
  have form (form : String → Bool) (message text : String) (formed : form text = true) :
      matching form message (.str text) = .ok text := by
    simp only [matching, bind_eq_ok, require_eq_ok, exists_const, pure_eq_ok]
    exact ⟨formed, trivial⟩
  simp only [requestDocument, bind_eq_ok, require_eq_ok, exists_const, pure_eq_ok]
  exact ⟨document.entries, rfl, document.schema, headed, document.requestId, form _ _ _ normal.requestId,
    document.episodeId, form _ _ _ normal.episodeId, document.policySha256, form _ _ _ normal.policySha256, rfl,
    document.allowedProviders, providers_again some_name unique formed sorted, document.caps, rfl,
    document.episodeCapUsd, episode, document.experimentCapUsd, experiment, document.monthCapUsd, month,
    document.expiresAt, again.mpr before, rfl⟩

theorem requestDocument_expired {t : ℤ} {other : Document} (expires : document.expires T = some t) (late : t ≤ now) :
    requestDocument T now document.value ≠ .ok other := by
  intro accepted
  simp only [requestDocument, bind_eq_ok] at accepted
  obtain ⟨entries, opened, _, -, _, -, _, -, _, -, _, -, _, -, _, -, _, -, _, -, _, -, expiresAt, unexpired, -⟩ := accepted
  obtain ⟨same, -⟩ := closed_ok opened
  cases same
  change expiry T now (.str document.expiresAt) = .ok expiresAt at unexpired
  unfold Document.expires at expires
  cases read : T.fromisoformat document.expiresAt with
  | none => simp [read] at expires
  | some moment =>
    cases moment with
    | naive | outOfRange => simp [read] at expires
    | aware t' =>
      simp only [read, Option.some.injEq] at expires
      simp only [expiry, read, bind_eq_ok, require_eq_ok, exists_const] at unexpired
      omega

def CapVanishes (T : Texts) (raw : JsonText.Value) : Prop := ∃ key ∈ capKeys, T.Vanishes (capGiven raw key)

variable (accepted : requestDocument T now raw = .ok document)
include accepted

theorem Document.keepsCaps_iff : document.KeepsCaps T ↔ ¬ CapVanishes T raw := by
  obtain ⟨-, -, episode, experiment, month⟩ := requestDocument_ok accepted
  have each : ¬ CapVanishes T raw ↔ ¬ T.Vanishes (capGiven raw "episode") ∧
      ¬ T.Vanishes (capGiven raw "month") ∧ ¬ T.Vanishes (capGiven raw "experiment") := by
    simp [CapVanishes, capKeys]
  rw [each]
  constructor
  · rintro ⟨first, second, third⟩
    exact ⟨(positiveUsd_again episode).mp first, (positiveUsd_again month).mp third,
      (positiveUsd_again experiment).mp second⟩
  · rintro ⟨first, third, second⟩
    exact ⟨(positiveUsd_again episode).mpr first, (positiveUsd_again experiment).mpr second,
      (positiveUsd_again month).mpr third⟩

theorem requestDocument_again : (∀ t later, document.expires T =
    some t → later < t → requestDocument T later document.value = .ok document) ↔ ¬ CapVanishes T raw := by
  obtain ⟨normal, ⟨t, expires, before⟩, -⟩ := requestDocument_ok accepted
  rw [← document.keepsCaps_iff accepted]
  constructor
  · intro always
    exact ((requestDocument_value normal).mp (always t now expires before)).1
  · intro keeps t later expires before
    exact (requestDocument_value normal).mpr ⟨keeps, t, expires, before⟩

end Again
end VideoPoster.Authorization
