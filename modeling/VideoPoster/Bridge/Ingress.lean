import Mathlib.Algebra.Order.Ring.Rat
import Mathlib.Algebra.Order.Group.Unbundled.Abs
import VideoPoster.Encoding.JsonText
import VideoPoster.Python.Basic
import VideoPoster.Tables.Table

/-!
# `hermes_inbound_bridge`: signed envelopes of raw updates
-/

namespace VideoPoster.Bridge
open Python Tables Encoding

structure HermesBridgeConfig where
  instanceId : String
  hmacKey : String
  keyed : hmacKey ≠ ""
  named : instanceId ≠ "" ∧ instanceId.length ≤ 256

def domain : ByteArray := "hermes-studio-approval-bridge/v1\x00".toUTF8

def maxBody : ℕ := 65536

def maxSkewSeconds : ℚ := 300

def boundedAscii (nonce : String) : Prop :=
  nonce.toList.all (fun c => decide (c.toNat < 0x80)) ∧ 8 ≤ nonce.length ∧ nonce.length ≤ 128

instance (nonce : String) : Decidable (boundedAscii nonce) := inferInstanceAs (Decidable (_ ∧ _))

def envelopeMembers (config : HermesBridgeConfig) (rawUpdate : List UInt8) (nonce : String)
    (timestamp : ℕ) : List (String × JsonText.Scalar) :=
  [("instance", .str config.instanceId), ("nonce", .str nonce),
    ("raw_update_b64", .str (.ofList (Base64.encode rawUpdate))), ("timestamp", .nat timestamp),
    ("version", .nat 1)]

def canonicalEnvelope (config : HermesBridgeConfig) (rawUpdate : List UInt8) (nonce : String)
    (timestamp : ℤ) : Result ByteArray := do
  require (rawUpdate ≠ [] ∧ rawUpdate.length ≤ maxBody) (.value "raw update is not bounded bytes")
  require (boundedAscii nonce) (.value "nonce must be bounded ASCII")
  require (0 < timestamp) (.value "timestamp must be a positive integer")
  pure (JsonText.dumps (envelopeMembers config rawUpdate nonce timestamp.toNat)).toUTF8

structure Headers where
  version : Option String
  instanceId : Option String
  signature : Option String

structure Replay where
  nonce : String
  digest : String

abbrev Replays := Table Replay.nonce

def loadJson (body : ByteArray) : Option (List (String × JsonText.Value)) :=
  match (String.fromUTF8? body).bind JsonText.loads with
  | some (.obj entries) => some entries
  | _ => none

def envelopeKeys : List String := ["instance", "nonce", "raw_update_b64", "timestamp", "version"]

def sameKeys (keys : List String) : Bool := keys.all (· ∈ envelopeKeys) && envelopeKeys.all (· ∈ keys)

def isOne : JsonText.Value → Bool
  | .int n => n = 1
  | .bool b => b
  | .float mantissa scale =>
    if 0 ≤ scale then mantissa * 10 ^ scale.toNat = 1 else mantissa = 10 ^ (-scale).toNat
  | _ => false

def readEnvelope (config : HermesBridgeConfig) (now : ℚ)
    (entries : List (String × JsonText.Value)) : Option (String × List UInt8) :=
  if sameKeys (entries.map Prod.fst) then
    match entries.lookup "version", entries.lookup "instance", entries.lookup "timestamp",
      entries.lookup "nonce", entries.lookup "raw_update_b64" with
    | some version, some (.str instanceId), some (.int timestamp), some (.str nonce),
      some (.str encoded) =>
        if isOne version ∧ instanceId = config.instanceId ∧ |now - timestamp| ≤ maxSkewSeconds ∧
            boundedAscii nonce then
          match Base64.decode encoded.toList with
          | some raw => if raw ≠ [] ∧ raw.length ≤ maxBody then some (nonce, raw) else none
          | none => none
        else none
    | _, _, _, _, _ => none
  else none

section Ingress
variable (sha256 : ByteArray → String) (hmac : String → ByteArray → String)
variable (config : HermesBridgeConfig)

def rememberOrMatch (replays : Replays) (failure : Bool) (nonce : String) (envelope : ByteArray) :
    Replays × Bool :=
  if failure then (replays, false)
  else
    match replays.find? nonce with
    | none => (replays.put ⟨nonce, sha256 envelope⟩, true)
    | some row => (replays, row.digest = sha256 envelope)

def compareDigest (given expected : String) : Result Bool := do
  require (given.toList.all fun c => decide (c.toNat < 0x80))
    (.type "comparing strings with non-ASCII characters is not supported")
  pure (given = expected)

def expectedSignature (body : ByteArray) : String := hmac config.hmacKey (domain ++ body)

def signed (body : ByteArray) (headers : Headers) : Result Bool :=
  match headers.signature with
  | some signature =>
    if headers.version = some "1" ∧ headers.instanceId = some config.instanceId ∧
        startsWith signature "v1=" then
      compareDigest (.ofList (signature.toList.drop 3)) (expectedSignature hmac config body)
    else .ok false
  | none => .ok false

def verify (replays : Replays) (now : ℚ) (failure : Bool) (body : ByteArray) (headers : Headers) :
    Replays × Result (Option (List UInt8)) :=
  if body.size = 0 ∨ maxBody < body.size then (replays, .ok none)
  else
    match signed hmac config body headers with
    | .error error => (replays, .error error)
    | .ok false => (replays, .ok none)
    | .ok true =>
      match (loadJson body).bind (readEnvelope config now) with
      | none => (replays, .ok none)
      | some (nonce, raw) =>
        match rememberOrMatch sha256 replays failure nonce body with
        | (replays, true) => (replays, .ok (some raw))
        | (replays, false) => (replays, .ok none)

end Ingress
end VideoPoster.Bridge
