import VideoPoster.Interleaving.Undisturbed
import VideoPoster.Throughput.Wave

/-!
# `revision` and `revision_live`: the visual review of an image
-/

namespace VideoPoster.RevisionLive
open Python Interleaving Throughput Dict Function

namespace Review

inductive Mode where
  | test | live
  deriving DecidableEq

/-- What the executor's receipt says of a completed image; `inside` says that it lies in the revision. -/
structure Image where
  requestId : String
  scene : String
  result : String
  resultSha256 : String
  inside : Bool

structure Intent where
  resultSha256 : String
  mode : Mode

structure Verdict where
  approved : Bool
  reviewer : String
  failureCode : Option String

structure QaFile where
  resultSha256 : String
  approved : Bool
  reviewer : String

structure ReviewReceipt where
  decision : Dict
  response : Json

/-- The deployment's reviewer and the readers of foreign texts: `amount` of `str(value)`, `strict_json`,
and the hash of a scene and a result. -/
structure Service where
  reviewCount : ℕ
  reviewCap : ℚ
  capText : String
  model : String
  authority : String
  amount : Json → Option ℚ
  strictJson : Json → Option Json
  digest : String → String → String

def failureCodes : List String := ["CAST", "GARMENT", "ACTION", "IDENTITY", "SOURCE", "TIMING"]

def textOf : Json → Option String
  | .str text => some text
  | _ => none

def objectOf : Json → Option Dict
  | .obj dict => some dict
  | _ => none

def given (dict : Dict) (key : String) : Bool := ((get dict key).map truthy).getD false

def keysWithin (dict : Dict) (required allowed : List String) : Bool :=
  required.all dict.hasKey && dict.all fun entry => entry.1 ∈ allowed

def messageContent (service : Service) (response : Json) : Option Json := do
  let response ← objectOf response
  guard (given response "error" = false ∧ get response "model" = some (.str service.model))
  let .arr [choice] ← get response "choices" | none
  let choice ← objectOf choice
  let message ← (get choice "message").bind objectOf
  guard (get choice "finish_reason" = some (.str "stop") ∧ given message "refusal" = false ∧
    given message "tool_calls" = false)
  let usage ← (get response "usage").bind objectOf
  let cost ← (get usage "cost").bind service.amount
  guard (cost ≤ service.reviewCap)
  get message "content"

def verdictResult (result : Dict) (scene resultSha256 : String) : Option (Option String) := do
  let required := ["scene_id", "result_sha256", "verdict", "reason"]
  guard (keysWithin result required (required ++ ["failure_code"]) = true ∧
    get result "scene_id" = some (.str scene) ∧
    get result "result_sha256" = some (.str resultSha256))
  let verdict ← (get result "verdict").bind textOf
  let reason ← (get result "reason").bind textOf
  guard (blank reason = false)
  if verdict = "PASS" then do
    guard (hasKey result "failure_code" = false)
    pure none
  else do
    guard (verdict = "FAIL")
    let code ← (get result "failure_code").bind textOf
    guard (code ∈ failureCodes)
    pure (some code)

def decisionOf (service : Service) (scene resultSha256 : String) (code : Option String) : Dict :=
  [("scene_id", .str scene), ("result_sha256", .str resultSha256), ("approved", .bool code.isNone),
    ("reviewer", .str ("OpenRouter:" ++ service.model ++ ":" ++ service.authority))] ++
    code.toList.map fun code => ("failure_code", .str code)

def reviewedCode (service : Service) (response : Json) (scene resultSha256 : String) :
    Option (Option String) := do
  let content ← messageContent service response
  let result ← (service.strictJson content).bind objectOf
  verdictResult result scene resultSha256

def parseReview (service : Service) (response : Json) (scene resultSha256 : String) : Result Dict :=
  match reviewedCode service response scene resultSha256 with
  | some code => .ok (decisionOf service scene resultSha256 code)
  | none => .error (.value "malformed or ambiguous independent visual review")

def checkDecision (image : Image) (packetSha256 : String) (decision : Dict) : Result Unit := do
  let invalid := Error.value "invalid independent visual QA"
  let required := ["scene_id", "result_sha256", "approved", "reviewer"]
  require (keysWithin decision required (required ++ ["failure_code"]) = true ∧
    get decision "scene_id" = some (.str image.scene) ∧
    get decision "result_sha256" = some (.str packetSha256)) invalid
  let approved ← match get decision "approved" with
    | some (.bool approved) => pure approved
    | _ => .error invalid
  match get decision "reviewer" with
  | some (.str reviewer) => require (blank reviewer = false) invalid
  | _ => .error ⟨.other "AttributeError", "strip"⟩
  require (approved = true → hasKey decision "failure_code" = false) invalid
  require (approved = false → ((get decision "failure_code").bind textOf).isSome = true) invalid

def verdictOf (decision : Dict) : Verdict where
  approved := decide (get decision "approved" = some (.bool true))
  reviewer := ((get decision "reviewer").bind textOf).getD ""
  failureCode := (get decision "failure_code").bind textOf

structure Packet where
  resultSha256 : String
  technicalPass : Bool

structure Picture where
  statSize : ℕ
  mime : Result String
  length : ℕ
  sha256 : String

structure Request where
  scene : String
  resultSha256 : String
  imageOrder : List String
  pictures : List (String × String)

inductive Act where
  | inspect (requestId : String)
  | qaFile (requestId : String)
  | fresh (path : String)
  | packet (image : Image)
  | decision (requestId : String)
  | intent (requestId : String)
  | writeIntent (requestId : String) (intent : Intent)
  | preflight
  | references
  | candidate (path : String)
  | manifest
  | picture (path : String)
  | reserve (key capText : String) (reviewCount : ℕ)
  | secret
  | send (request : Request)
  | keep (key : String) (receipt : ReviewReceipt)
  | writeDecision (requestId : String) (decision : Dict)
  | completedJob (scene resultSha256 : String)
  | commit (requestId : String) (verdict : Verdict)
  | writeQa (requestId : String) (file : QaFile)
  | promote (image : Image)

abbrev Act.Res : Act → Type
  | .inspect _ => Option Verdict
  | .qaFile _ => Option QaFile
  | .fresh _ => Result Unit
  | .packet _ => Result Packet
  | .decision _ => Option Dict
  | .intent _ => Bool
  | .writeIntent _ _ => Result Unit
  | .preflight => Result Unit
  | .references => Bool
  | .candidate _ => Result (Bool × String)
  | .manifest => Result (List (String × String))
  | .picture _ => Result Picture
  | .reserve _ _ _ => Result Unit
  | .secret => Result Unit
  | .send _ => Option Json
  | .keep _ _ => Result Unit
  | .writeDecision _ _ => Result Unit
  | .completedJob _ _ => Result Unit
  | .commit _ _ => Result Unit
  | .writeQa _ _ => Result Unit
  | .promote _ => Result Unit

abbrev actions : Interface := ⟨Act, Act.Res⟩

structure World where
  intents : String → Option Intent
  ledger : Dict
  receipts : String → Option ReviewReceipt
  decisions : String → Option Dict
  verdicts : String → Option Verdict
  qa : String → Option QaFile

def World.start : World := ⟨fun _ => none, [], fun _ => none, fun _ => none, fun _ => none, fun _ => none⟩

structure Oracle where
  failure : Option Error
  fresh : Result Unit
  packet : Image → Result Packet
  preflight : Result Unit
  sameReferences : Bool
  candidate : String → Result (Bool × String)
  manifest : Result (List (String × String))
  picture : String → Result Picture
  secret : Result Unit
  response : Option Json
  completedJob : Result Unit
  commit : Result Unit
  promote : Result Unit

def World.exhausted (w : World) (key : String) (reviewCount : ℕ) : Bool :=
  w.ledger.hasKey key || decide (reviewCount ≤ w.ledger.length)

def exec (oracle : Oracle) (_ : ℕ) (w : World) : (action : Act) → Option (World × action.Res)
  | .inspect requestId => some (w, w.verdicts requestId)
  | .qaFile requestId => some (w, w.qa requestId)
  | .fresh _ => some (w, oracle.fresh)
  | .packet image => some (w, oracle.packet image)
  | .decision requestId => some (w, w.decisions requestId)
  | .intent requestId => some (w, (w.intents requestId).isSome)
  | .writeIntent requestId intent =>
    some (written oracle.failure w
      { w with intents := update w.intents requestId (some intent) })
  | .preflight => some (w, oracle.preflight)
  | .references => some (w, oracle.sameReferences)
  | .candidate path => some (w, oracle.candidate path)
  | .manifest => some (w, oracle.manifest)
  | .picture path => some (w, oracle.picture path)
  | .reserve key capText reviewCount =>
    if w.exhausted key reviewCount then
      some (w, .error (.value "ambiguous or exhausted visual review authority"))
    else some (written oracle.failure w { w with ledger := w.ledger ++ [(key, .str capText)] })
  | .secret => some (w, oracle.secret)
  | .send _ => some (w, oracle.response)
  | .keep key receipt =>
    some (written oracle.failure w
      { w with receipts := update w.receipts key (some receipt) })
  | .writeDecision requestId decision =>
    some (written oracle.failure w
      { w with decisions := update w.decisions requestId (some decision) })
  | .completedJob _ _ => some (w, oracle.completedJob)
  | .commit requestId verdict =>
    some (match oracle.commit with
      | .ok () => ({ w with verdicts := update w.verdicts requestId (some verdict) }, .ok ())
      | .error error => (w, .error error))
  | .writeQa requestId file =>
    some (written oracle.failure w { w with qa := update w.qa requestId (some file) })
  | .promote _ => some (w, oracle.promote)

abbrev machine : Machine actions where
  World := World
  Oracle := Oracle
  exec := exec
  crash := fun _ => id

abbrev Program (α : Type) := Prog actions Error α

namespace Program

def require (condition : Prop) [Decidable condition] (error : Error) : Program Unit :=
  .ofExcept (Python.require condition error)

def ambiguous : Error := .value "ambiguous LIVE visual QA; reconciliation required"

def selfAsserted : Error :=
  .value "LIVE visual QA requires trusted reviewer evidence; self-asserted identity is non-promotable"

def byteLimit : ℕ := 8 * 2 ^ 20

def pictures : List (String × String) → Program (List (String × String))
  | [] => pure []
  | (path, checksum) :: rest => do
    let seen ← Prog.request (.picture path) id
    require (seen.statSize ≤ byteLimit) (.value "review image byte limit")
    let mime ← Prog.ofExcept seen.mime
    require (seen.length ≤ byteLimit ∧ seen.sha256 = checksum)
      (.value "review image bytes changed before submission")
    let others ← pictures rest
    pure ((mime, checksum) :: others)

def prepared (image : Image) (packetSha256 : String) : Program Request := do
  Prog.request .preflight id
  let same : Bool ← .act .references .pure
  require same (.value "review reference mismatch")
  let (inside, sha256) ← Prog.request (.candidate image.result) id
  require (inside = true ∧ sha256 = packetSha256) (.value "review candidate hash mismatch")
  let assets ← Prog.request .manifest id
  let content ← pictures ((image.result, packetSha256) :: assets)
  pure ⟨image.scene, packetSha256, "candidate" :: assets.map Prod.snd, content⟩

def visualQa (service : Service) (image : Image) (packetSha256 : String) : Program Dict := do
  let request ← prepared image packetSha256
  let key := service.digest image.scene packetSha256
  Prog.request (.reserve key service.capText service.reviewCount) id
  Prog.request .secret id
  let response ← Prog.request (.send request) fun response =>
    match response with
    | some response => .ok response
    | none => .error (.value "visual reviewer response unavailable; reconciliation required")
  let decision ← Prog.ofExcept (parseReview service response image.scene packetSha256)
  Prog.request (.keep key ⟨decision, response⟩) id
  pure decision

def recordVisualQa (mode : Mode) (image : Image) (resultSha256 : String) (verdict : Verdict) :
    Program Unit := do
  require (verdict.approved = true → verdict.failureCode = none)
    (.value "approved visual QA cannot carry a failure code")
  require (∀ code ∈ verdict.failureCode, code ∈ failureCodes)
    (.value "closed semantic finding code is invalid")
  Prog.request (.completedJob image.scene resultSha256) id
  let packet ← Prog.request (.packet image) id
  require (packet.resultSha256 = resultSha256 ∧ packet.technicalPass = true)
    (.value "technical QA must pass before semantic reviewer")
  require (mode ≠ .live) selfAsserted
  Prog.request (.commit image.requestId verdict) id
  Prog.request
    (.writeQa image.requestId ⟨resultSha256, verdict.approved, verdict.reviewer⟩) id
  if verdict.approved then Prog.request (.promote image) id else pure ()

def decided (service : Service) (mode : Mode) (image : Image) (packetSha256 : String) :
    Program Dict := do
  let stored : Option Dict ← .act (.decision image.requestId) .pure
  match stored with
  | some decision => pure decision
  | none => do
    let there : Bool ← .act (.intent image.requestId) .pure
    require (there = true → mode ≠ .live) ambiguous
    Prog.request (.writeIntent image.requestId ⟨packetSha256, mode⟩) id
    visualQa service image packetSha256

def judged (service : Service) (mode : Mode) (image : Image) : Program Unit := do
  require (image.inside = true) (.value "generated candidate must be inside current revision")
  Prog.request (.fresh image.result) id
  let packet ← Prog.request (.packet image) id
  let decision ← decided service mode image packet.resultSha256
  Prog.ofExcept (checkDecision image packet.resultSha256 decision)
  Prog.request (.writeDecision image.requestId decision) id
  recordVisualQa mode image packet.resultSha256 (verdictOf decision)

def review (service : Service) (mode : Mode) (image : Image) : Program Unit := do
  let verdict : Option Verdict ← .act (.inspect image.requestId) .pure
  let file : Option QaFile ← .act (.qaFile image.requestId) .pure
  match file, verdict with
  | some file, verdict => do
    require (file.resultSha256 = image.resultSha256) (.value "stale visual QA")
    require (verdict.map Verdict.approved = some file.approved ∧
        verdict.map Verdict.reviewer = some file.reviewer)
      (.value "visual QA differs from immutable executor receipt")
  | none, some verdict => recordVisualQa mode image image.resultSha256 verdict
  | none, none => judged service mode image

end Program

def reviews (service : Service) : Set (Program Unit) :=
  Set.range (Program.review service .live)

end Review
end VideoPoster.RevisionLive
