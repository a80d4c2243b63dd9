import VideoPoster.Interleaving.Stops
import VideoPoster.Preproduction.Accepted

/-!
# The import for the Director
-/

namespace VideoPoster.Preproduction
open Python Documents Interleaving

inductive Act where
  /-- `director-import`, if it exists. -/
  | look
  /-- The rest of `_real_import_evidence`. -/
  | readEvidence
  /-- `revision.glob(".di-*")`. -/
  | stale
  | rmtree
  | mkdtemp
  | write (name : Text) (content : Content)
  | mkdir
  /-- `_fsync_directory`. -/
  | sync (directory : String)
  /-- `os.replace(staging, packet)`. -/
  | replace
  deriving DecidableEq

abbrev Act.Value : Act → Type
  | .look => Option Packet
  | .readEvidence => Bool
  | .stale => ℕ
  | _ => Unit

abbrev actions : Interface := ⟨Act, fun action => Result action.Value⟩

abbrev Program := Prog actions Error

/-- The packet, and the directories that calls have made for themselves, the last one first. -/
structure World where
  packet : Option Packet
  stagings : List Packet

structure Oracle where
  failure : Act → Option Error
  torn : List UInt8
  changed : Bool

def quiet : Oracle := ⟨fun _ => none, [], false⟩

def World.put (w : World) (name : Text) (content : Content) : World :=
  { w with stagings := w.stagings.modifyHead fun staging => staging ++ [(name, content)] }

variable (P : Platform)

def serve (oracle : Oracle) (w : World) : (action : Act) → World × Result action.Value
  | .look => (w, .ok w.packet)
  | .readEvidence => (w, .ok oracle.changed)
  | .stale => (w, .ok w.stagings.length)
  | .rmtree => ({ w with stagings := w.stagings.tail }, .ok ())
  | .mkdtemp => ({ w with stagings := [] :: w.stagings }, .ok ())
  | .write name content =>
    if ¬ P.creatable name then (w, .error (.os "File name too long"))
    else if name ∈ ((w.stagings.head?).getD []).map Prod.fst then (w, .error (.os "File exists"))
    else (w.put name content, .ok ())
  | .mkdir => (w, .ok ())
  | .sync _ => (w, .ok ())
  | .replace =>
    match w.packet, w.stagings with
    | none, staging :: stagings => (⟨some staging, stagings⟩, .ok ())
    | _, _ => (w, .error (.os "Directory not empty"))

def failed (oracle : Oracle) (w : World) : Act → World
  | .write name _ => w.put name (.raw oracle.torn)
  | _ => w

abbrev machine : Machine actions where
  World := World
  Oracle := Oracle
  exec oracle _ w action :=
    match oracle.failure action with
    | some error => some (failed oracle w action, .error error)
    | none => some (serve P oracle w action)
  crash _ w := w

def perform (action : Act) : Program action.Value := Prog.request action id

def check (condition : Prop) [Decidable condition] (message : String) : Program Unit :=
  Prog.ofExcept (require condition (.value message))

variable {P} (E : Evidence P) (requestId : RequestId)

def preflight (packet : Option Packet) : Result Unit :=
  if packet.isSome then do
    let receipt ← verifyRealPreproductionImport P packet requestId
    require (∀ name ∈ [EvidenceName.source, .script, .scriptQa], receipt.hashes name = P.sha256 (.raw (E.raw name)))
      (.value "Director import receipt does not bind active revision")
  else .ok ()

def realImportEvidence : Program Bool := do
  let packet ← perform .look
  Prog.ofExcept (preflight E requestId packet)
  perform .readEvidence

structure Report where
  mode : String
  receiptSha256 : String
  operations : List (String × String)
  qualificationStatus : String

def Receipt.report (receipt : Receipt) : Report :=
  ⟨"PREPRODUCTION", receipt.receiptSha256, receipt.operations, receipt.authority.qualificationStatus⟩

def existing (packet : Option Packet) : Result Report := do
  let receipt ← verifyRealPreproductionImport P packet requestId
  require (receipt.toReceiptBase = E.base requestId)
    (.value "Director import conflicts with changed immutable evidence")
  return receipt.report

def sweep : ℕ → Program Unit
  | 0 => pure ()
  | count + 1 => do
    perform .rmtree
    sweep count

def writeEvidence : List EvidenceName → Program Unit
  | [] => pure ()
  | name :: names => do
    perform (.write (evidenceFile name) (.raw (E.raw name)))
    writeEvidence names

def writeBinding (index : ℕ) (asset : Asset) : Program Unit :=
  if asset = E.sheet then perform (.write (assetFile index (bindingName asset.name)) (.raw E.bindingRaw))
  else pure ()

def writeAsset (index : ℕ) (asset : Asset) : Program Unit := do
  perform (.write (assetFile index asset.name) (.raw (E.files asset.path)))
  check (P.sha256 (.raw (E.files asset.path)) = asset.sha256) "Director import copied asset hash mismatch"
  writeBinding E index asset

def writeAssets : ℕ → List Asset → Copied → Program Copied
  | _, [], copied => pure copied
  | index, asset :: assets, copied => do
    writeAsset E index asset
    writeAssets (index + 1) assets (E.copy index asset copied)

def writeFiles : Program Copied := do
  writeEvidence E evidenceNames
  perform (.write manifestJson (.raw E.manifestRaw))
  perform .mkdir
  writeAssets E 1 (E.assets ++ [E.sheet]) E.before

def writeDocuments (copied : Copied) : Program Unit := do
  let sheet ← Prog.ofExcept (found copied.sheet "Director import sheet binding is required")
  let index := E.index requestId copied sheet
  check (index.encodable = true) "'utf-8' codec can't encode character: surrogates not allowed"
  perform (.write indexJson (.index index))
  perform (.write receiptJson (.receipt (E.receipt requestId index)))

def fill : Program Unit := do
  let copied ← writeFiles E
  writeDocuments E requestId copied
  perform (.sync "evidence")
  perform (.sync "assets")
  perform (.sync "")

def stage : Program Unit := do
  let count ← perform .stale
  sweep count
  perform .mkdtemp
  fill E requestId

def publish : Program Report := do
  perform .replace
  perform (.sync "..")
  let packet ← perform .look
  let verified ← Prog.ofExcept (verifyRealPreproductionImport P packet requestId)
  return verified.report

def materialize : Program Report := do
  let changed ← realImportEvidence E requestId
  check (changed = false) "real import evidence changed before locked materialization"
  let packet ← perform .look
  if packet.isSome then Prog.ofExcept (existing E requestId packet)
  else
    stage E requestId
    publish (P := P) requestId

def importRealPreproductionHandoff : Program Report := do
  let _ ← realImportEvidence E requestId
  materialize E requestId

def Called (S : Set (Evidence P)) (w w' : World) : Prop :=
  ∃ E ∈ S, ∃ oracle pid pending,
    (importRealPreproductionHandoff E requestId).Stops (M := machine P) oracle pid w w' pending

def Reached (S : Set (Evidence P)) (w : World) : Prop :=
  ∃ start : World, start.packet = none ∧ Relation.ReflTransGen (Called requestId S) start w

structure AllOrNothing (S : Set (Evidence P)) : Prop where
  /-- The packet is accepted, and it is that of evidence that was read. -/
  accepted : ∀ w, Reached requestId S w → ∀ packet, w.packet = some packet →
    ∃ E ∈ S, packet = E.packet requestId ∧
      verifyRealPreproductionImport P (some packet) requestId = .ok (E.finalReceipt requestId)
  /-- A call with the evidence of the packet returns the hash of its receipt. -/
  repeated : ∀ w, Reached requestId S w → ∀ E ∈ S, w.packet = some (E.packet requestId) → ∀ pid,
    (importRealPreproductionHandoff E requestId).Ends (M := machine P) quiet pid w
      (.ok (E.finalReceipt requestId).report) w
  /-- What a call returned, the same call returns ever after. -/
  returned : ∀ w, Reached requestId S w → ∀ E ∈ S, ∀ oracle pid report w',
    (importRealPreproductionHandoff E requestId).Ends (M := machine P) oracle pid w (.ok report) w' →
      ∀ w'', Relation.ReflTransGen (Called requestId S) w' w'' → ∀ pid',
        (importRealPreproductionHandoff E requestId).Ends (M := machine P) quiet pid' w'' (.ok report) w''

def Evidence.assetNames : ℕ → List Asset → List Text
  | _, [] => []
  | index, asset :: assets =>
    (if asset = E.sheet then [assetFile index asset.name, assetFile index (bindingName asset.name)]
      else [assetFile index asset.name]) ++ assetNames (index + 1) assets

def Evidence.names : List Text :=
  evidenceNames.map evidenceFile ++ [manifestJson, indexJson, receiptJson] ++ E.assetNames 1 (E.assets ++ [E.sheet])

/-- The file system takes all names of the packet, and the names of the assets have an encoding. -/
structure Evidence.Writable : Prop where
  names : ∀ name ∈ E.names, P.creatable name = true
  encodable : ∀ asset ∈ E.assets ++ [E.sheet], asset.name.any surrogate = false

end VideoPoster.Preproduction
