import Mathlib.Data.Fintype.Pi
import VideoPoster.Documents.Objects

/-!
# The packet of a Director import
-/

namespace VideoPoster.Preproduction
open Python Documents Path

inductive EvidenceName where
  | source | script | scriptQa | review | timeline | audio | storyboard | storyboardQa
  deriving DecidableEq

def evidenceNames : List EvidenceName :=
  [.source, .script, .scriptQa, .review, .timeline, .audio, .storyboard, .storyboardQa]

instance : Fintype EvidenceName where
  elems := evidenceNames.toFinset
  complete name := by cases name <;> decide

def EvidenceName.name : EvidenceName → String
  | .source => "source"
  | .script => "script"
  | .scriptQa => "script_qa"
  | .review => "review"
  | .timeline => "timeline"
  | .audio => "audio"
  | .storyboard => "storyboard"
  | .storyboardQa => "storyboard_qa"

inductive Kind where
  | evidence | manifest | asset | sheet | sheetBinding
  deriving DecidableEq

structure Entry where
  path : Text
  sha256 : String
  size : ℕ
  kind : Kind
  deriving DecidableEq

structure AssetBinding where
  path : Text
  sha256 : String
  deriving DecidableEq

structure SheetReference where
  path : Text
  bindingPath : Text
  sha256 : String
  deriving DecidableEq

structure AssetBindings where
  manifest : String
  assets : List AssetBinding
  sheet : SheetReference
  deriving DecidableEq

structure Index where
  schema : String
  mode : String
  requestId : String
  entries : List Entry
  assetBindings : AssetBindings
  deriving DecidableEq

structure Authority where
  qualificationStatus : String
  reasons : List String
  operationStatus : String
  deriving DecidableEq

def directorImportOperations : List (String × String) :=
  [("provider_dispatch", "BLOCKED"), ("render", "BLOCKED"), ("telegram", "BLOCKED"), ("publication", "BLOCKED")]

def directorImportAuthority : Authority where
  qualificationStatus := "NOT_QUALIFIED"
  reasons := ["TTS_AUTHENTICATED_RECEIPT_REQUIRED", "TRUST_ROOT_AUTHENTICATION_REQUIRED"]
  operationStatus := "BLOCKED"

structure ReceiptBase where
  schema : String
  mode : String
  requestId : String
  hashes : EvidenceName → String
  manifestSha256 : String
  activeRevision : String
  authority : Authority
  operations : List (String × String)
  deriving DecidableEq

structure BoundReceipt extends ReceiptBase where
  packetIndexSha256 : String
  deriving DecidableEq

structure Receipt extends BoundReceipt where
  receiptSha256 : String
  deriving DecidableEq

/-- A file holds bytes, or one of the two documents that the import itself writes. -/
inductive Content where
  | raw (bytes : List UInt8)
  | index (document : Index)
  | receipt (document : Receipt)
  deriving DecidableEq

def Content.asIndex : Content → Option Index
  | .index document => some document
  | _ => none

def Content.asReceipt : Content → Option Receipt
  | .receipt document => some document
  | _ => none

structure SheetBinding where
  assets : List String
  sheet : String
  deriving DecidableEq

/-- Hashes, the JSON of a sheet's binding, and the names of files that the file system takes. -/
structure Platform where
  sha256 : Content → String
  size : Content → ℕ
  digestJson : BoundReceipt → String
  sheetBinding : List UInt8 → Option SheetBinding
  creatable : Text → Bool
  length_sha256 : ∀ content, (sha256 content).length = 64

def hexDigits : List Char := "0123456789abcdef".toList

structure RequestId where
  digits : String
  length_digits : digits.length = 64
  hexadecimal : digits.toList.all (hexDigits.contains ·) = true

abbrev Packet := List (Text × Content)

def Packet.read (packet : Packet) (name : Text) : Option Content :=
  (packet.find? fun file => file.1 = name).map Prod.snd

def found {α : Type} (value : Option α) (message : String) : Result α :=
  value.elim (.error (.value message)) .ok

@[simp]
theorem found_eq_ok {α : Type} {value : Option α} {message : String} {x : α} :
    found value message = .ok x ↔ value = some x := by
  cases value <;> simp [found]

def backslash : CodePoint := code '\\'

def ValidPath (value : Text) : Prop :=
  (value ≠ [] ∧ value.head? ≠ some slash ∧ backslash ∉ value) ∧
    root value = [] ∧ text ".." ∉ parts value ∧ normalised value = value

instance (value : Text) : Decidable (ValidPath value) := inferInstanceAs (Decidable (_ ∧ _))

def validatePacketPath (value : Text) : Result Unit :=
  require (ValidPath value) (.value "materialized packet index path is invalid")

def indexEntries : List Entry → List Entry → Result (List Entry)
  | indexed, [] => .ok indexed
  | indexed, entry :: entries => do
    validatePacketPath entry.path
    require (entry.path ∉ indexed.map Entry.path ∧ entry.sha256.length = 64)
      (.value "materialized packet index entry is invalid")
    indexEntries (indexed ++ [entry]) entries

def indexedSha256 (indexed : List Entry) (path : Text) : Option String :=
  (indexed.find? fun entry => entry.path = path).map Entry.sha256

def assetHashes (indexed : List Entry) : List AssetBinding → Result (List String)
  | [] => .ok []
  | item :: items => do
    validatePacketPath item.path
    require (indexedSha256 indexed item.path = some item.sha256)
      (.value "materialized packet asset binding mismatch")
    let hashes ← assetHashes indexed items
    return item.sha256 :: hashes

def manifestJson : Text := text "manifest.json"

def indexJson : Text := text "index.json"

def receiptJson : Text := text "receipt.json"

section Verifier
variable (P : Platform)

def Content.sheetBinding : Content → Option SheetBinding
  | .raw bytes => P.sheetBinding bytes
  | _ => none

def SameFiles (packet : Packet) (indexed : List Entry) : Prop :=
  (∀ name ∈ packet.map Prod.fst, name ∈ indexed.map Entry.path ++ [indexJson, receiptJson]) ∧
    ∀ name ∈ indexed.map Entry.path ++ [indexJson, receiptJson], name ∈ packet.map Prod.fst

def Holds (packet : Packet) (entry : Entry) : Prop :=
  ∃ content ∈ packet.read entry.path, P.size content = entry.size ∧ P.sha256 content = entry.sha256

instance (packet : Packet) (indexed : List Entry) : Decidable (SameFiles packet indexed) :=
  inferInstanceAs (Decidable (_ ∧ _))

instance (packet : Packet) (entry : Entry) : Decidable (Holds P packet entry) :=
  match h : packet.read entry.path with
  | none => .isFalse fun ⟨_, read, _⟩ => by simp [h] at read
  | some content =>
    decidable_of_iff (P.size content = entry.size ∧ P.sha256 content = entry.sha256)
      ⟨fun same => ⟨content, h, same⟩, fun ⟨_, read, same⟩ => by
        rw [h, Option.mem_some_iff] at read
        exact read ▸ same⟩

def verifyReceipt (packet : Packet) (requestId : RequestId) : Result (Receipt × Index) := do
  let receiptFile ← found (packet.read receiptJson) "materialized packet receipt or index is missing"
  let indexFile ← found (packet.read indexJson) "materialized packet receipt or index is missing"
  let receipt ← found receiptFile.asReceipt "materialized packet receipt hash mismatch"
  require (receipt.receiptSha256 = P.digestJson receipt.toBoundReceipt)
    (.value "materialized packet receipt hash mismatch")
  require (receipt.schema = "preproduction-director-import-receipt-v2" ∧ receipt.mode = "PREPRODUCTION" ∧
      receipt.requestId = requestId.digits ∧ receipt.operations = directorImportOperations ∧
      receipt.authority = directorImportAuthority ∧ receipt.packetIndexSha256 = P.sha256 indexFile)
    (.value "materialized packet receipt contract mismatch")
  let index ← found indexFile.asIndex "materialized packet index schema mismatch"
  require (index.schema = "preproduction-director-import-index-v1" ∧ index.mode = "PREPRODUCTION" ∧
      index.requestId = requestId.digits)
    (.value "materialized packet index contract mismatch")
  return (receipt, index)

def verifyBindings (packet : Packet) (indexed : List Entry) (bindings : AssetBindings) : Result Unit := do
  require (indexedSha256 indexed manifestJson = some bindings.manifest)
    (.value "materialized packet manifest binding mismatch")
  require (bindings.assets ≠ []) (.value "materialized packet asset bindings mismatch")
  let hashes ← assetHashes indexed bindings.assets
  require (indexedSha256 indexed bindings.sheet.path = some bindings.sheet.sha256)
    (.value "materialized packet sheet binding mismatch")
  validatePacketPath bindings.sheet.bindingPath
  let bindingFile ← found (packet.read bindings.sheet.bindingPath) "materialized packet sheet binding is missing"
  require (bindingFile.sheetBinding P = some ⟨hashes, bindings.sheet.sha256⟩)
    (.value "materialized packet sheet binding mismatch")

def verifyRealPreproductionImport (packet : Option Packet) (requestId : RequestId) : Result Receipt := do
  let packet ← found packet "materialized packet is missing"
  let (receipt, index) ← verifyReceipt P packet requestId
  require (index.entries ≠ []) (.value "materialized packet index entries are required")
  let indexed ← indexEntries [] index.entries
  require (SameFiles packet indexed) (.value "materialized packet has missing or extra files")
  require (∀ entry ∈ indexed, Holds P packet entry) (.value "materialized packet bytes do not match index")
  verifyBindings P packet indexed index.assetBindings
  return receipt

end Verifier

structure Asset where
  path : Documents.Path
  sha256 : String
  reviewer : Text
  mode : String
  deriving DecidableEq

def Asset.name (asset : Asset) : Text := (parts asset.path.chars).getLast?.getD []

def dot : CodePoint := code '.'

def stem (name : Text) : Text :=
  let after := (name.reverse.takeWhile (· ≠ dot)).length
  if 0 < after ∧ after + 1 < name.length then name.take (name.length - (after + 1)) else name

def bindingName (name : Text) : Text := stem name ++ text ".binding.json"

structure Evidence (P : Platform) where
  raw : EvidenceName → List UInt8
  activeRevision : String
  manifestRaw : List UInt8
  assets : List Asset
  sheet : Asset
  files : Documents.Path → List UInt8
  bindingRaw : List UInt8
  nonempty : assets ≠ []
  verified : ∀ asset ∈ assets ++ [sheet], P.sha256 (.raw (files asset.path)) = asset.sha256
  bound : P.sheetBinding bindingRaw = some ⟨assets.map Asset.sha256, sheet.sha256⟩

abbrev File := Text × List UInt8 × Kind

def evidenceFile (name : EvidenceName) : Text := text "evidence/" ++ (text name.name ++ text ".bin")

def assetFile (index : ℕ) (name : Text) : Text :=
  text "assets/" ++ (naturalText index ++ code '-' :: name)

structure Copied where
  files : List File
  assets : List AssetBinding
  sheet : Option SheetReference

variable {P : Platform}

namespace Evidence
variable (E : Evidence P)

def copy (index : ℕ) (asset : Asset) (copied : Copied) : Copied :=
  let relative := assetFile index asset.name
  if asset = E.sheet then
    let bindingRelative := assetFile index (bindingName asset.name)
    { copied with
      files := copied.files ++
        [(relative, E.files asset.path, .sheet), (bindingRelative, E.bindingRaw, .sheetBinding)]
      sheet := some ⟨relative, bindingRelative, asset.sha256⟩ }
  else
    { copied with
      files := copied.files ++ [(relative, E.files asset.path, .asset)]
      assets := copied.assets ++ [⟨relative, asset.sha256⟩] }

def copyAll : ℕ → List Asset → Copied → Copied
  | _, [], copied => copied
  | index, asset :: assets, copied => copyAll (index + 1) assets (E.copy index asset copied)

def evidenceFiles : List File := evidenceNames.map fun name => (evidenceFile name, E.raw name, .evidence)

def before : Copied := ⟨E.evidenceFiles ++ [(manifestJson, E.manifestRaw, .manifest)], [], none⟩

def copied : Copied := E.copyAll 1 (E.assets ++ [E.sheet]) E.before

def base (requestId : RequestId) : ReceiptBase where
  schema := "preproduction-director-import-receipt-v2"
  mode := "PREPRODUCTION"
  requestId := requestId.digits
  hashes name := P.sha256 (.raw (E.raw name))
  manifestSha256 := P.sha256 (.raw E.manifestRaw)
  activeRevision := E.activeRevision
  authority := directorImportAuthority
  operations := directorImportOperations

def entryOf (file : File) : Entry := ⟨file.1, P.sha256 (.raw file.2.1), P.size (.raw file.2.1), file.2.2⟩

def index (requestId : RequestId) (copied : Copied) (sheet : SheetReference) : Index where
  schema := "preproduction-director-import-index-v1"
  mode := "PREPRODUCTION"
  requestId := requestId.digits
  entries := (inOrder copied.files).map (entryOf (P := P))
  assetBindings := ⟨P.sha256 (.raw E.manifestRaw), copied.assets, sheet⟩

def receipt (requestId : RequestId) (index : Index) : Receipt :=
  let bound : BoundReceipt := { E.base requestId with packetIndexSha256 := P.sha256 (.index index) }
  { bound with receiptSha256 := P.digestJson bound }

end Evidence

def Index.encodable (index : Index) : Bool :=
  (index.entries.map Entry.path ++ index.assetBindings.assets.map AssetBinding.path ++
    [index.assetBindings.sheet.path, index.assetBindings.sheet.bindingPath]).all fun path => !path.any surrogate

end VideoPoster.Preproduction
