import VideoPoster.Documents.Objects
import VideoPoster.Documents.Rewriting

/-!
# Started jobs in the document of the runner
-/

namespace VideoPoster.Autonomous.Specs
open Documents Python Entries Decimal

structure FrozenAsset where
  path : Path
  sha256 : Text
  reviewer : Text
  mode : Text

structure Manifest where
  assets : List FrozenAsset
  sheet : FrozenAsset
  reviewer : Text
  mode : Text

inductive Cost where
  | decimal (value : Decimal)
  | int (value : ℤ)

def Cost.amount : Cost → Decimal
  | .decimal value => value
  | .int value => .finite (decide (value < 0)) value.natAbs 0

structure Job where
  scene : Text
  category : Text
  mode : Text
  endpoint : Text
  payload : Entries Float64
  /-- A dictionary has every key once. -/
  payloadDict : distinct (.obj payload) = true
  manifest : Option Manifest
  cost : Cost
  predecessor : Text
  inputKind : Text

structure Policy where
  digest : Text
  episodeCapUsd : Decimal
  monthCapUsd : Decimal
  allowedProviders : List Text

structure Runner where
  episodeId : Text
  policy : Policy
  providerConcurrency : ℕ
  cpuConcurrency : ℕ
  sha256 : Text → Text
  printable : CodePoint → Bool
  nesting : ℕ

abbrev Result (α : Type) := Except Fault α

def require (condition : Prop) [Decidable condition] : Result Unit :=
  if condition then .ok () else .error .refused

def FrozenAsset.fields (asset : FrozenAsset) : Entries Float64 :=
  [(text "path", .str asset.path.chars), (text "sha256", .str asset.sha256),
    (text "reviewer", .str asset.reviewer), (text "mode", .str asset.mode)]

def FrozenAsset.asdict (asset : FrozenAsset) : Value Float64 := .obj asset.fields

def Manifest.fields (manifest : Manifest) : Entries Float64 :=
  [(text "assets", .arr (manifest.assets.map FrozenAsset.asdict)), (text "sheet", manifest.sheet.asdict),
    (text "reviewer", .str manifest.reviewer), (text "mode", .str manifest.mode)]

def Manifest.asdict (manifest : Manifest) : Value Float64 := .obj manifest.fields

def Cost.asdict : Cost → Value Float64
  | .decimal value => .str (str value)
  | .int value => .int value

def Job.fields (job : Job) (manifest : Value Float64) : Entries Float64 :=
  [(text "scene", .str job.scene), (text "category", .str job.category), (text "mode", .str job.mode),
    (text "endpoint", .str job.endpoint), (text "payload", .obj job.payload), (text "manifest", manifest),
    (text "cost", job.cost.asdict), (text "predecessor", .str job.predecessor),
    (text "input_kind", .str job.inputKind)]

def Job.asdict (job : Job) : Value Float64 :=
  .obj (job.fields (job.manifest.elim .null Manifest.asdict))

section Representation
variable (printable : CodePoint → Bool)

def FrozenAsset.repr (asset : FrozenAsset) : Text :=
  text "FrozenAsset(path=PosixPath(" ++ (reprText printable asset.path.chars ++ (text "), sha256=" ++
    (reprText printable asset.sha256 ++ (text ", reviewer=" ++ (reprText printable asset.reviewer ++
      (text ", mode=" ++ (reprText printable asset.mode ++ text ")")))))))

def tupleText : List Text → Text
  | [] => text "()"
  | [item] => text "(" ++ (item ++ text ",)")
  | item :: items => text "(" ++ (item ++ (items.flatMap (fun item => text ", " ++ item) ++ text ")"))

def Manifest.repr (manifest : Manifest) : Text :=
  text "Manifest(assets=" ++ (tupleText (manifest.assets.map (FrozenAsset.repr printable)) ++
    (text ", sheet=" ++ (manifest.sheet.repr printable ++ (text ", reviewer=" ++
      (reprText printable manifest.reviewer ++ (text ", mode=" ++ (reprText printable manifest.mode ++ text ")")))))))

def Job.dict (job : Job) : Value Float64 :=
  .obj (job.fields (job.manifest.elim .null fun manifest => .str (manifest.repr printable)))

end Representation

variable (R : Runner)

def finiteOnly : Float64 → Result Text
  | .finite negative magnitude => .ok (Float64.written (.finite negative magnitude))
  | _ => .error .notFinite

def digest (value : Value Float64) : Result Text := do
  let chars ← dumps ⟨true, finiteOnly, R.nesting, compact⟩ value
  let bytes ← encoded chars
  pure (R.sha256 bytes)

def digestJson (value : Value Float64) : Result Text := do
  let chars ← dumps ⟨false, fun number => .ok number.written, R.nesting, compact⟩ value
  let bytes ← encoded chars
  pure (R.sha256 bytes)

def requestId (job : Job) : Result Text := digest R job.asdict

def jobSha256 (job : Job) : Result Text := digestJson R (job.dict R.printable)

structure Binding where
  requestId : Text
  jobSha256 : Text
  deriving DecidableEq

def Binding.fields (binding : Binding) : Entries Float64 :=
  [(text "request_id", .str binding.requestId), (text "job_sha256", .str binding.jobSha256)]

def Binding.value (binding : Binding) : Value Float64 := .obj binding.fields

def jobBinding (job : Job) : Result Binding := do
  let requestId ← requestId R job
  let jobSha256 ← jobSha256 R job
  pure ⟨requestId, jobSha256⟩

def jobSpec (job : Job) : Result (Value Float64) := do
  let chars ← dumps ⟨true, fun number => .ok number.written, R.nesting, spaced⟩ job.asdict
  loads (plain R.nesting) chars

def field (raw : Value Float64) (name : String) : Result (Value Float64) :=
  match raw with
  | .obj entries => (get entries (text name)).elim (.error .refused) .ok
  | _ => .error .refused

def fieldOr (raw : Value Float64) (name : String) (default : Value Float64) : Result (Value Float64) :=
  match raw with
  | .obj entries => .ok ((get entries (text name)).getD default)
  | _ => .error .refused

def string : Value Float64 → Result Text
  | .str chars => .ok chars
  | _ => .error .refused

def items : Value Float64 → Result (List (Value Float64))
  | .arr items => .ok items
  | _ => .error .refused

def stringField (raw : Value Float64) (name : String) : Result Text := (field raw name).bind string

def assetFrom (raw : Value Float64) : Result FrozenAsset := do
  let path ← stringField raw "path"
  let sha256 ← stringField raw "sha256"
  let reviewer ← stringField raw "reviewer"
  let mode ← stringField raw "mode"
  pure ⟨.of path, sha256, reviewer, mode⟩

def manifestFrom (raw : Value Float64) : Result Manifest := do
  let listed ← (field raw "assets").bind items
  let assets ← listed.mapM assetFrom
  let sheet ← (field raw "sheet").bind assetFrom
  let reviewer ← stringField raw "reviewer"
  let mode ← stringField raw "mode"
  pure ⟨assets, sheet, reviewer, mode⟩

def decimalFrom : Value Float64 → Result Decimal
  | .str chars => (ofText chars).elim (.error .refused) .ok
  | .int value => .ok (Cost.int value).amount
  | _ => .error .refused

def payloadFrom (raw : Value Float64) : Result { entries : Entries Float64 // distinct (.obj entries) = true } :=
  match raw with
  | .obj entries => if single : distinct (.obj entries) = true then .ok ⟨entries, single⟩ else .error .refused
  | _ => .error .refused

def jobFromSpec (spec : Value Float64) : Result Job := do
  let raw ← field spec "manifest"
  let manifest ← manifestFrom raw
  let scene ← stringField spec "scene"
  let category ← stringField spec "category"
  let mode ← stringField spec "mode"
  let endpoint ← stringField spec "endpoint"
  let payload ← (field spec "payload").bind payloadFrom
  let cost ← (field spec "cost").bind decimalFrom
  let predecessor ← (fieldOr spec "predecessor" (.str [])).bind string
  pure ⟨scene, category, mode, endpoint, payload, payload.2, some manifest, .decimal cost, predecessor,
    text "IMAGE_EDIT"⟩

def load (file : Text) : Result (Value Float64) := do
  let document ← loads (plain R.nesting) file
  let policy ← stringField document "policy_sha256"
  require (policy = R.policy.digest)
  let mode ← stringField document "mode"
  let scope ← stringField document "namespace"
  require (mode = text "TEST" ∧ scope = text "TEST")
  pure document

def bindingFrom (raw : Value Float64) : Result Binding := do
  let requestId ← stringField raw "request_id"
  let jobSha256 ← stringField raw "job_sha256"
  pure ⟨requestId, jobSha256⟩

def bindingsOf (document : Value Float64) : Result (List Binding) := do
  let listed ← (field document "jobs").bind items
  listed.mapM bindingFrom

def lookup (bindings : List Binding) (requestId : Text) : Option Binding :=
  bindings.reverse.find? fun binding => binding.requestId = requestId

def sameDict (first second : List Binding) : Bool :=
  (first ++ second).all fun binding => lookup first binding.requestId = lookup second binding.requestId

def validateResumeJobs (file : Text) (jobs : List Job) : Result (List Job) := do
  let document ← load R file
  let expected ← bindingsOf document
  let actual ← jobs.mapM (jobBinding R)
  require (sameDict actual expected = true)
  pure jobs

def rebuildJobs (file : Text) : Result (List Job) := do
  let document ← load R file
  let specs ← (fieldOr document "job_specs" (.arr [])).bind items
  let jobs ← specs.mapM jobFromSpec
  validateResumeJobs R file jobs

def dependencies (job : Job) (requestId : Text) (known : List Text) : Result (List Text) :=
  match get job.payload (text "depends_on") with
  | none => .ok []
  | some listed => do
    let listed ← items listed
    let names ← listed.mapM string
    require ((∀ name ∈ names, name ∈ known) ∧ requestId ∉ names ∧ names.Nodup)
    pure names

/-- The rounds of `_topological_order`, which end where every job that remains waits for another. -/
def acyclic : ℕ → List (Text × List Text) → Bool
  | _, [] => true
  | 0, _ => false
  | rounds + 1, remaining =>
    let ready := (remaining.filter fun job => job.2 = []).map Prod.fst
    ready ≠ [] && acyclic rounds ((remaining.filter fun job => job.2 ≠ []).map fun job =>
      (job.1, job.2.filter (· ∉ ready)))

def nothing : Decimal := .finite false 0 0

def authorizePaid (provider : Text) (cost : Cost) : Result Unit := do
  require (provider ∈ R.policy.allowedProviders)
  require (cost.amount.isFinite = true ∧ 0 < cost.amount.toRat)
  require (cost.amount.toRat ≤ R.policy.episodeCapUsd.toRat ∧
    (add nothing cost.amount).toRat ≤ R.policy.monthCapUsd.toRat)

def admitJob (job : Job) : Result Binding := do
  require (job.mode = text "TEST")
  authorizePaid R job.endpoint job.cost
  jobBinding R job

def total (jobs : List Job) : Decimal :=
  jobs.foldl (fun sum job => add sum job.cost.amount) nothing

def documentFields (packetSha256 : Text) (bindings : List Binding) (specs : List (Value Float64))
    (createdAt : Float64) : Entries Float64 :=
  [(text "schema", .int 3), (text "mode", .str (text "TEST")), (text "namespace", .str (text "TEST")),
    (text "episode_id", .str R.episodeId), (text "policy_sha256", .str R.policy.digest),
    (text "packet_sha256", .str packetSha256), (text "jobs", .arr (bindings.map Binding.value)),
    (text "job_specs", .arr specs),
    (text "scheduler", .obj [(text "provider_concurrency", .int R.providerConcurrency),
      (text "cpu_concurrency", .int R.cpuConcurrency)]),
    (text "qa", .obj []), (text "media", .obj []), (text "delivery", .obj []), (text "gates", .obj []),
    (text "state", .str (text "READY")), (text "created_at", .num createdAt)]

def fileOf (document : Value Float64) : Result Text := do
  let chars ← dumps ⟨false, fun number => .ok number.written, R.nesting, indented⟩ document
  encoded chars

def bare : Value Float64 → Bool
  | .obj entries => keysAre entries [text "request_id", text "job_sha256"]
  | _ => false

def startAgain (packet : Entries Float64) (file : Text) (jobs : List Job) : Result Text := do
  let existing ← load R file
  let episode ← stringField existing "episode_id"
  let packetSha256 ← stringField existing "packet_sha256"
  let given ← digestJson R (.obj packet)
  let listed ← (field existing "jobs").bind items
  let bindings ← listed.mapM bindingFrom
  let actual ← jobs.mapM (jobBinding R)
  require (episode = R.episodeId ∧ packetSha256 = given ∧ listed.all bare = true ∧ bindings = actual)
  pure file

def start (packet : Entries Float64) (createdAt : Float64) (file : Option Text) (jobs : List Job) :
    Result Text :=
  match file with
  | some file => startAgain R packet file jobs
  | none => do
    require (R.episodeId ≠ [] ∧ jobs ≠ [])
    let ids ← jobs.mapM (requestId R)
    require ids.Nodup
    let edges ← (jobs.zip ids).mapM fun job => dependencies job.1 job.2 ids
    require (acyclic ids.length (ids.zip edges) = true)
    let bindings ← jobs.mapM (admitJob R)
    require ((total jobs).toRat ≤ R.policy.episodeCapUsd.toRat)
    let packetSha256 ← digestJson R (.obj packet)
    let specs ← jobs.mapM (jobSpec R)
    fileOf R (.obj (documentFields R packetSha256 bindings specs createdAt))

end VideoPoster.Autonomous.Specs
