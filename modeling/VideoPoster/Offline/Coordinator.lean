import Mathlib.Algebra.Order.Ring.Rat
import Mathlib.Algebra.Order.Group.Unbundled.Abs
import VideoPoster.Floating.Rounding
import VideoPoster.Python.Basic
import VideoPoster.Python.Json
import VideoPoster.Tables.Table

/-!
# `offline`: the finishing coordinator

The database has the state of the workspace and the receipts, and every call is one transaction over both.
-/

namespace VideoPoster.Offline
open Python Tables Floating

inductive Kind where
  | thumbnail | video
  deriving DecidableEq

def Kind.parse : String → Option Kind
  | "thumbnail" => some .thumbnail
  | "video" => some .video
  | _ => none

structure Frame where
  start : ℚ
  stop : ℚ
  hero : Bool

structure CompiledEpisode where
  episodeId : String
  checksum : String
  frames : List Frame
  sourceBinding : Option Json

structure Manifest where
  checksum : String
  assets : List String

structure ThumbnailContract where
  headline : String
  title : String
  bookSubtitle : String
  requiredBookSubtitle : Option String
  deriving DecidableEq

structure Binding where
  episodeId : String
  compilation : String
  manifest : String
  copy : ThumbnailContract
  hold : ℚ
  source : Option Json

def Binding.equals (a b : Binding) : Bool :=
  decide (a.episodeId = b.episodeId ∧ a.compilation = b.compilation ∧ a.manifest = b.manifest ∧
    a.copy = b.copy ∧ a.hold = b.hold) &&
    match a.source, b.source with
    | some x, some y => x.equals y
    | none, none => true
    | _, _ => false

structure Asset where
  path : String
  sha256 : String

structure Approvals where
  thumbnail : Option String := none
  video : Option String := none

namespace Approvals

def get (approvals : Approvals) : Kind → Option String
  | .thumbnail => approvals.thumbnail
  | .video => approvals.video

def set (approvals : Approvals) (receiptId : String) : Kind → Approvals
  | .thumbnail => { approvals with thumbnail := some receiptId }
  | .video => { approvals with video := some receiptId }

end Approvals

structure Prepared where
  video : Asset
  thumbnail : Asset
  revision : String
  binding : Binding
  approvals : Approvals
  planReceipt : String

structure Pair extends Prepared where
  renderReceipt : String

def Prepared.asset (pair : Prepared) : Kind → Asset
  | .thumbnail => pair.thumbnail
  | .video => pair.video

inductive Status where
  | waitingPlanApproval | waitingThumbnailApproval | waitingVideoApproval | readyForPublication
  | regenerationRequired
  deriving DecidableEq

structure State where
  status : Status
  active : Option Pair
  episodeId : Option String := none
  superseded : Option Pair := none
  feedback : String := ""
  rejectionReceipt : Option String := none

inductive Body where
  | plan (binding : Binding) (reviewer : String)
  | render (pair : Prepared) (localRender : Json) (planReceipt : String) (predecessor : Option Pair)
      (feedback : String)
  | decision (kind : Kind) (revision : String) (artifact : Asset) (approved : Bool)
      (reviewer feedback renderReceipt : String)

structure Receipt where
  id : String
  body : Body
  recordedAt : String

structure Store where
  state : Option State
  receipts : Table Receipt.id

namespace Store

def empty : Store := ⟨none, .empty⟩

def readState (store : Store) : State := store.state.getD { status := .waitingPlanApproval, active := none }

def save (store : Store) (state : State) : Store := { store with state := some state }

def receipt (digest : Body → String → String) (store : Store) (body : Body) (now : String) :
    Result (Store × String) :=
  match store.receipts.find? (digest body now) with
  | some _ => .error ⟨.other "IntegrityError", "UNIQUE constraint failed: receipts.id"⟩
  | none =>
    .ok ({ store with receipts := store.receipts.put ⟨digest body now, body, now⟩ },
      digest body now)

def transaction {α : Type} (store : Store) (body : Store → Result (Store × α)) : Store × Result α :=
  match body store with
  | .ok (store', value) => (store', .ok value)
  | .error error => (store, .error error)

end Store

structure Look where
  source : Result Unit
  audio : Result Unit
  manifest : Result Unit

/-- The frames follow each other from the given time on, up to the float `1e-6`. -/
def contiguous : ℚ → List Frame → Bool
  | _, [] => true
  | stop, frame :: rest =>
    !(frame.hero ||
      decide (binary64.nearest (1 / 1000000) < |binary64.nearest (frame.start - stop)|)) &&
    contiguous frame.stop rest

def makeBinding (look : Look) (episode : CompiledEpisode) (manifest : Manifest)
    (contract : ThumbnailContract) (hold : ℚ) : Result Binding := do
  if episode.sourceBinding.isSome then look.source
  look.audio
  look.manifest
  require (episode.frames.length = manifest.assets.length)
    (.value "one approved manifest image per compiled frame required")
  require (contiguous 0 episode.frames)
    (.value "offline still timeline must be contiguous and contain no hero jobs")
  require (3 ≤ hold ∧ hold ≤ 10) (.value "closing hold must be 3 to 10 seconds")
  require (¬ (episode.episodeId = "EP8" ∧ (contract.title ≠ "A promessa de um filho para Abraão e Sara" ∨
      contract.bookSubtitle ≠ "— Gênesis 15–18")))
    (.value "EP8 requires its exact title and biblical subtitle")
  pure ⟨episode.episodeId, episode.checksum, manifest.checksum, contract, hold, episode.sourceBinding⟩

structure Files where
  sha256 : String → Result String
  verifyFiles : Json → Result Unit

def verifyAsset (files : Files) (asset : Asset) (kind : String) : Result Unit := do
  let current ← files.sha256 asset.path
  require (current = asset.sha256) (.value (kind ++ " hash mismatch"))

def verifyPair (files : Files) (pair : Pair) : Result Unit := do
  match pair.binding.source with
  | some source => files.verifyFiles source
  | none => pure ()
  verifyAsset files pair.video "video"
  verifyAsset files pair.thumbnail "thumbnail"

structure ApprovePlan where
  episode : CompiledEpisode
  manifest : Manifest
  contract : ThumbnailContract
  reviewer : String
  hold : ℚ
  look : Look
  now : String

structure Prepare where
  episode : CompiledEpisode
  manifest : Manifest
  contract : ThumbnailContract
  planReceipt : String
  hold : ℚ
  videoSuffix : String
  look : Look
  files : Files
  revision : String
  directory : Result String
  render : Result Json
  compose : Result String
  lookAgain : Look
  now : String

structure Decide where
  kind : String
  revision : String
  artifactSha256 : String
  approved : Json
  reviewer : String
  feedback : String
  files : Files
  now : String

section Calls
variable (digest : Body → String → String)

def approvePlan (store : Store) (call : ApprovePlan) : Store × Result String :=
  let checked : Result Binding := do
    require (blank call.reviewer = false) (.value "human reviewer required")
    makeBinding call.look call.episode call.manifest call.contract call.hold
  match checked with
  | .error error => (store, .error error)
  | .ok binding =>
    store.transaction fun store => store.receipt digest (.plan binding call.reviewer) call.now

def planned (store : Store) (receiptId : String) (binding : Binding) : Bool :=
  match (store.receipts.find? receiptId).map Receipt.body with
  | some (.plan approved _) => approved.equals binding
  | _ => false

def produce (call : Prepare) : Result (Json × Asset × Asset) := do
  let directory ← call.directory
  let video := directory ++ "/video" ++ call.videoSuffix
  let rendered ← call.render
  let thumbnail ← call.compose
  let videoSha ← call.files.sha256 video
  let thumbnailSha ← call.files.sha256 thumbnail
  pure (rendered, ⟨video, videoSha⟩, ⟨thumbnail, thumbnailSha⟩)

def repeats (new old : Asset) : Bool := new.sha256 = old.sha256 ∨ new.path = old.path

def prepareNew (store : Store) (call : Prepare) (binding : Binding) (state : State) :
    Result (Store × State) := do
  let (rendered, video, thumbnail) ← produce call
  require (¬ state.superseded.any fun previous =>
      repeats video previous.video || repeats thumbnail previous.thumbnail)
    (.value "regenerated video and thumbnail must each have distinct hashes and paths")
  let _ ← makeBinding call.lookAgain call.episode call.manifest call.contract call.hold
  let prepared : Prepared :=
    { video, thumbnail, revision := call.revision, binding, approvals := {}
      planReceipt := call.planReceipt }
  let (store, renderReceipt) ← store.receipt digest
    (.render prepared rendered call.planReceipt state.superseded state.feedback) call.now
  let state := { state with
    episodeId := some call.episode.episodeId, active := some ⟨prepared, renderReceipt⟩
    status := .waitingThumbnailApproval }
  pure (store.save state, state)

def prepareBody (store : Store) (call : Prepare) (binding : Binding) : Result (Store × State) := do
  require (planned store call.planReceipt binding)
    (.value "persisted hash-bound plan receipt required")
  let state := store.readState
  require (state.episodeId.getD call.episode.episodeId = call.episode.episodeId)
    (.value "workspace belongs to another episode")
  match state.active with
  | some pair => do
    require (pair.binding.equals binding) (.value "reject active delivery before replacing it")
    verifyPair call.files pair
    pure (store, state)
  | none => prepareNew digest store call binding state

def prepare (store : Store) (call : Prepare) : Store × Result State :=
  let checked : Result Binding := do
    require (call.videoSuffix = ".mkv" ∨ call.videoSuffix = ".mp4")
      (.value "unsupported delivery video container")
    makeBinding call.look call.episode call.manifest call.contract call.hold
  match checked with
  | .error error => (store, .error error)
  | .ok binding => store.transaction fun store => prepareBody digest store call binding

def decided (state : State) (pair : Pair) (kind : Kind) (approved : Bool) (receiptId feedback : String) :
    State :=
  if approved then
    { state with
      active := some { pair with approvals := pair.approvals.set receiptId kind }
      status := if kind = .video then .readyForPublication else .waitingVideoApproval }
  else
    { state with
      active := none, superseded := some pair, feedback := feedback
      rejectionReceipt := some receiptId, status := .regenerationRequired }

def decideBody (store : Store) (call : Decide) (kind : Kind) (approved : Bool) :
    Result (Store × State) := do
  let state := store.readState
  match state.active with
  | none => throw (.value "decision does not bind active revision")
  | some pair => do
    require (pair.revision = call.revision ∧ (pair.asset kind).sha256 = call.artifactSha256)
      (.value "decision does not bind active revision")
    verifyPair call.files pair
    require (¬ (approved = true ∧ kind = .video ∧ pair.approvals.thumbnail = none))
      (.value "thumbnail approval required first")
    if approved = true ∧ (pair.approvals.get kind).isSome then pure (store, state)
    else
      let (store, receiptId) ← store.receipt digest
        (.decision kind call.revision (pair.asset kind) approved call.reviewer call.feedback
          pair.renderReceipt) call.now
      let state := decided state pair kind approved receiptId call.feedback
      pure (store.save state, state)

def decide (store : Store) (call : Decide) : Store × Result State :=
  match Kind.parse call.kind, call.approved with
  | some kind, .bool approved =>
    if blank call.reviewer then (store, .error (.value "explicit human decision required"))
    else if approved = false ∧ blank call.feedback then
      (store, .error (.value "rejection feedback required"))
    else store.transaction fun store => decideBody digest store call kind approved
  | _, _ => (store, .error (.value "explicit human decision required"))

inductive Call where
  | approvePlan (call : ApprovePlan)
  | prepare (call : Prepare)
  | decide (call : Decide)

def perform (store : Store) : Call → Store × Option Error
  | .approvePlan call => (approvePlan digest store call).map id refusal
  | .prepare call => (prepare digest store call).map id refusal
  | .decide call => (decide digest store call).map id refusal
where
  refusal {α : Type} : Result α → Option Error
    | .error error => some error
    | .ok _ => none

end Calls
end VideoPoster.Offline
