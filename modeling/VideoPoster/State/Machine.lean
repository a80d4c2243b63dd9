import VideoPoster.Python.Basic
import VideoPoster.Python.Json
import Mathlib.Data.Fintype.Defs

/-!
# `machine`: the episode state store
-/

namespace VideoPoster.State
open Python

inductive EpisodeState where
  | requestReceived | researching | planning | waitingPlanApproval | scripting | scriptQa
  | characterDesign | storyboarding | generatingAudio | generatingImages | visualQa
  | planningAnimation | localAnimation | cloudVideoGeneration | waitingBudgetApproval
  | animationQa | assembling | finalQa | waitingThumbnailApproval | waitingVideoApproval
  | waitingFinalApproval | uploading | published | paused | failed | cancelled
  deriving DecidableEq

namespace EpisodeState

def value : EpisodeState → String
  | requestReceived => "REQUEST_RECEIVED"
  | researching => "RESEARCHING"
  | planning => "PLANNING"
  | waitingPlanApproval => "WAITING_PLAN_APPROVAL"
  | scripting => "SCRIPTING"
  | scriptQa => "SCRIPT_QA"
  | characterDesign => "CHARACTER_DESIGN"
  | storyboarding => "STORYBOARDING"
  | generatingAudio => "GENERATING_AUDIO"
  | generatingImages => "GENERATING_IMAGES"
  | visualQa => "VISUAL_QA"
  | planningAnimation => "PLANNING_ANIMATION"
  | localAnimation => "LOCAL_ANIMATION"
  | cloudVideoGeneration => "CLOUD_VIDEO_GENERATION"
  | waitingBudgetApproval => "WAITING_BUDGET_APPROVAL"
  | animationQa => "ANIMATION_QA"
  | assembling => "ASSEMBLING"
  | finalQa => "FINAL_QA"
  | waitingThumbnailApproval => "WAITING_THUMBNAIL_APPROVAL"
  | waitingVideoApproval => "WAITING_VIDEO_APPROVAL"
  | waitingFinalApproval => "WAITING_FINAL_APPROVAL"
  | uploading => "UPLOADING"
  | published => "PUBLISHED"
  | paused => "PAUSED"
  | failed => "FAILED"
  | cancelled => "CANCELLED"

def all : List EpisodeState :=
  [requestReceived, researching, planning, waitingPlanApproval, scripting, scriptQa,
    characterDesign, storyboarding, generatingAudio, generatingImages, visualQa,
    planningAnimation, localAnimation, cloudVideoGeneration, waitingBudgetApproval, animationQa,
    assembling, finalQa, waitingThumbnailApproval, waitingVideoApproval, waitingFinalApproval,
    uploading, published, paused, failed, cancelled]

theorem mem_all (state : EpisodeState) : state ∈ all := by
  cases state <;> decide

instance : Fintype EpisodeState := ⟨⟨all, by decide⟩, mem_all⟩

def ofValue (text : String) : Result EpisodeState :=
  match all.find? fun state => state.value = text with
  | some state => .ok state
  | none => .error (.value ("'" ++ text ++ "' is not a valid EpisodeState"))

@[simp]
theorem ofValue_value (state : EpisodeState) : ofValue state.value = .ok state := by
  cases state <;> rfl

def transitions : EpisodeState → List EpisodeState
  | requestReceived => [researching, cancelled]
  | researching => [planning, failed, paused, cancelled]
  | planning => [waitingPlanApproval, failed, paused, cancelled]
  | waitingPlanApproval => [scripting, waitingBudgetApproval, cancelled]
  | scripting => [scriptQa, generatingAudio, failed, paused, cancelled]
  | scriptQa => [characterDesign, scripting, generatingAudio, failed, cancelled]
  | characterDesign => [storyboarding, failed, paused, cancelled]
  | storyboarding => [generatingAudio, generatingImages, failed, paused, cancelled]
  | generatingAudio => [storyboarding, generatingImages, failed, paused, cancelled]
  | generatingImages => [visualQa, localAnimation, failed, paused, cancelled]
  | visualQa => [planningAnimation, generatingImages, failed, cancelled]
  | planningAnimation => [localAnimation, failed, paused, cancelled]
  | localAnimation =>
    [cloudVideoGeneration, animationQa, assembling, failed, paused, cancelled]
  | cloudVideoGeneration =>
    [waitingBudgetApproval, animationQa, localAnimation, failed, paused, cancelled]
  | waitingBudgetApproval => [cloudVideoGeneration, localAnimation, cancelled]
  | animationQa => [assembling, failed, cancelled]
  | assembling => [finalQa, failed, paused, cancelled]
  | finalQa => [waitingThumbnailApproval, assembling, failed, cancelled]
  | waitingThumbnailApproval => [waitingVideoApproval, assembling, cancelled]
  | waitingVideoApproval => [waitingFinalApproval, assembling, cancelled]
  | waitingFinalApproval => [uploading, assembling, cancelled]
  | uploading => [published, failed, paused, cancelled]
  | published => []
  | paused => []
  | failed => []
  | cancelled => []

end EpisodeState

def invalidTransition (source target : EpisodeState) : Error :=
  ⟨.other "InvalidTransitionError", "Invalid transition: " ++ source.value ++ " → " ++ target.value ++
      ". Valid transitions from " ++ source.value ++ ": [" ++
      String.intercalate ", " (source.transitions.map fun state => "'" ++ state.value ++ "'") ++
      "]"⟩

structure Request where
  toState : EpisodeState
  agent : String := "system"
  note : String := ""
  timestamp : String := ""
  updatedAt : String := ""

def historyEntry (state : EpisodeState) (timestamp agent note : String) : Dict :=
  [("state", .str state.value), ("timestamp", .str timestamp), ("agent", .str agent),
    ("note", .str note)]

structure EpisodeStateStore where
  episodeId : String
  currentState : EpisodeState := .requestReceived
  previousState : Option EpisodeState := none
  stateHistory : List Dict := []
  checkpoint : Dict := []
  updatedAt : String
  pausedFrom : Option EpisodeState := none

namespace EpisodeStateStore

def canTransitionTo (store : EpisodeStateStore) (toState : EpisodeState) : Bool :=
  if toState = store.currentState then true
  else if toState = .paused then true
  else if toState = .failed then true
  else if toState = .cancelled then true
  else if store.currentState = .paused then some toState = store.pausedFrom
  else if store.currentState = .failed then some toState = store.previousState
  else toState ∈ store.currentState.transitions

def entry (store : EpisodeStateStore) (request : Request) : Dict :=
  historyEntry request.toState request.timestamp request.agent
    (if request.toState = store.currentState ∧ request.note = "" then "already in state"
      else request.note)

/-- What `transition_to` does to the remembered states before it changes the current one. -/
def remember (store : EpisodeStateStore) (toState : EpisodeState) : EpisodeStateStore :=
  if toState = .paused then { store with pausedFrom := some store.currentState }
  else if store.currentState = .paused then
    { store with previousState := some store.currentState, pausedFrom := none }
  else if store.currentState = .failed then store
  else { store with previousState := some store.currentState }

def transitionTo (store : EpisodeStateStore) (request : Request) : Result EpisodeStateStore :=
  if request.toState = store.currentState then
    .ok { store with
      stateHistory := store.stateHistory ++ [store.entry request]
      updatedAt := request.updatedAt }
  else if store.canTransitionTo request.toState then
    .ok { store.remember request.toState with
      currentState := request.toState
      stateHistory := store.stateHistory ++ [store.entry request]
      updatedAt := request.updatedAt }
  else .error (invalidTransition store.currentState request.toState)

def stateJson (state : Option EpisodeState) : Json :=
  match state with
  | some state => .str state.value
  | none => .null

def toDict (store : EpisodeStateStore) : Dict :=
  [("episode_id", .str store.episodeId),
    ("current_state", .str store.currentState.value),
    ("previous_state", stateJson store.previousState),
    ("state_history", .arr (store.stateHistory.map .obj)),
    ("checkpoint", .obj store.checkpoint),
    ("paused_from", stateJson store.pausedFrom),
    ("updated_at", .str store.updatedAt)]

end EpisodeStateStore

/-! The fields of a stored object. The code keeps a value of another type as it is; here, where the
fields have the annotated types, such a value is refused. -/

def textField (data : Dict) (key : String) (fallback : Result String) : Result String :=
  match data.get key with
  | none => fallback
  | some (.str text) => .ok text
  | some _ => .error (.type key)

def objField (data : Dict) (key : String) : Result Dict :=
  match data.get key with
  | none => .ok []
  | some (.obj entries) => .ok entries
  | some _ => .error (.type key)

def objItem : Json → Result Dict
  | .obj entries => .ok entries
  | _ => .error (.type "state_history")

def historyField (data : Dict) : Result (List Dict) :=
  match data.get "state_history" with
  | none => .ok []
  | some (.arr items) => items.mapM objItem
  | some _ => .error (.type "state_history")

def optionalState (data : Dict) (key : String) : Result (Option EpisodeState) :=
  match data.get key with
  | none | some .null | some (.str "") | some (.bool false) | some (.arr []) | some (.obj []) =>
    .ok none
  | some (.num n) =>
    if n = 0 then .ok none else .error (.value "not a valid EpisodeState")
  | some (.str text) => (EpisodeState.ofValue text).map some
  | some _ => .error (.value "not a valid EpisodeState")

namespace EpisodeStateStore

def fromDict (data : Dict) (now : String) : Result EpisodeStateStore := do
  let episodeId ← textField data "episode_id" (.error (.key "episode_id"))
  let currentState ← textField data "current_state" (.ok "REQUEST_RECEIVED")
  let currentState ← EpisodeState.ofValue currentState
  let previousState ← optionalState data "previous_state"
  let stateHistory ← historyField data
  let checkpoint ← objField data "checkpoint"
  let updatedAt ← textField data "updated_at" (.ok now)
  let store : EpisodeStateStore :=
    { episodeId, currentState, previousState, stateHistory, checkpoint, updatedAt }
  if currentState = .paused then
    let pausedFrom ← optionalState data "paused_from"
    pure { store with pausedFrom := pausedFrom }
  else pure store

end EpisodeStateStore
end VideoPoster.State
