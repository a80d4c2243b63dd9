import VideoPoster.Interleaving.Execution
import VideoPoster.Python.Basic
import VideoPoster.Python.Json

/-!
# `RunPodPodLifecycle`: pods and their termination

A pod has a checkpoint, and its termination is claimed by creating a file.
-/

namespace VideoPoster.Pods
open Python Interleaving Dict Function

def ownershipTagKey : String := "HERMES_OWNER_SHA256"

def validOwnershipTag (text : String) : Bool :=
  text.toList.length == 64 && text.toList.all fun c => ('0' ≤ c && c ≤ '9') || ('a' ≤ c && c ≤ 'f')

def validId (text : String) : Bool :=
  1 ≤ text.toList.length && text.toList.length ≤ 128 && text.toList.all fun c =>
    ('A' ≤ c && c ≤ 'Z') || ('a' ≤ c && c ≤ 'z') || ('0' ≤ c && c ≤ '9') || c == '_' || c == '-'

structure Owner where
  tag : String
  valid : validOwnershipTag tag = true

def ownerItem : Json → Option Json
  | .obj item => if get item "key" = some (.str ownershipTagKey) then some ((get item "value").getD .null) else none
  | .str text =>
    let start := ownershipTagKey ++ "="
    if start.toList.isPrefixOf text.toList then some (.str (.ofList (text.toList.drop start.toList.length)))
    else none
  | _ => none

def podOwnershipTag (pod : Dict) : Json :=
  let inEnvironment : Json :=
    match get pod "env" with
    | some (.obj env) => (get env ownershipTagKey).getD .null
    | some (.arr env) =>
      match env.filterMap ownerItem with
      | [value] => value
      | _ => .null
    | _ => .null
  match get pod "tags" with
  | some (.obj tags) => (get tags ownershipTagKey).getD inEnvironment
  | _ => inEnvironment

def setItem (dict : Dict) (key : String) (value : Json) : Dict :=
  if dict.hasKey key then dict.map fun entry => if entry.1 = key then (key, value) else entry
  else dict ++ [(key, value)]

def ownedSpec (owner : Owner) : Json → Result Dict
  | .obj spec =>
    match (get spec "tags").getD (.obj []) with
    | .obj tags => do
      let existing := (get tags ownershipTagKey).getD .null
      require (existing = .null ∨ existing = .str owner.tag)
        (.value "pod specification has a conflicting ownership tag")
      pure (setItem spec "tags" (.obj (setItem tags ownershipTagKey (.str owner.tag))))
    | _ => .error (.value "pod tags must be a mapping")
  | _ => .error (.value "pod specification must be a mapping")

def podStatus (pod : Dict) : Json := (get pod "status").getD ((get pod "desiredStatus").getD (.str ""))

def orphan (owner : Owner) : Json → Result (Option String)
  | .obj pod =>
    if podOwnershipTag pod ≠ .str owner.tag then .ok none
    else match podStatus pod with
      | .arr _ => .error (.type "unhashable type: 'list'")
      | .obj _ => .error (.type "unhashable type: 'dict'")
      | status =>
        if status = .str "EXITED" ∨ status = .str "TERMINATED" then .ok none
        else match get pod "id" with
          | some (.str id) => .ok (if validId id then some id else none)
          | _ => .ok none
  | _ => .ok none

structure Checkpoint where
  podId : String
  ownerTag : String
  terminateClaimed : Bool := false
  terminated : Bool := false
  adoptedOrphan : Bool := false
  reconciledActiveOrphan : Bool := false
  terminationError : Option String := none

inductive ClaimKind
  | create
  | terminate
  deriving DecidableEq

structure Claim where
  ownerTag : String
  kind : ClaimKind
  identifier : String
  deriving DecidableEq

structure World where
  checkpoints : String → Option Checkpoint
  /-- A claim file whose text is not written yet has no content. -/
  claims : ClaimKind → String → Option (Option Claim)
  created : List Dict
  terminations : List String

def World.empty : World := ⟨fun _ => none, fun _ _ => none, [], []⟩

namespace World

def setCheckpoint (w : World) (checkpoint : Checkpoint) : World :=
  { w with checkpoints := update w.checkpoints checkpoint.podId (some checkpoint) }

def setClaim (w : World) (kind : ClaimKind) (identifier : String) (file : Option (Option Claim)) : World :=
  { w with claims := update w.claims kind (update (w.claims kind) identifier file) }

end World

inductive Caller
  | run
  | terminateOnce
  | cleanupOrphans

inductive Act
  | load (caller : Caller) (podId : String)
  | save (checkpoint : Checkpoint)
  | openClaim (kind : ClaimKind) (identifier : String)
  | writeClaim (claim : Claim)
  | readClaim (kind : ClaimKind) (identifier : String)
  | unlinkClaim (kind : ClaimKind) (identifier : String)
  | createPod (spec : Dict)
  | operate (podId : String)
  | terminatePod (podId : String)
  | listPods

abbrev Act.Res : Act → Type
  | .load _ _ => Option Checkpoint
  | .save _ => Result Unit
  | .openClaim _ _ => Bool
  | .writeClaim _ => Result Unit
  | .readClaim _ _ => Option (Option Claim)
  | .unlinkClaim _ _ => Bool
  | .createPod _ => Result Json
  | .operate _ => Result Json
  | .terminatePod _ => Result Unit
  | .listPods => Result (List Json)

abbrev actions : Interface := ⟨Act, Act.Res⟩

structure Oracle where
  failure : Option Error
  created : Result Json
  operated : Result Json
  terminated : String → Result Unit
  listed : Result (List Json)

def exec (oracle : Oracle) (_ : ℕ) (w : World) : (action : Act) → Option (World × action.Res)
  | .load _ podId => some (w, w.checkpoints podId)
  | .save checkpoint => some (written oracle.failure w (w.setCheckpoint checkpoint))
  | .openClaim kind identifier =>
    match w.claims kind identifier with
    | none => some (w.setClaim kind identifier (some none), true)
    | some _ => some (w, false)
  | .writeClaim claim =>
    some (written oracle.failure w (w.setClaim claim.kind claim.identifier (some (some claim))))
  | .readClaim kind identifier => some (w, w.claims kind identifier)
  | .unlinkClaim kind identifier => some (w.setClaim kind identifier none, (w.claims kind identifier).isSome)
  | .createPod spec => some ({ w with created := spec :: w.created }, oracle.created)
  | .operate _ => some (w, oracle.operated)
  | .terminatePod podId => some ({ w with terminations := podId :: w.terminations }, oracle.terminated podId)
  | .listPods => some (w, oracle.listed)

theorem written_ok {W : Type} {failure : Option Error} {w changed w' : W}
    (is : written failure w changed = (w', .ok ())) : w' = changed := by
  rcases written_eq is with ⟨-, failed⟩ | ⟨same, -⟩
  · exact absurd rfl failed
  · exact same

abbrev machine : Machine actions where
  World := World
  Oracle := Oracle
  exec := exec
  crash := fun _ => id

abbrev Program (α : Type) := Prog actions Error α

namespace Program

def ofResult {α : Type} (result : Result α) : Program α := Prog.ofExcept result

def perform (action : Act) : Program action.Res := .act (I := actions) action .pure

def save (checkpoint : Checkpoint) : Program Unit := Prog.request (I := actions) (.save checkpoint) id

end Program

section Lifecycle
variable (owner : Owner)
open Program

def load (caller : Caller) (podId : String) : Program (Option Checkpoint) := do
  let _ ← ofResult (require (validId podId = true) (.value "invalid RunPod pod ID"))
  let found ← perform (.load caller podId)
  let _ ← ofResult (require (∀ state ∈ found, state.podId = podId ∧ state.ownerTag = owner.tag)
    (.value "pod lifecycle checkpoint identity mismatch"))
  pure found

def claimOnce (kind : ClaimKind) (identifier : String) : Program Bool := do
  match ← perform (.openClaim kind identifier) with
  | false => pure false
  | true => do
    match ← perform (.writeClaim ⟨owner.tag, kind, identifier⟩) with
    | .ok () => pure true
    | .error error => do
      let _ ← perform (.unlinkClaim kind identifier)
      .raise error

def releaseClaim (kind : ClaimKind) (identifier : String) : Program Unit := do
  match ← perform (.readClaim kind identifier) with
  | none => pure ()
  | some none => .raise ⟨.other "JSONDecodeError", "Expecting value: line 1 column 1 (char 0)"⟩
  | some (some claim) => do
    let _ ← ofResult (require (claim = ⟨owner.tag, kind, identifier⟩)
      (.value "refusing to remove foreign lifecycle claim"))
    match ← perform (.unlinkClaim kind identifier) with
    | true => pure ()
    | false => .raise ⟨.other "FileNotFoundError", identifier⟩

def newCheckpoint (podId : String) (adopted : Bool) : Checkpoint :=
  { podId, ownerTag := owner.tag, adoptedOrphan := adopted }

def terminateOnce (podId : String) : Program Bool := do
  match ← load owner .terminateOnce podId with
  | none => .raise (.value "refusing to terminate an unowned pod")
  | some state =>
    if state.terminateClaimed then pure false
    else do
      match ← claimOnce owner .terminate podId with
      | false => pure false
      | true => do
        let state := { state with terminateClaimed := true }
        save state
        match ← perform (.terminatePod podId) with
        | .error error => do
          save { state with terminationError := some error.kind.name }
          .raise error
        | .ok () => do
          save { state with terminated := true }
          pure true

def abandon {α : Type} (podId : String) (error : Error) : Program α := do
  match ← claimOnce owner .terminate podId with
  | false => .raise error
  | true => do
    Prog.request (I := actions) (.terminatePod podId) id
    .raise error

def createdId : Json → Result String
  | .obj created =>
    match get created "id" with
    | some (.str podId) =>
      if validId podId then .ok podId else .error (.value "RunPod create response has invalid pod ID")
    | _ => .error (.value "RunPod create response has invalid pod ID")
  | _ => .error (.value "RunPod create response has invalid pod ID")

def run (podSpec : Json) : Program Json := do
  let spec ← ofResult (ownedSpec owner podSpec)
  match ← claimOnce owner .create owner.tag with
  | false => .raise (.runtime "pod creation already claimed; recover or reconcile instead")
  | true => do
    let created ← Prog.request (I := actions) (.createPod spec) id
    let podId ← ofResult (createdId created)
    match ← load owner .run podId with
    | some _ => .raise (.runtime "pod ID already has a lifecycle checkpoint")
    | none => do
      match ← perform (.save (newCheckpoint owner podId false)) with
      | .error error => abandon owner podId error
      | .ok () =>
        Prog.ensuring (Prog.request (I := actions) (.operate podId) id) (terminateOnce owner podId).discard

/-- What `cleanup_orphans` does with the checkpoint of an orphan before it terminates it. -/
def reconcile (podId : String) : Program Unit := do
  match ← load owner .cleanupOrphans podId with
  | none => save (newCheckpoint owner podId true)
  | some state =>
    if state.terminateClaimed ∧ ¬ state.terminated then do
      save { state with terminateClaimed := false, reconciledActiveOrphan := true }
      releaseClaim owner .terminate podId
    else pure ()

def cleanupPods (terminated : List String) : List Json → Program (List String)
  | [] => pure terminated
  | pod :: pods => do
    match ← ofResult (orphan owner pod) with
    | none => cleanupPods terminated pods
    | some podId => do
      reconcile owner podId
      let done ← terminateOnce owner podId
      cleanupPods (if done then terminated ++ [podId] else terminated) pods

def cleanupOrphans : Program (List String) := do
  let pods ← Prog.request (I := actions) .listPods id
  cleanupPods owner [] pods

def calls : Set (Program Unit) :=
  Set.range (fun podSpec : Json => (run owner podSpec).discard) ∪
    Set.range (fun podId : String => (terminateOnce owner podId).discard) ∪ {(cleanupOrphans owner).discard}

end Lifecycle

end VideoPoster.Pods
