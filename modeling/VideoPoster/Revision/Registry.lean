import VideoPoster.Paths.Worklist
import VideoPoster.Python.Basic
import VideoPoster.Tables.Table

/-!
# `RevisionRegistry`: the lineage of the artifacts that are delivered
-/

namespace VideoPoster.Revision
open Python Tables Paths List

inductive ArtifactStatus
  | active
  | superseded
  deriving DecidableEq

structure Receipt where
  artifactId : String
  path : String
  sha256 : String
  revision : ℤ
  dependsOn : List String
  status : ArtifactStatus
  supersedes : Option String
  supersededBy : Option String
  rejectionReason : Option String

abbrev Registry := Table Receipt.artifactId

structure Registration where
  artifactId : String
  file : Option (String × String)
  revision : ℤ
  dependsOn : List String := []
  supersedes : Option String := none

namespace Receipt

def supersededAs (receipt : Receipt) (prior successor : String) : Receipt :=
  if receipt.artifactId = prior then { receipt with supersededBy := some successor } else receipt

def rejected (receipt : Receipt) (reason : String) : Receipt :=
  { receipt with status := .superseded, rejectionReason := some reason }

def rejectedAs (receipt : Receipt) (reason artifactId : String) : Receipt :=
  if receipt.artifactId = artifactId then receipt.rejected reason else receipt

theorem supersededAs_artifactId (prior successor : String) (receipt : Receipt) :
    (receipt.supersededAs prior successor).artifactId = receipt.artifactId := by
  unfold supersededAs
  split_ifs <;> rfl

theorem rejectedAs_artifactId (reason artifactId : String) (receipt : Receipt) :
    (receipt.rejectedAs reason artifactId).artifactId = receipt.artifactId := by
  unfold rejectedAs
  split_ifs <;> rfl

end Receipt

namespace Registry
variable (artifacts : Registry)

def succeeded (artifactId : String) : Option String → Result Registry
  | none => .ok artifacts
  | some prior =>
    if prior = "" then .ok artifacts
    else match artifacts.find? prior with
      | none => .error (.value "A successor must supersede a registered superseded artifact")
      | some receipt =>
        if receipt.status = .superseded then
          .ok (artifacts.map (·.supersededAs prior artifactId) (Receipt.supersededAs_artifactId _ _))
        else .error (.value "A successor must supersede a registered superseded artifact")

def register (request : Registration) : Result Registry := do
  match request.file with
  | none => .error (.value "Artifact id, positive revision, and existing file are required")
  | some (path, sha256) =>
    require (1 ≤ request.revision ∧ request.artifactId ≠ "")
      (.value "Artifact id, positive revision, and existing file are required")
    require (artifacts.find? request.artifactId = none)
      (.value ("Artifact already registered: " ++ request.artifactId))
    require (∀ dependency ∈ request.dependsOn, artifacts.find? dependency ≠ none)
      (.value "Every dependency must be registered first")
    let artifacts ← succeeded artifacts request.artifactId request.supersedes
    pure (artifacts.put
      { artifactId := request.artifactId, path, sha256, revision := request.revision
        dependsOn := request.dependsOn, status := .active, supersedes := request.supersedes
        supersededBy := none, rejectionReason := none })

def dependents (current : String) : List String :=
  (artifacts.rows.filter fun candidate => decide (current ∈ candidate.dependsOn)).map Receipt.artifactId

def active : Finset String :=
  ((artifacts.rows.filter fun receipt => decide (receipt.status = .active)).map Receipt.artifactId).toFinset

variable {artifacts} in
theorem mem_active {artifactId : String} : artifactId ∈ artifacts.active ↔
    ∃ receipt ∈ artifacts, receipt.artifactId = artifactId ∧ receipt.status = .active := by
  simp only [active, mem_toFinset, mem_map, mem_filter, decide_eq_true_eq]
  constructor
  · rintro ⟨receipt, ⟨member, status⟩, same⟩
    exact ⟨receipt, member, same, status⟩
  · rintro ⟨receipt, member, same, status⟩
    exact ⟨receipt, ⟨member, status⟩, same⟩

variable {artifacts} in
theorem mem_dependents {current candidate : String} : candidate ∈ artifacts.dependents current ↔
    ∃ receipt ∈ artifacts, receipt.artifactId = candidate ∧ current ∈ receipt.dependsOn := by
  simp only [dependents, mem_map, mem_filter, decide_eq_true_eq]
  constructor
  · rintro ⟨receipt, ⟨member, depends⟩, same⟩
    exact ⟨receipt, member, same, depends⟩
  · rintro ⟨receipt, member, same, depends⟩
    exact ⟨receipt, ⟨member, depends⟩, same⟩

def rejectOne (reason artifactId : String) : Registry :=
  artifacts.map (·.rejectedAs reason artifactId) (Receipt.rejectedAs_artifactId _ _)

theorem dependents_rejectOne (reason artifactId : String) :
    (artifacts.rejectOne reason artifactId).dependents = artifacts.dependents := by
  funext current
  have same (receipt : Receipt) : (receipt.rejectedAs reason artifactId).dependsOn = receipt.dependsOn := by
    unfold Receipt.rejectedAs
    split_ifs <;> rfl
  simp only [dependents, rejectOne, Table.map, filter_map, map_map, Function.comp_def, same,
    Receipt.rejectedAs_artifactId]

theorem active_rejectOne (reason artifactId : String) :
    (artifacts.rejectOne reason artifactId).active = artifacts.active.erase artifactId := by
  ext other
  rw [Finset.mem_erase, mem_active, mem_active]
  constructor
  · rintro ⟨receipt, member, rfl, status⟩
    obtain ⟨old, there, rfl⟩ := (Table.mem_map _).mp member
    unfold Receipt.rejectedAs at status ⊢
    split_ifs at status ⊢ with same
    · cases status
    · exact ⟨same, old, there, rfl, status⟩
  · rintro ⟨different, receipt, member, rfl, status⟩
    refine ⟨receipt, (Table.mem_map _).mpr ⟨receipt, member, ?_⟩, rfl, status⟩
    exact if_neg different

def drain (reason : String) (artifacts : Registry) : List String → Result Registry
  | [] => .ok artifacts
  | current :: pending =>
    match found : artifacts.find? current with
    | none => .error (.key current)
    | some receipt =>
      if receipt.status = .superseded then drain reason artifacts pending
      else drain reason (artifacts.rejectOne reason current)
        ((artifacts.rejectOne reason current).dependents current ++ pending)
termination_by pending => (artifacts.active.card, pending.length)
decreasing_by
  · exact Prod.Lex.right _ (Nat.lt_succ_self _)
  · refine Prod.Lex.left _ _ ?_
    rw [active_rejectOne]
    obtain ⟨member, same⟩ := Table.find?_eq_some.mp found
    refine Finset.card_erase_lt_of_mem (mem_active.2 ⟨receipt, member, same, ?_⟩)
    cases status : receipt.status with
    | active => rfl
    | superseded => exact absurd status ‹_›

def reject (artifactId reason : String) : Result Registry := do
  require (blank reason = false) (.value "A rejection reason is required")
  require (artifacts.find? artifactId ≠ none) (.key ("Unknown artifact: " ++ artifactId))
  drain reason artifacts [artifactId]

end Registry

def Registry.requireActive (artifacts : Registry) (artifactId : String) (digest : String → Option String) :
    Result Receipt := do
  match artifacts.find? artifactId with
  | none => .error (.key ("Unknown artifact: " ++ artifactId))
  | some receipt =>
    require (receipt.status = .active)
      ⟨.other "SupersededArtifactError", "Artifact is superseded: " ++ artifactId⟩
    require (digest receipt.path = some receipt.sha256)
      (.value ("Artifact bytes no longer match receipt: " ++ artifactId))
    pure receipt

end VideoPoster.Revision
