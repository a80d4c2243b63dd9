import Mathlib.Logic.Relation
import VideoPoster.Offline.Coordinator

/-!
# The gate of the offline delivery
-/

namespace VideoPoster.Offline
open Python Tables Option

inductive Stage : Status → Option Approvals → Prop
  | unplanned : Stage .waitingPlanApproval none
  | rejected : Stage .regenerationRequired none
  | prepared : Stage .waitingThumbnailApproval (some {})
  | approved (thumbnail : String) : Stage .waitingVideoApproval (some { thumbnail := thumbnail })
  | ready (thumbnail video : String) :
      Stage .readyForPublication (some { thumbnail := thumbnail, video := video })

namespace Stage
variable {status : Status} {approvals : Option Approvals}

variable (stage : Stage status approvals)
include stage

theorem closed : status = .waitingPlanApproval ∨ status = .regenerationRequired ↔ approvals = none := by
  cases stage <;> simp

theorem waitingThumbnail : status = .waitingThumbnailApproval ↔
    ∃ given, approvals = some given ∧ given.thumbnail = none ∧ given.video = none := by
  cases stage <;> simp

theorem waitingVideo : status = .waitingVideoApproval ↔
    ∃ given, approvals = some given ∧ given.thumbnail.isSome ∧ given.video = none := by
  cases stage <;> simp

theorem readyForPublication : status = .readyForPublication ↔
    ∃ given, approvals = some given ∧ given.thumbnail.isSome ∧ given.video.isSome := by
  cases stage <;> simp

end Stage

def Approved (store : Store) (pair : Pair) (kind : Kind) (receiptId : String) : Prop :=
  ∃ receipt reviewer feedback, store.receipts.find? receiptId = some receipt ∧
    receipt.body = .decision kind pair.revision (pair.asset kind) true reviewer feedback
      pair.renderReceipt

structure Gated (store : Store) : Prop where
  stage : Stage store.readState.status (store.readState.active.map (·.approvals))
  approved : ∀ pair ∈ store.readState.active, ∀ kind receiptId,
    pair.approvals.get kind = some receiptId → Approved store pair kind receiptId
  planned : ∀ pair ∈ store.readState.active, planned store pair.planReceipt pair.binding

variable {store : Store}

theorem Gated.idle (stage : Stage store.readState.status none)
    (none : store.readState.active = none) : Gated store := by
  refine ⟨?_, ?_, ?_⟩
  · rwa [none]
  · simp [none]
  · simp [none]

variable {kind : Kind} {binding : Binding}

section Receipts
variable {digest : Body → String → String} {store store' : Store} {body : Body}
  {now receiptId : String}

def Extends (store store' : Store) : Prop :=
  ∀ receiptId receipt, store.receipts.find? receiptId = some receipt →
    store'.receipts.find? receiptId = some receipt

theorem receipt_eq_ok (ok : store.receipt digest body now = .ok (store', receiptId)) : Extends store store' ∧
    store'.readState = store.readState ∧ store'.receipts.find? receiptId = some ⟨receiptId, body, now⟩ := by
  unfold Store.receipt at ok
  split at ok
  · cases ok
  · rename_i absent
    cases ok
    refine ⟨fun other receipt found => ?_, rfl, Table.find?_put_self _ _⟩
    refine (Table.find?_put_of_ne _ ?_).trans found
    rintro rfl
    rw [absent] at found
    cases found

theorem Approved.extends {pair : Pair} (approved : Approved store pair kind receiptId)
    (more : Extends store store') : Approved store' pair kind receiptId := by
  obtain ⟨receipt, reviewer, feedback, found, is⟩ := approved
  exact ⟨receipt, reviewer, feedback, more _ _ found, is⟩

theorem planned_extends (is : planned store receiptId binding)
    (more : Extends store store') : planned store' receiptId binding := by
  unfold planned at is ⊢
  cases found : store.receipts.find? receiptId with
  | none =>
    rw [found] at is
    cases is
  | some receipt =>
    rw [more _ _ found]
    rwa [found] at is

theorem Gated.receipt (gated : Gated store)
    (ok : store.receipt digest body now = .ok (store', receiptId)) : Gated store' := by
  obtain ⟨more, same, -⟩ := receipt_eq_ok ok
  obtain ⟨stage, approved, planned⟩ := gated
  rw [← same] at stage approved planned
  exact ⟨stage, fun pair active kind id is => (approved pair active kind id is).extends more,
    fun pair active => planned_extends (planned pair active) more⟩

end Receipts

section Calls
variable {digest : Body → String → String} {store store' : Store}

variable {value : State}

variable {call : Prepare}

theorem gated_of_prepareNew (plan : planned store call.planReceipt binding) {state : State}
    (ok : prepareNew digest store call binding state = .ok (store', value)) : Gated store' := by
  simp only [prepareNew, bind_eq_ok, require_eq_ok, pure_eq_ok] at ok
  obtain ⟨⟨rendered, video, thumbnail⟩, -, _, -, _, -, ⟨middle, renderReceipt⟩, recorded, ok⟩ := ok
  obtain ⟨more, -, -⟩ := receipt_eq_ok recorded
  cases ok
  refine ⟨.prepared, ?_, ?_⟩
  · intro pair active kind receiptId is
    cases active
    cases kind <;> cases is
  · intro pair active
    cases active
    exact planned_extends plan more

theorem Gated.prepareBody (gated : Gated store)
    (ok : prepareBody digest store call binding = .ok (store', value)) : Gated store' := by
  simp only [Offline.prepareBody, bind_eq_ok, require_eq_ok] at ok
  obtain ⟨_, plan, _, -, ok⟩ := ok
  split at ok
  · simp only [bind_eq_ok, pure_eq_ok] at ok
    obtain ⟨_, -, _, -, ok⟩ := ok
    cases ok
    exact gated
  · exact gated_of_prepareNew plan ok

variable {approved : Bool}

theorem decideBody_eq_ok {call : Decide} (ok : decideBody digest store call kind approved = .ok (store', value)) :
    store' = store ∨ ∃ pair, store.readState.active = some pair ∧ pair.revision = call.revision ∧
    (approved = true → pair.approvals.get kind = none ∧ (kind = .video → pair.approvals.thumbnail ≠ none))
    ∧ ∃ middle receiptId, store.receipt digest (.decision kind call.revision (pair.asset kind)
    approved call.reviewer call.feedback pair.renderReceipt) call.now = .ok (middle, receiptId)
    ∧ store' = middle.save (decided store.readState pair kind approved receiptId call.feedback) := by
  simp only [decideBody] at ok
  split at ok
  · cases ok
  rename_i pair active
  simp only [bind_eq_ok, require_eq_ok] at ok
  obtain ⟨_, ⟨revision, -⟩, _, -, _, order, ok⟩ := ok
  split_ifs at ok with again
  · cases ok
    exact .inl rfl
  simp only [bind_eq_ok, pure_eq_ok] at ok
  obtain ⟨⟨middle, receiptId⟩, recorded, ok⟩ := ok
  cases ok
  refine .inr ⟨pair, active, revision, fun is => ⟨?_, fun video none => ?_⟩, middle, receiptId, recorded, rfl⟩
  · simpa [is] using again
  · exact order ⟨is, video, none⟩

theorem Stage.approve {status : Status} {approvals : Approvals} (stage : Stage status (some approvals))
    (new : approvals.get kind = none) (order : kind = .video → approvals.thumbnail ≠ none) (receiptId : String) : Stage
    (if kind = .video then .readyForPublication else .waitingVideoApproval) (some (approvals.set receiptId kind)) := by
  cases kind with
  | thumbnail =>
    cases stage with
    | prepared => exact .approved receiptId
    | approved thumbnail => cases new
    | ready thumbnail video => cases new
  | video =>
    cases stage with
    | prepared => exact absurd rfl (order rfl)
    | approved thumbnail => exact .ready thumbnail receiptId
    | ready thumbnail video => cases new

theorem Approvals.get_set (approvals : Approvals) (receiptId : String) (kind other : Kind) :
    (approvals.set receiptId kind).get other = if other = kind then some receiptId else approvals.get other := by
  cases kind <;> cases other <;> rfl

theorem Gated.decideBody (gated : Gated store)
    {call : Decide} (ok : decideBody digest store call kind approved = .ok (store', value)) : Gated store' := by
  rcases decideBody_eq_ok ok with rfl | ⟨pair, active, revision, first, middle, receiptId, recorded, rfl⟩
  · exact gated
  obtain ⟨more, -, found⟩ := receipt_eq_ok recorded
  have stage := gated.stage
  rw [active] at stage
  cases approved with
  | false => exact .idle .rejected rfl
  | true =>
    obtain ⟨new, order⟩ := first rfl
    refine ⟨stage.approve new order receiptId, ?_, ?_⟩
    · intro pair' active' other id is
      cases active'
      change (pair.approvals.set receiptId kind).get other = some id at is
      rw [Approvals.get_set] at is
      split_ifs at is with own
      · cases is
        subst own
        refine ⟨_, call.reviewer, call.feedback, found, ?_⟩
        rw [← revision]
        rfl
      · obtain ⟨receipt, reviewer, feedback, there, body⟩ :=
          gated.approved pair active other id is
        exact ⟨receipt, reviewer, feedback, more _ _ there, body⟩
    · intro pair' active'
      cases active'
      exact planned_extends (gated.planned pair active) more

structure Outcome {α : Type} (store : Store) (outcome : Store × Result α) : Prop where
  gated : Gated store → Gated outcome.1
  refused : ∀ error, outcome.2 = .error error → outcome.1 = store

variable {α : Type}

theorem Outcome.refuse (store : Store) (error : Error) : Outcome (α := α) store (store, .error error) :=
  ⟨id, fun _ _ => rfl⟩

theorem Outcome.transaction {run : Store → Result (Store × α)} (gated : ∀ store' value,
    run store = .ok (store', value) → Gated store → Gated store') : Outcome store (store.transaction run) := by
  unfold Store.transaction
  cases ran : run store with
  | error error => exact .refuse store error
  | ok pair => exact ⟨gated pair.1 pair.2 ran, nofun⟩

theorem approvePlan_outcome (call : ApprovePlan) : Outcome store (approvePlan digest store call) := by
  unfold approvePlan
  simp only
  split
  · exact .refuse store _
  · exact .transaction fun _ _ ok gated => gated.receipt ok

theorem prepare_outcome (call : Prepare) : Outcome store (prepare digest store call) := by
  unfold prepare
  simp only
  split
  · exact .refuse store _
  · exact .transaction fun _ _ ok gated => gated.prepareBody ok

theorem decide_outcome (call : Decide) : Outcome store (decide digest store call) := by
  unfold Offline.decide
  split
  · split_ifs
    · exact .refuse store _
    · exact .refuse store _
    · exact .transaction fun _ _ ok gated => gated.decideBody ok
  · exact .refuse store _

variable {error : Error}

theorem refusal_eq_some {result : Result α} (is : perform.refusal result = some error) : result = .error error := by
  cases result with
  | error other => exact congrArg _ (some.inj is)
  | ok value => cases is

theorem perform_gated (gated : Gated store) (call : Call) : Gated (perform digest store call).1 := by
  cases call with
  | approvePlan call => exact (approvePlan_outcome call).gated gated
  | prepare call => exact (prepare_outcome call).gated gated
  | decide call => exact (decide_outcome call).gated gated

theorem perform_refused {call : Call}
    (refused : (perform digest store call).2 = some error) : (perform digest store call).1 = store := by
  cases call with
  | approvePlan call => exact (approvePlan_outcome call).refused error (refusal_eq_some refused)
  | prepare call => exact (prepare_outcome call).refused error (refusal_eq_some refused)
  | decide call => exact (decide_outcome call).refused error (refusal_eq_some refused)

end Calls

abbrev Calls (digest : Body → String → String) : Store → Store → Prop :=
  Relation.ReflTransGen fun store store' => ∃ call, store' = (perform digest store call).1

theorem Gated.calls {digest : Body → String → String} (reached : Calls digest .empty store) : Gated store := by
  induction reached with
  | refl => exact .idle .unplanned rfl
  | tail _ last gated =>
    obtain ⟨call, rfl⟩ := last
    exact perform_gated gated call

theorem delivery_gate {digest : Body → String → String} {store : Store} (reached : Calls digest .empty store) :
    let state := store.readState
    (state.status = .waitingPlanApproval ∨ state.status = .regenerationRequired ↔ state.active = none) ∧
    (state.status = .waitingThumbnailApproval ↔ ∃ pair, state.active = some pair ∧
      pair.approvals.thumbnail = none ∧ pair.approvals.video = none) ∧
    (state.status = .waitingVideoApproval ↔ ∃ pair, state.active = some pair ∧
      pair.approvals.thumbnail.isSome ∧ pair.approvals.video = none) ∧
    (state.status = .readyForPublication ↔ ∃ pair, state.active = some pair ∧
      pair.approvals.thumbnail.isSome ∧ pair.approvals.video.isSome) ∧
    (∀ pair, state.active = some pair → planned store pair.planReceipt pair.binding ∧
      ∀ kind receiptId, pair.approvals.get kind = some receiptId →
        Approved store pair kind receiptId) ∧
    ∀ call error, (perform digest store call).2 = some error →
      (perform digest store call).1 = store := by
  intro state
  have gated := Gated.calls reached
  have stage := gated.stage
  refine ⟨?_, ?_, ?_, ?_, fun pair active => ⟨gated.planned pair active, gated.approved pair active⟩,
    fun _ _ => perform_refused⟩
  · rw [stage.closed]
    exact map_eq_none_iff
  · rw [stage.waitingThumbnail]
    simp [map_eq_some_iff, state]
  · rw [stage.waitingVideo]
    simp [map_eq_some_iff, state]
  · rw [stage.readyForPublication]
    simp [map_eq_some_iff, state]

def sampleCalls : List Call :=
  let episode : CompiledEpisode := ⟨"EP9", "c", [⟨0, 5, false⟩], none⟩
  let contract : ThumbnailContract := ⟨"Coragem", "Davi e Golias", "— 1 Samuel 17", none⟩
  let look : Look := ⟨.ok (), .ok (), .ok ()⟩
  let files : Files := ⟨fun path => .ok ("sha256 of " ++ path), fun _ => .ok ()⟩
  [.approvePlan
      { episode, manifest := ⟨"m", ["a.png"]⟩, contract, reviewer := "director", hold := 4, look
        now := "10:00" },
    .prepare
      { episode, manifest := ⟨"m", ["a.png"]⟩, contract, planReceipt := "10:00", hold := 4
        videoSuffix := ".mkv", look, files, revision := "r", directory := .ok "revisions/r"
        render := .ok .null, compose := .ok "revisions/r/thumbnail.png", lookAgain := look
        now := "10:05" },
    .decide
      { kind := "thumbnail", revision := "r"
        artifactSha256 := "sha256 of revisions/r/thumbnail.png", approved := .bool true
        reviewer := "director", feedback := "", files, now := "10:10" }]

def sampleStore : Store :=
  sampleCalls.foldl (fun store call => (perform (fun _ => id) store call).1) .empty

theorem calls_foldl (digest : Body → String → String) (calls : List Call) {store' : Store} (reached : Calls digest
    store store') : Calls digest store (calls.foldl (fun store call => (perform digest store call).1) store') := by
  induction calls generalizing store' with
  | nil => exact reached
  | cons call calls ih => exact ih (reached.tail ⟨call, rfl⟩)

theorem sampleStore_approved : ∃ pair, sampleStore.readState.active = some pair ∧
    pair.approvals.thumbnail.isSome ∧ pair.approvals.video = none :=
  (delivery_gate (calls_foldl _ sampleCalls .refl)).2.2.1.mp (by decide +kernel)

end VideoPoster.Offline
