import Mathlib.Algebra.Order.Ring.Rat
import Mathlib.Data.List.Sort
import VideoPoster.Python.Basic
import VideoPoster.Python.Json

/-!
# `autonomous`: the runner with two gates

The state of an episode is one JSON document, which every operation loads, changes and replaces under the lock of
the runner.
-/

namespace VideoPoster.Autonomous
open Python

inductive State where
  | ready | running | mediaPending | waitingThumbnailApproval | waitingVideoApproval | readyToPublish
  | publishIntent | published | rejected
  deriving DecidableEq

structure Job where
  scene : String
  category : String
  mode : String
  endpoint : String
  payload : Dict
  manifest : Option Json
  cost : ℚ
  predecessor : String
  inputKind : String
  deriving DecidableEq

structure Policy where
  version : String
  digest : String
  episodeCapUsd : ℚ
  monthCapUsd : ℚ
  allowedProviders : List String
  channel : String
  visibility : String
  publicationEnabled : Bool

structure Scheduler where
  providerConcurrency : ℕ
  cpuConcurrency : ℕ
  deriving DecidableEq

structure Binding where
  requestId : String
  jobSha256 : String
  supersededBy : Option String := none
  deriving DecidableEq

structure Identity where
  subject : Option String
  issuer : Option String
  deriving DecidableEq

structure Verdict where
  approved : Bool
  resultSha256 : Option String := none
  reviewer : Option String := none
  identity : Option Identity := none

inductive Kind where
  | thumbnail | video
  deriving DecidableEq

structure Media where
  path : String
  sha256 : String

structure Gate where
  artifactPath : String
  artifactSha256 : String
  approved : Bool
  reviewer : String

structure Document where
  episodeId : String
  policySha256 : String
  packetSha256 : String
  jobs : List Binding
  jobSpecs : List Job
  scheduler : Scheduler
  qa : List (String × Verdict) := []
  media : Kind → Option Media := fun _ => none
  gates : Kind → Option Gate := fun _ => none
  state : State := .ready

structure Package where
  episodeId : String
  policyVersion : String
  channel : String
  visibility : String
  thumbnailSha256 : String
  videoSha256 : String

structure Runner where
  episodeId : String
  policy : Policy
  scheduler : Scheduler

inductive Event where
  | staged (media : Kind → Media)
  | gated (kind : Kind) (sha256 : String) (approved : Bool)
  | added
  | published (package : Package)

structure Outcome where
  disk : Option Document
  event : Option Event := none
  result : Result Document

def policyError (message : String) : Error := ⟨.other "PolicyError", message⟩

def interrupted : Error := ⟨.other "Interrupted", ""⟩

def save (disk : Option Document) (saves : Bool) (document : Document) (event : Option Event) : Outcome :=
  if saves then ⟨some document, event, .ok document⟩ else ⟨disk, none, .error interrupted⟩

def saveAndRaise (disk : Option Document) (saves : Bool) (document : Document) (error : Error) : Outcome :=
  if saves then ⟨some document, none, .error error⟩ else ⟨disk, none, .error interrupted⟩

def Outcome.raise (disk : Option Document) (error : Error) : Outcome := ⟨disk, none, .error error⟩

namespace Policy

def authorizePaid (policy : Policy) (provider : String) (cost : ℚ) : Result Unit := do
  require (provider ∈ policy.allowedProviders) (policyError "provider is not allowed by policy")
  require (0 ≤ cost) (policyError "cost must be a non-negative finite decimal")
  require (0 < cost) (policyError "paid cost must be positive")
  require (cost ≤ policy.episodeCapUsd ∧ cost ≤ policy.monthCapUsd)
    (policyError "paid dispatch exceeds permanent budget ceiling")

end Policy

/-! ## Jobs -/

section Jobs
variable (requestId jobSha256 : Job → String)

def jobBinding (job : Job) : Binding := ⟨requestId job, jobSha256 job, none⟩

def jobFromSpec (spec : Job) : Result Job := do
  require spec.manifest.isSome (.type "'NoneType' object is not subscriptable")
  pure { spec with inputKind := "IMAGE_EDIT" }

def findSpec (id : String) : List Job → Result Job
  | [] => .error ⟨.other "StopIteration", ""⟩
  | spec :: rest => do
    let job ← jobFromSpec spec
    if requestId job = id then pure job else findSpec id rest

def strings : List Json → Option (List String)
  | [] => some []
  | .str text :: rest => (strings rest).map (text :: ·)
  | _ :: _ => none

def dependencies (job : Job) (known : List String) : Result (List String) := do
  let items := match job.payload.get "depends_on" with
    | none => some []
    | some (.arr items) => strings items
    | some _ => none
  match items with
  | none => .error (.value "job dependencies must be bound request IDs")
  | some items =>
    require (∀ item ∈ items, item ∈ known) (.value "job dependencies must be bound request IDs")
    require (requestId job ∉ items ∧ items.Nodup)
      (.value "job dependencies must be unique non-self request IDs")
    pure items

def topologicalWaves : ℕ → List (String × List String) → Result (List String)
  | 0, remaining =>
    if remaining.isEmpty then .ok [] else .error (.value "job dependency graph contains a cycle")
  | fuel + 1, remaining =>
    if remaining.isEmpty then .ok []
    else
      let ready := ((remaining.filter fun entry => entry.2.isEmpty).map Prod.fst).insertionSort (· ≤ ·)
      if ready.isEmpty then .error (.value "job dependency graph contains a cycle")
      else do
        let rest ← topologicalWaves fuel ((remaining.filter fun entry => entry.1 ∉ ready).map fun entry =>
          (entry.1, entry.2.filter (· ∉ ready)))
        pure (ready ++ rest)

def topologicalOrder (jobs : List Job) : Result (List String) := do
  let known := jobs.map requestId
  require known.Nodup (.value "jobs must have unique request ids")
  let edges ← jobs.mapM fun job => do
    let items ← dependencies requestId job known
    pure (requestId job, items)
  topologicalWaves jobs.length edges

end Jobs

namespace Runner
variable (requestId jobSha256 : Job → String) (runner : Runner)

def load (disk : Option Document) : Result Document :=
  match disk with
  | none => .error (.runtime "runner has not been started")
  | some document => do
    require (document.policySha256 = runner.policy.digest)
      (policyError "policy changed; explicit new runner required")
    pure document

/-! ## Starting, and adding jobs -/

structure Start where
  packetSha256 : String
  jobs : List Job
  saves : Bool

def admissible (jobs : List Job) : Result Unit := do
  require (runner.episodeId ≠ "" ∧ jobs ≠ []) (.value "episode, packet and at least one job are required")
  require (jobs.map requestId).Nodup (.value "jobs must have unique request ids")
  let _ ← topologicalOrder requestId jobs
  jobs.forM fun job => do
    require (job.mode = "TEST")
      (policyError "LIVE is not qualified by this runner; use existing production path")
    runner.policy.authorizePaid job.endpoint job.cost
  require ((jobs.map Job.cost).sum ≤ runner.policy.episodeCapUsd)
    (policyError "episode jobs exceed permanent budget ceiling")

def start (disk : Option Document) (call : Start) : Outcome :=
  match disk with
  | some _ =>
    match runner.load disk with
    | .error error => .raise disk error
    | .ok existing =>
      if existing.episodeId = runner.episodeId ∧ existing.packetSha256 = call.packetSha256 ∧
          existing.jobs = call.jobs.map (jobBinding requestId jobSha256) then
        ⟨disk, none, .ok existing⟩
      else .raise disk
        (.value "started runner conflicts with episode, packet, or jobs; never overwrite")
  | none =>
    match runner.admissible requestId call.jobs with
    | .error error => .raise disk error
    | .ok () => save disk call.saves
        ⟨runner.episodeId, runner.policy.digest, call.packetSha256,
          call.jobs.map (jobBinding requestId jobSha256), call.jobs, runner.scheduler, [],
          fun _ => none, fun _ => none, .ready⟩ none

structure AddSuccessors where
  jobs : List Job
  saves : Bool

def qaOf (document : Document) (id : String) : Option Verdict := document.qa.lookup id

def addSuccessor (candidate : Document) (job : Job) : Result (Document × Bool) := do
  let binding := jobBinding requestId jobSha256 job
  match candidate.jobs.find? fun item => item.requestId = requestId job with
  | some existing =>
    require (existing.jobSha256 = binding.jobSha256)
      (.value "successor request ID conflicts with durable job")
    pure (candidate, false)
  | none =>
    require (job.mode = "TEST" ∧ job.predecessor ≠ "")
      (policyError "only TEST hash-bound successor jobs are accepted")
    require (candidate.jobs.any fun item => item.requestId = job.predecessor)
      (.value "successor predecessor is not bound to this runner")
    let predecessor ← findSpec requestId job.predecessor candidate.jobSpecs
    let verdict := (qaOf candidate job.predecessor).map Verdict.approved
    require (job.scene = predecessor.scene) (.value "successor must bind the predecessor scene")
    if job.category = "hero" then
      require (verdict = some true ∧ predecessor.category = "first")
        (.value "hero requires an exact approved predecessor")
    else if job.category ∈ ["alternative", "correction", "hero_retry"] then
      require (verdict = some false) (.value "remediation requires an exact rejected predecessor")
    else .error (.value "unsupported successor category")
    runner.policy.authorizePaid job.endpoint job.cost
    require ((candidate.jobSpecs.map Job.cost).sum + job.cost ≤ runner.policy.episodeCapUsd)
      (policyError "successor jobs exceed permanent budget ceiling")
    pure ({ candidate with
      jobs := (candidate.jobs ++ [binding]).map fun item =>
        if item.requestId = job.predecessor then { item with supersededBy := some (requestId job) }
        else item
      jobSpecs := candidate.jobSpecs ++ [job] }, true)

def addAll (candidate : Document) : List Job → Result (Document × Bool)
  | [] => .ok (candidate, false)
  | job :: rest => do
    let (candidate, new) ← runner.addSuccessor requestId jobSha256 candidate job
    let (candidate, more) ← addAll candidate rest
    pure (candidate, new || more)

def addSuccessors (disk : Option Document) (call : AddSuccessors) : Outcome :=
  match runner.load disk with
  | .error error => .raise disk error
  | .ok document =>
    if document.state = .published ∨ document.state = .publishIntent then
      .raise disk (policyError "published or ambiguous delivery cannot accept successors")
    else
      match runner.addAll requestId jobSha256 document call.jobs with
      | .error error => .raise disk error
      | .ok (_, false) => ⟨disk, none, .ok document⟩
      | .ok (candidate, true) => save disk call.saves
          { candidate with media := fun _ => none, gates := fun _ => none, state := .running }
          (some .added)

/-! ## Resuming -/

structure Receipt where
  status : String
  requestId : String
  resultSha256 : Option String
  qa : Bool
  file : Option String

def independent (identity : Option Identity) : Bool :=
  match identity with
  | some ⟨some subject, some issuer⟩ => ¬blank subject ∧ ¬blank issuer ∧ subject ≠ "generator"
  | _ => false

def validatePersistedQa (receipt : Option Receipt) (id : String) (verdict : Verdict) : Result Unit :=
  match receipt with
  | some receipt => require (verdict.approved ∧ receipt.status = "COMPLETE" ∧ receipt.requestId = id ∧
      receipt.resultSha256.isSome ∧ receipt.file = receipt.resultSha256 ∧
      verdict.resultSha256 = receipt.resultSha256 ∧ receipt.qa ∧
      verdict.reviewer.any (fun reviewer => ¬blank reviewer) ∧ independent verdict.identity)
      (.value "persisted QA does not bind the exact completed artifact")
  | none => .error (.value "persisted QA does not bind the exact completed artifact")

def validateQa (inspect : String → Result (Option Receipt)) : List (String × Verdict) → Result Unit
  | [] => .ok ()
  | (id, verdict) :: rest => do
    if verdict.approved then
      let receipt ← inspect id
      validatePersistedQa receipt id verdict
    validateQa inspect rest

structure QaAnswer where
  requestId : Option String
  resultSha256 : Option String
  identity : Option Identity
  approved : Bool
  reviewer : Option String

def judge (id sha256 : String) (answer : Option QaAnswer) : Verdict :=
  match answer with
  | some answer =>
    if answer.requestId = some id ∧ answer.resultSha256 = some sha256 ∧ independent answer.identity then
      if answer.approved ∧ answer.reviewer.any (fun reviewer => ¬blank reviewer) then
        ⟨true, some sha256, answer.reviewer, answer.identity⟩
      else ⟨false, some sha256, answer.reviewer, answer.identity⟩
    else ⟨false, none, none, none⟩
  | none => ⟨false, none, none, none⟩

structure Done where
  requestId : String
  outcome : Result (String × Option (Option QaAnswer))
  recorded : Option Error
  saves : Bool

structure Round where
  inspect : String → Result (Option Receipt)
  saves : Bool
  done : List Done

def setQa (document : Document) (id : String) (verdict : Verdict) : Document :=
  { document with qa := document.qa.filter (fun entry => entry.1 ≠ id) ++ [(id, verdict)] }

def settle (document : Document) (inflight : List String) :
    List Done → Document × List String × Option Error
  | [] => (document, inflight, none)
  | task :: rest =>
    if task.requestId ∈ inflight then
      match task.outcome with
      | .error error => (document, inflight.erase task.requestId, some error)
      | .ok (_, none) => settle document (inflight.erase task.requestId) rest
      | .ok (sha256, some answer) =>
        let verdict := judge task.requestId sha256 answer
        match verdict.approved, task.recorded with
        | true, some error => (document, inflight.erase task.requestId, some error)
        | _, _ =>
          if task.saves then
            settle (setQa document task.requestId verdict) (inflight.erase task.requestId) rest
          else (document, inflight.erase task.requestId, some interrupted)
    else (document, inflight, some interrupted)

def approvedIn (document : Document) (id : String) : Option Bool := (qaOf document id).map Verdict.approved

def active (document : Document) : List String :=
  (document.jobs.filter fun item => item.supersededBy = none).map Binding.requestId

/-- The loop of `_resume_parallel`. Without a further turn it is stopped from outside. -/
def rounds (ordered : List String) (edges : String → List String) (window : ℕ) (document : Document)
    (inflight : List String) : List Round → Outcome
  | [] => .raise (some document) interrupted
  | round :: rest =>
    match validateQa round.inspect document.qa with
    | .error error =>
      if error.kind = .valueError then
        saveAndRaise (some document) round.saves { document with state := .rejected } error
      else .raise (some document) error
    | .ok () =>
      if (active document).any fun id => approvedIn document id = some false then
        save (some document) round.saves { document with state := .rejected } none
      else
        let pending := ordered.filter fun id => (qaOf document id).isNone ∧ id ∉ inflight
        if pending = [] ∧ inflight = [] then
          if (active document).all fun id => approvedIn document id = some true then
            save (some document) round.saves { document with state := .mediaPending } none
          else .raise (some document) (.runtime "active jobs have no reusable QA verdict")
        else if pending.any fun id => (edges id).any fun dep => approvedIn document dep = some false then
          save (some document) round.saves { document with state := .rejected } none
        else
          let ready := pending.filter fun id => (edges id).all fun dep => approvedIn document dep = some true
          let inflight := inflight ++ ready.take (window - inflight.length)
          if inflight = [] then
            .raise (some document) (.runtime "unfinished jobs have unresolved dependency QA")
          else
            match settle document inflight round.done with
            | (document, _, some error) => .raise (some document) error
            | (document, inflight, none) => rounds ordered edges window document inflight rest

structure Resume where
  jobs : Option (List Job)
  inspect : String → Result (Option Receipt)
  saves : Bool
  rounds : List Round

def validateResumeJobs (document : Document) (jobs : List Job) : Result (List Job) := do
  let expected := document.jobs.map fun item => (item.requestId, item.jobSha256)
  let actual := jobs.map fun job => (requestId job, jobSha256 job)
  require ((∀ entry ∈ actual, entry ∈ expected) ∧ ∀ entry ∈ expected, entry ∈ actual)
    (.value "resume jobs do not match hash-bound started jobs")
  pure (jobs.foldl (fun known job =>
    if known.any fun other => requestId other = requestId job then known else known ++ [job]) [])

def resumedJobs (document : Document) : Option (List Job) → Result (List Job)
  | some jobs => validateResumeJobs requestId jobSha256 document jobs
  | none => do
    let jobs ← document.jobSpecs.mapM jobFromSpec
    validateResumeJobs requestId jobSha256 document jobs

def resumeParallel (disk : Option Document) (call : Resume) : Outcome :=
  match runner.load disk with
  | .error error => .raise disk error
  | .ok document =>
    if document.scheduler ≠ runner.scheduler then
      .raise disk (policyError "scheduler limits differ from hash-bound runner state")
    else
      match resumedJobs requestId jobSha256 document call.jobs with
      | .error error => .raise disk error
      | .ok jobs =>
        if document.state ≠ .ready ∧ document.state ≠ .running then
          -- a terminal state is a promotion boundary as well
          match validateQa call.inspect document.qa with
          | .error error =>
            if error.kind = .valueError then
              saveAndRaise disk call.saves { document with state := .rejected } error
            else .raise disk error
          | .ok () => ⟨disk, none, .ok document⟩
        else if call.saves then
          let document := { document with state := .running }
          match topologicalOrder requestId jobs with
          | .error error => .raise (some document) error
          | .ok ordered =>
            let edges := fun id => ((jobs.find? fun job => requestId job = id).bind fun job =>
              (dependencies requestId job ordered).toOption).getD []
            rounds ordered edges
              (runner.scheduler.providerConcurrency + runner.scheduler.cpuConcurrency) document []
              call.rounds
        else .raise disk interrupted

/-! ## Staging, the gates and the publication -/

/-- What a look at an artifact shows: its path, and if it is a file whether it can be decoded and the
hash of its bytes. -/
structure Artifact where
  path : String
  isFile : Bool
  decodes : Result Unit
  sha256 : String

structure StageDelivery where
  artifacts : Kind → Artifact
  qa : Bool
  saves : Bool

def decodable (artifact : Artifact) : Result Unit := do
  require artifact.isFile (.value "staged artifact is missing")
  artifact.decodes

def stageDelivery (disk : Option Document) (call : StageDelivery) : Outcome :=
  match runner.load disk with
  | .error error => .raise disk error
  | .ok document =>
    if document.state ≠ .mediaPending ∨ ¬((active document).all fun id => (qaOf document id).isSome) ∨
        (active document).any fun id => approvedIn document id = some false then
      .raise disk (.value "media staging requires completed hash-bound source QA")
    else if ¬call.qa then
      saveAndRaise disk call.saves { document with state := .rejected }
        (.value "technical QA requires independent TEST assertions")
    else
      match decodable (call.artifacts .thumbnail) >>= fun _ => decodable (call.artifacts .video) with
      | .error error => .raise disk error
      | .ok () =>
        let media := fun kind => (⟨(call.artifacts kind).path, (call.artifacts kind).sha256⟩ : Media)
        save disk call.saves
          { document with media := fun kind => some (media kind), state := .waitingThumbnailApproval }
          (some (.staged media))

structure RecordHumanGate where
  kind : Kind
  artifact : Artifact
  approved : Bool
  reviewer : String
  saves : Bool

def expectedState : Kind → State
  | .thumbnail => .waitingThumbnailApproval
  | .video => .waitingVideoApproval

def decidedState (kind : Kind) (approved : Bool) : State :=
  if approved then
    match kind with
    | .thumbnail => .waitingVideoApproval
    | .video => .readyToPublish
  else .rejected

def setGate (document : Document) (kind : Kind) (gate : Gate) : Document :=
  { document with gates := Function.update document.gates kind (some gate) }

def gateChecks (document : Document) (call : RecordHumanGate) : Result Unit := do
  require (document.state = expectedState call.kind) (.value "human gate is out of order")
  require ((document.media call.kind).any fun media => media.path = call.artifact.path)
    (.value "human gate artifact must be the exact staged delivery artifact")
  require (call.artifact.isFile ∧ ¬blank call.reviewer)
    (.value "human gate requires existing artifact, boolean decision and reviewer")
  call.artifact.decodes
  require ((document.media call.kind).any fun media => media.sha256 = call.artifact.sha256)
    (.value "human gate artifact bytes no longer match staged delivery")

def recordHumanGate (disk : Option Document) (call : RecordHumanGate) : Outcome :=
  match runner.load disk with
  | .error error => .raise disk error
  | .ok document =>
    match gateChecks document call with
    | .error error => .raise disk error
    | .ok () =>
      let gated := setGate document call.kind
        ⟨call.artifact.path, call.artifact.sha256, call.approved, call.reviewer⟩
      save disk call.saves { gated with state := decidedState call.kind call.approved }
        (some (.gated call.kind call.artifact.sha256 call.approved))

inductive Publishing where
  | stopped
  | raised (error : Error)
  | returned (readback : Bool) (saves : Bool)

structure Publish where
  look : String → Result (Option String)
  saves : Bool
  publishing : Publishing

def publishPackage (document : Document) (call : Publish) : Result Package := do
  match document.gates .thumbnail, document.gates .video with
  | some thumbnail, some video =>
    require (thumbnail.approved ∧ video.approved)
      (policyError "publication requires two approved hash-bound gates")
    let found ← call.look thumbnail.artifactPath
    require (found = some thumbnail.artifactSha256)
      (policyError "approved artifact bytes no longer match gate")
    let found ← call.look video.artifactPath
    require (found = some video.artifactSha256)
      (policyError "approved artifact bytes no longer match gate")
    pure ⟨runner.episodeId, runner.policy.version, runner.policy.channel, runner.policy.visibility,
      thumbnail.artifactSha256, video.artifactSha256⟩
  | _, _ => .error (policyError "publication requires two approved hash-bound gates")

def publish (disk : Option Document) (call : Publish) : Outcome :=
  match runner.load disk with
  | .error error => .raise disk error
  | .ok document =>
    if ¬runner.policy.publicationEnabled then
      .raise disk (policyError "publication is disabled by policy; production remains permitted")
    else if document.state = .published then ⟨disk, none, .ok document⟩
    else if document.state = .publishIntent then
      .raise disk (.runtime "ambiguous publish intent requires remote reconciliation; no replay")
    else if document.state ≠ .readyToPublish then
      .raise disk (policyError "publication requires both exact human approvals")
    else
      match runner.publishPackage document call with
      | .error error => .raise disk error
      | .ok package =>
        if call.saves then
          let intent := { document with state := .publishIntent }
          match call.publishing with
          | .stopped => .raise (some intent) interrupted
          | .raised error => ⟨some intent, some (.published package), .error error⟩
          | .returned false _ => ⟨some intent, some (.published package),
              .error (.runtime "publisher readback must bind the exact approved video")⟩
          | .returned true false => ⟨some intent, some (.published package), .error interrupted⟩
          | .returned true true => ⟨some { intent with state := .published }, some (.published package),
              .ok { intent with state := .published }⟩
        else .raise disk interrupted

/-! ## Calls -/

inductive Call where
  | start (call : Start)
  | addSuccessors (call : AddSuccessors)
  | resume (call : Resume)
  | stageDelivery (call : StageDelivery)
  | recordHumanGate (call : RecordHumanGate)
  | publish (call : Publish)

def perform (disk : Option Document) : Call → Outcome
  | .start call => runner.start requestId jobSha256 disk call
  | .addSuccessors call => runner.addSuccessors requestId jobSha256 disk call
  | .resume call => runner.resumeParallel requestId jobSha256 disk call
  | .stageDelivery call => runner.stageDelivery disk call
  | .recordHumanGate call => runner.recordHumanGate disk call
  | .publish call => runner.publish disk call

end Runner
end VideoPoster.Autonomous
