import VideoPoster.Autonomous.History
import VideoPoster.Production.Imported

/-!
# `autonomous`: the compiled TEST adapter
-/

namespace VideoPoster.Production
open Python Billing Tables Executor Option Pipeline Table List Row Function
open Autonomous (Document Verdict reviewerIdentity qaAnswer closedIdentity recordVerdict)
open Autonomous.Runner (qaOf setQa judge)
open StandingBudget (textField)

/-- The pipeline, the rows of the executor they share, and the document of the runner; besides, the
identities of its reviewers with all their fields. -/
structure Adapter where
  pipeline : Pipeline
  jobs : Jobs
  document : Document
  identities : String → Option Dict

variable (D : Deployment) (media : Media)

/-! ## Reviewing -/

def technicalFailure (row : Row) : Json :=
  .obj [("approved", .bool false), ("reviewer", .str "technical-test-qa"),
    ("reviewer_identity", .obj [("subject", .str "technical-test-qa"), ("issuer", .str "TEST local inspection")]),
    ("request_id", .str row.requestId), ("result_sha256", (row.resultSha256.map Json.str).getD .null)]

/-- `qa_after_technical_check`; `answer` is what the independent reviewer says if it is asked. -/
def qaAfterTechnicalCheck (A : Adapter) (row : Row) (answer : Json) : Result Json :=
  if row.category = .hero ∨ row.category = .heroRetry then .ok answer
  else do
    let packet ← A.pipeline.prepareQaPacket D media A.jobs row.scene
    if packet.any ImagePacket.technicalPass then pure answer else pure (technicalFailure row)

def Adapter.record (A : Adapter) (id sha256 : String) (answer : Json) (saves : Bool) : Adapter :=
  let recording := recordVerdict media.files A.jobs A.document id sha256 answer saves
  { A with
    jobs := recording.jobs
    document := recording.document
    identities :=
      match recording.result with
      | .ok () => update A.identities id (reviewerIdentity answer)
      | .error _ => A.identities }

/-! ## Projecting -/

def closeIdentity (identity : Dict) : Option ReviewerIdentity := do
  let subject ← textField identity "subject"
  let issuer ← textField identity "issuer"
  if Dict.keysAre identity ["subject", "issuer"] then some ⟨subject, issuer⟩ else none

abbrev Projection := Pipeline → Jobs → String × Verdict → Result (Option Pipeline.VisualQa)

variable (identities : String → Option Dict)

def storedIdentity (entry : String × Verdict) : Option Dict :=
  entry.2.identity.bind fun _ => identities entry.1

def synchronization : Projection := fun P jobs entry =>
  match jobs.find? entry.1 with
  | none => .error (.value "runner QA has no completed executor receipt")
  | some row => do
    require (row.status = .complete) (.value "runner QA has no completed executor receipt")
    require (entry.2.resultSha256 = row.resultSha256) (.value "runner QA does not bind executor receipt")
    if row.qa = none then
      match row.resultSha256 with
      | none => .error (.key "result_sha256")
      | some sha256 => do
        let job ← P.completedJobForResult D jobs row.scene sha256
        require (D.requestId job = entry.1)
          (.value "runner QA receipt is not the active compiled lineage")
        match entry.2.reviewer, storedIdentity identities entry with
        | some reviewer, some identity => do
          require (blank reviewer = false) (.value "runner QA reviewer identity is missing")
          pure (some
            { sceneId := job.scene
              resultSha256 := sha256
              approved := entry.2.approved
              reviewer := reviewer
              reviewerIdentity := some (closeIdentity identity) })
        | _, _ => .error (.value "runner QA reviewer identity is missing")
    else pure none

def promotion : Projection := fun P jobs entry =>
  if entry.2.approved then
    match jobs.find? entry.1, entry.2.reviewer, storedIdentity identities entry with
    | some row, some reviewer, some identity => do
      require (row.status = .complete ∧ entry.2.resultSha256 = row.resultSha256 ∧ blank reviewer = false)
        (.value "runner PASS is incomplete or does not bind compiled receipt")
      match row.resultSha256 with
      | none => .error (.key "result_sha256")
      | some sha256 => do
        let job ← P.completedJobForResult D jobs row.scene sha256
        require (D.requestId job = entry.1) (.value "runner PASS is not the active compiled receipt")
        pure (some
          { sceneId := job.scene
            resultSha256 := sha256
            approved := true
            reviewer := reviewer
            reviewerIdentity := some (closeIdentity identity) })
    | _, _, _ => .error (.value "runner PASS is incomplete or does not bind compiled receipt")
  else .ok none

variable (projection : Projection)

def carryEntry (P : Pipeline) (jobs : Jobs) (entry : String × Verdict) : Pipeline × Jobs × Result Unit :=
  match projection P jobs entry with
  | .error error => (P, jobs, .error error)
  | .ok none => (P, jobs, .ok ())
  | .ok (some call) =>
    let (P, jobs, answer) := P.recordVisualQa D media jobs call
    (P, jobs, answer.map fun _ => ())

def carry : List (String × Verdict) → Pipeline → Jobs → Pipeline × Jobs × Result Unit
  | [], P, jobs => (P, jobs, .ok ())
  | entry :: rest, P, jobs =>
    match carryEntry D media projection P jobs entry with
    | (P, jobs, .ok ()) => carry rest P jobs
    | (P, jobs, .error error) => (P, jobs, .error error)

namespace Adapter

def after (A : Adapter) (carried : Pipeline × Jobs × Result Unit) : Adapter :=
  { A with pipeline := carried.1, jobs := carried.2.1 }

def synchronized (A : Adapter) : Pipeline × Jobs × Result Unit :=
  carry D media (synchronization D A.identities) A.document.qa A.pipeline A.jobs

def promoted (A : Adapter) : Pipeline × Jobs × Result Unit :=
  carry D media (promotion D A.identities) A.document.qa A.pipeline A.jobs

/-! ## Histories -/

structure Baselines (D : Deployment) (jobs : Jobs) : Prop where
  identified : ∀ row ∈ jobs, row.requestId = D.requestId row.request
  original : ∀ row ∈ jobs, row.predecessor = ""

/-- The histories of `start` and `resume`. The runner executes the active images and records what is said
of them; each resume ends with a synchronization, and if all has passed, with a promotion. The disk is open
at every step, and so are the other fields of the document. -/
inductive Reached (D : Deployment) (plan : Plan) (imported : String → Option FrozenAsset) : Adapter → Prop
  | start (jobs : Jobs) (document : Document) (test : plan.episode.mode = .test)
      (executable : plan.requireExecutableMotionInventory = .ok ()) (baselines : Baselines D jobs)
      (pending : document.qa = []) :
      Reached D plan imported ⟨start plan imported, jobs, document, fun _ => none⟩
  | restart {A : Adapter} (before : Reached D plan imported A) :
      Reached D plan imported
        { A with
          pipeline :=
            { start plan imported with qa := A.pipeline.qa, clipPackets := A.pipeline.clipPackets } }
  | saved {A : Adapter} (document : Document) (before : Reached D plan imported A)
      (same : document.qa = A.document.qa) : Reached D plan imported { A with document := document }
  | executed {A : Adapter} (row : Row) (before : Reached D plan imported A)
      (active : A.pipeline.run.activeImages row.scene = some row.request)
      (identified : row.requestId = D.requestId row.request) (unreviewed : row.review = none)
      (unfinished : ∀ old, A.jobs.find? row.requestId = some old → old.status ≠ .complete) :
      Reached D plan imported { A with jobs := A.jobs.put row }
  | judged {A : Adapter} (media : Media) (row : Row) (sha256 : String) (answer verdict : Json) (saves : Bool)
      (before : Reached D plan imported A)
      (found : A.jobs.find? row.requestId = some row)
      (active : A.pipeline.run.activeImages row.scene = some row.request)
      (complete : row.status = .complete) (bytes : row.resultSha256 = some sha256)
      (pending : qaOf A.document row.requestId = none)
      (checked : qaAfterTechnicalCheck D media A row answer = .ok verdict) :
      Reached D plan imported (A.record media row.requestId sha256 verdict saves)
  | synchronized {A : Adapter} (media : Media) (before : Reached D plan imported A) :
      Reached D plan imported (A.after (A.synchronized D media))
  | promoted {A : Adapter} (media : Media) (before : Reached D plan imported A) :
      Reached D plan imported (A.after (A.promoted D media))

end Adapter

variable {D media} {identities : String → Option Dict} {projection : Projection} {plan : Plan}
  {imported : String → Option FrozenAsset} {A : Adapter} {P P' : Pipeline} {jobs jobs' : Jobs}
  {entry : String × Verdict} {entries : List (String × Verdict)} {row : Row} {sha256 : String}

/-! ## What a decision changes -/

def Decides (id : String) (jobs jobs' : Jobs) : Prop :=
  jobs' = jobs ∨ ∃ row review, jobs.find? id = some row ∧ row.review = none ∧
    jobs' = jobs.put { row with review := some review }

variable {files : Files} {args : QaArgs}

theorem qaRow_eq_ok (is : qaRow files none args jobs = .ok jobs') :
    ∃ row review, jobs.find? args.requestId = some row ∧ args.review = .ok review ∧ row.generation = none ∧
      verifyReceipt files row = .ok () ∧
      (row.review = some review ∧ jobs' = jobs ∨
        row.review = none ∧ jobs' = jobs.put { row with review := some review }) := by
  simp only [qaRow, bind_eq_ok] at is
  obtain ⟨review, reviewed, is⟩ := is
  cases found : jobs.find? args.requestId with
  | none =>
    rw [found] at is
    cases is
  | some row =>
    rw [found] at is
    simp only [bind_eq_ok, require_eq_ok, exists_const, requireCoordinatorWrite_eq_ok] at is
    obtain ⟨unpinned, -, ⟨⟩, verified, is⟩ := is
    refine ⟨row, review, rfl, reviewed, unpinned.elim id Eq.symm, verified, ?_⟩
    cases decided : row.review with
    | none =>
      rw [decided] at is
      exact .inr ⟨rfl, (pure_eq_ok.mp is).symm⟩
    | some recorded =>
      rw [decided] at is
      simp only [bind_eq_ok, require_eq_ok, exists_const, pure_eq_ok] at is
      exact .inl ⟨congrArg some is.1, is.2.symm⟩

theorem Decides.of_qaRow (is : qaRow files none args jobs = .ok jobs') : Decides args.requestId jobs jobs' := by
  obtain ⟨row, review, found, -, -, -, ⟨-, same⟩ | ⟨fresh, changed⟩⟩ := qaRow_eq_ok is
  · exact .inl same
  · exact .inr ⟨row, review, found, fresh, changed⟩

variable {id : String}

theorem Decides.find?_of_ne {other : String} (decides : Decides id jobs jobs') (distinct : other ≠ id) :
    jobs'.find? other = jobs.find? other := by
  obtain rfl | ⟨row, review, found, -, rfl⟩ := decides
  · rfl
  · obtain ⟨-, key⟩ := find?_eq_some.mp found
    exact find?_put_of_ne jobs fun same => distinct (same.trans key)

theorem reviewed_of_qaRow (is : qaRow files none args jobs = .ok jobs')
    (found : jobs'.find? args.requestId = some row) : row.review ≠ none := by
  obtain ⟨decided, review, found', -, -, -, ⟨same, rfl⟩ | ⟨-, rfl⟩⟩ := qaRow_eq_ok is
  · cases found.symm.trans found'
    rw [same]
    exact some_ne_none _
  · obtain ⟨-, key⟩ := find?_eq_some.mp found'
    rw [← key] at found
    cases found.symm.trans (find?_put_self jobs { decided with review := some review })
    exact some_ne_none _

structure Kept (jobs jobs' : Jobs) : Prop where
  rows : ∀ id row, jobs.find? id = some row → ∃ row', jobs'.find? id = some row' ∧ row'.request = row.request ∧
    row'.status = row.status ∧ row'.result = row.result ∧ row'.resultSha256 = row.resultSha256 ∧
    (row.review ≠ none → row'.review ≠ none)
  added : ∀ row ∈ jobs', ∃ old ∈ jobs, row.requestId = old.requestId ∧ row.request = old.request

theorem Kept.refl (jobs : Jobs) : Kept jobs jobs :=
  ⟨fun _ row found => ⟨row, found, rfl, rfl, rfl, rfl, id⟩, fun row member => ⟨row, member, rfl, rfl⟩⟩

theorem Kept.trans {jobs'' : Jobs} (first : Kept jobs jobs') (second : Kept jobs' jobs'') : Kept jobs jobs'' := by
  constructor
  · intro id row found
    obtain ⟨row', found', request, status, result, bytes, reviewed⟩ := first.rows id row found
    obtain ⟨row'', found'', request', status', result', bytes', reviewed'⟩ := second.rows id row' found'
    exact ⟨row'', found'', request'.trans request, status'.trans status, result'.trans result, bytes'.trans bytes,
      fun review => reviewed' (reviewed review)⟩
  · intro row member
    obtain ⟨old, member, id, request⟩ := second.added row member
    obtain ⟨older, member, id', request'⟩ := first.added old member
    exact ⟨older, member, id.trans id', request.trans request'⟩

theorem Decides.kept (decides : Decides id jobs jobs') : Kept jobs jobs' := by
  obtain rfl | ⟨decided, review, found, fresh, rfl⟩ := decides
  · exact .refl jobs'
  obtain ⟨stored, key⟩ := find?_eq_some.mp found
  constructor
  · intro other row found'
    by_cases same : other = id
    · subst same
      cases found.symm.trans found'
      refine ⟨{ decided with review := some review }, ?_, rfl, rfl, rfl, rfl, fun _ => some_ne_none _⟩
      rw [← key]
      exact find?_put_self jobs _
    · refine ⟨row, ?_, rfl, rfl, rfl, rfl, fun reviewed => reviewed⟩
      rw [← found']
      exact find?_put_of_ne jobs fun equal => same (equal.trans key)
  · intro row member
    rcases mem_put.mp member with rfl | ⟨old, -⟩
    · exact ⟨decided, stored, rfl, rfl⟩
    · exact ⟨row, old, rfl, rfl⟩

theorem Adapter.Baselines.kept (baselines : Adapter.Baselines D jobs) (kept : Kept jobs jobs') :
    Adapter.Baselines D jobs' := by
  constructor
  · intro row member
    obtain ⟨old, stored, id, request⟩ := kept.added row member
    rw [id, request]
    exact baselines.identified old stored
  · intro row member
    obtain ⟨old, stored, -, request⟩ := kept.added row member
    unfold predecessor
    rw [request]
    exact baselines.original old stored

theorem Pipeline.recordVisualQa_decides (D : Deployment) (media : Media) (P : Pipeline) (jobs : Jobs) (call :
    VisualQa) : (P.recordVisualQa D media jobs call).2.1 = jobs ∨ ∃ job, P.completedJobForResult D jobs call.sceneId
    call.resultSha256 = .ok job ∧ Decides (D.requestId job) jobs (P.recordVisualQa D media jobs call).2.1 := by
  unfold recordVisualQa
  split
  · exact .inl rfl
  · rename_i job packet admitted
    have eligible := admitVisualQa_eq_ok admitted
    dsimp only
    split_ifs
    · exact .inl rfl
    · split
      · exact .inl rfl
      · rename_i jobs' reviewed
        refine .inr ⟨job, eligible, ?_⟩
        dsimp only
        simp only [reviewCandidate, bind_eq_ok] at reviewed
        obtain ⟨⟨⟩, -, job', eligible', reviewed⟩ := reviewed
        have same : (P.writePacket D job packet).completedJobForResult D jobs call.sceneId call.resultSha256 =
            P.completedJobForResult D jobs call.sceneId call.resultSha256 := by
          unfold completedJobForResult
          rw [(writePacket_same (D := D) P job packet).1]
        cases eligible.symm.trans (same.symm.trans eligible')
        split at reviewed
        · cases reviewed
        · exact .of_qaRow reviewed

theorem carryEntry_frame (D : Deployment) (media : Media) (projection : Projection)
    (P : Pipeline) (jobs : Jobs) (entry : String × Verdict) : (carryEntry D media projection P jobs entry).1.run =
    P.run ∧ Kept jobs (carryEntry D media projection P jobs entry).2.1 := by
  unfold carryEntry
  split
  · exact ⟨rfl, .refl jobs⟩
  · exact ⟨rfl, .refl jobs⟩
  · rename_i call _
    refine ⟨(recordVisualQa_cases (D := D) P media jobs call).1, ?_⟩
    obtain same | ⟨job, -, decides⟩ := P.recordVisualQa_decides D media jobs call
    · dsimp only
      rw [same]
      exact .refl jobs
    · exact decides.kept

theorem carry_frame (D : Deployment) (media : Media) (projection : Projection)
    (P : Pipeline) (jobs : Jobs) (entries : List (String × Verdict)) : (carry D media projection entries P jobs).1.run =
    P.run ∧ Kept jobs (carry D media projection entries P jobs).2.1 := by
  induction entries generalizing P jobs with
  | nil => exact ⟨rfl, .refl jobs⟩
  | cons entry rest ih =>
    have first := carryEntry_frame D media projection P jobs entry
    unfold carry
    split
    · rename_i P' jobs' carried
      rw [carried] at first
      obtain ⟨run, kept⟩ := ih P' jobs'
      exact ⟨run.trans first.1, first.2.trans kept⟩
    · rename_i P' jobs' error carried
      rw [carried] at first
      exact first

/-! ## What every history keeps -/

def Recorded (plan : Plan) (jobs : Jobs) (entry : String × Verdict) : Prop :=
  ∃ row sha256, jobs.find? entry.1 = some row ∧ plan.baseline row.scene = some row.request ∧
    row.status = .complete ∧ row.resultSha256 = some sha256 ∧
    (entry.2.approved = true → entry.2.resultSha256 = some sha256 ∧ row.review ≠ none)

theorem Recorded.kept (recorded : Recorded plan jobs entry) (kept : Kept jobs jobs') : Recorded plan jobs' entry := by
  obtain ⟨row, sha256, found, baseline, complete, bytes, approved⟩ := recorded
  obtain ⟨row', found', request, status, -, same, reviewed⟩ := kept.rows entry.1 row found
  refine ⟨row', sha256, found', ?_, status.trans complete, same.trans bytes, fun is => ?_⟩
  · unfold scene
    rw [request]
    exact baseline
  · exact ⟨(approved is).1, reviewed (approved is).2⟩

structure Adapter.Inv (D : Deployment) (plan : Plan) (A : Adapter) : Prop where
  test : plan.episode.mode = .test
  executable : plan.requireExecutableMotionInventory = .ok ()
  run : A.pipeline.run = plan.start
  baselines : Adapter.Baselines D A.jobs
  distinct : (A.document.qa.map Prod.fst).Nodup
  recorded : ∀ entry ∈ A.document.qa, Recorded plan A.jobs entry

theorem lookup_eq_none {α β : Type} [BEq α] [LawfulBEq α] {entries : List (α × β)} {key : α}
    (absent : entries.lookup key = none) : ∀ entry ∈ entries, entry.1 ≠ key := by
  intro entry member same
  exact absurd (lookup_eq_none_iff.mp absent entry member) (by simp [same])

theorem baseline_predecessor {sceneId : String} {job : Job} (is : plan.baseline sceneId = some job) :
    job.predecessor = "" := by
  unfold Plan.baseline at is
  split_ifs at is
  obtain ⟨frame, -, rfl⟩ := map_eq_some_iff.mp is
  rfl

namespace Adapter

section
variable (inv : Inv D plan A)
include inv

theorem Inv.after (entries : List (String × Verdict)) :
    Inv D plan (A.after (carry D media projection entries A.pipeline A.jobs)) := by
  obtain ⟨run, kept⟩ :=
    carry_frame D media projection A.pipeline A.jobs entries
  exact ⟨inv.test, inv.executable, run.trans inv.run, inv.baselines.kept kept, inv.distinct,
    fun entry member => (inv.recorded entry member).kept kept⟩

theorem Inv.executed (active : A.pipeline.run.activeImages row.scene = some row.request)
    (identified : row.requestId = D.requestId row.request)
    (unfinished : ∀ old, A.jobs.find? row.requestId = some old → old.status ≠ .complete) :
    Inv D plan { A with jobs := A.jobs.put row } := by
  rw [inv.run] at active
  have baselines := inv.baselines
  refine ⟨inv.test, inv.executable, inv.run, ⟨?_, ?_⟩, inv.distinct, ?_⟩
  · intro other member
    rcases mem_put.mp member with rfl | ⟨old, -⟩
    · exact identified
    · exact baselines.identified other old
  · intro other member
    rcases mem_put.mp member with rfl | ⟨old, -⟩
    · exact baseline_predecessor active
    · exact baselines.original other old
  · intro entry member
    obtain ⟨stored, sha256, found, rest⟩ := inv.recorded entry member
    refine ⟨stored, sha256, ?_, rest⟩
    rw [← found]
    refine find?_put_of_ne A.jobs fun same => ?_
    exact unfinished stored (same ▸ found) rest.2.1

theorem Inv.stored {verdict : Verdict} (kept : Kept A.jobs jobs') (pending :
    qaOf A.document row.requestId = none) (recorded : Recorded plan jobs' (row.requestId, verdict)) (identities' :
    String → Option Dict) : Inv D plan ⟨A.pipeline, jobs', setQa A.document row.requestId verdict, identities'⟩ := by
  have absent := lookup_eq_none pending
  have others : (A.document.qa.filter fun entry => entry.1 ≠ row.requestId) = A.document.qa :=
    filter_eq_self.mpr fun entry member => decide_eq_true (absent entry member)
  refine ⟨inv.test, inv.executable, inv.run, inv.baselines.kept kept, ?_, ?_⟩
  · simp only [setQa, others, map_append, map_cons, map_nil]
    refine .append inv.distinct (nodup_singleton _) ?_
    rw [disjoint_singleton]
    intro listed
    obtain ⟨entry, member, same⟩ := mem_map.mp listed
    exact absent entry member same
  · intro entry member
    simp only [setQa, others, mem_append, mem_singleton] at member
    rcases member with old | rfl
    · exact (inv.recorded entry old).kept kept
    · exact recorded

theorem Inv.judged {answer : Json} (saves : Bool) (found : A.jobs.find? row.requestId = some row)
    (active : A.pipeline.run.activeImages row.scene = some row.request) (complete : row.status = .complete)
    (bytes : row.resultSha256 = some sha256) (pending : qaOf A.document row.requestId = none) :
    Inv D plan (A.record media row.requestId sha256 answer saves) := by
  rw [inv.run] at active
  have same : Inv D plan { A with identities := (A.record media row.requestId sha256 answer saves).identities } :=
    ⟨inv.test, inv.executable, inv.run, inv.baselines, inv.distinct, inv.recorded⟩
  by_cases known : answer = .null
  · have unchanged : recordVerdict media.files A.jobs A.document row.requestId sha256 answer saves =
        ⟨A.document, A.jobs, .ok ()⟩ := if_pos known
    simp only [record, unchanged] at same ⊢
    exact same
  cases approved : (judge row.requestId sha256 (qaAnswer answer)).approved with
  | false =>
    have rejected : recordVerdict media.files A.jobs A.document row.requestId sha256 answer saves =
        if saves then ⟨setQa A.document row.requestId (judge row.requestId sha256 (qaAnswer answer)), A.jobs, .ok ()⟩
        else ⟨A.document, A.jobs, .error Autonomous.interrupted⟩ := by
      cases saves <;> simp [recordVerdict, known, approved]
    simp only [record, rejected] at same ⊢
    cases saves with
    | false => exact same
    | true =>
      refine inv.stored (.refl A.jobs) pending ⟨row, sha256, found, active, complete, bytes, fun is => ?_⟩ _
      cases approved.symm.trans is
  | true =>
    cases decided : qaRow media.files none (Autonomous.approval row.requestId sha256 answer) A.jobs with
    | error error =>
      have refused := @Autonomous.recordVerdict_refused _ _ A.document _ _ _ _ known approved decided saves
      simp only [record, refused] at same ⊢
      exact same
    | ok jobs' =>
      have accepted := @Autonomous.recordVerdict_accepted _ _ _ A.document _ _ _ known approved decided saves
      have kept := (Decides.of_qaRow decided).kept
      simp only [record, accepted] at same ⊢
      cases saves with
      | false =>
        exact ⟨inv.test, inv.executable, inv.run, inv.baselines.kept kept, inv.distinct,
          fun entry member => (inv.recorded entry member).kept kept⟩
      | true =>
        refine inv.stored kept pending ?_ _
        obtain ⟨row', found', request, status, -, bytes', -⟩ := kept.rows row.requestId row found
        have baseline : plan.baseline row'.scene = some row'.request := by
          unfold scene
          rw [request]
          exact active
        refine ⟨row', sha256, found', baseline, status.trans complete, bytes'.trans bytes, fun _ => ?_⟩
        exact ⟨(Autonomous.judge_approved approved).1, reviewed_of_qaRow decided found'⟩

end

theorem Reached.inv (reached : Reached D plan imported A) : Inv D plan A := by
  induction reached with
  | start jobs document test executable baselines pending =>
    refine ⟨test, executable, rfl, baselines, ?_, ?_⟩
    · rw [pending]
      exact nodup_nil
    · intro entry member
      rw [pending] at member
      cases member
  | restart _ ih => exact ⟨ih.test, ih.executable, rfl, ih.baselines, ih.distinct, ih.recorded⟩
  | saved document _ same ih =>
    refine ⟨ih.test, ih.executable, ih.run, ih.baselines, ?_, ?_⟩
    · rw [same]
      exact ih.distinct
    · rw [same]
      exact ih.recorded
  | executed row _ active identified _ unfinished ih => exact ih.executed active identified unfinished
  | judged media row sha256 answer verdict saves _ found active complete bytes pending _ ih =>
    exact ih.judged saves found active complete bytes pending
  | synchronized media _ ih => exact ih.after _
  | promoted media _ ih => exact ih.after _

end Adapter

/-! ## Rejections that can be projected -/

inductive Reviewable (media : Media) (identities : String → Option Dict) (entry : String × Verdict) (row : Row) :
    Prop
  | intro (reviewer : String) (identity : Dict) (closed : ReviewerIdentity) (source sha256 : String)
      (unpinned : row.generation = none)
      (named : entry.2.reviewer = some reviewer) (given : blank reviewer = false)
      (stored : storedIdentity identities entry = some identity) (closes : closeIdentity identity = some closed)
      (independent : closed.independent reviewer)
      (result : row.result = some source) (bytes : row.resultSha256 = some sha256)
      (file : media.files source = .ok sha256) (passes : media.image source = true)

def Projectable (media : Media) (identities : String → Option Dict) (jobs : Jobs) (entry : String × Verdict) :
    Prop :=
  ∃ row, jobs.find? entry.1 = some row ∧ entry.2.resultSha256 = row.resultSha256 ∧
    (row.qa = some false ∨ row.review = none ∧ Reviewable media identities entry row)

structure Candidate (D : Deployment) (plan : Plan) (jobs : Jobs) (sceneId sha256 : String) (job : Job) (row : Row) :
    Prop where
  baseline : plan.baseline sceneId = some job
  found : jobs.find? (D.requestId job) = some row
  complete : row.status = .complete
  bytes : row.resultSha256 = some sha256
  fresh : row.review = none

namespace Candidate
open Pipeline (VisualQa)
variable {sceneId : String} {job : Job} {call : VisualQa}

section
variable (candidate : Candidate D plan jobs sceneId sha256 job row)
include candidate

theorem eligible (run : P.run = plan.start) : P.completedJobForResult D jobs sceneId sha256 = .ok job := by
  have active : P.run.activeImages sceneId = some job := by
    rw [run]
    exact candidate.baseline
  simp [completedJobForResult, active, Option.filter, candidate.found, candidate.bytes]

theorem category : job.category = .first := by
  have is := candidate.baseline
  unfold Plan.baseline at is
  split_ifs at is
  obtain ⟨frame, -, rfl⟩ := map_eq_some_iff.mp is
  rfl

end

variable (candidate : Candidate D plan jobs call.sceneId call.resultSha256 job row)
include candidate

variable (run : P.run = plan.start)
include run

theorem technicalQa_eq_ok {packet : Option ClipPacket} :
    P.technicalQa D media jobs call job = .ok packet ↔ packet = none ∧
    ∃ source, row.result = some source ∧ media.files source = .ok call.resultSha256 ∧ media.image source = true := by
  have active : P.run.activeImages call.sceneId = some job := by
    rw [run]
    exact candidate.baseline
  have image : ¬(job.category = .hero ∨ job.category = .heroRetry) := by
    rw [candidate.category]
    decide
  unfold technicalQa
  rw [if_neg image]
  simp only [prepareQaPacket, active, bind_some, candidate.found, candidate.complete, if_true]
  cases result : row.result with
  | none => simp [bind, Except.bind]
  | some source =>
    dsimp only
    cases file : media.files source with
    | error error => simp [bind, Except.bind, file]
    | ok found =>
      simp only [candidate.bytes, some.injEq, bind_eq_ok, require_eq_ok, exists_const, pure_eq_ok]
      constructor
      · rintro ⟨-, ⟨same, rfl⟩, passed, rfl⟩
        simp only [any_some, decide_eq_true_eq] at passed
        exact ⟨rfl, source, rfl, file.trans (congrArg Except.ok passed.1), passed.2⟩
      · rintro ⟨rfl, other, is, same, passes⟩
        cases is
        cases file.symm.trans same
        refine ⟨_, ⟨rfl, rfl⟩, ?_, rfl⟩
        simp [passes]

theorem reviewCandidate_eq_ok
    (test : plan.episode.mode = .test) {closed : Option ReviewerIdentity}
    (rejects : call.approved = false) (plain : call.failureCode = none) (named : call.reviewer ≠ "")
    (given : call.reviewerIdentity = some closed) :
    P.reviewCandidate D media jobs call = .ok jobs' ↔
      ∃ identity, closed = some identity ∧ row.generation = none ∧ identity.independent call.reviewer ∧
        verifyReceipt media.files row = .ok () ∧
        jobs' = jobs.put { row with review := some ⟨false, call.reviewer, identity, none⟩ } := by
  have mode : P.run.plan.episode.mode = .test := by
    rw [run]
    exact test
  have identity : call.identity .test = some closed := by simp [VisualQa.identity, given]
  have test : Mode.test ≠ .live := by decide
  unfold reviewCandidate
  rw [mode, candidate.eligible run, identity]
  cases closed with
  | none => simp [bind_eq_ok, require_eq_ok]
  | some closed =>
    simp only [bind_eq_ok, require_eq_ok, exists_const, rejects, plain, join_some]
    let args : QaArgs := ⟨D.requestId job, call.resultSha256, false, call.reviewer, none, some closed⟩
    have reviewed {review : Review} : args.review = .ok review ↔
        closed.independent call.reviewer ∧ review = ⟨false, call.reviewer, closed, none⟩ := by
      have identity : args.identity = some closed := if_neg (by simp [args])
      simp only [QaArgs.review, identity, bind_eq_ok, require_eq_ok, exists_const, pure_eq_ok]
      exact and_congr_right fun _ => eq_comm
    constructor
    · rintro ⟨-, other, same, is⟩
      cases same
      obtain ⟨row', review, found, review', unpinned, verified, changed⟩ := qaRow_eq_ok is
      cases candidate.found.symm.trans found
      obtain ⟨independent, rfl⟩ := reviewed.mp review'
      refine ⟨closed, rfl, unpinned, independent, verified, ?_⟩
      obtain ⟨decided, -⟩ | ⟨-, changed⟩ := changed
      · cases candidate.fresh.symm.trans decided
      · exact changed
    · rintro ⟨identity, same, unpinned, independent, verified, rfl⟩
      cases same
      refine ⟨test, job, rfl, bind_eq_ok.mpr ⟨_, reviewed.mpr ⟨independent, rfl⟩, ?_⟩⟩
      have guarded : row.status = .complete ∧ call.reviewer ≠ "" ∧ row.resultSha256 = some call.resultSha256 ∧
          (false = true → True) ∧ (none : Option String) ≠ some "" :=
        ⟨candidate.complete, named, candidate.bytes, fun _ => trivial, (some_ne_none "").symm⟩
      simp only [candidate.found, bind_eq_ok, require_eq_ok, exists_const, requireCoordinatorWrite_eq_ok]
      refine ⟨.inl unpinned, guarded, (), verified, ?_⟩
      rw [candidate.fresh]
      rfl

theorem recordVisualQa_eq_ok
    (test : plan.episode.mode = .test) {closed : Option ReviewerIdentity}
    (rejects : call.approved = false) (plain : call.failureCode = none) (named : call.reviewer ≠ "")
    (given : call.reviewerIdentity = some closed) :
    (∃ P' answer, P.recordVisualQa D media jobs call = (P', jobs', .ok answer)) ↔
      (∃ source, row.result = some source ∧ media.files source = .ok call.resultSha256 ∧ media.image source = true) ∧
        ∃ identity, closed = some identity ∧ row.generation = none ∧ identity.independent call.reviewer ∧
          jobs' = jobs.put { row with review := some ⟨false, call.reviewer, identity, none⟩ } := by
  have admitted {other : Job} {packet : Option ClipPacket} :
      P.admitVisualQa D media jobs call = .ok (other, packet) ↔ job = other ∧ packet = none ∧
        ∃ source, row.result = some source ∧ media.files source = .ok call.resultSha256 ∧ media.image source = true := by
    have plainly : call.checkFailureCode = .ok () := by
      simp [VisualQa.checkFailureCode, rejects, plain, require, bind, Except.bind, pure, Except.pure]
    unfold admitVisualQa
    rw [plainly, candidate.eligible run]
    constructor
    · intro is
      obtain ⟨⟨⟩, -, is⟩ := bind_eq_ok.mp is
      obtain ⟨_, same, is⟩ := bind_eq_ok.mp is
      cases same
      obtain ⟨packet, checked, is⟩ := bind_eq_ok.mp is
      cases is
      obtain ⟨rfl, passes⟩ := (candidate.technicalQa_eq_ok run).mp checked
      exact ⟨rfl, rfl, passes⟩
    · rintro ⟨rfl, rfl, passes⟩
      have checked : P.technicalQa D media jobs call job = .ok none :=
        (candidate.technicalQa_eq_ok run).mpr ⟨rfl, passes⟩
      exact bind_eq_ok.mpr ⟨(), rfl, bind_eq_ok.mpr ⟨job, rfl, bind_eq_ok.mpr ⟨none, checked, rfl⟩⟩⟩
  have reviewed {after : Jobs} :=
    @reviewCandidate_eq_ok D media plan P jobs after row job call candidate run test closed rejects plain named given
  have verified {source : String} (result : row.result = some source)
      (file : media.files source = .ok call.resultSha256) : verifyReceipt media.files row = .ok () := by
    simp [verifyReceipt, result, file, candidate.bytes, require, bind, Except.bind]
  unfold recordVisualQa
  constructor
  · rintro ⟨P', answer, is⟩
    split at is
    · cases is
    · rename_i other packet is'
      obtain ⟨rfl, rfl, passes⟩ := admitted.mp is'
      refine ⟨passes, ?_⟩
      simp only [writePacket, any_none, Bool.false_eq_true, if_false] at is
      split at is
      · cases is
      · rename_i after accepted
        obtain ⟨identity, closes, unpinned, independent, -, rfl⟩ := reviewed.mp accepted
        obtain ⟨rfl⟩ := congrArg (fun outcome => outcome.2.1) is
        exact ⟨identity, closes, unpinned, independent, rfl⟩
  · rintro ⟨⟨source, result, file, passes⟩, identity, closes, unpinned, independent, rfl⟩
    rw [admitted.mpr ⟨rfl, rfl, source, result, file, passes⟩]
    simp only [writePacket, any_none, Bool.false_eq_true, if_false]
    rw [reviewed.mpr ⟨identity, closes, unpinned, independent, verified result file, rfl⟩]
    simp [promote, rejects]

end Candidate

/-! ## One entry -/

theorem synchronization_reviewed (found : jobs.find? entry.1 = some row) (complete : row.status = .complete)
    (reviewed : row.review ≠ none) {planned : Option Pipeline.VisualQa} : synchronization D identities P jobs entry =
    .ok planned ↔ entry.2.resultSha256 = row.resultSha256 ∧ planned = none := by
  have decided : ¬ row.qa = none := fun none => reviewed (map_eq_none_iff.mp none)
  unfold synchronization
  rw [found]
  simp only [bind_eq_ok, require_eq_ok, exists_const, complete, true_and, if_neg decided, pure_eq_ok]
  exact and_congr_right fun _ => eq_comm

def callOf (row : Row) (sha256 : String) (verdict : Verdict) (reviewer : String) (identity : Dict) :
    Pipeline.VisualQa where
  sceneId := row.scene
  resultSha256 := sha256
  approved := verdict.approved
  reviewer := reviewer
  reviewerIdentity := some (closeIdentity identity)

theorem synchronization_fresh (candidate : Candidate D plan jobs row.scene sha256 row.request row)
    (identified : D.requestId row.request = entry.1) (run : P.run = plan.start) {planned : Option Pipeline.VisualQa} :
    synchronization D identities P jobs entry = .ok planned ↔ entry.2.resultSha256 =
    row.resultSha256 ∧ ∃ reviewer identity, entry.2.reviewer = some reviewer ∧ storedIdentity identities entry =
    some identity ∧ blank reviewer = false ∧ planned = some (callOf row sha256 entry.2 reviewer identity) := by
  have fresh : row.qa = none := map_eq_none_iff.mpr candidate.fresh
  have eligible := candidate.eligible run
  unfold synchronization
  rw [← identified, candidate.found]
  simp only [bind_eq_ok, require_eq_ok, exists_const, candidate.complete, true_and, if_pos fresh]
  refine and_congr_right fun _ => ?_
  rw [candidate.bytes]
  dsimp only
  rw [eligible]
  cases entry.2.reviewer with
  | none => simp [bind_eq_ok]
  | some reviewer =>
    cases storedIdentity identities entry with
    | none => simp [bind_eq_ok]
    | some identity =>
      simp only [bind_eq_ok, require_eq_ok, exists_const, pure_eq_ok, some.injEq]
      constructor
      · rintro ⟨job, same, -, given, rfl⟩
        cases same
        exact ⟨reviewer, identity, rfl, rfl, given, rfl⟩
      · rintro ⟨_, _, rfl, rfl, given, rfl⟩
        exact ⟨row.request, rfl, rfl, given, rfl⟩

theorem carryEntry_eq_ok {P' : Pipeline} : carryEntry D media projection P jobs entry =
    (P', jobs', .ok ()) ↔ (projection P jobs entry = .ok none ∧ P' = P ∧ jobs' = jobs) ∨ ∃ call answer,
    projection P jobs entry = .ok (some call) ∧ P.recordVisualQa D media jobs call = (P', jobs', .ok answer) := by
  unfold carryEntry
  cases projected : projection P jobs entry with
  | error error => simp
  | ok planned =>
    cases planned with
    | none => simp [eq_comm]
    | some call =>
      constructor
      · intro is
        rcases recorded : P.recordVisualQa D media jobs call with ⟨P'', jobs'', answer⟩
        simp only [recorded] at is
        cases answer <;> cases is
        exact .inr ⟨call, _, rfl, recorded⟩
      · rintro (⟨same, -⟩ | ⟨_, answer, same, recorded⟩)
        · cases same
        · cases same
          simp only [recorded]
          rfl

section
variable (recorded : Recorded plan jobs entry)
include recorded

variable (baselines : Adapter.Baselines D jobs)
include baselines

theorem Recorded.candidate : ∃ row sha256,
    jobs.find? entry.1 = some row ∧ row.status = .complete ∧ row.resultSha256 = some sha256 ∧ D.requestId row.request =
    entry.1 ∧ plan.baseline row.scene = some row.request ∧ (row.review = none → Candidate D plan jobs row.scene
    sha256 row.request row) ∧ (entry.2.approved = true → entry.2.resultSha256 = some sha256 ∧ row.review ≠ none) := by
  obtain ⟨row, sha256, found, baseline, complete, bytes, approved⟩ := recorded
  obtain ⟨member, key⟩ := find?_eq_some.mp found
  have identified : D.requestId row.request = entry.1 := (baselines.identified row member).symm.trans key
  refine ⟨row, sha256, found, complete, bytes, identified, baseline, fun fresh => ?_, approved⟩
  exact ⟨baseline, by rw [identified]; exact found, complete, bytes, fresh⟩

theorem synchronizeEntry_decides (run : P.run = plan.start) :
    Decides entry.1 jobs (carryEntry D media (synchronization D identities) P jobs entry).2.1 := by
  obtain ⟨row, sha256, found, complete, bytes, identified, baseline, candidate, -⟩ := recorded.candidate baselines
  unfold carryEntry
  cases projected : synchronization D identities P jobs entry with
  | error error => exact .inl rfl
  | ok planned =>
    cases decided : row.review with
    | some review =>
      have reviewed : row.review ≠ none := by
        rw [decided]
        exact some_ne_none review
      obtain ⟨-, rfl⟩ := (synchronization_reviewed found complete reviewed).mp projected
      exact .inl rfl
    | none =>
      have candidate := candidate decided
      obtain ⟨-, reviewer, identity, -, -, -, rfl⟩ :=
        (synchronization_fresh candidate identified run).mp projected
      obtain same | ⟨job, eligible, decides⟩ := P.recordVisualQa_decides D media jobs
        (callOf row sha256 entry.2 reviewer identity)
      · exact .inl same
      · cases (candidate.eligible run).symm.trans eligible
        rw [identified] at decides
        exact decides

theorem synchronizeEntry_approved (approved : entry.2.approved = true) :
    carryEntry D media (synchronization D identities) P jobs entry = (P, jobs, .ok ()) := by
  obtain ⟨row, sha256, found, complete, bytes, -, -, -, accepted⟩ := recorded.candidate baselines
  obtain ⟨bound, reviewed⟩ := accepted approved
  refine carryEntry_eq_ok.2 (.inl ⟨?_, rfl, rfl⟩)
  exact (synchronization_reviewed found complete reviewed).mpr ⟨bound.trans bytes.symm, rfl⟩

theorem synchronizeEntry_rejected (run : P.run = plan.start) (test : plan.episode.mode = .test)
    (rejected : entry.2.approved = false) : Projectable media identities jobs entry ↔ ∃ P' jobs', carryEntry D media
    (synchronization D identities) P jobs entry = (P', jobs', .ok ()) ∧ (jobs'.find? entry.1).bind qa = some false := by
  obtain ⟨row, sha256, found, complete, bytes, identified, baseline, candidate, -⟩ := recorded.candidate baselines
  cases decided : row.review with
  | some review =>
    have reviewed : row.review ≠ none := by
      rw [decided]
      exact some_ne_none review
    have passed := fun planned => @synchronization_reviewed D identities P jobs entry row found complete reviewed planned
    constructor
    · rintro ⟨row', found', bound, qa⟩
      cases found.symm.trans found'
      obtain qa | ⟨fresh, -⟩ := qa
      · refine ⟨P, jobs, carryEntry_eq_ok.2 (.inl ⟨(passed none).mpr ⟨bound, rfl⟩, rfl, rfl⟩), ?_⟩
        rw [found]
        exact qa
      · exact absurd fresh reviewed
    · rintro ⟨P', jobs', carried, qa⟩
      obtain ⟨projected, rfl, rfl⟩ | ⟨call, answer, projected, -⟩ := carryEntry_eq_ok.1 carried
      · rw [found] at qa
        exact ⟨row, found, ((passed none).mp projected).1, .inl qa⟩
      · cases ((passed (some call)).mp projected).2
  | none =>
    have candidate := candidate decided
    have fresh := fun planned => @synchronization_fresh D identities plan P jobs entry row sha256 candidate identified run planned
    constructor
    · rintro ⟨row', found', bound, qa⟩
      cases found.symm.trans found'
      obtain qa | ⟨-, reviewable⟩ := qa
      · rw [Row.qa, decided] at qa
        cases qa
      obtain ⟨reviewer, identity, closed, source, _, unpinned, named, given, stored, closes, independent, result,
        bytes', file, passes⟩ := reviewable
      cases bytes.symm.trans bytes'
      let call := callOf row sha256 entry.2 reviewer identity
      let reviewed : Row := { row with review := some ⟨false, reviewer, closed, none⟩ }
      have present : reviewer ≠ "" := by
        rintro rfl
        cases given
      obtain ⟨P', answer, recorded⟩ := (@Candidate.recordVisualQa_eq_ok D media plan P jobs (jobs.put reviewed) row
        row.request call candidate run test (some closed) rejected rfl present (congrArg some closes)).mpr
        ⟨⟨source, result, file, passes⟩, closed, rfl, unpinned, independent, rfl⟩
      refine ⟨P', jobs.put reviewed, carryEntry_eq_ok.2 (.inr ⟨call, answer, ?_, recorded⟩), ?_⟩
      · exact (fresh _).mpr ⟨bound, reviewer, identity, named, stored, given, rfl⟩
      · have key : reviewed.requestId = entry.1 := (find?_eq_some.mp found).2
        rw [← key, find?_put_self]
        rfl
    · rintro ⟨P', jobs', carried, qa⟩
      obtain ⟨projected, -⟩ | ⟨call, answer, projected, recorded⟩ := carryEntry_eq_ok.1 carried
      · obtain ⟨-, _, _, -, -, -, planned⟩ := (fresh none).mp projected
        cases planned
      · obtain ⟨bound, reviewer, identity, named, stored, given, planned⟩ := (fresh _).mp projected
        cases planned
        have present : reviewer ≠ "" := by
          rintro rfl
          cases given
        obtain ⟨⟨source, result, file, passes⟩, closed, closes, unpinned, independent, -⟩ :=
          (@Candidate.recordVisualQa_eq_ok D media plan P jobs jobs' row row.request
            (callOf row sha256 entry.2 reviewer identity) candidate run test (closeIdentity identity) rejected rfl
            present rfl).mp ⟨P', answer, recorded⟩
        exact ⟨row, found, bound, .inr ⟨decided, .intro reviewer identity closed source sha256 unpinned named given
          stored closes independent result bytes file passes⟩⟩

end

/-! ## The whole document -/

theorem carry_cons (entry : String × Verdict) (entries : List (String × Verdict)) :
    carry D media projection (entry :: entries) P jobs =
      match carryEntry D media projection P jobs entry with
      | (P, jobs, .ok ()) => carry D media projection entries P jobs
      | (P, jobs, .error error) => (P, jobs, .error error) := by
  rw [carry]

theorem synchronization_find?_of_ne (recorded : ∀ entry ∈ entries, Recorded plan jobs entry)
    (baselines : Adapter.Baselines D jobs) (run : P.run = plan.start) (others : ∀ entry ∈ entries, entry.1 ≠ id) :
    (carry D media (synchronization D identities) entries P jobs).2.1.find? id = jobs.find? id := by
  induction entries generalizing P jobs with
  | nil => rfl
  | cons entry rest ih =>
    have decides := @synchronizeEntry_decides D media identities plan P jobs entry
      (recorded entry mem_cons_self) baselines run
    have run' := (carryEntry_frame D media (synchronization D identities) P jobs entry).1
    have same := decides.find?_of_ne (others entry mem_cons_self).symm
    rw [carry_cons]
    rcases carried : carryEntry D media (synchronization D identities) P jobs entry with ⟨P', jobs', result⟩
    rw [carried] at decides run' same
    cases result with
    | error error => exact same
    | ok _ =>
      refine (ih ?_ (baselines.kept decides.kept) (run'.trans run) ?_).trans same
      · exact fun entry member => (recorded entry (.tail _ member)).kept decides.kept
      · exact fun entry member => others entry (.tail _ member)

theorem projectable_congr (same : jobs'.find? entry.1 = jobs.find? entry.1) :
    Projectable media identities jobs' entry ↔ Projectable media identities jobs entry := by
  unfold Projectable
  rw [same]

theorem synchronization_iff (distinct : (entries.map Prod.fst).Nodup) (recorded :
    ∀ entry ∈ entries, Recorded plan jobs entry) (baselines : Adapter.Baselines D jobs) (run : P.run = plan.start)
    (test : plan.episode.mode = .test) : (∃ P' jobs', carry D media (synchronization D identities) entries P jobs =
    (P', jobs', .ok ()) ∧ ∀ entry ∈ entries, entry.2.approved = false → (jobs'.find? entry.1).bind qa = some false)
    ↔ ∀ entry ∈ entries, entry.2.approved = false → Projectable media identities jobs entry := by
  induction entries generalizing P jobs with
  | nil => exact ⟨fun _ _ member => absurd member not_mem_nil, fun _ => ⟨P, jobs, rfl, fun _ member => absurd member not_mem_nil⟩⟩
  | cons entry rest ih =>
    rw [map_cons, nodup_cons] at distinct
    have others : ∀ other ∈ rest, other.1 ≠ entry.1 := fun other member same =>
      distinct.1 (same ▸ mem_map_of_mem member)
    have here := recorded entry mem_cons_self
    have decides := @synchronizeEntry_decides D media identities plan P jobs entry here baselines run
    have run' := (carryEntry_frame D media (synchronization D identities) P jobs entry).1
    have rejects := fun rejected =>
      @synchronizeEntry_rejected D media identities plan P jobs entry here baselines run test rejected
    have approves := fun approved =>
      @synchronizeEntry_approved D media identities plan P jobs entry here baselines approved
    rw [carry_cons]
    rcases carried : carryEntry D media (synchronization D identities) P jobs entry with ⟨P', jobs', result⟩
    rw [carried] at decides run' rejects approves
    have later : ∀ other ∈ rest, Recorded plan jobs' other := fun other member =>
      (recorded other (.tail _ member)).kept decides.kept
    have unaffected : ∀ other ∈ rest, (Projectable media identities jobs' other ↔ Projectable media identities jobs other) :=
      fun other member => projectable_congr (decides.find?_of_ne (others other member))
    cases result with
    | error error =>
      refine ⟨fun ⟨_, _, is, _⟩ => (by cases is), fun projectable => ?_⟩
      cases approved : entry.2.approved with
      | true => cases approves approved
      | false =>
        obtain ⟨_, _, is, -⟩ := (rejects approved).mp (projectable entry mem_cons_self approved)
        cases is
    | ok _ =>
      have kept := fun P'' jobs'' (is : carry D media (synchronization D identities) rest P' jobs' = (P'', jobs'', .ok ())) =>
        have same := @synchronization_find?_of_ne D media identities plan P' jobs' rest entry.1 later
          (baselines.kept decides.kept) (run'.trans run) others
        show jobs''.find? entry.1 = jobs'.find? entry.1 from by rw [is] at same; exact same
      have first : entry.2.approved = false →
          (Projectable media identities jobs entry ↔ (jobs'.find? entry.1).bind qa = some false) := by
        intro rejected
        rw [rejects rejected]
        constructor
        · rintro ⟨_, _, is, qa⟩
          cases is
          exact qa
        · exact fun qa => ⟨P', jobs', rfl, qa⟩
      have rest_iff := ih distinct.2 later (baselines.kept decides.kept) (run'.trans run)
      simp only [forall_mem_cons]
      constructor
      · rintro ⟨P'', jobs'', is, qa, qas⟩
        refine ⟨fun rejected => (first rejected).mpr ?_, fun other member rejected => ?_⟩
        · rw [← kept P'' jobs'' is]
          exact qa rejected
        · exact (unaffected other member).mp (rest_iff.mp ⟨P'', jobs'', is, qas⟩ other member rejected)
      · rintro ⟨projectable, projectables⟩
        obtain ⟨P'', jobs'', is, qas⟩ := rest_iff.mpr fun other member rejected =>
          (unaffected other member).mpr (projectables other member rejected)
        refine ⟨P'', jobs'', is, fun rejected => ?_, qas⟩
        rw [kept P'' jobs'' is]
        exact (first rejected).mp (projectable rejected)

/-! ## Corrections -/

/-- The rejection is the executor's, and every finding makes a correction that the executor takes. -/
def Remediable (D : Deployment) (media : Media) (P : Pipeline) (jobs : Jobs) (entry : String × Verdict) : Prop :=
  ∃ row, jobs.find? entry.1 = some row ∧ row.qa = some false ∧
    ∀ finding remediation, semanticRemediation finding = .ok remediation →
      ∃ correction, (remediationJob D jobs P.run row.scene finding).2 = .ok correction ∧
        correction.predecessor = entry.1 ∧ admitLineage media.files jobs correction = .ok ()

def Unchanged (media : Media) (jobs : Jobs) (entry : String × Verdict) : Prop :=
  ∃ row, jobs.find? entry.1 = some row ∧ verifyReceipt media.files row = .ok ()

theorem jobFor_of_baseline {sceneId : String} {job : Job} (is : plan.baseline sceneId = some job) :
    ∃ frame, plan.frame? sceneId = some frame ∧ job = plan.jobFor frame .first plan.imageCost := by
  unfold Plan.baseline at is
  split_ifs at is
  obtain ⟨frame, found, rfl⟩ := map_eq_some_iff.mp is
  exact ⟨frame, found, rfl⟩

theorem remediable_iff (recorded : Recorded plan jobs entry) (baselines : Adapter.Baselines D jobs)
    (run : P.run = plan.start) (executable : plan.requireExecutableMotionInventory = .ok ()) :
    Remediable D media P jobs entry ↔ (jobs.find? entry.1).bind qa = some false ∧ Unchanged media jobs entry := by
  obtain ⟨row, sha256, found, baseline, complete, bytes, -⟩ := recorded
  obtain ⟨member, key⟩ := find?_eq_some.mp found
  have identified : D.requestId row.request = entry.1 := (baselines.identified row member).symm.trans key
  obtain ⟨frame, framed, made⟩ := jobFor_of_baseline baseline
  have creates (qa : row.qa = some false) {finding : Dict} {remediation : Remediation}
      (valid : semanticRemediation finding = .ok remediation) :
      (remediationJob D jobs P.run row.scene finding).2 = .ok (plan.correction frame entry.1 remediation) := by
    rw [run]
    have active : plan.start.activeImages row.scene = some row.request := baseline
    have none : plan.start.corrections row.scene = none := rfl
    have planned : plan.start.plan = plan := rfl
    unfold remediationJob
    rw [planned, executable, valid, none, active]
    dsimp only
    rw [identified, found, bind_some, if_pos qa, framed]
  have admits (remediation : Remediation) (qa : row.qa = some false) :
      admitLineage media.files jobs (plan.correction frame entry.1 remediation) = .ok () ↔
        verifyReceipt media.files row = .ok () := by
    have predecessor : predecessorOf jobs (plan.correction frame entry.1 remediation) = some row := by
      refine predecessorOf_of_find found ?_
      unfold mode
      rw [made]
      rfl
    have scene : row.scene = frame.sceneId := (frame?_sceneId framed).symm
    have category : row.category = .first := by
      unfold category
      rw [made]
      rfl
    have named : entry.1 ≠ "" := by
      rw [← identified]
      exact D.requestId_ne_empty _
    have single : ∀ other ∈ inMode jobs (plan.correction frame entry.1 remediation).mode,
        other.predecessor ≠ (plan.correction frame entry.1 remediation).predecessor := by
      intro other listed
      rw [baselines.original other (mem_inMode.mp listed).1]
      exact named.symm
    have corrects : (plan.correction frame entry.1 remediation).category = .correction := rfl
    unfold admitLineage
    rw [corrects, if_neg (by decide), if_pos (.inl (by decide))]
    unfold admitRetry
    rw [predecessor, corrects]
    simp only [bind_eq_ok, require_eq_ok, exists_const]
    constructor
    · rintro ⟨-, ⟨⟩, verified, -⟩
      exact verified
    · intro verified
      exact ⟨⟨qa, scene, complete⟩, (), verified, ⟨by rw [category]; decide, by decide⟩, single⟩
  constructor
  · rintro ⟨row', found', qa, corrects⟩
    cases found.symm.trans found'
    obtain ⟨correction, is, -, admitted⟩ := corrects [("code", .str "CAST")] _ rfl
    cases (creates qa rfl).symm.trans is
    refine ⟨?_, row, found, (admits _ qa).mp admitted⟩
    rw [found]
    exact qa
  · rintro ⟨qa, row', found', verified⟩
    cases found.symm.trans found'
    rw [found] at qa
    exact ⟨row, found, qa, fun finding remediation valid => ⟨_, creates qa valid, rfl, (admits _ qa).mpr verified⟩⟩

def shoreRowUnreviewed : Row := { shoreRow with review := none }

def shoreAdapter : Adapter where
  pipeline := start (importingPlan false) sampleImported
  jobs := empty.put shoreRowUnreviewed
  document := Autonomous.sampleDocument
  identities _ := none

theorem shoreAdapter_reached :
    Adapter.Reached samplePlanDeployment (importingPlan false) sampleImported shoreAdapter := by
  refine .executed (A := ⟨_, empty, _, _⟩) shoreRowUnreviewed (.start empty Autonomous.sampleDocument rfl rfl ⟨?_, ?_⟩ rfl)
    (by decide) (by decide) rfl ?_
  · intro row member
    cases member
  · intro row member
    cases member
  · intro old found
    cases found

def refusal : Json :=
  .obj [("approved", .bool false), ("reviewer", .str "reviewer-1"),
    ("reviewer_identity", .obj [("subject", .str "reviewer-1"), ("issuer", .str "studio")]),
    ("request_id", .str sampleBaselineId), ("result_sha256", .str "image")]

def answered (media : Media) (answer : Json) : Adapter :=
  match qaAfterTechnicalCheck samplePlanDeployment media shoreAdapter shoreRowUnreviewed answer with
  | .ok verdict => shoreAdapter.record media sampleBaselineId "image" verdict true
  | .error _ => shoreAdapter

theorem answered_reached (media : Media) (answer : Json) :
    Adapter.Reached samplePlanDeployment (importingPlan false) sampleImported (answered media answer) := by
  unfold answered
  split
  · rename_i verdict checked
    exact .judged media shoreRowUnreviewed "image" answer verdict true shoreAdapter_reached (by decide) (by decide) rfl
      rfl rfl checked
  · exact shoreAdapter_reached

theorem answered_refusal : answered sampleMedia refusal = { shoreAdapter with
        document := setQa Autonomous.sampleDocument sampleBaselineId (judge sampleBaselineId "image" (qaAnswer refusal))
        identities := update (fun _ => none) sampleBaselineId (reviewerIdentity refusal) } := by
  have asked : qaAfterTechnicalCheck samplePlanDeployment sampleMedia shoreAdapter shoreRowUnreviewed refusal =
      .ok refusal := by decide
  have rejected : (judge sampleBaselineId "image" (qaAnswer refusal)).approved = false := by decide
  have recorded := @Autonomous.recordVerdict_rejected sampleMedia.files shoreAdapter.jobs
    Autonomous.sampleDocument _ _ _ (show refusal ≠ .null by simp [refusal]) rejected
  unfold answered
  rw [asked]
  dsimp only [Adapter.record, shoreAdapter]
  dsimp only [shoreAdapter] at recorded
  rw [recorded]

def failingMedia : Media := { sampleMedia with image := fun _ => false }

end VideoPoster.Production
