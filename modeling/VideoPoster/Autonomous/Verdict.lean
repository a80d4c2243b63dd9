import VideoPoster.Autonomous.Runner
import VideoPoster.Executor.Run

/-!
# The verdict of a reviewer
-/

namespace VideoPoster.Autonomous
open Python Runner Tables Executor Option QaArgs Billing List
open Executor (Jobs Row Review ReviewerIdentity QaArgs Files qaRow)
open StandingBudget (textField)

variable {files : Files} {jobs jobs' : Jobs} {document document' : Document} {id sha256 path : String}
  {answer answer' : Json} {row : Row}

def reviewerIdentity : Json → Option Dict
  | .obj fields =>
    match Dict.get fields "reviewer_identity" with
    | some (.obj identity) => some identity
    | _ => none
  | _ => none

def answerField (answer : Json) (key : String) : Option String :=
  match answer with
  | .obj fields => textField fields key
  | _ => none

def approvedField : Json → Bool
  | .obj fields => Dict.get fields "approved" = some (.bool true)
  | _ => false

def qaAnswer (answer : Json) : Option QaAnswer :=
  match answer with
  | .obj _ => some
      { requestId := answerField answer "request_id"
        resultSha256 := answerField answer "result_sha256"
        identity := (reviewerIdentity answer).map fun identity =>
          ⟨textField identity "subject", textField identity "issuer"⟩
        approved := approvedField answer
        reviewer := answerField answer "reviewer" }
  | _ => none

def closedIdentity (answer : Json) : Option ReviewerIdentity := do
  let identity ← reviewerIdentity answer
  let subject ← textField identity "subject"
  let issuer ← textField identity "issuer"
  if Dict.keysAre identity ["subject", "issuer"] then some ⟨subject, issuer⟩ else none

def approval (id sha256 : String) (answer : Json) : QaArgs where
  requestId := id
  resultSha256 := sha256
  approved := true
  reviewer := (answerField answer "reviewer").getD ""
  reviewerIdentity := closedIdentity answer

structure Recording where
  document : Document
  jobs : Jobs
  result : Result Unit

def recordVerdict (files : Files) (jobs : Jobs) (document : Document) (id sha256 : String) (answer : Json)
    (saves : Bool) : Recording :=
  if answer = .null then ⟨document, jobs, .ok ()⟩
  else
    let verdict := judge id sha256 (qaAnswer answer)
    let stored := if saves then setQa document id verdict else document
    let result := if saves then .ok () else .error interrupted
    if verdict.approved then
      match qaRow files none (approval id sha256 answer) jobs with
      | .error error => ⟨document, jobs, .error error⟩
      | .ok jobs => ⟨stored, jobs, result⟩
    else ⟨stored, jobs, result⟩

def refusal (files : Files) (jobs : Jobs) (id sha256 : String) (answer : Json) : Option Error :=
  match qaRow files none (approval id sha256 answer) jobs with
  | .error error => some error
  | .ok _ => none

def Recording.stop (recording : Recording) : Option Error :=
  match recording.result with
  | .error error => some error
  | .ok () => none

theorem qaOf_setQa (document : Document) (id : String) (verdict : Verdict) :
    qaOf (setQa document id verdict) id = some verdict := by
  have absent : (document.qa.filter fun entry => entry.1 ≠ id).lookup id = none := by
    refine lookup_eq_none_iff.mpr fun entry member => ?_
    have other : entry.1 ≠ id := of_decide_eq_true (mem_filter.mp member).2
    exact bne_iff_ne.mpr other.symm
  rw [qaOf, setQa, lookup_append, absent]
  exact lookup_cons_self

theorem of_judge_approved (approved : (judge id sha256 (qaAnswer answer)).approved = true) :
    ((answerField answer "reviewer").any fun reviewer => ¬blank reviewer) = true ∧
      ∃ identity subject issuer, reviewerIdentity answer = some identity ∧
        textField identity "subject" = some subject ∧ textField identity "issuer" = some issuer ∧
        blank subject = false ∧ blank issuer = false := by
  cases answer with
  | obj fields =>
    simp only [judge, qaAnswer] at approved
    split_ifs at approved with valid named
    · refine ⟨named.2, ?_⟩
      obtain ⟨-, -, independent⟩ := valid
      cases identity : reviewerIdentity (.obj fields) with
      | none =>
        rw [identity] at independent
        cases independent
      | some dict =>
        rw [identity] at independent
        cases subject : textField dict "subject" with
        | none => simp [Runner.independent, subject] at independent
        | some subject' =>
          cases issuer : textField dict "issuer" with
          | none => simp [Runner.independent, subject, issuer] at independent
          | some issuer' =>
            simp [Runner.independent, subject, issuer] at independent
            exact ⟨dict, subject', issuer', rfl, subject, issuer, independent.1, independent.2.1⟩
  | _ => cases approved

/-- What the executor wants of an approving verdict, besides what the runner has checked. -/
structure Compatible (answer : Json) (row : Row) : Prop where
  unpinned : row.generation = none
  identity : ∃ identity, closedIdentity answer = some identity ∧
    "generator" ∉ [casefold (strip ((answerField answer "reviewer").getD "")),
      casefold (strip identity.subject), casefold (strip identity.issuer)] ∧
    (row.review = none ∨ row.review = some ⟨true, (answerField answer "reviewer").getD "", identity, none⟩)

def Records (files : Files) (jobs : Jobs) (document : Document) (id sha256 : String) (answer : Json) : Prop :=
  let recording := recordVerdict files jobs document id sha256 answer true
  recording.result = .ok () ∧ ∃ verdict, qaOf recording.document id = some verdict ∧
    (verdict.approved = true → ∃ row, recording.jobs.find? id = some row ∧ row.qa = some true)

structure Completed (files : Files) (jobs : Jobs) (id sha256 : String) (row : Row) : Prop where
  found : jobs.find? id = some row
  complete : row.status = .complete
  bytes : row.resultSha256 = some sha256
  file : ∃ path, row.result = some path ∧ files path = .ok sha256

theorem closedIdentity_eq_some {identity : Dict} {closed : ReviewerIdentity} {subject issuer : String}
    (is : reviewerIdentity answer = some identity) (first : textField identity "subject" = some subject)
    (second : textField identity "issuer" = some issuer) (some_ : closedIdentity answer = some closed) :
    closed = ⟨subject, issuer⟩ := by
  simp only [closedIdentity, is, first, second, bind_eq_bind, bind_some] at some_
  split_ifs at some_
  exact (some.inj some_).symm

theorem approval_review {closed : ReviewerIdentity} (approved : (judge id sha256 (qaAnswer answer)).approved = true)
    (some_ : closedIdentity answer = some closed)
    (foreign : "generator" ∉ [casefold (strip ((answerField answer "reviewer").getD "")),
      casefold (strip closed.subject), casefold (strip closed.issuer)]) :
    (approval id sha256 answer).review = .ok ⟨true, (answerField answer "reviewer").getD "", closed, none⟩ := by
  obtain ⟨-, identity, subject, issuer, is, first, second, subjectNamed, issuerNamed⟩ :=
    of_judge_approved approved
  obtain rfl := closedIdentity_eq_some is first second some_
  have given : (approval id sha256 answer).identity = some ⟨subject, issuer⟩ := by
    simp [QaArgs.identity, approval, some_]
  simp only [review, given, bind_eq_ok, require_eq_ok, exists_const, pure_eq_ok]
  exact ⟨⟨subjectNamed, issuerNamed, foreign⟩, rfl⟩

theorem of_approval_review {review : Review} (is : (approval id sha256 answer).review = .ok review) :
    ∃ closed, closedIdentity answer = some closed ∧
      "generator" ∉ [casefold (strip ((answerField answer "reviewer").getD "")),
        casefold (strip closed.subject), casefold (strip closed.issuer)] ∧
      review = ⟨true, (answerField answer "reviewer").getD "", closed, none⟩ := by
  have given : (approval id sha256 answer).identity = closedIdentity answer := by
    simp [identity, approval]
  unfold QaArgs.review at is
  rw [given] at is
  split at is
  · cases is
  · rename_i closed some_
    simp only [bind_eq_ok, require_eq_ok, exists_const, pure_eq_ok] at is
    exact ⟨closed, some_, is.1.2.2, is.2.symm⟩

theorem qaRow_approval (completed : Completed files jobs id sha256 row)
    (approved : (judge id sha256 (qaAnswer answer)).approved = true) :
    (∃ jobs', qaRow files none (approval id sha256 answer) jobs = .ok jobs') ↔ Compatible answer row := by
  obtain ⟨found, complete, bytes, path, result, file⟩ := completed
  have verified : verifyReceipt files row = .ok () := by
    simp [verifyReceipt, result, file, bytes]
  constructor
  · rintro ⟨jobs', accepted⟩
    simp only [qaRow, bind_eq_ok] at accepted
    obtain ⟨review, reviewed, accepted⟩ := accepted
    obtain ⟨closed, some_, foreign, rfl⟩ := of_approval_review reviewed
    have named : (approval id sha256 answer).requestId = id := rfl
    rw [named, found] at accepted
    simp only [bind_eq_ok, require_eq_ok, exists_const, requireCoordinatorWrite_eq_ok] at accepted
    obtain ⟨unpinned, -, ⟨⟩, -, accepted⟩ := accepted
    refine ⟨unpinned.elim (fun is => is) Eq.symm, closed, some_, foreign, ?_⟩
    cases recorded : row.review with
    | none => exact .inl rfl
    | some review =>
      rw [recorded] at accepted
      simp only [bind_eq_ok, require_eq_ok, exists_const] at accepted
      exact .inr (congrArg some accepted.1)
  · rintro ⟨unpinned, closed, some_, foreign, fresh⟩
    have reviewed := approval_review approved some_ foreign
    have reviewer : (answerField answer "reviewer").getD "" ≠ "" := by
      obtain ⟨named, -⟩ := of_judge_approved approved
      obtain ⟨reviewer, is, named⟩ := (any_eq_true _ _).mp named
      rw [is]
      rintro rfl
      exact absurd named (by decide)
    have named : (approval id sha256 answer).requestId = id := rfl
    have facts : row.status = .complete ∧ (approval id sha256 answer).reviewer ≠ "" ∧
        row.resultSha256 = some (approval id sha256 answer).resultSha256 ∧
        ((approval id sha256 answer).approved = true → (approval id sha256 answer).failureCode = none) ∧
        (approval id sha256 answer).failureCode ≠ some "" :=
      ⟨complete, reviewer, bytes, fun _ => rfl, by simp [approval]⟩
    have accepts {after : Jobs} {decided : Result Jobs} (is : decided = .ok after) :
        (requireCoordinatorWrite none row.generation >>= fun _ => require _
          (.value "QA must bind a completed receipt hash and reviewer") >>= fun _ =>
          verifyReceipt files row >>= fun _ => decided) = .ok after :=
      bind_eq_ok.mpr ⟨(), requireCoordinatorWrite_eq_ok.mpr (.inl unpinned),
        bind_eq_ok.mpr ⟨(), require_eq_ok.mpr facts, bind_eq_ok.mpr ⟨(), verified, is⟩⟩⟩
    obtain fresh | same := fresh
    · refine ⟨jobs.put { row with
          review := some ⟨true, (answerField answer "reviewer").getD "", closed, none⟩ },
        bind_eq_ok.mpr ⟨_, reviewed, ?_⟩⟩
      rw [named, found]
      exact accepts (by rw [fresh]; rfl)
    · refine ⟨jobs, bind_eq_ok.mpr ⟨_, reviewed, ?_⟩⟩
      rw [named, found]
      exact accepts (by rw [same]; simp [require])

theorem reviewed_of_qaRow (completed : Completed files jobs id sha256 row)
    (accepted : qaRow files none (approval id sha256 answer) jobs = .ok jobs') :
    ∃ closed row', closedIdentity answer = some closed ∧ Completed files jobs' id sha256 row' ∧
      row'.generation = row.generation ∧
      row'.review = some ⟨true, (answerField answer "reviewer").getD "", closed, none⟩ := by
  have key := (Table.find?_eq_some.mp completed.found).2
  simp only [qaRow, bind_eq_ok] at accepted
  obtain ⟨review, reviewed, accepted⟩ := accepted
  obtain ⟨closed, some_, foreign, rfl⟩ := of_approval_review reviewed
  have named : (approval id sha256 answer).requestId = id := rfl
  rw [named, completed.found] at accepted
  simp only [bind_eq_ok, require_eq_ok, exists_const] at accepted
  obtain ⟨-, -, -, ⟨⟩, -, accepted⟩ := accepted
  split at accepted
  · rename_i recorded is
    simp only [bind_eq_ok, require_eq_ok, exists_const, pure_eq_ok] at accepted
    obtain ⟨same, rfl⟩ := accepted
    exact ⟨closed, row, some_, completed, rfl, is.trans (congrArg some same)⟩
  · cases pure_eq_ok.mp accepted
    let decided : Row :=
      { row with review := some ⟨true, (answerField answer "reviewer").getD "", closed, none⟩ }
    refine ⟨closed, decided, some_, ⟨?_, completed.complete, completed.bytes, completed.file⟩, rfl, rfl⟩
    rw [← key]
    exact Table.find?_put_self jobs decided

theorem recordVerdict_rejected (known : answer ≠ .null)
    (rejected : (judge id sha256 (qaAnswer answer)).approved = false) : recordVerdict files
    jobs document id sha256 answer true = ⟨setQa document id (judge id sha256 (qaAnswer answer)), jobs, .ok ()⟩ := by
  simp [recordVerdict, known, rejected]

theorem recordVerdict_refused {error : Error} (known : answer ≠ .null) (approved : (judge id sha256
    (qaAnswer answer)).approved = true) (refused : qaRow files none (approval id sha256 answer) jobs = .error error)
    (saves : Bool) : recordVerdict files jobs document id sha256 answer saves = ⟨document, jobs, .error error⟩ := by
  simp [recordVerdict, known, approved, refused]

theorem recordVerdict_accepted (known : answer ≠ .null) (approved : (judge id sha256 (qaAnswer answer)).approved = true)
    (accepted : qaRow files none (approval id sha256 answer) jobs = .ok jobs')
    (saves : Bool) : recordVerdict files jobs document id sha256 answer saves = if saves then ⟨setQa
    document id (judge id sha256 (qaAnswer answer)), jobs', .ok ()⟩ else ⟨document, jobs', .error interrupted⟩ := by
  cases saves <;> simp [recordVerdict, known, approved, accepted]

theorem records_iff (completed : Completed files jobs id sha256 row) (pending : qaOf document id = none) :
    Records files jobs document id sha256 answer ↔ answer ≠ .null ∧
      ((judge id sha256 (qaAnswer answer)).approved = true → Compatible answer row) := by
  by_cases known : answer = .null
  · refine ⟨fun recorded => ?_, fun holds => absurd known holds.1⟩
    obtain ⟨-, verdict, is, -⟩ := recorded
    rw [recordVerdict, if_pos known] at is
    exact absurd (is.symm.trans pending) (some_ne_none verdict)
  · cases approved : (judge id sha256 (qaAnswer answer)).approved with
    | false =>
      refine ⟨fun _ => ⟨known, fun is => by cases is⟩, fun _ => ?_⟩
      rw [Records, recordVerdict_rejected known approved]
      refine ⟨rfl, _, qaOf_setQa document id _, fun is => ?_⟩
      rw [approved] at is
      cases is
    | true =>
      have accepts := qaRow_approval completed approved
      cases decided : qaRow files none (approval id sha256 answer) jobs with
      | error error =>
        constructor
        · intro recorded
          rw [Records, recordVerdict_refused known approved decided] at recorded
          cases recorded.1
        · rintro ⟨-, compatible⟩
          obtain ⟨jobs', is⟩ := accepts.mpr (compatible rfl)
          cases decided.symm.trans is
      | ok jobs' =>
        refine ⟨fun _ => ⟨known, fun _ => accepts.mp ⟨jobs', decided⟩⟩, fun _ => ?_⟩
        rw [Records, recordVerdict_accepted known approved decided]
        obtain ⟨closed, row', -, after, -, review⟩ := reviewed_of_qaRow completed decided
        refine ⟨rfl, _, qaOf_setQa document id _, fun _ => ⟨row', after.found, ?_⟩⟩
        rw [Row.qa, review]
        rfl

theorem records_again_iff (completed : Completed files jobs id sha256 row)
    (pending : qaOf document id = none) (known : answer ≠ .null)
    (approved : (judge id sha256 (qaAnswer answer)).approved = true) (compatible : Compatible answer row)
    (again : (judge id sha256 (qaAnswer answer')).approved = true) (known' : answer' ≠ .null) :
    Records files (recordVerdict files jobs document id sha256 answer false).jobs document id sha256 answer' ↔
      (answerField answer' "reviewer").getD "" = (answerField answer "reviewer").getD "" ∧
        closedIdentity answer' = closedIdentity answer := by
  obtain ⟨jobs', decided⟩ := (qaRow_approval completed approved).mpr compatible
  rw [recordVerdict_accepted known approved decided]
  obtain ⟨closed, row', some_, after, unpinned, review⟩ := reviewed_of_qaRow completed decided
  obtain ⟨closed', some', foreign, -⟩ := compatible.identity
  obtain rfl : closed = closed' := some.inj (some_.symm.trans some')
  refine (records_iff after pending).trans ⟨fun holds => ?_, fun same => ⟨known', fun _ => ?_⟩⟩
  · obtain ⟨-, closed', is, -, fresh | same⟩ := holds.2 again
    · rw [review] at fresh
      cases fresh
    · rw [review] at same
      injection same with same
      injection same with _ reviewer identity _
      exact ⟨reviewer.symm, is.trans (identity ▸ some_.symm)⟩
  · obtain ⟨reviewer, identity⟩ := same
    refine ⟨unpinned.trans compatible.unpinned, closed, identity.trans some_, ?_, .inr ?_⟩
    · rw [reviewer]
      exact foreign
    · rw [review, reviewer]

def sampleRow : Row :=
  { Executor.Reservation.row (sampleDeployment 6)
      ⟨sampleFirst, 1, "", "TEST_LOCAL_ONLY", none, none, none⟩ with
    status := .complete, result := some "/out/a.png", resultSha256 := some emptySha256 }

def sampleJobs : Jobs := Table.empty.put sampleRow

def sampleDocument : Document :=
  ⟨"EP8", "digest", "packet", [⟨sampleFirstId, "spec", none⟩], [], ⟨1, 1⟩, [], fun _ => none,
    fun _ => none, .running⟩

def sampleAnswer (reviewer : String) (identity : Dict) : Json :=
  .obj [("approved", .bool true), ("reviewer", .str reviewer), ("reviewer_identity", .obj identity),
    ("request_id", .str sampleFirstId), ("result_sha256", .str emptySha256)]

def sampleIdentity (subject : String) : Dict := [("subject", .str subject), ("issuer", .str "studio")]

theorem sample_completed : Completed (fun _ => .ok emptySha256) sampleJobs sampleFirstId emptySha256 sampleRow :=
  ⟨by rfl, rfl, rfl, "/out/a.png", rfl, rfl⟩

end VideoPoster.Autonomous
