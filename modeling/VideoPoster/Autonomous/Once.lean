import VideoPoster.Autonomous.Runner

/-!
# Two gates before a publication
-/

namespace VideoPoster.Autonomous
open Python Runner List Option

variable {requestId jobSha256 : Job → String} {runner : Runner} {disk disk' : Option Document}
  {document document' : Document} {event : Option Event} {history : List Event}

def State.final (state : State) : Bool := state = .publishIntent ∨ state = .published

def verified : Call → Document → Bool
  | .resume call, document =>
    match validateQa call.inspect document.qa with
    | .error error => error.kind ≠ .valueError
    | .ok () => true
  | _, _ => true

inductive Change (call : Call) :
    Option Document → Option Event → Option Document → Prop
  | same {disk : Option Document} : Change call disk none disk
  | started {document : Document} (state : document.state = .ready) :
      Change call none none (some document)
  | ran {document document' : Document} (before : document.state = .ready ∨ document.state = .running)
      (after : document'.state = .running ∨ document'.state = .rejected ∨ document'.state = .mediaPending) :
      Change call (some document) none (some document')
  | demoted {document : Document} (final : document.state.final = true → verified call document = false) :
      Change call (some document) none (some { document with state := .rejected })
  | added {document document' : Document} (final : document.state.final = false)
      (state : document'.state = .running) : Change call (some document) (some .added) (some document')
  | staged {document : Document} (state : document.state = .mediaPending) (media : Kind → Media) :
      Change call (some document) (some (.staged media))
        (some { document with media := fun kind => some (media kind), state := .waitingThumbnailApproval })
  | gated {document : Document} {kind : Kind} (state : document.state = expectedState kind) {media : Media}
      (staged : document.media kind = some media) (gate : Gate) (same : gate.artifactSha256 = media.sha256) :
      Change call (some document) (some (.gated kind gate.artifactSha256 gate.approved))
        (some { setGate document kind gate with state := decidedState kind gate.approved })
  | stopped {document : Document} (state : document.state = .readyToPublish) :
      Change call (some document) none (some { document with state := .publishIntent })
  | published {document document' : Document} (state : document.state = .readyToPublish)
      {thumbnail video : Gate} (first : document.gates .thumbnail = some thumbnail)
      (second : document.gates .video = some video) (package : Package)
      (thumbnailSame : package.thumbnailSha256 = thumbnail.artifactSha256)
      (videoSame : package.videoSha256 = video.artifactSha256) (final : document'.state.final = true) :
      Change call (some document) (some (.published package)) (some document')

theorem load_eq_ok (is : runner.load disk = .ok document) : disk = some document := by
  unfold load at is
  split at is
  · cases is
  · obtain ⟨_, -, is⟩ := bind_eq_ok.1 is
    cases pure_eq_ok.mp is
    rfl

abbrev Makes (call : Call) (disk : Option Document) (outcome : Outcome) : Prop :=
  Change call disk outcome.event outcome.disk

theorem makes_save {call : Call} {saves : Bool} (change : Change call disk event (some document)) :
    Makes call disk (save disk saves document event) := by
  cases saves
  · exact .same
  · exact change

theorem makes_saveAndRaise {call : Call} {saves : Bool} {error : Error}
    (change : Change call disk none (some document)) : Makes call disk (saveAndRaise disk saves document error) := by
  cases saves
  · exact .same
  · exact change

theorem start_makes (call : Start) : Makes (.start call) disk (runner.start requestId jobSha256 disk call) := by
  unfold start
  split
  · split
    · exact .same
    · split_ifs
      · exact .same
      · exact .same
  · split
    · exact .same
    · exact makes_save (.started rfl)

theorem addSuccessors_makes (call : AddSuccessors) :
    Makes (.addSuccessors call) disk (runner.addSuccessors requestId jobSha256 disk call) := by
  unfold addSuccessors
  split
  · exact .same
  · rename_i document loaded
    cases load_eq_ok loaded
    split_ifs with final
    · exact .same
    · split
      · exact .same
      · exact .same
      · refine makes_save (.added ?_ rfl)
        simp only [State.final, decide_eq_false_iff_not]
        exact fun is => final is.symm

theorem stageDelivery_makes (call : StageDelivery) :
    Makes (.stageDelivery call) disk (runner.stageDelivery disk call) := by
  unfold stageDelivery
  split
  · exact .same
  · rename_i document loaded
    cases load_eq_ok loaded
    split
    · exact .same
    · rename_i closed
      have state : document.state = .mediaPending := by
        by_contra other
        exact closed (.inl other)
      split
      · refine makes_saveAndRaise (.demoted fun final => ?_)
        rw [state] at final
        cases final
      · split
        · exact .same
        · exact makes_save (.staged state _)

theorem recordHumanGate_makes (call : RecordHumanGate) :
    Makes (.recordHumanGate call) disk (runner.recordHumanGate disk call) := by
  unfold recordHumanGate
  split
  · exact .same
  · rename_i document loaded
    cases load_eq_ok loaded
    split
    · exact .same
    · rename_i checks
      simp only [gateChecks, bind_eq_ok, require_eq_ok] at checks
      obtain ⟨_, state, _, -, _, -, _, -, same⟩ := checks
      obtain ⟨media, staged, same⟩ := (any_eq_true _ _).mp same
      exact makes_save (.gated state staged ⟨call.artifact.path, call.artifact.sha256, call.approved, call.reviewer⟩
        (of_decide_eq_true same).symm)

theorem publishPackage_eq_ok {call : Publish} {package : Package} (is : runner.publishPackage document call =
    .ok package) : ∃ thumbnail video, document.gates .thumbnail = some thumbnail ∧ document.gates .video =
    some video ∧ package.thumbnailSha256 = thumbnail.artifactSha256 ∧ package.videoSha256 = video.artifactSha256 := by
  unfold publishPackage at is
  split at is
  · rename_i thumbnail video first second
    simp only [bind_eq_ok, pure_eq_ok] at is
    obtain ⟨_, -, _, -, _, -, _, -, _, -, rfl⟩ := is
    exact ⟨thumbnail, video, first, second, rfl, rfl⟩
  · cases is

theorem publish_makes (call : Publish) : Makes (.publish call) disk (runner.publish disk call) := by
  unfold Runner.publish
  split
  · exact .same
  · rename_i document loaded
    cases load_eq_ok loaded
    split
    · exact .same
    split
    · exact .same
    split
    · exact .same
    split
    · exact .same
    · rename_i other
      have state : document.state = .readyToPublish := not_not.mp other
      split
      · exact .same
      · rename_i package is
        obtain ⟨thumbnail, video, first, second, firstSame, secondSame⟩ := publishPackage_eq_ok is
        split
        · split
          · exact .stopped state
          all_goals exact .published state first second package firstSame secondSame rfl
        · exact .same

/-! ## The loop -/

theorem settle_state {inflight inflight' : List String} {done : List Done} {stop : Option Error}
    (is : settle document inflight done = (document', inflight', stop)) : document'.state = document.state := by
  induction done generalizing document inflight with
  | nil =>
    cases is
    rfl
  | cons task rest ih =>
    unfold settle at is
    split at is
    · split at is
      · cases is
        rfl
      · exact ih is
      · dsimp only at is
        split at is
        · cases is
          rfl
        · split at is
          · exact (ih is).trans rfl
          · cases is
            rfl
    · cases is
      rfl

def State.unstaged (state : State) : Prop := state = .running ∨ state = .rejected ∨ state = .mediaPending

theorem save_unstaged {saves : Bool} (unstaged : document.state.unstaged) (unstaged' : document'.state.unstaged) :
    (save (some document) saves document' none).event = none ∧ ∃ after,
      (save (some document) saves document' none).disk = some after ∧ after.state.unstaged := by
  cases saves
  · exact ⟨rfl, document, rfl, unstaged⟩
  · exact ⟨rfl, document', rfl, unstaged'⟩

theorem rounds_unstaged {ordered : List String} {edges : String → List String} {window : ℕ}
    {inflight : List String} {turns : List Round} (unstaged : document.state.unstaged) :
    (rounds ordered edges window document inflight turns).event = none ∧ ∃ after,
      (rounds ordered edges window document inflight turns).disk = some after ∧ after.state.unstaged := by
  induction turns generalizing document inflight with
  | nil => exact ⟨rfl, document, rfl, unstaged⟩
  | cons turn turns ih =>
    unfold rounds
    split
    · split
      · cases turn.saves
        · exact ⟨rfl, document, rfl, unstaged⟩
        · exact ⟨rfl, _, rfl, .inr (.inl rfl)⟩
      · exact ⟨rfl, document, rfl, unstaged⟩
    · split
      · exact save_unstaged unstaged (.inr (.inl rfl))
      · dsimp only
        split
        · split
          · exact save_unstaged unstaged (.inr (.inr rfl))
          · exact ⟨rfl, document, rfl, unstaged⟩
        · split
          · exact save_unstaged unstaged (.inr (.inl rfl))
          · split
            · exact ⟨rfl, document, rfl, unstaged⟩
            · split
              · rename_i settled
                refine ⟨rfl, _, rfl, ?_⟩
                rw [settle_state settled]
                exact unstaged
              · rename_i settled
                refine ih ?_
                rw [settle_state settled]
                exact unstaged

theorem resumeParallel_makes (call : Resume) :
    Makes (.resume call) disk (runner.resumeParallel requestId jobSha256 disk call) := by
  unfold resumeParallel
  split
  · exact .same
  · rename_i document loaded
    cases load_eq_ok loaded
    split
    · exact .same
    split
    · exact .same
    split
    · split
      · rename_i error unverified
        split
        · rename_i kind
          refine makes_saveAndRaise (.demoted fun _ => ?_)
          simp [verified, unverified, kind]
        · exact .same
      · exact .same
    · rename_i state
      have before : document.state = .ready ∨ document.state = .running := by
        by_contra neither
        exact state ⟨fun is => neither (.inl is), fun is => neither (.inr is)⟩
      split
      · dsimp only
        split
        · exact .ran before (.inl rfl)
        · rename_i ordered is
          obtain ⟨event, after, same, unstaged⟩ := @rounds_unstaged { document with state := .running }
            ordered _ (runner.scheduler.providerConcurrency + runner.scheduler.cpuConcurrency) []
            call.rounds (.inl rfl)
          rw [Makes, event, same]
          exact .ran before unstaged
      · exact .same

theorem perform_makes (call : Call) : Makes call disk (runner.perform requestId jobSha256 disk call) := by
  cases call with
  | start call => exact start_makes call
  | addSuccessors call => exact addSuccessors_makes call
  | resume call => exact resumeParallel_makes call
  | stageDelivery call => exact stageDelivery_makes call
  | recordHumanGate call => exact recordHumanGate_makes call
  | publish call => exact publish_makes call

/-! ## Runs -/

section Runs
variable (requestId jobSha256 runner)

def run (history : List Event) (disk : Option Document) : List Call → List Event × Option Document
  | [] => (history, disk)
  | call :: rest =>
    let outcome := runner.perform requestId jobSha256 disk call
    run (outcome.event.toList ++ history) outcome.disk rest

def keeps (disk : Option Document) (call : Call) : Bool :=
  disk.all fun document => !document.state.final || verified call document

def keepsAll (disk : Option Document) : List Call → Bool
  | [] => true
  | call :: rest => keeps disk call && keepsAll (runner.perform requestId jobSha256 disk call).disk rest

end Runs

def Event.isPublished : Event → Bool
  | .published _ => true
  | _ => false

def publications (history : List Event) : ℕ := history.countP Event.isPublished

def Event.keepsStaging : Event → Bool
  | .staged _ => false
  | .added => false
  | _ => true

def Package.sha256 (package : Package) : Kind → String
  | .thumbnail => package.thumbnailSha256
  | .video => package.videoSha256

/-- The media were staged before the events `after`, which replace neither media nor jobs. -/
def Staging (history : List Event) (media : Kind → Media) (after : List Event) : Prop :=
  (∃ before, history = after ++ .staged media :: before) ∧ ∀ event ∈ after, event.keepsStaging = true

def Bound (package : Package) (earlier : List Event) : Prop :=
  ∃ media after, Staging earlier media after ∧ ∀ kind,
    package.sha256 kind = (media kind).sha256 ∧ .gated kind (media kind).sha256 true ∈ after

/-! ## The gates of a publication -/

def State.staged (state : State) : Bool :=
  state = .waitingThumbnailApproval ∨ state = .waitingVideoApproval ∨ state = .readyToPublish

def State.passed (state : State) : Kind → Bool
  | .thumbnail => state = .waitingVideoApproval ∨ state = .readyToPublish
  | .video => state = .readyToPublish

structure Awaits (history : List Event) (document : Document) (media : Kind → Media)
    (after : List Event) : Prop where
  staging : Staging history media after
  same : ∀ kind, document.media kind = some (media kind)
  gates : ∀ kind, document.state.passed kind = true → ∃ gate, document.gates kind = some gate ∧
    gate.artifactSha256 = (media kind).sha256 ∧ .gated kind (media kind).sha256 true ∈ after

structure Gated (history : List Event) (disk : Option Document) : Prop where
  published : ∀ package earlier, .published package :: earlier <:+ history → Bound package earlier
  awaits : ∀ document, disk = some document → document.state.staged = true →
    ∃ media after, Awaits history document media after

theorem Gated.start : Gated [] none where
  published := fun _ _ first => by
    cases suffix_nil.mp first
  awaits := fun _ is => by
    cases is

theorem Gated.published_cons (gated : Gated history disk) {event : Event} (other : event.isPublished = false) :
    ∀ package earlier, .published package :: earlier <:+ event :: history → Bound package earlier := by
  intro package earlier suffix
  obtain same | suffix := suffix_cons_iff.mp suffix
  · cases same
    cases other
  · exact gated.published package earlier suffix

theorem Gated.quiet (gated : Gated history disk) (quiet : document.state.staged = false) :
    Gated history (some document) where
  published := gated.published
  awaits := fun document' is staged => by
    cases is
    rw [quiet] at staged
    cases staged

theorem Gated.stage {media : Kind → Media} (gated : Gated history disk) : Gated (.staged media :: history)
      (some { document with media := fun kind => some (media kind), state := .waitingThumbnailApproval }) where
  published := gated.published_cons rfl
  awaits := fun document' is _ => by
    cases is
    refine ⟨media, [], ⟨⟨history, rfl⟩, fun _ in_ => ?_⟩, fun _ => rfl, fun kind passed => ?_⟩
    · cases in_
    · cases kind <;> cases passed

theorem Awaits.gate {media : Kind → Media} {after : List Event} {kind : Kind} {gate : Gate}
    (awaits : Awaits history document media after) (state : document.state = expectedState kind)
    (same : gate.artifactSha256 = (media kind).sha256) (approved : gate.approved = true) :
    Awaits (.gated kind gate.artifactSha256 gate.approved :: history)
      { setGate document kind gate with state := decidedState kind gate.approved } media
      (.gated kind gate.artifactSha256 gate.approved :: after) where
  staging := by
    obtain ⟨⟨before, is⟩, keeps⟩ := awaits.staging
    refine ⟨⟨before, congrArg _ is⟩, fun event in_ => ?_⟩
    obtain rfl | in_ := mem_cons.mp in_
    · rfl
    · exact keeps event in_
  same := awaits.same
  gates := fun other passed => by
    by_cases here : other = kind
    · subst here
      exact ⟨gate, Function.update_self .., same, by simp [same, approved]⟩
    · -- only the thumbnail is passed before the other gate
      have earlier : document.state.passed other = true := by
        cases kind <;> cases other <;> simp_all [decidedState, State.passed, expectedState]
      obtain ⟨gate', is, same', in_⟩ := awaits.gates other earlier
      exact ⟨gate', (Function.update_of_ne here ..).trans is, same', .tail _ in_⟩

theorem Gated.gate {kind : Kind} {media : Media} {gate : Gate} (gated : Gated history (some document))
    (state : document.state = expectedState kind) (staged : document.media kind = some media)
    (same : gate.artifactSha256 = media.sha256) :
    Gated (.gated kind gate.artifactSha256 gate.approved :: history)
      (some { setGate document kind gate with state := decidedState kind gate.approved }) where
  published := gated.published_cons rfl
  awaits := fun document' is waits => by
    cases is
    cases approved : gate.approved with
    | false =>
      rw [approved] at waits
      cases waits
    | true =>
      have before : document.state.staged = true := by
        rw [state]
        cases kind <;> rfl
      obtain ⟨all, after, awaits⟩ := gated.awaits document rfl before
      obtain rfl : all kind = media := some.inj ((awaits.same kind).symm.trans staged)
      exact ⟨all, _, approved ▸ awaits.gate state same approved⟩

theorem Awaits.bound {media : Kind → Media} {after : List Event} {package : Package} {thumbnail video : Gate}
    (awaits : Awaits history document media after) (state : document.state = .readyToPublish) (first : document.gates
    .thumbnail = some thumbnail) (second : document.gates .video = some video) (thumbnailSame : package.thumbnailSha256
    = thumbnail.artifactSha256) (videoSame : package.videoSha256 = video.artifactSha256) : Bound package history := by
  refine ⟨media, after, awaits.staging, fun kind => ?_⟩
  have passed : document.state.passed kind = true := by
    rw [state]
    cases kind <;> rfl
  obtain ⟨gate, is, same, in_⟩ := awaits.gates kind passed
  refine ⟨?_, in_⟩
  cases kind with
  | thumbnail =>
    cases first.symm.trans is
    exact thumbnailSame.trans same
  | video =>
    cases second.symm.trans is
    exact videoSame.trans same

theorem Gated.step {call : Call} (gated : Gated history disk) (change : Change call disk event disk') :
    Gated (event.toList ++ history) disk' := by
  cases change with
  | same => exact gated
  | started state =>
    refine gated.quiet ?_
    rw [state]
    rfl
  | ran before after =>
    refine gated.quiet ?_
    obtain after | after | after := after
    all_goals
      rw [after]
      rfl
  | demoted final => exact gated.quiet rfl
  | added final state =>
    refine ⟨gated.published_cons rfl, fun document is waits => ?_⟩
    cases is
    rw [state] at waits
    cases waits
  | staged state media => exact gated.stage
  | gated state staged gate same => exact gated.gate state staged same
  | stopped state => exact gated.quiet rfl
  | published state first second package thumbnailSame videoSame final =>
    rename_i document document' thumbnail video
    constructor
    · intro package' earlier suffix
      obtain same | suffix := suffix_cons_iff.mp suffix
      · cases same
        have waits : document.state.staged = true := by
          rw [state]
          rfl
        obtain ⟨media, after, awaits⟩ := gated.awaits document rfl waits
        exact awaits.bound state first second thumbnailSame videoSame
      · exact gated.published package' earlier suffix
    · intro document'' is waits
      cases is
      simp only [State.final, State.staged, decide_eq_true_eq] at final waits
      obtain final | final := final <;> simp [final] at waits

theorem run_gated {calls : List Call} (gated : Gated history disk) : Gated
    (run requestId jobSha256 runner history disk calls).1 (run requestId jobSha256 runner history disk calls).2 := by
  induction calls generalizing history disk with
  | nil => exact gated
  | cons call rest ih => exact ih (gated.step (perform_makes call))

/-! ## One publication -/

def Remembers (history : List Event) (disk : Option Document) : Prop :=
  publications history = 0 ∨
    publications history = 1 ∧ ∃ document, disk = some document ∧ document.state.final = true

theorem Remembers.none (remembers : Remembers history (some document)) (open_ : document.state.final = false) :
    publications history = 0 := by
  obtain none | ⟨-, document', is, final⟩ := remembers
  · exact none
  · cases is
    rw [open_] at final
    cases final

section
variable (remembers : Remembers history disk)
include remembers

theorem Remembers.step {call : Call} (kept : keeps disk call = true)
    (change : Change call disk event disk') : Remembers (event.toList ++ history) disk' := by
  cases change with
  | same => exact remembers
  | started state =>
    obtain none | ⟨-, document, is, -⟩ := remembers
    · exact .inl none
    · cases is
  | ran before after =>
    refine .inl (remembers.none ?_)
    obtain before | before := before
    all_goals
      rw [before]
      rfl
  | demoted final =>
    rename_i document
    refine .inl (remembers.none ?_)
    cases known : document.state.final with
    | false => rfl
    | true =>
      rw [keeps, all_some, known, final known] at kept
      cases kept
  | added final state => exact .inl (remembers.none final)
  | staged state media =>
    refine .inl (remembers.none ?_)
    rw [state]
    rfl
  | @gated document kind state media staged gate same =>
    refine .inl (remembers.none ?_)
    rw [state]
    cases kind <;> rfl
  | stopped state =>
    refine .inl (remembers.none ?_)
    rw [state]
    rfl
  | @published document document' state thumbnail video first second package thumbnailSame videoSame final =>
    have none : publications history = 0 := by
      refine remembers.none ?_
      rw [state]
      rfl
    refine .inr ⟨?_, document', rfl, final⟩
    exact (countP_cons_of_pos rfl).trans (congrArg (· + 1) none)

theorem run_remembers {calls : List Call} (kept : keepsAll requestId jobSha256 runner disk calls = true) : Remembers
    (run requestId jobSha256 runner history disk calls).1 (run requestId jobSha256 runner history disk calls).2 := by
  induction calls generalizing history disk with
  | nil => exact remembers
  | cons call rest ih =>
    obtain ⟨first, later⟩ := Bool.and_eq_true_iff.mp kept
    exact ih (remembers.step first (perform_makes call)) later

theorem Remembers.once : publications history ≤ 1 := by
  obtain none | ⟨one, -⟩ := remembers
  · omega
  · omega

end

/-- The publisher is called once at the most, with the media that were staged last and approved since. -/
theorem publishes_once (calls : List Call) (kept : keepsAll requestId jobSha256 runner none calls = true) :
    publications (run requestId jobSha256 runner [] none calls).1 ≤ 1 ∧ ∀ package earlier,
    .published package :: earlier <:+ (run requestId jobSha256 runner [] none calls).1 → Bound package earlier :=
  ⟨(run_remembers (.inl rfl) kept).once, (run_gated .start).published⟩

def sampleRunner : Runner :=
  ⟨"EP8", ⟨"v1", "digest", 10, 10, ["fal"], "channel", "private", true⟩, ⟨1, 1⟩⟩

def sampleId (job : Job) : String := job.scene ++ "-" ++ job.category

def sampleJob (category predecessor : String) : Job :=
  ⟨"scene", category, "TEST", "fal", [], some .null, 1, predecessor, "IMAGE_EDIT"⟩

def sampleInspect (file : Option String) (id : String) : Result (Option Receipt) :=
  .ok (some ⟨"COMPLETE", id, some "result", true, file⟩)

def sampleResume (id : String) : Call :=
  .resume ⟨none, sampleInspect (some "result"), true,
    [⟨sampleInspect (some "result"), true,
      [⟨id, .ok ("result", some (some ⟨some id, some "result", some ⟨some "reviewer", some "issuer"⟩, true,
        some "reviewer"⟩)), none, true⟩]⟩,
      ⟨sampleInspect (some "result"), true, []⟩]⟩

def sampleDelivery : List Call :=
  let artifact := fun path => (⟨path, true, .ok (), path⟩ : Artifact)
  [.stageDelivery ⟨fun kind => artifact (if kind = .video then "video" else "thumbnail"), true, true⟩,
    .recordHumanGate ⟨.thumbnail, artifact "thumbnail", true, "reviewer", true⟩,
    .recordHumanGate ⟨.video, artifact "video", true, "reviewer", true⟩,
    .publish ⟨fun path => .ok (some path), true, .returned true true⟩]

def sampleCalls : List Call :=
  .start ⟨"packet", [sampleJob "first" ""], true⟩ :: sampleResume "scene-first" :: sampleDelivery

theorem sample_publishes_once : publications (run sampleId sampleId sampleRunner [] none sampleCalls).1 =
    1 ∧ publications (run sampleId sampleId sampleRunner [] none sampleCalls).1 ≤ 1 ∧ ∀ package earlier, .published
    package :: earlier <:+ (run sampleId sampleId sampleRunner [] none sampleCalls).1 → Bound package earlier :=
  ⟨by decide +kernel, publishes_once sampleCalls (by decide +kernel)⟩

theorem resumed_publishes_twice : publications (run sampleId sampleId sampleRunner [] none (sampleCalls ++
        .resume ⟨none, sampleInspect none, true, []⟩ ::
        .addSuccessors ⟨[sampleJob "hero" "scene-first"], true⟩ ::
        sampleResume "scene-hero" :: sampleDelivery)).1 = 2 := by
  decide +kernel

end VideoPoster.Autonomous
