import VideoPoster.Preproduction.Advance

/-!
# Advancing after a stop
-/

namespace VideoPoster.Preproduction.Advance
open Python Interleaving Prog Recording

variable {P : Platform}

/-! ## Runs -/

/-- Calls, one after the other, each stopping where it does, from a request that was started. -/
inductive Reached (P : Platform) (allowed : World → Call → Option Act → Prop) : World → Prop
  | start : Reached P allowed (started P)
  | call {w w' : World} {call : Call} {pid : ℕ} {pending : Option Act} (before : Reached P allowed w)
      (stops : (advance P call).Stops (M := machine) () pid w w' pending) (meets : allowed w call pending) :
      Reached P allowed w'

def Valid (P : Platform) (allowed : World → Call → Option Act → Prop) (call : Call) : Prop :=
  ∃ w, Reached P allowed w ∧ ∃ pid status w', (advance P call).Ends (M := machine) () pid w (.ok status) w'

structure Recoverable (P : Platform) (allowed : World → Call → Option Act → Prop) (w : World) : Prop where
  verifies : ∀ source, verifyCompletedStages P (w.revisions source) ((w.revisions source).stages.getD {}) source = .ok ()
  succeeds : ∀ call, Valid P allowed call → ∀ pid, ∃ status w',
    (advance P call).Ends (M := machine) () pid w (.ok status) w'

structure CollisionFree (P : Platform) : Prop where
  sha256 : Function.Injective P.sha256
  digestInput : Function.Injective P.digestInput

/-! ## The window -/

def accepted (P : Platform) (w : World) (call : Call) (timelineRaw : Bytes) : Result Prepared := do
  let revision := w.revisions call.source
  let stages := revision.stages.getD {}
  validate P w.document
  P.source call.mode call.source
  verifyCompletedStages P revision stages call.source
  prepare P call timelineRaw revision stages

inductive Act.AfterScenes : Act → Prop
  | storyboardQa (source : Bytes) (report : ReportDocument) : AfterScenes (.write source (.storyboardQa report))
  | timeline (source bytes : Bytes) : AfterScenes (.write source (.timeline bytes))
  | audio (source : Bytes) (name : String) (bytes : Bytes) : AfterScenes (.write source (.audio name bytes))
  | stages (source : Bytes) (stages : Stages) : AfterScenes (.write source (.stages stages))

inductive Act.AfterReport : Act → Prop
  | timeline (source bytes : Bytes) : AfterReport (.write source (.timeline bytes))
  | audio (source : Bytes) (name : String) (bytes : Bytes) : AfterReport (.write source (.audio name bytes))
  | stages (source : Bytes) (stages : Stages) : AfterReport (.write source (.stages stages))

/-- If the call replaces a recorded storyboard, it does not stop before it has recorded the new one, nor is its
storyboard refused when the scenes are already written; unless the files in question have the recorded hashes. -/
def Careful (P : Platform) (w : World) (call : Call) (pending : Option Act) : Prop :=
  ∀ recording ∈ (w.revisions call.source).stages.bind Stages.recording, ∀ timelineRaw ∈ call.timeline, ∀ prepared,
    accepted P w call timelineRaw = .ok prepared → recording.inputSha256 ≠ P.digestInput prepared.input →
      prepared.timeline.timestamps ≠ [] →
        ((∃ action ∈ pending, action.AfterScenes) ∨ pending = none ∧ (∃ error, prepared.report P = .error error) →
          P.sha256 (.scenes (prepared.scenes P)) = recording.sha256) ∧
        ((∃ action ∈ pending, action.AfterReport) → ∀ report, prepared.report P = .ok report →
          P.sha256 (.report report) = recording.qaSha256)

/-! ## Sound revisions -/

structure Filed (P : Platform) (source : Bytes) (revision : Revision) (stages : EditorialStages) : Prop where
  made : ∃ narration script plan, (P.editorial source).script = .ok (narration, script) ∧
    (P.editorial source).plan = .ok plan ∧ revision.script = some script ∧ revision.plan = some plan ∧
      stages = editorialStages P source script plan
  approved : (P.editorial source).approved = true
  research : revision.research = some (P.editorial source).research
  scriptQa : revision.scriptQa = some (P.editorial source).scriptQa

structure Checked (P : Platform) (source : Bytes) (prepared : Prepared) : Prop where
  timeline : P.timeline prepared.timelineRaw = .ok prepared.timeline
  made : ∃ narration script, (P.editorial source).script = .ok (narration, script) ∧
    prepared.segments = script.narration ∧
      prepared.input = ⟨P.sha256 (.raw prepared.timelineRaw), P.sha256 (.raw prepared.audio.bytes),
        P.sha256 (.raw script.raw), P.sha256 (.raw source)⟩

def Prepared.recording (P : Platform) (prepared : Prepared) (report : ReportDocument) (attempts : ℕ) : Recording :=
  { prepared.input with
    attempts := attempts + 1
    inputSha256 := P.digestInput prepared.input
    sha256 := P.sha256 (.scenes (prepared.scenes P))
    qaSha256 := P.sha256 (.report report) }

def Prepared.Stored (P : Platform) (prepared : Prepared) (report : ReportDocument) : Prop :=
  prepared.timeline.timestamps ≠ [] ∧ prepared.report P = .ok report

def Backed (P : Platform) (source : Bytes) (recording : Recording) : Prop :=
  ∃ prepared report attempts, Checked P source prepared ∧ prepared.Stored P report ∧
    recording = prepared.recording P report attempts

structure SoundRevision (P : Platform) (source : Bytes) (revision : Revision) : Prop where
  copy : ∀ bytes ∈ revision.source, bytes = source
  editorial : ∀ stages ∈ revision.stages, ∃ made ∈ stages.editorial, Filed P source revision made
  scenes : ∀ recording ∈ revision.stages.bind Stages.recording,
    kept P (some recording.sha256) (revision.scenes.map .scenes) = true
  storyboardQa : ∀ recording ∈ revision.stages.bind Stages.recording,
    kept P (some recording.qaSha256) (revision.storyboardQa.map .report) = true
  backed : ∀ recording ∈ revision.stages.bind Stages.recording, Backed P source recording

structure Sound (P : Platform) (source : Bytes) (w : World) : Prop where
  document : validate P w.document = .ok ()
  revision : SoundRevision P source (w.revisions source)

theorem validate_started : validate P (started P).document = .ok () := by
  simp [validate, started, dependencies]

theorem validate_requestDocument (call : Call) (status : Status) :
    validate P (requestDocument P call status) = .ok () := by
  unfold validate requestDocument
  cases status <;> simp [dependencies]

variable {source : Bytes}

theorem Sound.started : Sound P source (started P) where
  document := validate_started
  revision := ⟨nofun, nofun, nofun, nofun, nofun⟩

theorem kept_some {hash : String} {content : Content} :
    kept P (some hash) (some content) = true ↔ P.sha256 content = hash := by
  simp [kept]

variable {revision : Revision}

theorem SoundRevision.verifies (sound : SoundRevision P source revision) :
    verifyCompletedStages P revision (revision.stages.getD {}) source = .ok () := by
  have copy : ∀ bytes ∈ revision.source, P.sha256 (.raw bytes) = P.sha256 (.raw source) :=
    fun bytes there => by rw [sound.copy bytes there]
  cases stages : revision.stages with
  | none =>
    have nothing (file : Option Content) : kept P none file = true := rfl
    simpa [verifyCompletedStages, nothing, Stages.recording] using copy
  | some stages' =>
    obtain ⟨made, there, filed⟩ := sound.editorial stages' stages
    obtain ⟨narration, script, plan, -, -, isScript, isPlan, rfl⟩ := filed.made
    have scenes : kept P (stages'.recording.map (·.sha256)) (revision.scenes.map .scenes) = true := by
      cases recording : stages'.recording with
      | none => rfl
      | some recorded => exact sound.scenes recorded (by rw [stages]; exact recording)
    have report : kept P (stages'.recording.map (·.qaSha256)) (revision.storyboardQa.map .report) = true := by
      cases recording : stages'.recording with
      | none => rfl
      | some recorded => exact sound.storyboardQa recorded (by rw [stages]; exact recording)
    rw [Option.mem_def] at there
    simp only [verifyCompletedStages, Option.getD_some, there, Option.map_some, filed.research, isScript, isPlan,
      filed.scriptQa, scenes, report, editorialStages, kept_some, bind_eq_ok, require_eq_ok, exists_const,
      and_true]
    exact copy

/-! ## What the writes keep -/

@[simp]
theorem write_revisions_self (w : World) (source : Bytes) (write : Write) :
    (w.write source write).revisions source = (w.revisions source).apply write := Function.update_self _ _ _

theorem write_revisions_of_ne (w : World) {other : Bytes} (write : Write) (differs : other ≠ source) :
    (w.write source write).revisions other = w.revisions other := Function.update_of_ne differs _ _

variable {w : World}

theorem Sound.write {write : Write} (sound : Sound P source w)
    (revision : SoundRevision P source ((w.revisions source).apply write)) :
    Sound P source (w.write source write) where
  document := sound.document
  revision := by rwa [write_revisions_self]

theorem SoundRevision.of_unrecorded (copy : ∀ bytes ∈ revision.source, bytes = source) (unrecorded : revision.stages = none) :
    SoundRevision P source revision where
  copy := copy
  editorial := by rw [unrecorded]; nofun
  scenes := by rw [unrecorded]; nofun
  storyboardQa := by rw [unrecorded]; nofun
  backed := by rw [unrecorded]; nofun

/-- The source and the script are in place, and nothing else is wrong but perhaps the storyboard. -/
structure Ready (P : Platform) (source : Bytes) (made : EditorialStages) (w : World) : Prop where
  document : validate P w.document = .ok ()
  copy : ∀ bytes ∈ (w.revisions source).source, bytes = source
  filed : Filed P source (w.revisions source) made

inductive Write.Later : Write → Prop
  | timeline (bytes : Bytes) : Later (.timeline bytes)
  | audio (name : String) (bytes : Bytes) : Later (.audio name bytes)
  | scenes (scenes : List Scene) : Later (.scenes scenes)
  | storyboardQa (report : ReportDocument) : Later (.storyboardQa report)
  | stages (stages : Stages) : Later (.stages stages)
  | compilationInput (input : CompilationInput) : Later (.compilationInput input)

section Ready
variable {source : Bytes} {made : EditorialStages} {w : World} {file : Write}

theorem Ready.write (ready : Ready P source made w) (later : file.Later) : Ready P source made (w.write source file) where
  document := ready.document
  copy := by
    rw [write_revisions_self]
    cases later <;> exact ready.copy
  filed := by
    rw [write_revisions_self]
    cases later <;> exact ⟨ready.filed.made, ready.filed.approved, ready.filed.research, ready.filed.scriptQa⟩

theorem Ready.sound {stages : Stages} (ready : Ready P source made w)
    (recorded : (w.revisions source).stages = some stages) (same : stages.editorial = some made)
    (scenes : ∀ recording ∈ stages.recording,
      kept P (some recording.sha256) ((w.revisions source).scenes.map .scenes) = true)
    (storyboardQa : ∀ recording ∈ stages.recording,
      kept P (some recording.qaSha256) ((w.revisions source).storyboardQa.map .report) = true)
    (backed : ∀ recording ∈ stages.recording, Backed P source recording) : Sound P source w where
  document := ready.document
  revision := by
    refine ⟨ready.copy, ?_, ?_, ?_, ?_⟩
    · rintro _ there
      rw [recorded] at there
      cases there
      exact ⟨made, same, ready.filed⟩
    · rw [recorded]
      exact scenes
    · rw [recorded]
      exact storyboardQa
    · rw [recorded]
      exact backed

end Ready

/-! ## Where a call stops -/

section Stays
variable {pid : ℕ} {w : World} {α β : Type} {K : World → Option Act → Prop}

variable {action : Act}

variable {response : action.Res}

theorem served_of_exec {w₁ : World} (executed :
    machine.exec () pid w action = some (w₁, response)) : (serve w action).1 = w₁ ∧ (serve w action).2 = response := by
  rw [Option.some.inj executed]
  exact ⟨rfl, rfl⟩

theorem stays_perform {next : action.Res → Program β} (here : K w (some action)) (rest : (next (serve w action).2).Stays
    (M := machine) () pid K (serve w action).1) : ((perform action).bind next).Stays (M := machine) () pid K w :=
  Prog.Stays.act here fun w₁ response executed => by
    obtain ⟨rfl, rfl⟩ := served_of_exec executed
    exact rest

theorem stays_last (here : K w (some action)) (last : K (serve w action).1 none) :
    (perform action).Stays (M := machine) () pid K w :=
  Prog.Stays.act here fun w₁ response executed => by
    obtain ⟨rfl, rfl⟩ := served_of_exec executed
    exact .pure last

variable {w' : World}

theorem ends_perform :
    (perform action).Ends (M := machine) () pid w (.ok response) w' ↔ serve w action = (w', response) := by
  unfold perform
  rw [ends_request_iff]
  constructor
  · rintro ⟨answer, executed, is⟩
    cases is
    exact Option.some.inj executed
  · exact fun served => ⟨response, congrArg some served, rfl⟩

variable {condition : Prop} {message : String}

theorem ends_check [Decidable condition] {u : Unit} :
    (check condition message).Ends (M := machine) () pid w (.ok u) w' ↔ condition ∧ w = w' := by
  unfold check
  rw [ends_ofExcept_iff, eq_comm, require_eq_ok, eq_comm (a := w')]

theorem passes [Decidable condition] (holds : condition) :
    (check condition message).Ends (M := machine) () pid w (.ok ()) w := ends_check.2 ⟨holds, rfl⟩

theorem ends_ofExcept {result : Result α} {value : α} : (ofExcept result).Ends
    (M := machine) () pid w (.ok value) w' ↔ result = .ok value ∧ w = w' := by
  rw [ends_ofExcept_iff, eq_comm, eq_comm (a := w')]

end Stays

/-! ### The source and the script -/

section Script
variable {w w' : World} {source : Bytes} {pid : ℕ}

structure Untouched (before after : Revision) : Prop where
  timeline : after.timeline = before.timeline
  audio : after.audio = before.audio
  scenes : after.scenes = before.scenes
  storyboardQa : after.storyboardQa = before.storyboardQa
  source : ∀ bytes ∈ before.source, bytes ∈ after.source

theorem Untouched.refl (revision : Revision) : Untouched revision revision :=
  ⟨rfl, rfl, rfl, rfl, fun _ => id⟩

theorem Untouched.trans {first second third : Revision} (early : Untouched first second)
    (late : Untouched second third) : Untouched first third :=
  ⟨late.timeline.trans early.timeline, late.audio.trans early.audio, late.scenes.trans early.scenes,
    late.storyboardQa.trans early.storyboardQa, fun bytes there => late.source bytes (early.source bytes there)⟩

structure Unrecorded (P : Platform) (source : Bytes) (before : Revision) (w : World) : Prop where
  sound : Sound P source w
  stages : (w.revisions source).stages = none
  untouched : Untouched before (w.revisions source)

inductive Write.Early : Write → Prop
  | research (bytes : Bytes) : Early (.research bytes)
  | narration (bytes : Bytes) : Early (.narration bytes)
  | script (script : Script) : Early (.script script)
  | plan (bytes : Bytes) : Early (.plan bytes)
  | scriptQa (bytes : Bytes) : Early (.scriptQa bytes)

variable {before : Revision}

theorem Unrecorded.write {file : Write} (unrecorded : Unrecorded P source before w) (early : file.Early) :
    Unrecorded P source before (w.write source file) := by
  have copy := unrecorded.sound.revision.copy
  have none := unrecorded.stages
  refine ⟨unrecorded.sound.write (.of_unrecorded ?_ ?_), ?_, unrecorded.untouched.trans ?_⟩
  · cases early <;> exact copy
  · cases early <;> exact none
  · rw [write_revisions_self]
    cases early <;> exact none
  · rw [write_revisions_self]
    cases early <;> exact ⟨rfl, rfl, rfl, rfl, fun _ => id⟩

theorem only_makeScript : (makeScript P source).Only
    fun action => ∃ file : Write, action = Act.write source file ∧ file.Early := by
  have write {file : Write} (early : file.Early) : (perform (.write source file)).Only
      fun action => ∃ file : Write, action = Act.write source file ∧ file.Early :=
    ⟨⟨file, rfl, early⟩, fun _ => .ofExcept _⟩
  refine (write (.research _)).bind fun _ => .ofExcept_bind fun made _ => ?_
  refine (write (.narration _)).bind fun _ => (write (.script _)).bind fun _ => .ofExcept_bind fun plan _ => ?_
  exact (write (.plan _)).bind fun _ => (write (.scriptQa _)).bind fun _ => .ofExcept_bind fun _ _ => trivial

theorem makeScript_stays (unrecorded : Unrecorded P source before w) :
    (makeScript P source).Stays (M := machine) () pid (fun w' _ => Unrecorded P source before w') w := by
  refine Prog.Only.stays (M := machine) (P := Unrecorded P source before) ?_ only_makeScript unrecorded
  rintro w w₁ _ response ⟨file, rfl, early⟩ executed before
  cases executed
  exact before.write early

theorem makeScript_filed {made : EditorialStages} (ends :
    (makeScript P source).Ends (M := machine) () pid w (.ok made) w') : Filed P source (w'.revisions source) made := by
  obtain ⟨_, _, research, ends⟩ := ends_bind_iff.mp ends
  cases ends_perform.1 research
  obtain ⟨⟨narration, script⟩, _, agent, ends⟩ := ends_bind_iff.mp ends
  obtain ⟨scripted, rfl⟩ := ends_ofExcept.1 agent
  obtain ⟨_, _, writes, ends⟩ := ends_bind_iff.mp ends
  cases ends_perform.1 writes
  obtain ⟨_, _, writes, ends⟩ := ends_bind_iff.mp ends
  cases ends_perform.1 writes
  obtain ⟨plan, _, agent, ends⟩ := ends_bind_iff.mp ends
  obtain ⟨planned, rfl⟩ := ends_ofExcept.1 agent
  obtain ⟨_, _, writes, ends⟩ := ends_bind_iff.mp ends
  cases ends_perform.1 writes
  obtain ⟨_, _, writes, ends⟩ := ends_bind_iff.mp ends
  cases ends_perform.1 writes
  obtain ⟨_, _, checked, ends⟩ := ends_bind_iff.mp ends
  obtain ⟨approved, rfl⟩ := ends_check.1 checked
  obtain ⟨is, rfl⟩ := ends_pure_iff.mp ends
  cases is
  simp only [write_revisions_self]
  exact ⟨⟨narration, script, plan, scripted, planned, rfl, rfl, rfl⟩, approved, rfl, rfl⟩

end Script

/-! ### The storyboard -/

section Overwritten
variable {w : World} {source : Bytes}

theorem Sound.write_scenes {scenes : List Scene} (sound : Sound P source w)
    (same : ∀ recording ∈ (w.revisions source).stages.bind Stages.recording,
      P.sha256 (.scenes scenes) = recording.sha256) : Sound P source (w.write source (.scenes scenes)) := by
  have old := sound.revision
  exact sound.write ⟨old.copy, fun stages there =>
      let ⟨made, editorial, filed⟩ := old.editorial stages there
      ⟨made, editorial, filed.made, filed.approved, filed.research, filed.scriptQa⟩,
    fun recording there => kept_some.2 (same recording there), old.storyboardQa, old.backed⟩

theorem Sound.write_report {report : ReportDocument} (sound : Sound P source w)
    (same : ∀ recording ∈ (w.revisions source).stages.bind Stages.recording,
      P.sha256 (.report report) = recording.qaSha256) : Sound P source (w.write source (.storyboardQa report)) := by
  have old := sound.revision
  exact sound.write ⟨old.copy, fun stages there =>
      let ⟨made, editorial, filed⟩ := old.editorial stages there
      ⟨made, editorial, filed.made, filed.approved, filed.research, filed.scriptQa⟩,
    old.scenes, fun recording there => kept_some.2 (same recording there), old.backed⟩

inductive Write.Unchecked : Write → Prop
  | timeline (bytes : Bytes) : Unchecked (.timeline bytes)
  | audio (name : String) (bytes : Bytes) : Unchecked (.audio name bytes)
  | compilationInput (input : CompilationInput) : Unchecked (.compilationInput input)

theorem Sound.write_unchecked {file : Write} (sound : Sound P source w) (unchecked : file.Unchecked) :
    Sound P source (w.write source file) := by
  have old := sound.revision
  refine sound.write ⟨?_, fun stages there => ?_, ?_, ?_, ?_⟩
  · cases unchecked <;> exact old.copy
  · have recorded : stages ∈ (w.revisions source).stages := by
      cases unchecked <;> exact there
    obtain ⟨made, editorial, filed⟩ := old.editorial stages recorded
    refine ⟨made, editorial, ?_⟩
    cases unchecked <;> exact ⟨filed.made, filed.approved, filed.research, filed.scriptQa⟩
  · cases unchecked <;> exact old.scenes
  · cases unchecked <;> exact old.storyboardQa
  · cases unchecked <;> exact old.backed

end Overwritten

def World.storyboard (w : World) (P : Platform) (source : Bytes) (prepared : Prepared) (report : ReportDocument) : World :=
  (((w.write source (.scenes (prepared.scenes P))).write source (.storyboardQa report)).write source
    (.timeline prepared.timelineRaw)).write source (.audio prepared.audio.name prepared.audio.bytes)

variable {attempts : ℕ}

variable {w' : World} {pid : ℕ} {prepared : Prepared}

theorem ends_makeStoryboard {recording : Recording} : (makeStoryboard P source prepared attempts).Ends (M := machine)
    () pid w (.ok recording) w' ↔ ∃ report, prepared.Stored P report ∧
    recording = prepared.recording P report attempts ∧ w' = w.storyboard P source prepared report := by
  constructor
  · intro ends
    obtain ⟨_, _, checked, ends⟩ := ends_bind_iff.mp ends
    obtain ⟨timed, rfl⟩ := ends_check.1 checked
    obtain ⟨_, _, writes, ends⟩ := ends_bind_iff.mp ends
    cases ends_perform.1 writes
    obtain ⟨report, _, agent, ends⟩ := ends_bind_iff.mp ends
    obtain ⟨reported, rfl⟩ := ends_ofExcept.1 agent
    obtain ⟨_, _, writes, ends⟩ := ends_bind_iff.mp ends
    cases ends_perform.1 writes
    obtain ⟨_, _, writes, ends⟩ := ends_bind_iff.mp ends
    cases ends_perform.1 writes
    obtain ⟨_, _, writes, ends⟩ := ends_bind_iff.mp ends
    cases ends_perform.1 writes
    obtain ⟨is, rfl⟩ := ends_pure_iff.mp ends
    exact ⟨report, ⟨timed, reported⟩, Except.ok.inj is, rfl⟩
  · rintro ⟨report, ⟨timed, reported⟩, rfl, rfl⟩
    have write {w : World} {file : Write} :
        (perform (.write source file)).Ends (M := machine) () pid w (.ok ()) (w.write source file) :=
      ends_perform.2 rfl
    refine (passes timed).bind (write.bind ?_)
    refine (ends_ofExcept.2 ⟨reported, rfl⟩).bind (write.bind (write.bind (write.bind ?_)))
    exact .pure _

inductive Staged (P : Platform) (call : Call) (stages : Stages) (w : World) : Stages → Status → World → Prop
  | verified (timed : call.timeline = none) (silent : call.audio = none)
      (verified : verifiedCompletedStoryboard P (w.revisions call.source) stages = true) :
      Staged P call stages w stages .validated w
  | required (timed : call.timeline = none) (silent : call.audio = none)
      (unverified : verifiedCompletedStoryboard P (w.revisions call.source) stages = false) :
      Staged P call stages w { stages with storyboard := stages.storyboard.or (some .ttsRequired) } .ttsRequired w
  | recorded {timelineRaw : Bytes} {prepared : Prepared} (timed : call.timeline = some timelineRaw)
      (is : prepare P call timelineRaw (w.revisions call.source) stages = .ok prepared)
      (same : stages.recording.map inputSha256 = some (P.digestInput prepared.input)) :
      Staged P call stages w stages .validated w
  | made {timelineRaw : Bytes} {prepared : Prepared} {report : ReportDocument} (timed : call.timeline = some timelineRaw)
      (is : prepare P call timelineRaw (w.revisions call.source) stages = .ok prepared)
      (differs : stages.recording.map inputSha256 ≠ some (P.digestInput prepared.input))
      (stored : prepared.Stored P report) :
      Staged P call stages w { stages with storyboard := some (.pass (prepared.recording P report stages.attempts)) }
        .validated (w.storyboard P call.source prepared report)

variable {call : Call} {stages stages' : Stages}

theorem ends_storyboardStage {status : Status} : (storyboardStage P call stages).Ends (M := machine)
    () pid w (.ok (stages', status)) w' ↔ Staged P call stages w stages' status w' := by
  have look : (perform (.revision call.source)).Ends (M := machine) () pid w (.ok (w.revisions call.source)) w :=
    ends_perform.2 rfl
  constructor
  · intro ends
    obtain ⟨_, _, looked, ends⟩ := ends_bind_iff.mp ends
    cases ends_perform.1 looked
    cases timed : call.timeline with
    | none =>
      rw [timed] at ends
      obtain ⟨_, _, checked, ends⟩ := ends_bind_iff.mp ends
      obtain ⟨silent, rfl⟩ := ends_check.1 checked
      split_ifs at ends with verified
      · obtain ⟨is, rfl⟩ := ends_pure_iff.mp ends
        cases is
        exact .verified timed silent verified
      · obtain ⟨is, rfl⟩ := ends_pure_iff.mp ends
        cases is
        exact .required timed silent (Bool.eq_false_iff.mpr verified)
    | some timelineRaw =>
      rw [timed] at ends
      obtain ⟨prepared, _, checked, ends⟩ := ends_bind_iff.mp ends
      obtain ⟨is, rfl⟩ := ends_ofExcept.1 checked
      split_ifs at ends with same
      · obtain ⟨returned, rfl⟩ := ends_pure_iff.mp ends
        cases returned
        exact .recorded timed is same
      · obtain ⟨recording, _, made, ends⟩ := ends_bind_iff.mp ends
        obtain ⟨report, stored, rfl, rfl⟩ := ends_makeStoryboard.1 made
        obtain ⟨returned, rfl⟩ := ends_pure_iff.mp ends
        cases returned
        exact .made timed is same stored
  · intro staged
    refine look.bind ?_
    cases staged with
    | verified timed silent verified =>
      rw [timed]
      refine (passes silent).bind ?_
      rw [if_pos verified]
      exact .pure _
    | required timed silent unverified =>
      rw [timed]
      refine (passes silent).bind ?_
      rw [if_neg (Bool.eq_false_iff.mp unverified)]
      exact .pure _
    | recorded timed is same =>
      rw [timed]
      refine (ends_ofExcept.2 ⟨is, rfl⟩).bind ?_
      rw [if_pos same]
      exact .pure _
    | made timed is differs stored =>
      rw [timed]
      refine (ends_ofExcept.2 ⟨is, rfl⟩).bind ?_
      rw [if_neg differs]
      exact (ends_makeStoryboard.2 ⟨_, stored, rfl, rfl⟩).bind (.pure _)

structure Begun (P : Platform) (w : World) (call : Call) (stages : Stages) (w' : World) : Prop where
  sound : Sound P call.source w'
  editorial : ∃ made, stages.editorial = some made ∧ Filed P call.source (w'.revisions call.source) made
  origin : (w'.revisions call.source).stages = none ∧ (w.revisions call.source).stages = none ∧
      stages.storyboard = none ∨
    (w'.revisions call.source).stages = some stages ∧ (w.revisions call.source).stages = some stages ∧
      (w'.revisions call.source).script = (w.revisions call.source).script ∧
        (w'.revisions call.source).scriptQa = (w.revisions call.source).scriptQa
  untouched : Untouched (w.revisions call.source) (w'.revisions call.source)
  source : (w'.revisions call.source).source = some call.source

variable {timelineRaw : Bytes}

theorem prepare_congr {revision' : Revision} (script : revision.script =
    revision'.script) (scriptQa : revision.scriptQa = revision'.scriptQa) (editorial : stages.editorial =
    stages'.editorial) : prepare P call timelineRaw revision stages = prepare P call timelineRaw revision' stages' := by
  unfold prepare
  rw [script, scriptQa, editorial]

variable {made : EditorialStages}

theorem checked_of_prepare (filed : Filed P call.source revision made)
    (is : prepare P call timelineRaw revision stages = .ok prepared) :
    Checked P call.source prepared ∧ prepared.timelineRaw = timelineRaw ∧ call.audio = some prepared.audio := by
  obtain ⟨narration, script, plan, scripted, -, isScript, -⟩ := filed.made
  simp only [prepare, filed.scriptQa, isScript, Option.elim_some, bind_eq_ok, require_eq_ok, pure_eq_ok,
    Except.ok.injEq, exists_eq_left', exists_const] at is
  obtain ⟨-, -, -, -, -, audio, isAudio, -, -, timeline, isTimeline, -, -, -, -, -, -, -, -, -, -, rfl⟩ := is
  have given : call.audio = some audio := by
    cases supplied : call.audio with
    | none =>
      rw [supplied] at isAudio
      cases isAudio
    | some audio' =>
      rw [supplied] at isAudio
      cases isAudio
      rfl
  exact ⟨⟨isTimeline, narration, script, scripted, rfl, rfl⟩, rfl, given⟩

theorem Begun.checked (begun : Begun P w call stages w') (is :
    prepare P call timelineRaw (w'.revisions call.source) stages = .ok prepared) : Checked P call.source prepared :=
  let ⟨_, _, filed⟩ := begun.editorial
  (checked_of_prepare filed is).1

theorem Begun.ready (begun : Begun
    P w call stages w') (filed : Filed P call.source (w'.revisions call.source) made) : Ready P call.source made w' :=
  ⟨begun.sound.document, begun.sound.revision.copy, filed⟩

def Spared (P : Platform) (w : World) (call : Call) (w' : World) (prepared : Prepared) : Prop :=
  ∀ pending, Careful P w call pending → ∀ recording ∈ (w'.revisions call.source).stages.bind Stages.recording,
    ((∃ action ∈ pending, action.AfterScenes) ∨ pending = none ∧ (∃ error, prepared.report P = .error error) →
      P.sha256 (.scenes (prepared.scenes P)) = recording.sha256) ∧
    ((∃ action ∈ pending, action.AfterReport) → ∀ report, prepared.report P = .ok report →
      P.sha256 (.report report) = recording.qaSha256)

theorem Sound.of_prepare (sound : Sound P call.source w) (recorded : (w.revisions call.source).stages = some stages)
    (sourced : P.source call.mode call.source = .ok ()) (is : prepare P call timelineRaw (w.revisions call.source)
    stages = .ok prepared) : accepted P w call timelineRaw = .ok prepared := by
  have verifies := sound.revision.verifies
  unfold accepted
  simp only [recorded, Option.getD_some] at verifies ⊢
  simp only [sound.document, sourced, verifies, is, bind_eq_ok, exists_const, true_and]

theorem Begun.spared (begun : Begun P w call stages w') (sound : Sound P call.source w) (sourced :
    P.source call.mode call.source = .ok ()) (timed : call.timeline = some timelineRaw) (is : prepare P call timelineRaw
    (w'.revisions call.source) stages = .ok prepared) (differs : stages.recording.map inputSha256 ≠ some
    (P.digestInput prepared.input)) (timestamps : prepared.timeline.timestamps ≠ []) : Spared P w call w' prepared := by
  intro pending careful recording there
  rcases begun.origin with ⟨none, -⟩ | ⟨now, before, script, scriptQa⟩
  · rw [none] at there
    cases there
  · rw [now] at there
    have own : stages.recording = some recording := there
    refine careful recording (by rw [before]; exact own) timelineRaw timed prepared ?_ ?_ timestamps
    · rw [prepare_congr script scriptQa rfl] at is
      exact sound.of_prepare before sourced is
    · intro same
      exact differs (by rw [own, Option.map_some, same])

/-! ### A whole call -/

def Kept (P : Platform) (w : World) (call : Call) (w' : World) (pending : Option Act) : Prop :=
  Careful P w call pending → Sound P call.source w'

section Call
variable {w w' : World} {call : Call} {stages : Stages} {pid : ℕ} {status : Status}

theorem Sound.kept (sound : Sound P call.source w') {pending : Option Act} : Kept P w call w' pending := fun _ => sound

theorem record_stays (before : Kept P w call w' (some (.write call.source (.stages stages))))
    (sound : Sound P call.source (w'.write call.source (.stages stages))) :
    (record P call stages status).Stays (M := machine) () pid (Kept P w call) w' := by
  have last {w' : World} (sound : Sound P call.source w') : ((perform (.writeRequest (requestDocument P call status))).bind
      fun _ => Prog.pure status).Stays (M := machine) () pid (Kept P w call) w' := by
    have written : Sound P call.source { w' with document := requestDocument P call status } :=
      ⟨validate_requestDocument call status, sound.revision⟩
    exact stays_perform sound.kept (.pure written.kept)
  refine stays_perform before ?_
  split_ifs
  · cases stages.recording with
    | none => exact .raise sound.kept
    | some recording => exact stays_perform sound.kept (last (sound.write_unchecked (.compilationInput _)))
  · exact last sound

theorem recording_or (stages : Stages) :
    ({ stages with storyboard := stages.storyboard.or (some .ttsRequired) } : Stages).recording = stages.recording := by
  obtain ⟨editorial, _ | storyboard⟩ := stages <;> rfl

structure Finished (P : Platform) (call : Call) (stages : Stages) (w' : World) : Prop where
  ready : ∃ made, stages.editorial = some made ∧ Ready P call.source made w'
  scenes : ∀ recording ∈ stages.recording,
    kept P (some recording.sha256) ((w'.revisions call.source).scenes.map .scenes) = true
  storyboardQa : ∀ recording ∈ stages.recording,
    kept P (some recording.qaSha256) ((w'.revisions call.source).storyboardQa.map .report) = true
  backed : ∀ recording ∈ stages.recording, Backed P call.source recording

theorem Finished.sound (finished : Finished P call stages w') :
    Sound P call.source (w'.write call.source (.stages stages)) := by
  obtain ⟨made, same, ready⟩ := finished.ready
  refine (ready.write (.stages stages)).sound ?_ same ?_ ?_ finished.backed
  · rw [write_revisions_self]
    rfl
  · rw [write_revisions_self]
    exact finished.scenes
  · rw [write_revisions_self]
    exact finished.storyboardQa

theorem Begun.finished {stages' : Stages} (begun : Begun P w call stages w') (editorial : stages'.editorial =
    stages.editorial) (recording : stages'.recording = stages.recording) : Finished P call stages' w' := by
  obtain ⟨made, same, filed⟩ := begun.editorial
  have own := begun.sound.revision
  have origin : ∀ recorded ∈ stages'.recording, recorded ∈ (w'.revisions call.source).stages.bind Stages.recording := by
    rw [recording]
    rcases begun.origin with ⟨-, -, none⟩ | ⟨now, -⟩
    · simp [Stages.recording, none]
    · rw [now]
      exact fun recorded there => there
  exact ⟨⟨made, editorial.trans same, begun.ready filed⟩, fun recorded there => own.scenes _ (origin _ there),
    fun recorded there => own.storyboardQa _ (origin _ there), fun recorded there => own.backed _ (origin _ there)⟩

section Spared
variable {prepared : Prepared} {report : ReportDocument} {pending : Option Act}

theorem Spared.scenes (spared : Spared P w call w' prepared) (sound : Sound P call.source w')
    (here : (∃ action ∈ pending, action.AfterScenes) ∨ pending = none ∧ ∃ error, prepared.report P = .error error) :
    Kept P w call (w'.write call.source (.scenes (prepared.scenes P))) pending :=
  fun careful => sound.write_scenes fun recording there => (spared pending careful recording there).1 here

theorem Spared.storyboardQa (spared : Spared P w call w' prepared) (sound : Sound P call.source w')
    (reported : prepared.report P = .ok report) {action : Act} (after : action.AfterReport) : Kept P w call
    ((w'.write call.source (.scenes (prepared.scenes P))).write call.source (.storyboardQa report)) (some action) := by
  intro careful
  have scenes : action.AfterScenes := by
    cases after
    · exact .timeline _ _
    · exact .audio _ _ _
    · exact .stages _ _
  refine Sound.write_report (spared.scenes sound (.inl ⟨action, rfl, scenes⟩) careful) fun recording there => ?_
  rw [write_revisions_self] at there
  exact (spared (some action) careful recording there).2 ⟨action, rfl, after⟩ report reported

theorem Spared.stays {β : Type} {next : Recording → Program β} (sound : Sound P call.source w')
    (spared : prepared.timeline.timestamps ≠ [] → Spared P w call w' prepared) (rest : ∀ report, prepared.report P =
    .ok report → prepared.timeline.timestamps ≠ [] → (next (prepared.recording P report attempts)).Stays (M := machine)
    () pid (Kept P w call) (w'.storyboard P call.source prepared report)) :
    ((makeStoryboard P call.source prepared attempts).bind next).Stays (M := machine) () pid (Kept P w call) w' := by
  unfold makeStoryboard check
  simp only [bind_eq, bind_assoc]
  refine .check sound.kept fun _ timed => ?_
  have timed := require_eq_ok.mp timed
  have spared := spared timed
  refine stays_perform sound.kept ?_
  cases reported : prepared.report P with
  | error error => exact .raise (spared.scenes sound (.inr ⟨rfl, error, reported⟩))
  | ok report =>
    have both {action : Act} (after : action.AfterReport) := spared.storyboardQa sound reported after
    change ((perform (.write call.source (.storyboardQa report))).bind _).Stays (M := machine) () pid _ _
    refine stays_perform (spared.scenes sound (.inl ⟨_, rfl, .storyboardQa _ _⟩)) ?_
    refine stays_perform (both (.timeline _ _)) (stays_perform ?_ (rest report reported timed))
    exact fun careful => (both (.audio _ _ _) careful).write_unchecked (.timeline _)

theorem Spared.kept (spared : Spared P w call w' prepared) (sound : Sound P call.source w')
    (reported : prepared.report P = .ok report) {stages : Stages} :
    Kept P w call (w'.storyboard P call.source prepared report) (some (.write call.source (.stages stages))) :=
  fun careful => ((spared.storyboardQa sound reported (.stages _ _) careful).write_unchecked
    (.timeline _)).write_unchecked (.audio _ _)

theorem Begun.storyboard (begun : Begun P w call stages w') (checked : Checked P call.source prepared)
    (stored : prepared.Stored P report) :
    Finished P call { stages with storyboard := some (.pass (prepared.recording P report attempts)) }
      (w'.storyboard P call.source prepared report) where
  ready := by
    obtain ⟨made, same, filed⟩ := begun.editorial
    have ready := begun.ready filed
    refine ⟨made, same, (((ready.write ?_).write ?_).write ?_).write ?_⟩
    · exact .scenes _
    · exact .storyboardQa _
    · exact .timeline _
    · exact .audio _ _
  scenes := by
    rintro _ ⟨⟩
    simp only [World.storyboard, write_revisions_self]
    exact kept_some.2 rfl
  storyboardQa := by
    rintro _ ⟨⟩
    simp only [World.storyboard, write_revisions_self]
    exact kept_some.2 rfl
  backed := by
    rintro _ ⟨⟩
    exact ⟨prepared, report, attempts, checked, stored, rfl⟩

end Spared

theorem Begun.stays (begun : Begun P w call stages w') (sound : Sound P call.source w)
    (sourced : P.source call.mode call.source = .ok ()) : ((storyboardStage P call stages).bind
    fun made => record P call made.1 made.2).Stays (M := machine) () pid (Kept P w call) w' := by
  unfold storyboardStage
  simp only [bind_eq, bind_assoc]
  refine stays_perform begun.sound.kept ?_
  cases timed : call.timeline with
  | none =>
    simp only [check, bind_assoc]
    refine .check begun.sound.kept fun _ _ => ?_
    split_ifs
    · exact record_stays begun.sound.kept (begun.finished rfl rfl).sound
    · have finished : Finished P call { stages with storyboard := stages.storyboard.or (some .ttsRequired) } w' :=
        begun.finished rfl (recording_or stages)
      exact record_stays begun.sound.kept finished.sound
  | some timelineRaw =>
    simp only [bind_assoc]
    refine .check begun.sound.kept fun prepared is => ?_
    split_ifs with same
    · exact record_stays begun.sound.kept (begun.finished rfl rfl).sound
    · have spared := begun.spared sound sourced timed is same
      simp only [bind_assoc]
      refine Spared.stays begun.sound spared fun report reported timestamps => ?_
      exact record_stays ((spared timestamps).kept begun.sound reported)
        (begun.storyboard (begun.checked is) ⟨timestamps, reported⟩).sound

structure Copied (P : Platform) (w : World) (source : Bytes) (w' : World) : Prop where
  sound : Sound P source w'
  stages : (w'.revisions source).stages = (w.revisions source).stages
  script : (w'.revisions source).script = (w.revisions source).script
  scriptQa : (w'.revisions source).scriptQa = (w.revisions source).scriptQa
  untouched : Untouched (w.revisions source) (w'.revisions source)
  source : (w'.revisions source).source = some source

variable {source : Bytes}

theorem Sound.copied (sound : Sound P source w) (missing : (w.revisions source).source.isNone = true) :
    Copied P w source (w.write source (.source source)) := by
  have old := sound.revision
  refine ⟨sound.write ⟨?_, fun stages there => ?_, old.scenes, old.storyboardQa, old.backed⟩, ?_, ?_, ?_, ?_, ?_⟩
  · rintro _ ⟨⟩
    rfl
  · obtain ⟨made, editorial, filed⟩ := old.editorial stages there
    exact ⟨made, editorial, filed.made, filed.approved, filed.research, filed.scriptQa⟩
  rotate_left 3
  · rw [write_revisions_self]
    refine ⟨rfl, rfl, rfl, rfl, fun bytes there => ?_⟩
    rw [Option.isNone_iff_eq_none.mp missing] at there
    cases there
  all_goals rw [write_revisions_self]; rfl

theorem Sound.copied_of_ends {u : Unit} (sound : Sound P call.source w) (ends : (copySource
    call.source (w.revisions call.source)).Ends (M := machine) () pid w (.ok u) w') : Copied P w call.source w' := by
  unfold copySource at ends
  split_ifs at ends with missing
  · cases ends_perform.1 ends
    exact sound.copied missing
  · obtain ⟨-, rfl⟩ := ends_pure_iff.mp ends
    obtain ⟨bytes, there⟩ := Option.ne_none_iff_exists'.mp fun none => missing (Option.isNone_iff_eq_none.mpr none)
    refine ⟨sound, rfl, rfl, rfl, .refl _, ?_⟩
    rw [there, sound.revision.copy bytes there]

theorem copySource_stays (sound : Sound P call.source w) : (copySource call.source (w.revisions call.source)).Stays
    (M := machine) () pid (fun w' _ => Sound P call.source w') w := by
  unfold copySource
  split_ifs with missing
  · exact stays_last sound (sound.copied missing).sound
  · exact .pure sound

theorem Sound.unrecorded (sound : Sound P source w)
    (missing : ((w.revisions source).stages.getD {}).editorial = none) : (w.revisions source).stages = none := by
  cases recorded : (w.revisions source).stages with
  | none => rfl
  | some stages =>
    obtain ⟨made, editorial, -⟩ := sound.revision.editorial stages recorded
    rw [recorded, Option.getD_some, Option.mem_def.mp editorial] at missing
    cases missing

section
variable (copied : Copied P w call.source w')
include copied

theorem Copied.unrecorded (missing : ((w.revisions call.source).stages.getD
    {}).editorial = none) : Unrecorded P call.source (w'.revisions call.source) w' := by
  rw [← copied.stages] at missing
  exact ⟨copied.sound, copied.sound.unrecorded missing, .refl _⟩

theorem scriptStages_stays : (scriptStages P call.source ((w.revisions
    call.source).stages.getD {})).Stays (M := machine) () pid (fun w'' _ => Sound P call.source w'') w' := by
  unfold scriptStages
  cases editorial : ((w.revisions call.source).stages.getD {}).editorial with
  | none =>
    have made : (makeScript P call.source).Stays (M := machine) () pid
        (fun w'' _ => Unrecorded P call.source (w'.revisions call.source) w'') w' :=
      makeScript_stays (copied.unrecorded editorial)
    refine .bind (made.mono fun _ _ after => after.sound) fun _ w'' ends => .pure ?_
    exact (made _ _ ends.stops).sound
  | some made => exact .pure copied.sound

theorem Copied.begun {w'' : World} (ends : (scriptStages P call.source ((w.revisions call.source).stages.getD {})).Ends
    (M := machine) () pid w' (.ok stages) w'') : Begun P w call stages w'' := by
  unfold scriptStages at ends
  cases editorial : ((w.revisions call.source).stages.getD {}).editorial with
  | none =>
    rw [editorial] at ends
    obtain ⟨made, w₁, script, ends⟩ := ends_bind_iff.mp ends
    obtain ⟨is, rfl⟩ := ends_pure_iff.mp ends
    cases is
    have before := copied.unrecorded editorial
    have after := makeScript_stays before _ _ script.stops
    refine ⟨after.sound, ⟨made, rfl, makeScript_filed script⟩, .inl ⟨after.stages, ?_, ?_⟩,
      copied.untouched.trans after.untouched, after.untouched.source _ copied.source⟩
    · exact copied.stages.symm.trans before.stages
    · rw [← copied.stages, before.stages]
      rfl
  | some made =>
    rw [editorial] at ends
    obtain ⟨is, rfl⟩ := ends_pure_iff.mp ends
    cases is
    cases recorded : (w.revisions call.source).stages with
    | none => simp [recorded] at editorial
    | some stages =>
      have now := copied.stages.trans recorded
      obtain ⟨made', there, filed⟩ := copied.sound.revision.editorial stages now
      exact ⟨copied.sound, ⟨made', there, filed⟩, .inr ⟨now, recorded, copied.script, copied.scriptQa⟩,
        copied.untouched, copied.source⟩

end

theorem advance_stays (sound : Sound P call.source w) :
    (advance P call).Stays (M := machine) () pid (Kept P w call) w := by
  unfold advance
  refine stays_perform sound.kept (.check sound.kept fun _ _ => .check sound.kept fun _ sourced => ?_)
  refine stays_perform sound.kept (.check sound.kept fun _ _ => ?_)
  refine .bind ((copySource_stays sound).mono fun _ _ after => after.kept) fun _ w₁ ends => ?_
  have copied := sound.copied_of_ends ends
  refine .bind ((scriptStages_stays copied).mono fun _ _ after => after.kept) fun stages w₂ ends => ?_
  exact (copied.begun ends).stays sound sourced

end Call

inductive Act.Own (source : Bytes) : Act → Prop
  | request : Own source .request
  | revision : Own source (.revision source)
  | write (file : Write) : Own source (.write source file)
  | writeRequest (document : Document) : Own source (.writeRequest document)

section Own
variable {call : Call} {w w' : World} {pid : ℕ} {pending : Option Act} {other : Bytes}

theorem only_own {action : Act} (own : action.Own call.source) : (perform action).Only (Act.Own call.source) :=
  ⟨own, fun _ => .ofExcept _⟩

variable {stages : Stages}

theorem only_storyboardStage : (storyboardStage P call stages).Only (Act.Own call.source) := by
  unfold storyboardStage
  refine (only_own (.revision)).bind fun revision => ?_
  cases call.timeline with
  | none =>
    refine .ofExcept_bind fun _ _ => ?_
    split_ifs <;> trivial
  | some timelineRaw =>
    refine .ofExcept_bind fun prepared _ => ?_
    split_ifs
    · trivial
    · refine .bind ?_ fun _ => trivial
      refine .ofExcept_bind fun _ _ => (only_own (.write _)).bind fun _ => .ofExcept_bind fun report _ => ?_
      refine (only_own (.write _)).bind fun _ => (only_own (.write _)).bind fun _ => ?_
      exact (only_own (.write _)).bind fun _ => trivial

theorem only_record {status : Status} : (record P call stages status).Only (Act.Own call.source) := by
  have request : ((perform (.writeRequest (requestDocument P call status))).bind fun _ => Prog.pure status).Only
      (Act.Own call.source) := (only_own (.writeRequest _)).bind fun _ => trivial
  refine (only_own (.write _)).bind fun _ => ?_
  split_ifs
  · cases stages.recording with
    | none => trivial
    | some recording => exact (only_own (.write _)).bind fun _ => request
  · exact request

theorem only_advance : (advance P call).Only (Act.Own call.source) := by
  refine (only_own .request).bind fun _ => .ofExcept_bind fun _ _ => .ofExcept_bind fun _ _ => ?_
  refine (only_own .revision).bind fun revision => .ofExcept_bind fun _ _ => ?_
  refine .bind ?_ fun _ => .bind ?_ fun _ => only_storyboardStage.bind fun _ => only_record
  · unfold copySource
    split_ifs
    · exact only_own (.write _)
    · trivial
  · unfold scriptStages
    cases (revision.stages.getD {}).editorial with
    | some _ => trivial
    | none =>
      refine .bind (only_makeScript.mono ?_) fun _ => trivial
      rintro _ ⟨file, rfl, -⟩
      exact .write file

theorem Stops.others (stops : (advance P call).Stops (M := machine) () pid w w' pending)
    (differs : other ≠ call.source) : w'.revisions other = w.revisions other := by
  refine Prog.Only.stays (M := machine) (P := fun w' => w'.revisions other = w.revisions other) ?_ only_advance rfl _ _
    stops
  rintro w₁ w₂ _ response own executed same
  obtain ⟨rfl, -⟩ := served_of_exec executed
  cases own with
  | write file => exact (write_revisions_of_ne w₁ file differs).trans same
  | _ => exact same

end Own

theorem Reached.sound (reached : Reached P (Careful P) w) (source : Bytes) : Sound P source w := by
  induction reached generalizing source with
  | start => exact .started
  | @call w w' call pid pending before stops meets ih =>
    have own := advance_stays (ih call.source) _ _ stops meets
    by_cases same : source = call.source
    · subst same
      exact own
    · exact ⟨own.document, by rw [Stops.others stops same]; exact (ih source).revision⟩

end VideoPoster.Preproduction.Advance
