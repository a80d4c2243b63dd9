import VideoPoster.Preproduction.Recovery
import Mathlib.Algebra.Order.Ring.Abs
import Mathlib.Data.Rat.Encodable
import Mathlib.Logic.Equiv.List
import Mathlib.Tactic.DeriveEncodable

/-!
# Every valid call succeeds
-/

namespace VideoPoster.Preproduction.Advance
open Python Interleaving Number Prepared Option List Except Recording World StoryboardInput String

variable {P : Platform}

/-! ## What is needed -/

structure Storyboards (P : Platform) (call : Call) (revision : Revision) (stages : Stages) : Prop where
  silent : call.timeline = none → call.audio = none
  prepared : ∀ timelineRaw ∈ call.timeline, ∃ prepared,
    prepare P call timelineRaw revision stages = .ok prepared ∧ ∃ report, prepared.Stored P report

structure Accepts (P : Platform) (call : Call) : Prop where
  sourced : P.source call.mode call.source = .ok ()
  made : ∃ narration script plan,
    (P.editorial call.source).script = .ok (narration, script) ∧ (P.editorial call.source).plan = .ok plan
  approved : (P.editorial call.source).approved = true
  storyboards : ∀ revision stages made, Filed P call.source revision made → stages.editorial = some made →
    Storyboards P call revision stages

variable {source : Bytes} {revision : Revision} {made : EditorialStages}

variable {revision' : Revision} {made' : EditorialStages}

theorem Filed.unique (filed : Filed P source revision made) (filed' : Filed P source revision' made') :
    revision.script = revision'.script ∧ revision.scriptQa = revision'.scriptQa ∧ made = made' := by
  obtain ⟨narration, script, plan, scripted, planned, isScript, -, rfl⟩ := filed.made
  obtain ⟨narration', script', plan', scripted', planned', isScript', -, rfl⟩ := filed'.made
  cases scripted.symm.trans scripted'
  cases planned.symm.trans planned'
  exact ⟨isScript.trans isScript'.symm, filed.scriptQa.trans filed'.scriptQa.symm, rfl⟩

variable {stages' : Stages}

variable {call : Call}

theorem Storyboards.of_filed {stages : Stages} (storyboards : Storyboards P call revision stages)
    (filed : Filed P call.source revision made) (same : stages.editorial = some made) (filed' : Filed
    P call.source revision' made') (same' : stages'.editorial = some made') : Storyboards P call revision' stages' := by
  obtain ⟨script, scriptQa, rfl⟩ := filed.unique filed'
  refine ⟨storyboards.silent, fun timelineRaw there => ?_⟩
  rw [← prepare_congr script scriptQa (same.trans same'.symm)]
  exact storyboards.prepared timelineRaw there

section Accepted
variable {w w' : World} {call : Call} {stages : Stages} {pid : ℕ}

theorem Backed.eq_recording {recording : Recording} {prepared : Prepared} (free : CollisionFree P)
    (backed : Backed P source recording) (checked : Checked P source prepared)
    (same : recording.inputSha256 = P.digestInput prepared.input) :
    ∃ report attempts, prepared.Stored P report ∧ recording = prepared.recording P report attempts := by
  obtain ⟨earlier, report, attempts, before, stored, rfl⟩ := backed
  have input : earlier.input = prepared.input := free.digestInput same
  obtain ⟨_, script, scripted, segments, is⟩ := before.made
  obtain ⟨_, script', scripted', segments', is'⟩ := checked.made
  cases scripted.symm.trans scripted'
  have raw : earlier.timelineRaw = prepared.timelineRaw := by
    have hashes := input
    rw [is, is'] at hashes
    exact Content.raw.inj (free.sha256 (mk.inj hashes).1)
  have timeline : earlier.timeline = prepared.timeline := by
    have read := before.timeline
    rw [raw, checked.timeline] at read
    exact (ok.inj read).symm
  have scenes : earlier.scenes P = prepared.scenes P := by rw [scenes, scenes, timeline]
  refine ⟨report, attempts, ?_, ?_⟩
  · unfold Prepared.Stored Prepared.report at stored ⊢
    rwa [timeline, segments, ← segments', scenes] at stored
  · rw [recording, recording, input, scenes]

variable {status : Status}

variable {w'' : World}

theorem Begun.storyboards (free : CollisionFree P) (begun : Begun P w call stages w')
    (staged : Staged P call stages w' stages' status w'') : Storyboards P call (w'.revisions call.source) stages := by
  have timeline {timelineRaw : Bytes} {prepared : Prepared} (timed : call.timeline = some timelineRaw)
      (is : prepare P call timelineRaw (w'.revisions call.source) stages = .ok prepared)
      (stored : ∃ report, prepared.Stored P report) : Storyboards P call (w'.revisions call.source) stages := by
    refine ⟨by rw [timed]; nofun, ?_⟩
    rw [timed]
    rintro _ ⟨⟩
    exact ⟨prepared, is, stored⟩
  cases staged with
  | verified timed silent => exact ⟨fun _ => silent, by rw [timed]; nofun⟩
  | required timed silent => exact ⟨fun _ => silent, by rw [timed]; nofun⟩
  | recorded timed is same =>
    obtain ⟨recording, recorded, digest⟩ := map_eq_some_iff.mp same
    have backed : Backed P call.source recording := by
      rcases begun.origin with ⟨-, -, missing⟩ | ⟨now, -⟩
      · simp [Stages.recording, missing] at recorded
      · exact begun.sound.revision.backed recording (by rw [now]; exact recorded)
    obtain ⟨report, _, stored, -⟩ := backed.eq_recording free (begun.checked is) digest
    exact timeline timed is ⟨report, stored⟩
  | made timed is _ stored => exact timeline timed is ⟨_, stored⟩

def World.recorded (w : World) (P : Platform) (call : Call) (stages : Stages) (status : Status) : World :=
  let written := w.write call.source (.stages stages)
  let bound := if status = .validated then
      stages.recording.elim written fun recording =>
        written.write call.source (.compilationInput (compilationInput P call.mode recording))
    else written
  { bound with document := requestDocument P call status }

theorem ends_record {status' : Status} (ends : (record P call stages status).Ends (M := machine)
    () pid w (.ok status') w') : status' = status ∧ w' = w.recorded P call stages status := by
  obtain ⟨_, _, writes, ends⟩ := Prog.ends_bind_iff.mp ends
  cases ends_perform.1 writes
  unfold recorded
  split_ifs at ends ⊢ with validated
  · cases recording : stages.recording with
    | none =>
      rw [recording] at ends
      cases (Prog.ends_raise_iff.mp ends).1
    | some recording' =>
      rw [recording] at ends
      obtain ⟨_, _, writes, ends⟩ := Prog.ends_bind_iff.mp ends
      cases ends_perform.1 writes
      obtain ⟨_, _, writes, ends⟩ := Prog.ends_bind_iff.mp ends
      cases ends_perform.1 writes
      obtain ⟨is, rfl⟩ := Prog.ends_pure_iff.mp ends
      exact ⟨ok.inj is, rfl⟩
  · obtain ⟨_, _, writes, ends⟩ := Prog.ends_bind_iff.mp ends
    cases ends_perform.1 writes
    obtain ⟨is, rfl⟩ := Prog.ends_pure_iff.mp ends
    exact ⟨ok.inj is, rfl⟩

theorem recorded_stages : ((w.recorded P call stages status).revisions call.source).stages = some stages := by
  unfold recorded
  split_ifs
  · cases stages.recording <;> simp [Revision.apply]
  · simp [Revision.apply]

theorem Staged.finished {stages' : Stages} {status : Status} (staged :
    Staged P call stages w' stages' status w'') (begun : Begun P w call stages w') : Finished P call stages' w'' := by
  cases staged with
  | verified => exact begun.finished rfl rfl
  | required => exact begun.finished rfl (recording_or stages)
  | recorded => exact begun.finished rfl rfl
  | made timed is differs stored => exact begun.storyboard (begun.checked is) stored

theorem Sound.recorded (sound : Sound P call.source (w.write call.source (.stages stages))) :
    Sound P call.source (w.recorded P call stages status) := by
  unfold World.recorded
  split_ifs
  · cases stages.recording with
    | none => exact ⟨validate_requestDocument call _, sound.revision⟩
    | some recording =>
      exact ⟨validate_requestDocument call _, (sound.write_unchecked (.compilationInput _)).revision⟩
  · exact ⟨validate_requestDocument call status, sound.revision⟩

structure Advanced (P : Platform) (w : World) (call : Call) (status : Status) (stages : Stages) (w₁ : World)
    (stages' : Stages) (w₂ w' : World) : Prop where
  sourced : P.source call.mode call.source = .ok ()
  begun : Begun P w call stages w₁
  staged : Staged P call stages w₁ stages' status w₂
  recorded : w' = w₂.recorded P call stages' status

theorem Sound.advanced {status : Status} (sound : Sound P call.source w) (ends : (advance P call).Ends (M := machine)
    () pid w (.ok status) w') : ∃ stages w₁ stages' w₂, Advanced P w call status stages w₁ stages' w₂ w' := by
  obtain ⟨_, _, looked, ends⟩ := Prog.ends_bind_iff.mp ends
  cases ends_perform.1 looked
  obtain ⟨_, _, checked, ends⟩ := Prog.ends_bind_iff.mp ends
  obtain ⟨-, rfl⟩ := ends_ofExcept.1 checked
  obtain ⟨_, _, checked, ends⟩ := Prog.ends_bind_iff.mp ends
  obtain ⟨sourced, rfl⟩ := ends_ofExcept.1 checked
  obtain ⟨_, _, looked, ends⟩ := Prog.ends_bind_iff.mp ends
  cases ends_perform.1 looked
  obtain ⟨_, _, checked, ends⟩ := Prog.ends_bind_iff.mp ends
  obtain ⟨-, rfl⟩ := ends_ofExcept.1 checked
  obtain ⟨_, w₁, source, ends⟩ := Prog.ends_bind_iff.mp ends
  obtain ⟨stages, w₂, script, ends⟩ := Prog.ends_bind_iff.mp ends
  obtain ⟨made, w₃, storyboard, ends⟩ := Prog.ends_bind_iff.mp ends
  obtain ⟨rfl, rfl⟩ := ends_record ends
  exact ⟨stages, w₂, made.1, w₃, sourced, (sound.copied_of_ends source).begun script,
    ends_storyboardStage.1 storyboard, rfl⟩

theorem Sound.accepts (free : CollisionFree P) (sound : Sound P call.source w)
    (ends : (advance P call).Ends (M := machine) () pid w (.ok status) w') : Accepts P call := by
  obtain ⟨stages, w₁, stages', w₂, advanced⟩ := sound.advanced ends
  obtain ⟨editorial, same, filed⟩ := advanced.begun.editorial
  obtain ⟨narration, text, plan, scripted, planned, -⟩ := filed.made
  exact ⟨advanced.sourced, ⟨narration, text, plan, scripted, planned⟩, filed.approved, fun _ _ _ filed' same' =>
    (advanced.begun.storyboards free advanced.staged).of_filed filed same filed' same'⟩

theorem Sound.records {status : Status} {timelineRaw : Bytes} (sound : Sound P call.source w)
    (timed : call.timeline = some timelineRaw) (ends : (advance P call).Ends (M := machine) () pid w (.ok status) w') :
    ∃ revision stages made prepared stages' recording, Filed P call.source revision made ∧ stages.editorial =
    some made ∧ prepare P call timelineRaw revision stages = .ok prepared ∧ (w'.revisions call.source).stages =
    some stages' ∧ stages'.recording = some recording ∧ recording.inputSha256 = P.digestInput prepared.input := by
  obtain ⟨stages, w₁, stages', w₂, advanced⟩ := sound.advanced ends
  obtain ⟨made, same, filed⟩ := advanced.begun.editorial
  have now : (w'.revisions call.source).stages = some stages' := by
    rw [advanced.recorded]
    exact recorded_stages
  cases advanced.staged with
  | verified silent => rw [timed] at silent; cases silent
  | required silent => rw [timed] at silent; cases silent
  | recorded timed' is recorded =>
    cases timed.symm.trans timed'
    obtain ⟨recording, there, digest⟩ := map_eq_some_iff.mp recorded
    exact ⟨_, stages, made, _, _, recording, filed, same, is, now, there, digest⟩
  | made timed' is =>
    cases timed.symm.trans timed'
    exact ⟨_, stages, made, _, _, _, filed, same, is, now, rfl, rfl⟩

end Accepted

/-! ## What is there succeeds -/

section Succeeds
variable {w w' : World} {call : Call} {stages : Stages} {pid : ℕ} {α β : Type}

def Returns (pid : ℕ) (program : Program α) (w : World) : Prop :=
  ∃ value w', program.Ends (M := machine) () pid w (.ok value) w'

theorem returns_pure (value : α) : Returns pid (pure value) w := ⟨value, w, .pure value⟩

variable {value : α}

theorem returns_bind {program : Program α} {next : α → Program β} (first : program.Ends (M := machine)
    () pid w (.ok value) w') (rest : Returns pid (next value) w') : Returns pid (program >>= next) w :=
  let ⟨result, w'', ends⟩ := rest
  ⟨result, w'', first.bind ends⟩

theorem ends_write {file : Write} :
    (perform (.write source file)).Ends (M := machine) () pid w (.ok ()) (w.write source file) := ends_perform.2 rfl

theorem ends_revision :
    (perform (.revision source)).Ends (M := machine) () pid w (.ok (w.revisions source)) w := ends_perform.2 rfl

theorem ends_holds {result : Result α} (holds : result = .ok value) :
    (Prog.ofExcept (I := actions) result).Ends (M := machine) () pid w (.ok value) w := ends_ofExcept.2 ⟨holds, rfl⟩

theorem copySource_returns (source : Bytes) (revision : Revision) : Returns pid (copySource source revision) w := by
  unfold copySource
  split_ifs
  · exact ⟨_, _, ends_write⟩
  · exact returns_pure ()

theorem Accepts.makeScript_returns (accepts : Accepts P call) : Returns pid (makeScript P call.source) w := by
  obtain ⟨narration, script, plan, scripted, planned⟩ := accepts.made
  refine returns_bind ends_write (returns_bind (ends_holds scripted) ?_)
  refine returns_bind ends_write (returns_bind ends_write (returns_bind (ends_holds planned) ?_))
  refine returns_bind ends_write (returns_bind ends_write ?_)
  exact returns_bind (passes accepts.approved) (returns_pure _)

theorem Accepts.scriptStages_returns (accepts : Accepts P call) (stages : Stages) :
    Returns pid (scriptStages P call.source stages) w := by
  unfold scriptStages
  cases stages.editorial with
  | some _ => exact returns_pure stages
  | none =>
    obtain ⟨made, w', ends⟩ : Returns pid (makeScript P call.source) w := accepts.makeScript_returns
    exact returns_bind ends (returns_pure _)

theorem Storyboards.staged (storyboards : Storyboards P call (w.revisions call.source) stages) :
    ∃ stages' status w', Staged P call stages w stages' status w' := by
  cases timed : call.timeline with
  | none =>
    cases verified : verifiedCompletedStoryboard P (w.revisions call.source) stages with
    | true => exact ⟨_, _, _, .verified timed (storyboards.silent timed) verified⟩
    | false => exact ⟨_, _, _, .required timed (storyboards.silent timed) verified⟩
  | some timelineRaw =>
    obtain ⟨prepared, is, report, stored⟩ := storyboards.prepared timelineRaw timed
    by_cases same : stages.recording.map inputSha256 = some (P.digestInput prepared.input)
    · exact ⟨_, _, _, .recorded timed is same⟩
    · exact ⟨_, _, _, .made timed is same stored⟩

variable {status : Status}

theorem Staged.recording (staged : Staged P call stages w stages' status w')
    (validated : status = .validated) : stages'.recording ≠ none := by
  intro missing
  cases staged with
  | verified _ _ verified => simp [verifiedCompletedStoryboard, missing] at verified
  | required => cases validated
  | recorded _ _ same =>
    rw [missing] at same
    cases same
  | made => cases missing

theorem record_returns (recorded : status = .validated → stages.recording ≠ none) :
    Returns pid (record P call stages status) w := by
  have request {w : World} {document : Document} :
      (perform (.writeRequest document)).Ends (M := machine) () pid w (.ok ()) { w with document := document } :=
    ends_perform.2 rfl
  refine returns_bind ends_write ?_
  by_cases validated : status = .validated
  · obtain ⟨recording, is⟩ := ne_none_iff_exists'.mp (recorded validated)
    rw [if_pos validated, is]
    exact returns_bind ends_write (returns_bind request (returns_pure _))
  · rw [if_neg validated]
    exact returns_bind request (returns_pure _)

theorem Accepts.returns (accepts : Accepts P call)
    (sound : Sound P call.source w) : Returns pid (advance P call) w := by
  have request : (perform .request).Ends (M := machine) () pid w (.ok w.document) w := ends_perform.2 rfl
  have verifies := sound.revision.verifies
  obtain ⟨_, w₁, source⟩ : Returns pid (copySource call.source (w.revisions call.source)) w := copySource_returns _ _
  obtain ⟨stages, w₂, script⟩ : Returns pid (scriptStages P call.source ((w.revisions call.source).stages.getD {})) w₁ :=
    accepts.scriptStages_returns _
  obtain ⟨editorial, same, filed⟩ := ((sound.copied_of_ends source).begun script).editorial
  obtain ⟨stages', status, w₃, staged⟩ := (accepts.storyboards _ _ _ filed same).staged
  refine returns_bind request (returns_bind (ends_holds sound.document) ?_)
  refine returns_bind (ends_holds accepts.sourced) (returns_bind ends_revision ?_)
  refine returns_bind (ends_holds verifies) (returns_bind source (returns_bind script ?_))
  exact returns_bind (ends_storyboardStage.2 staged) (record_returns staged.recording)

end Succeeds

/-! ## What blocks a revision -/

section Blocked
variable {w w' : World} {call : Call} {stages : Stages} {recording : Recording} {prepared : Prepared}
  {timelineRaw : Bytes} {report : ReportDocument}

theorem Sound.overwrites (sound : Sound P call.source w) (pid : ℕ) (recorded : (w.revisions call.source).stages =
    some stages) (timed : call.timeline = some timelineRaw) (is : accepted P w call timelineRaw = .ok prepared)
    (differs : stages.recording.map inputSha256 ≠ some (P.digestInput prepared.input))
    (stored : prepared.Stored P report) :
    ∃ w', (advance P call).Stops (M := machine) () pid w w' (some (.write call.source (.storyboardQa report))) ∧
    (w'.revisions call.source).stages = some stages ∧ (w'.revisions call.source).scenes = some (prepared.scenes P) := by
  have request : (perform .request).Ends (M := machine) () pid w (.ok w.document) w := ends_perform.2 rfl
  have verifies := sound.revision.verifies
  simp only [accepted, recorded, getD_some, bind_eq_ok] at is
  obtain ⟨_, -, _, sourced, _, -, is⟩ := is
  obtain ⟨_, w₁, source⟩ : Returns pid (copySource call.source (w.revisions call.source)) w := copySource_returns _ _
  have copied := sound.copied_of_ends source
  obtain ⟨made, there, filed⟩ := sound.revision.editorial stages recorded
  have script : (scriptStages P call.source ((w.revisions call.source).stages.getD {})).Ends (M := machine) () pid w₁
      (.ok stages) w₁ := by
    unfold scriptStages
    rw [recorded, getD_some, mem_def.mp there]
    exact .pure stages
  have again : prepare P call timelineRaw (w₁.revisions call.source) stages = .ok prepared :=
    (prepare_congr copied.script copied.scriptQa rfl).trans is
  refine ⟨w₁.write call.source (.scenes (prepared.scenes P)), ?_, ?_, ?_⟩
  · refine .rest request (.rest (ends_holds sound.document) (.rest (ends_holds sourced) ?_))
    refine .rest ends_revision (.rest (ends_holds verifies) (.rest source (.rest script (.inside ?_))))
    refine .rest ends_revision ?_
    rw [timed]
    refine .rest (ends_holds again) ?_
    rw [if_neg differs]
    refine .inside (.rest (passes stored.1) (.rest ends_write (.rest (ends_holds stored.2) ?_)))
    exact .before _ _ _
  · rw [write_revisions_self]
    exact copied.stages.trans recorded
  · rw [write_revisions_self]
    rfl

theorem refuses_scenes {scenes : List Scene} (own : stages.recording = some recording)
    (there : revision.scenes = some scenes) (differs : P.sha256 (.scenes scenes) ≠ recording.sha256) :
    verifyCompletedStages P revision stages source ≠ .ok () := by
  intro verifies
  simp only [verifyCompletedStages, own, there, map_some, bind_eq_ok, require_eq_ok, exists_const] at verifies
  exact differs (kept_some.1 verifies.2.2.2.2.2.1)

end Blocked

/-! ### A recording of one word -/

instance encodableUInt8 : Encodable UInt8 := .ofLeftInverse UInt8.toNat UInt8.ofNat fun n => by simp
instance encodableChar : Encodable Char := .ofLeftInverse Char.toNat Char.ofNat fun c => by simp
instance encodableString : Encodable String := .ofLeftInverse toList ofList fun s => by simp
instance encodableNumber : Encodable Number := inferInstanceAs (Encodable (Option (Option (Option ℚ))))
deriving instance Encodable for Scene, ReportDocument, Content, StoryboardInput, Mode, Status, Execution, DocumentBody,
  CompilationBody

def digest {α : Type} [Encodable α] (a : α) : String := .ofList (replicate (Encodable.encode a) '0')

theorem digest_injective {α : Type} [Encodable α] : Function.Injective (digest : α → String) := by
  intro a b same
  have lists := congrArg (fun text => text.toList.length) same
  simp only [digest, toList_ofList, List.length_replicate] at lists
  exact Encodable.encode_injective lists

def Number.rational (a : Number) : Option ℚ :=
  a.bind (WithBot.recBotCoe none (WithTop.recTopCoe none some))

def Number.ofRational (q : ℚ) : Number := some ((q : ℚ) : WithTop ℚ)

def Number.difference (a b : Number) : Number := do
  let x ← a.rational
  let y ← b.rational
  ofRational (x - y)

def Number.distance (a b : Number) : Number := do
  let x ← a.rational
  let y ← b.rational
  ofRational |x - y|

def contentDigest : Content → String := digest

/-- Narrations of one word, and timelines and recordings that say how long they are by their own lengths. -/
def platform : Platform where
  sha256 := contentDigest
  digestInput := digest
  digestDocument := digest
  digestCompilation := digest
  source _ _ := .ok ()
  editorial _ :=
    { research := [0], script := .ok ([1], ⟨[2], ["one"]⟩), plan := .ok [3], scriptQa := [4], verdict := .pass
      approved := true }
  verdict _ := .ok .pass
  timelineEvidence _ _ := .ok ()
  timeline raw :=
    let length := ofRational raw.length
    .ok ⟨contentDigest (.raw raw), contentDigest (.raw [2]), contentDigest (.raw []), length,
      [⟨"one", .zero, length, length⟩]⟩
  measure audio := .ok (ofRational audio.bytes.length)
  prompt _ narration := narration
  distance := distance
  minus := difference
  fine := ofRational (1 / 1000000)
  coarse := ofRational (1 / 50)

theorem platform_collisionFree : CollisionFree platform where
  sha256 := by
    unfold platform contentDigest
    exact digest_injective
  digestInput := by
    unfold platform
    exact digest_injective

def take (seconds : ℕ) (suffix : String) : Call :=
  ⟨[], .test, some (replicate seconds 0), some ⟨replicate seconds 0, suffix⟩⟩

theorem lt_ofRational (a b : ℚ) : lt (.ofRational a) (.ofRational b) = decide (a < b) := by
  simp [lt, ofRational]

theorem le_ofRational (a b : ℚ) : le (.ofRational a) (.ofRational b) = decide (a ≤ b) := by
  simp [le, ofRational]

theorem eq_ofRational (a b : ℚ) : eq (.ofRational a) (.ofRational b) = decide (a = b) := by
  simp [eq, ofRational]

theorem distance_ofRational (a b : ℚ) : distance (.ofRational a) (.ofRational b) = .ofRational |a - b| := rfl

theorem difference_ofRational (a b : ℚ) : difference (.ofRational a) (.ofRational b) = .ofRational (a - b) := rfl

theorem zero_eq : zero = .ofRational 0 := rfl

def taken (seconds : ℕ) (suffix : String) : Prepared where
  timelineRaw := replicate seconds 0
  timeline :=
    let length := ofRational seconds
    ⟨contentDigest (.raw (replicate seconds 0)), contentDigest (.raw [2]), contentDigest (.raw []), length,
      [⟨"one", .zero, length, length⟩]⟩
  audio := ⟨replicate seconds 0, suffix⟩
  segments := ["one"]
  input := ⟨contentDigest (.raw (replicate seconds 0)), contentDigest (.raw (replicate seconds 0)),
    contentDigest (.raw [2]), contentDigest (.raw [])⟩

section Take
variable (seconds : ℕ) (suffix : String)

theorem checkTimestamps_take (positive : 0 < seconds) :
    checkTimestamps platform .zero (taken seconds suffix).timeline.timestamps ["one"] = .ok (.ofRational seconds) := by
  have long : seconds ≠ 0 := positive.ne'
  simp [checkTimestamps, taken, platform, zero_eq, distance_ofRational, difference_ofRational, lt_ofRational,
    le_ofRational, require, long]

theorem prepare_take {stages : Stages}
    (filed : Filed platform [] revision made) (same : stages.editorial = some made) (positive : 0 < seconds) :
    prepare platform (take seconds suffix) (replicate seconds 0) revision stages = .ok (taken seconds suffix) := by
  obtain ⟨narration, script, plan, scripted, planned, isScript, -, rfl⟩ := filed.made
  cases scripted
  cases planned
  have timestamps := checkTimestamps_take seconds suffix positive
  have near : ¬ lt platform.coarse (platform.distance (.ofRational seconds) (.ofRational seconds)) = true := by
    simp [platform, distance_ofRational, lt_ofRational]
  simp only [prepare, filed.scriptQa, isScript, same, editorialStages, elim_some, map_some, bind_eq_ok,
    require_eq_ok, pure_eq_ok, ok.injEq, exists_eq_left', exists_const]
  have read : platform.timeline (replicate seconds 0) = .ok (taken seconds suffix).timeline := by
    simp [platform, taken]
  have measured : platform.measure (taken seconds suffix).audio = .ok (.ofRational seconds) := by
    simp [platform, taken]
  exact ⟨trivial, .pass, rfl, nofun, rfl, _, rfl, (), rfl, _, read, _, measured, rfl, rfl, rfl, near, rfl, _, timestamps,
    near, rfl⟩

theorem stored_take (positive : 0 < seconds) :
    (taken seconds suffix).Stored platform ⟨1, .ofRational seconds, ["one"]⟩ := by
  have long : seconds ≠ 0 := positive.ne'
  refine ⟨nofun, ?_⟩
  simp [report, scenes, taken, scenesFrom, storyboardReport, checkScenes, timelineEnd, require, zero_eq,
    eq_ofRational, le_ofRational, lt_ofRational, positive, long]
theorem accepts_take (positive : 0 < seconds) : Accepts platform (take seconds suffix) where
  sourced := rfl
  made := ⟨_, _, _, rfl, rfl⟩
  approved := rfl
  storyboards _ _ _ filed same := by
    refine ⟨nofun, ?_⟩
    rintro _ ⟨⟩
    exact ⟨_, prepare_take seconds suffix filed same positive, _, stored_take seconds suffix positive⟩

theorem scenes_taken : (taken seconds suffix).scenes platform =
    [⟨1, "one", .zero, .ofRational seconds, "one", "one"⟩] := by
  simp [scenes, taken, scenesFrom, timelineEnd, platform]

theorem scenes_take {seconds' : ℕ} {suffix' : String} (same :
    (taken seconds suffix).scenes platform = (taken seconds' suffix').scenes platform) : seconds = seconds' := by
  rw [scenes_taken, scenes_taken] at same
  simpa [ofRational] using same

end Take

theorem careful_started {pending : Option Act} : Careful P (started P) call pending := by
  rintro recording ⟨⟩

theorem stopped_blocks : ¬ ∀ P, CollisionFree P → ∀ w, Reached P (fun _ _ _ => True) w →
    Recoverable P (fun _ _ _ => True) w := by
  intro claimed
  obtain ⟨status, w₁, ends⟩ : Returns 0 (advance platform (take 1 ".wav")) (started platform) :=
    (accepts_take 1 ".wav" Nat.one_pos).returns .started
  have sound : Sound platform (take 1 ".wav").source w₁ := advance_stays .started _ _ ends.stops careful_started
  obtain ⟨revision, stages, made, prepared, stages', recording, filed, same, is, now, own, input⟩ :=
    Sound.started.records rfl ends
  cases (prepare_take 1 ".wav" filed same Nat.one_pos).symm.trans is
  obtain ⟨report, attempts, -, rfl⟩ := (sound.revision.backed recording (by rw [now]; exact own)).eq_recording
    platform_collisionFree (checked_of_prepare filed is).1 input
  obtain ⟨made', there, filed'⟩ := sound.revision.editorial stages' now
  have longer := prepare_take 2 ".wav" filed' there Nat.two_pos
  have sound' : Sound platform (take 2 ".wav").source w₁ := sound
  have now' : (w₁.revisions (take 2 ".wav").source).stages = some stages' := now
  have timed : (take 2 ".wav").timeline = some (replicate 2 0) := rfl
  have accepts := sound'.of_prepare now' rfl longer
  have stored : (taken 2 ".wav").Stored platform _ := stored_take 2 ".wav" Nat.two_pos
  have differs : stages'.recording.map inputSha256 ≠ some (platform.digestInput (taken 2 ".wav").input) := by
    rw [own]
    intro equal
    have inputs := platform_collisionFree.digestInput (some.inj equal)
    cases Content.raw.inj (platform_collisionFree.sha256 (mk.inj inputs).1)
  obtain ⟨w₂, stops, kept, scenes⟩ := sound'.overwrites 0 now' timed accepts differs stored
  have reached : Reached platform (fun _ _ _ => True) w₂ := .call (.call .start ends.stops trivial) stops trivial
  have refused := (claimed platform platform_collisionFree w₂ reached).verifies (take 2 ".wav").source
  rw [kept] at refused
  refine refuses_scenes own scenes (fun equal => ?_) refused
  have equal := platform_collisionFree.sha256 equal
  cases scenes_take 2 ".wav" (Content.scenes.inj equal)

/-! ## Runs that meet the condition -/

/-- Calls that do not stop in the window never block a revision. -/
theorem Reached.never_blocked (free : CollisionFree P) {w : World} (reached : Reached P (Careful P) w) :
    Recoverable P (Careful P) w where
  verifies source := (reached.sound source).revision.verifies
  succeeds _ := fun ⟨_, before, _, _, _, ends⟩ _ => ((before.sound _).accepts free ends).returns (reached.sound _)

theorem never_blocked_take : ∃ status w, (advance platform (take 1 ".wav")).Ends (M := machine) () 0 (started platform)
    (.ok status) w ∧ Recoverable platform (Careful platform) w := by
  obtain ⟨status, w, ends⟩ : Returns 0 (advance platform (take 1 ".wav")) (started platform) :=
    (accepts_take 1 ".wav" Nat.one_pos).returns .started
  exact ⟨status, w, ends, Reached.never_blocked platform_collisionFree (.call .start ends.stops careful_started)⟩

end VideoPoster.Preproduction.Advance
