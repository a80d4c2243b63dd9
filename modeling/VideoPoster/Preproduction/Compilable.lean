import VideoPoster.Preproduction.Frames
import VideoPoster.Preproduction.Recovered

/-!
# What can be compiled
-/

namespace VideoPoster.Preproduction.Advance
open Python Interleaving Option List Prepared Except World Revision Nat Char

variable {C : Compiler} {P : Platform}

/-! ## Requests that a call has validated -/

theorem requestDocument_status (call : Call) (status : Status) : (requestDocument P call status).status = status := rfl

theorem requestDocument_execution (call : Call) (status : Status) : (requestDocument P call status).execution =
    some ⟨call.mode, P.sha256 (.raw call.source), call.source, "BLOCKED"⟩ := rfl

structure Validated (P : Platform) (call : Call) (stages : Stages) (recording : Recording) (w : World) : Prop where
  document : w.document = requestDocument P call .validated
  recorded : (w.revisions call.source).stages = some stages
  own : stages.recording = some recording
  input : (w.revisions call.source).compilationInput = some (compilationInput P call.mode recording)
  source : (w.revisions call.source).source = some call.source
  sound : Sound P call.source w
  silent : call.timeline = none → call.audio = none
  evidence : ∀ timelineRaw ∈ call.timeline, ∃ prepared report attempts, prepared.timelineRaw = timelineRaw ∧
    call.audio = some prepared.audio ∧ Checked P call.source prepared ∧
      recording = prepared.recording P report attempts

section Validated
variable {call : Call} {stages : Stages} {recording : Recording} {w : World}

theorem Validated.backed (validated : Validated P call stages recording w) : Backed P call.source recording :=
  validated.sound.revision.backed recording (by rw [validated.recorded]; exact validated.own)

theorem checkBytes_ok {label expected : String} {file : Option Content} {u : Unit} :
    checkBytes P label expected file = .ok u ↔ kept P (some expected) file = true := by
  simp [checkBytes]

theorem verified_iff {revision : Revision}
    (own : stages.recording = some recording) : verifiedCompletedStoryboard P revision stages = true ↔ ∃
    name bytes, revision.audio = [(name, bytes)] ∧ kept P (some recording.timelineSha256) (revision.timeline.map .raw) =
    true ∧ kept P (some recording.qaSha256) (revision.storyboardQa.map .report) = true ∧ kept P (some recording.sha256)
    (revision.scenes.map .scenes) = true ∧ P.sha256 (.raw bytes) = recording.audioSha256 := by
  unfold verifiedCompletedStoryboard
  rw [own]
  rcases revision.audio with _ | ⟨⟨name, bytes⟩, _ | _⟩ <;> simp [kept_some, and_assoc]

theorem Validated.compilation (validated : Validated P call stages recording w)
    (test : call.mode = .test) (verified : verifiedCompletedStoryboard P (w.revisions call.source) stages = true) :
    ∃ made scenes audio, Filed P call.source (w.revisions call.source) made ∧ (w.revisions call.source).scenes =
    some scenes ∧ P.sha256 (.raw audio) = recording.audioSha256 ∧ compilationEvidence P w =
    .ok ⟨compilationInput P call.mode recording, P.sha256 (.raw call.source), made, recording, audio, scenes⟩ := by
  have sound := validated.sound.revision
  obtain ⟨made, editorial, filed⟩ := sound.editorial stages validated.recorded
  obtain ⟨narration, script, plan, -, -, isScript, -, rfl⟩ := filed.made
  obtain ⟨name, audio, isAudio, timeline, storyboardQa, isScenes, audioSha256⟩ := (verified_iff validated.own).mp verified
  obtain ⟨prepared, report, attempts, checked, stored, rfl⟩ := validated.backed
  obtain ⟨_, _, _, _, input⟩ := checked.made
  cases there : (w.revisions call.source).scenes with
  | none =>
    rw [there] at isScenes
    cases isScenes
  | some scenes =>
    refine ⟨_, scenes, audio, filed, rfl, audioSha256, ?_⟩
    have valid : validate P w.document = .ok () := validated.sound.document
    have verifies := sound.verifies
    rw [validated.recorded, getD_some] at verifies
    have binds : (compilationInput P .test (prepared.recording P report attempts)).Binds (P.sha256 (.raw call.source))
        (prepared.recording P report attempts) := by
      refine ⟨?_, rfl, rfl, rfl, rfl⟩
      simp [compilationInput, recording, input]
    rw [there] at isScenes
    rw [mem_def] at editorial
    have source : kept P (some (P.sha256 (.raw call.source))) ((w.revisions call.source).source.map .raw) = true := by
      rw [validated.source]
      exact kept_some.2 rfl
    simp only [compilationEvidence, bind_eq_ok, require_eq_ok, exists_const, pure_eq_ok, checkBytes_ok,
      validated.document, requestDocument_status, requestDocument_execution, elim_some, ok.injEq, exists_eq_left', validated.recorded,
      validated.own, validated.input, editorial, isAudio, there, filed.scriptQa, isScript, verified, true_and]
    exact ⟨(), validate_requestDocument call _, test, (), verifies, ⟨rfl, test⟩, binds, source, kept_some.2 rfl,
      kept_some.2 rfl, isScenes, timeline, kept_some.2 audioSha256, trivial⟩

end Validated

/-! ## New packets -/

section Packets
variable {evidence : Evidence} {manifest : Manifest} {manifestInputSha256 : String}

theorem copyAsset_ok {asset : Asset} (labelled : C.labelled asset.reviewer = true) :
    ∃ copy, copyAsset C asset = .ok copy := by
  have filled := (C.labelled_not_blank _ labelled).1
  exact ⟨_, by simp only [copyAsset, bind_eq_ok, require_eq_ok, filled, exists_const, true_and]; rfl⟩

theorem checkAsset_labelled {asset : Asset} {u : Unit} (checked : checkAsset C asset = .ok u) :
    C.labelled asset.reviewer = true := by
  simp only [checkAsset, bind_eq_ok, require_eq_ok, exists_const] at checked
  exact checked.2.2

theorem forM_checkAsset {assets : List Asset} (checked : assets.forM (checkAsset C) = .ok ()) :
    ∀ asset ∈ assets, C.labelled asset.reviewer = true := by
  induction assets with
  | nil => nofun
  | cons asset assets ih =>
    obtain ⟨_, first, rest⟩ := bind_eq_ok.mp checked
    exact forall_mem_cons.mpr ⟨checkAsset_labelled first, ih rest⟩

theorem mapM_copyAsset {assets : List Asset} (labelled : ∀ asset ∈ assets, C.labelled asset.reviewer = true) :
    ∃ copies, assets.mapM (copyAsset C) = .ok copies := by
  induction assets with
  | nil => exact ⟨[], rfl⟩
  | cons asset assets ih =>
    obtain ⟨first, rest⟩ := forall_mem_cons.mp labelled
    obtain ⟨copy, copied⟩ := copyAsset_ok first
    obtain ⟨copies, others⟩ := ih rest
    exact ⟨copy :: copies, by simp only [mapM_cons, copied, others]; rfl⟩

theorem newPacket_ok (valid : checkManifest C manifest = .ok ()) {frames : List FrameSpec} (compiled : compileStoryboard
    C evidence.scenes = .ok frames) : ∃ packet, newPacket C P evidence manifest manifestInputSha256 = .ok packet := by
  simp only [checkManifest, bind_eq_ok, require_eq_ok, exists_const] at valid
  have labelled := forM_checkAsset valid.2
  obtain ⟨assets, copied⟩ := mapM_copyAsset fun asset there => labelled asset (mem_append_left _ there)
  obtain ⟨sheet, copiedSheet⟩ := copyAsset_ok (labelled manifest.sheet (by simp))
  let file := P.sha256 (.raw evidence.audio)
  obtain ⟨audio, copiedAudio⟩ : ∃ copy, copyAsset C ⟨file, "TEST local preproduction audio", "TEST", file⟩ = .ok copy :=
    copyAsset_ok (C.labelled_test " local preproduction audio")
  simp only [newPacket, copied, copiedSheet, copiedAudio, compiled, bind_eq_ok, ok.injEq, exists_eq_left',
    pure_eq_ok, exists_eq', file]

theorem newPacket_binding {packet : Packet} (made : newPacket C P evidence manifest manifestInputSha256 = .ok packet) :
    packet.receipt.toSourceBinding = sourceBinding evidence ∧
      ∃ frames, compileStoryboard C evidence.scenes = .ok frames := by
  simp only [newPacket, bind_eq_ok, pure_eq_ok] at made
  obtain ⟨_, -, _, -, _, -, frames, compiled, rfl⟩ := made
  exact ⟨rfl, frames, compiled⟩

end Packets

/-! ## Compilation -/

structure Receipt.Names (P : Platform) (call : Call) (w : World) (receipt : Receipt) : Prop where
  source : receipt.sourceSha256 = P.sha256 (.raw call.source)
  script : ∀ narration script, (P.editorial call.source).script = .ok (narration, script) →
    receipt.scriptSha256 = P.sha256 (.raw script.raw)
  recording : ∀ recording ∈ (w.revisions call.source).stages.bind Stages.recording,
    receipt.timelineSha256 = recording.timelineSha256 ∧ receipt.audioSha256 = recording.audioSha256 ∧
      receipt.storyboardSha256 = recording.sha256
  timeline : ∀ timelineRaw ∈ call.timeline, receipt.timelineSha256 = P.sha256 (.raw timelineRaw)
  audio : ∀ audio ∈ call.audio, receipt.audioSha256 = P.sha256 (.raw audio.bytes)
  storyboard : ∀ timelineRaw ∈ call.timeline, ∀ timeline, P.timeline timelineRaw = .ok timeline →
    receipt.storyboardSha256 = P.sha256 (.scenes (scenesFrom P timeline.duration [] timeline.timestamps))

/-- Without a packet, the revision of the call compiles, and the same call without new evidence validates it again. -/
structure Compilable (C : Compiler) (P : Platform) (call : Call) (w : World) : Prop where
  compiles : ∀ manifest manifestInputSha256, checkManifest C manifest = .ok () →
    ∃ packet, compilePreproduction C P w none manifest manifestInputSha256 = .ok packet ∧ packet.receipt.Names P call w
  again : ∀ pid, ∃ w', (advance P ⟨call.source, call.mode, none, none⟩).Ends (M := machine) () pid w
    (.ok .validated) w'

section Compilation
variable {call : Call} {stages : Stages} {recording : Recording} {w : World}

theorem verified_congr {revision revision' : Revision} (untouched : Untouched revision revision') :
    verifiedCompletedStoryboard P revision' stages = verifiedCompletedStoryboard P revision stages := by
  unfold verifiedCompletedStoryboard
  rw [untouched.timeline, untouched.audio, untouched.scenes, untouched.storyboardQa]

theorem Validated.again_iff (validated : Validated P call stages recording w) (accepts : Accepts P ⟨call.source,
    call.mode, none, none⟩) {pid : ℕ} : (∃ w', (advance P ⟨call.source, call.mode, none, none⟩).Ends (M := machine)
    () pid w (.ok .validated) w') ↔ verifiedCompletedStoryboard P (w.revisions call.source) stages = true := by
  have sound : Sound P (Call.source ⟨call.source, call.mode, none, none⟩) w := validated.sound
  have same {status : Status} {stages₁ stages₂ : Stages} {w₁ w₂ w₃ : World} (advanced :
      Advanced P w ⟨call.source, call.mode, none, none⟩ status stages₁ w₁ stages₂ w₂ w₃) :
      verifiedCompletedStoryboard P (w₁.revisions call.source) stages₁ =
        verifiedCompletedStoryboard P (w.revisions call.source) stages := by
    have is : stages₁ = stages := by
      rcases advanced.begun.origin with ⟨-, missing, -⟩ | ⟨-, there, -⟩
      · have recorded := validated.recorded
        rw [missing] at recorded
        cases recorded
      · exact some.inj (there.symm.trans validated.recorded)
    rw [is]
    exact verified_congr advanced.begun.untouched
  constructor
  · rintro ⟨w', ends⟩
    obtain ⟨stages₁, w₁, stages₂, w₂, advanced⟩ := sound.advanced ends
    rw [← same advanced]
    cases advanced.staged with
    | verified timed silent verified => exact verified
    | recorded timed => cases timed
    | made timed => cases timed
  · intro verified
    obtain ⟨status, w', ends⟩ : Returns pid (advance P ⟨call.source, call.mode, none, none⟩) w := accepts.returns sound
    obtain ⟨stages₁, w₁, stages₂, w₂, advanced⟩ := sound.advanced ends
    rw [← same advanced] at verified
    cases advanced.staged with
    | verified => exact ⟨w', ends⟩
    | required timed silent unverified =>
      have := unverified.symm.trans verified
      cases this
    | recorded timed => cases timed
    | made timed => cases timed

theorem Validated.scenes (free : CollisionFree P) (validated : Validated P call stages recording w)
    {scenes : List Scene} (there : (w.revisions call.source).scenes = some scenes) :
    ∃ prepared report, Checked P call.source prepared ∧ prepared.Stored P report ∧ scenes = prepared.scenes P := by
  obtain ⟨prepared, report, attempts, checked, stored, rfl⟩ := validated.backed
  have same := validated.sound.revision.scenes (prepared.recording P report attempts)
    (by rw [validated.recorded]; exact validated.own)
  rw [there] at same
  exact ⟨prepared, report, checked, stored, Content.scenes.inj (free.sha256 (kept_some.1 same))⟩

theorem Validated.names (validated : Validated P call stages recording w) {made : EditorialStages}
    (filed : Filed P call.source (w.revisions call.source) made) {receipt : Receipt} {audio : Bytes}
    {scenes : List Scene} (binds : receipt.toSourceBinding = sourceBinding ⟨compilationInput P call.mode recording,
    P.sha256 (.raw call.source), made, recording, audio, scenes⟩) : receipt.Names P call w := by
  have own {recording' : Recording}
      (there : recording' ∈ (w.revisions call.source).stages.bind Stages.recording) : recording = recording' := by
    rw [validated.recorded] at there
    exact some.inj (validated.own.symm.trans there)
  have timeline : receipt.timelineSha256 = recording.timelineSha256 := congrArg (·.timelineSha256) binds
  have audio : receipt.audioSha256 = recording.audioSha256 := congrArg (·.audioSha256) binds
  have storyboard : receipt.storyboardSha256 = recording.sha256 := congrArg (·.storyboardSha256) binds
  have script : receipt.scriptSha256 = made.script.sha256 := congrArg (·.scriptSha256) binds
  refine ⟨congrArg (·.sourceSha256) binds, ?_, ?_, ?_, ?_, ?_⟩
  · intro narration text scripted
    obtain ⟨_, _, _, scripted', -, -, -, rfl⟩ := filed.made
    cases scripted.symm.trans scripted'
    exact script
  · rintro recording' there
    cases own there
    exact ⟨timeline, audio, storyboard⟩
  · intro timelineRaw there
    obtain ⟨prepared, report, attempts, rfl, -, checked, rfl⟩ := validated.evidence timelineRaw there
    obtain ⟨_, _, _, _, input⟩ := checked.made
    rw [timeline]
    simp only [recording, input]
  · intro file there
    cases timed : call.timeline with
    | none =>
      rw [validated.silent timed] at there
      cases there
    | some timelineRaw =>
      obtain ⟨prepared, report, attempts, rfl, given, checked, rfl⟩ := validated.evidence timelineRaw timed
      obtain ⟨_, _, _, _, input⟩ := checked.made
      rw [given] at there
      cases there
      rw [audio]
      simp only [recording, input]
  · intro timelineRaw there read is
    obtain ⟨prepared, report, attempts, rfl, -, checked, rfl⟩ := validated.evidence timelineRaw there
    cases checked.timeline.symm.trans is
    exact storyboard

def SourceTold (C : Compiler) (P : Platform) (source : Bytes) : Prop :=
  ∀ narration script, (P.editorial source).script = .ok (narration, script) → Told C P [] script.narration

theorem Validated.told (free : CollisionFree P) (validated : Validated P call stages recording w) {scenes : List Scene}
    (there : (w.revisions call.source).scenes = some scenes) :
    (∃ frames, compileStoryboard C scenes = .ok frames) ↔ SourceTold C P call.source := by
  obtain ⟨prepared, report, checked, stored, rfl⟩ := validated.scenes free there
  rw [compile_storyboard stored.2]
  obtain ⟨narration, script, scripted, segments, -⟩ := checked.made
  rw [segments]
  constructor
  · intro told narration' script' scripted'
    cases scripted.symm.trans scripted'
    exact told
  · exact fun told => told narration script scripted

def plainManifest : Manifest := ⟨[], ⟨"", "TEST", "TEST", ""⟩, "TEST", "TEST"⟩

theorem checkManifest_plain : checkManifest C plainManifest = .ok () := by
  have labelled : C.labelled "TEST" = true := C.labelled_test ""
  simp [checkManifest, plainManifest, labelled, checkAsset, require, bind, Except.bind, pure, Except.pure]

theorem Validated.compilable_iff (free : CollisionFree P) (validated : Validated P call stages recording w)
    (test : call.mode = .test) (accepts : Accepts P ⟨call.source, call.mode, none, none⟩) : Compilable C P call w ↔
    verifiedCompletedStoryboard P (w.revisions call.source) stages = true ∧ SourceTold C P call.source := by
  constructor
  · intro compilable
    have verified := (validated.again_iff accepts).mp (compilable.again 0)
    obtain ⟨made, scenes, audio, filed, there, -, evidence⟩ := validated.compilation test verified
    obtain ⟨packet, compiled, -⟩ := compilable.compiles plainManifest "" checkManifest_plain
    simp only [compilePreproduction, evidence, checkManifest_plain, bind_eq_ok, ok.injEq, exists_eq_left'] at compiled
    obtain ⟨_, -, compiled⟩ := compiled
    exact ⟨verified, (validated.told free there).mp (newPacket_binding compiled).2⟩
  · rintro ⟨verified, told⟩
    refine ⟨fun manifest manifestInputSha256 valid => ?_, fun pid => (validated.again_iff accepts).mpr verified⟩
    obtain ⟨made, scenes, audio, filed, there, -, evidence⟩ := validated.compilation test verified
    obtain ⟨frames, compiled⟩ := (validated.told free there).mpr told
    obtain ⟨packet, written⟩ : ∃ packet, newPacket C P ⟨compilationInput P call.mode recording,
        P.sha256 (.raw call.source), made, recording, audio, scenes⟩ manifest manifestInputSha256 = .ok packet :=
      newPacket_ok valid compiled
    refine ⟨packet, ?_, validated.names filed (newPacket_binding written).1⟩
    simp only [compilePreproduction, evidence, valid, bind_eq_ok, ok.injEq, exists_eq_left']
    exact ⟨(), trivial, written⟩

end Compilation

/-! ## Calls that come to their ends -/

inductive Ran (P : Platform) : World → Prop
  | start : Ran P (started P)
  | call {w w' : World} {call : Call} {pid : ℕ} {outcome : Result Status} (before : Ran P w) (test : call.mode = .test)
      (ends : (advance P call).Ends (M := machine) () pid w outcome w') : Ran P w'

structure Tracked (P : Platform) (source : Bytes) (w : World) : Prop where
  document : validate P w.document = .ok ()
  copy : ∀ bytes ∈ (w.revisions source).source, bytes = source
  editorial : ∀ stages ∈ (w.revisions source).stages, ∃ made ∈ stages.editorial, Filed P source (w.revisions source) made
  backed : ∀ recording ∈ (w.revisions source).stages.bind Stages.recording, Backed P source recording
  timeline : ∀ recording ∈ (w.revisions source).stages.bind Stages.recording,
    kept P (some recording.timelineSha256) ((w.revisions source).timeline.map .raw) = true
  audio : ∀ recording ∈ (w.revisions source).stages.bind Stages.recording,
    ∃ file ∈ (w.revisions source).audio, P.sha256 (.raw file.2) = recording.audioSha256

theorem Tracked.started {source : Bytes} : Tracked P source (started P) where
  document := validate_started
  copy := nofun
  editorial := nofun
  backed := nofun
  timeline := nofun
  audio := nofun

section Tracked
variable {w w' : World} {source : Bytes} {call : Call} {stages : Stages} {pid : ℕ}

theorem Tracked.sound {u : Unit} (tracked : Tracked P source w)
    (verifies : verifyCompletedStages P (w.revisions source) ((w.revisions source).stages.getD {}) source = .ok u) :
    Sound P source w where
  document := tracked.document
  revision := by
    simp only [verifyCompletedStages, bind_eq_ok, require_eq_ok, exists_const] at verifies
    obtain ⟨-, -, -, -, -, scenes, storyboardQa⟩ := verifies
    refine ⟨tracked.copy, tracked.editorial, ?_, ?_, tracked.backed⟩
    · intro recording there
      cases recorded : (w.revisions source).stages with
      | none => rw [recorded] at there; cases there
      | some stages =>
        rw [recorded] at there scenes
        have own : stages.recording = some recording := there
        rwa [getD_some, own, map_some] at scenes
    · intro recording there
      cases recorded : (w.revisions source).stages with
      | none => rw [recorded] at there; cases there
      | some stages =>
        rw [recorded] at there storyboardQa
        have own : stages.recording = some recording := there
        rwa [getD_some, own, map_some] at storyboardQa

theorem tracked_of_sound (sound : Sound P source w')
    (files : ∀ recording ∈ (w'.revisions source).stages.bind Stages.recording,
      kept P (some recording.timelineSha256) ((w'.revisions source).timeline.map .raw) = true ∧
        ∃ file ∈ (w'.revisions source).audio, P.sha256 (.raw file.2) = recording.audioSha256) : Tracked P source w' where
  document := sound.document
  copy := sound.revision.copy
  editorial := sound.revision.editorial
  backed := sound.revision.backed
  timeline recording there := (files recording there).1
  audio recording there := (files recording there).2

theorem Tracked.untouched (tracked : Tracked P source w) (sound : Sound P source w')
    (untouched : Untouched (w.revisions source) (w'.revisions source))
    (stages : (w'.revisions source).stages = (w.revisions source).stages) : Tracked P source w' := by
  refine tracked_of_sound sound fun recording there => ?_
  rw [stages] at there
  rw [untouched.timeline, untouched.audio]
  exact ⟨tracked.timeline recording there, tracked.audio recording there⟩

theorem Tracked.begun (tracked : Tracked P call.source w) (begun : Begun P w call stages w') :
    Tracked P call.source w' := by
  refine tracked.untouched begun.sound begun.untouched ?_
  rcases begun.origin with ⟨now, before, -⟩ | ⟨now, before, -⟩
  · exact now.trans before.symm
  · exact now.trans before.symm

theorem Tracked.write_scenes {scenes : List Scene} (tracked : Tracked P source w) :
    Tracked P source (w.write source (.scenes scenes)) := by
  refine ⟨tracked.document, ?_, fun stages there => ?_, ?_, ?_, ?_⟩
  · rw [write_revisions_self]
    exact tracked.copy
  · rw [write_revisions_self] at there ⊢
    obtain ⟨made, editorial, filed⟩ := tracked.editorial stages there
    exact ⟨made, editorial, filed.made, filed.approved, filed.research, filed.scriptQa⟩
  · rw [write_revisions_self]
    exact tracked.backed
  · rw [write_revisions_self]
    exact tracked.timeline
  · rw [write_revisions_self]
    exact tracked.audio

/-! ### What a call that raises leaves -/

section Raises
variable {α β : Type} {error : Error}

theorem perform_raises {action : Act} {next : action.Res → Program β}
    (ends : ((perform action).bind next).Ends (M := machine) () pid w (.error error) w') :
    (next (serve w action).2).Ends (M := machine) () pid (serve w action).1 (.error error) w' := by
  rcases ends.of_bind_error with raised | ⟨response, w₁, performed, rest⟩
  · obtain ⟨_, _, is⟩ := Prog.ends_request_iff.mp raised
    cases is
  · simpa only [ends_perform.1 performed] using rest

theorem check_raises {result : Result α} {next : α → Program β}
    (ends : ((Prog.ofExcept result).bind next).Ends (M := machine) () pid w (.error error) w') :
    w' = w ∨ ∃ x, result = .ok x ∧ (next x).Ends (M := machine) () pid w (.error error) w' := by
  rcases ends.of_bind_error with raised | ⟨x, w₁, passed, rest⟩
  · exact .inl (Prog.ends_ofExcept_iff.mp raised).2
  · obtain ⟨is, rfl⟩ := ends_ofExcept.1 passed
    exact .inr ⟨x, is, rest⟩

theorem pure_raises {value : α} (ends : (Prog.pure value : Program α).Ends (M := machine) () pid w (.error error) w') :
    False := by
  cases (Prog.ends_pure_iff.mp ends).1

theorem scriptStages_raises (copied : Copied P w call.source w')
    {w'' : World} (raised : (scriptStages P call.source ((w.revisions call.source).stages.getD {})).Ends (M := machine)
    () pid w' (.error error) w'') : Tracked P call.source w'' := by
  unfold scriptStages at raised
  cases editorial : ((w.revisions call.source).stages.getD {}).editorial with
  | none =>
    rw [editorial] at raised
    rcases raised.of_bind_error with raised | ⟨_, _, -, raised⟩
    · have after := makeScript_stays (copied.unrecorded editorial) _ _ raised.stops
      refine tracked_of_sound after.sound fun recording there => ?_
      rw [after.stages] at there
      cases there
    · cases pure_raises raised
  | some made =>
    rw [editorial] at raised
    cases pure_raises raised

theorem storyboardStage_raises (tracked : Tracked P call.source w) (raised :
    (storyboardStage P call stages).Ends (M := machine) () pid w (.error error) w') : Tracked P call.source w' := by
  have raised := perform_raises raised
  cases timed : call.timeline with
  | none =>
    rw [timed] at raised
    rcases check_raises raised with rfl | ⟨_, -, raised⟩
    · exact tracked
    · split_ifs at raised <;> cases pure_raises raised
  | some timelineRaw =>
    rw [timed] at raised
    rcases check_raises raised with rfl | ⟨prepared, -, raised⟩
    · exact tracked
    · split_ifs at raised
      · cases pure_raises raised
      · rcases raised.of_bind_error with raised | ⟨_, _, -, raised⟩
        · rcases check_raises raised with rfl | ⟨_, -, raised⟩
          · exact tracked
          · rcases check_raises (perform_raises raised) with rfl | ⟨_, -, raised⟩
            · exact tracked.write_scenes
            · have raised := perform_raises (perform_raises (perform_raises raised))
              cases pure_raises raised
        · cases pure_raises raised

theorem Tracked.raises (tracked : Tracked P call.source w)
    (raised : (advance P call).Ends (M := machine) () pid w (.error error) w') : Tracked P call.source w' := by
  rcases check_raises (perform_raises raised) with rfl | ⟨_, -, raised⟩
  · exact tracked
  rcases check_raises raised with rfl | ⟨_, sourced, raised⟩
  · exact tracked
  rcases check_raises (perform_raises raised) with rfl | ⟨_, verifies, raised⟩
  · exact tracked
  have sound := tracked.sound verifies
  rcases raised.of_bind_error with raised | ⟨_, w₁, source, raised⟩
  · obtain ⟨_, _, returned⟩ : Returns pid (copySource call.source (w.revisions call.source)) w := copySource_returns _ _
    cases (raised.unique returned).1
  have copied := sound.copied_of_ends source
  rcases raised.of_bind_error with raised | ⟨stages, w₂, script, raised⟩
  · exact scriptStages_raises copied raised
  have begun := copied.begun script
  rcases raised.of_bind_error with raised | ⟨⟨stages', status⟩, w₃, storyboard, raised⟩
  · exact storyboardStage_raises (tracked.begun begun) raised
  · have recorded := (ends_storyboardStage.1 storyboard).recording
    obtain ⟨_, _, returned⟩ : Returns pid (record P call stages' status) w₃ := record_returns recorded
    cases (raised.unique returned).1

end Raises

/-! ### What a call that returns leaves -/

section Returned
variable {status : Status} {stages' : Stages} {w₁ w₂ : World}

theorem Tracked.advanced (tracked : Tracked P call.source w) (ends : (advance P call).Ends (M := machine) () pid w (.ok
    status) w') : Sound P call.source w ∧ ∃ stages w₁ stages' w₂, Advanced P w call status stages w₁ stages' w₂ w' := by
  have sound : Sound P call.source w := by
    obtain ⟨_, _, looked, ends⟩ := Prog.ends_bind_iff.mp ends
    cases ends_perform.mp looked
    obtain ⟨_, _, checked, ends⟩ := Prog.ends_bind_iff.mp ends
    obtain ⟨-, rfl⟩ := ends_ofExcept.1 checked
    obtain ⟨_, _, checked, ends⟩ := Prog.ends_bind_iff.mp ends
    obtain ⟨-, rfl⟩ := ends_ofExcept.1 checked
    obtain ⟨_, _, looked, ends⟩ := Prog.ends_bind_iff.mp ends
    cases ends_perform.mp looked
    obtain ⟨_, _, checked, -⟩ := Prog.ends_bind_iff.mp ends
    exact tracked.sound (ends_ofExcept.1 checked).1
  exact ⟨sound, sound.advanced ends⟩

theorem recorded_untouched :
    Untouched (w.revisions call.source) ((w.recorded P call stages status).revisions call.source) := by
  unfold recorded
  split_ifs
  · cases stages.recording <;> simp only [elim_none, elim_some, write_revisions_self] <;>
      exact ⟨rfl, rfl, rfl, rfl, fun _ => id⟩
  · simp only [write_revisions_self]
    exact ⟨rfl, rfl, rfl, rfl, fun _ => id⟩

theorem recorded_input {recording : Recording} (own : stages.recording = some recording) : ((w.recorded P call
    stages .validated).revisions call.source).compilationInput = some (compilationInput P call.mode recording) := by
  simp [recorded, own, apply]

theorem recorded_document : (w.recorded P call stages status).document = requestDocument P call status := rfl

theorem Staged.files (staged : Staged P call stages w₁ stages' status w₂)
    (begun : Begun P w call stages w₁) (tracked : Tracked P call.source w₁) : ∀ recording ∈ stages'.recording,
    kept P (some recording.timelineSha256) ((w₂.revisions call.source).timeline.map .raw)
    = true ∧ ∃ file ∈ (w₂.revisions call.source).audio, P.sha256 (.raw file.2) = recording.audioSha256 := by
  have earlier : ∀ recording ∈ stages.recording,
      kept P (some recording.timelineSha256) ((w₁.revisions call.source).timeline.map .raw) = true ∧
        ∃ file ∈ (w₁.revisions call.source).audio, P.sha256 (.raw file.2) = recording.audioSha256 := by
    intro recording there
    rcases begun.origin with ⟨-, -, missing⟩ | ⟨now, -⟩
    · simp [Stages.recording, missing] at there
    · have among : recording ∈ (w₁.revisions call.source).stages.bind Stages.recording := by rwa [now]
      exact ⟨tracked.timeline recording among, tracked.audio recording among⟩
  cases staged with
  | verified => exact earlier
  | required =>
    rw [recording_or]
    exact earlier
  | recorded => exact earlier
  | @made timelineRaw prepared report timed is differs stored =>
    rintro _ ⟨⟩
    obtain ⟨_, _, _, _, input⟩ := (begun.checked is).made
    simp only [storyboard, write_revisions_self, apply, Prepared.recording, input]
    exact ⟨kept_some.mpr rfl, (prepared.audio.name, prepared.audio.bytes), by simp, rfl⟩

theorem Advanced.tracked (advanced : Advanced P w call status stages w₁ stages' w₂ w')
    (tracked : Tracked P call.source w) : Tracked P call.source w' := by
  obtain ⟨-, begun, staged, rfl⟩ := advanced
  refine tracked_of_sound (staged.finished begun).sound.recorded fun recording there => ?_
  rw [recorded_stages] at there
  have untouched : Untouched (w₂.revisions call.source) ((w₂.recorded P call stages' status).revisions call.source) :=
    recorded_untouched
  rw [untouched.timeline, untouched.audio]
  exact staged.files begun (tracked.begun begun) recording there

theorem storyboard_untouched {prepared : Prepared} {report : ReportDocument} :
    ((w.storyboard P call.source prepared report).revisions call.source).source = (w.revisions call.source).source := by
  simp only [storyboard, write_revisions_self]
  rfl

theorem Staged.copied (staged : Staged P call stages w₁ stages' status w₂) (begun : Begun P w call stages w₁) :
    (w₂.revisions call.source).source = some call.source := by
  cases staged with
  | made => exact storyboard_untouched.trans begun.source
  | _ => exact begun.source

theorem Staged.silent (staged : Staged P call stages w₁ stages' status w₂) (timed : call.timeline = none) :
    call.audio = none := by
  cases staged with
  | verified _ silent => exact silent
  | required _ silent => exact silent
  | recorded timed' => rw [timed] at timed'; cases timed'
  | made timed' => rw [timed] at timed'; cases timed'

variable (free : CollisionFree P)
include free

theorem Begun.repeated {timelineRaw : Bytes} {prepared : Prepared} (begun : Begun P w call stages w₁)
    (is : prepare P call timelineRaw (w₁.revisions call.source) stages = .ok prepared) (same : stages.recording.map
    Recording.inputSha256 = some (P.digestInput prepared.input)) : ∃ recording report attempts, stages.recording =
    some recording ∧ prepared.Stored P report ∧ recording = prepared.recording P report attempts := by
  obtain ⟨recording, own, digest⟩ := map_eq_some_iff.mp same
  have backed : Backed P call.source recording := by
    rcases begun.origin with ⟨-, -, missing⟩ | ⟨now, -⟩
    · simp [Stages.recording, missing] at own
    · exact begun.sound.revision.backed recording (by rw [now]; exact own)
  obtain ⟨report, attempts, stored, rfl⟩ := backed.eq_recording free (begun.checked is) digest
  exact ⟨_, report, attempts, own, stored, rfl⟩

theorem Staged.evidence {recording : Recording} (staged : Staged
    P call stages w₁ stages' status w₂) (begun : Begun P w call stages w₁) (own : stages'.recording = some recording) :
    ∀ timelineRaw ∈ call.timeline, ∃ prepared report attempts, prepared.timelineRaw = timelineRaw ∧ call.audio =
    some prepared.audio ∧ Checked P call.source prepared ∧ recording = prepared.recording P report attempts := by
  obtain ⟨made, editorial, filed⟩ := begun.editorial
  intro timelineRaw timed
  rw [mem_def] at timed
  cases staged with
  | verified silent => rw [timed] at silent; cases silent
  | required silent => rw [timed] at silent; cases silent
  | recorded timed' is same =>
    cases timed.symm.trans timed'
    obtain ⟨checked, raw, given⟩ := checked_of_prepare filed is
    obtain ⟨_, report, attempts, own', -, rfl⟩ := begun.repeated free is same
    cases own.symm.trans own'
    exact ⟨_, report, attempts, raw, given, checked, rfl⟩
  | made timed' is differs stored =>
    cases timed.symm.trans timed'
    obtain ⟨checked, raw, given⟩ := checked_of_prepare filed is
    cases own
    exact ⟨_, _, _, raw, given, checked, rfl⟩

theorem Advanced.validated (advanced : Advanced P w call .validated stages w₁ stages' w₂ w') :
    ∃ recording, Validated P call stages' recording w' := by
  obtain ⟨-, begun, staged, rfl⟩ := advanced
  obtain ⟨recording, own⟩ := ne_none_iff_exists'.mp (staged.recording rfl)
  refine ⟨recording, recorded_document, recorded_stages, own, recorded_input own, ?_,
    (staged.finished begun).sound.recorded, staged.silent, staged.evidence free begun own⟩
  exact recorded_untouched.source _ (staged.copied begun)

end Returned

end Tracked

/-! ## One recording -/

def Repeats (P : Platform) (w : World) (call : Call) : Prop :=
  ∃ recording ∈ (w.revisions call.source).stages.bind Stages.recording,
    call.timeline.map (P.sha256 <| .raw ·) = some recording.timelineSha256 ∧
      call.audio.map (P.sha256 <| .raw ·.bytes) = some recording.audioSha256

/-- A recording that is on record is alone in its revision; a new one finds no audio of another name. -/
def OneRecording (P : Platform) (w : World) (call : Call) : Prop :=
  call.timeline ≠ none →
    (Repeats P w call → (w.revisions call.source).audio.length = 1) ∧
      (¬ Repeats P w call → ∀ audio ∈ call.audio, ∀ file ∈ (w.revisions call.source).audio, file.1 = audio.name)

section One
variable {w w₁ w₂ w' : World} {call : Call} {stages stages' : Stages} {recording : Recording} {status : Status} {pid : ℕ}

theorem Validated.verified_iff_length (validated : Validated P call stages recording w)
    (tracked : Tracked P call.source w) : verifiedCompletedStoryboard P (w.revisions call.source)
    stages = true ↔ (w.revisions call.source).audio.length = 1 := by
  rw [verified_iff validated.own]
  have there : recording ∈ (w.revisions call.source).stages.bind Stages.recording := by
    rw [validated.recorded]
    exact validated.own
  constructor
  · rintro ⟨name, bytes, alone, -⟩
    rw [alone]
    rfl
  · intro one
    obtain ⟨⟨name, bytes⟩, alone⟩ := length_eq_one_iff.mp one
    obtain ⟨file, among, audioSha256⟩ := tracked.audio recording there
    rw [alone, mem_singleton] at among
    subst among
    exact ⟨name, bytes, alone, tracked.timeline recording there, validated.sound.revision.storyboardQa recording there,
      validated.sound.revision.scenes recording there, audioSha256⟩

theorem length_write {files : List (String × Bytes)} {name : String} {bytes : Bytes} :
    (files.filter (fun file => file.1 ≠ name) ++ [(name, bytes)]).length = 1 ↔ ∀ file ∈ files, file.1 = name := by
  rw [length_append, length_singleton, add_eq_right, length_eq_zero_iff, filter_eq_nil_iff]
  simp

theorem Begun.audio (begun : Begun P w call stages w₁) :
    (w₁.revisions call.source).audio = (w.revisions call.source).audio := begun.untouched.audio

theorem Begun.repeats_iff {timelineRaw : Bytes} {prepared : Prepared} (free : CollisionFree P)
    (begun : Begun P w call stages w₁) (timed : call.timeline = some timelineRaw)
    (is : prepare P call timelineRaw (w₁.revisions call.source) stages = .ok prepared) :
    Repeats P w call ↔ stages.recording.map Recording.inputSha256 = some (P.digestInput prepared.input) := by
  obtain ⟨made, editorial, filed⟩ := begun.editorial
  obtain ⟨checked, rfl, given⟩ := checked_of_prepare filed is
  obtain ⟨_, script, scripted, -, input⟩ := checked.made
  unfold Repeats
  rw [timed, given, map_some, map_some]
  rcases begun.origin with ⟨-, missing, storyboard⟩ | ⟨now, before, -⟩
  · constructor
    · rintro ⟨recording, there, -⟩
      rw [missing] at there
      cases there
    · intro same
      simp [Stages.recording, storyboard] at same
  · constructor
    · rintro ⟨recording, there, timeline, audio⟩
      rw [before] at there
      have own : stages.recording = some recording := there
      obtain ⟨earlier, _, _, checked', -, rfl⟩ := begun.sound.revision.backed recording (by rw [now]; exact own)
      obtain ⟨_, script', scripted', -, input'⟩ := checked'.made
      cases scripted.symm.trans scripted'
      rw [own, map_some, some_inj]
      have same : earlier.input = prepared.input := by
        simp only [recording, some_inj] at timeline audio
        rw [input'] at timeline audio
        rw [input', input, StoryboardInput.mk.injEq]
        exact ⟨timeline.symm, audio.symm, rfl, rfl⟩
      exact congrArg P.digestInput same
    · intro same
      obtain ⟨recording, report, attempts, own, -, rfl⟩ := begun.repeated free is same
      refine ⟨_, by rw [before]; exact own, ?_, ?_⟩
      · simp only [recording, input]
      · simp only [recording, input]

theorem Staged.alone_iff (free : CollisionFree P) (staged : Staged P call stages w₁ stages' .validated w₂)
    (begun : Begun P w call stages w₁) (timed : call.timeline ≠ none) :
    (w₂.revisions call.source).audio.length = 1 ↔ OneRecording P w call := by
  obtain ⟨made, editorial, filed⟩ := begun.editorial
  unfold OneRecording
  rw [forall_prop_of_true timed]
  cases staged with
  | verified silent => exact absurd silent timed
  | recorded given is same =>
    have repeats := (begun.repeats_iff free given is).mpr same
    simp only [repeats, forall_true_left, not_true_eq_false, false_implies, and_true, begun.audio]
  | @made timelineRaw prepared report given is differs stored =>
    have new : ¬ Repeats P w call := fun repeats => differs ((begun.repeats_iff free given is).mp repeats)
    obtain ⟨-, -, audio⟩ := checked_of_prepare filed is
    have files : ((w₁.storyboard P call.source prepared report).revisions call.source).audio =
        (w.revisions call.source).audio.filter (fun file => file.1 ≠ prepared.audio.name) ++
          [(prepared.audio.name, prepared.audio.bytes)] := by
      rw [← begun.audio]
      simp only [storyboard, write_revisions_self]
      rfl
    rw [files, length_write]
    simp only [new, false_implies, not_false_eq_true, forall_true_left, true_and, audio, mem_some_iff,
      forall_eq']

theorem Ran.tracked (ran : Ran P w) (source : Bytes) : Tracked P source w := by
  induction ran generalizing source with
  | start => exact .started
  | @call w w' call pid outcome before test ends ih =>
    have own : Tracked P call.source w' := by
      cases outcome with
      | error error => exact (ih call.source).raises ends
      | ok status =>
        obtain ⟨-, stages, w₁, stages', w₂, advanced⟩ := (ih call.source).advanced ends
        exact advanced.tracked (ih call.source)
    by_cases same : source = call.source
    · rwa [same]
    · have others := Stops.others ends.stops same
      have other := ih source
      refine ⟨own.document, ?_, ?_, ?_, ?_, ?_⟩
      · rw [others]; exact other.copy
      · rw [others]; exact other.editorial
      · rw [others]; exact other.backed
      · rw [others]; exact other.timeline
      · rw [others]; exact other.audio

theorem Accepts.without_timeline (accepts : Accepts P call) : Accepts P ⟨call.source, call.mode, none, none⟩ where
  sourced := accepts.sourced
  made := accepts.made
  approved := accepts.approved
  storyboards _ _ _ _ _ := ⟨fun _ => rfl, nofun⟩

theorem Advanced.compilable_iff (free : CollisionFree P) (tracked : Tracked P call.source w)
    (advanced : Advanced P w call .validated stages w₁ stages' w₂ w') (test : call.mode = .test)
    (accepts : Accepts P call) : Compilable C P call w' ↔ OneRecording P w call ∧ SourceTold C P call.source := by
  obtain ⟨recording, validated⟩ := advanced.validated free
  rw [validated.compilable_iff free test accepts.without_timeline]
  refine and_congr_left fun _ => ?_
  have final := advanced.tracked tracked
  obtain ⟨-, begun, staged, rfl⟩ := advanced
  have untouched :
      Untouched (w₂.revisions call.source) ((w₂.recorded P call stages' .validated).revisions call.source) :=
    recorded_untouched
  cases timed : call.timeline with
  | none =>
    have one : OneRecording P w call := fun given => absurd timed given
    refine iff_of_true ?_ one
    rw [verified_congr untouched]
    cases staged with
    | verified _ _ verified => exact verified
    | recorded given => rw [timed] at given; cases given
    | made given => rw [timed] at given; cases given
  | some timelineRaw =>
    rw [validated.verified_iff_length final, untouched.audio]
    exact staged.alone_iff free begun (by rw [timed]; nofun)

end One

/-! ### Two recordings of one word -/

deriving instance Encodable for Asset, Manifest, FrameSpec, SourceBinding, CompiledEpisode, ReceiptBody

theorem upper_of_blank {c : Char} (blank : c.isWhitespace = true) : c.toUpper ≠ 'T' := by
  simp only [isWhitespace, Bool.or_eq_true, decide_eq_true_eq] at blank
  rcases blank with (((rfl | rfl) | rfl) | rfl) <;> decide

def compiler : Compiler where
  checksumEpisode := digest
  checksumManifest := digest
  digestReceipt := digest
  policySha256 := "policy"
  blank text := text.toList.all isWhitespace
  labelled text := decide ("TEST".toList <:+: text.toList.map toUpper)
  labelled_test text := by
    rw [decide_eq_true_eq, String.toList_append, map_append]
    exact ⟨[], text.toList.map toUpper, rfl⟩
  labelled_not_blank text labelled := by
    have inside := of_decide_eq_true labelled
    obtain ⟨c, there, capital⟩ := mem_map.mp (inside.subset (show 'T' ∈ "TEST".toList by decide))
    constructor
    · rw [Bool.eq_false_iff]
      exact fun blank => upper_of_blank (all_eq_true.mp blank c there) capital
    · rintro rfl
      cases there

section Take
variable {w w' : World} (seconds : ℕ) (suffix : String) (pid : ℕ)

theorem validated_take (sound : Sound platform (take seconds suffix).source w) (positive : 0 < seconds) :
    ∃ w', (advance platform (take seconds suffix)).Ends (M := machine) () pid w (.ok .validated) w' := by
  obtain ⟨status, w', ends⟩ : Returns pid (advance platform (take seconds suffix)) w :=
    (accepts_take seconds suffix positive).returns sound
  obtain ⟨stages, w₁, stages', w₂, advanced⟩ := sound.advanced ends
  cases advanced.staged with
  | verified timed => cases timed
  | required timed => cases timed
  | recorded => exact ⟨w', ends⟩
  | made => exact ⟨w', ends⟩

theorem audio_take (ends : (advance platform (take seconds suffix)).Ends (M := machine)
    () pid (started platform) (.ok .validated) w') : ∃ file ∈ (w'.revisions (take seconds suffix).source).audio,
    file.1 = Audio.name ⟨replicate seconds 0, suffix⟩ := by
  obtain ⟨-, stages, w₁, stages', w₂, -, begun, staged, rfl⟩ := Tracked.started.advanced ends
  rw [recorded_untouched.audio]
  cases staged with
  | verified timed => cases timed
  | recorded timed is same =>
    rcases begun.origin with ⟨-, -, missing⟩ | ⟨-, there, -⟩
    · simp [Stages.recording, missing] at same
    · cases there
  | @made timelineRaw prepared report timed is differs stored =>
    obtain ⟨made, editorial, filed⟩ := begun.editorial
    obtain ⟨-, -, given⟩ := checked_of_prepare filed is
    have audio : (⟨replicate seconds 0, suffix⟩ : Audio) = prepared.audio := some.inj given
    refine ⟨(prepared.audio.name, prepared.audio.bytes), ?_, by rw [audio]⟩
    simp only [storyboard, write_revisions_self, apply]
    exact mem_append_right _ mem_cons_self

end Take

theorem replaced_not_compilable : ¬ ∀ C P, CollisionFree P → ∀ w, Ran P w → ∀ call : Call, call.mode = .test →
    ∀ pid w', (advance P call).Ends (M := machine) () pid w (.ok .validated) w' → Compilable C P call w' := by
  intro claimed
  have free := platform_collisionFree
  obtain ⟨w₁, first⟩ := validated_take 1 ".wav" 0 .started one_pos
  have ran : Ran platform w₁ := .call .start rfl first
  have tracked := ran.tracked (take 2 ".mp3").source
  obtain ⟨-, stages, _, stages', _, advanced⟩ := Tracked.started.advanced first
  obtain ⟨recording, validated⟩ := advanced.validated free
  obtain ⟨w₂, second⟩ := validated_take 2 ".mp3" 0 validated.sound two_pos
  obtain ⟨-, _, _, _, _, advanced'⟩ := tracked.advanced second
  have compilable := claimed compiler platform free w₁ ran _ rfl 0 w₂ second
  have one := ((advanced'.compilable_iff free tracked rfl (accepts_take 2 ".mp3" two_pos)).mp compilable).1 nofun
  by_cases repeats : Repeats platform w₁ (take 2 ".mp3")
  · obtain ⟨recording', there, timeline, -⟩ := repeats
    have recorded : (w₁.revisions (take 2 ".mp3").source).stages = some stages' := validated.recorded
    rw [recorded] at there
    cases validated.own.symm.trans there
    obtain ⟨prepared, report, attempts, raw, -, checked, rfl⟩ := validated.evidence _ rfl
    obtain ⟨_, _, _, _, input⟩ := checked.made
    simp only [recording, input, take, map_some, some_inj, raw] at timeline
    cases Content.raw.inj (free.sha256 timeline)
  · obtain ⟨file, there, name⟩ := audio_take 1 ".wav" 0 first
    have same := one.2 repeats _ rfl file there
    rw [name] at same
    revert same
    decide

section Ran
variable {w w' : World} {call : Call} {pid : ℕ}

/-- A validated revision compiles, and binds the evidence of its last call, exactly if no audio of another recording
is left beside that of the last one. -/
theorem Ran.compilable_iff_one (free : CollisionFree P) (ran : Ran P w) (test : call.mode = .test)
    (ends : (advance P call).Ends (M := machine) () pid w (.ok .validated) w') :
    Compilable C P call w' ↔ OneRecording P w call ∧ SourceTold C P call.source := by
  have tracked := ran.tracked call.source
  obtain ⟨sound, stages, w₁, stages', w₂, advanced⟩ := tracked.advanced ends
  exact advanced.compilable_iff free tracked test (sound.accepts free ends)

end Ran

theorem compilable_take : ∃ w', (advance platform (take 1 ".wav")).Ends (M := machine) () 0 (started platform)
    (.ok .validated) w' ∧ Compilable compiler platform (take 1 ".wav") w' := by
  obtain ⟨w', ends⟩ := validated_take 1 ".wav" 0 .started one_pos
  have one : OneRecording platform (started platform) (take 1 ".wav") := by
    refine fun _ => ⟨?_, ?_⟩
    · rintro ⟨_, ⟨⟩, -⟩
    · rintro - - - _ ⟨⟩
  have told : SourceTold compiler platform (take 1 ".wav").source := by
    rintro _ _ ⟨⟩
    exact ⟨by decide, trivial⟩
  exact ⟨w', ends, (Ran.compilable_iff_one platform_collisionFree .start rfl ends).mpr ⟨one, told⟩⟩

end VideoPoster.Preproduction.Advance
