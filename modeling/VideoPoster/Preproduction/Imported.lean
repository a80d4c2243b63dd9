import VideoPoster.Preproduction.Import

/-!
# When the import is all or nothing
-/

namespace VideoPoster.Preproduction
open Python Documents Interleaving List Prog Evidence Act Receipt

variable {P : Platform} {E : Evidence P} {requestId : RequestId}

/-! ## Single actions -/

variable {message : String}

variable {condition : Prop}

theorem check_eq [Decidable condition] (holds : condition) : check condition message = .pure () := by
  unfold check
  rw [require, if_pos holds]
  rfl

variable {w' : World} {u : Unit}

variable {oracle : (machine P).Oracle} {pid : ℕ} {w : World}

theorem ends_check [Decidable condition] :
    (check condition message).Ends oracle pid w (.ok u) w' ↔ condition ∧ w' = w := by
  unfold check
  rw [ends_ofExcept_iff, eq_comm, require_eq_ok]

variable {action : Act}

variable {value : action.Value}

theorem ends_perform : (perform action).Ends
    oracle pid w (.ok value) w' ↔ oracle.failure action = none ∧ serve P oracle w action = (w', .ok value) := by
  unfold perform
  rw [ends_request_iff]
  cases failure : oracle.failure action with
  | some error =>
    simp only [machine, failure, Option.some.injEq, Prod.mk.injEq, id_eq, reduceCtorEq, false_and, iff_false]
    rintro ⟨response, ⟨-, rfl⟩, is⟩
    cases is
  | none =>
    simp only [machine, failure, Option.some.injEq, id_eq, true_and]
    constructor
    · rintro ⟨response, served, rfl⟩
      exact served
    · exact fun served => ⟨_, served, rfl⟩

theorem quiet_perform (served : serve P quiet w action = (w', .ok value)) :
    (perform action).Ends (M := machine P) quiet pid w (.ok value) w' :=
  ends_perform.2 ⟨rfl, served⟩

variable {name : Text}

theorem serve_write {oracle : Oracle} {content : Content} : serve P oracle w (.write name content) = (w',
    .ok u) ↔ P.creatable name = true ∧ name ∉ ((w.stagings.head?).getD []).map Prod.fst ∧ w' = w.put name content := by
  simp only [serve]
  by_cases creatable : P.creatable name = true
  · by_cases there : name ∈ ((w.stagings.head?).getD []).map Prod.fst
    · rw [if_neg (not_not.mpr creatable), if_pos there]
      exact ⟨fun is => (by cases (Prod.mk.inj is).2), fun ⟨_, fresh, _⟩ => absurd there fresh⟩
    · rw [if_neg (not_not.mpr creatable), if_neg there]
      exact ⟨fun is => ⟨creatable, there, (Prod.mk.inj is).1.symm⟩, fun ⟨_, _, is⟩ => by rw [is]⟩
  · rw [if_pos creatable]
    exact ⟨fun is => (by cases (Prod.mk.inj is).2), fun ⟨takes, _⟩ => absurd takes creatable⟩

theorem only_perform (other : action ≠ .replace) : (perform action).Only (· ≠ replace) :=
  ⟨other, fun _ => .ofExcept _⟩

variable {response : Result action.Value}

theorem packet_of_exec (other : action ≠ .replace)
    (executed : (machine P).exec oracle pid w action = some (w', response)) : w'.packet = w.packet := by
  simp only [machine] at executed
  split at executed
  · cases executed
    cases action <;> rfl
  · cases action with
    | replace => exact absurd rfl other
    | write name content =>
      simp only [serve, Option.some.injEq] at executed
      split_ifs at executed <;> cases executed <;> rfl
    | _ =>
      cases executed
      rfl

theorem packet_stays {packet : Packet} (executed : (machine P).exec oracle pid w action = some (w', response))
    (there : w.packet = some packet) : w'.packet = some packet := by
  by_cases replaces : action = .replace
  · subst replaces
    simp only [machine] at executed
    split at executed
    · cases executed
      exact there
    · simp only [serve, there, Option.some.injEq] at executed
      cases executed
      exact there
  · rw [packet_of_exec replaces executed, there]

theorem stops_packet {α : Type} {program : Program α} {pending : Option Act} {packet : Packet} (stops : program.Stops
    oracle pid w w' pending) (there : w.packet = some packet) : w'.packet = some packet :=
  Prog.Stops.keeps (P := fun w : World => w.packet = some packet) stops packet_stays there

variable {rest : List Packet}

variable {staging : Packet}

theorem serve_replace {oracle : Oracle} (staged : w.stagings = staging :: rest) : serve P oracle w .replace =
      if w.packet.isNone then (⟨some staging, rest⟩, .ok ()) else (w, .error (.os "Directory not empty")) := by
  cases packet : w.packet <;> simp [serve, packet, staged]

/-! ## Programs that write files into the new directory -/

structure Writes {α : Type} (program : Program α) (value : α) (files : Packet) : Prop where
  only : program.Only (· ≠ replace)
  sound : ∀ {oracle : (machine P).Oracle} {pid : ℕ} {w w' : World} {x : α} {staging : Packet} {rest : List Packet},
    program.Ends oracle pid w (.ok x) w' → w.stagings = staging :: rest →
      x = value ∧ w'.stagings = (staging ++ files) :: rest ∧ ∀ file ∈ files, P.creatable file.1 = true
  complete : ∀ (pid : ℕ) {w : World} {staging : Packet} {rest : List Packet}, w.stagings = staging :: rest →
    (∀ file ∈ files, P.creatable file.1 = true) → ((staging ++ files).map Prod.fst).Nodup →
      ∃ w', program.Ends (M := machine P) quiet pid w (.ok value) w' ∧ w'.stagings = (staging ++ files) :: rest

section Writes
variable {α β : Type} {program : Program α} {next : α → Program β} {x : α} {y : β} {files more : Packet}

theorem Writes.pure {x : α} : Writes (P := P) (Prog.pure x : Program α) x [] where
  only := trivial
  sound ends there := by
    obtain ⟨is, rfl⟩ := ends_pure_iff.mp ends
    rw [append_nil]
    exact ⟨Except.ok.inj is, there, nofun⟩
  complete _ {w _ _} there _ _ := by
    rw [append_nil]
    exact ⟨w, .pure x, there⟩

theorem Writes.bind (first : Writes (P := P) program x files) (rest : Writes (P := P) (next x) y more)
    (only : ∀ value, (next value).Only (· ≠ replace)) :
    Writes (P := P) (program.bind next) y (files ++ more) where
  only := first.only.bind only
  sound ends there := by
    obtain ⟨value, w₁, ended, continued⟩ := ends_bind_iff.mp ends
    obtain ⟨rfl, staged, creatable⟩ := first.sound ended there
    obtain ⟨is, all, later⟩ := rest.sound continued staged
    rw [append_assoc] at all
    exact ⟨is, all, fun file member => (mem_append.mp member).elim (creatable file) (later file)⟩
  complete pid {w staging _} there creatable distinct := by
    rw [← append_assoc] at distinct ⊢
    have start : ((staging ++ files).map Prod.fst).Nodup := by
      rw [map_append] at distinct
      exact (nodup_append.mp distinct).1
    obtain ⟨w₁, ended, staged⟩ := first.complete pid there
      (fun file member => creatable file (mem_append_left _ member)) start
    obtain ⟨w₂, continued, all⟩ := rest.complete pid staged
      (fun file member => creatable file (mem_append_right _ member)) distinct
    exact ⟨w₂, ended.bind continued, all⟩

theorem Writes.write (name : Text) (content : Content) :
    Writes (P := P) (perform (.write name content)) () [(name, content)] where
  only := only_perform nofun
  sound ends there := by
    obtain ⟨creatable, -, rfl⟩ := serve_write.1 (ends_perform.1 ends).2
    refine ⟨rfl, ?_, ?_⟩
    · simp only [World.put, there, modifyHead_cons]
    · rintro file member
      rw [mem_singleton.mp member]
      exact creatable
  complete pid {w staging rest} there creatable distinct := by
    refine ⟨w.put name content, quiet_perform (serve_write.2 ⟨creatable _ (.head _), ?_, rfl⟩), ?_⟩
    · rw [there, head?_cons, Option.getD_some]
      rw [map_append] at distinct
      exact fun member => (nodup_append.mp distinct).2.2 name member name (.head _) rfl
    · simp only [World.put, there, modifyHead_cons]

theorem Writes.check {condition : Prop} [Decidable condition] (holds : condition) :
    Writes (P := P) (check condition message) () [] := by
  rw [check_eq holds]
  exact .pure

theorem Writes.still {value : action.Value} (other : action ≠ .replace)
    (served : ∀ oracle w, serve P oracle w action = (w, .ok value)) :
    Writes (P := P) (perform action) value [] where
  only := only_perform other
  sound {oracle _ w _ _ _ _} ends there := by
    have did := (ends_perform.1 ends).2
    rw [served] at did
    cases did
    rw [append_nil]
    exact ⟨rfl, there, nofun⟩
  complete _ {w _ _} there _ _ := by
    rw [append_nil]
    exact ⟨w, quiet_perform (served quiet w), there⟩

end Writes

theorem writes_evidence (names : List EvidenceName) :
    Writes (P := P) (writeEvidence E names) () (names.map fun name => (evidenceFile name, .raw (E.raw name))) := by
  induction names with
  | nil => exact .pure
  | cons name names ih => exact (Writes.write _ _).bind ih fun _ => ih.only

def contents (files : List File) : Packet := files.map fun file => (file.1, .raw file.2.1)

theorem writes_asset (index : ℕ) {asset : Asset} (verified : P.sha256 (.raw (E.files asset.path)) = asset.sha256) :
    Writes (P := P) (writeAsset E index asset) () (contents (E.copy index asset ⟨[], [], none⟩).files) := by
  have binding : Writes (P := P) (writeBinding E index asset) () (contents ((E.copy index asset ⟨[], [], none⟩).files.tail)) := by
    unfold writeBinding copy
    split_ifs
    · exact .write _ _
    · exact .pure
  have same : contents (E.copy index asset ⟨[], [], none⟩).files =
      [(assetFile index asset.name, .raw (E.files asset.path))] ++
        ([] ++ contents (E.copy index asset ⟨[], [], none⟩).files.tail) := by
    unfold copy
    split_ifs <;> rfl
  rw [same]
  exact (Writes.write _ _).bind ((Writes.check verified).bind binding fun _ => binding.only)
    fun _ => .ofExcept_bind fun _ _ => binding.only

theorem writes_assets {index : ℕ} {assets : List Asset} {copied : Copied}
    (verified : ∀ asset ∈ assets, P.sha256 (.raw (E.files asset.path)) = asset.sha256) : Writes (P := P)
    (writeAssets E index assets copied) (E.copyAll index assets copied) (contents (E.assetFiles index assets)) := by
  induction assets generalizing index copied with
  | nil => exact .pure
  | cons asset assets ih =>
    have later : Writes (P := P) (writeAssets E (index + 1) assets (E.copy index asset copied)) _ _ :=
      ih fun asset member => verified asset (.tail _ member)
    have both : Writes (writeAssets E index (asset :: assets) copied) _ _ :=
      (writes_asset index (verified asset (.head _))).bind later fun _ => later.only
    rwa [contents, contents, ← map_append] at both

theorem writes_files : Writes (P := P) (writeFiles E) E.copied (contents E.copied.files) := by
  have assets : Writes (P := P) (writeAssets E 1 (E.assets ++ [E.sheet]) E.before) E.copied _ :=
    writes_assets E.verified
  have mkdir : Writes (P := P) (perform .mkdir) () [] := .still nofun fun _ _ => rfl
  have manifest : Writes ((perform (.write manifestJson (.raw E.manifestRaw))).bind fun _ =>
      (perform .mkdir).bind fun _ => writeAssets E 1 (E.assets ++ [E.sheet]) E.before) _ _ :=
    (Writes.write _ _).bind (mkdir.bind assets fun _ => assets.only) fun _ => mkdir.only.bind fun _ => assets.only
  have all := (writes_evidence (E := E) evidenceNames).bind manifest fun _ => manifest.only
  have same : contents E.copied.files = (evidenceNames.map fun name => (evidenceFile name, Content.raw (E.raw name))) ++
      ([(manifestJson, .raw E.manifestRaw)] ++ ([] ++ contents (E.assetFiles 1 (E.assets ++ [E.sheet])))) := by
    rw [E.copied_files]
    simp [contents, evidenceFiles]
  rw [same]
  exact all

/-! ## Names that can be written -/

theorem assetNames_eq (index : ℕ) (assets : List Asset) :
    E.assetNames index assets = (E.assetFiles index assets).map Prod.fst := by
  induction assets generalizing index with
  | nil => rfl
  | cons asset assets ih =>
    rw [assetNames, assetFiles, map_append, ih, copy]
    split_ifs <;> rfl

theorem mem_names (requestId : RequestId) : name ∈ E.names ↔ name ∈ (E.packet requestId).map Prod.fst := by
  have evidence : E.evidenceFiles.map Prod.fst = evidenceNames.map evidenceFile := by
    rw [evidenceFiles, map_map]
    rfl
  rw [E.names_packet, E.copied_files, names, assetNames_eq, map_append, map_append, evidence]
  simp only [mem_append, map_cons, map_nil, mem_cons, not_mem_nil, or_false]
  tauto

theorem surrogate_evidenceFile (name : EvidenceName) : (evidenceFile name).any surrogate = false := by
  cases name <;> decide

theorem surrogate_assetFile (index : ℕ) (name : Text) : (assetFile index name).any surrogate = name.any surrogate := by
  have digits : (naturalText index).any surrogate = false := by
    rw [any_eq_false]
    intro c member
    have digit := isDigit_naturalText member
    simp only [isDigit, Bool.decide_and, Bool.and_eq_true, decide_eq_true_eq] at digit
    have upper : c.val ≤ 57 := digit.2
    simp only [surrogate, Bool.decide_and, Bool.and_eq_true, decide_eq_true_eq, not_and]
    omega
  rw [assetFile, any_append, any_append, any_cons, digits]
  rfl

theorem surrogate_bindingName (none : name.any surrogate = false) : (bindingName name).any surrogate = false := by
  rw [any_eq_false] at none ⊢
  intro c member
  rcases mem_append.mp member with own | suffix
  · exact none c ((stem_sublist name).subset own)
  · have all : (text ".binding.json").all (fun c => !surrogate c) = true := by decide
    simpa using all_eq_true.mp all c suffix

theorem encodable_iff : (E.finalIndex requestId).encodable = true ↔
    ∀ asset ∈ E.assets ++ [E.sheet], asset.name.any surrogate = false := by
  have listed : (E.finalIndex requestId).encodable = true ↔
      ∀ path ∈ E.entries.map Entry.path ++ E.copied.assets.map AssetBinding.path ++
        [E.sheetReference.path, E.sheetReference.bindingPath], path.any surrogate = false := by
    simp only [Index.encodable, all_eq_true, Bool.not_eq_true']
    exact Iff.rfl
  rw [listed]
  constructor
  · intro all asset member
    obtain ⟨number, ⟨kind, file⟩, -⟩ := E.mem_of_asset member 1
    have entry := E.mem_entries.2 ⟨_, E.mem_copied_of_asset file, rfl⟩
    have own := all _ (mem_append_left _ (mem_append_left _ (mem_map_of_mem entry)))
    rwa [show (entryOf _).path = assetFile number asset.name from rfl, surrogate_assetFile] at own
  · intro clean path member
    have last : E.sheet ∈ E.assets ++ [E.sheet] := by simp
    rcases mem_append.mp member with listed | sheet
    · rcases mem_append.mp listed with entry | item
      · obtain ⟨file, among, rfl⟩ := mem_map.mp (E.paths_entries.mem_iff.mp entry)
        rcases E.mem_copied among with ⟨name, rfl⟩ | rfl | asset
        · exact surrogate_evidenceFile name
        · exact (by decide : manifestJson.any surrogate = false)
        · obtain ⟨number, asset, -, member, is | ⟨is, -⟩⟩ := E.mem_assetFiles asset
          · rw [is, surrogate_assetFile]
            exact clean asset member
          · rw [is, surrogate_assetFile]
            exact surrogate_bindingName (clean asset member)
      · obtain ⟨item, among, rfl⟩ := mem_map.mp item
        rw [E.copied_assets] at among
        obtain ⟨asset, member, -, -, -, number, is⟩ := E.mem_assetBindings among
        rw [is, surrogate_assetFile]
        exact clean asset member
    · rcases mem_pair.mp sheet with rfl | rfl
      · exact (surrogate_assetFile _ _).trans (clean _ last)
      · exact (surrogate_assetFile _ _).trans (surrogate_bindingName (clean _ last))

theorem writable_iff (requestId : RequestId) : E.Writable ↔
    (∀ file ∈ E.packet requestId, P.creatable file.1 = true) ∧ (E.finalIndex requestId).encodable = true := by
  rw [encodable_iff]
  constructor
  · exact fun writable => ⟨fun file member => writable.names _ ((mem_names requestId).mpr (mem_map_of_mem member)),
      writable.encodable⟩
  · rintro ⟨names, encodable⟩
    refine ⟨fun name member => ?_, encodable⟩
    obtain ⟨file, among, rfl⟩ := mem_map.mp ((mem_names requestId).mp member)
    exact names file among

/-! ## The new directory -/

theorem writes_documents (encodable : (E.finalIndex requestId).encodable = true) :
    Writes (P := P) (writeDocuments E requestId E.copied) ()
      [(indexJson, .index (E.finalIndex requestId)), (receiptJson, .receipt (E.finalReceipt requestId))] := by
  unfold writeDocuments
  rw [E.copied_sheet]
  have documents := (Writes.write (P := P) indexJson (.index (E.finalIndex requestId))).bind
    (Writes.write receiptJson (.receipt (E.finalReceipt requestId)))
    fun _ => (Writes.write (P := P) receiptJson _).only
  exact (Writes.check encodable).bind documents fun _ => documents.only

theorem encodable_of_ends (ends : (writeDocuments E
    requestId E.copied).Ends oracle pid w (.ok u) w') : (E.finalIndex requestId).encodable = true := by
  unfold writeDocuments at ends
  rw [E.copied_sheet] at ends
  obtain ⟨_, _, present, rest⟩ := ends_bind_iff.mp ends
  obtain ⟨is, rfl⟩ := ends_ofExcept_iff.mp present
  cases is
  obtain ⟨_, _, checked, -⟩ := ends_bind_iff.mp rest
  exact (ends_check.1 checked).1

theorem only_writeDocuments (copied : Copied) : (writeDocuments E requestId copied).Only (· ≠ replace) :=
  .ofExcept_bind fun _ _ => .ofExcept_bind fun _ _ =>
    (Writes.write (P := P) indexJson _).only.bind fun _ => (Writes.write (P := P) receiptJson _).only

theorem writes_fill (encodable : (E.finalIndex requestId).encodable = true) :
    Writes (P := P) (fill E requestId) () (E.packet requestId) := by
  have sync (directory : String) : Writes (P := P) (perform (.sync directory)) () [] := .still nofun fun _ _ => rfl
  have syncs : Writes (P := P) ((perform (.sync "evidence")).bind fun _ =>
      (perform (.sync "assets")).bind fun _ => perform (.sync "")) () [] :=
    (sync "evidence").bind ((sync "assets").bind (sync "") fun _ => (sync "").only)
      fun _ => (sync "assets").only.bind fun _ => (sync "").only
  exact writes_files.bind ((writes_documents encodable).bind syncs fun _ => syncs.only)
    fun copied => (only_writeDocuments copied).bind fun _ => syncs.only

theorem encodable_of_fill (there : w.stagings = staging :: rest) (ends :
    (fill E requestId).Ends oracle pid w (.ok u) w') : (E.finalIndex requestId).encodable = true := by
  obtain ⟨copied, w₁, files, later⟩ := ends_bind_iff.mp ends
  obtain ⟨rfl, -, -⟩ := writes_files.sound files there
  obtain ⟨_, _, documents, -⟩ := ends_bind_iff.mp later
  exact encodable_of_ends documents

theorem only_sweep (count : ℕ) : (sweep count).Only (· ≠ replace) := by
  induction count with
  | zero => trivial
  | succ count ih => exact (only_perform (by nofun)).bind fun _ => ih

theorem only_stage : (stage E requestId).Only (· ≠ replace) := by
  have files := writes_files (E := E)
  refine (only_perform (by nofun)).bind fun count => ?_
  refine (only_sweep count).bind fun _ => ?_
  refine (only_perform (by nofun)).bind fun _ => ?_
  exact files.only.bind fun copied => (only_writeDocuments copied).bind fun _ =>
    (only_perform (by nofun)).bind fun _ => (only_perform (by nofun)).bind fun _ => only_perform (by nofun)

theorem sound_stage (ends : (stage E requestId).Ends
    (M := machine P) oracle pid w (.ok u) w') : E.Writable ∧ ∃ rest, w'.stagings = E.packet requestId :: rest := by
  obtain ⟨_, w₁, -, later⟩ := ends_bind_iff.mp ends
  obtain ⟨_, w₂, -, later⟩ := ends_bind_iff.mp later
  obtain ⟨_, w₃, made, filled⟩ := ends_bind_iff.mp later
  have is := (ends_perform.1 made).2
  cases is
  have encodable := encodable_of_fill rfl filled
  obtain ⟨-, staged, creatable⟩ := (writes_fill encodable).sound filled rfl
  exact ⟨(writable_iff requestId).mpr ⟨creatable, encodable⟩, _, staged⟩

theorem ends_sweep (pid count : ℕ) (w : World) :
    ∃ w', (sweep count).Ends (M := machine P) quiet pid w (.ok ()) w' ∧ w'.packet = w.packet := by
  induction count generalizing w with
  | zero => exact ⟨w, .pure (), rfl⟩
  | succ count ih =>
    obtain ⟨w', ends, same⟩ := ih { w with stagings := w.stagings.tail }
    have removed : (perform .rmtree).Ends (M := machine P) quiet pid w (.ok ())
      { w with stagings := w.stagings.tail } := quiet_perform rfl
    exact ⟨w', removed.bind ends, same⟩

theorem complete_stage (writable : E.Writable) (pid : ℕ) (w : World) : ∃ w' rest,
    (stage E requestId).Ends (M := machine P) quiet pid w (.ok ()) w' ∧ w'.stagings = E.packet requestId :: rest := by
  have listed : (perform .stale).Ends (M := machine P) quiet pid w (.ok w.stagings.length) w := quiet_perform rfl
  obtain ⟨w₁, swept, -⟩ := ends_sweep (P := P) pid w.stagings.length w
  have made : (perform .mkdtemp).Ends (M := machine P) quiet pid w₁ (.ok ())
    { w₁ with stagings := [] :: w₁.stagings } := quiet_perform rfl
  have start : ({ w₁ with stagings := [] :: w₁.stagings } : World).stagings = [] :: w₁.stagings := rfl
  obtain ⟨w', filled, staged⟩ :=
    (writes_fill ((writable_iff requestId).mp writable).2).complete pid start
      ((writable_iff requestId).mp writable).1 (E.nodup_packet requestId)
  exact ⟨w', w₁.stagings, listed.bind (swept.bind (made.bind filled)), staged⟩

/-! ## What a call leaves -/

theorem only_realImportEvidence : (realImportEvidence E requestId).Only (· ≠ replace) :=
  (only_perform (by nofun)).bind fun _ => .ofExcept_bind fun _ _ => only_perform (by nofun)

def Kept (requestId : RequestId) (S : Set (Evidence P)) (w : World) : Prop :=
  ∀ packet, w.packet = some packet → ∃ E ∈ S, packet = E.packet requestId ∧ E.Writable

section Kept
variable {S : Set (Evidence P)} {oracle : (machine P).Oracle} {pid : ℕ} {w : World} {α : Type} {program : Program α}

theorem Kept.of_packet (kept : Kept requestId S w) (same : w'.packet = w.packet) :
    Kept requestId S w' := fun packet there => kept packet (same.symm.trans there)

theorem Kept.stays (kept : Kept requestId S w) (only : program.Only (· ≠ replace)) :
    program.Stays oracle pid (fun w' _ => Kept requestId S w') w :=
  Prog.Only.stays (P := Kept requestId S)
    (fun other executed before => Kept.of_packet before (packet_of_exec other executed)) only kept

theorem publish_stays (among : E ∈ S) (writable : E.Writable)
    (staged : w.stagings = E.packet requestId :: rest) (kept : Kept requestId S w) :
    (publish (P := P) requestId).Stays (M := machine P) oracle pid (fun w' _ => Kept requestId S w') w := by
  have later : ((perform (.sync "..")).bind fun _ => (perform .look).bind fun packet =>
      (ofExcept (verifyRealPreproductionImport P packet requestId)).bind fun verified =>
        (Prog.pure verified.report : Program Report)).Only (· ≠ replace) :=
    (only_perform (by nofun)).bind fun _ => (only_perform (by nofun)).bind fun _ => .ofExcept_bind fun _ _ => trivial
  have published : Kept requestId S ⟨some (E.packet requestId), rest⟩ := by
    rintro packet ⟨⟩
    exact ⟨E, among, rfl, writable⟩
  change ((perform .replace).bind _).Stays oracle pid _ w
  refine .bind ?_ fun _ w₁ renamed => ?_
  · refine .act kept fun w₁ response executed => ?_
    refine .ofExcept ?_
    simp only [machine] at executed
    split at executed
    · cases executed
      exact kept
    · rw [serve_replace staged, Option.some.injEq] at executed
      split at executed
      · cases executed
        exact published
      · cases executed
        exact kept
  · refine Kept.stays ?_ later
    have did := (ends_perform.1 renamed).2
    rw [serve_replace staged] at did
    split at did
    · cases did
      exact published
    · cases did

theorem import_stays (among : E ∈ S) (kept : Kept requestId S w) : (importRealPreproductionHandoff E requestId).Stays
    oracle pid (fun w' _ => Kept requestId S w') w := by
  have after {w w' : World} {α : Type} {program : Program α} {x : α} (kept : Kept requestId S w)
      (only : program.Only (· ≠ replace))
      (ends : program.Ends oracle pid w (.ok x) w') : Kept requestId S w' :=
    kept.stays only w' none ends.stops
  have look : (perform .look).Only (· ≠ replace) := only_perform nofun
  refine .bind (kept.stays only_realImportEvidence) fun _ w₁ read => ?_
  have kept₁ := after kept only_realImportEvidence read
  refine .bind (kept₁.stays only_realImportEvidence) fun changed w₂ read => ?_
  have kept₂ := after kept₁ only_realImportEvidence read
  refine .check kept₂ fun _ _ => ?_
  refine .bind (kept₂.stays look) fun packet w₃ looked => ?_
  have kept₃ := after kept₂ look looked
  split_ifs
  · exact .ofExcept kept₃
  · refine .bind (kept₃.stays only_stage) fun _ w₄ ended => ?_
    obtain ⟨writable, rest, staged⟩ := sound_stage ended
    exact publish_stays among writable staged (after kept₃ only_stage ended)

end Kept

variable {S : Set (Evidence P)}

theorem Reached.kept (reached : Reached requestId S w) : Kept requestId S w := by
  obtain ⟨start, none, path⟩ := reached
  induction path with
  | refl =>
    intro packet there
    rw [none] at there
    cases there
  | tail _ call ih =>
    obtain ⟨E, among, oracle, pid, pending, stops⟩ := call
    exact import_stays among ih _ pending stops

theorem Called.packet {packet : Packet} (there : w.packet = some packet)
    (path : Relation.ReflTransGen (Called requestId S) w w') : w'.packet = some packet := by
  induction path with
  | refl => exact there
  | tail _ call ih =>
    obtain ⟨E, -, oracle, pid, pending, stops⟩ := call
    exact stops_packet stops ih

/-! ## Calls that return -/

theorem of_returned {report : Report} (ends : (importRealPreproductionHandoff E requestId).Ends
    oracle pid w (.ok report) w') : ∃ packet receipt, w'.packet = some packet ∧ verifyRealPreproductionImport
    P (some packet) requestId = .ok receipt ∧ receipt.toReceiptBase = E.base requestId ∧ report = receipt.report := by
  obtain ⟨_, _, -, ends⟩ := ends_bind_iff.mp ends
  obtain ⟨_, _, -, ends⟩ := ends_bind_iff.mp ends
  obtain ⟨_, _, -, ends⟩ := ends_bind_iff.mp ends
  obtain ⟨packet, w₁, looked, ends⟩ := ends_bind_iff.mp ends
  cases (ends_perform.1 looked).2
  split_ifs at ends with there
  · obtain ⟨is, rfl⟩ := ends_ofExcept_iff.mp ends
    obtain ⟨packet, there⟩ := Option.isSome_iff_exists.mp there
    rw [there] at is
    obtain ⟨receipt, verified, checked⟩ := bind_eq_ok.mp is.symm
    obtain ⟨_, same, reported⟩ := bind_eq_ok.mp checked
    exact ⟨packet, receipt, there, verified, require_eq_ok.mp same, (pure_eq_ok.mp reported).symm⟩
  · obtain ⟨_, w₂, staged, ends⟩ := ends_bind_iff.mp ends
    obtain ⟨-, rest, staged⟩ := sound_stage staged
    obtain ⟨_, w₃, renamed, ends⟩ := ends_bind_iff.mp ends
    have did := (ends_perform.1 renamed).2
    rw [serve_replace staged] at did
    split at did
    · cases did
      obtain ⟨_, _, synced, ends⟩ := ends_bind_iff.mp ends
      cases (ends_perform.1 synced).2
      obtain ⟨_, _, looked, ends⟩ := ends_bind_iff.mp ends
      cases (ends_perform.1 looked).2
      obtain ⟨receipt, _, read, ends⟩ := ends_bind_iff.mp ends
      obtain ⟨verified, rfl⟩ := ends_ofExcept_iff.mp read
      obtain ⟨reported, rfl⟩ := ends_pure_iff.mp ends
      have is := (E.verify_packet requestId).mp verified.symm
      refine ⟨_, receipt, rfl, verified.symm, ?_, Except.ok.inj reported⟩
      rw [is.2]
      rfl
    · cases did

section Quiet
variable {pid : ℕ} {w : World} {packet : Packet} {receipt : Receipt}

theorem ends_look : (perform .look).Ends (M := machine P) quiet pid w (.ok w.packet) w := quiet_perform rfl

theorem ends_realImportEvidence (pid : ℕ) (passes : preflight E requestId w.packet = .ok ()) :
    (realImportEvidence E requestId).Ends (M := machine P) quiet pid w (.ok false) w := by
  have read : (perform .readEvidence).Ends (M := machine P) quiet pid w (.ok false) w := quiet_perform rfl
  exact ends_look.bind (.ofExcept_bind passes read)

theorem ends_existing (there : w.packet = some packet) (verified : verifyRealPreproductionImport P (some packet)
    requestId = .ok receipt) (same : receipt.toReceiptBase = E.base requestId) :
    (importRealPreproductionHandoff E requestId).Ends (M := machine P) quiet pid w (.ok receipt.report) w := by
  have passes : preflight E requestId w.packet = .ok () := by
    unfold preflight
    rw [there, if_pos Option.isSome_some, bind_eq_ok]
    refine ⟨receipt, verified, require_eq_ok.mpr fun name _ => ?_⟩
    rw [same]
    rfl
  have read := ends_realImportEvidence pid passes
  have result : existing E requestId w.packet = .ok receipt.report := by
    rw [there]
    exact bind_eq_ok.mpr ⟨receipt, verified, bind_eq_ok.mpr ⟨(), require_eq_ok.mpr same, rfl⟩⟩
  have last : (if w.packet.isSome then ofExcept (existing E requestId w.packet)
      else (stage E requestId).bind fun _ => publish (P := P) requestId).Ends (M := machine P) quiet pid w
        (.ok receipt.report) w := by
    rw [result, there, if_pos Option.isSome_some]
    exact .pure _
  exact read.bind (read.bind (.ofExcept_bind rfl (ends_look.bind last)))

theorem ends_fresh (pid : ℕ) (writable : E.Writable) (none : w.packet = none) :
    ∃ w', w'.packet = some (E.packet requestId) ∧ (importRealPreproductionHandoff E requestId).Ends (M := machine P)
    quiet pid w ((verifyRealPreproductionImport P (some (E.packet requestId)) requestId).map report) w' := by
  have passes : preflight E requestId w.packet = .ok () := by
    rw [none]
    rfl
  have read := ends_realImportEvidence pid passes
  obtain ⟨w₁, rest, staged, full⟩ := complete_stage writable pid w
  have absent : w₁.packet = .none := by
    have kept := only_stage.stays (M := machine P) (P := fun w' => w'.packet = w.packet)
      (fun other executed same => (packet_of_exec other executed).trans same) rfl _ _ staged.stops
    exact kept.trans none
  have renamed : (perform .replace).Ends (M := machine P) quiet pid w₁ (.ok ()) ⟨some (E.packet requestId), rest⟩ := by
    refine quiet_perform ?_
    rw [serve_replace full, absent]
    rfl
  have synced : (perform (.sync "..")).Ends (M := machine P) quiet pid ⟨some (E.packet requestId), rest⟩ (.ok ())
      ⟨some (E.packet requestId), rest⟩ := quiet_perform rfl
  have last : ((ofExcept (verifyRealPreproductionImport P (some (E.packet requestId)) requestId)).bind
      fun verified => (Prog.pure verified.report : Program Report)).Ends (M := machine P) quiet pid
        ⟨some (E.packet requestId), rest⟩
        ((verifyRealPreproductionImport P (some (E.packet requestId)) requestId).map report)
        ⟨some (E.packet requestId), rest⟩ := by
    cases verifyRealPreproductionImport P (some (E.packet requestId)) requestId with
    | error error => exact .raise error
    | ok receipt => exact .pure _
  have whole : (if w.packet.isSome then Prog.ofExcept (existing E requestId w.packet)
      else (stage E requestId).bind fun _ => publish (P := P) requestId).Ends (M := machine P) quiet pid w
        ((verifyRealPreproductionImport P (some (E.packet requestId)) requestId).map report)
        ⟨some (E.packet requestId), rest⟩ := by
    rw [none, if_neg (by simp)]
    exact staged.bind (renamed.bind (synced.bind (ends_look.bind last)))
  exact ⟨_, rfl, read.bind (read.bind (.ofExcept_bind rfl (ends_look.bind whole)))⟩

end Quiet

/-! ## The import -/

theorem AllOrNothing.clean (all : AllOrNothing requestId S) (among : E ∈ S) (writable : E.Writable) : E.Clean := by
  obtain ⟨w', there, ends⟩ := ends_fresh 0 writable (w := ⟨none, []⟩) rfl
  have reached : Reached requestId S w' :=
    ⟨⟨none, []⟩, rfl, .single ⟨E, among, quiet, 0, _, ends.stops⟩⟩
  obtain ⟨_, -, -, verified⟩ := all.accepted w' reached _ there
  exact ((E.verify_packet requestId).mp verified).1

/-- The import is all or nothing exactly if what can be written is clean. -/
theorem allOrNothing_iff (P : Platform) (requestId : RequestId) (S : Set (Evidence P)) :
    AllOrNothing requestId S ↔ ∀ E ∈ S, E.Writable → E.Clean := by
  constructor
  · exact fun all E among writable => all.clean among writable
  · intro clean
    have verified {E : Evidence P} (among : E ∈ S) (writable : E.Writable) :
        verifyRealPreproductionImport P (some (E.packet requestId)) requestId = .ok (E.finalReceipt requestId) :=
      (E.verify_packet requestId).mpr ⟨clean E among writable, rfl⟩
    refine ⟨fun w reached packet there => ?_, fun w reached E among there pid => ?_,
      fun w reached E among oracle pid report w' ends w'' path pid' => ?_⟩
    · obtain ⟨E, among, rfl, writable⟩ := reached.kept packet there
      exact ⟨E, among, rfl, verified among writable⟩
    · obtain ⟨E', among', same, writable⟩ := reached.kept _ there
      have accepted := verified among' writable
      rw [← same] at accepted
      have own := ((E.verify_packet requestId).mp accepted).2
      rw [own] at accepted
      exact ends_existing there accepted rfl
    · obtain ⟨packet, receipt, there, accepted, same, rfl⟩ := of_returned ends
      exact ends_existing (Called.packet there path) accepted same

/-! ### An asset whose name has a backslash -/

def sampleLetters : Content → List Char
  | .raw bytes => bytes.map fun byte => Char.ofNat byte.toNat
  | .index _ => ['1']
  | .receipt _ => ['2']

def sampleSha256 (content : Content) : String :=
  String.ofList ((sampleLetters content ++ replicate 64 '0').take 64)

theorem sample_length (content : Content) : (sampleSha256 content).length = 64 := by
  rw [sampleSha256, String.length_ofList, length_take, length_append, length_replicate]
  omega

def samplePlatform : Platform where
  sha256 := sampleSha256
  size
    | .raw bytes => bytes.length
    | _ => 0
  digestJson _ := "receipt"
  sheetBinding bytes := if bytes = [67] then some ⟨[sampleSha256 (.raw [65])], sampleSha256 (.raw [66])⟩ else none
  creatable _ := true
  length_sha256 := sample_length

def sampleAsset : Asset := ⟨.of (text "/work/a\\b.png"), sampleSha256 (.raw [65]), text "editor", "LIVE"⟩

def sampleSheet : Asset := ⟨.of (text "/work/sheet.png"), sampleSha256 (.raw [66]), text "editor", "LIVE"⟩

def sampleEvidence : Evidence samplePlatform where
  raw _ := [68]
  activeRevision := "revisions/0123456789abcdef"
  manifestRaw := [69]
  assets := [sampleAsset]
  sheet := sampleSheet
  files path := if path = sampleSheet.path then [66] else [65]
  bindingRaw := [67]
  nonempty := cons_ne_nil _ _
  verified := by decide
  bound := by decide

def sampleRequest : RequestId where
  digits := String.ofList (replicate 64 'a')
  length_digits := by decide
  hexadecimal := by decide

theorem published_unverifiable :
    ¬ ∀ (P : Platform) (requestId : RequestId) (E : Evidence P), AllOrNothing requestId {E} := by
  intro all
  have writable : sampleEvidence.Writable := ⟨fun _ _ => rfl, by decide⟩
  have clean := (all samplePlatform sampleRequest sampleEvidence).clean rfl writable
  exact absurd clean (by decide)

end VideoPoster.Preproduction
