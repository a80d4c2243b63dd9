import VideoPoster.Preproduction.Packet
import VideoPoster.Tables.Table

/-!
# Which packets are accepted
-/

namespace VideoPoster.Preproduction
open Python Documents Tables List Path Entry Packet

variable {P : Platform}

/-! ## What the verifier asks for -/

theorem Packet.read_eq_some {packet : Packet} (distinct : (packet.map Prod.fst).Nodup) {name : Text}
    {content : Content} : packet.read name = some content ↔ (name, content) ∈ packet := by
  have keyed : (⟨packet, distinct⟩ : Table (Prod.fst : Text × Content → Text)).find? name = some (name, content) ↔ _ :=
    Table.find?_eq_some
  have same : packet.read name = some content ↔ (packet.find? fun file => file.1 = name) = some (name, content) := by
    unfold read
    rw [Option.map_eq_some_iff]
    constructor
    · rintro ⟨⟨own, content'⟩, read, rfl⟩
      have is : own = name := by simpa using find?_some read
      rw [read, is]
    · exact fun read => ⟨_, read, rfl⟩
  rw [same]
  exact keyed.trans (and_iff_left rfl)

variable {indexed : List Entry}

theorem indexedSha256_eq_some (distinct : (indexed.map path).Nodup) {path : Text} {hash : String} :
    indexedSha256 indexed path = some hash ↔ ∃ entry ∈ indexed, entry.path = path ∧ entry.sha256 = hash := by
  unfold indexedSha256
  rw [Option.map_eq_some_iff]
  refine exists_congr fun entry => ?_
  have keyed : (⟨indexed, distinct⟩ : Table Entry.path).find? path = some entry ↔ _ := Table.find?_eq_some
  exact (and_congr_left' keyed).trans and_assoc

theorem validatePacketPath_eq_ok {value : Text} {u : Unit} : validatePacketPath value = .ok u ↔ ValidPath value :=
  require_eq_ok

theorem indexEntries_eq_ok {entries result : List Entry} (distinct : (indexed.map path).Nodup) :
    indexEntries indexed entries = .ok result ↔ result = indexed ++ entries ∧ (∀ entry ∈ entries,
    ValidPath entry.path ∧ entry.sha256.length = 64) ∧ ((indexed ++ entries).map path).Nodup := by
  induction entries generalizing indexed with
  | nil =>
    simp only [indexEntries, append_nil, not_mem_nil, false_implies, implies_true, true_and]
    exact ⟨fun is => ⟨(Except.ok.inj is).symm, distinct⟩, fun ⟨is, _⟩ => congrArg _ is.symm⟩
  | cons entry entries ih =>
    have longer : entry.path ∉ indexed.map path → ((indexed ++ [entry]).map path).Nodup := by
      intro fresh
      rw [map_append, map_singleton, nodup_append_comm]
      exact nodup_cons.mpr ⟨fresh, distinct⟩
    have front : ((indexed ++ entry :: entries).map path).Nodup → entry.path ∉ indexed.map path := by
      intro all fresh
      rw [map_append, map_cons] at all
      exact (nodup_append.mp all).2.2 _ fresh _ (.head _) rfl
    simp only [indexEntries, bind_eq_ok, validatePacketPath_eq_ok, require_eq_ok, exists_const, forall_mem_cons]
    constructor
    · rintro ⟨valid, ⟨fresh, length⟩, rest⟩
      obtain ⟨is, all, nodup⟩ := (ih (longer fresh)).mp rest
      rw [append_assoc, singleton_append] at is nodup
      exact ⟨is, ⟨⟨valid, length⟩, all⟩, nodup⟩
    · rintro ⟨is, ⟨⟨valid, length⟩, all⟩, nodup⟩
      have fresh := front nodup
      refine ⟨valid, ⟨fresh, length⟩, (ih (longer fresh)).mpr ?_⟩
      rw [append_assoc, singleton_append]
      exact ⟨is, all, nodup⟩

theorem assetHashes_eq_ok {items : List AssetBinding} {hashes : List String} :
    assetHashes indexed items = .ok hashes ↔ hashes = items.map AssetBinding.sha256 ∧
      ∀ item ∈ items, ValidPath item.path ∧ indexedSha256 indexed item.path = some item.sha256 := by
  induction items generalizing hashes with
  | nil => simp [assetHashes, eq_comm]
  | cons item items ih =>
    simp only [assetHashes, bind_eq_ok, validatePacketPath_eq_ok, require_eq_ok, exists_const, ih,
      pure_eq_ok, forall_mem_cons, map_cons]
    constructor
    · rintro ⟨valid, known, _, ⟨rfl, all⟩, rfl⟩
      exact ⟨rfl, ⟨valid, known⟩, all⟩
    · rintro ⟨rfl, ⟨valid, known⟩, all⟩
      exact ⟨valid, known, _, ⟨rfl, all⟩, rfl⟩

/-! ## Names -/

theorem slash_not_mem_name (asset : Asset) : slash ∉ asset.name := by
  unfold Asset.name
  cases last : (parts asset.path.chars).getLast? with
  | none => simp
  | some part => exact (mem_parts (mem_of_getLast? last)).1

theorem stem_sublist (name : Text) : (stem name).Sublist name := by
  simp only [stem]
  split_ifs
  · exact take_sublist _ _
  · exact .refl _

theorem not_mem_bindingName {name : Text} {c : CodePoint} (absent : c ∉ name)
    (other : c ∉ text ".binding.json") : c ∉ bindingName name := by
  rw [bindingName, mem_append, not_or]
  exact ⟨fun member => absent ((stem_sublist name).subset member), other⟩

theorem bindingName_ne (name : Text) : bindingName name ≠ name := by
  intro same
  have length := congrArg length same
  have after : (name.reverse.takeWhile (· ≠ dot)).length = 4 := by
    rw [← same, bindingName, reverse_append]
    have front : ∀ rest : Text, ((text ".binding.json").reverse ++ rest).takeWhile (· ≠ dot) =
        (text "json").reverse := fun rest => rfl
    rw [front]
    rfl
  have suffix : (text ".binding.json").length = 13 := rfl
  rw [bindingName, length_append, suffix, stem] at length
  simp only [after] at length
  split_ifs at length with inside
  · rw [length_take] at length
    omega
  · omega

theorem assetFile_eq (index : ℕ) (name : Text) :
    assetFile index name = text "assets" ++ slash :: (naturalText index ++ code '-' :: name) := rfl

section AssetFile
variable (index : ℕ) {name : Text}

theorem assetFile_part (clear : slash ∉ name) :
    ∃ c rest, naturalText index ++ code '-' :: name = c :: rest ∧ c ≠ dot ∧ slash ∉ c :: rest := by
  obtain ⟨c, more, is⟩ := exists_cons_of_ne_nil (naturalText_ne_nil index)
  have digits : ∀ d ∈ naturalText index, isDigit d = true := fun d => isDigit_naturalText
  refine ⟨c, more ++ code '-' :: name, by rw [is, cons_append], ?_, ?_⟩
  · rintro rfl
    have digit := digits _ (by rw [is]; exact .head _)
    cases digit
  · rw [← cons_append, ← is, mem_append, mem_cons, not_or, not_or]
    refine ⟨fun member => ?_, by decide, clear⟩
    have digit := digits _ member
    cases digit

theorem parts_assetFile (clear : slash ∉ name) :
    parts (assetFile index name) = [text "assets", naturalText index ++ code '-' :: name] := by
  obtain ⟨c, rest, is, notDot, noSlash⟩ := assetFile_part index clear
  have keeps : text "." ≠ c :: rest := fun same => notDot (cons.inj same).1.symm
  have second : (c :: rest).splitOn slash = [c :: rest] := by
    have one : ([slash].intercalate [c :: rest]).splitOn slash = [c :: rest] :=
      splitOn_intercalate slash (by simpa using noSlash) (cons_ne_nil _ _)
    simpa using one
  rw [assetFile_eq, is, parts, splitOn_append_cons_self_of_not_mem (by decide), second]
  simp [keeps.symm, show text "assets" ≠ [] ∧ text "assets" ≠ text "." by decide]

theorem validPath_assetFile (clear : Path.slash ∉ name) : ValidPath (assetFile index name) ↔ backslash ∉ name := by
  obtain ⟨c, rest, is, notDot, -⟩ := assetFile_part index clear
  have digits : ∀ d ∈ naturalText index, isDigit d = true := fun d => isDigit_naturalText
  have clean : backslash ∉ assetFile index name ↔ backslash ∉ name := by
    have number : backslash ∉ naturalText index := fun member => by
      have digit := digits _ member
      cases digit
    rw [assetFile, mem_append, mem_append, mem_cons]
    have first : backslash ∉ text "assets/" := by decide
    have minus : backslash ≠ code '-' := by decide
    tauto
  have root : root (assetFile index name) = [] := rfl
  have parts := parts_assetFile index clear
  have parent : text ".." ∉ Path.parts (assetFile index name) := by
    rw [parts, is]
    intro member
    rcases mem_pair.mp member with no | no
    · exact absurd no (by decide)
    · exact notDot (cons.inj no).1.symm
  have normal : normalised (assetFile index name) = assetFile index name := by
    rw [normalised, root, parts, if_neg (by simp), nil_append]
    simp [assetFile_eq, intercalate_cons_cons]
  constructor
  · exact fun valid => clean.mp valid.1.2.2
  · exact fun none => ⟨⟨by simp [assetFile_eq], by simp [assetFile_eq, text, code, slash], clean.mpr none⟩,
      root, parent, normal⟩

end AssetFile

def assetNumber (name : Text) : ℕ := natural (digits (name.drop 7))

theorem assetNumber_assetFile (index : ℕ) (name : Text) : assetNumber (assetFile index name) = index := by
  have drop : (assetFile index name).drop 7 = naturalText index ++ code '-' :: name := rfl
  have stops : ∀ c, (code '-' :: name).head? = some c → isDigit c = false := by
    intro c head
    obtain rfl : code '-' = c := Option.some.inj head
    decide
  rw [assetNumber, drop, (digits_append (fun c => isDigit_naturalText) stops).1, natural_naturalText]

/-! ## What was copied -/

namespace Evidence
variable (E : Evidence P)

def assetFiles : ℕ → List Asset → List File
  | _, [] => []
  | index, asset :: assets => (E.copy index asset ⟨[], [], none⟩).files ++ assetFiles (index + 1) assets

def assetBindings : ℕ → List Asset → List AssetBinding
  | _, [] => []
  | index, asset :: assets => (E.copy index asset ⟨[], [], none⟩).assets ++ assetBindings (index + 1) assets

theorem copy_files (index : ℕ) (asset : Asset) (copied : Copied) :
    (E.copy index asset copied).files = copied.files ++ (E.copy index asset ⟨[], [], none⟩).files := by
  unfold copy
  split_ifs <;> rfl

theorem copy_assets (index : ℕ) (asset : Asset) (copied : Copied) :
    (E.copy index asset copied).assets = copied.assets ++ (E.copy index asset ⟨[], [], none⟩).assets := by
  unfold copy
  split_ifs
  · exact (append_nil _).symm
  · rfl

theorem copyAll_files (index : ℕ) (assets : List Asset) (copied : Copied) :
    (E.copyAll index assets copied).files = copied.files ++ E.assetFiles index assets := by
  induction assets generalizing index copied with
  | nil => exact (append_nil _).symm
  | cons asset assets ih => rw [copyAll, ih, copy_files, append_assoc, assetFiles]

theorem copyAll_assets (index : ℕ) (assets : List Asset) (copied : Copied) :
    (E.copyAll index assets copied).assets = copied.assets ++ E.assetBindings index assets := by
  induction assets generalizing index copied with
  | nil => exact (append_nil _).symm
  | cons asset assets ih => rw [copyAll, ih, copy_assets, append_assoc, assetBindings]

def sheetReference : SheetReference :=
  ⟨assetFile (E.assets.length + 1) E.sheet.name, assetFile (E.assets.length + 1) (bindingName E.sheet.name),
    E.sheet.sha256⟩

theorem copyAll_sheet (index : ℕ) (assets : List Asset)
    (copied : Copied) : (E.copyAll index (assets ++ [E.sheet]) copied).sheet = some ⟨assetFile (index + assets.length)
    E.sheet.name, assetFile (index + assets.length) (bindingName E.sheet.name), E.sheet.sha256⟩ := by
  induction assets generalizing index copied with
  | nil =>
    rw [nil_append, copyAll, copyAll, copy]
    simp
  | cons asset assets ih =>
    rw [cons_append, copyAll, ih]
    simp only [length_cons]
    rw [show index + 1 + assets.length = index + (assets.length + 1) by omega]

theorem copied_sheet : E.copied.sheet = some E.sheetReference := by
  rw [copied, copyAll_sheet, Nat.add_comm 1]
  rfl

theorem copied_files : E.copied.files =
    E.evidenceFiles ++ [(manifestJson, E.manifestRaw, .manifest)] ++ E.assetFiles 1 (E.assets ++ [E.sheet]) :=
  E.copyAll_files 1 _ E.before

theorem copied_assets : E.copied.assets = E.assetBindings 1 (E.assets ++ [E.sheet]) :=
  E.copyAll_assets 1 _ E.before

/-! The files of one asset -/

variable {file : File}

theorem mem_copy {index : ℕ} {asset : Asset} (member : file ∈ (E.copy index asset ⟨[], [], none⟩).files) :
    file.1 = assetFile index asset.name ∨ file.1 = assetFile index (bindingName asset.name) ∧ asset = E.sheet := by
  unfold copy at member
  split_ifs at member with sheet
  · simp only [nil_append, mem_cons, not_mem_nil, or_false] at member
    rcases member with rfl | rfl
    · exact .inl rfl
    · exact .inr ⟨rfl, sheet⟩
  · simp only [nil_append, mem_singleton] at member
    rw [member]
    exact .inl rfl

variable {assets : List Asset}

theorem mem_assetFiles {index : ℕ}
    (member : file ∈ E.assetFiles index assets) : ∃ number asset, index ≤ number ∧ asset ∈ assets ∧
    (file.1 = assetFile number asset.name ∨ file.1 = assetFile number (bindingName asset.name) ∧ asset = E.sheet) := by
  induction assets generalizing index with
  | nil => cases member
  | cons asset assets ih =>
    rcases mem_append.mp member with own | later
    · exact ⟨index, asset, le_rfl, .head _, E.mem_copy own⟩
    · obtain ⟨number, other, above, among, named⟩ := ih later
      exact ⟨number, other, (Nat.le_succ _).trans above, .tail _ among, named⟩

theorem nodup_copy (index : ℕ) (asset : Asset) : ((E.copy index asset ⟨[], [], none⟩).files.map Prod.fst).Nodup := by
  unfold copy
  split_ifs
  · have differ : assetFile index asset.name ≠ assetFile index (bindingName asset.name) := by
      intro same
      have tails := append_cancel_left (append_cancel_left same)
      exact bindingName_ne asset.name (cons.inj tails).2.symm
    simpa using differ
  · simp

theorem nodup_assetFiles (index : ℕ) (assets : List Asset) : ((E.assetFiles index assets).map Prod.fst).Nodup := by
  induction assets generalizing index with
  | nil => exact .nil
  | cons asset assets ih =>
    rw [assetFiles, map_append, nodup_append]
    refine ⟨E.nodup_copy index asset, ih (index + 1), ?_⟩
    intro name own other later same
    obtain ⟨file, among, rfl⟩ := mem_map.mp own
    obtain ⟨file', among', rfl⟩ := mem_map.mp later
    obtain ⟨number, asset', above, -, named⟩ := E.mem_assetFiles among'
    have first : assetNumber file.1 = index := by
      rcases E.mem_copy among with is | ⟨is, -⟩ <;> rw [is, assetNumber_assetFile]
    have second : assetNumber file'.1 = number := by
      rcases named with is | ⟨is, -⟩ <;> rw [is, assetNumber_assetFile]
    rw [same, second] at first
    omega

theorem mem_of_asset {asset : Asset} (member : asset ∈ assets) (index : ℕ) :
    ∃ number, (∃ kind, (assetFile number asset.name, E.files asset.path, kind) ∈ E.assetFiles index assets) ∧
      (asset ≠ E.sheet → ⟨assetFile number asset.name, asset.sha256⟩ ∈ E.assetBindings index assets) := by
  induction assets generalizing index with
  | nil => cases member
  | cons first assets ih =>
    rcases mem_cons.mp member with rfl | later
    · refine ⟨index, ?_, fun other => mem_append_left _ ?_⟩
      · by_cases sheet : asset = E.sheet
        · exact ⟨.sheet, mem_append_left _ (by simp [copy, sheet])⟩
        · exact ⟨.asset, mem_append_left _ (by simp [copy, sheet])⟩
      · simp [copy, other]
    · obtain ⟨number, ⟨kind, file⟩, binding⟩ := ih later (index + 1)
      exact ⟨number, ⟨kind, mem_append_right _ file⟩, fun other => mem_append_right _ (binding other)⟩

theorem mem_assetBindings {index : ℕ} {item : AssetBinding} (member : item ∈ E.assetBindings index assets) :
    ∃ asset ∈ assets, asset ≠ E.sheet ∧ item.sha256 = asset.sha256 ∧ (item.path, E.files asset.path, .asset)
    ∈ E.assetFiles index assets ∧ ∃ number, item.path = assetFile number asset.name := by
  induction assets generalizing index with
  | nil => cases member
  | cons asset assets ih =>
    rcases mem_append.mp member with own | later
    · unfold copy at own
      split_ifs at own with sheet
      · cases own
      · obtain rfl := mem_singleton.mp own
        exact ⟨asset, .head _, sheet, rfl, mem_append_left _ (by simp [copy, sheet]), index, rfl⟩
    · obtain ⟨other, among, rest⟩ := ih later
      obtain ⟨differs, hash, file, named⟩ := rest
      exact ⟨other, .tail _ among, differs, hash, mem_append_right _ file, named⟩

theorem sha256_assetBindings (index : ℕ) (assets : List Asset) :
    (E.assetBindings index assets).map AssetBinding.sha256 = (assets.filter (· ≠ E.sheet)).map Asset.sha256 := by
  induction assets generalizing index with
  | nil => rfl
  | cons asset assets ih =>
    rw [assetBindings, map_append, ih]
    by_cases sheet : asset = E.sheet <;> simp [copy, sheet]

theorem mem_sheetFiles (index : ℕ) (assets : List Asset) : (assetFile (index + assets.length) E.sheet.name,
    E.files E.sheet.path, .sheet) ∈ E.assetFiles index (assets ++ [E.sheet]) ∧ (assetFile (index + assets.length)
    (bindingName E.sheet.name), E.bindingRaw, .sheetBinding) ∈ E.assetFiles index (assets ++ [E.sheet]) := by
  induction assets generalizing index with
  | nil => simp [assetFiles, copy]
  | cons asset assets ih =>
    have later := ih (index + 1)
    rw [show index + 1 + assets.length = index + (asset :: assets).length by
      rw [length_cons]; omega] at later
    exact ⟨mem_append_right _ later.1, mem_append_right _ later.2⟩

/-! ## The packet -/

def finalIndex (requestId : RequestId) : Index := E.index requestId E.copied E.sheetReference

def finalReceipt (requestId : RequestId) : Receipt := E.receipt requestId (E.finalIndex requestId)

def packet (requestId : RequestId) : Packet :=
  E.copied.files.map (fun file => (file.1, .raw file.2.1)) ++
    [(indexJson, .index (E.finalIndex requestId)), (receiptJson, .receipt (E.finalReceipt requestId))]

/-- No name has a backslash, and the sheet is none of the assets that it shows. -/
structure Clean : Prop where
  names : ∀ asset ∈ E.assets ++ [E.sheet], backslash ∉ asset.name
  sheet : E.sheet ∉ E.assets

instance : Decidable E.Clean :=
  decidable_of_iff ((∀ asset ∈ E.assets ++ [E.sheet], backslash ∉ asset.name) ∧ E.sheet ∉ E.assets)
    ⟨fun ⟨names, sheet⟩ => ⟨names, sheet⟩, fun ⟨names, sheet⟩ => ⟨names, sheet⟩⟩

theorem mem_copied (member : file ∈ E.copied.files) : (∃ name, file = (evidenceFile name, E.raw name, .evidence))
    ∨ file = (manifestJson, E.manifestRaw, .manifest) ∨ file ∈ E.assetFiles 1 (E.assets ++ [E.sheet]) := by
  rw [copied_files, mem_append, mem_append, mem_singleton] at member
  rcases member with (evidence | manifest) | asset
  · obtain ⟨name, -, rfl⟩ := mem_map.mp evidence
    exact .inl ⟨name, rfl⟩
  · exact .inr (.inl manifest)
  · exact .inr (.inr asset)

/-! The first letter tells the parts of a packet apart. -/

theorem head_evidenceFile (name : EvidenceName) : (evidenceFile name).head? = some (code 'e') := by
  cases name <;> rfl

theorem validPath_evidenceFile (name : EvidenceName) : ValidPath (evidenceFile name) := by
  cases name <;> decide

theorem head_assetFiles (member : file ∈ E.assetFiles 1 (E.assets ++ [E.sheet])) : file.1.head? = some (code 'a') := by
  obtain ⟨number, asset, -, -, is | ⟨is, -⟩⟩ := E.mem_assetFiles member <;> rw [is] <;> rfl

theorem nodup_copied : (E.copied.files.map Prod.fst).Nodup := by
  have evidence : (E.evidenceFiles.map Prod.fst).Nodup := by
    have names : E.evidenceFiles.map Prod.fst = evidenceNames.map evidenceFile := by
      rw [evidenceFiles, map_map]
      rfl
    rw [names]
    decide
  have first : ((E.evidenceFiles ++ [(manifestJson, E.manifestRaw, Kind.manifest)]).map Prod.fst).Nodup := by
    rw [map_append, nodup_append]
    refine ⟨evidence, nodup_singleton _, ?_⟩
    rintro name member other single rfl
    obtain ⟨_, among, is⟩ := mem_map.mp member
    obtain ⟨kind, -, rfl⟩ := mem_map.mp among
    have head := head_evidenceFile kind
    rw [show evidenceFile kind = name from is, mem_singleton.mp single] at head
    exact absurd head (by decide : manifestJson.head? ≠ some (code 'e'))
  rw [copied_files, map_append, nodup_append]
  refine ⟨first, E.nodup_assetFiles 1 _, ?_⟩
  rintro name member other later rfl
  obtain ⟨file, among, rfl⟩ := mem_map.mp later
  have head := E.head_assetFiles among
  obtain ⟨file', among', same⟩ := mem_map.mp member
  rw [← same] at head
  rcases mem_append.mp among' with evidence | manifest
  · obtain ⟨kind, -, rfl⟩ := mem_map.mp evidence
    exact absurd ((head_evidenceFile kind).symm.trans head) (by decide)
  · obtain rfl := mem_singleton.mp manifest
    exact absurd head (by decide : manifestJson.head? ≠ some (code 'a'))

theorem not_document (member : file ∈ E.copied.files) : file.1 ≠ indexJson ∧ file.1 ≠ receiptJson := by
  have documents : ∀ {c : CodePoint}, file.1.head? = some c → c ≠ code 'i' → c ≠ code 'r' →
      file.1 ≠ indexJson ∧ file.1 ≠ receiptJson := by
    intro c head index receipt
    constructor
    · intro is
      rw [is] at head
      exact index (Option.some.inj head).symm
    · intro is
      rw [is] at head
      exact receipt (Option.some.inj head).symm
  rcases E.mem_copied member with ⟨name, rfl⟩ | rfl | asset
  · exact documents (head_evidenceFile name) (by decide) (by decide)
  · exact documents (c := code 'm') rfl (by decide) (by decide)
  · exact documents (E.head_assetFiles asset) (by decide) (by decide)

variable (requestId : RequestId)

theorem names_packet : (E.packet requestId).map Prod.fst = E.copied.files.map Prod.fst ++ [indexJson, receiptJson] := by
  rw [packet, map_append, map_map]
  rfl

theorem nodup_packet : ((E.packet requestId).map Prod.fst).Nodup := by
  rw [names_packet, nodup_append]
  refine ⟨E.nodup_copied, by decide, ?_⟩
  rintro name member other document rfl
  obtain ⟨file, among, rfl⟩ := mem_map.mp member
  obtain ⟨index, receipt⟩ := E.not_document among
  rcases mem_pair.mp document with is | is
  · exact index is
  · exact receipt is

theorem mem_packet (member : file ∈ E.copied.files) : (file.1, Content.raw file.2.1) ∈ E.packet requestId :=
  mem_append_left _ (mem_map.mpr ⟨file, member, rfl⟩)

theorem verifyReceipt_packet :
    verifyReceipt P (E.packet requestId) requestId = .ok (E.finalReceipt requestId, E.finalIndex requestId) := by
  have receipt : (E.packet requestId).read receiptJson = some (.receipt (E.finalReceipt requestId)) :=
    (read_eq_some (E.nodup_packet requestId)).mpr (mem_append_right _ (.tail _ (.head _)))
  have index : (E.packet requestId).read indexJson = some (.index (E.finalIndex requestId)) :=
    (read_eq_some (E.nodup_packet requestId)).mpr (mem_append_right _ (.head _))
  simp only [verifyReceipt, receipt, index, bind_eq_ok, found_eq_ok, Option.some.injEq, Content.asReceipt,
    Content.asIndex, exists_eq_left', require_eq_ok, exists_const, pure_eq_ok]
  exact ⟨rfl, ⟨rfl, rfl, rfl, rfl, rfl, rfl⟩, ⟨rfl, rfl, rfl⟩, trivial⟩

/-! ## The entries -/

def entries : List Entry := (inOrder E.copied.files).map (entryOf (P := P))

theorem mem_entries {entry : Entry} : entry ∈ E.entries ↔ ∃ file ∈ E.copied.files, entryOf (P := P) file = entry := by
  simp only [entries, mem_map, mem_inOrder]

theorem paths_entries : (E.entries.map path).Perm (E.copied.files.map Prod.fst) := by
  rw [entries, map_map]
  exact (perm_inOrder E.copied.files).map Prod.fst

theorem nodup_entries : (E.entries.map path).Nodup := E.paths_entries.nodup_iff.mpr E.nodup_copied

theorem indexedSha256_of_mem (member : file ∈ E.copied.files) {hash : String}
    (is : P.sha256 (.raw file.2.1) = hash) : indexedSha256 E.entries file.1 = some hash :=
  (indexedSha256_eq_some E.nodup_entries).mpr ⟨_, E.mem_entries.2 ⟨file, member, rfl⟩, rfl, is⟩

theorem mem_copied_of_asset (member : file ∈ E.assetFiles 1 (E.assets ++ [E.sheet])) : file ∈ E.copied.files := by
  rw [copied_files]
  exact mem_append_right _ member

theorem indexEntries_packet {result : List Entry} : indexEntries [] E.entries = .ok result ↔
      result = E.entries ∧ ∀ asset ∈ E.assets ++ [E.sheet], backslash ∉ asset.name := by
  rw [indexEntries_eq_ok (show (([] : List Entry).map path).Nodup from .nil), nil_append, and_congr_right_iff]
  rintro -
  constructor
  · rintro ⟨valid, -⟩ asset member
    obtain ⟨number, ⟨kind, file⟩, -⟩ := E.mem_of_asset member 1
    have own := valid _ (E.mem_entries.2 ⟨_, E.mem_copied_of_asset file, rfl⟩)
    exact (validPath_assetFile number (slash_not_mem_name asset)).mp own.1
  · intro clean
    refine ⟨fun entry member => ?_, E.nodup_entries⟩
    obtain ⟨file, among, rfl⟩ := E.mem_entries.1 member
    refine ⟨?_, P.length_sha256 _⟩
    show ValidPath file.1
    rcases E.mem_copied among with ⟨name, rfl⟩ | rfl | asset
    · exact validPath_evidenceFile name
    · exact (by decide : ValidPath manifestJson)
    · obtain ⟨number, asset, -, member, is | ⟨is, -⟩⟩ := E.mem_assetFiles asset
      · rw [is]
        exact (validPath_assetFile number (slash_not_mem_name asset)).mpr (clean asset member)
      · rw [is]
        exact (validPath_assetFile number (not_mem_bindingName (slash_not_mem_name asset) (by decide))).mpr
          (not_mem_bindingName (clean asset member) (by decide))

theorem sameFiles_packet : SameFiles (E.packet requestId) E.entries := by
  have names : ∀ name, name ∈ (E.packet requestId).map Prod.fst ↔
      name ∈ E.entries.map path ++ [indexJson, receiptJson] := fun name => by
    rw [names_packet, mem_append, mem_append, E.paths_entries.mem_iff]
  exact ⟨fun name => (names name).mp, fun name => (names name).mpr⟩

theorem holds_packet : ∀ entry ∈ E.entries, Holds P (E.packet requestId) entry := by
  intro entry member
  obtain ⟨file, among, rfl⟩ := E.mem_entries.1 member
  exact ⟨_, (read_eq_some (E.nodup_packet requestId)).mpr (E.mem_packet requestId among), rfl, rfl⟩

theorem verifyBindings_packet (clean : ∀ asset ∈ E.assets ++ [E.sheet], backslash ∉ asset.name) {u : Unit} :
    verifyBindings P (E.packet requestId) E.entries (E.finalIndex requestId).assetBindings = .ok u ↔
      E.sheet ∉ E.assets := by
  have manifest : indexedSha256 E.entries manifestJson = some (P.sha256 (.raw E.manifestRaw)) := by
    have member : (manifestJson, E.manifestRaw, Kind.manifest) ∈ E.copied.files := by
      rw [copied_files]
      simp
    exact E.indexedSha256_of_mem member rfl
  have all : ∀ item ∈ E.copied.assets, ValidPath item.path ∧ indexedSha256 E.entries item.path = some item.sha256 := by
    intro item member
    rw [copied_assets] at member
    obtain ⟨asset, among, -, hash, file, number, path⟩ := E.mem_assetBindings member
    refine ⟨?_, ?_⟩
    · rw [path]
      exact (validPath_assetFile number (slash_not_mem_name asset)).mpr (clean asset among)
    · rw [hash]
      exact E.indexedSha256_of_mem (E.mem_copied_of_asset file) (E.verified asset among)
  obtain ⟨sheetFile, bindingFile⟩ := E.mem_sheetFiles 1 E.assets
  rw [Nat.add_comm 1] at sheetFile bindingFile
  have last : E.sheet ∈ E.assets ++ [E.sheet] := by simp
  have sheet : indexedSha256 E.entries E.sheetReference.path = some E.sheetReference.sha256 :=
    E.indexedSha256_of_mem (E.mem_copied_of_asset sheetFile) (E.verified _ last)
  have valid : ValidPath E.sheetReference.bindingPath :=
    (validPath_assetFile _ (not_mem_bindingName (slash_not_mem_name E.sheet) (by decide))).mpr
      (not_mem_bindingName (clean _ last) (by decide))
  have read : (E.packet requestId).read E.sheetReference.bindingPath = some (.raw E.bindingRaw) :=
    (read_eq_some (E.nodup_packet requestId)).mpr (E.mem_packet requestId (E.mem_copied_of_asset bindingFile))
  have hashes : E.copied.assets.map AssetBinding.sha256 = (E.assets.filter (· ≠ E.sheet)).map Asset.sha256 := by
    rw [copied_assets, sha256_assetBindings]
    simp
  have same : E.assets.map Asset.sha256 = E.copied.assets.map AssetBinding.sha256 ↔ E.sheet ∉ E.assets := by
    rw [hashes]
    constructor
    · intro equal member
      have lengths := congrArg length equal
      rw [length_map, length_map] at lengths
      have each := length_filter_eq_length_iff.mp lengths.symm _ member
      simp at each
    · intro absent
      have keeps : E.assets.filter (· ≠ E.sheet) = E.assets :=
        filter_eq_self.mpr fun asset member => decide_eq_true fun is => absent (is ▸ member)
      rw [keeps]
  have bindings : (E.finalIndex requestId).assetBindings =
      ⟨P.sha256 (.raw E.manifestRaw), E.copied.assets, E.sheetReference⟩ := rfl
  rw [bindings]
  simp only [verifyBindings, bind_eq_ok, require_eq_ok, exists_const, assetHashes_eq_ok, found_eq_ok,
    validatePacketPath_eq_ok, manifest, sheet, read, valid, true_and, Option.some.injEq, exists_eq_left',
    Content.sheetBinding, E.bound, SheetBinding.mk.injEq]
  constructor
  · rintro ⟨-, _, ⟨rfl, -⟩, hashes, -⟩
    exact same.mp hashes
  · intro absent
    refine ⟨fun none => ?_, _, ⟨rfl, all⟩, same.mpr absent, rfl⟩
    have nothing := same.mpr absent
    rw [none] at nothing
    exact E.nonempty (map_eq_nil_iff.mp nothing)

theorem verify_packet {receipt : Receipt} : verifyRealPreproductionImport P (some (E.packet requestId))
    requestId = .ok receipt ↔ E.Clean ∧ receipt = E.finalReceipt requestId := by
  have nonempty : (E.finalIndex requestId).entries ≠ [] := by
    show E.entries ≠ []
    have member : (manifestJson, E.manifestRaw, Kind.manifest) ∈ E.copied.files := by
      rw [copied_files]
      simp
    exact ne_nil_of_mem (E.mem_entries.2 ⟨_, member, rfl⟩)
  have entries : (E.finalIndex requestId).entries = E.entries := rfl
  simp only [verifyRealPreproductionImport, bind_eq_ok, found_eq_ok, Option.some.injEq, exists_eq_left',
    verifyReceipt_packet, Except.ok.injEq, require_eq_ok, exists_const, pure_eq_ok]
  rw [entries]
  simp only [indexEntries_packet]
  constructor
  · rintro ⟨-, _, ⟨rfl, names⟩, -, -, _, bindings, rfl⟩
    exact ⟨⟨names, (E.verifyBindings_packet requestId names).mp bindings⟩, rfl⟩
  · rintro ⟨clean, rfl⟩
    exact ⟨nonempty, _, ⟨rfl, clean.names⟩, E.sameFiles_packet requestId, E.holds_packet requestId, (),
      (E.verifyBindings_packet requestId clean.names).mpr clean.sheet, rfl⟩

end Evidence
end VideoPoster.Preproduction
