import VideoPoster.Autonomous.Specs

/-!
# Which started jobs are built again
-/

namespace VideoPoster.Autonomous.Specs
open Documents Python List Binding Entries Path

/-! ## Pairs of surrogates -/

def Unpaired (chars : Text) : Prop :=
  chars.IsChain fun c d => ¬(highSurrogate c.val = true ∧ lowSurrogate d.val = true)

instance (chars : Text) : Decidable (Unpaired chars) := inferInstanceAs (Decidable (List.IsChain _ _))

variable {chars : Text}

theorem join_eq_of_unpaired (unpaired : Unpaired chars) : join chars = chars := by
  induction chars using join.induct with
  | case1 => rfl
  | case2 c => rfl
  | case3 c d rest both ih => exact absurd both (isChain_cons_cons.mp unpaired).1
  | case4 c d rest apart ih => rw [join, if_neg apart, ih (isChain_cons_cons.mp unpaired).2]

theorem length_join_le (chars : Text) : (join chars).length ≤ chars.length := by
  induction chars using join.induct with
  | case1 => exact Nat.le_refl _
  | case2 c => exact Nat.le_refl _
  | case3 c d rest both ih =>
    rw [join, if_pos both, length_cons, length_cons, length_cons]
    omega
  | case4 c d rest apart ih =>
    rw [join, if_neg apart, length_cons, length_cons]
    exact Nat.succ_le_succ ih

theorem length_join_lt (paired : ¬Unpaired chars) : (join chars).length < chars.length ∧ 1 < chars.length := by
  induction chars using join.induct with
  | case1 => exact absurd isChain_nil paired
  | case2 c => exact absurd (isChain_singleton c) paired
  | case3 c d rest both ih =>
    have le := length_join_le rest
    rw [join, if_pos both, length_cons, length_cons, length_cons]
    omega
  | case4 c d rest apart ih =>
    have later : ¬Unpaired (d :: rest) := fun chain => paired (isChain_cons_cons.mpr ⟨apart, chain⟩)
    have less := ih later
    rw [join, if_neg apart, length_cons, length_cons (a := c)]
    omega

theorem join_eq_iff : join chars = chars ↔ Unpaired chars := by
  refine ⟨fun same => ?_, join_eq_of_unpaired⟩
  by_contra paired
  have less := (length_join_lt paired).1
  rw [same] at less
  exact lt_irrefl _ less

theorem path_eq_iff {path : Path} : of (join path.chars) = path ↔ Unpaired path.chars := by
  refine ⟨fun same => ?_, fun unpaired => by rw [join_eq_of_unpaired unpaired, of_chars]⟩
  by_contra paired
  have less := length_join_lt paired
  have short := length_normalised (join path.chars)
  have own : normalised (join path.chars) = path.chars := congrArg chars same
  rw [own] at short
  omega

def FrozenAsset.Unpaired (asset : FrozenAsset) : Prop :=
  Specs.Unpaired asset.path.chars ∧ Specs.Unpaired asset.sha256 ∧ Specs.Unpaired asset.reviewer ∧
    Specs.Unpaired asset.mode

def Manifest.Unpaired (manifest : Manifest) : Prop :=
  (∀ asset ∈ manifest.assets, asset.Unpaired) ∧ manifest.sheet.Unpaired ∧
    Specs.Unpaired manifest.reviewer ∧ Specs.Unpaired manifest.mode

def FrozenAsset.reread (asset : FrozenAsset) : FrozenAsset :=
  ⟨.of (join asset.path.chars), join asset.sha256, join asset.reviewer, join asset.mode⟩

def Manifest.reread (manifest : Manifest) : Manifest :=
  ⟨manifest.assets.map FrozenAsset.reread, manifest.sheet.reread, join manifest.reviewer, join manifest.mode⟩

theorem FrozenAsset.reread_eq_iff {asset : FrozenAsset} : asset.reread = asset ↔ asset.Unpaired := by
  obtain ⟨path, sha256, reviewer, mode⟩ := asset
  simp only [FrozenAsset.reread, FrozenAsset.mk.injEq, FrozenAsset.Unpaired, path_eq_iff, join_eq_iff]

variable {manifest : Manifest}

theorem Manifest.reread_eq_iff : manifest.reread = manifest ↔ manifest.Unpaired := by
  obtain ⟨assets, sheet, reviewer, mode⟩ := manifest
  have all : assets.map FrozenAsset.reread = assets ↔ ∀ asset ∈ assets, asset.Unpaired := by
    calc assets.map FrozenAsset.reread = assets
        ↔ assets.map FrozenAsset.reread = assets.map id := by rw [map_id]
      _ ↔ ∀ asset ∈ assets, asset.reread = id asset := map_inj_left
      _ ↔ ∀ asset ∈ assets, asset.Unpaired := forall₂_congr fun asset _ => FrozenAsset.reread_eq_iff
  simp only [Manifest.reread, Manifest.mk.injEq, Manifest.Unpaired, all, FrozenAsset.reread_eq_iff, join_eq_iff]

/-! ## The text of a manifest says what it is -/

section Representation
variable {printable : CodePoint → Bool}

variable {rest more : Text}

theorem FrozenAsset.repr_injective {first second : FrozenAsset}
    (same : first.repr printable ++ rest = second.repr printable ++ more) : first = second ∧ rest = more := by
  obtain ⟨⟨chars, normal⟩, sha256, reviewer, mode⟩ := first
  obtain ⟨⟨chars', normal'⟩, sha256', reviewer', mode'⟩ := second
  simp only [FrozenAsset.repr, append_assoc] at same
  obtain ⟨path, afterPath⟩ := reprText_injective (append_cancel_left same)
  obtain ⟨hash, afterHash⟩ := reprText_injective (append_cancel_left afterPath)
  obtain ⟨name, afterName⟩ := reprText_injective (append_cancel_left afterHash)
  obtain ⟨kind, afterKind⟩ := reprText_injective (append_cancel_left afterName)
  simp only [path, hash, name, kind, true_and]
  exact append_cancel_left afterKind

def others (printable : CodePoint → Bool) (assets : List FrozenAsset) : Text :=
  (assets.map (FrozenAsset.repr printable)).flatMap (fun item => text ", " ++ item)

variable {second first : List FrozenAsset}

theorem others_injective (same : others printable first ++ (text ")" ++ rest) =
      others printable second ++ (text ")" ++ more)) : first = second ∧ rest = more := by
  unfold others at same
  induction first generalizing second with
  | nil =>
    cases second with
    | nil => exact ⟨rfl, append_cancel_left same⟩
    | cons asset second => exact absurd (cons.inj same).1 (by decide)
  | cons asset first ih =>
    cases second with
    | nil => exact absurd (cons.inj same).1 (by decide)
    | cons other second =>
      simp only [map_cons, flatMap_cons, append_assoc] at same
      obtain ⟨head, tail⟩ := FrozenAsset.repr_injective (append_cancel_left same)
      obtain ⟨later, after⟩ := ih tail
      exact ⟨by rw [head, later], after⟩

theorem tupleText_one (asset : FrozenAsset) (rest : Text) : tupleText [asset.repr printable] ++ rest =
      code '(' :: (asset.repr printable ++ (code ',' :: code ')' :: rest)) := by
  simp [tupleText, text]

theorem tupleText_more (asset next : FrozenAsset) (assets : List FrozenAsset) (rest : Text) :
    tupleText ((asset :: next :: assets).map (FrozenAsset.repr printable)) ++ rest =
      code '(' :: (asset.repr printable ++ (code ',' :: code ' ' :: (next.repr printable ++
        (others printable assets ++ (text ")" ++ rest))))) := by
  simp [tupleText, others, text]

theorem tupleText_injective (same : tupleText (first.map (FrozenAsset.repr printable)) ++ rest =
      tupleText (second.map (FrozenAsset.repr printable)) ++ more) : first = second ∧ rest = more := by
  have apart : ∀ {x y : Text}, code ',' :: code ')' :: x ≠ code ',' :: code ' ' :: y := by
    intro x y equal
    exact absurd (cons.inj (cons.inj equal).2).1 (by decide)
  rcases first with _ | ⟨asset, _ | ⟨next, first⟩⟩
  · rcases second with _ | ⟨other, _ | ⟨after, second⟩⟩
    · exact ⟨rfl, (cons.inj (cons.inj same).2).2⟩
    · exact absurd (cons.inj (cons.inj same).2).1 (by decide)
    · exact absurd (cons.inj (cons.inj same).2).1 (by decide)
  · rcases second with _ | ⟨other, _ | ⟨after, second⟩⟩
    · exact absurd (cons.inj (cons.inj same).2).1 (by decide)
    · simp only [map_cons, map_nil, tupleText_one] at same
      obtain ⟨head, tail⟩ := FrozenAsset.repr_injective (cons.inj same).2
      exact ⟨by rw [head], (cons.inj (cons.inj tail).2).2⟩
    · rw [tupleText_more, map_cons, map_nil, tupleText_one] at same
      exact absurd (FrozenAsset.repr_injective (cons.inj same).2).2 apart
  · rcases second with _ | ⟨other, _ | ⟨after, second⟩⟩
    · exact absurd (cons.inj (cons.inj same).2).1 (by decide)
    · rw [tupleText_more, map_cons, map_nil, tupleText_one] at same
      exact absurd (FrozenAsset.repr_injective (cons.inj same).2).2.symm apart
    · rw [tupleText_more, tupleText_more] at same
      obtain ⟨head, tail⟩ := FrozenAsset.repr_injective (cons.inj same).2
      obtain ⟨second, tail⟩ := FrozenAsset.repr_injective (cons.inj (cons.inj tail).2).2
      obtain ⟨later, closing⟩ := others_injective tail
      exact ⟨by rw [head, second, later], closing⟩

theorem Manifest.repr_injective {first second : Manifest}
    (same : first.repr printable = second.repr printable) : first = second := by
  obtain ⟨assets, sheet, reviewer, mode⟩ := first
  obtain ⟨assets', sheet', reviewer', mode'⟩ := second
  simp only [Manifest.repr] at same
  obtain ⟨tuple, afterTuple⟩ := tupleText_injective (append_cancel_left same)
  obtain ⟨page, afterPage⟩ := FrozenAsset.repr_injective (append_cancel_left afterTuple)
  obtain ⟨name, afterName⟩ := reprText_injective (append_cancel_left afterPage)
  obtain ⟨kind, -⟩ := reprText_injective (append_cancel_left afterName)
  rw [tuple, page, name, kind]

end Representation

/-! ## What is read back -/

variable {R : Runner}

variable {β α : Type} {f : α → Result β}

theorem bind_eq_ok {x : Result α} {b : β} : x.bind f = .ok b ↔ ∃ a, x = .ok a ∧ f a = .ok b := by
  cases x <;> simp [Except.bind]

variable {entries : Entries Float64}

theorem field_image (ascii : Bool) (single : entries.keys.Nodup) (name : String) (value : Value Float64) (there : get
    entries (text name) = some value) : field (image ascii id (.obj entries)) name = .ok (image ascii id value) := by
  rw [image, field, get_image ascii id single, there]
  rfl

theorem fieldOr_image (ascii : Bool) (single : entries.keys.Nodup) (name : String)
    (value : Value Float64) (there : get entries (text name) = some value) (default : Value Float64) :
    fieldOr (image ascii id (.obj entries)) name default = .ok (image ascii id value) := by
  rw [image, fieldOr, get_image ascii id single, there]
  rfl

theorem mapM_map {γ : Type} {f : β → Result γ} {g : α → β} {h : α → γ} (list : List α)
    (each : ∀ a ∈ list, f (g a) = .ok (h a)) : (list.map g).mapM f = .ok (list.map h) := by
  induction list with
  | nil => rfl
  | cons a list ih =>
    rw [map_cons, mapM_cons, each a (.head _), ih fun b member => each b (.tail _ member)]
    rfl

theorem single_asset (asset : FrozenAsset) : asset.fields.keys.Nodup := by
  have names : asset.fields.keys = [text "path", text "sha256", text "reviewer", text "mode"] := rfl
  rw [names]
  decide

theorem single_manifest (manifest : Manifest) : manifest.fields.keys.Nodup := by
  have names : manifest.fields.keys = [text "assets", text "sheet", text "reviewer", text "mode"] := rfl
  rw [names]
  decide

theorem single_job (job : Job) (manifest : Value Float64) : (job.fields manifest).keys.Nodup := by
  have names : (job.fields manifest).keys = [text "scene", text "category", text "mode", text "endpoint",
    text "payload", text "manifest", text "cost", text "predecessor", text "input_kind"] := rfl
  rw [names]
  decide

theorem assetFrom_image (asset : FrozenAsset) : assetFrom (image true id asset.asdict) = .ok asset.reread := by
  have single := single_asset asset
  have path : field (image true id asset.asdict) "path" = .ok (.str (join asset.path.chars)) :=
    field_image true single "path" (.str asset.path.chars) rfl
  have sha256 : field (image true id asset.asdict) "sha256" = .ok (.str (join asset.sha256)) :=
    field_image true single "sha256" (.str asset.sha256) rfl
  have reviewer : field (image true id asset.asdict) "reviewer" = .ok (.str (join asset.reviewer)) :=
    field_image true single "reviewer" (.str asset.reviewer) rfl
  have mode : field (image true id asset.asdict) "mode" = .ok (.str (join asset.mode)) :=
    field_image true single "mode" (.str asset.mode) rfl
  unfold assetFrom stringField
  rw [path, sha256, reviewer, mode]
  rfl

theorem manifestFrom_image (manifest : Manifest) :
    manifestFrom (image true id manifest.asdict) = .ok manifest.reread := by
  have single := single_manifest manifest
  have listed : field (image true id manifest.asdict) "assets" =
      .ok (.arr ((manifest.assets.map FrozenAsset.asdict).map (image true id))) := by
    rw [← imageItems_eq_map]
    exact field_image true single "assets" (.arr (manifest.assets.map FrozenAsset.asdict)) rfl
  have sheet : field (image true id manifest.asdict) "sheet" = .ok (image true id manifest.sheet.asdict) :=
    field_image true single "sheet" manifest.sheet.asdict rfl
  have reviewer : field (image true id manifest.asdict) "reviewer" = .ok (.str (join manifest.reviewer)) :=
    field_image true single "reviewer" (.str manifest.reviewer) rfl
  have mode : field (image true id manifest.asdict) "mode" = .ok (.str (join manifest.mode)) :=
    field_image true single "mode" (.str manifest.mode) rfl
  have assets : ((manifest.assets.map FrozenAsset.asdict).map (image true id)).mapM assetFrom =
      .ok (manifest.assets.map FrozenAsset.reread) := by
    rw [map_map]
    exact mapM_map _ fun asset _ => assetFrom_image asset
  unfold manifestFrom stringField
  rw [listed, sheet, reviewer, mode]
  simp only [bind, Except.bind, items, assets, assetFrom_image, string]
  rfl

structure Job.ClearTexts (job : Job) : Prop where
  scene : Clear job.scene
  category : Clear job.category
  mode : Clear job.mode
  endpoint : Clear job.endpoint
  payload : ClearValue (.obj job.payload)
  cost : ClearValue job.cost.asdict
  predecessor : Clear job.predecessor
  inputKind : Clear job.inputKind

theorem clear_of_str (clear : ClearValue (.str chars : Value Float64)) : Clear chars :=
  clear chars (.head _)

variable {job : Job}

theorem clearTexts_of {manifest : Value Float64} (clear : ClearValue (.obj (job.fields manifest))) :
    job.ClearTexts := by
  rw [clearValue_obj] at clear
  simp only [Job.fields, mem_cons, not_mem_nil, or_false, forall_eq_or_imp, forall_eq] at clear
  obtain ⟨scene, category, mode, endpoint, payload, -, cost, predecessor, inputKind⟩ := clear
  exact ⟨clear_of_str scene.2, clear_of_str category.2, clear_of_str mode.2, clear_of_str endpoint.2, payload.2,
    cost.2, clear_of_str predecessor.2, clear_of_str inputKind.2⟩

theorem proper_asset (asset : FrozenAsset) : Proper asset.asdict := by
  rw [FrozenAsset.asdict, Proper, properEntries_iff]
  refine ⟨single_asset asset, ?_⟩
  simp [FrozenAsset.fields, clear_text, Proper]

theorem proper_manifest (manifest : Manifest) : Proper manifest.asdict := by
  rw [Manifest.asdict, Proper, properEntries_iff]
  refine ⟨single_manifest manifest, ?_⟩
  have assets : Proper (.arr (manifest.assets.map FrozenAsset.asdict)) := by
    rw [Proper, properItems_iff]
    intro item member
    obtain ⟨asset, -, rfl⟩ := mem_map.mp member
    exact proper_asset asset
  simp [Manifest.fields, clear_text, assets, proper_asset]
  simp [Proper]

theorem proper_job (clear : job.ClearTexts) {manifest : Value Float64} (proper : Proper manifest) :
    Proper (.obj (job.fields manifest)) := by
  have payload : Proper (.obj job.payload) := proper_of_clear job.payloadDict clear.payload
  have cost : Proper job.cost.asdict := by
    cases job.cost <;> trivial
  rw [Proper, properEntries_iff]
  refine ⟨single_job job manifest, ?_⟩
  simp only [Job.fields, mem_cons, not_mem_nil, or_false, forall_eq_or_imp, forall_eq, clear_text,
    true_and, payload, cost, proper]
  simp only [Proper, and_self]

theorem proper_asdict (clear : job.ClearTexts) : Proper job.asdict := by
  refine proper_job clear ?_
  cases job.manifest with
  | none => trivial
  | some manifest => exact proper_manifest manifest

theorem readsNumbers (ascii : Bool) (nesting : ℕ) (layout : Layout) :
    ReadsNumbers ⟨ascii, fun number => .ok number.written, nesting, layout⟩ (plain nesting) id := by
  intro depth value t written
  obtain rfl : value.written = t := Except.ok.inj written
  exact parses_written depth nesting value

variable {spec : Value Float64}

theorem jobSpec_eq (clear : job.ClearTexts) (built : jobSpec R job = .ok spec) : spec = image true id job.asdict := by
  obtain ⟨chars, written, read⟩ := bind_eq_ok.1 built
  have own := loads_dumps (plain_keeps R.nesting) (readsNumbers true R.nesting spaced) rfl (proper_asdict clear) written
  rw [own] at read
  exact (Except.ok.inj read).symm

def Job.rebuilt (job : Job) (manifest : Manifest) (amount : Decimal) : Job where
  scene := job.scene
  category := job.category
  mode := job.mode
  endpoint := job.endpoint
  payload := inOrder (imageEntries true id job.payload)
  payloadDict := distinct_image true id job.payloadDict
  manifest := some manifest
  cost := .decimal amount
  predecessor := job.predecessor
  inputKind := text "IMAGE_EDIT"

theorem payloadFrom_obj (single : distinct (.obj entries) = true) :
    payloadFrom (.obj entries) = .ok ⟨entries, single⟩ := dif_pos single

variable {amount : Decimal}

theorem jobFromSpec_some (clear : job.ClearTexts)
    (given : job.manifest = some manifest) (cost : decimalFrom job.cost.asdict = .ok amount) :
    jobFromSpec (image true id job.asdict) = .ok (job.rebuilt manifest.reread amount) := by
  have single := single_job job manifest.asdict
  have is : job.asdict = .obj (job.fields manifest.asdict) := by
    rw [Job.asdict, given]
    rfl
  have plainText : ∀ {chars : Text}, Clear chars → (image true id (.str chars) : Value Float64) = .str chars :=
    fun clear => congrArg Value.str (join_of_clear clear)
  have same : image true id job.cost.asdict = job.cost.asdict := by
    rw [image_of_clear id clear.cost]
    cases job.cost <;> rfl
  rw [is]
  unfold jobFromSpec stringField
  rw [field_image true single "manifest" manifest.asdict rfl, field_image true single "scene" (.str job.scene) rfl,
    field_image true single "category" (.str job.category) rfl,
    field_image true single "mode" (.str job.mode) rfl,
    field_image true single "endpoint" (.str job.endpoint) rfl,
    field_image true single "payload" (.obj job.payload) rfl,
    field_image true single "cost" job.cost.asdict rfl,
    fieldOr_image true single "predecessor" (.str job.predecessor) rfl,
    plainText clear.scene, plainText clear.category, plainText clear.mode, plainText clear.endpoint,
    plainText clear.predecessor, same]
  simp only [bind, Except.bind, manifestFrom_image, string, cost]
  rw [image, payloadFrom_obj (distinct_image true id job.payloadDict)]
  rfl

theorem jobFromSpec_none (given : job.manifest = none) : jobFromSpec (image true id job.asdict) = .error .refused := by
  have is : job.asdict = .obj (job.fields .null) := by
    rw [Job.asdict, given]
    rfl
  rw [is]
  unfold jobFromSpec
  rw [field_image true (single_job job .null) "manifest" .null rfl]
  rfl

/-! ## Hashes -/

variable {value : Value Float64} {hash : Text}

theorem digest_eq_ok (hashed : digest R value = .ok hash) :
    ∃ chars, dumps ⟨true, finiteOnly, R.nesting, compact⟩ value = .ok chars ∧ R.sha256 chars = hash := by
  obtain ⟨chars, written, rest⟩ := bind_eq_ok.1 hashed
  obtain ⟨bytes, coded, is⟩ := bind_eq_ok.1 rest
  obtain ⟨-, rfl⟩ := encoded_eq_ok.mp coded
  exact ⟨_, written, Except.ok.inj is⟩

theorem digestJson_eq_ok (hashed : digestJson R value = .ok hash) : ∃ chars, dumps ⟨false,
    fun number => .ok number.written, R.nesting, compact⟩ value = .ok chars ∧ Clear chars ∧ R.sha256 chars = hash := by
  obtain ⟨chars, written, rest⟩ := bind_eq_ok.1 hashed
  obtain ⟨bytes, coded, is⟩ := bind_eq_ok.1 rest
  obtain ⟨clear, rfl⟩ := encoded_eq_ok.mp coded
  exact ⟨_, written, clear, Except.ok.inj is⟩

theorem clear_of_digestJson (hashed : digestJson R value = .ok hash) : ClearValue value := by
  obtain ⟨chars, written, clear, -⟩ := digestJson_eq_ok hashed
  exact clear_of_write rfl written clear

theorem readsFinite (nesting : ℕ) (layout : Layout) :
    ReadsNumbers ⟨true, finiteOnly, nesting, layout⟩ (plain nesting) id := by
  intro depth value t written
  cases value with
  | finite negative magnitude =>
    obtain rfl : Float64.written (.finite negative magnitude) = t := Except.ok.inj written
    exact parses_written depth nesting _
  | infinite negative => cases written
  | nan => cases written

variable {second first : Value Float64}

theorem image_of_digest (injective : Function.Injective R.sha256)
    (proper : Proper first) (other : Proper second) (hashed : digest R first = .ok hash)
    (same : digest R second = .ok hash) : image true id first = image true id second := by
  obtain ⟨chars, written, is⟩ := digest_eq_ok hashed
  obtain ⟨chars', written', is'⟩ := digest_eq_ok same
  obtain rfl : chars = chars' := injective (is.trans is'.symm)
  have read := loads_dumps (plain_keeps R.nesting) (readsFinite R.nesting compact) rfl proper written
  have read' := loads_dumps (plain_keeps R.nesting) (readsFinite R.nesting compact) rfl other written'
  exact Except.ok.inj (read.symm.trans read')

theorem image_of_digestJson (injective : Function.Injective R.sha256)
    (proper : Proper first) (other : Proper second) (hashed : digestJson R first = .ok hash)
    (same : digestJson R second = .ok hash) : image false id first = image false id second := by
  obtain ⟨chars, written, -, is⟩ := digestJson_eq_ok hashed
  obtain ⟨chars', written', -, is'⟩ := digestJson_eq_ok same
  obtain rfl : chars = chars' := injective (is.trans is'.symm)
  have read := loads_dumps (plain_keeps R.nesting) (readsNumbers false R.nesting compact) rfl proper written
  have read' := loads_dumps (plain_keeps R.nesting) (readsNumbers false R.nesting compact) rfl other written'
  exact Except.ok.inj (read.symm.trans read')

/-! ## One job -/

/-- The kind is the default one, there is a manifest without pairs of surrogates, and the cost is a
decimal number. -/
def Survives (job : Job) : Prop :=
  job.inputKind = text "IMAGE_EDIT" ∧ (∃ manifest, job.manifest = some manifest ∧ manifest.Unpaired) ∧
    ∃ amount, job.cost = .decimal amount

def Survived (R : Runner) (job : Job) : Prop :=
  ∃ rebuilt, (jobSpec R job).bind jobFromSpec = .ok rebuilt ∧ requestId R rebuilt = requestId R job ∧
    jobSha256 R rebuilt = jobSha256 R job

theorem write_rebuilt {N : Encoder Float64} (clear : job.ClearTexts)
    (kind : job.inputKind = text "IMAGE_EDIT") (cost : job.cost = .decimal amount)
    (manifest : Manifest) (value : Value Float64) (depth : ℕ) :
    write N depth (.obj ((job.rebuilt manifest amount).fields value)) =
      write N depth (.obj (job.fields value)) := by
  have payload : ∀ depth, write N depth (.obj (inOrder (imageEntries true id job.payload))) =
      write N depth (.obj job.payload) := by
    intro depth
    have is : (.obj (inOrder (imageEntries true id job.payload)) : Value Float64) =
        image N.ascii id (.obj job.payload) := by
      cases N.ascii with
      | true => rfl
      | false => exact image_of_clear id clear.payload
    rw [is, write_image]
  cases depth with
  | zero => rfl
  | succ depth =>
    have entries : writeEntries N depth ((job.rebuilt manifest amount).fields value) =
        writeEntries N depth (job.fields value) := by
      simp only [Job.fields, Job.rebuilt, writeEntries, payload, kind, cost]
    rw [write, write, entries]

theorem decimalFrom_asdict (finite : job.cost.amount.isFinite = true) :
    decimalFrom job.cost.asdict = .ok job.cost.amount := by
  cases is : job.cost with
  | int value => rfl
  | decimal amount =>
    rw [is] at finite
    cases amount with
    | finite negative coefficient exponent =>
      rw [Cost.asdict, decimalFrom, Decimal.ofText_str]
      rfl
    | infinite negative => cases finite
    | nan => cases finite

theorem survived_of_survives (clear : job.ClearTexts) (built : jobSpec R job = .ok spec)
    (finite : job.cost.amount.isFinite = true) (survives : Survives job) : Survived R job := by
  obtain ⟨kind, ⟨manifest, given, unpaired⟩, amount, cost⟩ := survives
  have same : job.cost.amount = amount := by
    rw [cost]
    rfl
  refine ⟨job.rebuilt manifest.reread amount, ?_, ?_, ?_⟩
  · rw [built, jobSpec_eq clear built, ← same]
    exact jobFromSpec_some clear given (decimalFrom_asdict finite)
  · unfold requestId digest dumps Job.asdict
    rw [write_rebuilt clear kind cost, given, Manifest.reread_eq_iff.2 unpaired]
    rfl
  · unfold jobSha256 digestJson dumps Job.dict
    rw [write_rebuilt clear kind cost, given, Manifest.reread_eq_iff.2 unpaired]
    rfl

theorem proper_dict (clear : job.ClearTexts) (printable : CodePoint → Bool) : Proper (job.dict printable) := by
  refine proper_job clear ?_
  cases job.manifest <;> trivial

theorem image_field {ascii : Bool} {first second : Job} {other : Value Float64}
    (same : image ascii id (.obj (first.fields value)) = image ascii id (.obj (second.fields other)))
    (name : String) {x y : Value Float64} (there : get (first.fields value) (text name) = some x)
    (here : get (second.fields other) (text name) = some y) : image ascii id x = image ascii id y := by
  have left := field_image ascii (single_job first value) name x there
  have right := field_image ascii (single_job second other) name y here
  rw [same] at left
  exact Except.ok.inj (left.symm.trans right)

theorem survives_of_survived (injective : Function.Injective R.sha256) (clear : job.ClearTexts)
    (finite : job.cost.amount.isFinite = true) {identity : Text} (named : requestId R job = .ok identity)
    (bound : jobSha256 R job = .ok hash) (survived : Survived R job) : Survives job := by
  obtain ⟨rebuilt, read, identified, hashed⟩ := survived
  obtain ⟨spec, built, made⟩ := bind_eq_ok.1 read
  rw [jobSpec_eq clear built] at made
  obtain ⟨manifest, given⟩ : ∃ manifest, job.manifest = some manifest := by
    cases is : job.manifest with
    | none =>
      rw [jobFromSpec_none is] at made
      cases made
    | some manifest => exact ⟨manifest, rfl⟩
  rw [jobFromSpec_some clear given (decimalFrom_asdict finite)] at made
  obtain rfl := Except.ok.inj made
  have clear' : (job.rebuilt manifest.reread job.cost.amount).ClearTexts :=
    clearTexts_of (clear_of_digestJson (hashed.trans bound))
  have fields := image_of_digest injective (proper_asdict clear') (proper_asdict clear) (identified.trans named) named
  have dict := image_of_digestJson injective (proper_dict clear' R.printable) (proper_dict clear R.printable)
    (hashed.trans bound) bound
  refine ⟨?_, ⟨manifest, given, ?_⟩, ?_⟩
  · have kinds := Value.str.inj (image_field fields "input_kind" rfl rfl)
    rw [reread_of_clear true clear'.inputKind, reread_of_clear true clear.inputKind] at kinds
    exact kinds.symm
  · rw [Job.dict, Job.dict, given] at dict
    have texts := Value.str.inj (image_field dict "manifest" rfl rfl)
    exact Manifest.reread_eq_iff.1 (Manifest.repr_injective texts)
  · have costs := image_field fields "cost" rfl rfl
    cases is : job.cost with
    | decimal amount => exact ⟨amount, rfl⟩
    | int value =>
      rw [is] at costs
      cases costs

/-! ## The document -/

theorem require_eq_ok {condition : Prop} [Decidable condition] {u : Unit} : require condition = .ok u ↔ condition := by
  unfold require
  split_ifs with holds <;> simp [holds]

theorem mapM_eq_ok {list : List α} {made : List β} :
    list.mapM f = .ok made ↔ List.Forall₂ (fun a b => f a = .ok b) list made := by
  induction list generalizing made with
  | nil => simp [pure, Except.pure, eq_comm]
  | cons a list ih =>
    rw [mapM_cons]
    constructor
    · intro all
      obtain ⟨b, first, rest⟩ := bind_eq_ok.1 all
      obtain ⟨others, later, is⟩ := bind_eq_ok.1 rest
      obtain rfl := Except.ok.inj is
      exact .cons first (ih.mp later)
    · intro all
      cases all with
      | cons first others =>
        rw [first, ih.mpr others]
        rfl

structure Started (R : Runner) (jobs : List Job) (file : Text) where
  packetSha256 : Text
  bindings : List Binding
  specs : List (Value Float64)
  createdAt : Float64
  bound : List.Forall₂ (fun job binding => jobBinding R job = .ok binding) jobs bindings
  finite : ∀ job ∈ jobs, job.cost.amount.isFinite = true
  built : List.Forall₂ (fun job spec => jobSpec R job = .ok spec) jobs specs
  written : fileOf R (.obj (documentFields R packetSha256 bindings specs createdAt)) = .ok file

variable {binding : Binding}

theorem admitJob_eq_ok (admitted : admitJob R job = .ok binding) :
    jobBinding R job = .ok binding ∧ job.cost.amount.isFinite = true := by
  obtain ⟨_, -, rest⟩ := bind_eq_ok.1 admitted
  obtain ⟨_, paid, bound⟩ := bind_eq_ok.1 rest
  obtain ⟨_, -, rest⟩ := bind_eq_ok.1 paid
  obtain ⟨_, positive, -⟩ := bind_eq_ok.1 rest
  exact ⟨bound, (require_eq_ok.1 positive).1⟩

theorem start_eq_ok {packet : Entries Float64} {createdAt : Float64} {jobs : List Job} {file : Text}
    (accepted : start R packet createdAt none jobs = .ok file) : Nonempty (Started R jobs file) := by
  obtain ⟨_, -, rest⟩ := bind_eq_ok.1 accepted
  obtain ⟨ids, -, rest⟩ := bind_eq_ok.1 rest
  obtain ⟨_, -, rest⟩ := bind_eq_ok.1 rest
  obtain ⟨edges, -, rest⟩ := bind_eq_ok.1 rest
  obtain ⟨_, -, rest⟩ := bind_eq_ok.1 rest
  obtain ⟨bindings, admitted, rest⟩ := bind_eq_ok.1 rest
  obtain ⟨_, -, rest⟩ := bind_eq_ok.1 rest
  obtain ⟨packetSha256, -, rest⟩ := bind_eq_ok.1 rest
  obtain ⟨specs, built, written⟩ := bind_eq_ok.1 rest
  have all := mapM_eq_ok.1 admitted
  refine ⟨packetSha256, bindings, specs, createdAt, all.imp fun _ _ is => (admitJob_eq_ok is).1, ?_,
    mapM_eq_ok.1 built, written⟩
  intro job member
  obtain ⟨binding, -, is⟩ := mem_of_forall₂ all member
  exact (admitJob_eq_ok is).2

theorem jobBinding_eq_ok (bound : jobBinding R job = .ok binding) :
    requestId R job = .ok binding.requestId ∧ jobSha256 R job = .ok binding.jobSha256 := by
  obtain ⟨identity, named, rest⟩ := bind_eq_ok.1 bound
  obtain ⟨hash, hashed, is⟩ := bind_eq_ok.1 rest
  obtain rfl := Except.ok.inj is
  exact ⟨named, hashed⟩

theorem clearTexts_of_bound (bound : jobBinding R job = .ok binding) :
    job.ClearTexts := clearTexts_of (clear_of_digestJson (jobBinding_eq_ok bound).2)

theorem single_document (packetSha256 : Text) (bindings : List Binding) (specs : List (Value Float64))
    (createdAt : Float64) : (documentFields R packetSha256 bindings specs createdAt).keys.Nodup := by
  have names : (documentFields R packetSha256 bindings specs createdAt).keys = [text "schema", text "mode",
    text "namespace", text "episode_id", text "policy_sha256", text "packet_sha256", text "jobs",
    text "job_specs", text "scheduler", text "qa", text "media", text "delivery", text "gates", text "state",
    text "created_at"] := rfl
  rw [names]
  decide

theorem single_binding (binding : Binding) : binding.fields.keys.Nodup := by
  have names : binding.fields.keys = [text "request_id", text "job_sha256"] := rfl
  rw [names]
  decide

namespace Started
variable {jobs : List Job} {file : Text} (started : Started R jobs file)
include started

theorem spec_eq (member : spec ∈ started.specs) : ∃ job ∈ jobs, job.ClearTexts ∧ spec = image true id job.asdict := by
  obtain ⟨job, inside, built⟩ := mem_of_forall₂ started.built.flip member
  obtain ⟨binding, -, bound⟩ := mem_of_forall₂ started.bound inside
  have clear := clearTexts_of_bound bound
  exact ⟨job, inside, clear, jobSpec_eq clear built⟩

theorem proper_document : Proper (.obj (documentFields R started.packetSha256 started.bindings started.specs
    started.createdAt)) := by
  have bindings : Proper (.arr (started.bindings.map value)) := by
    rw [Proper, properItems_iff]
    intro item member
    obtain ⟨binding, -, rfl⟩ := mem_map.mp member
    rw [value, Proper, properEntries_iff]
    refine ⟨single_binding binding, ?_⟩
    simp [fields, clear_text, Proper]
  have specs : Proper (.arr started.specs) := by
    rw [Proper, properItems_iff]
    intro spec member
    obtain ⟨job, -, clear, rfl⟩ := started.spec_eq member
    exact proper_image true id (proper_asdict clear)
  have scheduler : Proper (.obj [(text "provider_concurrency", (.int R.providerConcurrency : Value Float64)),
      (text "cpu_concurrency", .int R.cpuConcurrency)]) := by
    rw [Proper, properEntries_iff]
    refine ⟨?_, by simp [clear_text, Proper]⟩
    show [text "provider_concurrency", text "cpu_concurrency"].Nodup
    decide
  have empty : Proper (.obj [] : Value Float64) := by simp [Proper, ProperEntries, Entries.keys]
  rw [Proper, properEntries_iff]
  refine ⟨single_document .., ?_⟩
  simp only [documentFields, mem_cons, not_mem_nil, or_false, forall_eq_or_imp, forall_eq, clear_text,
    true_and, bindings, specs, scheduler, empty]
  simp only [Proper, and_self]

theorem load_eq : load R file = .ok (image false id (.obj (documentFields R started.packetSha256
    started.bindings started.specs started.createdAt))) := by
  obtain ⟨chars, written, coded⟩ := bind_eq_ok.1 started.written
  obtain ⟨-, rfl⟩ := encoded_eq_ok.mp coded
  have read := loads_dumps (plain_keeps R.nesting) (readsNumbers false R.nesting indented) rfl
    started.proper_document written
  have single := single_document (R := R) started.packetSha256 started.bindings started.specs started.createdAt
  unfold load stringField
  rw [read]
  simp only [bind, Except.bind]
  rw [field_image false single "policy_sha256" (.str R.policy.digest) rfl,
    field_image false single "mode" (.str (text "TEST")) rfl,
    field_image false single "namespace" (.str (text "TEST")) rfl]
  simp only [string, image, reread, Bool.false_eq_true, if_false, require, and_self, if_true]
  rfl

variable {document : Value Float64}

theorem bindings_eq (loaded : load R file = .ok document) : bindingsOf document = .ok started.bindings := by
  rw [started.load_eq] at loaded
  obtain rfl := Except.ok.inj loaded
  have single := single_document (R := R) started.packetSha256 started.bindings started.specs started.createdAt
  have each : ∀ binding : Binding, bindingFrom (image false id binding.value) = .ok binding := by
    intro binding
    unfold bindingFrom stringField value
    rw [field_image false (single_binding binding) "request_id" (.str binding.requestId) rfl,
      field_image false (single_binding binding) "job_sha256" (.str binding.jobSha256) rfl]
    rfl
  have all : ((started.bindings.map value).map (image false id)).mapM bindingFrom = .ok started.bindings := by
    have read := mapM_map (f := bindingFrom) (g := fun binding => image false id (value binding))
      (h := id) started.bindings fun binding _ => each binding
    rw [map_id] at read
    rw [map_map]
    exact read
  unfold bindingsOf
  rw [field_image false single "jobs" (.arr (started.bindings.map value)) rfl, image, imageItems_eq_map]
  exact all

theorem specs_eq (loaded : load R file = .ok document) :
    (fieldOr document "job_specs" (.arr [])).bind items = .ok started.specs := by
  rw [started.load_eq] at loaded
  obtain rfl := Except.ok.inj loaded
  have single := single_document (R := R) started.packetSha256 started.bindings started.specs started.createdAt
  have same : started.specs.map (image false id) = started.specs := by
    calc started.specs.map (image false id) = started.specs.map id := by
          refine map_congr_left fun spec member => ?_
          obtain ⟨job, -, -, rfl⟩ := started.spec_eq member
          exact image_image true id job.asdict
      _ = started.specs := map_id _
  rw [fieldOr_image false single "job_specs" (.arr started.specs) rfl, image, imageItems_eq_map, same]
  rfl

theorem made (survived : ∀ job ∈ jobs, Survived R job) : ∃ rebuilt, started.specs.mapM jobFromSpec = .ok rebuilt ∧
      List.Forall₂ (fun job again => jobBinding R again = jobBinding R job) jobs rebuilt := by
  have each : ∀ {jobs : List Job} {specs : List (Value Float64)},
      List.Forall₂ (fun job spec => jobSpec R job = .ok spec) jobs specs → (∀ job ∈ jobs, Survived R job) →
        ∃ rebuilt, specs.mapM jobFromSpec = .ok rebuilt ∧
          List.Forall₂ (fun job again => jobBinding R again = jobBinding R job) jobs rebuilt := by
    intro jobs specs built survived
    induction built with
    | nil => exact ⟨[], rfl, .nil⟩
    | cons first _ ih =>
      obtain ⟨again, read, identified, hashed⟩ := survived _ (.head _)
      obtain ⟨others, later, same⟩ := ih fun job member => survived job (.tail _ member)
      rw [first] at read
      have own : jobFromSpec _ = .ok again := read
      refine ⟨again :: others, ?_, .cons ?_ same⟩
      · rw [mapM_cons, own, later]
        rfl
      · unfold jobBinding
        rw [identified, hashed]
  exact each started.built survived

theorem bindings_of_rebuilt {rebuilt : List Job} (same : List.Forall₂ (fun job again => jobBinding R again =
    jobBinding R job) jobs rebuilt) : rebuilt.mapM (jobBinding R) = .ok started.bindings := by
  have compose : ∀ {jobs rebuilt : List Job} {bindings : List Binding},
      List.Forall₂ (fun job again => jobBinding R again = jobBinding R job) jobs rebuilt →
      List.Forall₂ (fun job binding => jobBinding R job = .ok binding) jobs bindings →
        List.Forall₂ (fun again binding => jobBinding R again = .ok binding) rebuilt bindings := by
    intro jobs rebuilt bindings same bound
    induction same generalizing bindings with
    | nil =>
      cases bound
      exact .nil
    | cons first _ ih =>
      cases bound with
      | cons one others => exact .cons (first.trans one) (ih others)
  exact mapM_eq_ok.2 (compose same started.bound)

theorem rebuild (survived : ∀ job ∈ jobs, Survived R job) : ∃ rebuilt, rebuildJobs R file = .ok rebuilt ∧
      List.Forall₂ (fun job again => jobBinding R again = jobBinding R job) jobs rebuilt := by
  obtain ⟨rebuilt, read, same⟩ := started.made survived
  have actual := started.bindings_of_rebuilt same
  obtain ⟨document, loaded⟩ : ∃ document, load R file = .ok document := ⟨_, started.load_eq⟩
  have specs := started.specs_eq loaded
  have expected := started.bindings_eq loaded
  have equal : sameDict started.bindings started.bindings = true := by
    simp [sameDict]
  have valid : validateResumeJobs R file rebuilt = .ok rebuilt :=
    bind_eq_ok.2 ⟨document, loaded, bind_eq_ok.2 ⟨_, expected, bind_eq_ok.2 ⟨_, actual,
      bind_eq_ok.2 ⟨(), require_eq_ok.2 equal, rfl⟩⟩⟩⟩
  exact ⟨rebuilt, bind_eq_ok.2 ⟨document, loaded, bind_eq_ok.2 ⟨_, specs, bind_eq_ok.2 ⟨_, read, valid⟩⟩⟩, same⟩

end Started

/-- Exactly the jobs of the default kind with a manifest, read as it was written, and a decimal cost come
back as they were started. -/
theorem rebuilt_exactly (injective : Function.Injective R.sha256) {packet : Entries Float64}
    {createdAt : Float64} {jobs : List Job} {file : Text} (accepted : start R packet createdAt none jobs = .ok file) :
    ((∀ job ∈ jobs, Survived R job) ∧ ∃ rebuilt, rebuildJobs R file = .ok rebuilt ∧ List.Forall₂
    (fun job again => jobBinding R again = jobBinding R job) jobs rebuilt) ↔ ∀ job ∈ jobs, Survives job := by
  obtain ⟨started⟩ := start_eq_ok accepted
  constructor
  · rintro ⟨survived, -⟩ job member
    obtain ⟨binding, -, bound⟩ := mem_of_forall₂ started.bound member
    obtain ⟨named, hashed⟩ := jobBinding_eq_ok bound
    exact survives_of_survived injective (clearTexts_of_bound bound) (started.finite job member) named hashed
      (survived job member)
  · intro survives
    have survived : ∀ job ∈ jobs, Survived R job := by
      intro job member
      obtain ⟨binding, -, bound⟩ := mem_of_forall₂ started.bound member
      obtain ⟨spec, -, built⟩ := mem_of_forall₂ started.built member
      exact survived_of_survives (clearTexts_of_bound bound) built (started.finite job member) (survives job member)
    exact ⟨survived, started.rebuild survived⟩

def sampleRunner : Runner where
  episodeId := text "e"
  policy := ⟨text "p", .finite false 1 0, .finite false 1 0, [text "fal"]⟩
  providerConcurrency := 1
  cpuConcurrency := 1
  sha256 := id
  printable _ := false
  nesting := 8

def sampleAsset : FrozenAsset := ⟨.of (text "/a"), text "0", text "r", text "TEST"⟩

def sampleJob : Job where
  scene := text "s"
  category := text "first"
  mode := text "TEST"
  endpoint := text "fal"
  payload := [(text "seed", .int 1)]
  payloadDict := by decide
  manifest := some ⟨[sampleAsset], sampleAsset, text "r", text "TEST"⟩
  cost := .decimal (.finite false 4 (-2))
  predecessor := []
  inputKind := text "IMAGE_EDIT"

def drawnJob : Job := { sampleJob with manifest := none, inputKind := text "TEXT_TO_IMAGE" }

def sampleTime : Float64 := .ofLiteral ⟨false, 0, 0⟩

theorem rebuilt_exactly_sample : ∃ file, start sampleRunner [] sampleTime none [sampleJob] = .ok file ∧
    (((∀ job ∈ [sampleJob], Survived sampleRunner job) ∧ ∃ rebuilt, rebuildJobs sampleRunner file = .ok rebuilt ∧
    List.Forall₂ (fun job again => jobBinding sampleRunner again = jobBinding sampleRunner job) [sampleJob] rebuilt)
    ↔ ∀ job ∈ [sampleJob], Survives job) := by
  have runs : (start sampleRunner [] sampleTime none [sampleJob]).toOption.isSome = true := by decide +kernel
  cases accepted : start sampleRunner [] sampleTime none [sampleJob] with
  | error fault =>
    rw [accepted] at runs
    cases runs
  | ok file => exact ⟨file, rfl, rebuilt_exactly Function.injective_id accepted⟩

theorem drawn_lost : ∃ file, start sampleRunner [] sampleTime none [drawnJob] = .ok file ∧
    (rebuildJobs sampleRunner file).toOption.isSome = false := by
  have runs : (start sampleRunner [] sampleTime none [drawnJob]).toOption.isSome = true ∧
      ((start sampleRunner [] sampleTime none [drawnJob]).bind (rebuildJobs sampleRunner)).toOption.isSome =
        false := by decide +kernel
  cases accepted : start sampleRunner [] sampleTime none [drawnJob] with
  | error fault =>
    rw [accepted] at runs
    cases runs.1
  | ok file =>
    rw [accepted] at runs
    exact ⟨file, rfl, runs.2⟩

end VideoPoster.Autonomous.Specs
