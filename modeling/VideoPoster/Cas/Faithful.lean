import VideoPoster.Cas.Keys

/-!
# What two jobs with one key share
-/

namespace VideoPoster.Cas
open Documents Python Parameter Except List Empty

def Parameter.items : Parameter → Option (List Parameter)
  | .list items => some items
  | .tuple items => some items
  | _ => Option.none

mutual
/-- Equal up to the order of the keys, to the kind of a sequence, and to whether a decimal text is
a string or a number. -/
def Shares : Parameter → Parameter → Prop
  | .none, other => other = .none
  | .bool value, other => other = .bool value
  | .int value, other => other = .int value
  | .list items, other => ∃ others, other.items = some others ∧ SharesItems items others
  | .tuple items, other => ∃ others, other.items = some others ∧ SharesItems items others
  | .dict entries, other => ∃ others, other = .dict others ∧
      (∀ key, key ∈ entries.map Prod.fst ↔ key ∈ others.map Prod.fst) ∧ SharesEntries entries others
  | .str chars, other => other.written = some chars
  | .decimal value, other => ∃ chars, (decimal value).written = some chars ∧ other.written = some chars
  | .float value, other => ∃ chars, (float value).written = some chars ∧ other.written = some chars
  | .path _, _ => False

def SharesItems : List Parameter → List Parameter → Prop
  | [], others => others = []
  | item :: items, others => ∃ other rest, others = other :: rest ∧ Shares item other ∧ SharesItems items rest

def SharesEntries : Parameters → Parameters → Prop
  | [], _ => True
  | (key, value) :: entries, others => (∃ other, (key, other) ∈ others ∧ Shares value other) ∧
      SharesEntries entries others
end

theorem Parameter.induction {P : Parameter → Prop} (none : P .none)
    (bool : ∀ value, P (.bool value)) (int : ∀ value, P (.int value)) (float : ∀ value, P (.float value))
    (decimal : ∀ value, P (.decimal value)) (str : ∀ chars, P (.str chars)) (path : ∀ path, P (.path path)) (list :
    ∀ items, (∀ item ∈ items, P item) → P (.list items)) (tuple : ∀ items, (∀ item ∈ items, P item) → P (.tuple items))
    (dict : ∀ entries : Parameters, (∀ entry ∈ entries, P entry.2) → P (.dict entries)) (value : Parameter) : P value :=
  @Parameter.rec P (fun items => ∀ item ∈ items, P item) (fun entries => ∀ entry ∈ entries, P entry.2)
    (fun entry => P entry.2)
    none bool int float decimal str path (fun items ih => list items ih) (fun items ih => tuple items ih)
    (fun entries ih => dict entries ih) (by simp)
    (fun item items first rest other member => by
      rcases mem_cons.mp member with rfl | there
      · exact first
      · exact rest other there) (by simp)
    (fun entry entries first rest other member => by
      rcases mem_cons.mp member with rfl | there
      · exact first
      · exact rest other there) (fun _ _ => id) value

variable {β α : Type}

theorem bind_eq_ok {x : Result α} {f : α → Result β} {b : β} : x.bind f = .ok b ↔ ∃ a, x = .ok a ∧ f a = .ok b := by
  cases x <;> simp [Except.bind]

variable {items : List Parameter} {values : List (Value Empty)}

theorem normalizedItems_eq_ok :
    normalizedItems items = .ok values ↔ List.Forall₂ (fun item value => normalized item = .ok value) items values := by
  induction items generalizing values with
  | nil => simp [normalizedItems, eq_comm]
  | cons item items ih =>
    rw [normalizedItems]
    constructor
    · intro read
      obtain ⟨value, first, rest⟩ := bind_eq_ok.1 read
      obtain ⟨values, later, rfl⟩ := map_eq_ok.mp rest
      exact .cons first (ih.mp later)
    · rintro (_ | ⟨first, later⟩)
      rw [first, Except.bind, ih.mpr later]
      rfl

variable {entries : Parameters}

theorem normalizedEntries_eq_ok {values : Entries Empty} : normalizedEntries entries = .ok values ↔
      List.Forall₂ (fun entry value => value.1 = entry.1 ∧ normalized entry.2 = .ok value.2) entries values := by
  induction entries generalizing values with
  | nil => simp [normalizedEntries, eq_comm]
  | cons entry entries ih =>
    rw [normalizedEntries]
    constructor
    · intro read
      obtain ⟨value, first, rest⟩ := bind_eq_ok.1 read
      obtain ⟨values, later, rfl⟩ := map_eq_ok.mp rest
      exact .cons ⟨rfl, first⟩ (ih.mp later)
    · rintro (_ | ⟨⟨key, first⟩, later⟩)
      rw [first, Except.bind, ih.mpr later, ← key]
      rfl

inductive Normal : Parameter → Value Empty → Prop
  | none : Normal .none .null
  | bool (value : Bool) : Normal (.bool value) (.bool value)
  | int (value : ℤ) : Normal (.int value) (.int value)
  | text {parameter : Parameter} {chars : Text} (written : parameter.written = some chars) :
      Normal parameter (.str chars)
  | sequence {parameter : Parameter} {items : List Parameter} {values : List (Value Empty)}
      (is : parameter.items = some items) (all : normalizedItems items = .ok values) :
      Normal parameter (.arr values)
  | dict {entries : Parameters} {values : Entries Empty} (all : normalizedEntries entries = .ok values) :
      Normal (.dict entries) (.obj (inOrder values))

variable {parameter : Parameter} {value : Value Empty}

theorem normal_of_normalized (read : normalized parameter = .ok value) : Normal parameter value := by
  have number : ∀ {written : Option Text}, written = parameter.written →
      (written.elim (.error .notFinite) fun chars => .ok (.str chars)) = (.ok value : Result (Value Empty)) →
        Normal parameter value := by
    intro written is read
    cases written with
    | none => cases read
    | some chars =>
      obtain rfl := ok.inj read
      exact .text is.symm
  cases parameter with
  | none =>
    obtain rfl := ok.inj read
    exact .none
  | bool given =>
    obtain rfl := ok.inj read
    exact .bool given
  | int given =>
    obtain rfl := ok.inj read
    exact .int given
  | float given => exact number rfl read
  | decimal given => exact number rfl read
  | str given =>
    obtain rfl := ok.inj read
    exact .text rfl
  | path given => cases read
  | list items =>
    obtain ⟨values, all, rfl⟩ := map_eq_ok.mp read
    exact .sequence rfl all
  | tuple items =>
    obtain ⟨values, all, rfl⟩ := map_eq_ok.mp read
    exact .sequence rfl all
  | dict entries =>
    obtain ⟨values, all, rfl⟩ := map_eq_ok.mp read
    exact .dict all

variable {chars : Text}

theorem Parameter.kind_of_written (written : parameter.written = some chars) :
    parameter.items = Option.none ∧ parameter ≠ .none ∧ (∀ value, parameter ≠ .bool value) ∧
      (∀ value, parameter ≠ .int value) ∧ ∀ entries, parameter ≠ .dict entries := by
  cases parameter <;> simp [Parameter.written, Parameter.items] at written ⊢

theorem Parameter.kind_of_items (is : parameter.items = some items) :
    parameter.written = Option.none ∧ parameter ≠ .none ∧ (∀ value, parameter ≠ .bool value) ∧
      (∀ value, parameter ≠ .int value) ∧ ∀ entries, parameter ≠ .dict entries := by
  cases parameter <;> simp [Parameter.written, Parameter.items] at is ⊢

section
variable (read : normalized parameter = .ok value)
include read

theorem normalized_atom : (value = .null ↔ parameter = .none) ∧ (∀ b, value = .bool b ↔ parameter = .bool b)
    ∧ (∀ n, value = .int n ↔ parameter = .int n) ∧ ∀ chars, value = .str chars ↔ parameter.written = some chars := by
  cases normal_of_normalized read with
  | none => simp [Parameter.written]
  | bool given => simp [Parameter.written, eq_comm]
  | int given => simp [Parameter.written, eq_comm]
  | text written =>
    obtain ⟨-, none, bool, int, -⟩ := kind_of_written written
    simp [none, bool, int, written]
  | sequence is all =>
    obtain ⟨written, none, bool, int, -⟩ := kind_of_items is
    simp [none, bool, int, written]
  | dict all => simp [Parameter.written]

theorem normalized_sequence :
    value = .arr values ↔ ∃ items, parameter.items = some items ∧ normalizedItems items = .ok values := by
  cases normal_of_normalized read with
  | none => simp [items]
  | bool given => simp [items]
  | int given => simp [items]
  | text written =>
    obtain ⟨items, -⟩ := kind_of_written written
    simp [items]
  | sequence is all => simp [is, all]
  | dict all => simp [items]

theorem normalized_dict {values : Entries Empty} : value = .obj values ↔
    ∃ entries given, parameter = .dict entries ∧ normalizedEntries entries = .ok given ∧ inOrder given = values := by
  cases normal_of_normalized read with
  | none => simp
  | bool given => simp
  | int given => simp
  | text written =>
    obtain ⟨-, -, -, -, dict⟩ := kind_of_written written
    simp [dict]
  | sequence is all =>
    obtain ⟨-, -, -, -, dict⟩ := kind_of_items is
    simp [dict]
  | dict all => simp [all]

end

variable {others : List Parameter}

theorem sharesItems_iff : SharesItems items others ↔ List.Forall₂ Shares items others := by
  induction items generalizing others with
  | nil => cases others <;> simp [SharesItems]
  | cons item items ih => cases others <;> simp [SharesItems, ih]

theorem sharesEntries_iff {others : Parameters} : SharesEntries entries others ↔
    ∀ entry ∈ entries, ∃ other, (entry.1, other) ∈ others ∧ Shares entry.2 other := by
  induction entries with
  | nil => simp [SharesEntries]
  | cons entry entries ih => simp [SharesEntries, ih]

theorem single_items : singleItems items = true ↔ ∀ item ∈ items, item.single = true := by
  induction items with
  | nil => simp [singleItems]
  | cons item items ih => simp [singleItems, ih]

theorem single_dict : (dict entries).single = true ↔
    (entries.map Prod.fst).Nodup ∧ ∀ entry ∈ entries, entry.2.single = true := by
  have members : ∀ entries : Parameters, singleEntries entries = true ↔ ∀ entry ∈ entries, entry.2.single = true := by
    intro entries
    induction entries with
    | nil => simp [singleEntries]
    | cons entry entries ih => simp [singleEntries, ih]
  rw [single, Bool.and_eq_true, decide_eq_true_eq, members]

def Exactly (parameter : Parameter) : Prop :=
  parameter.single = true → ∀ {other : Parameter} {value another : Value Empty}, other.single = true →
    normalized parameter = .ok value → normalized other = .ok another → (another = value ↔ Shares parameter other)

theorem shares_items (exactly : ∀ item ∈ items, Exactly item) {ones : List (Value Empty)}
    (single : ∀ item ∈ items, item.single = true) (alone : ∀ item ∈ others, item.single = true)
    (all : List.Forall₂ (fun item value => normalized item = .ok value) items values) (each : List.Forall₂ (fun
    item value => normalized item = .ok value) others ones) : ones = values ↔ List.Forall₂ Shares items others := by
  induction all generalizing others ones with
  | nil =>
    cases each with
    | nil => simp
    | cons => simp
  | @cons item value items values first _ ih =>
    cases each with
    | nil => simp
    | @cons other one others ones second later =>
      have head := exactly item (.head _) (single item (.head _)) (alone other (.head _)) first second
      have tail := ih (fun item member => exactly item (.tail _ member))
        (fun item member => single item (.tail _ member)) (fun item member => alone item (.tail _ member)) later
      rw [cons_eq_cons, head, tail, forall₂_cons]

theorem keys_of_forall₂ {R : Text × α → Text × β → Prop} (keyed : ∀ a b, R a b → b.1 = a.1) {entries : List (Text × α)}
    {values : List (Text × β)} (all : List.Forall₂ R entries values) : values.map Prod.fst = entries.map Prod.fst := by
  induction all with
  | nil => rfl
  | cons first _ ih => rw [map_cons, map_cons, keyed _ _ first, ih]

theorem shares_entries {others : Parameters} (exactly : ∀ entry ∈ entries, Exactly entry.2) (single : (dict
    entries).single = true) (alone : (dict others).single = true) {values ones : Entries Empty} (all : List.Forall₂
    (fun entry value => value.1 = entry.1 ∧ normalized entry.2 = .ok value.2) entries values) (each : List.Forall₂
    (fun entry value => value.1 = entry.1 ∧ normalized entry.2 = .ok value.2) others ones) : inOrder ones = inOrder
    values ↔ (∀ key, key ∈ entries.map Prod.fst ↔ key ∈ others.map Prod.fst) ∧ SharesEntries entries others := by
  rw [single_dict] at single alone
  have keys := keys_of_forall₂ (fun _ _ both => both.1) all
  have keys' := keys_of_forall₂ (fun _ _ both => both.1) each
  have distinct : (values.map Prod.fst).Nodup := by rw [keys]; exact single.1
  have distinct' : (ones.map Prod.fst).Nodup := by rw [keys']; exact alone.1
  rw [sharesEntries_iff]
  constructor
  · intro same
    have perm : ones.Perm values := (perm_inOrder ones).symm.trans (same ▸ perm_inOrder values)
    refine ⟨fun key => ?_, fun entry member => ?_⟩
    · rw [← keys, ← keys']
      exact ((perm.map Prod.fst).mem_iff).symm
    · obtain ⟨value, inside, key, read⟩ := mem_of_forall₂ all member
      obtain ⟨other, there, key', read'⟩ := mem_of_forall₂ each.flip (perm.mem_iff.mpr inside)
      have own : other.1 = entry.1 := key'.symm.trans key
      refine ⟨other.2, by rw [← own]; exact there, ?_⟩
      exact (exactly entry member (single.2 entry member) (alone.2 other there) read read').mp rfl
  · rintro ⟨names, shares⟩
    -- Both lists have their keys once, so that it is enough to find every entry in the other one.
    have perm : ones.Perm values := by
      refine (perm_ext_iff_of_nodup distinct'.of_map distinct.of_map).mpr fun pair => ⟨fun inside => ?_,
        fun inside => ?_⟩
      · obtain ⟨other, there, key', read'⟩ := mem_of_forall₂ each.flip inside
        obtain ⟨entry, member, key⟩ := mem_map.mp ((names other.1).mpr (mem_map_of_mem there))
        obtain ⟨found, place, shared⟩ := shares entry member
        have only : (entry.1, found) = other := inj_on_of_nodup_map alone.1 place there key
        obtain ⟨value, here, own, read⟩ := mem_of_forall₂ all member
        rw [← only] at read'
        have equal := (exactly entry member (single.2 entry member) (alone.2 _ place) read read').mpr shared
        have is : pair = value := Prod.ext (key'.trans (key.symm.trans own.symm)) equal
        rw [is]
        exact here
      · obtain ⟨entry, member, key, read⟩ := mem_of_forall₂ all.flip inside
        obtain ⟨found, place, shared⟩ := shares entry member
        obtain ⟨one, there, key', read'⟩ := mem_of_forall₂ each place
        have equal := (exactly entry member (single.2 entry member) (alone.2 _ place) read read').mpr shared
        have is : one = pair := Prod.ext (key'.trans key.symm) equal
        rw [← is]
        exact there
    exact inOrder_eq_of_perm perm distinct'

variable {other : Parameter}

variable {another : Value Empty}

theorem written_of_normalized (read : (parameter.written.elim (.error .notFinite) fun chars => .ok (.str chars)) =
      (.ok value : Result (Value Empty))) (read' : normalized other = .ok another) :
    another = value ↔ ∃ chars, parameter.written = some chars ∧ other.written = some chars := by
  cases is : parameter.written with
  | none =>
    rw [is] at read
    cases read
  | some chars =>
    rw [is] at read
    obtain rfl := ok.inj read
    rw [(normalized_atom read').2.2.2 chars]
    simp

theorem single_of_items (single : parameter.single = true)
    (is : parameter.items = some items) : ∀ item ∈ items, item.single = true := by
  refine single_items.1 ?_
  cases parameter <;> simp only [Parameter.items, Option.some.injEq, reduceCtorEq] at is
  · rw [← is]
    exact single
  · rw [← is]
    exact single

theorem exactly_sequence (ih : ∀ item ∈ items, Exactly item) (single : singleItems items = true)
    (alone : other.single = true) (read : (normalizedItems items).map Value.arr = .ok value) (read' : normalized other =
    .ok another) : another = value ↔ ∃ others, other.items = some others ∧ SharesItems items others := by
  obtain ⟨values, all, rfl⟩ := map_eq_ok.mp read
  rw [normalized_sequence read']
  refine exists_congr fun others => and_congr_right fun is => ?_
  have own := single_of_items alone is
  obtain ⟨ones, made⟩ : ∃ ones, normalizedItems others = .ok ones := by
    cases other <;> simp only [Parameter.items, Option.some.injEq, reduceCtorEq] at is
    · obtain ⟨ones, made, -⟩ := map_eq_ok.mp read'
      exact ⟨ones, by rw [← is]; exact made⟩
    · obtain ⟨ones, made, -⟩ := map_eq_ok.mp read'
      exact ⟨ones, by rw [← is]; exact made⟩
  rw [made, sharesItems_iff, ok.injEq]
  exact shares_items ih (single_items.1 single) own (normalizedItems_eq_ok.1 all) (normalizedItems_eq_ok.1 made)

theorem exactly (parameter : Parameter) : Exactly parameter := by
  induction parameter using induction with
  | none =>
    intro _ other value another _ read read'
    obtain rfl := ok.inj read
    exact (normalized_atom read').1
  | bool given =>
    intro _ other value another _ read read'
    obtain rfl := ok.inj read
    exact (normalized_atom read').2.1 given
  | int given =>
    intro _ other value another _ read read'
    obtain rfl := ok.inj read
    exact (normalized_atom read').2.2.1 given
  | str chars =>
    intro _ other value another _ read read'
    obtain rfl := ok.inj read
    exact (normalized_atom read').2.2.2 chars
  | float given =>
    intro _ other value another _ read read'
    exact written_of_normalized read read'
  | decimal given =>
    intro _ other value another _ read read'
    exact written_of_normalized read read'
  | path given =>
    intro _ other value another _ read
    cases read
  | list items ih =>
    intro single other value another alone read read'
    exact exactly_sequence ih single alone read read'
  | tuple items ih =>
    intro single other value another alone read read'
    exact exactly_sequence ih single alone read read'
  | dict entries ih =>
    intro single other value another alone read read'
    obtain ⟨values, all, rfl⟩ := map_eq_ok.mp read
    rw [normalized_dict read']
    constructor
    · rintro ⟨others, ones, rfl, made, same⟩
      exact ⟨others, rfl, (shares_entries ih single alone (normalizedEntries_eq_ok.1 all)
        (normalizedEntries_eq_ok.1 made)).mp same⟩
    · rintro ⟨others, rfl, shares⟩
      obtain ⟨ones, made, -⟩ := map_eq_ok.mp read'
      exact ⟨others, ones, rfl, made, (shares_entries ih single alone (normalizedEntries_eq_ok.1 all)
        (normalizedEntries_eq_ok.1 made)).mpr shares⟩

/-! ## The document of a key -/

theorem normalized_induction {P : Parameter → Value Empty → Prop}
    (none : P .none .null) (bool : ∀ value, P (.bool value) (.bool value)) (int : ∀ value, P (.int value) (.int value))
    (text : ∀ parameter chars, parameter.written = some chars → P parameter (.str chars))
    (sequence : ∀ (parameter : Parameter) (items : List Parameter) (values : List (Value Empty)), parameter.items =
    some items → List.Forall₂ (fun item value => normalized item = .ok value) items values → (∀ item ∈ items,
    ∀ value, normalized item = .ok value → P item value) → P parameter (.arr values)) (dict : ∀ (entries : Parameters)
    (values : Entries Empty), List.Forall₂ (fun entry value => value.1 = entry.1 ∧ normalized entry.2 = .ok value.2)
    entries values → (∀ entry ∈ entries, ∀ value, normalized entry.2 = .ok value → P entry.2 value)
    → P (.dict entries) (.obj (inOrder values))) (read : normalized parameter = .ok value) : P parameter value := by
  induction parameter using induction generalizing value with
  | list items ih =>
    obtain ⟨values, all, rfl⟩ := map_eq_ok.mp read
    exact sequence _ items values rfl (normalizedItems_eq_ok.1 all) fun item member _ own => ih item member own
  | tuple items ih =>
    obtain ⟨values, all, rfl⟩ := map_eq_ok.mp read
    exact sequence _ items values rfl (normalizedItems_eq_ok.1 all) fun item member _ own => ih item member own
  | dict entries ih =>
    obtain ⟨values, all, rfl⟩ := map_eq_ok.mp read
    exact dict entries values (normalizedEntries_eq_ok.1 all) fun entry member _ own => ih entry member own
  | none =>
    obtain rfl := ok.inj read
    exact none
  | bool given =>
    obtain rfl := ok.inj read
    exact bool given
  | int given =>
    obtain rfl := ok.inj read
    exact int given
  | path given => cases read
  | str chars =>
    obtain rfl := ok.inj read
    exact text _ chars rfl
  | float given =>
    cases normal_of_normalized read with
    | text written => exact text _ _ written
    | sequence is => cases is
  | decimal given =>
    cases normal_of_normalized read with
    | text written => exact text _ _ written
    | sequence is => cases is

theorem image_normalized (read : normalized parameter = .ok value) : image false id value = value := by
  refine normalized_induction (P := fun _ value => image false id value = value) rfl (fun _ => rfl) (fun _ => rfl)
    (fun _ _ _ => rfl) (fun _ items values _ all ih => ?_) (fun entries values all ih => ?_) read
  · rw [image, imageItems_eq_map]
    refine congrArg Value.arr ((map_congr_left fun value inside => ?_).trans (map_id values))
    obtain ⟨item, member, own⟩ := mem_of_forall₂ all.flip inside
    exact ih item member value own
  · have same : imageEntries false id (inOrder values) = inOrder values := by
      rw [imageEntries_eq_map]
      refine (map_congr_left fun value inside => ?_).trans (map_id _)
      obtain ⟨entry, member, -, own⟩ := mem_of_forall₂ all.flip (mem_inOrder.mp inside)
      rw [ih entry member value.2 own]
      rfl
    rw [image, same, inOrder_inOrder]

theorem distinct_normalized (single : parameter.single = true)
    (read : normalized parameter = .ok value) : distinct value = true := by
  refine normalized_induction (P := fun parameter value => parameter.single = true → distinct value = true)
    (fun _ => rfl) (fun _ _ => rfl) (fun _ _ => rfl) (fun _ _ _ _ => rfl) (fun _ items values is all ih alone => ?_)
    (fun entries values all ih alone => ?_) read single
  · rw [distinct_arr]
    intro value inside
    obtain ⟨item, member, own⟩ := mem_of_forall₂ all.flip inside
    exact ih item member value own (single_of_items alone is item member)
  · rw [single_dict] at alone
    rw [distinct_obj]
    constructor
    · rw [Entries.keys, ((perm_inOrder values).map Prod.fst).nodup_iff, keys_of_forall₂ (fun _ _ both => both.1) all]
      exact alone.1
    · intro value inside
      obtain ⟨entry, member, -, own⟩ := mem_of_forall₂ all.flip (mem_inOrder.mp inside)
      exact ih entry member value.2 own (alone.2 entry member)

variable {B : Type} {fileSha256 : B → Text} {sha256 : Text → Text} {nesting : ℕ}

def keyFields (fileSha256 : B → Text) (inputs : List B) (value : Value Empty) : Entries Empty :=
  [(text "input_sha256", .arr (inputs.map fun bytes => .str (fileSha256 bytes))), (text "parameters", value),
    (text "schema", .int 1)]

theorem single_keyFields (inputs : List B) (value : Value Empty) : (keyFields fileSha256 inputs value).keys.Nodup := by
  have names : (keyFields fileSha256 inputs value).keys = [text "input_sha256", text "parameters", text "schema"] := rfl
  rw [names]
  decide

variable {inputs : List B} {parameters : Parameter} {key : Text}

theorem contentKey_eq_ok : contentKey fileSha256 sha256 nesting inputs parameters =
    .ok key ↔ ∃ value chars, normalized parameters = .ok value ∧ dumps ⟨false, elim, nesting, compact⟩
    (.obj (keyFields fileSha256 inputs value)) = .ok chars ∧ Clear chars ∧ sha256 chars = key := by
  constructor
  · intro derived
    obtain ⟨value, read, rest⟩ := bind_eq_ok.1 derived
    obtain ⟨chars, written, rest⟩ := bind_eq_ok.1 rest
    obtain ⟨bytes, coded, is⟩ := bind_eq_ok.1 rest
    obtain ⟨clear, rfl⟩ := encoded_eq_ok.mp coded
    exact ⟨value, _, read, written, clear, ok.inj is⟩
  · rintro ⟨value, chars, read, written, clear, rfl⟩
    exact bind_eq_ok.2 ⟨value, read, bind_eq_ok.2 ⟨chars, written,
      bind_eq_ok.2 ⟨chars, encoded_eq_ok.mpr ⟨clear, rfl⟩, rfl⟩⟩⟩

def integers (nesting : ℕ) : Decoder Empty where
  number _ := .error .refused
  constant _ := .error .refused
  pairs pairs := .ok pairs
  nesting := nesting

theorem keyFields_injective {others : List B} {other : Value Empty} (single : distinct value = true) (alone : distinct
    other = true) (fixed : image false id value = value) (constant : image false id other = other) (clear : Clear chars)
    (written : dumps ⟨false, elim, nesting, compact⟩ (.obj (keyFields fileSha256 inputs value)) = .ok chars)
    (written' : dumps ⟨false, elim, nesting, compact⟩ (.obj (keyFields fileSha256 others other)) = .ok chars) :
    inputs.map fileSha256 = others.map fileSha256 ∧ value = other := by
  have reads : ReadsNumbers ⟨false, elim, nesting, compact⟩ (integers nesting) id := nofun
  have keeps : (integers nesting).Keeps := fun _ _ => rfl
  have distinctFields : ∀ {inputs : List B} {value : Value Empty}, distinct value = true →
      distinct (.obj (keyFields fileSha256 inputs value)) = true := by
    intro inputs value single
    have hashes : distinct (.arr (inputs.map fun bytes => (.str (fileSha256 bytes) : Value Empty))) = true := by
      rw [distinct_arr]
      intro item member
      obtain ⟨bytes, -, rfl⟩ := mem_map.mp member
      rfl
    rw [distinct_obj]
    refine ⟨single_keyFields inputs value, ?_⟩
    simp only [keyFields, mem_cons, not_mem_nil, or_false, forall_eq_or_imp, forall_eq, hashes, single,
      true_and]
    rfl
  have read := loads_dumps keeps reads rfl
    (proper_of_clear (distinctFields single) (clear_of_write rfl written clear)) written
  have read' := loads_dumps keeps reads rfl
    (proper_of_clear (distinctFields alone) (clear_of_write rfl written' clear)) written'
  have same : image false id (.obj (keyFields fileSha256 inputs value)) =
      image false id (.obj (keyFields fileSha256 others other)) := ok.inj (read.symm.trans read')
  simp only [image, Value.obj.injEq] at same
  have fields : ∀ key, (Entries.get (keyFields fileSha256 inputs value) key).map (image false id) =
      (Entries.get (keyFields fileSha256 others other) key).map (image false id) := by
    intro key
    rw [← get_image false id (single_keyFields inputs value), ← get_image false id (single_keyFields others other),
      same]
  have hashes := fields (text "input_sha256")
  have parameters := fields (text "parameters")
  have first : image false id (.arr (inputs.map fun bytes => (.str (fileSha256 bytes) : Value Empty))) =
      image false id (.arr (others.map fun bytes => .str (fileSha256 bytes))) := Option.some.inj hashes
  have second : image false id value = image false id other := Option.some.inj parameters
  refine ⟨?_, fixed.symm.trans (second.trans constant)⟩
  rw [image, image, imageItems_eq_map, imageItems_eq_map, Value.arr.injEq, map_map, map_map] at first
  refine map_injective_iff.mpr (fun a b equal => Value.str.inj equal) (?_ :
    (inputs.map fileSha256).map (Value.str : Text → Value Empty) = (others.map fileSha256).map Value.str)
  rw [map_map, map_map]
  exact first

theorem contentKey_eq_iff (files : Function.Injective fileSha256) (texts : Function.Injective sha256) {others : List B}
    {another : Parameter} (single : parameters.single = true) (alone : another.single = true) {other : Text}
    (derived : contentKey fileSha256 sha256 nesting inputs parameters = .ok key) (derived' : contentKey fileSha256
    sha256 nesting others another = .ok other) : key = other ↔ inputs = others ∧ Shares parameters another := by
  obtain ⟨value, chars, read, written, clear, rfl⟩ := contentKey_eq_ok.1 derived
  obtain ⟨value', chars', read', written', -, rfl⟩ := contentKey_eq_ok.1 derived'
  rw [← exactly parameters single alone read read']
  constructor
  · intro same
    obtain rfl := texts same
    obtain ⟨hashes, values⟩ := keyFields_injective (distinct_normalized single read)
      (distinct_normalized alone read') (image_normalized read) (image_normalized read') clear written written'
    exact ⟨files.list_map hashes, values.symm⟩
  · rintro ⟨rfl, rfl⟩
    rw [written] at written'
    rw [ok.inj written']

/-! ## Jobs -/

variable {files : Files B}

theorem replaceItems_eq_ok {replaced : List Parameter} : replaceItems fileSha256 files items = .ok replaced ↔
    List.Forall₂ (fun item other => replaceLocalPaths fileSha256 files item = .ok other) items replaced := by
  induction items generalizing replaced with
  | nil => simp [replaceItems, eq_comm]
  | cons item items ih =>
    rw [replaceItems]
    constructor
    · intro read
      obtain ⟨other, first, rest⟩ := bind_eq_ok.1 read
      obtain ⟨others, later, rfl⟩ := map_eq_ok.mp rest
      exact .cons first (ih.mp later)
    · rintro (_ | ⟨first, later⟩)
      rw [first, Except.bind, ih.mpr later]
      rfl

theorem replaceEntries_eq_ok {replaced : Parameters} (read : replaceEntries fileSha256 files entries = .ok replaced) :
    List.Forall₂ (fun entry other => other.1 = entry.1 ∧ replaceLocalPaths fileSha256 files entry.2 = .ok other.2)
    (entries.filter fun entry => entry.1 ∉ identityKeys) replaced := by
  induction entries generalizing replaced with
  | nil =>
    obtain rfl := ok.inj read
    exact .nil
  | cons entry entries ih =>
    rw [replaceEntries] at read
    by_cases dropped : entry.1 ∈ identityKeys
    · rw [if_pos dropped] at read
      rw [filter_cons_of_neg (by simpa using dropped)]
      exact ih read
    · rw [if_neg dropped] at read
      obtain ⟨other, first, rest⟩ := bind_eq_ok.1 read
      obtain ⟨others, later, rfl⟩ := map_eq_ok.mp rest
      rw [filter_cons_of_pos (by simpa using dropped)]
      exact .cons ⟨rfl, first⟩ (ih later)

theorem single_replaced {replaced : Parameter} (single : parameter.single = true)
    (read : replaceLocalPaths fileSha256 files parameter = .ok replaced) : replaced.single = true := by
  have sequence : ∀ {items others : List Parameter}, (∀ item ∈ items, item.single = true →
      ∀ {other}, replaceLocalPaths fileSha256 files item = .ok other → other.single = true) →
        singleItems items = true → replaceItems fileSha256 files items = .ok others →
          singleItems others = true := by
    intro items others ih alone read
    refine single_items.2 fun other inside => ?_
    obtain ⟨item, member, own⟩ := mem_of_forall₂ (replaceItems_eq_ok.1 read).flip inside
    exact ih item member (single_items.1 alone item member) own
  have found : ∀ {path : Text} {value result : Parameter}, value.single = true →
      (files path).map (fun found => found.elim value (content fileSha256)) = .ok result → result.single = true := by
    intro path value result alone read
    obtain ⟨answer, -, rfl⟩ := map_eq_ok.mp read
    cases answer with
    | none => exact alone
    | some bytes => exact single_dict.2 ⟨by simp, by simp [Parameter.single]⟩
  induction parameter using induction generalizing replaced with
  | list items ih =>
    obtain ⟨others, all, rfl⟩ := map_eq_ok.mp read
    exact sequence (fun item member alone _ own => ih item member alone own) single all
  | tuple items ih =>
    obtain ⟨others, all, rfl⟩ := map_eq_ok.mp read
    exact sequence (fun item member alone _ own => ih item member alone own) single all
  | dict entries ih =>
    obtain ⟨others, all, rfl⟩ := map_eq_ok.mp read
    have each := replaceEntries_eq_ok all
    rw [single_dict] at single ⊢
    constructor
    · rw [keys_of_forall₂ (fun _ _ both => both.1) each]
      exact single.1.sublist (filter_sublist.map Prod.fst)
    · intro other inside
      obtain ⟨entry, member, -, own⟩ := mem_of_forall₂ each.flip inside
      have there := (mem_filter.mp member).1
      exact ih entry there (single.2 entry there) own
  | str chars => exact found rfl read
  | path path => exact found rfl read
  | none =>
    obtain rfl := ok.inj read
    rfl
  | bool given =>
    obtain rfl := ok.inj read
    rfl
  | int given =>
    obtain rfl := ok.inj read
    rfl
  | float given =>
    obtain rfl := ok.inj read
    rfl
  | decimal given =>
    obtain rfl := ok.inj read
    rfl

variable {payload : Parameter}

theorem single_parameters (job : Job) (single : payload.single = true) : (job.parameters payload).single = true := by
  rw [Job.parameters, single_dict]
  constructor
  · have names : [text "endpoint", text "mode", text "input_kind", text "payload"].Nodup := by decide
    exact names
  · simp only [mem_cons, not_mem_nil, or_false, forall_eq_or_imp, forall_eq, single, and_true]
    exact ⟨rfl, rfl, rfl⟩

theorem shares_parameters {first second : Job} :
    Shares (first.parameters payload) (second.parameters other) ↔ first.endpoint = second.endpoint ∧
      first.mode = second.mode ∧ first.inputKind = second.inputKind ∧ Shares payload other := by
  have apart : ∀ {s t : String}, text s = text t ↔ s = t := text_injective.eq_iff
  have names : ∀ key, key ∈ (map Prod.fst [(text "endpoint", Parameter.str first.endpoint),
      (text "mode", .str first.mode), (text "input_kind", .str first.inputKind), (text "payload", payload)]) ↔
      key ∈ (map Prod.fst [(text "endpoint", str second.endpoint), (text "mode", .str second.mode),
        (text "input_kind", .str second.inputKind), (text "payload", other)]) := fun _ => Iff.rfl
  unfold Job.parameters
  rw [Shares]
  simp only [dict.injEq, exists_eq_left', names, implies_true, true_and]
  simp [Shares, SharesEntries, apart, Parameter.written, eq_comm]

def half : Magnitude := ⟨3 / 2, by norm_num, by decide +kernel, by decide +kernel⟩

def numberJob : Job where
  endpoint := text "model"
  mode := text "TEST"
  inputKind := text "IMAGE_EDIT"
  payload := [(text "reviewer", .str (text "r")), (text "guidance", .float (.finite false half))]
  payloadDict := by decide
  manifest := some [.of (text "/a")]

def textJob : Job :=
  { numberJob with payload := [(text "guidance", .str (text "1.5"))], payloadDict := by decide }

def oneFile : Files Text := fun path => .ok (if path = text "/a" then some (text "bytes") else none)

end VideoPoster.Cas
