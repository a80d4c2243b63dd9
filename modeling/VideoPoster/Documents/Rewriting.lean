import VideoPoster.Documents.Reread

/-!
# A document that was read again is written as before
-/

namespace VideoPoster.Documents
open List Entries Value

variable {N M : Type}

mutual
def texts : Value N → List Text
  | .str chars => [chars]
  | .arr items => textsItems items
  | .obj entries => textsEntries entries
  | _ => []

def textsItems : List (Value N) → List Text
  | [] => []
  | item :: items => texts item ++ textsItems items

def textsEntries : Entries N → List Text
  | [] => []
  | (key, value) :: entries => key :: (texts value ++ textsEntries entries)
end

mutual
def distinct : Value N → Bool
  | .arr items => distinctItems items
  | .obj entries => decide (keys entries).Nodup && distinctEntries entries
  | _ => true

def distinctItems : List (Value N) → Bool
  | [] => true
  | item :: items => distinct item && distinctItems items

def distinctEntries : Entries N → Bool
  | [] => true
  | (_, value) :: entries => distinct value && distinctEntries entries
end

def ClearValue (value : Value N) : Prop := ∀ t ∈ texts value, Clear t

variable {items : List (Value N)} {t : Text}

theorem mem_textsItems : t ∈ textsItems items ↔ ∃ item ∈ items, t ∈ texts item := by
  induction items with
  | nil => simp [textsItems]
  | cons item items ih => simp [textsItems, ih]

variable {entries : Entries N}

theorem mem_textsEntries : t ∈ textsEntries entries ↔ ∃ entry ∈ entries, t = entry.1 ∨ t ∈ texts entry.2 := by
  induction entries with
  | nil => simp [textsEntries]
  | cons entry entries ih => simp [textsEntries, ih, or_assoc]

theorem distinct_arr : distinct (.arr items) = true ↔ ∀ item ∈ items, distinct item = true := by
  rw [distinct]
  induction items with
  | nil => simp [distinctItems]
  | cons item items ih => simp [distinctItems, ih]

theorem distinct_obj : distinct (.obj entries) = true ↔
      entries.keys.Nodup ∧ ∀ entry ∈ entries, distinct entry.2 = true := by
  have members : ∀ entries : Entries N,
      distinctEntries entries = true ↔ ∀ entry ∈ entries, distinct entry.2 = true := by
    intro entries
    induction entries with
    | nil => simp [distinctEntries]
    | cons entry entries ih => simp [distinctEntries, ih]
  rw [distinct, Bool.and_eq_true, decide_eq_true_eq, members]

theorem clearValue_arr : ClearValue (.arr items) ↔ ∀ item ∈ items, ClearValue item := by
  simp only [ClearValue, texts, mem_textsItems]
  exact ⟨fun all item member t there => all t ⟨item, member, there⟩,
    fun all t ⟨item, member, there⟩ => all item member t there⟩

theorem clearValue_obj : ClearValue (.obj entries) ↔ ∀ entry ∈ entries, Clear entry.1 ∧ ClearValue entry.2 := by
  simp only [ClearValue, texts, mem_textsEntries]
  constructor
  · exact fun all entry member => ⟨all _ ⟨entry, member, .inl rfl⟩,
      fun t there => all t ⟨entry, member, .inr there⟩⟩
  · rintro all t ⟨entry, member, rfl | there⟩
    · exact (all entry member).1
    · exact (all entry member).2 t there

variable {value : Value N}

theorem proper_of_clear (single : distinct value = true) (clear : ClearValue value) : Proper value := by
  induction value using induction with
  | arr items ih =>
    rw [distinct_arr] at single
    rw [clearValue_arr] at clear
    rw [Proper, properItems_iff]
    exact fun item member => ih item member (single item member) (clear item member)
  | obj entries ih =>
    rw [distinct_obj] at single
    rw [clearValue_obj] at clear
    rw [Proper, properEntries_iff]
    exact ⟨single.1, fun entry member => ⟨(clear entry member).1,
      ih entry member (single.2 entry member) (clear entry member).2⟩⟩
  | _ => trivial

theorem image_of_clear (r : N → M) (clear : ClearValue value) : image true r value = image false r value := by
  induction value using induction with
  | str chars =>
    have own : Clear chars := clear chars (.head _)
    rw [image, image, reread_of_clear true own, reread_of_clear false own]
  | arr items ih =>
    rw [clearValue_arr] at clear
    rw [image, image, imageItems_eq_map, imageItems_eq_map]
    exact congrArg arr (map_congr_left fun item member => ih item member (clear item member))
  | obj entries ih =>
    rw [clearValue_obj] at clear
    rw [image, image, imageEntries_eq_map, imageEntries_eq_map]
    congr 2
    exact map_congr_left fun entry member => by rw [ih entry member (clear entry member).2]
  | _ => rfl

theorem image_image (ascii : Bool) (r : N → M) (value : Value N) :
    image false id (image ascii r value) = image ascii r value := by
  induction value using induction with
  | str chars => rfl
  | arr items ih =>
    rw [image, image, imageItems_eq_map, imageItems_eq_map, map_map]
    exact congrArg arr (map_congr_left ih)
  | obj entries ih =>
    rw [image, image, imageEntries_eq_map, imageEntries_eq_map, inOrder_map, inOrder_inOrder, ← inOrder_map,
      map_map]
    congr 2
    exact map_congr_left fun entry member => by rw [Function.comp_apply, ih entry member]
  | _ => rfl

theorem distinct_image (ascii : Bool) (r : N → M) (single : distinct value = true) :
    distinct (image ascii r value) = true := by
  induction value using induction with
  | arr items ih =>
    rw [distinct_arr] at single
    rw [image, imageItems_eq_map, distinct_arr]
    intro item member
    obtain ⟨own, inside, rfl⟩ := mem_map.1 member
    exact ih own inside (single own inside)
  | obj entries ih =>
    rw [distinct_obj] at single
    rw [image, imageEntries_eq_map, distinct_obj]
    constructor
    · rw [Entries.keys, ((perm_inOrder _).map Prod.fst).nodup_iff, map_map]
      exact single.1
    · intro entry member
      obtain ⟨own, inside, rfl⟩ := mem_map.1 (mem_inOrder.1 member)
      exact ih own inside (single.2 own inside)
  | _ => rfl

theorem proper_image (ascii : Bool) (r : N → M) (proper : Proper value) : Proper (image ascii r value) := by
  induction value using induction with
  | arr items ih =>
    rw [Proper, properItems_iff] at proper
    rw [image, imageItems_eq_map, Proper, properItems_iff]
    intro item member
    obtain ⟨own, inside, rfl⟩ := mem_map.1 member
    exact ih own inside (proper own inside)
  | obj entries ih =>
    rw [Proper, properEntries_iff] at proper
    rw [image, imageEntries_eq_map, Proper, properEntries_iff]
    constructor
    · rw [Entries.keys, ((perm_inOrder _).map Prod.fst).nodup_iff, map_map]
      exact proper.1
    · intro entry member
      obtain ⟨own, inside, rfl⟩ := mem_map.1 (mem_inOrder.1 member)
      exact ⟨(proper.2 own inside).1, ih own inside (proper.2 own inside).2⟩
  | _ => trivial

theorem get_perm {others : Entries N} (perm : entries.Perm others) (distinct : entries.keys.Nodup)
    (key : Text) : get others key = get entries key := by
  have unique : ∀ {entry : Text × Value N}, entry ∈ entries → get entries entry.1 = some entry.2 ∧
      get others entry.1 = some entry.2 := by
    have found : ∀ {list : Entries N}, list.keys.Nodup → ∀ {entry : Text × Value N}, entry ∈ list →
        get list entry.1 = some entry.2 := by
      intro list nodup entry member
      unfold Entries.get
      cases is : list.find? fun other => other.1 = entry.1 with
      | none =>
        have nothing := find?_eq_none.mp is entry member
        simp at nothing
      | some other =>
        have key : other.1 = entry.1 := by simpa using find?_some is
        rw [inj_on_of_nodup_map nodup (mem_of_find?_eq_some is) member key]
        rfl
    have nodup : others.keys.Nodup := ((perm.map Prod.fst).nodup_iff).mp distinct
    intro entry member
    exact ⟨found distinct member, found nodup (perm.mem_iff.mp member)⟩
  by_cases there : ∃ entry ∈ entries, entry.1 = key
  · obtain ⟨entry, member, rfl⟩ := there
    rw [(unique member).1, (unique member).2]
  · have absent : ∀ {list : Entries N}, (∀ entry ∈ list, entry.1 ≠ key) → get list key = none := by
      intro list none
      unfold Entries.get
      rw [find?_eq_none.mpr fun entry member => by simpa using none entry member]
      rfl
    have no : ∀ entry ∈ entries, entry.1 ≠ key := fun entry member same => there ⟨entry, member, same⟩
    rw [absent no, absent fun entry member => no entry (perm.mem_iff.mpr member)]

theorem get_image (ascii : Bool) (r : N → M) (distinct : entries.keys.Nodup) (key : Text) :
    get (inOrder (imageEntries ascii r entries)) key = (get entries key).map (image ascii r) := by
  have keys : (imageEntries ascii r entries).keys = entries.keys := by
    rw [imageEntries_eq_map, Entries.keys, map_map]
    rfl
  rw [get_perm (perm_inOrder (imageEntries ascii r entries)).symm (by rw [keys]; exact distinct)]
  rw [imageEntries_eq_map]
  unfold Entries.get
  rw [find?_map, Option.map_map, Option.map_map]
  rfl

theorem escape_pairOf {high low : ℕ} (isHigh : highSurrogate high = true) (isLow : lowSurrogate low = true) :
    escape true (pairOf high low) = unicodeEscape high ++ unicodeEscape low := by
  simp only [highSurrogate, lowSurrogate, decide_eq_true_eq] at isHigh isLow
  have value : (pairOf high low).val = 0x10000 + (high - 0xd800) * 0x400 + (low - 0xdc00) := by
    rw [pairOf, Fin.val_ofNat, Nat.mod_eq_of_lt]
    omega
  have differs : ∀ d : CodePoint, d.val < 0x10000 → pairOf high low ≠ d := by
    rintro d small rfl
    omega
  rw [escape, if_neg (differs _ (by decide)), if_neg (differs _ (by decide)), if_neg (differs _ (by decide)),
    if_neg (differs _ (by decide)), if_neg (differs _ (by decide)), if_neg (differs _ (by decide)),
    if_neg (differs _ (by decide)), if_pos (.inr ⟨rfl, by omega⟩), escapeUnits, if_neg (by omega), value]
  have first : 0xd800 + (0x10000 + (high - 0xd800) * 0x400 + (low - 0xdc00) - 0x10000) / 0x400 = high := by
    omega
  have second : 0xdc00 + (0x10000 + (high - 0xd800) * 0x400 + (low - 0xdc00) - 0x10000) % 0x400 = low := by
    omega
  rw [first, second]

theorem quote_reread (ascii : Bool) (chars : Text) : quote ascii (reread ascii chars) = quote ascii chars := by
  cases ascii with
  | false => rfl
  | true =>
    have same : (join chars).flatMap (escape true) = chars.flatMap (escape true) := by
      induction chars using join.induct with
      | case1 => rfl
      | case2 c => rfl
      | case3 c d chars both ih =>
        rw [join, if_pos both, flatMap_cons, flatMap_cons, flatMap_cons, ih,
          escape_pairOf both.1 both.2, escape_of_surrogate (surrogate_of_high both.1),
          escape_of_surrogate (surrogate_of_low both.2), append_assoc]
      | case4 c d chars apart ih => rw [join, if_neg apart, flatMap_cons, flatMap_cons, ih]
    rw [quote, quote, reread, if_pos rfl, same]

variable (E : Encoder N)

theorem write_image (value : Value N) (depth : ℕ) : write E depth (image E.ascii id value) = write E depth value := by
  induction value using induction generalizing depth with
  | str chars =>
    cases depth <;> simp only [image, write, quote_reread]
  | arr items ih =>
    cases depth with
    | zero => rfl
    | succ depth =>
      rw [image, imageItems_eq_map, write, write, writeItems_eq_map, writeItems_eq_map, map_map]
      have same := map_congr_left (f := write E depth ∘ image E.ascii id) (g := write E depth)
        fun item member => ih item member depth
      rw [same]
  | obj entries ih =>
    cases depth with
    | zero => rfl
    | succ depth =>
      have same : (imageEntries E.ascii id entries).map (fun entry => (entry.1, write E depth entry.2)) =
          entries.map fun entry => (entry.1, write E depth entry.2) := by
        rw [imageEntries_eq_map, map_map]
        exact map_congr_left fun entry member => by
          rw [Function.comp_apply, ih entry member]
      rw [image, write, write, writeEntries_eq_map, writeEntries_eq_map, inOrder_map, inOrder_inOrder,
        ← inOrder_map, same]
  | _ => rfl

theorem clear_append {first second : Text} : Clear (first ++ second) ↔ Clear first ∧ Clear second := by
  simp only [Clear, mem_append]
  exact ⟨fun all => ⟨fun c member => all c (.inl member), fun c member => all c (.inr member)⟩,
    fun both c member => member.elim (both.1 c) (both.2 c)⟩

theorem clear_cons {c : CodePoint} {rest : Text} : Clear (c :: rest) ↔ surrogate c = false ∧ Clear rest := by
  simp [Clear]

theorem clear_text (s : String) : Clear (text s) := by
  intro c member
  obtain ⟨d, -, rfl⟩ := mem_map.1 member
  have valid := d.valid
  have bounds : d.toNat < 0xd800 ∨ 0xdfff < d.toNat ∧ d.toNat < 0x110000 := valid
  have outside : ¬(0xd800 ≤ d.toNat ∧ d.toNat ≤ 0xdfff) := by omega
  exact decide_eq_false outside

theorem clear_of_quote {chars : Text} (clear : Clear (quote false chars)) : Clear chars := by
  intro c member
  cases is : surrogate c with
  | false => rfl
  | true =>
    have plain : escape false c = [c] := by
      simp only [surrogate, decide_eq_true_eq] at is
      have differs : ∀ d : CodePoint, d.val < 0xd800 → c ≠ d := by
        rintro d small rfl
        omega
      rw [escape, if_neg (differs _ (by decide)), if_neg (differs _ (by decide)), if_neg (differs _ (by decide)),
        if_neg (differs _ (by decide)), if_neg (differs _ (by decide)), if_neg (differs _ (by decide)),
        if_neg (differs _ (by decide)), if_neg]
      rintro (low | ⟨⟨⟩, -⟩)
      omega
    have there : c ∈ quote false chars := by
      refine .tail _ (mem_append.mpr (.inl (mem_flatMap.mpr ⟨c, member, ?_⟩)))
      rw [plain]
      exact .head _
    have := clear c there
    rwa [is] at this

theorem clear_of_commas {gap : Text} {ts : List Text} (clear : Clear (commas gap ts)) : ∀ t ∈ ts, Clear t := by
  induction ts using commas.induct with
  | case1 => nofun
  | case2 part =>
    intro t member
    rwa [mem_singleton.mp member]
  | case3 part next parts ih =>
    rw [commas, clear_append, clear_cons, clear_append] at clear
    intro t member
    rcases mem_cons.mp member with rfl | there
    · exact clear.1
    · exact ih clear.2.2.2 t there

theorem clear_of_body {depth : ℕ} {ts : List Text} (clear : Clear (body E depth ts)) : ∀ t ∈ ts, Clear t := by
  by_cases none : ts = []
  · rw [none]
    nofun
  · rw [body, if_neg none, clear_append, clear_append] at clear
    exact clear_of_commas clear.2.1

theorem mem_of_forall₂ {α β : Type} {R : α → β → Prop} {items : List α} {others : List β}
    (all : List.Forall₂ R items others) {item : α} (member : item ∈ items) : ∃ other ∈ others, R item other := by
  induction all with
  | nil => cases member
  | cons first _ ih =>
    rcases mem_cons.mp member with rfl | there
    · exact ⟨_, .head _, first⟩
    · obtain ⟨other, inside, related⟩ := ih there
      exact ⟨other, .tail _ inside, related⟩

variable {E}

theorem clear_of_write (plain : E.ascii = false) {depth : ℕ}
    (written : write E depth value = .ok t) (clear : Clear t) : ClearValue value := by
  induction value using induction generalizing depth t with
  | str chars =>
    have is : quote E.ascii chars = t := by
      cases depth <;> exact Except.ok.inj written
    rw [← is, plain] at clear
    intro s member
    rw [mem_singleton.mp member]
    exact clear_of_quote clear
  | arr items ih =>
    cases depth with
    | zero => cases written
    | succ depth =>
      rw [write, writeItems_eq_map] at written
      obtain ⟨ts, all, rfl⟩ := map_eq_ok.1 written
      rw [clear_cons, clear_append] at clear
      rw [clearValue_arr]
      intro item member
      obtain ⟨part, inside, wrote⟩ := mem_of_forall₂ (forall₂_of_written all) member
      exact ih item member wrote (clear_of_body E clear.2.1 part inside)
  | obj entries ih =>
    cases depth with
    | zero => cases written
    | succ depth =>
      rw [write, writeEntries_eq_map, inOrder_map, map_map] at written
      obtain ⟨ts, all, rfl⟩ := map_eq_ok.1 written
      rw [clear_cons, clear_append] at clear
      rw [clearValue_obj]
      intro entry member
      obtain ⟨part, inside, wrote⟩ := mem_of_forall₂ (forall₂_of_written all) (mem_inOrder.2 member)
      obtain ⟨own, is, rfl⟩ := map_eq_ok.1 wrote
      have text := clear_of_body E clear.2.1 _ inside
      rw [clear_append, clear_cons, clear_append, plain] at text
      exact ⟨clear_of_quote text.1, ih entry member is text.2.2.2⟩
  | _ =>
    intro entry member
    cases member

theorem encoded_eq_ok {chars : Text} : encoded chars = .ok t ↔ Clear chars ∧ t = chars := by
  unfold encoded
  split_ifs with any
  · rw [any_eq_true] at any
    obtain ⟨c, member, is⟩ := any
    refine ⟨nofun, fun both => ?_⟩
    have := both.1 c member
    rw [is] at this
    cases this
  · have clear : Clear chars := by
      intro c member
      cases is : surrogate c with
      | false => rfl
      | true => exact absurd (any_eq_true.mpr ⟨c, member, is⟩) any
    exact ⟨fun same => ⟨clear, (Except.ok.inj same).symm⟩, fun both => by rw [both.2]⟩

end VideoPoster.Documents
