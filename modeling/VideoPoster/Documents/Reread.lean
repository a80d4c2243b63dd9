import VideoPoster.Documents.Numerals

/-!
# Documents that were written are read again
-/

namespace VideoPoster.Documents
open List Documents Nat Entries

variable {N M : Type}

/-! ## Members in order -/

section InOrder
variable {α β : Type}

theorem perm_inOrder (members : List (Text × α)) : (inOrder members).Perm members :=
  perm_insertionSort _ members

variable {members : List (Text × α)}

theorem mem_inOrder {entry : Text × α} :
    entry ∈ inOrder members ↔ entry ∈ members := (perm_inOrder members).mem_iff

theorem inOrder_map (f : α → β) (members : List (Text × α)) : inOrder (members.map fun entry => (entry.1, f entry.2)) =
      (inOrder members).map fun entry => (entry.1, f entry.2) :=
  (map_insertionSort (fun a b : Text × α => a.1 ≤ b.1) (fun a b : Text × β => a.1 ≤ b.1)
    (fun entry => (entry.1, f entry.2)) members fun _ _ _ _ => Iff.rfl).symm

theorem inOrder_pairwise (members : List (Text × α)) : (inOrder members).Pairwise fun a b => a.1 ≤ b.1 := by
  have : Std.Total fun a b : Text × α => a.1 ≤ b.1 := ⟨fun a b => le_total a.1 b.1⟩
  have : IsTrans (Text × α) fun a b => a.1 ≤ b.1 := ⟨fun _ _ _ => le_trans⟩
  exact pairwise_insertionSort _ members

theorem inOrder_eq_of_perm {others : List (Text × α)} (perm : members.Perm others)
    (distinct : (members.map Prod.fst).Nodup) : inOrder members = inOrder others := by
  have same : (inOrder members).Perm (inOrder others) :=
    (perm_inOrder members).trans (perm.trans (perm_inOrder others).symm)
  refine List.Perm.eq_of_pairwise ?_ (inOrder_pairwise members) (inOrder_pairwise others) same
  intro a b left right le ge
  have keys : a.1 = b.1 := le_antisymm le ge
  have there : b ∈ members := (perm.mem_iff).mpr (mem_inOrder.1 right)
  exact inj_on_of_nodup_map distinct (mem_inOrder.1 left) there keys

theorem inOrder_inOrder : inOrder (inOrder members) = inOrder members :=
  (inOrder_pairwise members).insertionSort_eq

end InOrder

/-! ## Images -/

mutual
def image (ascii : Bool) (r : N → M) : Value N → Value M
  | .null => .null
  | .bool value => .bool value
  | .int value => .int value
  | .num value => .num (r value)
  | .str chars => .str (reread ascii chars)
  | .arr items => .arr (imageItems ascii r items)
  | .obj entries => .obj (inOrder (imageEntries ascii r entries))

def imageItems (ascii : Bool) (r : N → M) : List (Value N) → List (Value M)
  | [] => []
  | item :: items => image ascii r item :: imageItems ascii r items

def imageEntries (ascii : Bool) (r : N → M) : Entries N → Entries M
  | [] => []
  | (key, value) :: entries => (key, image ascii r value) :: imageEntries ascii r entries
end

mutual
def Proper : Value N → Prop
  | .arr items => ProperItems items
  | .obj entries => (keys entries).Nodup ∧ ProperEntries entries
  | _ => True

def ProperItems : List (Value N) → Prop
  | [] => True
  | item :: items => Proper item ∧ ProperItems items

def ProperEntries : Entries N → Prop
  | [] => True
  | (key, value) :: entries => Clear key ∧ Proper value ∧ ProperEntries entries
end

theorem imageItems_eq_map (ascii : Bool) (r : N → M) (items : List (Value N)) :
    imageItems ascii r items = items.map (image ascii r) := by
  induction items with
  | nil => rfl
  | cons item items ih => rw [imageItems, map_cons, ih]

theorem imageEntries_eq_map (ascii : Bool) (r : N → M) (entries : Entries N) :
    imageEntries ascii r entries = entries.map fun entry => (entry.1, image ascii r entry.2) := by
  induction entries with
  | nil => rfl
  | cons entry entries ih => rw [imageEntries, map_cons, ih]

theorem properItems_iff {items : List (Value N)} : ProperItems items ↔ ∀ item ∈ items, Proper item := by
  induction items with
  | nil => simp [ProperItems]
  | cons item items ih => simp [ProperItems, ih]

theorem properEntries_iff {entries : Entries N} :
    ProperEntries entries ↔ ∀ entry ∈ entries, Clear entry.1 ∧ Proper entry.2 := by
  induction entries with
  | nil => simp [ProperEntries]
  | cons entry entries ih => simp [ProperEntries, ih, and_assoc]

theorem writeItems_eq_map (E : Encoder N) (depth : ℕ) (items : List (Value N)) :
    writeItems E depth items = items.map (write E depth) := by
  induction items with
  | nil => rfl
  | cons item items ih => rw [writeItems, map_cons, ih]

theorem writeEntries_eq_map (E : Encoder N) (depth : ℕ) (entries : Entries N) :
    writeEntries E depth entries = entries.map fun entry => (entry.1, write E depth entry.2) := by
  induction entries with
  | nil => rfl
  | cons entry entries ih => rw [writeEntries, map_cons, ih]

theorem Value.induction {P : Value N → Prop}
    (null : P .null) (bool : ∀ value, P (.bool value)) (int : ∀ value, P (.int value)) (num : ∀ value, P (.num value))
    (str : ∀ chars, P (.str chars)) (arr : ∀ items, (∀ item ∈ items, P item) → P (.arr items))
    (obj : ∀ entries : Entries N, (∀ entry ∈ entries, P entry.2) → P (.obj entries)) (value : Value N) : P value :=
  @Value.rec N P (fun items => ∀ item ∈ items, P item) (fun entries => ∀ entry ∈ entries, P entry.2)
    (fun entry => P entry.2)
    null bool int num str (fun items ih => arr items ih) (fun entries ih => obj entries ih) (by simp)
    (fun item items first rest other member => by
      rcases mem_cons.mp member with rfl | there
      · exact first
      · exact rest other there) (by simp)
    (fun entry entries first rest other member => by
      rcases mem_cons.mp member with rfl | there
      · exact first
      · exact rest other there) (fun _ _ => id) value

/-! ## Reading -/

variable {D : Decoder M}

structure Parses (D : Decoder M) (depth : ℕ) (t : Text) (value : Value M) : Prop where
  starts : ∃ c rest, t = c :: rest ∧ isWhitespace c = false ∧ c ≠ code ']' ∧ c.val < 0x80
  parses : ∀ fuel rest, 3 * t.length ≤ fuel → Follows rest →
    parseValue D fuel depth (t ++ rest) = .ok (value, rest)

variable {c : CodePoint}

theorem skip_cons (rest : Text) (dark : isWhitespace c = false) : skip (c :: rest) = c :: rest := by
  simp [skip, dark]

variable {t : Text}

variable {depth : ℕ}

theorem Parses.skip {value : Value M} (parses : Parses D depth t value)
    (rest : Text) : skip (t ++ rest) = t ++ rest := by
  obtain ⟨c, more, rfl, dark, -⟩ := parses.starts
  exact skip_cons _ dark

def Blank (gap : Text) : Prop := ∀ c ∈ gap, c = code ' ' ∨ c = code '\n'

variable {gap : Text}

theorem blank_append {more : Text} (first : Blank gap) (second : Blank more) : Blank (gap ++ more) := by
  intro c member
  exact (mem_append.mp member).elim (first c) (second c)

theorem blank_blanks (n : ℕ) : Blank (blanks n) := fun _ member => .inl (eq_of_mem_replicate member)

theorem skip_blank (blank : Blank gap) (rest : Text) : skip (gap ++ rest) = skip rest := by
  refine dropWhile_append_of_pos fun c member => ?_
  rcases blank c member with rfl | rfl <;> decide

theorem skip_blank_cons (blank : Blank gap) (rest : Text)
    (dark : isWhitespace c = false) : skip (gap ++ c :: rest) = c :: rest := by
  rw [skip_blank blank, skip_cons rest dark]

theorem follows_cons {c : CodePoint} (is : c = code ',' ∨ c = code '}' ∨ c = code ']') (rest : Text) :
    Follows (c :: rest) := by
  rintro d head
  obtain rfl : c = d := Option.some.inj head
  exact .inr (.inr is)

variable {rest : Text}

theorem follows_blank (blank : Blank gap) (follows : Follows rest) : Follows (gap ++ rest) := by
  cases gap with
  | nil => exact follows
  | cons c gap =>
    rintro d head
    obtain rfl : c = d := Option.some.inj head
    exact (blank c (.head _)).elim .inl fun line => .inr (.inl line)

theorem follows_nil : Follows [] := nofun

variable {last : Text} {ts : List Text}

/-- A scanner of the elements before `close`: what an element looks like, and what follows it. -/
structure Scans {X : Type} (scan : ℕ → Text → Scanned (List X)) (close : CodePoint) (Reads : Text → X → Prop) : Prop where
  closes : close = code '}' ∨ close = code ']'
  starts : ∀ {t x}, Reads t x → ∃ c more, t = c :: more ∧ isWhitespace c = false ∧ c ≠ close
  step : ∀ {t x fuel rest}, Reads t x → 3 * t.length + 1 ≤ fuel + 1 → Follows rest →
    scan (fuel + 1) (t ++ rest) =
      if (skip rest).head? = some close then .ok ([x], (skip rest).tail)
      else if (skip rest).head? = some (code ',') then
        (scan fuel (skip (skip rest).tail)).map fun (xs, rest) => (x :: xs, rest)
      else .error .malformed

section Scans
variable {X : Type} {scan : ℕ → Text → Scanned (List X)} {close : CodePoint} {Reads : Text → X → Prop} {x : X}

theorem Scans.start (scans : Scans scan close Reads) (one : Reads t x) (gap : Text) (ts : List Text) (rest : Text) :
    skip (commas gap (t :: ts) ++ rest) = commas gap (t :: ts) ++ rest ∧
      (commas gap (t :: ts) ++ rest).head? ≠ some close := by
  obtain ⟨c, more, rfl, dark, other⟩ := scans.starts one
  cases ts with
  | nil => exact ⟨skip_cons _ dark, fun same => other (Option.some.inj same)⟩
  | cons _ _ => exact ⟨skip_cons _ dark, fun same => other (Option.some.inj same)⟩

theorem Scans.commas (scans : Scans scan close Reads) {xs : List X} (blank : Blank gap) (ends : Blank last)
    (all : List.Forall₂ Reads (t :: ts) (x :: xs)) (fuel : ℕ) (rest : Text) (enough : 3 * (commas gap (t :: ts)).length
    + 1 ≤ fuel) : scan fuel (commas gap (t :: ts) ++ (last ++ close :: rest)) = .ok (x :: xs, rest) := by
  have dark : isWhitespace close = false := by
    rcases scans.closes with rfl | rfl <;> decide
  have other : (some (code ',') : Option CodePoint) ≠ some close := by
    rcases scans.closes with rfl | rfl <;> decide
  induction ts generalizing t x xs fuel with
  | nil =>
    cases all with
    | cons first others =>
      cases others
      obtain ⟨fuel, rfl⟩ := exists_eq_add_one_of_ne_zero (by omega : fuel ≠ 0)
      rw [commas, scans.step first (by simpa only [commas] using enough)
        (follows_blank ends (follows_cons (.inr scans.closes) rest)), skip_blank_cons ends rest dark, head?_cons,
        if_pos rfl]
      rfl
  | cons next ts ih =>
    cases all with
    | @cons _ _ _ xs first others =>
      cases xs with
      | nil => cases others
      | cons second xs =>
        obtain ⟨fuel, rfl⟩ := exists_eq_add_one_of_ne_zero (by omega : fuel ≠ 0)
        simp only [commas, length_append, length_cons] at enough
        have later := ih others fuel (by omega)
        have start : skip (gap ++ (commas gap (next :: ts) ++ (last ++ close :: rest))) =
            commas gap (next :: ts) ++ (last ++ close :: rest) := by
          rw [skip_blank blank]
          cases others with
          | cons one _ => exact (scans.start one gap ts _).1
        rw [commas, append_assoc, cons_append, append_assoc,
          scans.step first (by omega) (follows_cons (by simp) _), skip_cons _ (by decide), head?_cons,
          if_neg other, if_pos rfl, tail_cons, start, later]
        rfl

end Scans

theorem scans_items : Scans (parseItems D · depth) (code ']') (Parses D depth) where
  closes := .inr rfl
  starts one := by
    obtain ⟨c, more, is, dark, other, -⟩ := one.starts
    exact ⟨c, more, is, dark, other⟩
  step one enough follows := by
    rw [parseItems, one.parses _ _ (by omega) follows]
    rfl

def ParsesMember (D : Decoder M) (ascii : Bool) (depth : ℕ) (t : Text) (entry : Text × Value M) : Prop :=
  ∃ gap value, t = quote ascii entry.1 ++ code ':' :: (gap ++ value) ∧ Blank gap ∧ Clear entry.1 ∧
    Parses D depth value entry.2

variable {ascii : Bool}

theorem parseMembers_member {fuel : ℕ} {entry : Text × Value M} (parses : ParsesMember D ascii depth t entry)
    (enough : 3 * t.length + 1 ≤ fuel + 1) (follows : Follows rest) : parseMembers D (fuel + 1) depth (t ++ rest)
    = if (skip rest).head? = some (code '}') then .ok ([entry], (skip rest).tail) else if (skip rest).head? =
    some (code ',') then (parseMembers D fuel depth (skip (skip rest).tail)).map fun (entries, rest)
    => (entry :: entries, rest) else .error .malformed := by
  obtain ⟨gap, value, rfl, blank, clear, parses⟩ := parses
  have colon : isWhitespace (code ':') = false := by decide
  have read := parses.parses fuel rest (by
    simp only [length_append, length_cons] at enough
    omega) follows
  rw [append_assoc, cons_append, append_assoc, quote_append, parseMembers, if_pos rfl, scanString_rest]
  simp only [Except.bind, skip_cons _ colon, head?_cons, if_true, tail_cons, skip_blank blank,
    parses.skip, read, reread_of_clear ascii clear]

theorem scans_members : Scans (parseMembers D · depth) (code '}') (ParsesMember D ascii depth) where
  closes := .inl rfl
  starts one := by
    obtain ⟨_, value, rfl, -⟩ := one
    exact ⟨code '"', _, quote_append ascii _ _, by decide, by decide⟩
  step one enough follows := parseMembers_member one enough follows

/-! ## Writing -/

theorem allWritten_eq_ok {parts : List (Except Fault Text)} :
    allWritten parts = .ok ts ↔ List.Forall₂ (fun part t => part = .ok t) parts ts := by
  induction parts generalizing ts with
  | nil => simp [allWritten, eq_comm]
  | cons part parts ih =>
    cases part with
    | error fault =>
      constructor
      · nofun
      · rintro (⟨⟩ | ⟨⟨⟩, -⟩)
    | ok t =>
      simp only [allWritten, Except.bind]
      cases rest : allWritten parts with
      | error fault =>
        constructor
        · nofun
        · intro all
          cases all with
          | cons first others =>
            rw [ih.mpr others] at rest
            cases rest
      | ok others =>
        constructor
        · rintro ⟨⟩
          exact .cons rfl (ih.mp rest)
        · intro all
          cases all with
          | cons first later =>
            cases first
            rw [ih.mpr later] at rest
            cases rest
            rfl

theorem map_eq_ok {α β : Type} {x : Except Fault α} {f : α → β} {b : β} :
    x.map f = .ok b ↔ ∃ a, x = .ok a ∧ f a = b := by
  cases x <;> simp [Except.map]

section Parses
variable {E : Encoder N} {r : N → M} {depth : ℕ}

variable {value : Value M} {more : Text}

theorem parses_word {t : Text} {c : CodePoint} (is : t = c :: more)
    (dark : isWhitespace c = false) (close : c ≠ code ']') (string : c ≠ code '"') (brace : c ≠ code '{')
    (bracket : c ≠ code '[') (low : c.val < 0x80)
    (plain : ∀ rest, Follows rest → parsePlain D (t ++ rest) = .ok (value, rest)) :
    Parses D depth t value := by
  subst is
  refine ⟨⟨c, more, rfl, dark, close, low⟩, fun fuel rest enough follows => ?_⟩
  obtain ⟨fuel, rfl⟩ := exists_eq_add_one_of_ne_zero (by
    rw [length_cons] at enough
    omega : fuel ≠ 0)
  rw [cons_append, parseValue, if_neg string, if_neg brace, if_neg bracket]
  exact plain rest follows

theorem parses_fixed {word : String} (is : text word = c :: more) (letter :
    97 ≤ c.val ∧ c.val ≤ 122) (found : ∀ rest, (words D).find? (fun word => word.1.isPrefixOf (c :: (more ++ rest)))
    = some (c :: more, .ok value)) : Parses D depth (text word) value := by
  have differs : ∀ d : CodePoint, (d.val < 97 ∨ 122 < d.val) → c ≠ d := by
    rintro d outside rfl
    omega
  have dark : isWhitespace c = false := by
    simp only [isWhitespace, decide_eq_false_iff_not, not_or]
    exact ⟨differs _ (by decide), differs _ (by decide), differs _ (by decide), differs _ (by decide)⟩
  refine parses_word is dark (differs _ (by decide)) (differs _ (by decide)) (differs _ (by decide))
    (differs _ (by decide)) (by omega) fun rest _ => ?_
  rw [is, cons_append]
  unfold parsePlain
  rw [found rest]
  simp [Except.map]

theorem parses_null : Parses D depth (text "null") .null :=
  parses_fixed rfl (by decide) fun _ => rfl

theorem parses_bool (value : Bool) : Parses D depth (text (if value then "true" else "false")) (.bool value) := by
  cases value with
  | true => exact parses_fixed rfl (by decide) fun _ => rfl
  | false => exact parses_fixed rfl (by decide) fun _ => rfl

variable {n : Numeral}

theorem numeral_starts (formed : n.WellFormed) : ∃ c more, n.text = c :: more ∧ (isDigit c = true ∨ c = code '-') := by
  obtain ⟨c, more, is⟩ : ∃ c more, n.whole = c :: more := exists_cons_of_ne_nil formed.whole
  have digit : isDigit c = true := formed.digits c (by rw [is]; exact .head _)
  unfold Numeral.text Numeral.signText
  cases n.negative with
  | true => exact ⟨code '-', _, rfl, .inr rfl⟩
  | false => exact ⟨c, _, by rw [is]; rfl, .inl digit⟩

theorem parses_numeral (formed : n.WellFormed) (plain :
    ∀ rest, Follows rest → parsePlain D (n.text ++ rest) = .ok (value, rest)) : Parses D depth n.text value := by
  obtain ⟨c, more, is, first⟩ := numeral_starts formed
  have differs : ∀ d : CodePoint, isDigit d = false → d ≠ code '-' → c ≠ d := by
    rintro d wrong other rfl
    rcases first with digit | minus
    · rw [digit] at wrong
      cases wrong
    · exact other minus
  have dark : isWhitespace c = false := by
    simp only [isWhitespace, decide_eq_false_iff_not, not_or]
    exact ⟨differs _ (by decide) (by decide), differs _ (by decide) (by decide),
      differs _ (by decide) (by decide), differs _ (by decide) (by decide)⟩
  have low : c.val < 0x80 := by
    rcases first with digit | rfl
    · have most : c.val ≤ (code '9').val := (of_decide_eq_true digit).2
      exact most.trans_lt (by decide)
    · decide
  exact parses_word is dark (differs _ (by decide) (by decide)) (differs _ (by decide) (by decide))
    (differs _ (by decide) (by decide)) (differs _ (by decide) (by decide)) low plain

theorem parses_integer {n : ℤ} (written : integerText n = .ok t) : Parses D depth t (.int n) := by
  obtain ⟨is, -⟩ := integerText_eq_ok written
  subst is
  exact parses_numeral (integerNumeral_wellFormed n) fun rest follows =>
    parsePlain_integer D written follows

theorem parses_quote (ascii : Bool) (chars : Text) :
    Parses D depth (quote ascii chars) (.str (reread ascii chars)) := by
  refine ⟨⟨code '"', _, rfl, by decide, by decide, by decide⟩, fun fuel rest enough follows => ?_⟩
  obtain ⟨fuel, rfl⟩ := exists_eq_add_one_of_ne_zero (by
    rw [quote, length_cons] at enough
    omega : fuel ≠ 0)
  rw [quote_append, parseValue, if_pos rfl, scanString_rest]
  rfl

structure Spread (gap first last : Text) (ts : List Text) (t : Text) : Prop where
  none : ts = [] → t = []
  some : ts ≠ [] → t = first ++ (commas gap ts ++ last)
  gap : Blank gap
  first : Blank first
  last : Blank last

theorem blank_newLine (E : Encoder N) (depth : ℕ) : Blank (newLine E depth) := by
  unfold newLine
  cases E.layout.indent with
  | none => nofun
  | some indent =>
    intro c member
    exact (mem_cons.mp member).elim .inr (blank_blanks _ c)

theorem spread_body (E : Encoder N) (depth : ℕ) (ts : List Text) :
    Spread (blanks E.layout.comma ++ newLine E depth) (newLine E depth) (newLine E (depth + 1)) ts
      (body E depth ts) where
  none is := if_pos is
  some is := if_neg is
  gap := blank_append (blank_blanks _) (blank_newLine E depth)
  first := blank_newLine E depth
  last := blank_newLine E (depth + 1)

variable {first inner : Text}

theorem parses_arr {values : List (Value M)} (spread : Spread gap first last ts inner) (all : List.Forall₂
    (Parses D depth) ts values) : Parses D (depth + 1) (code '[' :: (inner ++ [code ']'])) (.arr values) := by
  refine ⟨⟨code '[', _, rfl, by decide, by decide, by decide⟩, fun fuel rest enough follows => ?_⟩
  simp only [length_cons, length_append, length_nil] at enough
  obtain ⟨fuel, rfl⟩ := Nat.exists_eq_add_of_le (by omega : 2 ≤ fuel)
  rw [cons_append, append_assoc, singleton_append, Nat.add_comm 2 fuel, parseValue,
    if_neg (by decide), if_neg (by decide), if_pos rfl, if_neg (Nat.succ_ne_zero depth), Nat.add_sub_cancel]
  cases all with
  | nil =>
    rw [spread.none rfl, nil_append, skip_cons rest (by decide), parseArray, head?_cons, if_pos rfl]
    rfl
  | @cons t value ts values one others =>
    have is := spread.some (cons_ne_nil t ts)
    subst is
    simp only [length_append] at enough
    have start := (scans_items (D := D)).start one gap ts (last ++ code ']' :: rest)
    rw [append_assoc, append_assoc, skip_blank spread.first, start.1, parseArray, if_neg start.2,
      scans_items.commas spread.gap spread.last (.cons one others) fuel rest (by omega)]
    rfl

theorem parses_obj (ascii : Bool) {entries : Entries M} (spread : Spread gap first last ts inner)
    (keeps : D.pairs entries = .ok entries) (all : List.Forall₂ (ParsesMember D ascii depth) ts entries) :
    Parses D (depth + 1) (code '{' :: (inner ++ [code '}'])) (.obj entries) := by
  refine ⟨⟨code '{', _, rfl, by decide, by decide, by decide⟩, fun fuel rest enough follows => ?_⟩
  simp only [length_cons, length_append, length_nil] at enough
  obtain ⟨fuel, rfl⟩ := Nat.exists_eq_add_of_le (by omega : 2 ≤ fuel)
  rw [cons_append, append_assoc, singleton_append, Nat.add_comm 2 fuel, parseValue,
    if_neg (by decide), if_pos rfl, if_neg (Nat.succ_ne_zero depth), Nat.add_sub_cancel]
  have read : parseObject D (fuel + 1) depth (skip (inner ++ code '}' :: rest)) = .ok (entries, rest) := by
    cases all with
    | nil => rw [spread.none rfl, nil_append, skip_cons rest (by decide), parseObject, head?_cons,
        if_pos rfl, tail_cons]
    | @cons t entry ts entries one others =>
      have is := spread.some (cons_ne_nil t ts)
      subst is
      simp only [length_append] at enough
      have start := scans_members.start one gap ts (last ++ code '}' :: rest)
      rw [append_assoc, append_assoc, skip_blank spread.first, start.1, parseObject, if_neg start.2,
        scans_members.commas spread.gap spread.last (.cons one others) fuel rest (by omega)]
  rw [read]
  simp only [Except.bind, keeps]
  rfl

def Decoder.Keeps (D : Decoder M) : Prop :=
  ∀ entries : Entries M, entries.keys.Nodup → D.pairs entries = .ok entries

def ReadsNumbers (E : Encoder N) (D : Decoder M) (r : N → M) : Prop :=
  ∀ depth value t, E.number value = .ok t → Parses D depth t (.num (r value))

variable {α : Type} {items : List α}

theorem forall₂_of_written {f : α → Except Fault Text}
    (written : allWritten (items.map f) = .ok ts) : List.Forall₂ (fun item t => f item = .ok t) items ts := by
  have all := allWritten_eq_ok.1 written
  rwa [forall₂_map_left_iff] at all

theorem forall₂_of_mem {β γ : Type} {R : α → β → Prop} {S : β → γ → Prop} {f : α → γ} {ts : List β} (all : List.Forall₂
    R items ts) (imp : ∀ item ∈ items, ∀ t, R item t → S t (f item)) : List.Forall₂ S ts (items.map f) := by
  induction all with
  | nil => exact .nil
  | cons first _ ih =>
    exact .cons (imp _ (.head _) _ first) (ih fun item member => imp item (.tail _ member))

theorem parses_write (keeps : D.Keeps) (numbers : ReadsNumbers E D r) {value : Value N}
    (proper : Proper value) (written : write E depth value = .ok t) : Parses D depth t (image E.ascii r value) := by
  induction value using Value.induction generalizing depth t with
  | null =>
    cases written
    exact parses_null
  | bool value =>
    cases written
    exact parses_bool value
  | int value => exact parses_integer written
  | num value => exact numbers depth value t written
  | str chars =>
    cases written
    exact parses_quote E.ascii chars
  | arr items ih =>
    cases depth with
    | zero => cases written
    | succ depth =>
      rw [write, writeItems_eq_map] at written
      obtain ⟨ts, all, rfl⟩ := map_eq_ok.1 written
      rw [Proper, properItems_iff] at proper
      rw [image, imageItems_eq_map]
      refine parses_arr (spread_body E depth ts) (forall₂_of_mem (forall₂_of_written all) ?_)
      exact fun item member part is => ih item member (proper item member) is
  | obj entries ih =>
    cases depth with
    | zero => cases written
    | succ depth =>
      rw [write, writeEntries_eq_map, inOrder_map, map_map] at written
      obtain ⟨ts, all, rfl⟩ := map_eq_ok.1 written
      rw [Proper, properEntries_iff] at proper
      obtain ⟨distinct, clear⟩ := proper
      rw [image, imageEntries_eq_map, inOrder_map]
      refine parses_obj E.ascii (spread_body E depth ts) (keeps _ ?_) (forall₂_of_mem (forall₂_of_written all) ?_)
      · have keys : keys ((inOrder entries).map fun entry => (entry.1, image E.ascii r entry.2)) =
            (inOrder entries).map Prod.fst := by
          rw [Entries.keys, map_map]
          rfl
        rw [keys]
        exact ((perm_inOrder entries).map Prod.fst).nodup_iff.mpr distinct
      · intro entry member part is
        have there := mem_inOrder.1 member
        obtain ⟨value, wrote, rfl⟩ := map_eq_ok.1 is
        exact ⟨_, value, rfl, blank_blanks _, (clear entry there).1, ih entry there (clear entry there).2 wrote⟩

theorem loads_dumps (keeps : D.Keeps) (numbers : ReadsNumbers E D r) (nesting : D.nesting = E.nesting) {value : Value N}
    (proper : Proper value) (written : dumps E value = .ok t) : loads D t = .ok (image E.ascii r value) := by
  have parses := parses_write keeps numbers proper written
  have read := parses.parses (3 * t.length + 3) [] (by omega) follows_nil
  have start := parses.skip []
  rw [append_nil] at read start
  obtain ⟨c, rest, is, -, -, low⟩ := parses.starts
  have mark : t.head? ≠ some 0xfeff := by
    rw [is, head?_cons]
    intro same
    obtain rfl : c = 0xfeff := Option.some.inj same
    exact absurd low (by decide)
  rw [loads, if_neg mark, start, nesting, read]
  rfl

end Parses

end VideoPoster.Documents
