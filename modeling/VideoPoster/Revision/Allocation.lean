import VideoPoster.Revision.Timeline

/-!
# Words, events and windows
-/

namespace VideoPoster.Revision
open Python List Token

section Groups
variable {α β : Type} {size : α → List β} {events : List α} {text : List β} {texts : List (List β)}

def Grouped (size : α → List β) (events : List α) (texts : List (List β)) : Prop :=
  ∃ groups : List (List α), groups.flatten = events ∧ groups.map (fun group => group.flatMap size) = texts

def Aligned (size : α → List β) (events : List α) (texts : List (List β)) : Prop :=
  ∀ i, ∃ j, (texts.take i).flatten.length = ((events.take j).flatMap size).length

theorem Grouped.aligned (grouped : Grouped size events texts) : Aligned size events texts := by
  obtain ⟨groups, rfl, rfl⟩ := grouped
  intro i
  refine ⟨(groups.take i).flatten.length, ?_⟩
  have split : groups.flatten = (groups.take i).flatten ++ (groups.drop i).flatten := by
    rw [← flatten_append, take_append_drop]
  rw [split, take_left, ← map_take, ← flatMap_def, ← flatMap_assoc, flatMap_id']

theorem Aligned.tail (aligned : Aligned size events (text :: texts)) {j : ℕ}
    (first : text.length = ((events.take j).flatMap size).length) : Aligned size (events.drop j) texts := by
  intro i
  obtain ⟨k, count⟩ := aligned (i + 1)
  rw [take_succ_cons, flatten_cons, length_append, first] at count
  rcases Nat.le_total j k with later | earlier
  · obtain ⟨d, rfl⟩ := Nat.exists_eq_add_of_le later
    rw [take_add, flatMap_append, length_append] at count
    exact ⟨d, Nat.add_left_cancel count⟩
  · obtain ⟨d, rfl⟩ := Nat.exists_eq_add_of_le earlier
    rw [take_add, flatMap_append, length_append] at count
    refine ⟨0, ?_⟩
    simp only [take_zero, flatMap_nil, length_nil]
    omega

theorem flatMap_take_drop (j : ℕ) :
    events.flatMap size = (events.take j).flatMap size ++ (events.drop j).flatMap size := by
  rw [← flatMap_append, take_append_drop]

theorem Aligned.grouped (aligned : Aligned size events texts) (nonempty : texts ≠ [])
    (same : texts.flatten = events.flatMap size) : Grouped size events texts := by
  induction texts generalizing events with
  | nil => exact absurd rfl nonempty
  | cons text rest ih =>
    cases rest with
    | nil => exact ⟨[events], by simp, by simpa using same.symm⟩
    | cons next rest =>
      obtain ⟨j, first⟩ := aligned 1
      rw [take_succ_cons, take_zero, flatten_singleton] at first
      rw [flatten_cons, flatMap_take_drop j] at same
      obtain ⟨head, tail⟩ := append_inj same first
      obtain ⟨groups, flat, texts⟩ := ih (aligned.tail first) (cons_ne_nil _ _) tail
      exact ⟨events.take j :: groups, by rw [flatten_cons, flat, take_append_drop],
        by rw [map_cons, texts, head]⟩

end Groups

variable {norm : String → List (List Char)} {spoken : List Spoken} {token : Token} {left chunk : List Token}
  {texts : List (List (List Char))} {intervals : List (ℚ × ℚ)}

def tokensOf (norm : String → List (List Char)) (spoken : List Spoken) : List Token :=
  spoken.flatMap fun word => (norm word.word).map fun text => ⟨text, word.start, word.stop⟩

theorem mem_tokensOf : token ∈ tokensOf norm spoken ↔
    ∃ word ∈ spoken, ∃ text ∈ norm word.word, ⟨text, word.start, word.stop⟩ = token := by
  simp [tokensOf]

theorem tokensOf_texts : (tokensOf norm spoken).map text = (spoken.map Spoken.word).flatMap norm := by
  simp [tokensOf, map_flatMap, flatMap_map, Function.comp_def]

structure InOrder (spoken : List Spoken) : Prop where
  ordered : spoken.Pairwise fun a b => a.stop ≤ b.start
  lasting : ∀ word ∈ spoken, word.start < word.stop

theorem InOrder.stops (order : InOrder spoken) : (tokensOf norm spoken).Pairwise fun a b => a.stop ≤ b.stop := by
  rw [tokensOf, pairwise_flatMap]
  constructor
  · intro word member
    exact pairwise_map.mpr (pairwise_of_forall fun _ _ => le_rfl)
  · refine order.ordered.imp_of_mem fun {a b} _ later before => ?_
    simp only [mem_map]
    rintro _ ⟨_, -, rfl⟩ _ ⟨_, -, rfl⟩
    exact before.trans (order.lasting b later).le

inductive Allocated : List Token → List (List (List Char)) → List (ℚ × ℚ) → Prop
  | nil : Allocated [] [] []
  | cons {chunk left : List Token} {texts : List (List (List Char))} {intervals : List (ℚ × ℚ)} (nonempty : chunk ≠ [])
      (rest : Allocated left texts intervals) :
      Allocated (chunk ++ left) (chunk.map text :: texts)
        (((chunk.head nonempty).start, (chunk.getLast nonempty).stop) :: intervals)

namespace Allocated

theorem of_take {n : ℕ} {first last : Token} (head : (left.take n).head? = some first)
    (final : (left.take n).getLast? = some last) (rest : Allocated (left.drop n) texts intervals) :
    Allocated left ((left.take n).map text :: texts) ((first.start, last.stop) :: intervals) := by
  have nonempty : left.take n ≠ [] := fun empty => by simp [empty] at head
  have chunk := Allocated.cons nonempty rest
  rw [head?_eq_some_head nonempty, Option.some.injEq] at head
  rw [getLast?_eq_some_getLast nonempty, Option.some.injEq] at final
  rwa [take_append_drop, head, final] at chunk

variable (allocated : Allocated left texts intervals)
include allocated

theorem flatten : texts.flatten = left.map text := by
  induction allocated with
  | nil => rfl
  | cons nonempty rest ih => simp [ih]

theorem borders : ∀ interval ∈ intervals,
    (∃ token ∈ left, token.start = interval.1) ∧ ∃ token ∈ left, token.stop = interval.2 := by
  induction allocated with
  | nil => simp
  | cons nonempty rest ih =>
    rw [forall_mem_cons]
    refine ⟨⟨⟨_, mem_append_left _ (head_mem nonempty), rfl⟩,
      _, mem_append_left _ (getLast_mem nonempty), rfl⟩, fun interval member => ?_⟩
    obtain ⟨⟨first, begins, start⟩, last, ends, stop⟩ := ih interval member
    exact ⟨⟨first, mem_append_right _ begins, start⟩, last, mem_append_right _ ends, stop⟩

theorem stops (sorted : left.Pairwise fun a b => a.stop ≤ b.stop) :
    ∀ token ∈ left, ∃ interval ∈ intervals, token.stop ≤ interval.2 := by
  induction allocated with
  | nil => simp
  | cons nonempty rest ih =>
    obtain ⟨inner, outer, -⟩ := pairwise_append.mp sorted
    intro token member
    rcases mem_append.mp member with here | later
    · refine ⟨_, mem_cons_self, ?_⟩
      exact inner.rel_getLast_of_rel_getLast_getLast here le_rfl
    · obtain ⟨interval, listed, ends⟩ := ih outer token later
      exact ⟨interval, .tail _ listed, ends⟩

theorem ordered (order : InOrder spoken) (same : left = tokensOf norm spoken)
    (aligned : Aligned (fun word => norm word.word) spoken texts) : intervals.Pairwise fun a b => a.2 ≤ b.1 := by
  induction allocated generalizing spoken with
  | nil => exact .nil
  | @cons chunk left texts intervals nonempty rest ih =>
    obtain ⟨j, first⟩ := aligned 1
    rw [take_succ_cons, take_zero, flatten_singleton] at first
    rw [tokensOf, flatMap_take_drop j] at same
    obtain ⟨rfl, rfl⟩ := append_inj same (by simpa using first)
    have split := order.ordered
    rw [← take_append_drop j spoken, pairwise_append] at split
    obtain ⟨-, later, across⟩ := split
    refine .cons (fun interval member => ?_) (@ih (spoken.drop j) ⟨later, fun word member =>
      order.lasting word (mem_of_mem_drop member)⟩ rfl (aligned.tail first))
    obtain ⟨⟨token, begins, start⟩, -⟩ := rest.borders interval member
    obtain ⟨after, listed, _, -, rfl⟩ := mem_tokensOf.1 begins
    obtain ⟨before, listed', _, -, last⟩ := mem_tokensOf.1 (getLast_mem nonempty)
    rw [← start, ← last]
    exact across before listed' after listed

end Allocated

theorem border_of_le (lasting : ∀ word ∈ spoken, word.start < word.stop) (same : chunk ++ left = tokensOf norm spoken)
    (apart : ∀ a ∈ chunk.getLast?, ∀ b ∈ left.head?, a.stop ≤ b.start) :
    ∃ j, chunk.length = ((spoken.take j).flatMap fun word => norm word.word).length := by
  induction spoken generalizing chunk with
  | nil =>
    obtain ⟨rfl, -⟩ := append_eq_nil_iff.mp same
    exact ⟨0, rfl⟩
  | cons word rest ih =>
    obtain ⟨here, later⟩ := forall_mem_cons.mp lasting
    rw [tokensOf, flatMap_cons] at same
    have block : ∀ token ∈ (norm word.word).map fun text => (⟨text, word.start, word.stop⟩ : Token),
        token.start = word.start ∧ token.stop = word.stop := by simp
    obtain ⟨more, split, rfl⟩ | ⟨more, rfl, tail⟩ := append_eq_append_iff.mp same
    · cases more with
      | nil => exact ⟨1, by simpa using congrArg length split.symm⟩
      | cons head more =>
        cases last : chunk.getLast? with
        | none => exact ⟨0, by rw [getLast?_eq_none_iff.mp last]; rfl⟩
        | some token =>
          rw [split] at block
          have stop := (block token (mem_append_left _ (mem_of_getLast? last))).2
          have start := (block head (by simp)).1
          have := apart token last head rfl
          linarith
    · obtain ⟨j, count⟩ := ih later tail.symm fun a last => apart a (by simp [getLast?_append, Option.mem_def.mp last])
      exact ⟨j + 1, by simp [count]⟩

theorem Allocated.aligned (allocated : Allocated left texts intervals)
    (lasting : ∀ word ∈ spoken, word.start < word.stop) (same : left = tokensOf norm spoken)
    (chain : intervals.IsChain fun a b => a.2 ≤ b.1) : Aligned (fun word => norm word.word) spoken texts := by
  induction allocated generalizing spoken with
  | nil => exact fun i => ⟨0, by simp⟩
  | @cons chunk left texts intervals nonempty rest ih =>
    have apart : ∀ a ∈ chunk.getLast?, ∀ b ∈ left.head?, a.stop ≤ b.start := by
      intro a last b head
      obtain rfl : chunk.getLast nonempty = a := by
        rw [getLast?_eq_some_getLast nonempty] at last
        exact Option.some.inj last
      cases rest with
      | nil => cases head
      | cons filled rest =>
        rw [head?_append_of_ne_nil _ filled, head?_eq_some_head filled] at head
        obtain rfl := Option.some.inj head
        exact (isChain_cons_cons.mp chain).1
    obtain ⟨j, first⟩ := border_of_le lasting same apart
    rw [tokensOf, flatMap_take_drop j] at same
    obtain ⟨-, rest_eq⟩ := append_inj same (by simpa using first)
    have later := ih (fun word member => lasting word (mem_of_mem_drop member)) rest_eq chain.tail
    intro i
    cases i with
    | zero => exact ⟨0, by simp⟩
    | succ i =>
      obtain ⟨k, count⟩ := later i
      refine ⟨j + k, ?_⟩
      rw [take_succ_cons, flatten_cons, length_append, length_map, count, take_add,
        flatMap_append, length_append, first]

theorem aligned_map :
    Aligned norm (spoken.map Spoken.word) texts ↔ Aligned (fun word => norm word.word) spoken texts := by
  simp only [Aligned, ← map_take, flatMap_map]

section Windows
variable {duration start : ℚ} {scenes : List (ℚ × ℚ)}

def windows (duration : ℚ) : ℚ → List (ℚ × ℚ) → List (ℚ × ℚ)
  | _, [] => []
  | start, _ :: rest =>
    let stop := (rest.head?.map Prod.fst).getD duration
    (start, stop) :: windows duration stop rest

def Tiles (duration : ℚ) : ℚ → List (ℚ × ℚ) → Prop
  | start, [] => start = duration
  | start, window :: rest => window.1 = start ∧ Tiles duration window.2 rest

def Inside (window interval : ℚ × ℚ) : Prop := window.1 ≤ interval.1 ∧ interval.2 ≤ window.2

theorem tiles_windows (nonempty : intervals ≠ []) : Tiles duration start (windows duration start intervals) := by
  induction intervals generalizing start with
  | nil => exact absurd rfl nonempty
  | cons interval rest ih =>
    cases rest with
    | nil => exact ⟨rfl, rfl⟩
    | cons next rest => exact ⟨rfl, ih (cons_ne_nil _ _)⟩

theorem Tiles.within (tiles : Tiles duration start scenes) (lasting : ∀ window ∈ scenes, window.1 < window.2) :
    start ≤ duration ∧ ∀ window ∈ scenes, window.2 ≤ duration := by
  induction scenes generalizing start with
  | nil => exact ⟨le_of_eq tiles, by simp⟩
  | cons window rest ih =>
    obtain ⟨rfl, later⟩ := tiles
    obtain ⟨here, others⟩ := forall_mem_cons.mp lasting
    obtain ⟨stop, within⟩ := ih later others
    exact ⟨here.le.trans stop, forall_mem_cons.mpr ⟨stop, within⟩⟩

theorem exists_of_forall₂ {α β : Type} {related : α → β → Prop} {xs : List α} {ys : List β}
    (all : List.Forall₂ related xs ys) : ∀ y ∈ ys, ∃ x ∈ xs, related x y := by
  induction all with
  | nil => simp
  | cons here _ ih =>
    rw [forall_mem_cons]
    exact ⟨⟨_, mem_cons_self, here⟩, fun y member => (ih y member).imp fun _ => .imp_left (mem_cons_of_mem _)⟩

theorem inside_windows (chain : intervals.IsChain fun a b => a.2 ≤ b.1)
    (first : ∀ interval ∈ intervals.head?, start ≤ interval.1) (within : ∀ interval ∈ intervals,
    interval.2 ≤ duration) : List.Forall₂ Inside (windows duration start intervals) intervals := by
  induction intervals generalizing start with
  | nil => exact .nil
  | cons interval rest ih =>
    obtain ⟨ends, others⟩ := forall_mem_cons.mp within
    refine .cons ⟨first interval rfl, ?_⟩ (ih chain.tail ?_ others)
    · cases rest with
      | nil => exact ends
      | cons next rest => exact (isChain_cons_cons.mp chain).1
    · cases rest with
      | nil => simp
      | cons next rest => simp

end Windows

section Boundaries
variable {valid : String → Bool} {limit previous : ℚ} {error : Error} {boundaries : List Boundary}

theorem readBoundaries_order (read : readBoundaries valid limit error previous boundaries = .ok spoken) :
    boundaries = spoken.map (fun word => ⟨word.word, some word.start, some word.stop⟩) ∧ InOrder spoken ∧
      ∀ word ∈ spoken, previous ≤ word.start ∧ word.stop ≤ limit := by
  induction boundaries generalizing previous spoken with
  | nil =>
    cases read
    exact ⟨rfl, ⟨.nil, by simp⟩, by simp⟩
  | cons boundary rest ih =>
    obtain ⟨start, stop, later, started, stopped, ⟨-, follows, lasting, within⟩, tail, rfl⟩ := readBoundaries_cons.1 read
    obtain ⟨same, ⟨ordered, others⟩, after⟩ := ih tail
    refine ⟨?_, ⟨.cons (fun word member => (after word member).1) ordered, forall_mem_cons.mpr ⟨lasting, others⟩⟩,
      forall_mem_cons.mpr ⟨⟨follows, within⟩, fun word member => ?_⟩⟩
    swap
    · exact (after word member).imp_left (follows.trans ∘ lasting.le.trans)
    rw [map_cons, ← same, ← started, ← stopped]

end Boundaries

end VideoPoster.Revision
