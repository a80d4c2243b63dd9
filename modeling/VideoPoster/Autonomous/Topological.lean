import VideoPoster.Autonomous.Order
import VideoPoster.Paths.Cycles

/-!
# The order of the jobs is topological
-/

namespace VideoPoster.Autonomous.Runner
open Python Paths Relation List Prod Job

variable {requestId : Job → String}

/-! ## Dependencies -/

structure Lists (requestId : Job → String) (known : List String) (job : Job) (items : List String) : Prop where
  value : (job.payload.get "depends_on").getD (.arr []) = .arr (items.map .str)
  known : ∀ item ∈ items, item ∈ known
  other : requestId job ∉ items
  distinct : items.Nodup

theorem strings_eq_some {values : List Json} {items : List String} :
    strings values = some items ↔ values = items.map .str := by
  induction values generalizing items with
  | nil => cases items <;> simp [strings]
  | cons value rest ih =>
    cases value with
    | str text =>
      simp only [strings, Option.map_eq_some_iff, ih]
      cases items with
      | nil => simp
      | cons item items => simp [and_comm]
    | null | bool | num | arr | obj => cases items <;> simp [strings]

variable {known : List String} {job : Job} {items : List String}

theorem dependencies_eq_ok : dependencies requestId job known = .ok items ↔ Lists requestId known job items := by
  have checked (found : List String) : (do
      require (∀ item ∈ found, item ∈ known) (.value "job dependencies must be bound request IDs")
      require (requestId job ∉ found ∧ found.Nodup) (.value "job dependencies must be unique non-self request IDs")
      pure found : Result (List String)) = .ok items ↔
        found = items ∧ (∀ item ∈ items, item ∈ known) ∧ requestId job ∉ items ∧ items.Nodup := by
    simp only [bind_eq_ok, require_eq_ok, pure_eq_ok, exists_const]
    constructor
    · rintro ⟨bound, ⟨other, distinct⟩, rfl⟩
      exact ⟨rfl, bound, other, distinct⟩
    · rintro ⟨rfl, bound, other, distinct⟩
      exact ⟨bound, ⟨other, distinct⟩, rfl⟩
  have assembled (value : Json) (is : (job.payload.get "depends_on").getD (.arr []) = value) :
      Lists requestId known job items ↔ value = .arr (items.map .str) ∧ (∀ item ∈ items, item ∈ known) ∧
        requestId job ∉ items ∧ items.Nodup := by
    subst is
    constructor
    · exact fun lists => ⟨lists.value, lists.known, lists.other, lists.distinct⟩
    · rintro ⟨value, known, other, distinct⟩
      exact ⟨value, known, other, distinct⟩
  unfold dependencies
  cases found : job.payload.get "depends_on" with
  | none =>
    rw [assembled (.arr []) (by rw [found]; rfl)]
    refine (checked []).trans (and_congr_left' ?_)
    cases items <;> simp
  | some value =>
    rw [assembled value (by rw [found]; rfl)]
    cases value with
    | arr values =>
      dsimp only
      cases read : strings values with
      | none =>
        refine iff_of_false (by intro is; cases is) fun lists => ?_
        have same : strings values = some items := strings_eq_some.2 (Json.arr.inj lists.1)
        cases read.symm.trans same
      | some found =>
        refine (checked found).trans (and_congr_left' ?_)
        rw [Json.arr.injEq, ← strings_eq_some, read, Option.some.injEq]
    | null | bool | num | str | obj => simp

def Needs (requestId : Job → String) (jobs : List Job) (id dep : String) : Prop :=
  ∃ job ∈ jobs, requestId job = id ∧ ∃ items, Lists requestId (jobs.map requestId) job items ∧ dep ∈ items

variable {jobs : List Job}

theorem needs_iff (unique : (jobs.map requestId).Nodup) (member : job ∈ jobs) (lists : Lists requestId
    (jobs.map requestId) job items) {dep : String} : Needs requestId jobs (requestId job) dep ↔ dep ∈ items := by
  constructor
  · rintro ⟨other, isOther, same, read, reads, needed⟩
    obtain rfl := inj_on_of_nodup_map unique isOther member same
    have same := (dependencies_eq_ok.2 reads).symm.trans (dependencies_eq_ok.2 lists)
    exact Except.ok.inj same ▸ needed
  · exact fun needed => ⟨job, member, rfl, items, lists, needed⟩

/-! ## Waves -/

section Waves
variable {fuel : ℕ} {remaining other : List (String × List String)} {ordered : List String}

def cycleError : Error := .value "job dependency graph contains a cycle"

inductive Ends : List (String × List String) → Result (List String) → Prop
  | done : Ends [] (.ok [])
  | stuck {remaining : List (String × List String)} (left : remaining ≠ []) (none : wave remaining = []) :
      Ends remaining (.error cycleError)
  | wave {remaining : List (String × List String)} {result : Result (List String)} (some : wave remaining ≠ [])
      (rest : Ends (afterWave (wave remaining) remaining) result) :
      Ends remaining (result.map (wave remaining ++ ·))

theorem topologicalWaves_succ (left : remaining ≠ []) : topologicalWaves (fuel + 1) remaining = if wave remaining = []
    then .error cycleError else (topologicalWaves fuel (afterWave (wave remaining) remaining)).map (wave remaining ++ ·)
    := by
  rw [topologicalWaves, if_neg (by simpa using left)]
  by_cases none : wave remaining = []
  · rw [if_pos none]
    exact if_pos (isEmpty_iff.mpr none)
  · rw [if_neg none]
    refine (if_neg (mt List.isEmpty_iff.mp none)).trans ?_
    show (topologicalWaves fuel (afterWave (wave remaining) remaining) >>= fun rest => pure (wave remaining ++ rest)) = _
    cases topologicalWaves fuel (afterWave (wave remaining) remaining) <;> rfl

theorem topologicalWaves_nil : topologicalWaves fuel [] = .ok [] := by
  cases fuel <;> rfl

theorem length_afterWave_lt (some : wave remaining ≠ []) :
    (afterWave (wave remaining) remaining).length < remaining.length := by
  obtain ⟨id, member⟩ := exists_mem_of_ne_nil _ some
  unfold afterWave
  rw [length_map]
  refine length_filter_lt_length_iff_exists.mpr ⟨(id, []), mem_wave.1 member, ?_⟩
  simpa using member

theorem topologicalWaves_ends (enough : remaining.length ≤ fuel) :
    Ends remaining (topologicalWaves fuel remaining) := by
  induction fuel generalizing remaining with
  | zero =>
    obtain rfl := length_eq_zero_iff.mp (Nat.le_zero.mp enough)
    exact .done
  | succ fuel ih =>
    by_cases left : remaining = []
    · rw [left, topologicalWaves_nil]
      exact .done
    · rw [topologicalWaves_succ left]
      split_ifs with none
      · exact .stuck left none
      · exact .wave none (ih (Nat.le_of_lt_succ ((length_afterWave_lt none).trans_le enough)))

theorem wave_perm (perm : remaining.Perm other) : wave remaining = wave other := by
  unfold wave
  refine List.Perm.eq_of_sortedLE sortedLE_insertionSort sortedLE_insertionSort ?_
  refine (perm_insertionSort ..).trans (.trans ?_ (perm_insertionSort ..).symm)
  exact (perm.filter _).map _

theorem topologicalWaves_congr (perm : remaining.Perm other) :
    topologicalWaves fuel remaining = topologicalWaves fuel other := by
  induction fuel generalizing remaining other with
  | zero => simp only [topologicalWaves, perm.isEmpty_eq]
  | succ fuel ih =>
    by_cases left : remaining = []
    · subst left
      rw [perm.symm.eq_nil]
    · have left' : other ≠ [] := fun none => left (none ▸ perm).eq_nil
      rw [topologicalWaves_succ left, topologicalWaves_succ left', wave_perm perm]
      have later : (afterWave (wave other) remaining).Perm (afterWave (wave other) other) := (perm.filter _).map _
      rw [ih later]

theorem topologicalWaves_before (is : topologicalWaves fuel remaining = .ok ordered)
    (distinct : (remaining.map fst).Nodup) {id : String} {edges before after : List String}
    (entry : (id, edges) ∈ remaining) (split : ordered = before ++ id :: after) : ∀ dep ∈ edges, dep ∈ before := by
  induction fuel generalizing remaining ordered edges before with
  | zero =>
    obtain ⟨rfl, rfl⟩ | ⟨fuel, rest, more, -⟩ := topologicalWaves_eq_ok is
    · cases entry
    · cases more
  | succ fuel ih =>
    obtain ⟨rfl, rfl⟩ | ⟨fuel', rest, more, later, rfl⟩ := topologicalWaves_eq_ok is
    · cases entry
    cases more
    by_cases ready : id ∈ wave remaining
    · have free := inj_on_of_nodup_map distinct entry (mem_wave.1 ready) rfl
      obtain ⟨-, rfl⟩ := Prod.mk.inj free
      exact fun dep none => by cases none
    · -- the id stands behind the wave, so the wave is all before it
      obtain ⟨middle, rfl, rest'⟩ : ∃ middle, before = wave remaining ++ middle ∧ rest = middle ++ id :: after := by
        obtain ⟨middle, first, second⟩ | ⟨middle, first, second⟩ := append_eq_append_iff.mp split
        · exact ⟨middle, first, second⟩
        · cases middle with
          | nil => exact ⟨[], by simpa using first.symm, second.symm⟩
          | cons next middle =>
            obtain ⟨rfl, -⟩ := cons.inj second
            exact absurd (first ▸ mem_append_right _ mem_cons_self) ready
      intro dep needed
      by_cases given : dep ∈ wave remaining
      · exact mem_append_left _ given
      · refine mem_append_right _ (ih later ?_ (mem_afterWave.2 ⟨edges, entry, ready, rfl⟩) rest' dep ?_)
        · rw [keys_afterWave]
          exact distinct.filter _
        · exact mem_filter.mpr ⟨needed, decide_eq_true given⟩

theorem topologicalWaves_error {error : Error} (is : topologicalWaves fuel remaining = .error error)
    (enough : remaining.length ≤ fuel) : ∃ left ⊆ remaining.map fst, left ≠ [] ∧
      ∀ id ∈ left, ∃ edges, (id, edges) ∈ remaining ∧ ∃ dep ∈ edges, dep ∈ remaining.map fst → dep ∈ left := by
  induction fuel generalizing remaining with
  | zero =>
    obtain rfl := length_eq_zero_iff.mp (Nat.le_zero.mp enough)
    cases is
  | succ fuel ih =>
    by_cases some : remaining = []
    · rw [some, topologicalWaves_nil] at is
      cases is
    · rw [topologicalWaves_succ some] at is
      split_ifs at is with none
      · refine ⟨_, List.Subset.refl _, fun nothing => some (map_eq_nil_iff.mp nothing), fun id member => ?_⟩
        obtain ⟨⟨_, edges⟩, entry, rfl⟩ := mem_map.mp member
        refine ⟨edges, entry, ?_⟩
        cases edges with
        | nil => exact absurd (mem_wave.2 entry) (by simp [none])
        | cons dep rest => exact ⟨dep, mem_cons_self, fun known => known⟩
      · have later : topologicalWaves fuel (afterWave (wave remaining) remaining) = .error error := by
          cases rest : topologicalWaves fuel (afterWave (wave remaining) remaining) with
          | ok rest' => simp [rest, Except.map] at is
          | error other => simpa [rest, Except.map] using is
        obtain ⟨left, known, nonempty, goes⟩ :=
          ih later (Nat.le_of_lt_succ ((length_afterWave_lt none).trans_le enough))
        rw [keys_afterWave] at known
        refine ⟨left, fun id member => mem_of_mem_filter (known member), nonempty, fun id member => ?_⟩
        obtain ⟨kept, entry, dep, needed, stays⟩ := goes id member
        obtain ⟨edges, entry, -, rfl⟩ := mem_afterWave.1 entry
        obtain ⟨needed, waits⟩ := mem_filter.mp needed
        refine ⟨edges, entry, dep, needed, fun known => stays ?_⟩
        rw [keys_afterWave]
        exact mem_filter.mpr ⟨known, waits⟩

end Waves

/-! ## The order -/

def edgesIn (requestId : Job → String) (known : List String) (jobs : List Job) : List (String × List String) :=
  jobs.map fun job => (requestId job, (dependencies requestId job known).toOption.getD [])

theorem keys_edgesIn : (edgesIn requestId known jobs).map fst = jobs.map requestId := by
  unfold edgesIn
  rw [List.map_map]
  rfl

theorem mem_edgesIn (member : job ∈ jobs) (lists : Lists requestId known job items) :
    (requestId job, items) ∈ edgesIn requestId known jobs := by
  refine mem_map.mpr ⟨job, member, ?_⟩
  rw [dependencies_eq_ok.2 lists]
  rfl

def Listed (requestId : Job → String) (jobs : List Job) : Prop :=
  ∀ job ∈ jobs, ∃ items, Lists requestId (jobs.map requestId) job items

theorem mapM_edges_eq_ok {entries : List (String × List String)} : (jobs.mapM fun job => do
      let items ← dependencies requestId job known
      pure (requestId job, items)) = .ok entries ↔
    (∀ job ∈ jobs, ∃ items, Lists requestId known job items) ∧ entries = edgesIn requestId known jobs := by
  induction jobs generalizing entries with
  | nil =>
    rw [mapM_nil, pure_eq_ok]
    simp [edgesIn, eq_comm]
  | cons job rest ih =>
    simp only [mapM_cons, bind_eq_ok, pure_eq_ok, ih, forall_mem_cons, edgesIn, map_cons]
    constructor
    · rintro ⟨entry, ⟨items, read, rfl⟩, entries, ⟨listed, rfl⟩, rfl⟩
      refine ⟨⟨⟨items, dependencies_eq_ok.1 read⟩, listed⟩, ?_⟩
      rw [read]
      rfl
    · rintro ⟨⟨⟨items, lists⟩, listed⟩, rfl⟩
      have read := dependencies_eq_ok.2 lists
      refine ⟨_, ⟨items, read, rfl⟩, _, ⟨listed, rfl⟩, ?_⟩
      rw [read]
      rfl

theorem topologicalOrder_eq (unique : (jobs.map requestId).Nodup) (listed : Listed requestId jobs) :
    topologicalOrder requestId jobs = topologicalWaves jobs.length (edgesIn requestId (jobs.map requestId) jobs) := by
  have entries := mapM_edges_eq_ok.2 ⟨listed, rfl⟩
  unfold topologicalOrder
  dsimp only
  rw [show require (jobs.map requestId).Nodup (.value "jobs must have unique request ids") = .ok () from if_pos unique]
  simp only [entries]
  rfl

theorem listed_of_ok {ordered : List String} (is : topologicalOrder requestId jobs = .ok ordered) :
    Listed requestId jobs := by
  obtain ⟨⟨⟩, -, is⟩ := bind_eq_ok.mp is
  obtain ⟨entries, mapped, -⟩ := bind_eq_ok.mp is
  exact (mapM_edges_eq_ok.1 mapped).1

theorem length_edgesIn : (edgesIn requestId known jobs).length = jobs.length := length_map _

theorem acyclic_of_ok {ordered : List String} (unique : (jobs.map requestId).Nodup)
    (is : topologicalOrder requestId jobs = .ok ordered) (id : String) : ¬ TransGen (Needs requestId jobs) id id := by
  intro cycle
  have listed := listed_of_ok is
  rw [topologicalOrder_eq unique listed] at is
  obtain ⟨-, ⟨job, member, rfl, -⟩, -⟩ := exists_next_of_cycle cycle
  obtain ⟨items, lists⟩ := listed job member
  -- some job of a cycle waits for no job of a cycle
  obtain ⟨entry, member, cycle, free⟩ := @topologicalWaves_first _ _ _ (fun id => TransGen (Needs requestId jobs) id id)
    is ⟨_, mem_edgesIn member lists, cycle⟩
  obtain ⟨job, isJob, rfl⟩ := mem_map.mp member
  obtain ⟨items, lists⟩ := listed job isJob
  obtain ⟨dep, needs, again⟩ := exists_next_of_cycle cycle
  refine free dep ?_ again
  rw [dependencies_eq_ok.2 lists]
  exact (needs_iff unique isJob lists).mp needs

theorem cycle_of_error {error : Error} (unique : (jobs.map requestId).Nodup) (listed : Listed requestId jobs)
    (is : topologicalOrder requestId jobs = .error error) : ∃ id, TransGen (Needs requestId jobs) id id := by
  rw [topologicalOrder_eq unique listed] at is
  obtain ⟨left, known, nonempty, goes⟩ := topologicalWaves_error is length_edgesIn.le
  rw [keys_edgesIn] at known goes
  have cycles := @exists_cycle _ (Needs requestId jobs) _ nonempty
  obtain ⟨id, -, cycle⟩ := cycles fun id member => by
    obtain ⟨edges, entry, dep, needed, stays⟩ := goes id member
    obtain ⟨job, isJob, is⟩ := mem_map.mp entry
    obtain ⟨items, lists⟩ := listed job isJob
    rw [dependencies_eq_ok.2 lists] at is
    obtain ⟨rfl, rfl⟩ := Prod.mk.inj is
    exact ⟨dep, stays (lists.known dep needed), (needs_iff unique isJob lists).mpr needed⟩
  exact ⟨id, cycle⟩

theorem lists_perm {jobs' : List Job} (perm : jobs'.Perm jobs) :
    Lists requestId (jobs'.map requestId) job items ↔ Lists requestId (jobs.map requestId) job items := by
  rw [← dependencies_eq_ok, ← dependencies_eq_ok,
    dependencies_congr requestId job fun id => (perm.map requestId).mem_iff]

theorem topologicalOrder_perm {jobs' : List Job} (unique : (jobs.map requestId).Nodup) (perm : jobs'.Perm jobs) :
    (topologicalOrder requestId jobs').toOption = (topologicalOrder requestId jobs).toOption := by
  have unique' : (jobs'.map requestId).Nodup := (perm.map requestId).nodup_iff.mpr unique
  have listed_iff : Listed requestId jobs' ↔ Listed requestId jobs := by
    unfold Listed
    simp only [perm.mem_iff, lists_perm perm]
  by_cases listed : Listed requestId jobs
  · rw [topologicalOrder_eq unique listed, topologicalOrder_eq unique' (listed_iff.mpr listed), perm.length_eq]
    have same : edgesIn requestId (jobs'.map requestId) jobs' = edgesIn requestId (jobs.map requestId) jobs' := by
      refine map_congr_left fun job _ => ?_
      rw [dependencies_congr requestId job fun id => (perm.map requestId).mem_iff]
    have entries : (edgesIn requestId (jobs.map requestId) jobs').Perm (edgesIn requestId (jobs.map requestId) jobs) :=
      perm.map _
    rw [same, topologicalWaves_congr entries]
  · have none {jobs : List Job} (unlisted : ¬ Listed requestId jobs) :
        (topologicalOrder requestId jobs).toOption = none := by
      cases is : topologicalOrder requestId jobs with
      | ok ordered => exact absurd (listed_of_ok is) unlisted
      | error error => rfl
    rw [none listed, none (mt listed_iff.mp listed)]

/-- The waves end; they fail exactly at a list that is not one of other jobs or at a cycle, and otherwise every job
comes once, after the jobs that it waits for, however the jobs were given. -/
theorem topological_order (requestId : Job → String) (jobs : List Job) (unique : (jobs.map requestId).Nodup) :
    (Listed requestId jobs → Ends (edgesIn requestId (jobs.map requestId) jobs) (topologicalOrder requestId jobs))
    ∧ ((∃ error, topologicalOrder requestId jobs = .error error) ↔ (∃ job ∈ jobs, ∀ items,
    ¬ Lists requestId (jobs.map requestId) job items) ∨ ∃ id, TransGen (Needs requestId jobs) id id) ∧ (∀ ordered,
    topologicalOrder requestId jobs = .ok ordered → ordered.Nodup ∧ (∀ id, id ∈ ordered ↔ id ∈ jobs.map requestId)
    ∧ ∀ before id after, ordered = before ++ id :: after → ∀ dep, Needs requestId jobs id dep → dep ∈ before) ∧ ∀ jobs',
    jobs'.Perm jobs → (topologicalOrder requestId jobs').toOption = (topologicalOrder requestId jobs).toOption := by
  refine ⟨fun listed => ?_, ⟨fun ⟨error, failed⟩ => ?_, fun unordered => ?_⟩, fun ordered is => ?_,
    fun jobs' perm => topologicalOrder_perm unique perm⟩
  · rw [topologicalOrder_eq unique listed]
    exact topologicalWaves_ends length_edgesIn.le
  · by_cases listed : Listed requestId jobs
    · exact .inr (cycle_of_error unique listed failed)
    · unfold Listed at listed
      push Not at listed
      exact .inl listed
  · cases is : topologicalOrder requestId jobs with
    | error error => exact ⟨error, rfl⟩
    | ok ordered =>
      obtain ⟨job, member, unlisted⟩ | ⟨id, cycle⟩ := unordered
      · obtain ⟨items, lists⟩ := listed_of_ok is job member
        exact absurd lists (unlisted items)
      · exact absurd cycle (acyclic_of_ok unique is id)
  · have arranged := topologicalOrder_ordered is
    refine ⟨arranged.distinct, fun id => arranged.members.mem_iff, fun before id after split dep needs => ?_⟩
    have listed := listed_of_ok is
    rw [topologicalOrder_eq unique listed] at is
    obtain ⟨job, member, rfl, items, lists, needed⟩ := needs
    exact topologicalWaves_before is (by rw [keys_edgesIn]; exact unique) (mem_edgesIn member lists) split dep needed

def waitingJob (scene : String) (dependsOn : List String) : Job :=
  ⟨scene, "first", "TEST", "fal", [("depends_on", .arr (dependsOn.map .str))], none, 1, "", "IMAGE_EDIT"⟩

def chain : List Job := [waitingJob "c" ["a", "b"], waitingJob "b" ["a"], waitingJob "a" []]

theorem chain_in_order : topologicalOrder scene chain = .ok ["a", "b", "c"] ∧
      (∀ before id after, ["a", "b", "c"] = before ++ id :: after → ∀ dep, Needs scene chain id dep → dep ∈ before) ∧
      (topologicalOrder scene chain.reverse).toOption = some ["a", "b", "c"] := by
  have is : topologicalOrder scene chain = .ok ["a", "b", "c"] := by decide
  obtain ⟨-, -, sorted, same⟩ := topological_order scene chain (by decide)
  refine ⟨is, (sorted _ is).2.2, ?_⟩
  rw [same _ (reverse_perm chain), is]
  rfl

end VideoPoster.Autonomous.Runner
