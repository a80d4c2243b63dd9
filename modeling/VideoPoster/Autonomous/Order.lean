import VideoPoster.Autonomous.Runner

/-!
# The order of the jobs
-/

namespace VideoPoster.Autonomous.Runner
open Python List

variable {requestId : Job → String}

def wave (remaining : List (String × List String)) : List String :=
  ((remaining.filter fun entry => entry.2.isEmpty).map Prod.fst).insertionSort (· ≤ ·)

def afterWave (ready : List String) (remaining : List (String × List String)) :
    List (String × List String) :=
  (remaining.filter fun entry => entry.1 ∉ ready).map fun entry => (entry.1, entry.2.filter (· ∉ ready))

variable {fuel : ℕ} {remaining : List (String × List String)} {ordered : List String}

theorem topologicalWaves_eq_ok (is : topologicalWaves fuel remaining = .ok ordered) :
    remaining = [] ∧ ordered = [] ∨ ∃ fuel' rest, fuel = fuel' + 1 ∧
    topologicalWaves fuel' (afterWave (wave remaining) remaining) = .ok rest ∧ ordered = wave remaining ++ rest := by
  cases fuel with
  | zero =>
    unfold topologicalWaves at is
    split_ifs at is with none
    exact .inl ⟨isEmpty_iff.mp none, (Except.ok.inj is).symm⟩
  | succ fuel =>
    unfold topologicalWaves at is
    dsimp only at is
    split_ifs at is with none stuck
    · exact .inl ⟨isEmpty_iff.mp none, (Except.ok.inj is).symm⟩
    · obtain ⟨rest, later, here⟩ := bind_eq_ok.1 is
      exact .inr ⟨fuel, rest, rfl, later, (pure_eq_ok.mp here).symm⟩

theorem mem_wave {id : String} : id ∈ wave remaining ↔ (id, []) ∈ remaining := by
  unfold wave
  rw [mem_insertionSort, mem_map]
  constructor
  · rintro ⟨entry, member, rfl⟩
    obtain ⟨member, empty⟩ := mem_filter.mp member
    rw [← isEmpty_iff.mp empty]
    exact member
  · exact fun member => ⟨(id, []), mem_filter.mpr ⟨member, rfl⟩, rfl⟩

theorem mem_afterWave {ready : List String} {entry : String × List String} : entry ∈ afterWave ready remaining ↔
      ∃ edges, (entry.1, edges) ∈ remaining ∧ entry.1 ∉ ready ∧ entry.2 = edges.filter (· ∉ ready) := by
  unfold afterWave
  rw [mem_map]
  constructor
  · rintro ⟨before, member, rfl⟩
    obtain ⟨member, later⟩ := mem_filter.mp member
    exact ⟨before.2, member, of_decide_eq_true later, rfl⟩
  · rintro ⟨edges, member, later, is⟩
    exact ⟨(entry.1, edges), mem_filter.mpr ⟨member, decide_eq_true later⟩, Prod.ext rfl is.symm⟩

theorem keys_afterWave (remaining : List (String × List String)) : (afterWave (wave remaining) remaining).map Prod.fst =
      (remaining.map Prod.fst).filter (· ∉ wave remaining) := by
  unfold afterWave
  rw [map_map, filter_map]
  rfl

theorem topologicalWaves_perm (is : topologicalWaves fuel remaining = .ok ordered)
    (distinct : (remaining.map Prod.fst).Nodup) : ordered.Perm (remaining.map Prod.fst) := by
  induction fuel generalizing remaining ordered with
  | zero =>
    obtain ⟨rfl, rfl⟩ | ⟨fuel, rest, more, -⟩ := topologicalWaves_eq_ok is
    · exact .refl _
    · cases more
  | succ fuel ih =>
    obtain ⟨rfl, rfl⟩ | ⟨fuel', rest, more, later, rfl⟩ := topologicalWaves_eq_ok is
    · exact .refl _
    · cases more
      have kept := ih later (by rw [keys_afterWave]; exact distinct.filter _)
      rw [keys_afterWave] at kept
      have first : (wave remaining).Perm ((remaining.map Prod.fst).filter (· ∈ wave remaining)) := by
        refine (perm_ext_iff_of_nodup ?_ (distinct.filter _)).mpr fun id => ?_
        · refine (perm_insertionSort ..).nodup_iff.mpr ?_
          exact distinct.sublist (filter_sublist.map _)
        · rw [mem_filter, decide_eq_true_iff]
          refine ⟨fun member => ⟨?_, member⟩, And.right⟩
          exact mem_map.mpr ⟨_, mem_wave.1 member, rfl⟩
      refine (first.append kept).trans ?_
      have split := filter_append_perm (fun id => decide (id ∈ wave remaining)) (remaining.map Prod.fst)
      simpa only [decide_not] using split

theorem topologicalWaves_first {waits : String → Prop} (is : topologicalWaves fuel remaining = .ok ordered)
    (one : ∃ entry ∈ remaining, waits entry.1) : ∃ entry ∈ remaining, waits entry.1 ∧ ∀ dep ∈ entry.2, ¬ waits dep := by
  induction fuel generalizing remaining ordered with
  | zero =>
    obtain ⟨rfl, rfl⟩ | ⟨fuel, rest, more, -⟩ := topologicalWaves_eq_ok is
    · obtain ⟨entry, member, -⟩ := one
      cases member
    · cases more
  | succ fuel ih =>
    obtain ⟨rfl, rfl⟩ | ⟨fuel', rest, more, later, rfl⟩ := topologicalWaves_eq_ok is
    · obtain ⟨entry, member, -⟩ := one
      cases member
    · cases more
      by_cases early : ∃ id ∈ wave remaining, waits id
      · obtain ⟨id, member, waiting⟩ := early
        exact ⟨(id, []), mem_wave.1 member, waiting, fun dep none => by cases none⟩
      · push Not at early
        obtain ⟨⟨id, edges⟩, member, waiting⟩ := one
        have stays : id ∉ wave remaining := fun member => early id member waiting
        obtain ⟨entry, member, waiting, free⟩ :=
          ih later ⟨(id, edges.filter (· ∉ wave remaining)), mem_afterWave.2 ⟨edges, member, stays, rfl⟩,
            waiting⟩
        obtain ⟨all, member, -, is⟩ := mem_afterWave.1 member
        refine ⟨(entry.1, all), member, waiting, fun dep needed => ?_⟩
        by_cases given : dep ∈ wave remaining
        · exact early dep given
        · refine free dep ?_
          rw [is]
          exact mem_filter.mpr ⟨needed, decide_eq_true given⟩

variable {known : List String}

theorem dependencies_congr (requestId : Job → String) (job : Job) {known' : List String}
    (same : ∀ id, id ∈ known ↔ id ∈ known') : dependencies requestId job known = dependencies requestId job known' := by
  unfold dependencies
  simp only [same]

theorem dependencies_known {job : Job} {items : List String}
    (is : dependencies requestId job known = .ok items) : ∀ item ∈ items, item ∈ known := by
  unfold dependencies at is
  dsimp only at is
  split at is
  · cases is
  · simp only [bind_eq_ok, require_eq_ok, pure_eq_ok] at is
    obtain ⟨⟨⟩, bound, ⟨⟩, -, rfl⟩ := is
    exact bound

def edgesOf (requestId : Job → String) (jobs : List Job) (ordered : List String) (id : String) : List String :=
  ((jobs.find? fun job => requestId job = id).bind fun job =>
    (dependencies requestId job ordered).toOption).getD []

structure Ordered (ids : List String) (edges : String → List String) (ordered : List String) : Prop where
  members : ordered.Perm ids
  distinct : ordered.Nodup
  first : ∀ waits : String → Prop, (∃ id ∈ ordered, waits id) →
    ∃ id ∈ ordered, waits id ∧ ∀ dep ∈ edges id, dep ∈ ordered ∧ ¬ waits dep

variable {jobs : List Job}

theorem mapM_edges {entries : List (String × List String)} (is : (jobs.mapM fun job => do
      let items ← dependencies requestId job known
      pure (requestId job, items)) = .ok entries) :
    entries.map Prod.fst = jobs.map requestId ∧
      ∀ entry ∈ entries, ∃ job ∈ jobs, requestId job = entry.1 ∧ dependencies requestId job known = .ok entry.2 := by
  induction jobs generalizing entries with
  | nil =>
    cases is
    exact ⟨rfl, fun entry member => by cases member⟩
  | cons job rest ih =>
    rw [mapM_cons] at is
    obtain ⟨entry, first, is⟩ := bind_eq_ok.mp is
    obtain ⟨entries, later, is⟩ := bind_eq_ok.mp is
    obtain ⟨items, read, first⟩ := bind_eq_ok.mp first
    cases is
    cases first
    obtain ⟨keys, found⟩ := ih later
    refine ⟨congrArg _ keys, fun entry member => ?_⟩
    obtain rfl | member := mem_cons.mp member
    · exact ⟨job, mem_cons_self, rfl, read⟩
    · obtain ⟨job, isJob, found⟩ := found entry member
      exact ⟨job, .tail _ isJob, found⟩

theorem edgesOf_eq {items : List String} {job : Job} (unique : (jobs.map requestId).Nodup) (member : job ∈ jobs) (read :
    dependencies requestId job ordered = .ok items) : edgesOf requestId jobs ordered (requestId job) = items := by
  have found : jobs.find? (fun other => requestId other = requestId job) = some job := by
    cases found : jobs.find? (fun other => requestId other = requestId job) with
    | none => exact absurd (find?_eq_none.mp found job member) (by simp)
    | some other =>
      have same : requestId other = requestId job := by simpa using find?_some found
      exact congrArg some (inj_on_of_nodup_map unique (mem_of_find?_eq_some found) member same)
  rw [edgesOf, found, Option.bind_some, read]
  rfl

theorem topologicalOrder_ordered (is : topologicalOrder requestId jobs = .ok ordered) :
    Ordered (jobs.map requestId) (edgesOf requestId jobs ordered) ordered := by
  unfold topologicalOrder at is
  obtain ⟨⟨⟩, unique, is⟩ := bind_eq_ok.mp is
  obtain ⟨entries, mapped, waves⟩ := bind_eq_ok.mp is
  replace unique := require_eq_ok.mp unique
  obtain ⟨keys, read⟩ := mapM_edges mapped
  have members := topologicalWaves_perm waves (by rw [keys]; exact unique)
  rw [keys] at members
  refine ⟨members, members.nodup_iff.mpr unique, fun waits one => ?_⟩
  obtain ⟨id, member, waiting⟩ := one
  have known : id ∈ entries.map Prod.fst := by
    rw [keys]
    exact members.mem_iff.mp member
  obtain ⟨entry, isEntry, rfl⟩ := mem_map.mp known
  obtain ⟨entry, isEntry, waiting, free⟩ := topologicalWaves_first waves ⟨entry, isEntry, waiting⟩
  obtain ⟨job, isJob, named, items⟩ := read entry isEntry
  have same := dependencies_congr requestId job (fun id => (members.mem_iff (a := id)).symm)
  refine ⟨entry.1, members.mem_iff.mpr ?_, waiting, fun dep needed => ?_⟩
  · rw [← named]
    exact mem_map_of_mem isJob
  · rw [← named, edgesOf_eq unique isJob (same ▸ items)] at needed
    exact ⟨members.mem_iff.mpr (dependencies_known items dep needed), free dep needed⟩

end VideoPoster.Autonomous.Runner
