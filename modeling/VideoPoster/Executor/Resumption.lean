import VideoPoster.Executor.Cache
import VideoPoster.Interleaving.Undisturbed

/-!
# Runs that recover a submitted row
-/

namespace VideoPoster.Executor
open Python Billing Tables Interleaving ContentAddressedStore StoreWorld Option Update List StoredObjects

variable {D : Deployment} {C : ContentAddressedStore} {oracle : StoreOracle} {pid : ℕ}
  {w w₁ w₂ : StoreWorld}

def StoreWorld.withJobs (w : StoreWorld) (jobs : Jobs) : StoreWorld :=
  { w with root := { w.root with jobs := jobs } }

def StoreWorld.lock (w : StoreWorld) (lock : LockId) (holder : Option ℕ) : StoreWorld :=
  { w with root := w.root.lock lock holder }

abbrev EndsIn {α : Type} (D : Deployment) (C : ContentAddressedStore) (oracle : StoreOracle) (pid : ℕ)
    (program : Program α) (w : StoreWorld) (outcome : Except Error α) (w' : StoreWorld) : Prop :=
  program.Ends (M := storeMachine D C) oracle pid w outcome w'

theorem ends_inspect (requestId : String) :
    EndsIn D C oracle pid (Program.inspect requestId) w (.ok (w.root.jobs.find? requestId)) w :=
  .perform rfl

theorem ends_ask {query : Query} (calm : C.stored oracle w.objects (.ask query) = w.objects) :
    EndsIn D C oracle pid (Program.ask query) w (.ok ((C.around oracle w.objects).answer query)) w :=
  .perform (by simp [exec, calm])

theorem ends_fileSha (path : String) :
    EndsIn D C oracle pid (Program.fileSha path) w (C.files oracle w.objects path) w :=
  .bind (ends_ask rfl) (.ofExcept _)

variable {E : Instance} {context : Option ℕ} {given : Option (Option Capability)} {requestId : String} {update : Update} {jobs : Jobs}

theorem ends_change (changed : changeRow E context given requestId update w.root.jobs = .ok jobs) :
    EndsIn D C oracle pid (Program.change E context given requestId update) w (.ok ()) (w.withJobs jobs) :=
  .request (by simp [exec, changed, World.commit, stored, withJobs])

theorem ends_change_error {error : Error} (refused : changeRow E context given requestId update w.root.jobs =
    .error error) : EndsIn D C oracle pid (Program.change E context given requestId update) w (.error error) w :=
  .request (by simp [exec, refused, World.commit, stored])

theorem ends_withSlot {α : Type} {paths : List LockId} {lock : LockId} {body : Program α} {outcome : Except Error α}
    (free : paths.find? (fun lock => w.root.locks lock = none) = some lock)
    (inside : EndsIn D C oracle pid body (w.lock lock (some pid)) outcome w₁) :
    EndsIn D C oracle pid (Program.withSlot paths body) w outcome (w₁.lock lock none) := by
  refine .bind (.perform ?_) (inside.ensuring (.perform rfl))
  simp only [exec, free, map_some, stored, StoreWorld.lock]

variable {args : RunArgs} {key : String}

theorem ends_storeResult {path : String}
    (cas : args.executor.cas = true) : EndsIn D C oracle pid (storeResult args key path)
    w ((C.put w.objects oracle.interrupted key (C.files oracle w.objects path)).2.map fun _ => ()) { w with objects :=
          (C.put w.objects oracle.interrupted key (C.files oracle w.objects path)).1 } := by
  unfold storeResult
  rw [if_pos cas]
  exact .bind (.perform rfl) (.ofExcept _)

variable {row : Row}

theorem changeRow_eq (update : Update) (found : jobs.find? requestId = some row) (guarded : guardPinned E context
    given row = .ok ()) : changeRow E context given requestId update jobs = .ok (jobs.put (update.apply row)) := by
  simp only [changeRow, found, guarded]
  rfl

theorem guardPinned_of_owner (owned : requireOwner D args row = .ok ()) (named : row.requestId = args.requestId D) :
    guardPinned args.executor none args.settlementCheckpoint.asCapability row = .ok () := by
  unfold requireOwner at owned
  unfold guardPinned
  cases pinned : row.generation with
  | none => rfl
  | some generation =>
    simp only [pinned, bind_eq_ok, require_eq_ok] at owned
    obtain ⟨-, owner, capable⟩ := owned
    cases given : args.settlementCheckpoint.asCapability with
    | none =>
      rw [given] at capable
      simp [requireCoordinatorCapability] at capable
    | some capability =>
      rw [given] at capable
      simp only [bind_eq_ok, require_eq_ok]
      exact ⟨(), owner, named ▸ capable⟩

theorem guardPinned_unpinned (unpinned : row.generation = none) : guardPinned E none given row = .ok () := by
  simp [guardPinned, unpinned, pure, Except.pure]

theorem guardPinned_pinned (pinned : row.generation ≠ none) : ∃ error, guardPinned E none none row = .error error := by
  obtain ⟨generation, same⟩ := ne_none_iff_exists'.mp pinned
  simp [guardPinned, same, requireCoordinatorWrite, require]

@[simp]
theorem Update.apply_requestId (update : Update) (row : Row) : (update.apply row).requestId = row.requestId := by
  cases update <;> rfl

def settle (D : Deployment) (args : RunArgs) (pinned : Bool) (key : String) (provider : ProviderRun) :
    Program (Option Row) := do
  let (path, actualCost) ← awaitProvider (checkpoint D args pinned) provider
  let actual ← Program.ofResult (money actualCost)
  finish D args key path actual

def Completed (D : Deployment) (args : RunArgs) (w : StoreWorld) : Prop :=
  ∃ row, w.root.jobs.find? (args.requestId D) = some row ∧ row.status = .complete

def StoreWorld.Takes (w : StoreWorld) (key sha : String) : Prop :=
  ∀ stored, w.objects.sha256 key = some stored → stored = sha

section Put
variable {objects : StoredObjects} {key sha : String} {source : Result String}

theorem put_taken (hex : validateKey key = .ok ()) (read : source = .ok sha) (taken : ∀ stored,
    objects.sha256 key = some stored → stored = sha) : (C.put objects none key source).2 = .ok (C.objectPath key) := by
  subst read
  simp only [put, hex]
  split
  · rename_i object found
    have same := taken object.sha256 (by simp [sha256, found])
    simp [same]
  · rfl

theorem put_collides {stored : String} (hex : validateKey key = .ok ()) (read : source = .ok sha)
    (held : objects.sha256 key = some stored) (different : stored ≠ sha) :
    C.put objects none key source =
      (objects, .error (.value "CAS key collision with different output bytes")) := by
  subst read
  obtain ⟨object, found, rfl⟩ := map_eq_some_iff.mp held
  simp [put, hex, found, different]

theorem files_put {path : String} {interrupted : Option Interruption} (read : C.files oracle objects path = .ok sha) :
    C.files oracle (C.put objects interrupted key source).1 path = .ok sha := by
  simp only [files] at read ⊢
  cases inside : C.objectKey path with
  | none =>
    rw [inside] at read
    exact read
  | some target =>
    simp only [inside] at read ⊢
    split at read
    · rename_i object found
      obtain ⟨other, answered, rfl⟩ := map_eq_ok.mp read
      have held : objects.sha256 target = some object.sha256 := by
        simp [sha256, found]
      have kept := @sha256_put C objects interrupted target object.sha256 key source held
      obtain ⟨object', found', same⟩ := map_eq_some_iff.mp kept
      simp only [found']
      exact map_eq_ok.mpr ⟨other, answered, same⟩
    · cases read

end Put

section Finish
variable {args : RunArgs} {row : Row} {key path sha : String} {actual : ℚ}

theorem ends_storeResult_taken (read : C.files oracle w.objects path = .ok sha)
    (whole : oracle.interrupted = none) (hex : args.executor.cas = true → validateKey key = .ok ())
    (taken : args.executor.cas = true → w.Takes key sha) : ∃ objects, EndsIn D C oracle pid (storeResult args key path)
    w (.ok ()) { w with objects := objects } ∧ C.files oracle objects path = .ok sha := by
  by_cases cas : args.executor.cas = true
  · refine ⟨(C.put w.objects none key (C.files oracle w.objects path)).1, ?_, files_put read⟩
    have stored := @ends_storeResult D C oracle pid w args key path cas
    rw [whole, put_taken (hex cas) read (taken cas)] at stored
    exact stored
  · refine ⟨w.objects, ?_, read⟩
    unfold storeResult
    rw [if_neg cas]
    exact .pure ()

theorem ends_finish (found : w.root.jobs.find? (args.requestId D) = some row) (owned : requireOwner D args row = .ok ())
    (within : actual ≤ args.job.cost.toRat) (read : C.files oracle w.objects (D.resolve path) = .ok sha)
    (whole : oracle.interrupted = none) (hex : args.executor.cas = true → validateKey key = .ok ()) (taken :
    args.executor.cas = true → w.Takes key sha) : ∃ done w', EndsIn D C oracle pid (finish D args key path actual)
    w (.ok (some done)) w' ∧ w'.root.jobs.find? (args.requestId D) = some done ∧ done.status = .complete := by
  obtain ⟨-, named⟩ := Table.find?_eq_some.mp found
  obtain ⟨objects, stored, kept⟩ := @ends_storeResult_taken D C oracle pid w args key (D.resolve path) sha read whole hex taken
  let done := (complete (D.resolve path) sha actual key).apply row
  have put : (w.root.jobs.put done).find? (args.requestId D) = some done := by
    rw [← named]
    exact Table.find?_put_self _ done
  refine ⟨done, { w with objects := objects }.withJobs (w.root.jobs.put done), ?_, put, rfl⟩
  unfold finish
  rw [if_neg (not_lt.mpr within)]
  have hashed := @ends_fileSha D C oracle pid { w with objects := objects } (D.resolve path)
  rw [kept] at hashed
  have changed := @ends_change D C oracle pid { w with objects := objects } _ _ _ _ _ _
    (changeRow_eq (.complete (D.resolve path) sha actual key) found (guardPinned_of_owner owned named))
  have inspected := @ends_inspect D C oracle pid
    ({ w with objects := objects }.withJobs (w.root.jobs.put done)) (args.requestId D)
  exact stored.bind (hashed.bind (changed.bind (put ▸ inspected)))

theorem ends_finish_collision (cas : args.executor.cas = true) (within : actual ≤ args.job.cost.toRat)
    (read : C.files oracle w.objects (D.resolve path) = .ok sha) (whole : oracle.interrupted = none)
    (hex : validateKey key = .ok ()) (refused : ¬ w.Takes key sha) :
    ∃ error, EndsIn D C oracle pid (finish D args key path actual) w (.error error) w := by
  unfold StoreWorld.Takes at refused
  push Not at refused
  obtain ⟨stored, held, different⟩ := refused
  have answered := @ends_storeResult D C oracle pid w args key (D.resolve path) cas
  rw [whole, put_collides hex read held different] at answered
  unfold finish
  rw [if_neg (not_lt.mpr within)]
  exact ⟨_, .bind_error answered⟩

theorem ends_finish_overrun (found : w.root.jobs.find? (args.requestId D) = some row)
    (owned : requireOwner D args row = .ok ()) (beyond : args.job.cost.toRat < actual) :
    ∃ error w', EndsIn D C oracle pid (finish D args key path actual) w (.error error) w' ∧ ¬ Completed D args w' := by
  obtain ⟨-, named⟩ := Table.find?_eq_some.mp found
  have changed := @ends_change D C oracle pid w _ _ _ _ _ _
    (changeRow_eq (.overrun (D.resolve path) actual) found (guardPinned_of_owner owned named))
  unfold finish
  rw [if_pos beyond]
  refine ⟨_, _, changed.bind (.raise _), ?_⟩
  rintro ⟨done, found', complete⟩
  have put := Table.find?_put_self w.root.jobs ((overrun (D.resolve path) actual).apply row)
  rw [apply_requestId, named] at put
  obtain rfl := some.inj (put.symm.trans found')
  cases complete

end Finish

structure Resumes (D : Deployment) (C : ContentAddressedStore) (oracle : StoreOracle) (args : RunArgs)
    (w : StoreWorld) (row : Row) (key : String) : Prop where
  explicit : args.job.mode.Explicit ∧ args.providerMode = args.job.mode
  valid : validateJob args.job = .ok ()
  free : w.root.locks (.request (args.requestId D)) = none
  slot : ∃ index < D.concurrency, w.root.locks (.worker index) = none
  found : w.root.jobs.find? (args.requestId D) = some row
  pending : row.status ≠ .complete ∧ row.status ≠ .overrun
  recovering : ¬ (row.status = .prepared ∧ (args.submitPrepared = true ∨ row.providerId = "" ∧ row.partialPath = ""))
  reported : row.providerId ≠ "" ∨ row.partialPath ≠ "" ∨ args.recoversLocally = true
  owned : requireOwner D args row = .ok ()
  inputs : ∀ pid root, EndsIn D C oracle pid (validateInputContract args.job) ⟨root, w.objects⟩ (.ok ())
    ⟨root, w.objects⟩
  keyed : row.cacheKey = key ∧ (key ≠ "" ∨ args.executor.cas = false) ∨
    row.cacheKey = "" ∧ args.executor.cas = true ∧ row.generation = none ∧
      C.jobContentKey (C.files oracle w.objects) args.job = .ok key

def Row.keyed (row : Row) (key : String) : Row := { row with cacheKey := key }

section Run
variable {args : RunArgs} {row : Row} {key : String}

theorem ends_admitExisting (resumes : Resumes D C oracle args w row key) (found : w₁.root.jobs.find? (args.requestId D)
    = some row) (same : w₁.objects = w.objects) : ∃ jobs, EndsIn D C oracle pid (admitExisting D args row)
    w₁ (.ok ⟨key, none, false⟩) (w₁.withJobs jobs) ∧ jobs.find? (args.requestId D) = some (row.keyed key) := by
  obtain ⟨-, named⟩ := Table.find?_eq_some.mp found
  unfold admitExisting
  rcases resumes.keyed with ⟨rfl, present⟩ | ⟨empty, cas, unpinned, derived⟩
  · refine ⟨w₁.root.jobs, ?_, found⟩
    split_ifs with empty cas
    · exact .pure _
    · exact absurd (present.resolve_left empty) (by simp [cas])
    · rw [not_not.mp empty]
      exact .pure _
  · have asked := @ends_ask D C oracle pid w₁ (.contentKey args.job) rfl
    have answer : (C.around oracle w₁.objects).answer (.contentKey args.job) = .ok key :=
      same ▸ derived
    rw [answer] at asked
    have derives : EndsIn D C oracle pid (contentKey args) w₁ (.ok key) w₁ := by
      unfold contentKey
      rw [if_pos cas]
      exact asked.bind (.ofExcept _)
    have free : guardPinned args.executor none none row = .ok () := guardPinned_unpinned unpinned
    have changed := @ends_change D C oracle pid w₁ _ _ _ _ _ _ (changeRow_eq (.cacheKey key) found free)
    rw [if_neg (not_not.mpr empty), if_pos cas]
    refine ⟨_, derives.bind (changed.bind (.pure _)), ?_⟩
    rw [← named]
    exact Table.find?_put_self _ (row.keyed key)

theorem ends_callProvider {α : Type} {next : String × Decimal → Program α} {outcome : Except Error α} (row : Row)
    (reported : row.providerId ≠ "" ∨ row.partialPath ≠ "" ∨ args.recoversLocally = true)
    (awaited : EndsIn D C oracle pid
      ((awaitProvider (checkpoint D args row.generation.isSome) oracle.provider).bind next)
      w outcome w₁) :
    EndsIn D C oracle pid ((callProvider D args row false).bind next) w outcome w₁ := by
  unfold callProvider
  simp only [Bool.false_eq_true, if_false]
  split_ifs with known offered
  · exact .act rfl awaited
  · exact .act rfl awaited
  · tauto

variable (resumes : Resumes D C oracle args w row key)
include resumes

theorem ends_proceed {outcome : Except Error (Option Row)}
    (settled : EndsIn D C oracle pid (settle D args row.generation.isSome key oracle.provider) w₁ outcome w₂) :
    EndsIn D C oracle pid (proceed D args ⟨key, none, false⟩ (row.keyed key) false) w₁ outcome w₂ := by
  have owned : requireOwner D args (row.keyed key) = .ok () := resumes.owned
  have waits : ¬ (row.status = .prepared ∧ args.submitPrepared = true) :=
    fun both => resumes.recovering ⟨both.1, .inl both.2⟩
  have marked : markSubmitting D args (row.keyed key) false = .pure (row.keyed key, false) := by
    unfold markSubmitting
    exact (if_neg waits).trans rfl
  have admitted : ¬ (row.status = .prepared ∧ args.submitPrepared = false ∧ row.providerId = "" ∧
      row.partialPath = "") :=
    fun all => resumes.recovering ⟨all.1, .inr all.2.2⟩
  unfold proceed
  rw [owned]
  show EndsIn D C oracle pid (submitOrRecover D args ⟨key, none, false⟩ (row.keyed key) false) w₁ outcome w₂
  unfold submitOrRecover
  rw [marked]
  exact .ofExcept_bind ((require_eq_ok (u := ())).mpr admitted)
    (ends_callProvider (row.keyed key) resumes.reported settled)

theorem ends_work (found : w₁.root.jobs.find? (args.requestId D)
    = some row) (same : w₁.objects = w.objects) : ∃ jobs, jobs.find? (args.requestId D) = some (row.keyed key)
    ∧ ∀ {outcome w₂}, EndsIn D C oracle pid (settle D args row.generation.isSome key oracle.provider)
    (w₁.withJobs jobs) outcome w₂ → EndsIn D C oracle pid (work D args) w₁ outcome w₂ := by
  obtain ⟨jobs, admitted, put⟩ := @ends_admitExisting D C oracle pid w w₁ args row key resumes found same
  refine ⟨jobs, put, fun {outcome w₂} settled => ?_⟩
  have checked := resumes.inputs pid w₁.root
  rw [← same] at checked
  have first := @ends_inspect D C oracle pid w₁ (args.requestId D)
  rw [found] at first
  have second := @ends_inspect D C oracle pid (w₁.withJobs jobs) (args.requestId D)
  rw [show (w₁.withJobs jobs).root.jobs = jobs from rfl, put] at second
  have routed : EndsIn D C oracle pid (routeFresh D args ⟨key, none, false⟩ (some (row.keyed key)))
      (w₁.withJobs jobs) (.ok (some (row.keyed key), false)) (w₁.withJobs jobs) := by
    unfold routeFresh
    rw [if_neg (by simp)]
    exact .pure _
  have proceeds := ends_proceed resumes settled
  refine checked.bind (first.bind (admitted.bind (second.bind (routed.bind ?_))))
  refine .ofExcept_bind (rfl : subscript (some (row.keyed key)) = .ok (row.keyed key)) ?_
  have status : (row.keyed key).status = row.status := rfl
  simp only [status]
  split
  · rename_i complete
    exact absurd complete resumes.pending.1
  · rename_i overrun
    exact absurd overrun resumes.pending.2
  · exact proceeds

theorem Resumes.ends_run (pid : ℕ) : ∃ start : StoreWorld, start.objects = w.objects ∧ start.root.jobs.find?
    (args.requestId D) = some (row.keyed key) ∧ ∀ {outcome : Except Error (Option Row)} {w₂ : StoreWorld}, EndsIn
    D C oracle pid (settle D args row.generation.isSome key oracle.provider) start outcome w₂ → ∃ last : StoreWorld,
    EndsIn D C oracle pid (run D args) w outcome last ∧ last.root.jobs = w₂.root.jobs ∧ last.objects = w₂.objects := by
  obtain ⟨index, bounded, idle⟩ := resumes.slot
  let inside : StoreWorld := w.lock (.request (args.requestId D)) (some pid)
  have free : ∃ lock, ((range D.concurrency).map LockId.worker).find?
      (fun lock => inside.root.locks lock = none) = some lock := by
    refine isSome_iff_exists.mp (find?_isSome.mpr ⟨.worker index, ?_, ?_⟩)
    · exact mem_map.mpr ⟨index, mem_range.mpr bounded, rfl⟩
    · simpa [inside, lock, World.lock] using idle
  obtain ⟨lock, free⟩ := free
  obtain ⟨jobs, put, works⟩ := @ends_work D C oracle pid w (inside.lock lock (some pid)) args row key
    resumes resumes.found rfl
  refine ⟨(inside.lock lock (some pid)).withJobs jobs, rfl, put, fun {outcome w₂} settled => ?_⟩
  have slotted := ends_withSlot free (works settled)
  have looked := @ends_inspect D C oracle pid inside (args.requestId D)
  rw [show inside.root.jobs = w.root.jobs from rfl, resumes.found] at looked
  have locked : EndsIn D C oracle pid (runLocked D args) inside outcome (w₂.lock lock none) := by
    refine looked.bind ?_
    simp only [if_neg resumes.pending.1]
    exact slotted
  have request : [LockId.request (args.requestId D)].find? (fun lock => w.root.locks lock = none) =
      some (.request (args.requestId D)) := by
    simp [resumes.free]
  refine ⟨(w₂.lock lock none).lock (.request (args.requestId D)) none, ?_, rfl, rfl⟩
  exact .ofExcept_bind ((require_eq_ok (u := ())).mpr resumes.explicit)
    (.ofExcept_bind resumes.valid (ends_withSlot request locked))

end Run

section Settle
variable {args : RunArgs} {row : Row} {key path sha : String} {cost : Decimal} {actual : ℚ}

def Affordable (args : RunArgs) (cost : Decimal) : Prop :=
  ∃ actual, money cost = .ok actual ∧ actual ≤ args.job.cost.toRat

theorem ends_settle_iff (found : w₁.root.jobs.find? (args.requestId D) = some row) (pending : row.status ≠ .complete)
    (owned : requireOwner D args row = .ok ()) (read : C.files oracle w₁.objects (D.resolve path) = .ok sha)
    (whole : oracle.interrupted = none) (hex : args.executor.cas = true → validateKey key = .ok ()) {pinned : Bool}
    {provider : ProviderRun} (awaited : EndsIn D C oracle pid (awaitProvider (checkpoint D args pinned) provider)
    w (.ok (path, cost)) w₁) : ∃ outcome w₂, EndsIn D C oracle pid (settle D args pinned key provider)
    w outcome w₂ ∧ (Completed D args w₂ ↔ Affordable args cost ∧ (args.executor.cas = true → w₁.Takes key sha)) := by
  have unfinished : ¬ Completed D args w₁ := by
    rintro ⟨other, found', complete⟩
    obtain rfl := some.inj (found.symm.trans found')
    exact pending complete
  cases paid : money cost with
  | error error =>
    have raised : EndsIn D C oracle pid (Program.ofResult (money cost)) w₁ (.error error) w₁ :=
      paid ▸ .ofExcept _
    refine ⟨.error error, w₁, awaited.bind (.bind_error raised), iff_of_false unfinished ?_⟩
    rintro ⟨⟨actual, accepted, -⟩, -⟩
    cases paid.symm.trans accepted
  | ok actual =>
    by_cases within : actual ≤ args.job.cost.toRat
    · by_cases taken : args.executor.cas = true → w₁.Takes key sha
      · obtain ⟨done, w₂, finished, put, complete⟩ := @ends_finish D C oracle pid w₁ args row key path
          sha actual found owned within read whole hex taken
        exact ⟨_, w₂, awaited.bind (.ofExcept_bind paid finished),
          iff_of_true ⟨done, put, complete⟩ ⟨⟨actual, paid, within⟩, taken⟩⟩
      · obtain ⟨cas, refused⟩ := Classical.not_imp.mp taken
        obtain ⟨error, finished⟩ := @ends_finish_collision D C oracle pid w₁ args key path sha actual
          cas within read whole (hex cas) refused
        exact ⟨_, w₁, awaited.bind (.ofExcept_bind paid finished), iff_of_false unfinished fun both => taken both.2⟩
    · obtain ⟨error, w₂, finished, overrun⟩ := @ends_finish_overrun D C oracle pid w₁ args row key path
        actual found owned (not_le.mp within)
      refine ⟨_, w₂, awaited.bind (.ofExcept_bind paid finished), iff_of_false overrun ?_⟩
      rintro ⟨⟨other, accepted, bounded⟩, -⟩
      obtain rfl := Except.ok.inj (paid.symm.trans accepted)
      exact within bounded

end Settle

theorem Resumes.completed_iff (resumes : Resumes D C oracle args w row key) (pid : ℕ) {condition : Prop}
    (settles : ∀ start : StoreWorld, start.objects = w.objects → start.root.jobs.find? (args.requestId D) =
    some (row.keyed key) → ∃ outcome w₂, EndsIn D C oracle pid (settle D args row.generation.isSome key oracle.provider)
    start outcome w₂ ∧ (Completed D args w₂ ↔ condition)) :
    ∃ outcome w', EndsIn D C oracle pid (run D args) w outcome w' ∧ (Completed D args w' ↔ condition) := by
  obtain ⟨start, same, found, ends⟩ := resumes.ends_run pid
  obtain ⟨outcome, w₂, settled, decides⟩ := settles start same found
  obtain ⟨last, ran, jobs, -⟩ := ends settled
  refine ⟨outcome, last, ran, ?_⟩
  unfold Completed at decides ⊢
  rw [jobs]
  exact decides

end VideoPoster.Executor
