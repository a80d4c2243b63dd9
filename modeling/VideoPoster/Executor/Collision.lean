import VideoPoster.Executor.Resumption
import VideoPoster.Executor.Served

/-!
# Paid results and the store
-/

namespace VideoPoster.Executor
open Python Billing Tables Interleaving List Shared

variable {D : Deployment} {C : ContentAddressedStore} {oracle : StoreOracle} {pid : ℕ}
  {args : RunArgs} {row : Row} {key path sha : String} {cost : Decimal} {w : StoreWorld}

structure Delivered (D : Deployment) (C : ContentAddressedStore) (oracle : StoreOracle)
    (args : RunArgs) (objects : StoredObjects) (path : String) (cost : Decimal) (sha : String) :
    Prop where
  within : Affordable args cost
  read : C.files oracle objects (D.resolve path) = .ok sha
  whole : oracle.interrupted = none

theorem Resumes.takes_iff (resumes : Resumes D C oracle args w row key)
    (cas : args.executor.cas = true) (hex : validateKey key = .ok ()) (provider : oracle.provider = .done path cost)
    (delivered : Delivered D C oracle args w.objects path cost sha) (pid : ℕ) :
    ∃ outcome w', EndsIn D C oracle pid (run D args) w outcome w' ∧ (Completed D args w' ↔ w.Takes key sha) := by
  refine resumes.completed_iff pid fun start same found => ?_
  obtain ⟨outcome, w₂, settled, decides⟩ := @ends_settle_iff D C oracle pid start start args
    (row.keyed key) key path sha cost found resumes.pending.1 resumes.owned (same ▸ delivered.read)
    delivered.whole (fun _ => hex) row.generation.isSome oracle.provider (provider ▸ .pure _)
  refine ⟨outcome, w₂, settled, decides.trans ?_⟩
  unfold StoreWorld.Takes
  rw [same]
  exact ⟨fun both => both.2 cas, fun takes => ⟨delivered.within, fun _ => takes⟩⟩

def StoreWorld.unlocked (w : StoreWorld) : StoreWorld :=
  { w with root := { w.root with locks := fun _ => none } }

/-- The row can be brought to its end: after some history from here, a run that recovers it, whose
provider delivers these bytes within the cost, completes it. -/
def Completable (D : Deployment) (C : ContentAddressedStore) (kinds : Set Call)
    (c : Config (storeMachine D C) Error) (args : RunArgs) (key sha : String) : Prop :=
  ∃ (c' : Config (storeMachine D C) Error) (oracle : StoreOracle) (row : Row) (path : String)
    (cost : Decimal) (pid : ℕ) (outcome : Except Error (Option Row)) (w : StoreWorld),
    Reaches (callsIn D kinds) anyStep c c' ∧ Resumes D C oracle args c'.world row key ∧
      oracle.provider = .done path cost ∧
      Delivered D C oracle args c'.world.objects path cost sha ∧
      EndsIn D C oracle pid (run D args) c'.world outcome w ∧ Completed D args w

theorem StoreWorld.Takes.of_reaches {kinds : Set Call} {c c' : Config (storeMachine D C) Error}
    (reaches : Reaches (callsIn D kinds) anyStep c c') (takes : c'.world.Takes key sha) : c.world.Takes key sha :=
  fun stored held => takes stored (sha256_reaches held reaches)

theorem takes_of_completable {kinds : Set Call} {c : Config (storeMachine D C) Error} (cas : args.executor.cas = true)
    (hex : validateKey key = .ok ()) (completable : Completable D C kinds c args key sha) : c.world.Takes key sha := by
  obtain ⟨c', oracle, row, path, cost, pid, outcome, w, reaches, resumes, provider, delivered, ran,
    complete⟩ := completable
  obtain ⟨_, w', ended, decides⟩ := resumes.takes_iff cas hex provider delivered pid
  obtain ⟨-, rfl⟩ := ran.unique ended
  exact .of_reaches reaches (decides.mp complete)

theorem exists_free (kinds : Set Call) (c : Config (storeMachine D C) Error) (first second : LockId) : ∃ c' :
    Config (storeMachine D C) Error, Reaches (callsIn D kinds) anyStep c c' ∧ c'.world.root.jobs = c.world.root.jobs ∧
    c'.world.objects = c.world.objects ∧ c'.world.root.locks first = none ∧ c'.world.root.locks second = none := by
  have free (lock : LockId) (c : Config (storeMachine D C) Error) :
      ∃ c' : Config (storeMachine D C) Error, Step (callsIn D kinds) anyStep c c' ∧
        c'.world.root.jobs = c.world.root.jobs ∧ c'.world.objects = c.world.objects ∧
        c'.world.root.locks lock = none ∧
        ∀ other, c.world.root.locks other = none → c'.world.root.locks other = none := by
    refine ⟨_, .crash ((c.world.root.locks lock).getD 0), rfl, rfl, ?_, ?_⟩
    · cases held : c.world.root.locks lock with
      | none => simp [crash, World.crash, held]
      | some pid => simp [crash, World.crash, held]
    · intro other unlocked
      simp [crash, World.crash, unlocked]
  obtain ⟨c₁, step₁, jobs₁, objects₁, free₁, -⟩ := free first c
  obtain ⟨c₂, step₂, jobs₂, objects₂, free₂, kept⟩ := free second c₁
  exact ⟨c₂, .tail (.single step₁) step₂, jobs₂.trans jobs₁, objects₂.trans objects₁, kept first free₁, free₂⟩

/-- Whoever holds a submitted row's locks may die; then a run recovers the row, and completes it
exactly if the store takes the output under the row's key. -/
theorem paid_result_recordable_iff {kinds : Set Call}
    {c : Config (storeMachine D C) Error} (cas : args.executor.cas = true) (hex : validateKey key = .ok ())
    (resumes : Resumes D C oracle args c.world.unlocked row key) (provider : oracle.provider = .done path cost)
    (delivered : Delivered D C oracle args c.world.objects path cost sha) : Completable D C kinds c args key sha ↔
    c.world.objects.sha256 key = none ∨ c.world.objects.sha256 key = some sha := by
  have taken : c.world.Takes key sha ↔ c.world.objects.sha256 key = none ∨ c.world.objects.sha256 key = some sha := by
    unfold StoreWorld.Takes
    cases c.world.objects.sha256 key <;> simp
  rw [← taken]
  refine ⟨takes_of_completable cas hex, fun takes => ?_⟩
  obtain ⟨index, bounded, -⟩ := resumes.slot
  obtain ⟨c', reaches, jobs, objects, request, worker⟩ :=
    exists_free kinds c (.request (args.requestId D)) (.worker index)
  have later : Resumes D C oracle args c'.world row key :=
    { resumes with
      free := request
      slot := ⟨index, bounded, worker⟩
      found := jobs ▸ resumes.found
      inputs := objects ▸ resumes.inputs
      keyed := objects ▸ resumes.keyed }
  have here : Delivered D C oracle args c'.world.objects path cost sha := objects ▸ delivered
  obtain ⟨outcome, w, ran, decides⟩ := later.takes_iff cas hex provider here 0
  have complete : Completed D args w := decides.mpr fun stored held => takes stored (objects ▸ held)
  exact ⟨c', oracle, row, path, cost, 0, outcome, w, reaches, later, provider, here, ran, complete⟩

def sampleTwinId : String := "f3600f6a373df0a77dce46f72125527f895c99e49b0795f3a7cc374e3d693324"

def twinDeployment : Deployment :=
  { sampleDeployment 6 with
    requestId := fun job => if job.scene = "scene-2" then sampleTwinId else sampleFirstId
    requestId_ne_empty := by
      intro job
      split_ifs <;> decide }

def sampleTwin : Job := { sampleFirst with scene := "scene-2" }

def sampleTwinRun : RunArgs :=
  { executor := { sampleExecutor with cas := true }, job := sampleTwin, providerMode := .test }

def sampleKey : String := "d50d53bde8490ac636939fa1d0a75afdc10349ba6f6b0c91f0618f9444a3172f"

def otherSha256 : String := "6e340b9cffb37a989ca544e6bb780a2c78901d3fb33738768511a30617afa01d"

def twinOracle (sha : String) (provider : ProviderRun) : StoreOracle where
  answer
    | .fileSha path =>
      if path = "a boat" then .error (.os "No such file or directory")
      else if path = "/out/b.png" then .ok sha else .ok emptySha256
    | query => (sampleOracle none (sampleProvider 1)).answer query
  provider := provider

def twinDelivers : ProviderRun := .done "/out/b.png" (.finite false 1 0)

def twinSubmits : ProviderRun := .checkpoint "provider-1" "" fun _ => twinDelivers

abbrev TwinConfig := Config (storeMachine twinDeployment sampleStore) Error

def twinHistory : List (Move (storeMachine twinDeployment sampleStore) Error) :=
  [.spawn ((sampleStoreRun sampleFirst).program twinDeployment),
    .spawn ((Call.run sampleTwinRun).program twinDeployment)] ++
  replicate 7 (.perform 0 sampleStoreOracle) ++
  replicate 7 (.perform 1 (twinOracle otherSha256 twinSubmits)) ++
  replicate 12 (.perform 0 sampleStoreOracle) ++
  replicate 10 (.perform 1 (twinOracle otherSha256 twinSubmits))

theorem twinHistory_calls : ∀ m ∈ twinHistory, m.calls ⊆ callsIn twinDeployment executorCalls := by
  intro m member
  simp only [twinHistory, mem_append, mem_cons, mem_replicate, not_mem_nil, or_false]
    at member
  rcases member with (((first | ⟨-, rfl⟩) | ⟨-, rfl⟩) | ⟨-, rfl⟩) | ⟨-, rfl⟩
  · rcases first with rfl | rfl
    · rintro _ rfl
      exact ⟨sampleStoreRun sampleFirst, trivial, rfl⟩
    · rintro _ rfl
      exact ⟨.run sampleTwinRun, trivial, rfl⟩
  all_goals exact Set.empty_subset _

theorem twin_run : ∃ c : TwinConfig, ∃ row : Row, Reaches (callsIn twinDeployment executorCalls) anyStep
      (storeRoot twinDeployment sampleStore fun _ => none) c ∧
    c.world.root.jobs.find? sampleTwinId = some row ∧ row.status = .submitted ∧
    row.providerId = "provider-1" ∧ row.generation = none ∧ row.cacheKey = sampleKey ∧
    c.world.objects.sha256 sampleKey = some emptySha256 ∧ c.idle = true := by
  have passed : ((storeRoot twinDeployment sampleStore fun _ => none).simulate
      (fun _ _ => true) twinHistory).any (fun c => (c.world.root.jobs.find? sampleTwinId).any fun row =>
        decide (row.status = .submitted ∧ row.providerId = "provider-1" ∧ row.generation = none ∧
          row.cacheKey = sampleKey ∧ c.world.objects.sha256 sampleKey = some emptySha256 ∧
          c.idle = true)) = true := by
    decide +kernel
  obtain ⟨c, reached, passed⟩ := Config.exists_reaches (fun _ _ _ => (trivial : anyStep _ _)) twinHistory_calls passed
  obtain ⟨row, found, passed⟩ := (Option.any_eq_true _ _).mp passed
  exact ⟨c, row, reached, found, of_decide_eq_true passed⟩

theorem twin_resumes {c : TwinConfig} {row : Row} (found : c.world.root.jobs.find? sampleTwinId = some row)
    (submitted : row.status = .submitted) (known : row.providerId = "provider-1")
    (unpinned : row.generation = none) (keyed : row.cacheKey = sampleKey) (sha : String) :
    Resumes twinDeployment sampleStore (twinOracle sha twinDelivers) sampleTwinRun c.world.unlocked row
      sampleKey where
  explicit := by decide
  valid := by decide
  free := rfl
  slot := ⟨0, by decide, rfl⟩
  found := found
  pending := by simp [submitted]
  recovering := by simp [submitted]
  reported := .inl (by simp [known])
  owned := by simp [requireOwner, unpinned, pure, Except.pure]
  inputs _ _ := .ofExcept (.ok ())
  keyed := .inl ⟨keyed, .inl (by decide)⟩

theorem twin_delivered (sha : String) (objects : StoredObjects) :
    Delivered twinDeployment sampleStore (twinOracle sha twinDelivers) sampleTwinRun objects "/out/b.png"
      (.finite false 1 0) sha where
  within := ⟨1, by decide, by decide⟩
  read := rfl
  whole := rfl

theorem twin_recordable : ∃ c : TwinConfig, Reaches (callsIn twinDeployment executorCalls) anyStep
      (storeRoot twinDeployment sampleStore fun _ => none) c ∧
    Completable twinDeployment sampleStore executorCalls c sampleTwinRun sampleKey emptySha256 := by
  obtain ⟨c, row, reached, found, submitted, known, unpinned, keyed, held, -⟩ := twin_run
  exact ⟨c, reached, (paid_result_recordable_iff rfl (by decide)
    (twin_resumes found submitted known unpinned keyed emptySha256) rfl (twin_delivered _ _)).mpr (.inr held)⟩

theorem twin_not_recordable : ∃ c : TwinConfig, ∃ row :
    Row, Reaches (callsIn twinDeployment executorCalls) anyStep (storeRoot twinDeployment sampleStore fun _ => none)
    c ∧ c.idle = true ∧ c.world.root.jobs.find? sampleTwinId = some row ∧ row.status =
    .submitted ∧ Resumes twinDeployment sampleStore (twinOracle otherSha256 twinDelivers) sampleTwinRun c.world.unlocked
    row sampleKey ∧ ¬ Completable twinDeployment sampleStore executorCalls c sampleTwinRun sampleKey otherSha256 := by
  obtain ⟨c, row, reached, found, submitted, known, unpinned, keyed, held, idle⟩ := twin_run
  refine ⟨c, row, reached, idle, found, submitted, twin_resumes found submitted known unpinned keyed _,
    fun recordable => ?_⟩
  have same := takes_of_completable rfl (by decide) recordable _ held
  exact absurd same (by decide)

end VideoPoster.Executor
