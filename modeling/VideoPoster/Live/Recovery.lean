import VideoPoster.Executor.Resumption
import VideoPoster.Executor.Served
import VideoPoster.Live.Quarantine

/-!
# Recovering a download
-/

namespace VideoPoster.Live
open Python Billing Executor Interleaving Tables List Config Op

/-! ## An attempt as the executor sees it -/

def providerRun (outside : Outside) : Live.Program (String × Decimal) → Files → ProviderRun
  | .pure output, _ => .done output.1 output.2
  | .raise error, _ => .fail error
  | .act (.op operation) next, files =>
    providerRun outside (next (operation.serve outside files).2) (operation.serve outside files).1
  | .act (.checkpoint providerId partialPath) next, files =>
    .checkpoint providerId partialPath fun outcome => providerRun outside (next outcome) files

section
variable {outside : Outside} {files : Files} {α : Type}

theorem providerRun_ofResult {result : Result α}
    {value : α} {next : α → Live.Program (String × Decimal)} (ok : result = .ok value) :
    providerRun outside ((Program.ofResult result).bind next) files = providerRun outside (next value) files := by
  rw [ok]
  rfl

theorem providerRun_op {operation : Op} {next : operation.Res → Live.Program (String × Decimal)} :
    providerRun outside ((Program.op operation).bind next) files =
      providerRun outside (next (operation.serve outside files).2) (operation.serve outside files).1 :=
  rfl

theorem providerRun_demand {operation : Op} {answer : operation.Res → Result α} {value : α}
    {next : α → Live.Program (String × Decimal)} (ok : answer (operation.serve outside files).2 = .ok value) :
    providerRun outside ((Program.demand operation answer).bind next)
    files = providerRun outside (next value) (operation.serve outside files).1 := by
  show providerRun outside ((Prog.ofExcept (answer (operation.serve outside files).2)).bind next) _ = _
  rw [ok]
  rfl

theorem providerRun_writeAll {path : String} {held bytes : Bytes} (found : files path = some held)
    {next : Unit → Live.Program (String × Decimal)} : ∃ files', files' path = some (held ++ bytes)
    ∧ providerRun outside ((writeAll path bytes).bind next) files = providerRun outside (next ()) files' := by
  induction bytes generalizing files held with
  | nil => exact ⟨files, by simpa using found, rfl⟩
  | cons byte rest ih =>
    have written : ((write path byte).serve outside files).1 path = some (held ++ [byte]) := by
      simp [serve, found]
    obtain ⟨files', whole, same⟩ := ih written
    exact ⟨files', by simpa using whole, same⟩

end

/-! ## What a recovery reports -/

section
variable {L : Libraries} {adapter : Adapter} {root requestId providerId path url : String} {job : Job}
  {cost : Decimal} {outside : Outside} {files : Files} {bytes : Bytes}

structure Reached (L : Libraries) (adapter : Adapter) (job : Job) (providerId : String)
    (outside : Outside) (url : String) (cost : Decimal) : Prop where
  recoverable : adapter.recoverable providerId = .ok ()
  answered : ∃ response, outside.fetched = .ok response ∧ adapter.read L job response = .ok (url, cost)

def confirm (L : Libraries) (adapter : Adapter) (job : Job) (cost : Decimal) (output : String) :
    Live.Program (String × Decimal) :=
  (validateFileForJob L adapter job output).bind fun _ => .pure (output, cost)

theorem providerRun_recover (reached : Reached L adapter job providerId outside url cost) (safe : destination adapter
    root requestId = .ok path) : providerRun outside (recover L adapter root requestId job providerId) files = if (files
    path).isSome then providerRun outside ((validateFile L adapter path).bind fun _ => confirm L adapter job cost path)
    files else providerRun outside ((receive L adapter url path).bind (confirm L adapter job cost)) files := by
  obtain ⟨response, fetched, read⟩ := reached.answered
  refine (providerRun_ofResult reached.recoverable).trans ?_
  refine (providerRun_demand fetched).trans ?_
  refine (providerRun_ofResult read).trans ?_
  show providerRun outside ((quarantine L adapter root requestId url).bind (confirm L adapter job cost)) files = _
  unfold quarantine
  rw [safe]
  show providerRun outside (Prog.bind (if (files path).isSome then _ else _) _) files = _
  split
  · show providerRun outside (Prog.bind (Prog.bind _ _) _) files = _
    rw [Prog.bind_assoc]
    rfl
  · rfl

theorem providerRun_check (outside : Outside) (check : Bytes → Result Unit) (next :
    Unit → Live.Program (String × Decimal)) (found : files path = some bytes) : (check bytes = .ok () ∧ providerRun
    outside (((Program.demand (.load path) id).bind fun bytes => Program.ofResult (check bytes)).bind next) files =
    providerRun outside (next ()) files) ∨ ∃ error, check bytes = .error error ∧ providerRun outside (((Program.demand
    (.load path) id).bind fun bytes => Program.ofResult (check bytes)).bind next) files = .fail error := by
  have loaded : ((load path).serve outside files).2 = .ok bytes := by simp [serve, found]
  have kept : ((load path).serve outside files).1 = files := by simp [serve, found]
  rw [Prog.bind_assoc]
  have read := @providerRun_demand outside files Bytes (.load path) id bytes
    (fun bytes => (Program.ofResult (check bytes)).bind next) loaded
  rw [kept] at read
  rw [read]
  cases checked : check bytes with
  | ok value => exact .inl ⟨rfl, rfl⟩
  | error error => exact .inr ⟨error, rfl, rfl⟩

theorem providerRun_validate (found : files path = some bytes) : (adapter.Valid L job bytes ∧ providerRun
    outside ((validateFile L adapter path).bind fun _ => confirm L adapter job cost path) files = .done path cost)
    ∨ ¬ adapter.Valid L job bytes ∧ ∃ error, providerRun
    outside ((validateFile L adapter path).bind fun _ => confirm L adapter job cost path) files = .fail error := by
  rcases providerRun_check outside (adapter.validate L) (fun _ => confirm L adapter job cost path) found with ⟨valid, first⟩ | ⟨error, invalid, failed⟩
  · rcases providerRun_check outside (adapter.validateForJob L job) (fun _ => .pure (path, cost)) found with ⟨accepted, second⟩ | ⟨error, refused, failed⟩
    · exact .inl ⟨⟨valid, accepted⟩, first.trans second⟩
    · exact .inr ⟨fun both => (by cases refused.symm.trans both.2), error, first.trans failed⟩
  · exact .inr ⟨fun both => (by cases invalid.symm.trans both.1), error, failed⟩

variable (reached : Reached L adapter job providerId outside url cost)
include reached

variable (safe : destination adapter root requestId = .ok path)
include safe

theorem providerRun_existing (found : files path = some bytes) : (adapter.Valid L job bytes ∧
    providerRun outside (recover L adapter root requestId job providerId) files = .done path cost) ∨ ¬ adapter.Valid L
    job bytes ∧ ∃ error, providerRun outside (recover L adapter root requestId job providerId) files = .fail error := by
  have present : (files path).isSome = true := by simp [found]
  rw [providerRun_recover reached safe, if_pos present]
  exact providerRun_validate found

theorem providerRun_missing
    (missing : files path = none)
    (ends : outside.delivery.ends = .ok ()) (valid : adapter.Valid L job outside.delivery.bytes) :
    ∃ next : Result Unit → ProviderRun,
      providerRun outside (recover L adapter root requestId job providerId) files =
        .checkpoint "" path next ∧
      next (.ok ()) = .done path cost ∧ ∀ error, next (.error error) = .fail error := by
  have absent : ¬ (files path).isSome = true := by simp [missing]
  rw [providerRun_recover reached safe, if_neg absent]
  have created : ((create path).serve outside files).2 = .ok () ∧
      ((create path).serve outside files).1 path = some [] := by
    simp [serve, missing]
  obtain ⟨files', whole, written⟩ := @providerRun_writeAll outside
    ((create path).serve outside files).1 path [] outside.delivery.bytes created.2
    fun _ => Prog.bind (do
      Program.ofResult outside.delivery.ends
      Program.op (.fsync path)
      Program.checkpoint "" path
      validateFile L adapter path
      pure path) (confirm L adapter job cost)
  have validated := @providerRun_validate L adapter path job cost outside files' outside.delivery.bytes whole
  refine ⟨fun outcome => providerRun outside
    (((Prog.ofExcept outcome).bind fun _ => (validateFile L adapter path).bind fun _ => .pure path).bind
      (confirm L adapter job cost)) files', ?_, ?_, fun error => rfl⟩
  · unfold receive
    refine (congrArg (providerRun outside · files) (Prog.bind_assoc _ _ _)).trans ?_
    refine (providerRun_demand created.1).trans ?_
    refine (congrArg (providerRun outside · _) (Prog.bind_assoc _ _ _)).trans ?_
    refine providerRun_op.trans ?_
    refine (congrArg (providerRun outside · _) (Prog.bind_assoc _ _ _)).trans ?_
    refine written.trans ?_
    rw [ends]
    rfl
  · show providerRun outside (Prog.bind (Prog.bind (validateFile L adapter path) _) _) files' = _
    rw [Prog.bind_assoc]
    exact (validated.resolve_right fun invalid => invalid.1 valid).2

end

/-! ## The run -/

section
variable {D : Deployment} {C : ContentAddressedStore} {oracle : StoreOracle} {pid : ℕ}
  {args : RunArgs} {row : Row} {w : StoreWorld} {path : String}

theorem destination_ne_empty {adapter : Adapter} {root requestId : String}
    (safe : destination adapter root requestId = .ok path) : path ≠ "" := by
  simp only [destination, bind_eq_ok, require_eq_ok, pure_eq_ok] at safe
  obtain ⟨_, -, rfl⟩ := safe
  intro empty
  have length := congrArg String.length empty
  simp [String.length_append] at length

theorem ends_report (named : path ≠ "") (found : w.root.jobs.find? (args.requestId D) = some row) :
    (row.generation = none ∧ EndsIn D C oracle pid (checkpoint D args row.generation.isSome "" path) w
        (.ok ()) (w.withJobs (w.root.jobs.put ((Update.partialPath (D.resolve path)).apply row)))) ∨
      row.generation ≠ none ∧ ∃ error,
        EndsIn D C oracle pid (checkpoint D args row.generation.isSome "" path) w (.error error) w := by
  unfold checkpoint
  simp only [ne_eq, not_true_eq_false, if_false, if_pos named]
  by_cases unpinned : row.generation = none
  · have free : guardPinned args.executor none none row = .ok () := guardPinned_unpinned unpinned
    exact .inl ⟨unpinned, ends_change (changeRow_eq (.partialPath (D.resolve path)) found free)⟩
  · obtain ⟨error, refused⟩ := @guardPinned_pinned args.executor row unpinned
    refine .inr ⟨unpinned, error, ends_change_error ?_⟩
    simp only [changeRow, found, refused]
    rfl

end

structure Downloadable (D : Deployment) (C : ContentAddressedStore) (oracle : StoreOracle)
    (L : Libraries) (adapter : Adapter) (args : RunArgs) (outside : Outside) (objects : StoredObjects)
    (path sha : String) : Prop where
  ends : outside.delivery.ends = .ok ()
  valid : adapter.Valid L args.job outside.delivery.bytes
  read : C.files oracle objects (D.resolve path) = .ok sha
  whole : oracle.interrupted = none

section
variable {D : Deployment} {C : ContentAddressedStore} {oracle : StoreOracle} {args : RunArgs}
  {row : Row} {w : StoreWorld} {key sha path url root : String} {cost : Decimal} {L : Libraries}
  {adapter : Adapter} {outside : Outside}

def Usable (L : Libraries) (adapter : Adapter) (job : Job) (row : Row) : Option Bytes → Prop
  | none => row.generation = none
  | some bytes => adapter.Valid L job bytes

theorem run_recovers_iff {files : Files} (resumes : Resumes D C oracle args w row key) (hex : args.executor.cas =
    true → validateKey key = .ok ()) (safe : destination adapter root (args.requestId D) = .ok path) (provider :
    oracle.provider = providerRun outside (recover L adapter root (args.requestId D) args.job row.providerId) files)
    (reached : Reached L adapter args.job row.providerId outside url cost)
    (downloadable : Downloadable D C oracle L adapter args outside w.objects path sha) (pid : ℕ) : ∃ outcome w',
    EndsIn D C oracle pid (run D args) w outcome w' ∧ (Completed D args w' ↔ Usable L adapter args.job row (files path)
    ∧ Affordable args cost ∧ (args.executor.cas = true → w.Takes key sha)) := by
  refine resumes.completed_iff pid fun start same found => ?_
  have read : C.files oracle start.objects (D.resolve path) = .ok sha := same ▸ downloadable.read
  have takes : start.Takes key sha ↔ w.Takes key sha := by
    unfold StoreWorld.Takes
    rw [same]
  have unfinished : ¬ Completed D args start := by
    rintro ⟨other, found', complete⟩
    obtain rfl := Option.some.inj (found.symm.trans found')
    exact resumes.pending.1 complete
  have failing (error : Error) (awaited : EndsIn D C oracle pid (awaitProvider (checkpoint D args row.generation.isSome)
        oracle.provider) start (.error error) start)
      (unusable : ¬ Usable L adapter args.job row (files path)) :
      ∃ outcome w₂, EndsIn D C oracle pid (settle D args row.generation.isSome key oracle.provider)
        start outcome w₂ ∧ (Completed D args w₂ ↔ Usable L adapter args.job row (files path) ∧
          Affordable args cost ∧ (args.executor.cas = true → w.Takes key sha)) :=
    ⟨_, start, .bind_error awaited, iff_of_false unfinished fun all => unusable all.1⟩
  cases held : files path with
  | some bytes =>
    rcases providerRun_existing reached safe held with ⟨valid, done⟩ | ⟨invalid, error, failed⟩
    · obtain ⟨outcome, w₂, settled, decides⟩ := @ends_settle_iff D C oracle pid start start args
        (row.keyed key) key path sha cost found resumes.pending.1 resumes.owned read
        downloadable.whole hex row.generation.isSome oracle.provider
        ((provider.trans done) ▸ .pure _)
      refine ⟨outcome, w₂, settled, decides.trans ?_⟩
      rw [takes]
      exact ⟨fun both => ⟨valid, both⟩, And.right⟩
    · rw [held] at failing
      refine failing error ?_ invalid
      rw [provider, failed]
      exact .raise error
  | none =>
    obtain ⟨next, asked, accepted, rejected⟩ :=
      providerRun_missing reached safe held downloadable.ends downloadable.valid
    have reported := @ends_report D C oracle pid args (row.keyed key) start path (destination_ne_empty safe) found
    rw [held] at failing
    rcases reported with ⟨unpinned, told⟩ | ⟨pinned, error, refused⟩
    · obtain ⟨-, named⟩ := Table.find?_eq_some.mp found
      let noted := (Update.partialPath (D.resolve path)).apply (row.keyed key)
      have put : (start.root.jobs.put noted).find? (args.requestId D) = some noted := by
        rw [← named]
        exact Table.find?_put_self _ noted
      have awaited : EndsIn D C oracle pid (awaitProvider (checkpoint D args row.generation.isSome)
          oracle.provider) start (.ok (path, cost)) (start.withJobs (start.root.jobs.put noted)) := by
        rw [provider, asked]
        refine told.attempt.bind ?_
        rw [accepted]
        exact .pure _
      obtain ⟨outcome, w₂, settled, decides⟩ := @ends_settle_iff D C oracle pid start
        (start.withJobs (start.root.jobs.put noted)) args noted key path sha cost put resumes.pending.1
        resumes.owned read downloadable.whole hex row.generation.isSome oracle.provider awaited
      refine ⟨outcome, w₂, settled, decides.trans ?_⟩
      rw [show (start.withJobs (start.root.jobs.put noted)).Takes key sha ↔ start.Takes key sha from Iff.rfl, takes]
      exact ⟨fun both => ⟨unpinned, both⟩, And.right⟩
    · refine failing error ?_ pinned
      rw [provider, asked]
      refine refused.attempt.bind ?_
      rw [rejected]
      exact .raise error

/-- After any history of attempts, broken off at any byte or not, a run whose recovery reaches the
remote job and downloads valid media completes the row exactly if the attempts have left valid media at
its destination, or nothing, the row being unpinned. -/
theorem recovery_completes_iff {c : Config machine Error}
    (attempted : Reaches (attempts L root) anyStep (initial fun _ => none) c)
    (resumes : Resumes D C oracle args w row key) (hex : args.executor.cas = true → validateKey key = .ok ())
    (safe : destination adapter root (args.requestId D) = .ok path) (provider : oracle.provider = providerRun outside
    (recover L adapter root (args.requestId D) args.job row.providerId) c.world) (reached : Reached L adapter args.job
    row.providerId outside url cost) (downloadable : Downloadable D C oracle L adapter args outside w.objects path sha)
    (pid : ℕ) : ∃ outcome w', EndsIn D C oracle pid (run D args) w outcome w' ∧ (Completed D args w' ↔ Usable L adapter
    args.job row (left path c.trace) ∧ Affordable args cost ∧ (args.executor.cas = true → w.Takes key sha)) := by
  rw [← files_eq_left attempted path]
  exact run_recovers_iff resumes hex safe provider reached downloadable pid

end

/-! ## A download that was cut off -/

def samplePng : Bytes :=
  [137, 80, 78, 71, 13, 10, 26, 10, 0, 0, 0, 13, 73, 72, 68, 82, 0, 0, 0, 2, 0, 0, 0, 2, 8, 2, 0, 0, 0,
    253, 212, 154, 115, 0, 0, 0, 11, 73, 68, 65, 84, 120, 218, 99, 96, 64, 6, 0, 0, 14, 0, 1, 58, 53, 4,
    86, 0, 0, 0, 0, 73, 69, 78, 68, 174, 66, 96, 130]

def sampleLibraries : Libraries where
  image bytes := if bytes = samplePng then some ⟨"PNG", "RGB", 2, 2⟩ else none
  streams bytes := if bytes = samplePng then some [⟨"video", some 2, some 2⟩] else none
  decimal value := .finite (value < 0) value.num.natAbs 0

def sampleLiveId : String := "40e4b56bbccc8e129b5e923809b0bf0279fd7232cb5121e929dbe58cdf365298"

def liveDeployment : Deployment :=
  { sampleDeployment 6 with
    requestId := fun job => if job.mode = .live then sampleLiveId else sampleRequestId job
    requestId_ne_empty := by
      intro job
      split_ifs
      · decide
      · exact (sampleDeployment 6).requestId_ne_empty job }

def sampleLiveJob : Job :=
  { sampleFirst with
    mode := .live
    endpoint := flux3Endpoint
    payload := [("prompt", .str "a boat"), ("aspect_ratio", .str "4:3"), ("resolution", .str "1k"),
      ("output_format", .str "png"), ("enable_prompt_expansion", .bool false), ("safety_tolerance", .num 2),
      ("image_size", .obj [("width", .num 2), ("height", .num 2)])]
    cost := .finite false 48 (-3) }

def sampleLiveRun : RunArgs where
  executor := sampleExecutor
  job := sampleLiveJob
  providerMode := .live
  authorization := some ⟨sampleLiveId, "owner", 10, .finite false 48 (-3)⟩
  price := some ⟨flux3Endpoint, sampleLiveId, .finite false 48 (-3), 10, "price list"⟩

def samplePath : String := "/quarantine/40e4b56bbccc8e129b5e923809b0bf0279fd7232cb5121e929dbe58cdf365298/result.png"

def sampleOutside : Outside where
  fetched := .ok (.obj [("images", .arr [.obj [("url", .str "https://v3.fal.media/a.png")]])])
  posted := .ok (.obj [("request_id", .str "fal-1")])
  delivery := ⟨samplePng, .ok ()⟩
  accepted := .ok ()

def liveOracle (provider : ProviderRun) : StoreOracle := { sampleOracle none provider with }

abbrev LiveConfig := Config (storeMachine liveDeployment sampleStore) Error

def sampleSubmit : Live.Program (String × Decimal) :=
  submit sampleLibraries .fal "/quarantine" sampleLiveId sampleLiveJob

def liveHistory : List (Move (storeMachine liveDeployment sampleStore) Error) :=
  .spawn ((Call.run sampleLiveRun).program liveDeployment) ::
    replicate 13 (.perform 0 (liveOracle (providerRun sampleOutside sampleSubmit fun _ => none))) ++
    [.crash 0]

theorem liveHistory_calls : ∀ m ∈ liveHistory, m.calls ⊆ callsIn liveDeployment executorCalls := by
  intro m member
  simp only [liveHistory, mem_append, mem_cons, mem_replicate, not_mem_nil, or_false]
    at member
  rcases member with (rfl | ⟨-, rfl⟩) | rfl
  · rintro _ rfl
    exact ⟨.run sampleLiveRun, trivial, rfl⟩
  all_goals exact Set.empty_subset _

theorem live_run : ∃ c : LiveConfig, ∃ row : Row, Reaches (callsIn liveDeployment executorCalls) anyStep
      (storeRoot liveDeployment sampleStore fun _ => none) c ∧
    c.world.root.jobs.find? sampleLiveId = some row ∧ row.status = .submitted ∧
    row.providerId = "fal-1" ∧ row.generation = none ∧ row.cacheKey = "" ∧
    c.world.root.locks (.request sampleLiveId) = none ∧ c.world.root.locks (.worker 0) = none := by
  have passed : ((storeRoot liveDeployment sampleStore fun _ => none).simulate
      (fun _ _ => true) liveHistory).any (fun c => (c.world.root.jobs.find? sampleLiveId).any fun row =>
        decide (row.status = .submitted ∧ row.providerId = "fal-1" ∧ row.generation = none ∧
          row.cacheKey = "" ∧ c.world.root.locks (.request sampleLiveId) = none ∧
          c.world.root.locks (.worker 0) = none)) = true := by
    decide +kernel
  obtain ⟨c, reached, passed⟩ := exists_reaches (fun _ _ _ => (trivial : anyStep _ _)) liveHistory_calls passed
  obtain ⟨row, found, passed⟩ := (Option.any_eq_true _ _).mp passed
  exact ⟨c, row, reached, found, of_decide_eq_true passed⟩

theorem live_resumes {c : LiveConfig} {row : Row} (provider : ProviderRun)
    (found : c.world.root.jobs.find? sampleLiveId = some row) (submitted : row.status = .submitted)
    (known : row.providerId = "fal-1") (unpinned : row.generation = none) (unkeyed : row.cacheKey = "")
    (free : c.world.root.locks (.request sampleLiveId) = none)
    (idle : c.world.root.locks (.worker 0) = none) :
    Resumes liveDeployment sampleStore (liveOracle provider) sampleLiveRun c.world row "" where
  explicit := by decide
  valid := by decide
  free := free
  slot := ⟨0, by decide, idle⟩
  found := found
  pending := by simp [submitted]
  recovering := by simp [submitted]
  reported := .inl (by simp [known])
  owned := by simp [requireOwner, unpinned, pure, Except.pure]
  inputs _ _ := .ofExcept (.ok ())
  keyed := .inl ⟨unkeyed, .inr rfl⟩

theorem live_reached : Reached sampleLibraries .fal sampleLiveJob "fal-1" sampleOutside
    "https://v3.fal.media/a.png" (.finite false 48 (-3)) where
  recoverable := by decide
  answered := ⟨_, rfl, rfl⟩

theorem live_downloadable (provider : ProviderRun) (objects : StoredObjects) :
    Downloadable liveDeployment sampleStore (liveOracle provider) sampleLibraries .fal sampleLiveRun
      sampleOutside objects samplePath emptySha256 where
  ends := rfl
  valid := ⟨by decide, by decide⟩
  read := rfl
  whole := rfl

theorem live_destination :
    destination .fal "/quarantine" (sampleLiveRun.requestId liveDeployment) = .ok samplePath := by
  decide

def liveRecovery (files : Files) : StoreOracle :=
  liveOracle (providerRun sampleOutside
    (recover sampleLibraries .fal "/quarantine" sampleLiveId sampleLiveJob "fal-1") files)

theorem live_row_recovered : ∃ c : LiveConfig, ∃ outcome w', Reaches (callsIn liveDeployment executorCalls)
    anyStep (storeRoot liveDeployment sampleStore fun _ => none) c ∧ EndsIn liveDeployment sampleStore (liveRecovery fun
    _ => none) 1 (run liveDeployment sampleLiveRun) c.world outcome w' ∧ Completed liveDeployment sampleLiveRun w' := by
  obtain ⟨c, row, reached, found, submitted, known, unpinned, unkeyed, free, idle⟩ := live_run
  have provider : (liveRecovery fun _ => none).provider = providerRun sampleOutside
      (recover sampleLibraries .fal "/quarantine" sampleLiveId sampleLiveJob row.providerId)
      fun _ => none := known ▸ rfl
  obtain ⟨outcome, w', ran, decides⟩ := recovery_completes_iff .refl
    (live_resumes _ found submitted known unpinned unkeyed free idle) (fun cas => by cases cas)
    live_destination provider (known ▸ live_reached) (live_downloadable _ _) 1
  have affordable : Affordable sampleLiveRun (.finite false 48 (-3)) :=
    ⟨(Decimal.finite false 48 (-3)).toRat, by decide, by decide⟩
  exact ⟨c, outcome, w', reached, ran, decides.mpr ⟨unpinned, affordable, fun cas => by cases cas⟩⟩

def cutHistory : List (Move machine Error) :=
  .spawn sampleSubmit.discard :: replicate 5 (.perform 0 sampleOutside) ++ [.crash 0]

theorem cutHistory_calls : ∀ m ∈ cutHistory, m.calls ⊆ attempts sampleLibraries "/quarantine" := by
  intro m member
  simp only [cutHistory, mem_append, mem_cons, mem_replicate, not_mem_nil, or_false]
    at member
  rcases member with (rfl | ⟨-, rfl⟩) | rfl
  · rintro _ rfl
    exact ⟨.fal, sampleLiveId, sampleLiveJob, .inl rfl⟩
  all_goals exact Set.empty_subset _

theorem cut_run : ∃ c : Config machine Error,
    Reaches (attempts sampleLibraries "/quarantine") anyStep (initial fun _ => none) c ∧
      c.Stopped ∧ c.world samplePath = some [] := by
  have passed : ((initial fun _ => none : Config machine Error).simulate (fun _ _ => true)
      cutHistory).any (fun c => decide (c.idle = true ∧ c.world samplePath = some [])) = true := by
    decide
  obtain ⟨c, reached, passed⟩ := exists_reaches (fun _ _ _ => (trivial : anyStep _ _)) cutHistory_calls passed
  obtain ⟨idle, empty⟩ := of_decide_eq_true passed
  exact ⟨c, reached, ((Config.Numbered.initial _).reaches reached).stopped idle, empty⟩

theorem cut_download_never_recovered : ∃ (c : Config machine Error) (e : LiveConfig) (row : Row),
    Reaches (attempts sampleLibraries "/quarantine") anyStep (initial fun _ => none) c ∧
    Reaches (callsIn liveDeployment executorCalls) anyStep
      (storeRoot liveDeployment sampleStore fun _ => none) e ∧
    row.providerId = "fal-1" ∧
    Resumes liveDeployment sampleStore (liveRecovery c.world) sampleLiveRun e.world row "" ∧
    Downloadable liveDeployment sampleStore (liveRecovery c.world) sampleLibraries .fal sampleLiveRun
      sampleOutside e.world.objects samplePath emptySha256 ∧
    ∀ (c' : Config machine Error) (oracle : StoreOracle) (w : StoreWorld) (row' : Row)
      (outside : Outside) (url sha : String) (cost : Decimal) (pid : ℕ),
      Reaches (attempts sampleLibraries "/quarantine") anyStep c c' →
      Resumes liveDeployment sampleStore oracle sampleLiveRun w row' "" →
      oracle.provider = providerRun outside (recover sampleLibraries .fal "/quarantine" sampleLiveId
        sampleLiveJob row'.providerId) c'.world →
      Reached sampleLibraries .fal sampleLiveJob row'.providerId outside url cost →
      Downloadable liveDeployment sampleStore oracle sampleLibraries .fal sampleLiveRun outside w.objects
        samplePath sha →
      ∃ outcome w', EndsIn liveDeployment sampleStore oracle pid (run liveDeployment sampleLiveRun) w
        outcome w' ∧ ¬ Completed liveDeployment sampleLiveRun w' := by
  obtain ⟨e, row, reached, found, submitted, known, unpinned, unkeyed, free, idle⟩ := live_run
  obtain ⟨c, cut, stopped, empty⟩ := cut_run
  refine ⟨c, e, row, cut, reached, known, live_resumes _ found submitted known unpinned unkeyed free idle,
    live_downloadable _ _, ?_⟩
  intro c' oracle w row' outside url sha cost pid later resumes provider remote downloadable
  obtain ⟨outcome, w', ran, decides⟩ := run_recovers_iff resumes (fun cas => by cases cas)
    live_destination provider remote downloadable pid
  refine ⟨outcome, w', ran, fun complete => ?_⟩
  have usable := (decides.mp complete).1
  rw [file_kept stopped empty later] at usable
  exact absurd usable.1 (by decide)

end VideoPoster.Live
