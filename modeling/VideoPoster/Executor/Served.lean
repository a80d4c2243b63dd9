import VideoPoster.Executor.Cache
import VideoPoster.Executor.Vocabulary

/-!
# Rows that are completed from the store
-/

namespace VideoPoster.Executor
open Python Billing Tables Interleaving Option List Config Table Program StoredObjects

variable {D : Deployment} {C : ContentAddressedStore} {s s' : Shared (storeMachine D C)} {pid : ℕ}
  {action : Act} {response : action.Res}

/-! ## What a process has learnt -/

def findsObject (key path : String) : Event actions → Prop
  | ⟨_, .ask (.casGet asked), .ok (some found)⟩ => asked = key ∧ found = path
  | _ => False

def derivesKey (job : Job) (key : String) : Event actions → Prop
  | ⟨_, .ask (.contentKey asked), .ok derived⟩ => asked = job ∧ derived = key
  | _ => False

def readsFile (path sha : String) : Event actions → Prop
  | ⟨_, .ask (.fileSha asked), .ok read⟩ => asked = path ∧ read = sha
  | _ => False

structure StoreInv (s : Shared (storeMachine D C)) : Prop where
  found : ∀ key path, Seen (findsObject key path) s.trace →
    path = C.objectPath key ∧ ∃ sha, s.world.objects.sha256 key = some sha
  read : ∀ key sha, Seen (readsFile (C.objectPath key) sha) s.trace →
    s.world.objects.sha256 key = some sha
  keyed : ∀ job key, Seen (derivesKey job key) s.trace →
    ∃ files, C.jobContentKey files job = .ok key
  present : ∀ requestId, Seen (creates D requestId) s.trace →
    s.world.root.jobs.find? requestId ≠ none

theorem StoreInv.initial (objects : StoredObjects) : StoreInv (storeRoot D C objects).toShared :=
  ⟨fun _ _ seen => by simp [storeRoot, Config.initial, Seen] at seen,
    fun _ _ seen => by simp [storeRoot, Config.initial, Seen] at seen,
    fun _ _ seen => by simp [storeRoot, Config.initial, Seen] at seen,
    fun _ seen => by simp [storeRoot, Config.initial, Seen] at seen⟩

theorem seen_now {p : Event actions → Prop} (performs : Performs pid action response s s') :
    Seen p s'.trace ↔ p ⟨pid, action, response⟩ ∨ Seen p s.trace := by
  obtain ⟨-, -, traced⟩ := performs
  rw [traced, seen_cons]

variable {key path : String} {e : Event actions}

theorem findsObject_eq (found : findsObject key path e) : e = ⟨e.process, .ask (.casGet key), .ok (some path)⟩ := by
  unfold findsObject at found
  split at found
  · obtain ⟨rfl, rfl⟩ := found
    rfl
  · exact found.elim

variable {job : Job}

theorem derivesKey_eq (derived : derivesKey job key e) : e = ⟨e.process, .ask (.contentKey job), .ok key⟩ := by
  unfold derivesKey at derived
  split at derived
  · obtain ⟨rfl, rfl⟩ := derived
    rfl
  · exact derived.elim

variable {sha : String}

theorem readsFile_eq (read : readsFile path sha e) : e = ⟨e.process, .ask (.fileSha path), .ok sha⟩ := by
  unfold readsFile at read
  split at read
  · obtain ⟨rfl, rfl⟩ := read
    rfl
  · exact read.elim

/-! ### What a question tells -/

variable {objects : StoredObjects}

theorem get_eq_some (got : C.get objects key = .ok (some path)) :
    path = C.objectPath key ∧ ∃ sha, objects.sha256 key = some sha := by
  simp only [ContentAddressedStore.get, bind_eq_ok] at got
  obtain ⟨⟨⟩, -, got⟩ := got
  split at got
  · rename_i sha found
    simp only [pure_eq_ok, some.injEq] at got
    exact ⟨got.symm, sha, by simp [sha256, found]⟩
  · cases pure_eq_ok.mp got

theorem files_objectPath {oracle : StoreOracle}
    (read : C.files oracle objects (C.objectPath key) = .ok sha) : objects.sha256 key = some sha := by
  unfold ContentAddressedStore.files at read
  rw [objectKey_objectPath] at read
  simp only at read
  split at read
  · rename_i object found
    obtain ⟨_, -, rfl⟩ := map_eq_ok.mp read
    simp [sha256, found]
  · cases read

theorem performs_findsObject (performs : Performs (M := storeMachine D C) pid (.ask (.casGet key))
    (.ok (some path)) s s') : path = C.objectPath key ∧ ∃ sha, s.world.objects.sha256 key = some sha := by
  obtain ⟨oracle, executed, -, -⟩ := performs_oracle performs
  simp only [exec, some.injEq, Prod.mk.injEq] at executed
  obtain ⟨_, -, got⟩ := bind_eq_ok.mp executed.2
  exact get_eq_some got

theorem performs_readsFile (performs : Performs (M := storeMachine D C) pid (.ask (.fileSha path)) (.ok sha) s s') :
    ∃ oracle, C.files oracle s.world.objects path = .ok sha := by
  obtain ⟨oracle, executed, -, -⟩ := performs_oracle performs
  simp only [exec, some.injEq, Prod.mk.injEq] at executed
  exact ⟨oracle, executed.2⟩

theorem performs_derivesKey (performs : Performs (M := storeMachine D C)
    pid (.ask (.contentKey job)) (.ok key) s s') : ∃ files, C.jobContentKey files job = .ok key := by
  obtain ⟨oracle, executed, -, -⟩ := performs_oracle performs
  simp only [exec, some.injEq, Prod.mk.injEq] at executed
  exact ⟨_, executed.2⟩

variable {requestId : String}

theorem inserted_of_creates (performs : Performs pid action response s s')
    (creates : creates D requestId ⟨pid, action, response⟩) :
    ∃ row, s'.world.root.jobs.find? requestId = some row ∧ ∃ r : Reservation, action = .reserve r ∧ row = r.row D := by
  obtain ⟨r, rfl, same⟩ := creates_eq creates
  cases same
  have change : JobsChange D s.world.root.jobs _ _ s'.world.root.jobs := performs_jobs (performs_atRoot performs)
  generalize s'.world.root.jobs = after at change
  cases change with
  | same calm => exact (calm trivial).elim
  | inserted admitted => exact ⟨r.row D, find?_put_self _ _, r, rfl, rfl⟩
  | updated succeeds target found update => cases update

theorem present_performs (performs : Performs pid action response s s')
    (present : s.world.root.jobs.find? requestId ≠ none) : s'.world.root.jobs.find? requestId ≠ none := by
  obtain ⟨row, found⟩ := ne_none_iff_exists'.mp present
  have known : HasMode (atRoot s) requestId row.mode := ⟨row, found, rfl⟩
  obtain ⟨row', found', -⟩ := known.keep (performs_atRoot performs)
  exact ne_none_iff_exists'.mpr ⟨row', found'⟩

theorem StoreInv.performs (inv : StoreInv s) (performs : Performs pid action response s s') : StoreInv s' := by
  refine ⟨fun key path seen => ?_, fun key sha seen => ?_, fun job key seen => ?_, fun requestId seen => ?_⟩
  · have known : path = C.objectPath key ∧ ∃ sha, s.world.objects.sha256 key = some sha := by
      rcases (seen_now performs).mp seen with now | old
      · cases findsObject_eq now
        exact performs_findsObject performs
      · exact inv.found key path old
    obtain ⟨layout, sha, held⟩ := known
    exact ⟨layout, sha, sha256_performs held performs⟩
  · rcases (seen_now performs).mp seen with now | old
    · cases readsFile_eq now
      obtain ⟨oracle, read⟩ := performs_readsFile performs
      exact sha256_performs (files_objectPath read) performs
    · exact sha256_performs (inv.read key sha old) performs
  · rcases (seen_now performs).mp seen with now | old
    · cases derivesKey_eq now
      exact performs_derivesKey performs
    · exact inv.keyed job key old
  · rcases (seen_now performs).mp seen with now | old
    · obtain ⟨row, found, -⟩ := inserted_of_creates performs now
      exact ne_none_iff_exists'.mpr ⟨row, found⟩
    · exact present_performs performs (inv.present requestId old)

/-! ## Who completes a row from the store -/

def ReservedAfter (L : List (Event actions) → Prop) (job : Job) (key : String)
    (trace : List (Event actions)) : Prop :=
  ∃ (pid : ℕ) (r : Reservation) (earlier : List (Event actions)),
    (⟨pid, .reserve r, .ok true⟩ : Event actions) :: earlier <:+ trace ∧ r.job = job ∧ r.cacheKey = key ∧ L earlier

def LookedUp (job : Job) (key path : String) (trace : List (Event actions)) : Prop :=
  Seen (derivesKey job key) trace ∧ Seen (findsObject key path) trace

def Served (D : Deployment) (requestId key sha : String) (trace : List (Event actions)) : Prop :=
  ∃ job path, D.requestId job = requestId ∧ ReservedAfter (LookedUp job key path) job key trace ∧
    Seen (readsFile path sha) trace

def GrantedFromStore (D : Deployment) (trace : List (Event actions)) : Act → Prop
  | .change _ _ _ requestId (.cacheHit _ sha key) => Served D requestId key sha trace
  | _ => True

def serving (D : Deployment) (C : ContentAddressedStore) : Protocol (storeMachine D C) where
  inv := StoreInv
  grants _ s action := GrantedFromStore D s.trace action
  preserves inv _ performs := inv.performs performs
  survives _ inv := ⟨inv.found, inv.read, inv.keyed, inv.present⟩

theorem Act.Plain.granted (action : Act) (plain : action.Plain) (trace : List (Event actions)) :
    GrantedFromStore D trace action := by
  cases action with
  | change E context given requestId update =>
    cases update with
    | cacheHit => exact plain.elim
    | _ => trivial
  | _ => trivial

section Conduct
variable {α : Type} {program : Program α} {L : List (Event actions) → Prop}

def Grows (L : List (Event actions) → Prop) : Prop := ∀ e trace, L trace → L (e :: trace)

theorem Grows.seen (p : Event actions → Prop) : Grows (Seen p) := fun _ _ seen =>
  seen_cons.mpr (.inr seen)

theorem Grows.lookedUp (job : Job) (key path : String) : Grows (LookedUp job key path) :=
  fun e trace known => ⟨Grows.seen _ e trace known.1, Grows.seen _ e trace known.2⟩

theorem Grows.reservedAfter (job : Job) (key : String) : Grows (ReservedAfter L job key) := by
  rintro e trace ⟨pid, r, earlier, suffix, known⟩
  exact ⟨pid, r, earlier, suffix.trans (suffix_cons e trace), known⟩

theorem Grows.served (requestId key sha : String) : Grows (Served D requestId key sha) := by
  rintro e trace ⟨job, path, same, reserved, read⟩
  exact ⟨job, path, same, Grows.reservedAfter _ _ e trace reserved, Grows.seen _ e trace read⟩

theorem Grows.framed {kind : Act → Prop} (grows : Grows L) : (serving D C).Framed pid kind fun s => L s.trace := by
  refine .of_keep (fun _ _ performs _ known => ?_) fun _ => id
  obtain ⟨-, -, traced⟩ := performs
  rw [traced]
  exact grows _ _ known

theorem Grows.stable (grows : Grows L) : (serving D C).Stable pid fun s => L s.trace :=
  (@Grows.framed D C pid L Act.Plain grows).stable

theorem conforms_plain (only : program.Only Act.Plain) : (serving D C).Conforms program :=
  .of_only (fun _ action plain s _ => plain.granted action s.trace) only

theorem conforms_spoken (only : program.Only Act.Spoken) : (serving D C).Conforms program :=
  conforms_plain (only.mono fun _ => And.right)

theorem safe_plain (grows : Grows L) (only : program.Only Act.Plain) :
    (serving D C).Safe pid (fun s => L s.trace) program (fun _ s => L s.trace) fun _ s => L s.trace :=
  .of_only (fun action plain s _ => plain.granted action s.trace) only grows.framed

end Conduct

section Run
variable (args : RunArgs)

/-! ### The run -/

variable {args : RunArgs}

variable {α : Type} {L : List (Event actions) → Prop}

theorem safe_quiet {program : Program α} (grows : Grows L) (only : program.Only Act.Spoken) :
    (serving D C).Safe pid (fun s => L s.trace) program (fun _ s => L s.trace) fun _ _ => True :=
  (safe_plain grows (only.mono fun _ => And.right)).raising fun _ _ _ => trivial

theorem safe_ask (query : Query) {K : query.Res → List (Event actions) → Prop} (grows : ∀ answer, Grows (K answer))
    (learns : ∀ answer trace, L trace → K answer (⟨pid, .ask query, answer⟩ :: trace)) : (serving D C).Safe (ε := Error)
    pid (fun s => L s.trace) (ask query) (fun answer s => K answer s.trace) fun _ _ => True := by
  refine .perform (fun _ _ _ => trivial) (fun answer => Grows.stable (grows answer)) ?_
  rintro answer s s' - known ⟨-, -, traced⟩ -
  rw [traced]
  exact learns answer _ known

theorem safe_reservedAfter (grows : Grows L) (context : Option ℕ) (job : Job)
    (cost : ℚ) (key : String) (authScope : Option String) (admission : Option BudgetAdmission) (generation : Option ℕ)
    (owner : Option OwnerBinding) : (serving D C).Safe pid (fun s => L s.trace) (reserve context job cost key authScope
    admission generation owner) (fun fresh s => fresh = true → ReservedAfter L job key s.trace) fun _ _ => True := by
  refine .check fun _ => ?_
  refine .check fun _ => ?_
  refine .check fun _ => ?_
  refine .check fun _ => ?_
  refine (safe_quiet grows (spoken_of_still (only_validateInputContract job))).bind fun _ => ?_
  refine .ofExcept_bind (fun scope _ => ?_) fun _ _ _ _ _ => trivial
  have reserved (fresh : Bool) : Grows fun trace => fresh = true → ReservedAfter L job key trace :=
    fun e trace known isFresh => Grows.reservedAfter job key e trace (known isFresh)
  refine .request (fun _ _ _ => trivial) (fun fresh => Grows.stable (reserved fresh)) (fun _ => .true) ?_ fun _ _ _ _ _ _ _ _ _ => trivial
  rintro _ fresh s s' rfl - known performs - rfl
  obtain ⟨-, -, traced⟩ := performs
  refine ⟨pid, ⟨job, cost, key, scope, admission, generation, owner⟩, s.trace, ?_, rfl, rfl, known⟩
  rw [traced]

theorem safe_contentKey : (serving D C).Safe pid (fun _ => True) (contentKey args)
    (fun key s => args.executor.cas = true → Seen (derivesKey args.job key) s.trace) fun _ _ => True := by
  unfold contentKey
  split
  · refine (safe_ask (.contentKey args.job) (L := fun _ => True)
      (K := fun answer trace => ∀ key, answer = .ok key → Seen (derivesKey args.job key) trace)
      (fun _ e trace known key same => Grows.seen _ e trace (known key same)) ?_).bind fun answer => ?_
    · rintro _ trace - key rfl
      exact seen_cons.mpr (.inl ⟨rfl, rfl⟩)
    cases answer with
    | error error => exact fun _ _ _ => trivial
    | ok key => exact fun s _ known _ => known key rfl
  · rename_i absent
    exact fun _ _ _ cas => absurd cas absent

theorem safe_cacheLookup (key : String) : (serving D C).Safe
    pid (fun s => args.executor.cas = true → Seen (derivesKey args.job key) s.trace) (cacheLookup args key)
    (fun cached s => ∀ path, cached = some path → LookedUp args.job key path s.trace) fun _ _ => True := by
  unfold cacheLookup
  split
  · rename_i cas
    refine (safe_ask (.casGet key) (L := fun trace => args.executor.cas = true → Seen (derivesKey args.job key) trace)
      (K := fun answer trace => ∀ path, answer = .ok (some path) → LookedUp args.job key path trace)
      (fun _ e trace known path same => Grows.lookedUp _ _ _ e trace (known path same)) ?_).bind
      fun answer => ?_
    · rintro _ trace derived path rfl
      exact ⟨seen_cons.mpr (.inr (derived cas)), seen_cons.mpr (.inl ⟨rfl, rfl⟩)⟩
    cases answer with
    | error error => exact fun _ _ _ => trivial
    | ok cached => exact fun s _ known path same => known path (congrArg Except.ok same)
  · exact fun _ _ _ _ => nofun

def Hit (args : RunArgs) (admission : Admission) (trace : List (Event actions)) : Prop :=
  admission.fresh = true → ∀ cached, admission.cached = some cached →
    ReservedAfter (LookedUp args.job admission.cacheKey cached) args.job admission.cacheKey trace

theorem Hit.grows (admission : Admission) : Grows (Hit args admission) :=
  fun e trace known fresh cached same => Grows.reservedAfter _ _ e trace (known fresh cached same)

theorem safe_admitNew_hit : (serving D C).Safe pid (fun _ => True) (admitNew D args)
      (fun admission s => Hit args admission s.trace) fun _ _ => True := by
  refine safe_contentKey.bind fun key => (safe_cacheLookup key).bind fun cached => ?_
  have grows : Grows fun trace => ∀ path, cached = some path → LookedUp args.job key path trace :=
    fun e trace known path same => Grows.lookedUp _ _ _ e trace (known path same)
  refine (safe_quiet grows (spoken_of_still (only_gateMiss cached))).bind fun _ => ?_
  refine (safe_reservedAfter grows none args.job _ key _ _ _ _).bind fun fresh => ?_
  intro s _ known isFresh path same
  obtain ⟨process, r, earlier, suffix, job, sameKey, looked⟩ := known isFresh
  exact ⟨process, r, earlier, suffix, job, sameKey, looked path same⟩

theorem safe_admitRow_hit (existing : Option Row) : (serving D C).Safe pid (fun _ => True) (admitRow D args existing)
      (fun admission s => Hit args admission s.trace) fun _ _ => True := by
  cases existing with
  | none => exact safe_admitNew_hit
  | some row =>
    show (serving D C).Safe pid _ (admitExisting D args row) _ _
    unfold admitExisting
    have quiet {α : Type} {program : Program α} (only : program.Only Act.Spoken) :
        (serving D C).Obeys pid (fun _ => True) program :=
      conforms_spoken only pid
    split
    · exact fun _ _ _ => nofun
    · split
      · refine (quiet (spoken_of_still only_contentKey)).bind fun key => ?_
        have changed : (change args.executor none none (args.requestId D)
          (.cacheKey key)).Only Act.Spoken := only_request plain
        exact (quiet changed).bind fun _ => fun _ _ _ => nofun
      · exact fun _ _ _ => nofun

theorem safe_routeFresh_hit (admission : Admission) (found : Option Row) :
    (serving D C).Safe pid (fun s => Hit args admission s.trace) (routeFresh D args admission found)
    (fun routed s => (routed.2 = true → admission.fresh = true) ∧ Hit args admission s.trace) fun _ _ => True := by
  unfold routeFresh
  split
  · exact (safe_quiet (Hit.grows admission) (spoken_markPrepared _ _ _)).bind fun _ =>
      fun _ _ known => ⟨nofun, known⟩
  · exact fun _ _ known => ⟨id, known⟩

theorem safe_completeFromCache_served (admission : Admission) (cached : String) : (serving D C).Obeys
    pid (fun s => ReservedAfter (LookedUp args.job admission.cacheKey cached) args.job admission.cacheKey s.trace)
    (completeFromCache D args admission cached) := by
  have read : (serving D C).Safe pid
      (fun s => ReservedAfter (LookedUp args.job admission.cacheKey cached) args.job admission.cacheKey s.trace)
      (fileSha cached)
      (fun sha s => Served D (args.requestId D) admission.cacheKey sha s.trace) fun _ _ => True := by
    refine (safe_ask (.fileSha cached)
      (L := ReservedAfter (LookedUp args.job admission.cacheKey cached) args.job admission.cacheKey)
      (K := fun answer trace => ∀ sha, answer = .ok sha → Served D (args.requestId D) admission.cacheKey sha trace)
      (fun _ e trace known sha same => Grows.served _ _ _ e trace (known sha same)) ?_).bind
      fun answer => ?_
    · rintro _ trace reserved sha rfl
      exact ⟨args.job, cached, rfl, Grows.reservedAfter _ _ _ trace reserved, seen_cons.mpr (.inl ⟨rfl, rfl⟩)⟩
    cases answer with
    | error error => exact fun _ _ _ => trivial
    | ok sha => exact fun s _ known => known sha rfl
  refine read.bind fun sha => .bind (Q := fun _ _ => True) ?_ fun _ =>
    conforms_spoken (spoken_of_still (only_inspect _)) pid
  exact .request (fun s _ served => served) (fun _ => .true) (fun _ => .true)
    (fun _ _ _ _ _ _ _ _ _ => trivial) fun _ _ _ _ _ _ _ _ _ => trivial

theorem safe_proceed_hit (admission : Admission) (row : Row) (fresh : Bool) : (serving D C).Obeys pid (fun s
    => (fresh = true → admission.fresh = true) ∧ Hit args admission s.trace) (proceed D args admission row fresh) := by
  refine .check fun _ => ?_
  split
  · rename_i cached found
    exact (safe_completeFromCache_served admission cached).strengthen fun _ _ known =>
      known.2 (known.1 rfl) cached found
  · exact (conforms_spoken (spoken_submitOrRecover args admission row _) pid).strengthen
      fun _ _ _ => trivial

theorem conforms_work : (serving D C).Conforms (work D args) := by
  intro pid
  refine (conforms_spoken (spoken_of_still (only_validateInputContract _)) pid).bind fun _ => ?_
  refine (conforms_spoken (spoken_of_still (only_inspect _)) pid).bind fun existing => ?_
  refine (safe_admitRow_hit existing).bind fun admission => ?_
  refine (safe_quiet (Hit.grows admission) (spoken_of_still (only_inspect _))).bind fun found => ?_
  refine (safe_routeFresh_hit admission found).bind fun routed => ?_
  refine .ofExcept_bind (fun row _ => ?_) fun _ _ _ _ _ => trivial
  split
  · refine (safe_quiet (L := fun _ => True) (fun _ _ => id)
      (spoken_of_still (only_verifyStoredReceipt row))).strengthen (fun _ _ _ => trivial) |>.bind fun _ => ?_
    exact fun _ _ _ => trivial
  · exact fun _ _ _ => trivial
  · exact safe_proceed_hit admission row routed.2

theorem conforms_withSlot {paths : List LockId} {body : Program α}
    (conforms : (serving D C).Conforms body) : (serving D C).Conforms (withSlot paths body) :=
  .bind (conforms_spoken (only_act plain)) fun _ =>
    conforms.ensuring (conforms_spoken (only_act plain))

theorem conforms_run : (serving D C).Conforms (run D args) := by
  refine (conforms_spoken (only_require _ _)).bind fun _ => (conforms_spoken (only_ofResult _)).bind
    fun _ => conforms_withSlot ?_
  refine (conforms_spoken (spoken_of_still (only_inspect _))).bind fun existing => ?_
  cases existing with
  | none => exact conforms_withSlot conforms_work
  | some row =>
    simp only
    split
    · exact conforms_spoken (.bind (spoken_of_still (only_verifyStoredReceipt row)) fun _ => trivial)
    · exact conforms_withSlot conforms_work

theorem conforms_body (call : Call) : (serving D C).Conforms (call.body D) := by
  cases call with
  | run args => exact conforms_run.discard
  | prepareIntent => exact conforms_spoken (spoken_discard (spoken_prepareIntent _ _ _ _ _ _))
  | bindPreparedStandingLedgerAdmission =>
    exact conforms_spoken (spoken_discard (spoken_bindPreparedStandingLedgerAdmission _ _ _))
  | qa => exact conforms_spoken (only_request ⟨rfl, trivial⟩)
  | attachMarker => exact conforms_spoken (only_request plain)
  | callback => exact conforms_spoken (spoken_checkpoint _ _ _ _)
  | prepareAndReserve => exact conforms_spoken (spoken_discard (spoken_prepareAndReserve _ _ _ _))
  | checkpointProviderBinding =>
    exact conforms_spoken (spoken_discard (spoken_checkpointProviderBinding _ _ _))
  | markUnknown => exact conforms_spoken (spoken_discard (spoken_markUnknown _))
  | settleVerifiedReceipt => exact conforms_spoken (spoken_discard (spoken_settleVerifiedReceipt _ _))
  | ledger => exact conforms_spoken (spoken_discard (only_request plain))

theorem serving_admits (kinds : Set Call) : (serving D C).Admits (callsIn D kinds) := by
  rintro _ ⟨call, -, rfl⟩
  have announced : (called call).Only Act.Spoken := only_act plain
  exact (conforms_spoken announced).bind fun _ => conforms_body call

end Run

/-! ## Rows that came from the store -/

variable {new : Row}

theorem RowUpdate.cacheHit {old : Row} (update : RowUpdate D action old new) (hit : new.cacheHit = some true) :
    old.cacheHit = some true ∧ new.resultSha256 = old.resultSha256 ∨ ∃ E context given requestId result sha key,
    action = .change E context given requestId (.cacheHit result sha key) ∧ new.resultSha256 = some sha := by
  cases update with
  | @changed E context given requestId update row guarded =>
    cases update with
    | cacheHit result sha key => exact .inr ⟨_, _, _, _, _, _, _, rfl, rfl⟩
    | complete => cases hit
    | _ => exact .inl ⟨hit, rfl⟩
  | bound | pinned | admitted | reviewed => exact .inl ⟨hit, rfl⟩

/-- A row was reserved once, after this history; it has come from the store only with the bytes that
the store holds under its key. -/
structure Descends (new : Row) (before : List (Event actions)) (s : Shared (storeMachine D C)) : Prop where
  once : ∀ pid r earlier, (⟨pid, .reserve r, .ok true⟩ : Event actions) :: earlier <:+ s.trace →
    D.requestId r.job = new.requestId →
    r.job = new.request ∧ r.cacheKey = new.cacheKey ∧ earlier = before
  row : ∃ row, s.world.root.jobs.find? new.requestId = some row ∧
    (row.cacheHit = some true → ∃ path sha, LookedUp new.request new.cacheKey path before ∧
      s.world.objects.sha256 new.cacheKey = some sha ∧ row.resultSha256 = some sha)

variable {before : List (Event actions)}

theorem Served.descends (inv : StoreInv s)
    (descends : Descends new before s) (served : Served D new.requestId key sha s.trace) :
    ∃ path, LookedUp new.request new.cacheKey path before ∧ s.world.objects.sha256 new.cacheKey = some sha := by
  obtain ⟨job, path, names, ⟨pid, r, earlier, suffix, rfl, rfl, looked⟩, read⟩ := served
  obtain ⟨request, key, rfl⟩ := descends.once pid r earlier suffix names
  rw [request, key] at looked
  have found : Seen (findsObject new.cacheKey path) s.trace := by
    obtain ⟨e, member, finds⟩ := looked.2
    exact ⟨e, suffix.subset (.tail _ member), finds⟩
  obtain ⟨rfl, -⟩ := inv.found _ _ found
  exact ⟨_, looked, inv.read _ _ read⟩

theorem Descends.performs (descends : Descends new before s) (inv : StoreInv s) (granted :
    GrantedFromStore D s.trace action) (performs : Performs pid action response s s') : Descends new before s' := by
  obtain ⟨row, found, hit⟩ := descends.row
  have change : JobsChange D s.world.root.jobs action response s'.world.root.jobs :=
    performs_jobs (performs_atRoot performs)
  refine ⟨fun actor r earlier suffix names => ?_, ?_⟩
  · obtain ⟨-, -, traced⟩ := id performs
    rw [traced] at suffix
    rcases suffix_cons_iff.mp suffix with now | old
    · obtain ⟨now, -⟩ := cons.inj now
      have creates : creates D new.requestId ⟨pid, action, response⟩ := now ▸ names
      cases found.symm.trans (absent_of_creates (s := atRoot s) change creates)
    · exact descends.once actor r earlier old names
  · have kept : row.cacheHit = some true → ∃ path sha, LookedUp new.request new.cacheKey path before ∧
        s'.world.objects.sha256 new.cacheKey = some sha ∧ row.resultSha256 = some sha := by
      intro from'
      obtain ⟨path, sha, looked, held, same⟩ := hit from'
      exact ⟨path, sha, looked, sha256_performs held performs, same⟩
    obtain ⟨updated, updatedFound, rfl | ⟨targeted, update⟩⟩ := change.found found
    · exact ⟨_, updatedFound, kept⟩
    refine ⟨updated, updatedFound, fun from' => ?_⟩
    rcases update.cacheHit from' with ⟨before', unchanged⟩ | ⟨E, context, given, target, result, sha, key', rfl, read⟩
    · rw [unchanged]
      exact kept before'
    · obtain rfl : target = new.requestId := some.inj targeted
      obtain ⟨path, looked, held⟩ := Served.descends inv descends granted
      exact ⟨path, sha, looked, sha256_performs held performs, read⟩

theorem Descends.start {new : Row} (inv : StoreInv s) (performs : Performs pid action response s s')
    (absent : s.world.root.jobs.find? new.requestId = none)
    (reserved : s'.world.root.jobs.find? new.requestId = some new) : Descends new s.trace s' := by
  have change : JobsChange D s.world.root.jobs action response s'.world.root.jobs :=
    performs_jobs (performs_atRoot performs)
  obtain ⟨-, -, traced⟩ := performs
  have row : new.cacheHit = none ∧ ∃ r : Reservation, new = r.row D ∧
      (⟨pid, action, response⟩ : Event actions) = ⟨pid, .reserve r, .ok true⟩ := by
    generalize s'.world.root.jobs = after at change reserved
    cases change with
    | same => cases absent.symm.trans reserved
    | @inserted r _ admitted =>
      rw [find?_put] at reserved
      split at reserved
      · obtain rfl := some.inj reserved
        exact ⟨rfl, r, rfl, rfl⟩
      · cases absent.symm.trans reserved
    | @updated _ _ old updated target succeeds targeted oldFound update =>
      obtain ⟨-, key⟩ := find?_eq_some.mp oldFound
      rw [find?_put, update.requestId, key] at reserved
      split at reserved
      · rename_i same
        rw [same, oldFound] at absent
        cases absent
      · cases absent.symm.trans reserved
  obtain ⟨missed, r, is, event⟩ := row
  refine ⟨fun actor other earlier suffix names => ?_, new, reserved, fun hit => ?_⟩
  · rw [traced, event] at suffix
    rcases suffix_cons_iff.mp suffix with now | old
    · cases now
      exact ⟨congrArg Row.request is.symm, congrArg Row.cacheKey is.symm, rfl⟩
    · have seen : Seen (creates D new.requestId) s.trace := ⟨_, old.subset mem_cons_self, names⟩
      exact absurd absent (inv.present _ seen)
  · cases missed.symm.trans hit

/-! ## The store knows nothing of reviews -/

theorem jobContentKey_eq (files : Files) (job : Job) (scene : String) (category : Category)
    (predecessor : String) (cost : Decimal) :
    C.jobContentKey files
      { job with scene := scene, category := category, predecessor := predecessor, cost := cost } =
      C.jobContentKey files job := rfl

/-- A row that comes from the store has the bytes that the store held under its key before the row was
reserved: they are rejected bytes exactly when the store held such. -/
theorem cacheHit_serves_stored {kinds : Set Call} {objects : StoredObjects}
    {c₁ c₂ c₃ : Config (storeMachine D C) Error} {new row : Row}
    (reaches : Reaches (callsIn D kinds) anyStep (storeRoot D C objects) c₁)
    (reserves : Step (callsIn D kinds) anyStep c₁ c₂)
    (absent : c₁.world.root.jobs.find? new.requestId = none)
    (reserved : c₂.world.root.jobs.find? new.requestId = some new)
    (later : Reaches (callsIn D kinds) anyStep c₂ c₃)
    (found : c₃.world.root.jobs.find? new.requestId = some row) (hit : row.cacheHit = some true) :
    (∃ sha, c₁.world.objects.sha256 new.cacheKey = some sha ∧ row.resultSha256 = some sha) ∧
    ((∃ rejected ∈ c₁.world.root.jobs, rejected.qa = some false ∧ rejected.resultSha256 = row.resultSha256) ↔
      ∃ rejected ∈ c₁.world.root.jobs, rejected.qa = some false ∧
        rejected.resultSha256 = c₁.world.objects.sha256 new.cacheKey) ∧
    ∃ files, ∀ scene category predecessor cost,
      C.jobContentKey files { new.request with
        scene := scene, category := category, predecessor := predecessor, cost := cost } =
        .ok new.cacheKey := by
  have admits := serving_admits (D := D) (C := C) kinds
  have sound₁ : (serving D C).Sound c₁ := (Protocol.Sound.initial (StoreInv.initial objects)).reaches admits reaches
  have sound₂ := sound₁.step admits reserves
  have start : Descends new c₁.trace c₂.toShared := by
    cases reserves with
    | spawn => cases absent.symm.trans reserved
    | crash => cases absent.symm.trans reserved
    | perform alive performs meets => exact .start sound₁.inv performs absent reserved
  have descends : Descends new c₁.trace c₃.toShared :=
    sound₂.invariant (K := Descends new c₁.trace) admits
      (fun inv descends granted _ performs => descends.performs inv granted performs)
      (fun _ _ descends => ⟨descends.once, descends.row⟩) start later
  obtain ⟨other, same, known⟩ := descends.row
  obtain rfl := some.inj (same.symm.trans found)
  obtain ⟨path, sha, looked, held, read⟩ := known hit
  obtain ⟨-, sha₁, held₁⟩ := sound₁.inv.found _ _ looked.2
  obtain rfl : sha₁ = sha := by
    have held₂ := sha256_reaches held₁ (.head reserves later)
    exact some.inj (held₂.symm.trans held)
  obtain ⟨files, derived⟩ := sound₁.inv.keyed _ _ looked.1
  refine ⟨⟨sha₁, held₁, read⟩, ?_, files, fun _ _ _ _ => ?_⟩
  · rw [held₁, read]
  · rw [jobContentKey_eq, derived]

/-! ## A correction of rejected bytes -/

def sampleStore : ContentAddressedStore :=
  ⟨"/cas", fun _ _ => .ok "d50d53bde8490ac636939fa1d0a75afdc10349ba6f6b0c91f0618f9444a3172f"⟩

def sampleStoreOracle : StoreOracle where
  answer
    | .fileSha path =>
      if path = "a boat" then .error (.os "No such file or directory") else .ok emptySha256
    | query => (sampleOracle none (sampleProvider 1)).answer query
  provider := sampleProvider 1

def sampleStoreRun (job : Job) : Call :=
  .run { executor := { sampleExecutor with cas := true }, job := job, providerMode := .test }

abbrev sampleStoreMachine : Machine actions := storeMachine (sampleDeployment 6) sampleStore

def sampleStoreMoves (call : Call) (pid steps : ℕ) : List (Move sampleStoreMachine Error) :=
  .spawn (call.program (sampleDeployment 6)) :: replicate steps (.perform pid sampleStoreOracle)

theorem sampleStoreMoves_calls {kinds : Set Call} {call : Call} (within : call ∈ kinds) (pid steps : ℕ) :
    ∀ m ∈ sampleStoreMoves call pid steps, m.calls ⊆ callsIn (sampleDeployment 6) kinds := by
  intro m member
  rcases mem_cons.mp member with rfl | later
  · rintro _ rfl
    exact ⟨call, within, rfl⟩
  · rw [(mem_replicate.mp later).2]
    exact Set.empty_subset _

def reviewCalls : Set Call := { call | (∃ args, call = .run args) ∨ ∃ args, call = .qa args }

def sampleStoreHistory : List (Move sampleStoreMachine Error) :=
  sampleStoreMoves (sampleStoreRun sampleFirst) 0 19 ++
    sampleStoreMoves (.qa (sampleReview sampleFirstId false)) 1 2 ++
    sampleStoreMoves (sampleStoreRun sampleCorrection) 2 7

theorem sampleStoreHistory_calls : ∀ m ∈ sampleStoreHistory, m.calls ⊆ callsIn (sampleDeployment 6) reviewCalls := by
  intro m member
  rcases mem_append.mp member with early | later
  · rcases mem_append.mp early with first | review
    · exact sampleStoreMoves_calls (.inl ⟨_, rfl⟩) _ _ m first
    · exact sampleStoreMoves_calls (.inr ⟨_, rfl⟩) _ _ m review
  · exact sampleStoreMoves_calls (.inl ⟨_, rfl⟩) _ _ m later

def storedRow (c : Config sampleStoreMachine Error) (requestId : String) : Option Row :=
  c.world.root.jobs.find? requestId

theorem sampleStore_run : ∃ c₁ c₂ c₃ : Config sampleStoreMachine Error, ∃ rejected new row : Row, Reaches
    (callsIn (sampleDeployment 6) reviewCalls) anyStep (storeRoot (sampleDeployment 6) sampleStore fun _ => none) c₁ ∧
    Step (callsIn (sampleDeployment 6) reviewCalls) anyStep c₁ c₂ ∧ Reaches (callsIn (sampleDeployment 6) reviewCalls)
    anyStep c₂ c₃ ∧ storedRow c₁ sampleFirstId = some rejected ∧ storedRow c₁ sampleCorrectionId =
    none ∧ storedRow c₂ sampleCorrectionId = some new ∧ storedRow c₃ sampleCorrectionId =
    some row ∧ rejected.qa = some false ∧ new.request = sampleCorrection ∧ rejected.request =
    sampleFirst ∧ row.status = .complete ∧ row.cacheHit = some true ∧ row.resultSha256 = rejected.resultSha256 := by
  have passed : ((storeRoot (sampleDeployment 6) sampleStore fun _ => none).simulate
      (fun _ _ => true) sampleStoreHistory).any (fun c₁ =>
        (c₁.move (fun _ _ => true) (.perform 2 sampleStoreOracle)).any fun c₂ =>
          (c₂.simulate (fun _ _ => true) (replicate 3 (.perform 2 sampleStoreOracle))).any fun c₃ =>
            (storedRow c₁ sampleFirstId).any fun rejected =>
              (storedRow c₂ sampleCorrectionId).any fun new =>
                (storedRow c₃ sampleCorrectionId).any fun row =>
                  decide (storedRow c₁ sampleCorrectionId = none ∧ rejected.qa = some false ∧
                    new.request = sampleCorrection ∧ rejected.request = sampleFirst ∧
                    row.status = .complete ∧ row.cacheHit = some true ∧
                    row.resultSha256 = rejected.resultSha256)) = true := by
    decide +kernel
  obtain ⟨c₁, reached, passed⟩ := exists_reaches
    (fun _ _ _ => (trivial : anyStep _ _)) sampleStoreHistory_calls passed
  obtain ⟨c₂, moved, passed⟩ := (any_eq_true _ _).mp passed
  obtain ⟨c₃, ran, passed⟩ := (any_eq_true _ _).mp passed
  obtain ⟨rejected, foundFirst, passed⟩ := (any_eq_true _ _).mp passed
  obtain ⟨new, foundNew, passed⟩ := (any_eq_true _ _).mp passed
  obtain ⟨row, foundRow, passed⟩ := (any_eq_true _ _).mp passed
  obtain ⟨absent, known⟩ := of_decide_eq_true passed
  have silent (m : Move sampleStoreMachine Error) (member : m ∈ replicate 3 (.perform 2 sampleStoreOracle)) :
      m.calls ⊆ callsIn (sampleDeployment 6) reviewCalls := by
    rw [(mem_replicate.mp member).2]
    exact Set.empty_subset _
  exact ⟨c₁, c₂, c₃, rejected, new, row, reached, move_step (fun _ _ _ => trivial) (Set.empty_subset _) moved,
    simulate_reaches (fun _ _ _ => trivial) silent ran, foundFirst, absent, foundNew, foundRow, known⟩

theorem correction_served_rejected : ∃ c₁ c₂ c₃ : Config sampleStoreMachine Error, ∃ rejected new row : Row, Reaches
    (callsIn (sampleDeployment 6) reviewCalls) anyStep (storeRoot (sampleDeployment 6) sampleStore fun _ => none) c₁ ∧
    Step (callsIn (sampleDeployment 6) reviewCalls) anyStep c₁ c₂ ∧ Reaches (callsIn (sampleDeployment 6) reviewCalls)
    anyStep c₂ c₃ ∧ rejected ∈ c₁.world.root.jobs ∧ rejected.qa = some false ∧
    storedRow c₁ new.requestId = none ∧ storedRow c₂ new.requestId = some new ∧ new.category = .correction ∧
    new.predecessor = rejected.requestId ∧ new.request.payload = rejected.request.payload ∧ storedRow c₃ new.requestId =
    some row ∧ row.status = .complete ∧ row.cacheHit = some true ∧ row.resultSha256 = rejected.resultSha256 := by
  obtain ⟨c₁, c₂, c₃, rejected, new, row, reached, reserves, later, foundFirst, absent, foundNew, foundRow,
    isRejected, request, first, complete, hit, same⟩ := sampleStore_run
  obtain ⟨member, firstId⟩ := find?_eq_some.mp foundFirst
  obtain ⟨-, newId⟩ := find?_eq_some.mp foundNew
  refine ⟨c₁, c₂, c₃, rejected, new, row, reached, reserves, later, member, isRejected, newId ▸ absent,
    newId ▸ foundNew, ?_, ?_, ?_, newId ▸ foundRow, complete, hit, same⟩
  · rw [Row.category, request]
    rfl
  · rw [Row.predecessor, request]
    exact firstId.symm
  · rw [request, first]
    rfl

theorem correction_from_store :
    ∃ c₁ c₃ : Config sampleStoreMachine Error, ∃ new row : Row, storedRow c₃ new.requestId = some row ∧ row.cacheHit =
    some true ∧ ∃ sha, c₁.world.objects.sha256 new.cacheKey = some sha ∧ row.resultSha256 = some sha := by
  obtain ⟨c₁, c₂, c₃, rejected, new, row, reached, reserves, later, -, absent, foundNew, foundRow, -, -, -,
    -, hit, -⟩ := sampleStore_run
  obtain ⟨-, newId⟩ := find?_eq_some.mp foundNew
  have absent : c₁.world.root.jobs.find? new.requestId = none := by
    rw [newId]
    exact absent
  have foundNew : c₂.world.root.jobs.find? new.requestId = some new := by
    rw [newId]
    exact foundNew
  have foundRow : c₃.world.root.jobs.find? new.requestId = some row := by
    rw [newId]
    exact foundRow
  exact ⟨c₁, c₃, new, row, foundRow, hit,
    (cacheHit_serves_stored reached reserves absent foundNew later foundRow hit).1⟩

end VideoPoster.Executor
