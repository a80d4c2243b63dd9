import VideoPoster.Executor.Knowledge

/-!
# The programs keep the discipline: intents and coordinators
-/

namespace VideoPoster.Executor
open Python Billing Tables Interleaving Option

variable {D : Deployment} {scope : Scope} {pid : ℕ} {requestId : String}

/-! ## Passive programs -/

def Act.Passive : Act → Prop
  | .ask _ | .inspect _ | .readGeneration | .slot _ | .recover _ _ _ | .recoverLocal _ => True
  | .ledger (.claim _) => True
  | _ => False

def Act.Still : Act → Prop
  | .ask _ | .inspect _ | .readGeneration | .recover _ _ _ | .recoverLocal _ => True
  | .ledger (.claim _) => True
  | _ => False

def Act.Asks : Act → Prop
  | .ask _ => True
  | _ => False

theorem Act.Asks.still (action : Act) (asks : action.Asks) : action.Still := by
  cases action with
  | ask query => trivial
  | _ => exact asks.elim

variable {action : Act}

theorem Act.Still.passive (still : action.Still) : action.Passive := by
  cases action with
  | ledger op =>
    cases op with
    | claim requestId => trivial
    | _ => exact still.elim
  | ask | inspect | readGeneration | recover | recoverLocal => trivial
  | _ => exact still.elim

theorem Act.Passive.granted (passive : action.Passive) (s : Shared (machine D)) : Granted D scope pid s action := by
  cases action with
  | ledger op =>
    cases op with
    | claim requestId => exact fun _ => nofun
    | _ => exact passive.elim
  | ask | inspect | readGeneration | slot | recover | recoverLocal => trivial
  | _ => exact passive.elim

theorem Act.Passive.not_decides (passive : action.Passive) : ¬ action.Decides D requestId := by
  cases action with
  | release | change | submit => exact passive.elim
  | _ => exact id

theorem Act.Passive.not_pins (passive : action.Passive) : ¬ action.Pins := by
  cases action with
  | ledger op =>
    cases op with
    | claim requestId => exact fun writes => writes rfl
    | _ => exact passive.elim
  | release | publish | bindProvider | pinGeneration => exact passive.elim
  | _ => exact id

theorem Act.Passive.not_writes (action : Act) (passive : action.Passive) :
    action ≠ .release .billing ∧ ∀ snapshot, action ≠ .publish snapshot :=
  ⟨by rintro rfl; exact passive, by rintro snapshot rfl; exact passive⟩

variable {α : Type} {kind : Act → Prop} {F : Assertion (machine D)}

theorem safe_passive {program : Program α} (only : program.Only Act.Still)
    (framed : (discipline D scope).Framed pid kind F) (subset : ∀ action, action.Passive → kind action) :
    (discipline D scope).Safe pid F program (fun _ => F) fun _ => F :=
  Protocol.Safe.of_only (fun _ still s _ => still.passive.granted s) only
    (framed.mono fun action still => subset action still.passive)

section Only
variable {kind : Act → Prop}

theorem only_ofResult {α : Type} (result : Result α) : (Program.ofResult result).Only kind :=
  .ofExcept result

theorem only_require (condition : Prop) [Decidable condition] (error : Error) :
    (Program.require condition error).Only kind :=
  .ofExcept _

theorem only_ask (query : Query) : (Program.ask query).Only Act.Still :=
  ⟨trivial, fun _ => trivial⟩

theorem only_inspect (requestId : String) : (Program.inspect requestId).Only Act.Still :=
  ⟨trivial, fun _ => trivial⟩

theorem asks_ask (query : Query) : (Program.ask query).Only Act.Asks :=
  ⟨trivial, fun _ => trivial⟩

theorem asks_fileSha (path : String) : (Program.fileSha path).Only Act.Asks :=
  (asks_ask _).bind fun _ => only_ofResult _

theorem asks_verify (asset : FrozenAsset) (mode : Mode) : (asset.verify mode).Only Act.Asks :=
  (only_require _ _).bind fun _ => (only_require _ _).bind fun _ =>
    (asks_fileSha _).bind fun _ => only_require _ _

theorem asks_verifyAssets (mode : Mode) (assets : List FrozenAsset) : (verifyAssets mode assets).Only Act.Asks := by
  induction assets with
  | nil => trivial
  | cons asset rest ih => exact (asks_verify asset mode).bind fun _ => ih

theorem asks_validateInputContract (job : Job) : (validateInputContract job).Only Act.Asks := by
  unfold validateInputContract
  split
  · exact only_ofResult _
  · exact (only_require _ _).bind fun _ => (asks_verifyAssets _ _).bind fun _ =>
      (asks_ask _).bind fun _ => (only_ofResult _).bind fun _ => only_require _ _
  · trivial
  · trivial

theorem only_fileSha (path : String) : (Program.fileSha path).Only Act.Still :=
  (asks_fileSha path).mono Act.Asks.still

theorem only_validateInputContract (job : Job) : (validateInputContract job).Only Act.Still :=
  (asks_validateInputContract job).mono Act.Asks.still

theorem only_configuredAuthenticatedBudgetBinding (job : Job) :
    (configuredAuthenticatedBudgetBinding D job).Only Act.Still := by
  unfold configuredAuthenticatedBudgetBinding
  split
  · trivial
  · exact (only_require _ _).bind fun _ => (only_ask _).bind fun _ => (only_ofResult _).bind fun _ =>
      (only_require _ _).bind fun _ => (only_ask _).bind fun _ => (only_ofResult _).bind fun _ =>
      (only_require _ _).bind fun _ => trivial

theorem only_freshAuthenticatedBudgetAdmission (job : Job) (row : Row) :
    (freshAuthenticatedBudgetAdmission D job row).Only Act.Still := by
  unfold freshAuthenticatedBudgetAdmission
  split
  · trivial
  · exact (only_configuredAuthenticatedBudgetBinding job).bind fun _ =>
      (only_require _ _).bind fun _ => trivial

theorem only_verifyFinalAdmission (E : Instance) (job : Job) (row : Row)
    (claim : StandingBudget.Claim) : (verifyFinalAdmission D E job row claim).Only Act.Still := by
  unfold verifyFinalAdmission
  split
  · exact (only_ofResult _).bind fun _ => (only_ask _).bind fun _ =>
      (only_ofResult _).bind fun _ => trivial
  · trivial

theorem only_admittedClaim (job : Job) : (admittedClaim D job).Only Act.Still := by
  have read : (Program.ledger (.claim (D.requestId job))).Only Act.Still :=
    ⟨trivial, fun _ => only_ofResult _⟩
  refine read.attempt.bind fun answer => ?_
  cases answer <;> trivial

theorem only_verifyPreparedFalAdmission (E : Instance) (job : Job) (row : Row) (requireAdmittedMarker : Bool) :
    (verifyPreparedFalAdmission D E job row requireAdmittedMarker).Only Act.Still := by
  refine (only_require _ _).bind fun _ => (only_require _ _).bind fun _ =>
    (only_require _ _).bind fun _ => (only_admittedClaim job).bind fun _ =>
    (only_require _ _).bind fun _ => (only_require _ _).bind fun _ =>
    (only_verifyFinalAdmission E job row _).bind fun _ =>
    (only_freshAuthenticatedBudgetAdmission job row).bind fun authenticated => ?_
  cases authenticated <;> exact only_require _ _

theorem only_generatedAt : generatedAt.Only Act.Still :=
  (only_ask _).bind fun _ => only_ofResult _

end Only

/-! ## Locks -/

theorem safe_withSlot {paths : List LockId} {body : Program α} {L S : Assertion (machine D)}
    {G R : LockId → Assertion (machine D)} (stableInside : ∀ lock, (discipline D scope).Stable pid (G lock))
    (stableAfter : (discipline D scope).Stable pid S) (enter : ∀ lock s s', lock ∈ paths → Inv D scope s → L s →
    Performs (M := machine D) pid (.slot paths) lock s s' → G lock s') (safe : ∀ lock ∈ paths, (discipline D scope).Safe
    pid (G lock) body (fun _ => R lock) fun _ => R lock) (held : ∀ lock s, lock ∈ paths → R lock s → Held s pid lock)
    (leave : ∀ lock s s', lock ∈ paths → Inv D scope s → R lock s → Performs (M := machine D) pid (.release lock)
    () s s' → S s') : (discipline D scope).Safe pid L (Program.withSlot paths body) (fun _ => S) fun _ => S := by
  have acquire : (discipline D scope).Safe pid L (Program.slot paths)
      (fun lock s => lock ∈ paths ∧ G lock s) fun _ => S := by
    refine .perform (fun _ _ _ => trivial) (fun lock => ?_) ?_
    · exact fun s s' inv step holds => ⟨holds.1, stableInside lock s s' inv step holds.2⟩
    · intro lock s s' inv holds performs _
      have member : lock ∈ paths := (performs_slot performs).1
      exact ⟨member, enter lock s s' member inv holds performs⟩
  refine acquire.bind fun lock => .given (fun _ _ holds => holds.1) fun member => ?_
  have finish : (discipline D scope).Safe pid (R lock) (Program.release lock) (fun _ => S) fun _ => S :=
    .perform (fun s _ holds => held lock s member holds) (fun _ => stableAfter)
      fun _ s s' inv holds performs _ => leave lock s s' member inv holds performs
  exact .ensuring ((safe lock member).strengthen fun _ _ holds => holds.2)
    (fun _ => finish) fun _ => finish

/-! ## Coordinators -/

def RowRead (pid : ℕ) (target : String) (found : Option Row) (s : Shared (machine D)) : Prop :=
  ∀ row, found = some row → Held s pid .billing ∧ RowKept target row s

theorem RowRead.framed {target : String} {found : Option Row} :
    (discipline D scope).Framed pid (fun action => ¬ action.Pins) (RowRead pid target found) :=
  .forall fun _ => .imp RowKept.framed

section Coordinator
variable {F : Assertion (machine D)}
  (framed : (discipline D scope).Framed pid (fun action => ¬ action.Decides D requestId) F)
variable {α : Type}

include framed

theorem safe_withGeneration {body : ℕ → Program α} (safe : ∀ generation, (discipline D scope).Safe pid (fun s => F s ∧
    AtGeneration pid generation s) (body (generation + 1)) (fun _ s => F s ∧ Held s pid .billing) fun _ s => F s ∧
    Held s pid .billing) : (discipline D scope).Safe pid F (withGeneration body) (fun _ => F) fun _ => F := by
  refine safe_withSlot (G := fun _ s => F s ∧ Held s pid .billing)
    (R := fun _ s => F s ∧ Held s pid .billing) (fun _ => framed.stable.and Held.framed.stable)
    framed.stable ?_ (fun _ _ => ?_) ?_ ?_
  · intro lock s s' member inv holds performs
    have taken := (performs_slot performs).2
    rw [List.mem_singleton.mp member] at taken
    exact ⟨framed.kept inv performs trivial id holds, taken⟩
  · have read : (discipline D scope).Safe pid (fun s => F s ∧ Held s pid .billing)
        Program.readGeneration (fun generation s => F s ∧ AtGeneration pid generation s)
        fun _ s => F s ∧ Held s pid .billing := by
      refine .perform (fun _ _ _ => trivial) (fun _ => framed.stable.and AtGeneration.framed.stable) ?_
      rintro generation s s' inv ⟨holds, held⟩ performs -
      exact ⟨framed.kept inv performs trivial id holds, Held.framed.kept inv performs trivial nofun held,
        performs_readGeneration performs⟩
    exact read.bind safe
  · rintro lock s member ⟨-, held⟩
    rw [List.mem_singleton.mp member]
    exact held
  · rintro lock s s' member inv ⟨holds, held⟩ performs
    obtain rfl := List.mem_singleton.mp member
    exact framed.kept inv performs held (fun decides => decides rfl) holds

theorem safe_passive_writer {G : Assertion (machine D)} {program : Program α} (only : program.Only Act.Still) (known :
    (discipline D scope).Framed pid (fun action => action ≠ .release .billing ∧ ∀ snapshot, action ≠ .publish snapshot)
    G) : (discipline D scope).Safe pid (fun s => F s ∧ G s) program (fun _ s => F s ∧ G s) fun _ s => F s ∧ G s := by
  refine safe_passive only ((framed.mono fun _ => Act.Passive.not_decides).and
    (known.mono Act.Passive.not_writes)) fun _ => id

theorem safe_marker (generation : ℕ) (target : String) :
    (discipline D scope).Safe pid (fun s => F s ∧ AtGeneration pid generation s) (marker target (generation + 1))
    (fun _ s => F s ∧ Writer s pid (generation + 1)) fun _ s => F s ∧ Held s pid .billing := by
  have clock := safe_passive_writer (G := AtGeneration pid generation) framed only_generatedAt AtGeneration.framed
  refine (clock.raising fun _ _ holds => ⟨holds.1, holds.2.1⟩).bind fun time => ?_
  refine .perform (fun s _ holds => ⟨holds.2.1, by rw [holds.2.2]⟩) (fun _ => framed.stable.and Writer.framed.stable) ?_
  rintro _ s s' inv ⟨holds, at'⟩ performs -
  have granted : Granted D scope pid s (.publish ⟨.writerInProgress, generation + 1, target, time⟩) :=
    ⟨at'.1, by rw [at'.2]⟩
  exact ⟨framed.kept inv performs granted id holds,
    at'.1.keep granted performs fun _ => nofun, _, congrArg World.snapshot (performs_publish performs), rfl, rfl⟩

theorem safe_current (target : String) (generation : ℕ) (settlementReceipt : Option Dict) :
    (discipline D scope).Safe pid (fun s => F s ∧ Writer s pid generation) (current target generation settlementReceipt)
    (fun _ s => F s ∧ Held s pid .billing) fun _ s => F s ∧ Held s pid .billing := by
  have failed : (discipline D scope).Stable pid fun s => F s ∧ Held s pid .billing :=
    framed.stable.and Held.framed.stable
  have base : (discipline D scope).Framed pid Act.Passive fun s => F s ∧ Writer s pid generation :=
    (framed.mono fun _ => Act.Passive.not_decides).and (Writer.framed.mono Act.Passive.not_writes)
  have readRow (found : Option Row) : (discipline D scope).Framed pid Act.Passive
      fun s => (F s ∧ Writer s pid generation) ∧ RowRead pid target found s :=
    base.and (RowRead.framed.mono fun _ => Act.Passive.not_pins)
  have readClaim (found : Option Row) (claim : StandingBudget.Claim) : (discipline D scope).Framed pid Act.Passive
        fun s => ((F s ∧ Writer s pid generation) ∧ RowRead pid target found s) ∧
          (Held s pid .billing ∧ ClaimKept target claim s) :=
    (readRow found).and (ClaimKept.framed.mono fun _ => Act.Passive.not_pins)
  have first : (discipline D scope).Safe pid (fun s => F s ∧ Writer s pid generation)
      (Program.inspect target)
      (fun found s => (F s ∧ Writer s pid generation) ∧ RowRead pid target found s)
      fun _ s => F s ∧ Held s pid .billing := by
    refine .perform (fun _ _ _ => trivial) (fun found => (readRow found).stable) ?_
    intro found s s' inv holds performs _
    have kept := base.kept inv performs trivial trivial holds
    refine ⟨kept, fun row same => ⟨kept.2.1, fun _ => ⟨row, ?_, rfl, rfl, rfl⟩⟩⟩
    exact (performs_inspect performs).trans same
  refine first.bind fun found => ?_
  have second : (discipline D scope).Safe pid
      (fun s => (F s ∧ Writer s pid generation) ∧ RowRead pid target found s)
      (Program.ledger (.claim target))
      (fun claim s => ((F s ∧ Writer s pid generation) ∧ RowRead pid target found s) ∧
          (Held s pid .billing ∧ ClaimKept target claim s))
      fun _ s => F s ∧ Held s pid .billing := by
    refine .request (fun _ _ _ _ => nofun) (fun claim => (readClaim found claim).stable) (fun _ => failed) ?_ ?_
    · rintro _ claim s s' rfl inv holds performs -
      have kept := (readRow found).kept inv performs (fun _ => nofun) trivial holds
      exact ⟨kept, kept.1.2.1, fun _ => ⟨claim, performs_claim performs, .refl claim⟩⟩
    · rintro _ e s s' rfl inv holds performs -
      have kept := (readRow found).kept inv performs (fun _ => nofun) trivial holds
      exact ⟨kept.1.1, kept.1.2.1⟩
  refine second.bind fun claim => .ofExcept_bind (fun row present => ?_)
    (fun _ _ _ _ holds => ⟨holds.1.1.1, holds.1.1.2.1⟩)
  refine .ofExcept_bind (fun _ coherent => ?_) (fun _ _ _ _ holds => ⟨holds.1.1.1, holds.1.1.2.1⟩)
  have clock := safe_passive only_generatedAt (readClaim found claim) fun _ => id
  refine (clock.raising fun _ _ holds => ⟨holds.1.1.1, holds.1.1.2.1⟩).bind fun time => ?_
  have known : found = some row := by
    cases found with
    | none => cases present
    | some read => exact congrArg some (Except.ok.inj present)
  have stored (s : Shared (machine D)) (holds : ((F s ∧ Writer s pid generation) ∧
      RowRead pid target found s) ∧ Held s pid .billing ∧ ClaimKept target claim s) :
      Stored s target generation :=
    stored_of_kept (require_eq_ok.mp coherent) (holds.1.2 row known).2 holds.2.2
  refine .perform (fun s _ holds => ⟨holds.1.1.2, stored s holds⟩) (fun _ => failed) ?_
  intro _ s s' inv holds performs _
  have granted : Granted D scope pid s (.publish ⟨.current row claim settlementReceipt, generation, target, time⟩) :=
    ⟨holds.1.1.2, stored s holds⟩
  exact ⟨framed.kept inv performs granted id holds.1.1.1, Held.framed.kept inv performs granted nofun holds.2.1⟩

variable {generation : ℕ}

theorem safe_commit {response : action.Res → Result α} (calm : ¬ action.Decides D requestId) (writes : action ≠ .release
    .billing ∧ ∀ snapshot, action ≠ .publish snapshot) (granted : ∀ s, Inv D scope s → F s → Writer s pid generation →
    Granted D scope pid s action) : (discipline D scope).Safe pid (fun s => F s ∧ Writer s pid generation)
    (Prog.request action response) (fun _ s => F s ∧ Writer s pid generation) fun _ s => F s ∧ Held s pid .billing := by
  have kept : (discipline D scope).Framed pid (fun a => a = action) fun s => F s ∧ Writer s pid generation :=
    (framed.mono fun a (same : a = action) => same ▸ calm).and
      (Writer.framed.mono fun a (same : a = action) => same ▸ writes)
  exact (kept.request rfl fun s inv holds => granted s inv holds.1 holds.2).weaken (fun _ _ => id) fun _ _ holds => ⟨holds.1, holds.2.1⟩

theorem safe_ledger (op : StandingBudget.Op) (context : op.context = some generation) :
    (discipline D scope).Safe pid (fun s => F s ∧ Writer s pid generation) (Program.ledger op)
      (fun _ s => F s ∧ Writer s pid generation) fun _ s => F s ∧ Held s pid .billing :=
  safe_commit framed id (by simp) fun _ _ _ writer _ same =>
    some.inj (context.symm.trans same) ▸ writer

theorem safe_pinGeneration (target : String) : (discipline D scope).Safe pid (fun s => F s ∧ Writer s pid generation)
    (Program.pinGeneration (some generation) target generation)
    (fun _ s => F s ∧ Writer s pid generation) fun _ s => F s ∧ Held s pid .billing :=
  safe_commit framed id (by simp) fun _ _ _ => id

theorem safe_bindProvider (reporter : ∀ s, F s → Reporter D pid requestId s)
    (providerId partialPath : String) : (discipline D scope).Safe pid (fun s => F s ∧ Writer s pid generation)
    (Program.bindProvider (some generation) requestId providerId partialPath (some generation))
    (fun _ s => F s ∧ Writer s pid generation) fun _ s => F s ∧ Held s pid .billing :=
  safe_commit framed id (by simp) fun s _ holds writer =>
    ⟨reporter s holds, fun _ same => some.inj same ▸ writer⟩

theorem safe_checkpointProviderBinding (reporter : ∀ s, F s → Reporter D pid requestId s)
    (providerId partialPath : String) : (discipline D scope).Safe
    pid F (Billing.checkpointProviderBinding requestId providerId partialPath) (fun _ => F) fun _ => F := by
  refine safe_withGeneration framed fun generation => ?_
  refine (safe_marker framed generation requestId).bind fun _ => ?_
  refine (safe_bindProvider framed reporter _ _).bind fun _ => ?_
  refine (safe_ledger framed _ rfl).bind fun claim => ?_
  exact (safe_current framed _ _ _).bind fun _ => fun _ _ => id

theorem safe_markUnknown (target : String) :
    (discipline D scope).Safe pid F (Billing.markUnknown target) (fun _ => F) fun _ => F := by
  refine safe_withGeneration framed fun generation => ?_
  refine (safe_marker framed generation target).bind fun _ => ?_
  refine (safe_pinGeneration framed target).bind fun _ => ?_
  refine (safe_ledger framed _ rfl).bind fun claim => ?_
  exact (safe_current framed _ _ _).bind fun _ => fun _ _ => id

theorem safe_settleVerifiedReceipt (body : String) (settlementReceipt : Dict) :
    (discipline D scope).Safe pid F (Billing.settleVerifiedReceipt body settlementReceipt) (fun _ => F) fun _ => F := by
  refine .ofExcept_bind (fun target _ => ?_) fun _ _ _ _ => id
  refine safe_withGeneration framed fun generation => ?_
  refine (safe_marker framed generation target).bind fun _ => ?_
  refine (safe_pinGeneration framed target).bind fun _ => ?_
  refine (safe_ledger framed _ rfl).bind fun _ => (safe_ledger framed _ rfl).bind fun claim => ?_
  exact (safe_current framed _ _ _).bind fun _ => fun _ _ => id

end Coordinator

/-! ## Intents -/

def Act.Intends : Act → Prop
  | .reserve _ => True
  | .change _ _ _ _ update => update = .prepared
  | action => action.Passive

theorem Act.Passive.intends (action : Act) (passive : action.Passive) : action.Intends := by
  cases action with
  | reserve | change => exact passive.elim
  | _ => exact passive

theorem Act.Intends.not_writes (action : Act) (intends : action.Intends) :
    action ≠ .release .billing ∧ ∀ snapshot, action ≠ .publish snapshot :=
  ⟨by rintro rfl; exact intends, by rintro snapshot rfl; exact intends⟩

theorem Creator.of_reserve {s s' : Shared (machine D)} {r : Reservation} (inv : Inv D scope s)
    (performs : Performs (M := machine D) pid (.reserve r) (.ok true) s s') : Creator pid (D.requestId r.job) s' := by
  have created : creates D (D.requestId r.job) ⟨pid, .reserve r, .ok true⟩ := rfl
  have absent := absent_of_creates (performs_jobs performs) created
  obtain ⟨-, unmarked⟩ := inv.absent _ absent
  simp only [Creator, seen_performs performs]
  exact ⟨.inl ⟨rfl, created⟩, not_or.mpr ⟨id, unmarked _⟩, not_or.mpr ⟨id, unmarked _⟩⟩

variable {job : Job}

theorem settlementScope_ok {authScope : Option String} {required : String}
    (named : settlementScope job authScope = .ok required) : required ≠ "" := by
  simp only [settlementScope, bind_eq_ok, require_eq_ok, exists_const, pure_eq_ok] at named
  obtain ⟨-, ⟨nonempty, -⟩, rfl⟩ := named
  exact nonempty

variable {context : Option ℕ}

theorem safe_reserve {G : Assertion (machine D)} (framed : (discipline D scope).Framed pid kind F) (passive : ∀ action,
    action.Passive → kind action) (reserving : ∀ r, kind (.reserve r)) (stable : (discipline D scope).Stable pid G)
    (establishes : ∀ r s s', r.job = job → Inv D scope s → F s → Performs (M := machine D) pid (.reserve r)
    (.ok true) s s' → G s') {cost : ℚ} (amount : 0 ≤ cost) (writes : ∀ g s, context = some g → F s → Writer s pid g)
    (cacheKey : String) (authScope : Option String) (admission : Option BudgetAdmission)
    (generation : Option ℕ) (owner : Option OwnerBinding) : (discipline D scope).Safe pid F (Executor.reserve context
    job cost cacheKey authScope admission generation owner) (fun fresh s => F s ∧ (fresh = true → G s)) fun _ => F := by
  refine .ofExcept_bind (fun _ _ => ?_) fun _ _ _ _ => id
  refine .ofExcept_bind (fun _ _ => ?_) fun _ _ _ _ => id
  refine .ofExcept_bind (fun _ _ => ?_) fun _ _ _ _ => id
  refine .ofExcept_bind (fun _ writer => ?_) fun _ _ _ _ => id
  refine (safe_passive (only_validateInputContract job) framed passive).bind fun _ => ?_
  refine .ofExcept_bind (fun required named => ?_) fun _ _ _ _ => id
  have granted (s : Shared (machine D)) (holds : F s) : Granted D scope pid s
      (.reserve ⟨job, cost, cacheKey, required, admission, generation, owner⟩) := by
    refine ⟨amount, settlementScope_ok named, fun g same => writes g s ?_ holds⟩
    rcases requireCoordinatorWrite_eq_ok.mp writer with none | same'
    · cases none.symm.trans same
    · exact same'.trans same
  refine .request (fun s _ holds => granted s holds) (fun fresh => ?_) (fun _ => framed.stable) ?_ ?_
  · exact framed.stable.and fun s s' inv step holds known => stable s s' inv step (holds known)
  · rintro _ fresh s s' rfl inv holds performs -
    refine ⟨framed.kept inv performs (granted s holds) (reserving _) holds, ?_⟩
    rintro rfl
    exact establishes _ s s' rfl inv holds performs
  · rintro _ e s s' - inv holds performs -
    exact framed.kept inv performs (granted s holds) (reserving _) holds

theorem validateJob_ok (valid : validateJob job = .ok ()) : 0 < job.cost.toRat := by
  simp only [validateJob, bind_eq_ok, require_eq_ok] at valid
  obtain ⟨_, -, -, -, positive⟩ := valid
  exact positive

theorem safe_markPrepared (framed : (discipline D scope).Framed pid Act.Intends F)
    (prepares : ∀ s, F s → ∃ call, call.Prepares ∧ Seen (By pid (calls call)) s.trace) (E : Instance)
    (context : Option ℕ) (job : Job) : (discipline D scope).Safe pid (fun s => F s ∧ Creator pid (D.requestId job) s)
    (markPrepared D E context job) (fun _ => F) fun _ => F := by
  have change : (discipline D scope).Safe pid (fun s => F s ∧ Creator pid (D.requestId job) s)
      (Program.change E context none (D.requestId job) .prepared) (fun _ => F) fun _ => F := by
    have granted (s : Shared (machine D)) (holds : F s ∧ Creator pid (D.requestId job) s) :
        Granted D scope pid s (.change E context none (D.requestId job) .prepared) :=
      ⟨holds.2, .inr (prepares s holds.1)⟩
    refine .request (fun s _ holds => granted s holds) (fun _ => framed.stable) (fun _ => framed.stable) ?_ ?_
    · rintro _ _ s s' - inv holds performs -
      exact framed.kept inv performs (granted s holds) rfl holds.1
    · rintro _ _ s s' - inv holds performs -
      exact framed.kept inv performs (granted s holds) rfl holds.1
  exact change.bind fun _ => safe_passive (only_inspect _) framed Act.Passive.intends

theorem safe_prepareIntent (framed : (discipline D scope).Framed pid Act.Intends F)
    (writes : ∀ g s, context = some g → F s → Writer s pid g)
    (prepares : ∀ s, F s → ∃ call, call.Prepares ∧ Seen (By pid (calls call)) s.trace) (E : Instance) (job : Job)
    (authScope : Option String) (generation : Option ℕ) (owner : Option OwnerBinding) : (discipline D scope).Safe
    pid F (prepareIntent D E context job authScope generation owner) (fun _ => F) fun _ => F := by
  have created : (discipline D scope).Framed pid Act.Passive (Creator pid (D.requestId job)) :=
    Creator.framed.mono fun _ => Act.Passive.not_decides
  refine .ofExcept_bind (fun _ _ => ?_) fun _ _ _ _ => id
  refine .ofExcept_bind (fun _ valid => ?_) fun _ _ _ _ => id
  refine (safe_passive (only_validateInputContract job) framed Act.Passive.intends).bind fun _ => ?_
  refine (safe_passive (only_configuredAuthenticatedBudgetBinding job) framed
    Act.Passive.intends).bind fun admission => ?_
  refine .ofExcept_bind (fun required _ => ?_) fun _ _ _ _ => id
  refine (safe_reserve (G := Creator pid (D.requestId job)) framed Act.Passive.intends
    (fun _ => trivial) created.stable ?_ (validateJob_ok valid).le writes _ _ _ _ _).bind fun fresh => ?_
  · rintro r s s' rfl inv - performs
    exact .of_reserve inv performs
  have known : (discipline D scope).Framed pid Act.Passive
      fun s => F s ∧ (fresh = true → Creator pid (D.requestId job) s) :=
    (framed.mono Act.Passive.intends).and created.imp
  refine ((safe_passive (only_inspect _) known fun _ => id).raising fun _ _ holds => holds.1).bind fun existing => ?_
  have read : (discipline D scope).Safe pid (fun s => F s ∧ (fresh = true → Creator pid (D.requestId job) s))
      (readBack D E context job fresh existing) (fun _ => F) fun _ => F := by
    unfold readBack
    split
    · rename_i isFresh
      exact (safe_markPrepared framed prepares E context job).strengthen fun _ _ holds =>
        ⟨holds.1, holds.2 isFresh⟩
    · exact fun _ _ holds => holds.1
  refine read.bind fun found => .ofExcept_bind (fun row _ => ?_) fun _ _ _ _ => id
  exact .ofExcept_bind (fun _ _ _ _ => id) fun _ _ _ _ => id

theorem safe_prepareAndReserve (framed : (discipline D scope).Framed pid (fun _ => True) F)
    (prepares : ∀ s, F s → ∃ call, call.Prepares ∧ Seen (By pid (calls call)) s.trace)
    (C : Coordinator) (job : Job) (episodeId : String) (experiment : Bool) : (discipline D scope).Safe
    pid F (Billing.prepareAndReserve D C job episodeId experiment) (fun _ => F) fun _ => F := by
  have undecided : (discipline D scope).Framed pid
      (fun action => ¬ action.Decides D (D.requestId job)) F := framed.mono fun _ _ => trivial
  refine safe_withGeneration undecided fun generation => ?_
  refine (safe_marker undecided generation _).bind fun _ => ?_
  have writing : (discipline D scope).Framed pid Act.Intends fun s => F s ∧ Writer s pid (generation + 1) :=
    (framed.mono fun _ _ => trivial).and (Writer.framed.mono Act.Intends.not_writes)
  refine ((safe_prepareIntent writing ?_ (fun s holds => prepares s holds.1) _ _ _ _ _).raising fun _ _ holds => ⟨holds.1, holds.2.1⟩).bind fun prepared => ?_
  · rintro g s same holds
    exact some.inj same ▸ holds.2
  refine ((safe_passive (only_ask _) writing Act.Passive.intends).weaken (fun _ _ => id) fun _ _ holds => ⟨holds.1, holds.2.1⟩).bind
    fun month => ?_
  refine (safe_ledger undecided _ rfl).bind fun claim => ?_
  exact (safe_current undecided _ _ _).bind fun _ => fun _ _ => id

end VideoPoster.Executor
