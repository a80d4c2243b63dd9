import VideoPoster.Executor.Transactions
import VideoPoster.Interleaving.Execution

/-!
# The system around one root

Any number of processes share the executor database, the standing ledger, the snapshot file and the lock files.
-/

namespace VideoPoster.Executor
open Python Billing Tables Interleaving Prog

inductive LockId where
  | request (requestId : String)
  | worker (index : ℕ)
  | billing
  deriving DecidableEq

structure World where
  jobs : Jobs
  ledger : StandingBudget.Ledger
  snapshot : Option Snapshot
  locks : LockId → Option ℕ

def World.empty : World := ⟨.empty, .empty, none, fun _ => none⟩

structure BudgetPolicy where
  mode : Mode
  allowedProviders : List String
  requestId : String
  episodeId : String
  policySha256 : String
  episodeCapUsd : String
  monthCapUsd : String
  experimentCapUsd : String
  deriving DecidableEq

inductive Query where
  | now
  /-- The coordinator's clock; `none` if it is not an integer. -/
  | clock
  /-- The ledger's calendar month. -/
  | month
  | fileSha (path : String)
  /-- The hashes in a contact sheet's binding file. -/
  | sheetBinding (path : String)
  | contentKey (job : Job)
  | casGet (key : String)
  | casPut (key path : String)
  /-- The trust digest of the configured bridge, computed anew. -/
  | bridgeComposition
  | policy
  | jacoVerify (job : Job) (marker : FinalAdmissionMarker) (claim : StandingBudget.Claim)

abbrev Query.Res : Query → Type
  | .now => ℚ
  | .clock => Option ℤ
  | .month => Result String
  | .fileSha _ => Result String
  | .sheetBinding _ => Result (List String × String)
  | .contentKey _ => Result String
  | .casGet _ => Result (Option String)
  | .casPut _ _ => Result Unit
  | .bridgeComposition => Result String
  | .policy => Result BudgetPolicy
  | .jacoVerify _ _ _ => Result Unit

structure RunArgs where
  executor : Instance
  job : Job
  providerMode : Mode
  /-- The provider offers `recover_local`. -/
  recoversLocally : Bool := false
  authorization : Option Authorization := none
  price : Option Price := none
  settlementCheckpoint : SettlementCheckpoint := .none
  submitPrepared : Bool := false

structure Coordinator where
  executor : Instance
  ownerBinding : OwnerBinding

inductive Call where
  | run (args : RunArgs)
  | prepareIntent (executor : Instance) (job : Job) (authScope : Option String)
      (generation : Option ℕ) (owner : Option OwnerBinding)
  | bindPreparedStandingLedgerAdmission (executor : Instance) (job : Job)
  | qa (args : QaArgs)
  /-- The checkpoint callback of a run, used by the provider after the run has ended. -/
  | callback (args : RunArgs) (pinned : Bool) (providerId partialPath : String)
  | attachMarker (executor : Instance) (requestId : String) (marker : FinalAdmissionMarker)
  | prepareAndReserve (coordinator : Coordinator) (job : Job) (episodeId : String)
      (experiment : Bool)
  | checkpointProviderBinding (requestId providerId partialPath : String)
  | markUnknown (requestId : String)
  | settleVerifiedReceipt (body : String) (settlementReceipt : Dict)
  /-- A direct call on the ledger, outside any coordinator operation. -/
  | ledger (op : StandingBudget.Op)

inductive Act where
  | called (call : Call)
  | slot (paths : List LockId)
  | release (lock : LockId)
  | ask (query : Query)
  | inspect (requestId : String)
  | reserve (reservation : Reservation)
  | change (executor : Instance) (context : Option ℕ) (given : Option (Option Capability))
      (requestId : String) (update : Update)
  | bindProvider (context : Option ℕ) (requestId providerId partialPath : String)
      (generation : Option ℕ)
  | pinGeneration (context : Option ℕ) (requestId : String) (generation : ℕ)
  | bindAdmission (requestId : String) (binding : SettlementBinding) (admission : LedgerAdmission)
  | qa (context : Option ℕ) (args : QaArgs)
  | ledger (op : StandingBudget.Op)
  | readGeneration
  | publish (snapshot : Snapshot)
  | submit (job : Job)
  | recover (job : Job) (providerId partialPath : String)
  | recoverLocal (job : Job)

def Act.changed : Act → Option (String × Update)
  | .change _ _ _ requestId update => some (requestId, update)
  | _ => none

def Act.bound : Act → Option String
  | .bindProvider _ requestId _ _ _ => some requestId
  | _ => none

def Act.published : Act → Option Snapshot
  | .publish snapshot => some snapshot
  | _ => none

abbrev Act.Res : Act → Type
  | .called _ => Unit
  | .slot _ => LockId
  | .release _ => Unit
  | .ask query => query.Res
  | .inspect _ => Option Row
  | .reserve _ => Result Bool
  | .change _ _ _ _ _ => Result Unit
  | .bindProvider _ _ _ _ _ => Result Unit
  | .pinGeneration _ _ _ => Result Unit
  | .bindAdmission _ _ _ => Result Unit
  | .qa _ _ => Result Unit
  | .ledger _ => Result StandingBudget.Claim
  | .readGeneration => ℕ
  | .publish _ => Unit
  | .submit _ => ProviderRun
  | .recover _ _ _ => ProviderRun
  | .recoverLocal _ => ProviderRun

abbrev actions : Interface := ⟨Act, Act.Res⟩

structure Oracle where
  answer : (query : Query) → query.Res
  provider : ProviderRun

def World.commit (w : World) : Result Jobs → World × Result Unit
  | .ok jobs => ({ w with jobs := jobs }, .ok ())
  | .error error => (w, .error error)

def World.commitReserve (w : World) : Result (Jobs × Bool) → World × Result Bool
  | .ok (jobs, fresh) => ({ w with jobs := jobs }, .ok fresh)
  | .error error => (w, .error error)

def World.lock (w : World) (lock : LockId) (holder : Option ℕ) : World :=
  { w with locks := Function.update w.locks lock holder }

def World.generation (w : World) : ℕ := (w.snapshot.map Snapshot.generation).getD 0

def exec (D : Deployment) (oracle : Oracle) (pid : ℕ) (w : World) :
    (action : Act) → Option (World × action.Res)
  | .called _ => some (w, ())
  | .slot paths =>
    (paths.find? fun lock => w.locks lock = none).map fun lock => (w.lock lock (some pid), lock)
  | .release lock => some (w.lock lock none, ())
  | .ask query => some (w, oracle.answer query)
  | .inspect requestId => some (w, w.jobs.find? requestId)
  | .reserve reservation =>
    some (w.commitReserve
      (reserveRow D (fun path => oracle.answer (.fileSha path)) reservation w.jobs))
  | .change executor context given requestId update =>
    some (w.commit (changeRow executor context given requestId update w.jobs))
  | .bindProvider context requestId providerId partialPath generation =>
    some (w.commit
      (checkpointProviderBinding D context requestId providerId partialPath generation w.jobs))
  | .pinGeneration context requestId generation =>
    some (w.commit (setBillingSnapshotGeneration context requestId generation w.jobs))
  | .bindAdmission requestId binding admission =>
    some (w.commit (Executor.bindAdmission requestId binding admission w.jobs))
  | .qa context args =>
    some (w.commit (qaRow (fun path => oracle.answer (.fileSha path)) context args w.jobs))
  | .ledger op =>
    some ({ w with ledger := (w.ledger.step D.policy op).1 }, (w.ledger.step D.policy op).2)
  | .readGeneration => some (w, w.generation)
  | .publish snapshot => some ({ w with snapshot := some snapshot }, ())
  | .submit _ => some (w, oracle.provider)
  | .recover _ _ _ => some (w, oracle.provider)
  | .recoverLocal _ => some (w, oracle.provider)

def World.crash (pid : ℕ) (w : World) : World :=
  { w with locks := fun lock => if w.locks lock = some pid then none else w.locks lock }

abbrev machine (D : Deployment) : Machine actions where
  World := World
  Oracle := Oracle
  exec := exec D
  crash := World.crash

abbrev Program (α : Type) := Prog actions Error α

namespace Program

def ofResult {α : Type} (result : Result α) : Program α := ofExcept result

def require (condition : Prop) [Decidable condition] (error : Error) : Program Unit :=
  ofResult (Python.require condition error)

def called (call : Call) : Program Unit := .act (.called call) .pure

def slot (paths : List LockId) : Program LockId := .act (.slot paths) .pure

def release (lock : LockId) : Program Unit := .act (.release lock) .pure

def ask (query : Query) : Program query.Res := .act (.ask query) .pure

def inspect (requestId : String) : Program (Option Row) :=
  .act (.inspect requestId) .pure

def reserve (reservation : Reservation) : Program Bool :=
  request (.reserve reservation) id

def change (executor : Instance) (context : Option ℕ) (given : Option (Option Capability))
    (requestId : String) (update : Update) : Program Unit :=
  request (.change executor context given requestId update) id

def bindProvider (context : Option ℕ) (requestId providerId partialPath : String)
    (generation : Option ℕ) : Program Unit :=
  request (.bindProvider context requestId providerId partialPath generation) id

def pinGeneration (context : Option ℕ) (requestId : String) (generation : ℕ) : Program Unit :=
  request (.pinGeneration context requestId generation) id

def bindAdmission (requestId : String) (binding : SettlementBinding)
    (admission : LedgerAdmission) : Program Unit :=
  request (.bindAdmission requestId binding admission) id

def qa (context : Option ℕ) (args : QaArgs) : Program Unit :=
  request (.qa context args) id

def ledger (op : StandingBudget.Op) : Program StandingBudget.Claim :=
  request (.ledger op) id

def readGeneration : Program ℕ := .act .readGeneration .pure

def publish (snapshot : Snapshot) : Program Unit := .act (.publish snapshot) .pure

def submit (job : Job) : Program ProviderRun := .act (.submit job) .pure

def recover (job : Job) (providerId partialPath : String) : Program ProviderRun :=
  .act (.recover job providerId partialPath) .pure

def recoverLocal (job : Job) : Program ProviderRun := .act (.recoverLocal job) .pure

def withSlot {α : Type} (paths : List LockId) (body : Program α) : Program α :=
  (slot paths).bind fun lock => body.ensuring (release lock)

end Program
end VideoPoster.Executor
