import VideoPoster.Executor.Steps
import VideoPoster.Interleaving.RelyGuarantee

/-!
# The discipline of the writers

Who may perform which action, as a protocol: a request's row is finished only under the request's
lock and only while it is unfinished; it is marked as prepared only by the process that inserted it;
it is submitted only after the marker, by the process that wrote the marker; and everything that
carries a generation happens under the billing lock, while the file shows a marker. The invariant is
what these rules keep true of the history.
-/

namespace VideoPoster.Executor
open Python Billing Tables Interleaving Table

def Seen (p : Event actions → Prop) (trace : List (Event actions)) : Prop := ∃ e ∈ trace, p e

variable {p : Event actions → Prop} {trace : List (Event actions)}

theorem seen_cons {e : Event actions} : Seen p (e :: trace) ↔ p e ∨ Seen p trace := by
  simp [Seen]

def creates (D : Deployment) (requestId : String) : Event actions → Prop
  | ⟨_, .reserve r, .ok true⟩ => D.requestId r.job = requestId
  | _ => False

def marks (update : Update) (requestId : String) : Event actions → Prop
  | ⟨_, .change _ _ _ target made, .ok ()⟩ => target = requestId ∧ made = update
  | _ => False

def submits (D : Deployment) (requestId : String) : Event actions → Prop
  | ⟨_, .submit job, _⟩ => D.requestId job = requestId
  | _ => False

def readsPrepared (requestId : String) (mode : Mode) : Event actions → Prop
  | ⟨_, .inspect target, some row⟩ =>
    target = requestId ∧ row.status = .prepared ∧ row.mode = mode
  | _ => False

def calls (call : Call) : Event actions → Prop
  | ⟨_, .called made, _⟩ => made = call
  | _ => False

section Events
variable {D : Deployment} {requestId : String} {e : Event actions}

theorem creates_eq (created : creates D requestId e) :
    ∃ r, D.requestId r.job = requestId ∧ e = ⟨e.process, .reserve r, .ok true⟩ := by
  unfold creates at created
  split at created
  · exact ⟨_, created, rfl⟩
  · exact created.elim

theorem marks_eq {update : Update} (marked : marks update requestId e) :
    ∃ E context given, e = ⟨e.process, .change E context given requestId update, .ok ()⟩ := by
  unfold marks at marked
  split at marked
  · obtain ⟨rfl, rfl⟩ := marked
    exact ⟨_, _, _, rfl⟩
  · exact marked.elim

theorem submits_eq (submitted : submits D requestId e) :
    ∃ job response, D.requestId job = requestId ∧ e = ⟨e.process, .submit job, response⟩ := by
  unfold submits at submitted
  split at submitted
  · exact ⟨_, _, submitted, rfl⟩
  · exact submitted.elim

theorem calls_eq {call : Call} (called : calls call e) : e = ⟨e.process, .called call, ()⟩ := by
  unfold calls at called
  split at called
  · rw [called]
  · exact called.elim

end Events

def By (pid : ℕ) (p : Event actions → Prop) (e : Event actions) : Prop := e.process = pid ∧ p e

theorem Seen.of_by {pid : ℕ} (seen : Seen (By pid p) trace) : Seen p trace := by
  obtain ⟨e, member, -, holds⟩ := seen
  exact ⟨e, member, holds⟩

section Assertions
variable {D : Deployment} (s : Shared (machine D))

def Held (pid : ℕ) (lock : LockId) : Prop := s.world.locks lock = some pid

def Active (requestId : String) : Prop :=
  ∀ row, s.world.jobs.find? requestId = some row → row.status ≠ .complete ∧ row.status ≠ .overrun

def Unfinished (requestId : String) : Prop :=
  ∀ row, s.world.jobs.find? requestId = some row → row.status ≠ .complete

def HasMode (requestId : String) (mode : Mode) : Prop :=
  ∃ row, s.world.jobs.find? requestId = some row ∧ row.mode = mode

def Writer (pid : ℕ) (generation : ℕ) : Prop :=
  Held s pid .billing ∧ ∃ snapshot, s.world.snapshot = some snapshot ∧
    snapshot.status = .writerInProgress ∧ snapshot.generation = generation

def Stored (requestId : String) (generation : ℕ) : Prop :=
  ∃ row claim, s.world.jobs.find? requestId = some row ∧
    s.world.ledger.claims.find? requestId = some claim ∧ Coherent requestId generation row claim

end Assertions

def Call.External : Call → Prop
  | .callback _ _ _ _ => True
  | .checkpointProviderBinding _ _ _ => True
  | _ => False

def Call.Prepares : Call → Prop
  | .prepareIntent _ _ _ _ _ => True
  | .prepareAndReserve _ _ _ _ => True
  | _ => False

def Call.Attaches : Call → Prop
  | .attachMarker _ _ _ => True
  | _ => False

abbrev Scope := ℕ → Set Call

section Protocol
variable (D : Deployment) (scope : Scope)

def Reporter (pid : ℕ) (requestId : String) (s : Shared (machine D)) : Prop :=
  Held s pid (.request requestId) ∧ Active s requestId ∨
    ∃ call, call.External ∧ Seen (By pid (calls call)) s.trace

def Routed (pid : ℕ) (requestId : String) (s : Shared (machine D)) : Prop :=
  ∃ args : RunArgs, Seen (By pid (calls (.run args))) s.trace ∧ args.submitPrepared = true ∧
    D.requestId args.job = requestId ∧
    Seen (By pid (readsPrepared requestId args.job.mode)) s.trace

def Preparer (pid : ℕ) (requestId : String) (s : Shared (machine D)) : Prop :=
  Held s pid (.request requestId) ∧ Active s requestId ∨
    ∃ call, call.Prepares ∧ Seen (By pid (calls call)) s.trace

def GrantedChange (pid : ℕ) (s : Shared (machine D)) (requestId : String) : Update → Prop
  | .prepared => (Seen (By pid (creates D requestId)) s.trace ∧
      ¬ Seen (marks .prepared requestId) s.trace ∧ ¬ Seen (marks .submitting requestId) s.trace) ∧
      Preparer D pid requestId s
  | .submitting => Held s pid (.request requestId) ∧ Active s requestId ∧
      ¬ Seen (marks .submitting requestId) s.trace ∧
      (Seen (By pid (creates D requestId)) s.trace ∨
        Seen (marks .prepared requestId) s.trace ∧ Routed D pid requestId s)
  | .cacheKey _ => Held s pid (.request requestId) ∧ Unfinished s requestId
  | .partialPath _ => Reporter D pid requestId s
  | .finalAdmissionMarker _ => ∃ call, call.Attaches ∧ Seen (By pid (calls call)) s.trace
  | .overrun _ actual => Held s pid (.request requestId) ∧ Active s requestId ∧ 0 ≤ actual
  | .complete _ _ actual _ => Held s pid (.request requestId) ∧ Active s requestId ∧ 0 ≤ actual
  | .cacheHit _ _ _ => Held s pid (.request requestId) ∧ Active s requestId
  | .evidence _ _ => Held s pid (.request requestId) ∧ Active s requestId

def GrantedPublish (pid : ℕ) (s : Shared (machine D)) (snapshot : Snapshot) : Prop :=
  match snapshot.status with
  | .writerInProgress => Held s pid .billing ∧ snapshot.generation = s.world.generation + 1
  | .current _ _ _ => Writer s pid snapshot.generation ∧
      Stored s snapshot.requestId snapshot.generation

def Granted (pid : ℕ) (s : Shared (machine D)) : Act → Prop
  | .called call => call ∈ scope pid
  | .release lock => Held s pid lock
  | .reserve r => 0 ≤ r.cost ∧ r.authScope ≠ "" ∧ ∀ g, r.generation = some g → Writer s pid g
  | .change _ _ _ requestId update => GrantedChange D pid s requestId update
  | .bindProvider _ requestId _ _ generation => Reporter D pid requestId s ∧
      ∀ g, generation = some g → Writer s pid g
  | .pinGeneration _ _ generation => Writer s pid generation
  | .ledger op => ∀ g, op.context = some g → Writer s pid g
  | .publish snapshot => GrantedPublish D pid s snapshot
  | .submit job => Held s pid (.request (D.requestId job)) ∧
      Seen (By pid (marks .submitting (D.requestId job))) s.trace ∧
      ¬ Seen (submits D (D.requestId job)) s.trace ∧ HasMode s (D.requestId job) job.mode
  | _ => True

/-- A row as the code writes it: its binding names its own request and mode, with a scope, and its
charge is an amount. -/
structure Row.WellFormed (row : Row) : Prop where
  bound : row.settlementBinding.localRequestId = row.requestId
  endpoint : row.settlementBinding.endpointId = row.endpoint
  authority : row.settlementBinding.authorityMode = row.mode
  named : row.settlementBinding.authScope ≠ ""
  charged : 0 ≤ row.charged

structure Inv (s : Shared (machine D)) : Prop where
  wellFormed : ∀ row ∈ s.world.jobs, row.WellFormed
  absent : ∀ requestId, s.world.jobs.find? requestId = none →
    ¬ Seen (creates D requestId) s.trace ∧ ∀ update, ¬ Seen (marks update requestId) s.trace
  creator : ∀ requestId pid pid', Seen (By pid (creates D requestId)) s.trace →
    Seen (By pid' (creates D requestId)) s.trace → pid = pid'
  prepared : ∀ row ∈ s.world.jobs, row.status = .prepared →
    Seen (marks .prepared row.requestId) s.trace ∧
      ¬ Seen (marks .submitting row.requestId) s.trace
  submitted : ∀ requestId, Seen (submits D requestId) s.trace →
    Seen (marks .submitting requestId) s.trace
  inScope : ∀ pid call, Seen (By pid (calls call)) s.trace → call ∈ scope pid

end Protocol

variable {D : Deployment} {scope : Scope} {s s' : Shared (machine D)} {pid : ℕ} {action : Act}
  {response : action.Res}

variable {jobs' : Jobs} {requestId : String}

theorem JobsChange.absent {jobs : Jobs} (change : JobsChange D jobs action response jobs')
    (absent : jobs'.find? requestId = none) : jobs.find? requestId = none := by
  cases change with
  | same => exact absent
  | inserted | updated => exact find?_of_put_eq_none absent

theorem Reservation.wellFormed {r : Reservation} (cost : 0 ≤ r.cost) (named : r.authScope ≠ "") :
    (r.row D).WellFormed :=
  ⟨rfl, rfl, rfl, named, cost⟩

variable {old new : Row}

theorem RowUpdate.wellFormed (update : RowUpdate D action old new)
    (granted : Granted D scope pid s action) (wellFormed : old.WellFormed) : new.WellFormed := by
  obtain ⟨bound, endpoint, authority, named, charged⟩ := wellFormed
  cases update with
  | @changed E context given requestId update row guarded =>
    cases update with
    | prepared | submitting | cacheKey | evidence | partialPath | finalAdmissionMarker =>
      exact ⟨bound, endpoint, authority, named, charged⟩
    | cacheHit => exact ⟨bound, endpoint, authority, named, le_rfl⟩
    | overrun | complete => exact ⟨bound, endpoint, authority, named, granted.2.2⟩
  | bound | pinned | admitted | reviewed => exact ⟨bound, endpoint, authority, named, charged⟩

theorem not_about_absent (change : JobsChange D s.world.jobs action response s'.world.jobs)
    (absent : s'.world.jobs.find? requestId = none) :
    ¬ creates D requestId ⟨pid, action, response⟩ ∧ ∀ update, ¬ marks update requestId ⟨pid, action, response⟩ := by
  generalize s'.world.jobs = after at change absent
  constructor
  · intro created
    obtain ⟨r, rfl, same⟩ := creates_eq created
    cases same
    cases change with
    | same calm => exact calm trivial
    | inserted admitted => cases (find?_put_self _ _).symm.trans absent
    | updated succeeds target found update => cases update
  · intro update marked
    obtain ⟨E, context, given, same⟩ := marks_eq marked
    cases same
    cases change with
    | same calm => exact calm trivial
    | updated succeeds target found update =>
      cases target
      rw [find?_of_put_eq_none absent] at found
      cases found

theorem absent_of_creates (change : JobsChange D s.world.jobs action response jobs')
    (created : creates D requestId ⟨pid, action, response⟩) : s.world.jobs.find? requestId = none := by
  obtain ⟨r, rfl, same⟩ := creates_eq created
  cases same
  cases change with
  | same calm => exact (calm trivial).elim
  | inserted admitted => exact admitted.absent
  | updated succeeds target found update => cases update

theorem seen_performs (performs : Performs pid action response s s') :
    Seen p s'.trace ↔ p ⟨pid, action, response⟩ ∨ Seen p s.trace := by
  rw [performs_trace performs, seen_cons]

theorem RowUpdate.prepared (update : RowUpdate D action old new) (prepared : new.status = .prepared) (pid : ℕ)
    (response : action.Res) : (∃ E context given requestId, action = .change E context given requestId .prepared)
    ∨ old.status = .prepared ∧ ∀ requestId, ¬ marks .submitting requestId ⟨pid, action, response⟩ := by
  cases update with
  | @changed E context given requestId update row guarded =>
    cases update with
    | prepared => exact .inl ⟨_, _, _, _, rfl⟩
    | submitting | cacheHit | overrun | complete => cases prepared
    | cacheKey | evidence | partialPath | finalAdmissionMarker =>
      refine .inr ⟨prepared, fun target marked => ?_⟩
      obtain ⟨_, _, _, same⟩ := marks_eq marked
      cases same
  | bound => cases prepared
  | pinned | admitted | reviewed =>
    refine .inr ⟨prepared, fun target marked => ?_⟩
    obtain ⟨_, _, _, same⟩ := marks_eq marked
    cases same

theorem Inv.prepared_performs (inv : Inv D scope s) (granted : Granted D scope pid s action) (performs : Performs (M :=
    machine D) pid action response s s') {row : Row} (member : row ∈ s'.world.jobs) (prepared : row.status = .prepared)
    : Seen (marks .prepared row.requestId) s'.trace ∧ ¬ Seen (marks .submitting row.requestId) s'.trace := by
  simp only [seen_performs performs]
  have change := performs_jobs performs
  generalize s'.world.jobs = after at change member
  cases change with
  | same calm =>
    obtain ⟨marked, unmarked⟩ := inv.prepared row member prepared
    refine ⟨.inr marked, not_or.mpr ⟨fun now => ?_, unmarked⟩⟩
    obtain ⟨_, _, _, same⟩ := marks_eq now
    cases same
    exact calm trivial
  | inserted admitted =>
    rcases mem_put.mp member with rfl | ⟨old, -⟩
    · cases prepared
    · obtain ⟨marked, unmarked⟩ := inv.prepared row old prepared
      refine ⟨.inr marked, not_or.mpr ⟨fun now => ?_, unmarked⟩⟩
      obtain ⟨_, _, _, same⟩ := marks_eq now
      cases same
  | @updated _ _ before new requestId succeeds target found update =>
    obtain ⟨foundMember, key⟩ := find?_eq_some.mp found
    rcases mem_put.mp member with rfl | ⟨old, distinct⟩
    · have same : row.requestId = requestId := update.requestId.trans key
      rcases update.prepared prepared pid response with
        ⟨E, context, given, other, rfl⟩ | ⟨wasPrepared, unmarked⟩
      · cases target
        cases response with
        | error => exact succeeds.elim
        | ok =>
          rw [same]
          refine ⟨.inl ⟨rfl, rfl⟩, not_or.mpr ⟨fun now => ?_, granted.1.2.2⟩⟩
          cases now.2
      · obtain ⟨marked, before⟩ := inv.prepared before foundMember wasPrepared
        rw [update.requestId]
        exact ⟨.inr marked, not_or.mpr ⟨unmarked _, before⟩⟩
    · obtain ⟨marked, unmarked⟩ := inv.prepared row old prepared
      refine ⟨.inr marked, not_or.mpr ⟨fun now => ?_, unmarked⟩⟩
      obtain ⟨_, _, _, same⟩ := marks_eq now
      cases same
      cases target
      exact distinct (by rw [update.requestId, key])

theorem Inv.performs (inv : Inv D scope s) (granted : Granted D scope pid s action)
    (performs : Performs pid action response s s') : Inv D scope s' := by
  have change := performs_jobs performs
  constructor
  · refine change.forall ?_ (fun update => update.wellFormed granted) inv.wellFormed
    rintro r rfl
    exact Reservation.wellFormed granted.1 granted.2.1
  · intro requestId absent
    obtain ⟨notCreated, notMarked⟩ := inv.absent requestId (change.absent absent)
    obtain ⟨notCreates, notMarks⟩ := not_about_absent change absent
    simp only [seen_performs performs]
    exact ⟨not_or.mpr ⟨notCreates, notCreated⟩, fun update => not_or.mpr ⟨notMarks update, notMarked update⟩⟩
  · intro requestId first second
    simp only [seen_performs performs]
    rintro (⟨rfl, nowFirst⟩ | oldFirst) (⟨rfl, nowSecond⟩ | oldSecond)
    · rfl
    · exact absurd oldSecond.of_by (inv.absent requestId (absent_of_creates change nowFirst)).1
    · exact absurd oldFirst.of_by (inv.absent requestId (absent_of_creates change nowSecond)).1
    · exact inv.creator requestId first second oldFirst oldSecond
  · exact fun row => inv.prepared_performs granted performs
  · intro requestId
    simp only [seen_performs performs]
    rintro (now | old)
    · obtain ⟨job, _, rfl, same⟩ := submits_eq now
      cases same
      exact .inr granted.2.1.of_by
    · exact .inr (inv.submitted requestId old)
  · intro actor call
    simp only [seen_performs performs]
    rintro (⟨rfl, now⟩ | old)
    · cases calls_eq now
      exact granted
    · exact inv.inScope actor call old

theorem Inv.crash (inv : Inv D scope s) (dead : ℕ) : Inv D scope (s.crash dead) :=
  ⟨inv.wellFormed, inv.absent, inv.creator, inv.prepared, inv.submitted, inv.inScope⟩

theorem Inv.empty : Inv D scope ⟨World.empty, []⟩ := by
  constructor
  · intro row member
    cases member
  · intro requestId _
    exact ⟨by simp [Seen], by simp [Seen]⟩
  · intro requestId first second seen
    simp [Seen] at seen
  · intro row member
    cases member
  · intro requestId seen
    simp [Seen] at seen
  · intro pid call seen
    simp [Seen] at seen

def discipline (D : Deployment) (scope : Scope) : Protocol (machine D) where
  inv := Inv D scope
  grants := Granted D scope
  preserves := Inv.performs
  survives := fun pid inv => inv.crash pid

end VideoPoster.Executor
