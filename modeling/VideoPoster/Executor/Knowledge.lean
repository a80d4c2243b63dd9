import VideoPoster.Executor.Discipline

/-!
# Knowledge that survives
-/

namespace VideoPoster.Executor
open Python Billing Tables Interleaving Option

variable {D : Deployment} {scope : Scope} {s s' : Shared (machine D)} {pid actor : ℕ}
  {action : Act} {response : action.Res} {requestId : String}

variable {lock : LockId}

theorem Held.unique (held : Held s pid lock) (other : Held s actor lock) : actor = pid :=
  some.inj (other.symm.trans held)

theorem Held.keep_unless_released {actor : ℕ} {action : Act} {response : action.Res} (performs : Performs (M := machine
    D) actor action response s s') (holds : action ≠ .release lock) (held : Held s pid lock) : Held s' pid lock := by
  rcases (performs_surroundings performs).locks lock with same | released | ⟨free, -⟩
  · exact same.trans held
  · exact absurd released holds
  · rw [Held, free] at held
    cases held

theorem Held.keep (granted : Granted D scope actor s action) (performs : Performs actor action
    response s s') (mine : actor = pid → action ≠ .release lock) (held : Held s pid lock) : Held s' pid lock := by
  refine held.keep_unless_released performs ?_
  rintro rfl
  exact mine (held.unique granted) rfl

theorem Held.crash {lock : LockId} {dead : ℕ} (foreign : dead ≠ pid) (held : Held s pid lock) :
    Held (s.crash dead) pid lock := by
  have other : s.world.locks lock ≠ some dead := by
    rw [show s.world.locks lock = some pid from held]
    exact fun same => foreign (some.inj same).symm
  exact (if_neg other).trans held

theorem Held.framed {lock : LockId} : (discipline D scope).Framed pid (fun action => action ≠ .release lock)
      fun s => Held s pid lock :=
  .of_keep (fun _ granted performs mine held => held.keep granted performs mine)
    fun foreign held => held.crash foreign

def Update.Concludes : Update → Prop
  | .cacheHit _ _ _ | .overrun _ _ | .complete _ _ _ _ => True
  | _ => False

variable {old new : Row}

theorem RowUpdate.concluded (update : RowUpdate D action old new)
    (finished : new.status = .complete ∨ new.status = .overrun) : new.status = old.status ∨
    ∃ E context given target update, action = .change E context given target update ∧ update.Concludes := by
  cases update with
  | @changed E context given target update row guarded =>
    cases update with
    | prepared | submitting => rcases finished with done | done <;> cases done
    | cacheHit | overrun | complete => exact .inr ⟨_, _, _, _, _, rfl, trivial⟩
    | cacheKey | evidence | partialPath | finalAdmissionMarker => exact .inl rfl
  | bound => rcases finished with done | done <;> cases done
  | pinned | admitted | reviewed => exact .inl rfl

theorem GrantedChange.held {update : Update} (granted : GrantedChange D actor s requestId update)
    (concludes : update.Concludes) : Held s actor (.request requestId) := by
  cases update with
  | cacheHit | overrun | complete => exact granted.1
  | prepared | submitting | cacheKey | evidence | partialPath | finalAdmissionMarker =>
    exact concludes.elim

variable {row : Row}

theorem finished_of_finished (granted : Granted D scope actor s action)
    (performs : Performs actor action response s s') (held : Held s pid (.request requestId)) (mine :
    actor = pid → ∀ E context given update, update.Concludes → action ≠ .change E context given requestId update)
    (found : s'.world.jobs.find? requestId = some row) (finished : row.status = .complete ∨ row.status = .overrun) :
    ∃ before, s.world.jobs.find? requestId = some before ∧ before.status = row.status := by
  have change := performs_jobs performs
  generalize s'.world.jobs = after at change found
  cases change with
  | same => exact ⟨row, found, rfl⟩
  | inserted admitted =>
    rw [Table.find?_put] at found
    split_ifs at found
    · obtain rfl := some.inj found
      rcases finished with done | done <;> cases done
    · exact ⟨row, found, rfl⟩
  | @updated _ _ old new target succeeds targeted oldFound update =>
    obtain ⟨-, key⟩ := Table.find?_eq_some.mp oldFound
    rw [Table.find?_put, update.requestId, key] at found
    split_ifs at found with same
    · obtain rfl := some.inj found
      subst same
      rcases update.concluded finished with kept | ⟨E, context, given, other, made, rfl, concludes⟩
      · exact ⟨old, oldFound, kept.symm⟩
      · cases targeted
        exact absurd rfl (mine (held.unique (GrantedChange.held granted concludes)) _ _ _ _ concludes)
    · exact ⟨row, found, rfl⟩

variable {mode : Mode}

theorem HasMode.keep (performs : Performs actor action response s s')
    (known : HasMode s requestId mode) : HasMode s' requestId mode := by
  obtain ⟨row, found, rfl⟩ := known
  obtain ⟨new, newFound, rfl | ⟨-, update⟩⟩ := (performs_jobs performs).found found
  · exact ⟨_, newFound, rfl⟩
  · exact ⟨new, newFound, congrArg Job.mode update.request⟩

theorem HasMode.unique {other : Mode} (known : HasMode s requestId mode)
    (known' : HasMode s requestId other) : mode = other := by
  obtain ⟨row, found, rfl⟩ := known
  obtain ⟨row', found', rfl⟩ := known'
  rw [some.inj (found.symm.trans found')]

theorem HasMode.before (performs : Performs actor action response s s')
    (present : s.world.jobs.find? requestId ≠ none) (known : HasMode s' requestId mode) : HasMode s requestId mode := by
  obtain ⟨row, found⟩ := ne_none_iff_exists'.mp present
  have old : HasMode s requestId row.mode := ⟨row, found, rfl⟩
  rw [known.unique (old.keep performs)]
  exact old

inductive Stage where
  | locked | unfinished | active | fresh | prepared | ready

def Stage.fact (D : Deployment) (pid : ℕ) (args : RunArgs) (s : Shared (machine D)) : Stage → Prop
  | .locked => True
  | .unfinished => Unfinished s (args.requestId D)
  | .active => Active s (args.requestId D)
  | .fresh => Active s (args.requestId D) ∧ HasMode s (args.requestId D) args.job.mode ∧
      Seen (By pid (creates D (args.requestId D))) s.trace ∧
      ¬ Seen (marks .prepared (args.requestId D)) s.trace ∧
      ¬ Seen (marks .submitting (args.requestId D)) s.trace
  | .prepared => Active s (args.requestId D) ∧ HasMode s (args.requestId D) args.job.mode ∧
      Seen (By pid (readsPrepared (args.requestId D) args.job.mode)) s.trace ∧
      Seen (marks .prepared (args.requestId D)) s.trace ∧
      ¬ Seen (marks .submitting (args.requestId D)) s.trace
  | .ready => Active s (args.requestId D) ∧ HasMode s (args.requestId D) args.job.mode ∧
      Seen (By pid (marks .submitting (args.requestId D))) s.trace ∧
      ¬ Seen (submits D (args.requestId D)) s.trace

structure Working (D : Deployment) (pid : ℕ) (args : RunArgs) (worker : Option ℕ) (stage : Stage)
    (s : Shared (machine D)) : Prop where
  held : Held s pid (.request (args.requestId D))
  slot : ∀ index, worker = some index → Held s pid (.worker index)
  called : Seen (By pid (calls (.run args))) s.trace
  fact : stage.fact D pid args s

def Act.Decides (D : Deployment) (requestId : String) : Act → Prop
  | .release lock => lock ≠ .billing
  | .change _ _ _ target update => target = requestId ∧
      (update = .prepared ∨ update = .submitting ∨ update.Concludes)
  | .submit job => D.requestId job = requestId
  | _ => False

section Keep
variable (inv : Inv D scope s) (granted : Granted D scope actor s action)
  (performs : Performs actor action response s s')
include granted performs

section
variable (held : Held s pid (.request requestId))
include held

theorem Active.keep_unless_concluded (mine : actor = pid → ∀ E context given update, update.Concludes →
    action ≠ .change E context given requestId update) (active : Active s requestId) : Active s' requestId := by
  intro row found
  by_contra finished
  have done : row.status = .complete ∨ row.status = .overrun := by
    by_contra open'
    push Not at open'
    exact finished open'
  obtain ⟨before, beforeFound, same⟩ := finished_of_finished granted performs held mine found done
  have := active before beforeFound
  rw [same] at this
  exact finished this

variable (mine : actor = pid → ¬ action.Decides D requestId)
include mine

theorem Active.keep (active : Active s requestId) : Active s' requestId :=
  active.keep_unless_concluded granted performs held fun me _ _ _ _ concludes equal =>
    mine me (equal ▸ ⟨rfl, .inr (.inr concludes)⟩)

theorem Unfinished.keep (unfinished : Unfinished s requestId) : Unfinished s' requestId := by
  intro row found done
  obtain ⟨before, beforeFound, same⟩ := finished_of_finished granted performs held
    (fun me _ _ _ _ concludes equal => mine me (equal ▸ ⟨rfl, .inr (.inr concludes)⟩)) found
    (.inl done)
  exact unfinished before beforeFound (same.trans done)

theorem not_submitting_keep
    (unmarked : ¬ Seen (marks .submitting requestId) s.trace) : ¬ Seen (marks .submitting requestId) s'.trace := by
  rw [seen_performs performs]
  rintro (now | old)
  · obtain ⟨E, context, given, same⟩ := marks_eq now
    cases same
    exact mine (held.unique granted.1) ⟨rfl, .inr (.inl rfl)⟩
  · exact unmarked old

theorem not_submits_keep
    (unsubmitted : ¬ Seen (submits D requestId) s.trace) : ¬ Seen (submits D requestId) s'.trace := by
  rw [seen_performs performs]
  rintro (now | old)
  · obtain ⟨job, _, rfl, same⟩ := submits_eq now
    cases same
    exact mine (held.unique granted.1) rfl
  · exact unsubmitted old

end

include inv in
theorem not_prepared_keep (created : Seen (By pid (creates D requestId)) s.trace)
    (mine : actor = pid → ¬ action.Decides D requestId)
    (unmarked : ¬ Seen (marks .prepared requestId) s.trace) : ¬ Seen (marks .prepared requestId) s'.trace := by
  rw [seen_performs performs]
  rintro (now | old)
  · obtain ⟨E, context, given, same⟩ := marks_eq now
    cases same
    exact mine (inv.creator requestId actor pid granted.1.1 created) ⟨rfl, .inl rfl⟩
  · exact unmarked old

include inv in
theorem Working.keep {args : RunArgs} {worker : Option ℕ} {stage : Stage} (mine : actor = pid → ¬ action.Decides
    D (args.requestId D)) (working : Working D pid args worker stage s) : Working D pid args worker stage s' := by
  obtain ⟨held, slot, called, fact⟩ := working
  have later {p : Event actions → Prop} (seen : Seen p s.trace) : Seen p s'.trace :=
    (seen_performs performs).mpr (.inr seen)
  have keeps {lock : LockId} (other : lock ≠ .billing) (locked : Held s pid lock) : Held s' pid lock :=
    locked.keep granted performs fun me equal => mine me (equal ▸ other)
  refine ⟨keeps nofun held, fun index taken => keeps nofun (slot index taken), later called, ?_⟩
  cases stage with
  | locked => trivial
  | unfinished => exact Unfinished.keep granted performs held mine fact
  | active => exact Active.keep granted performs held mine fact
  | fresh =>
    obtain ⟨active, mode, created, unprepared, unmarked⟩ := fact
    exact ⟨active.keep granted performs held mine, mode.keep performs, later created,
      not_prepared_keep inv granted performs created mine unprepared,
      not_submitting_keep granted performs held mine unmarked⟩
  | prepared =>
    obtain ⟨active, mode, read, prepared, unmarked⟩ := fact
    exact ⟨active.keep granted performs held mine, mode.keep performs, later read, later prepared,
      not_submitting_keep granted performs held mine unmarked⟩
  | ready =>
    obtain ⟨active, mode, marked, unsubmitted⟩ := fact
    exact ⟨active.keep granted performs held mine, mode.keep performs, later marked,
      not_submits_keep granted performs held mine unsubmitted⟩

end Keep

variable {args : RunArgs} {worker : Option ℕ} {stage : Stage}

theorem Working.framed : (discipline D scope).Framed pid (fun action => ¬ action.Decides D (args.requestId D))
    (Working D pid args worker stage) := by
  refine .of_keep (fun inv granted performs mine working => working.keep inv granted performs mine) ?_
  rintro dead s foreign ⟨held, slot, called, fact⟩
  refine ⟨held.crash foreign, fun index taken => (slot index taken).crash foreign, called, ?_⟩
  cases stage <;> exact fact

theorem Working.locked (working : Working D pid args worker stage s) : Working D pid args worker .locked s :=
  ⟨working.held, working.slot, working.called, trivial⟩

/-! ## The creator of a row

A row that its creator has not marked yet is marked and submitted by nobody else, lock or no lock. -/

def Creator (pid : ℕ) (requestId : String) (s : Shared (machine D)) : Prop :=
  Seen (By pid (creates D requestId)) s.trace ∧ ¬ Seen (marks .prepared requestId) s.trace ∧
    ¬ Seen (marks .submitting requestId) s.trace

theorem Creator.keep (inv : Inv D scope s)
    (granted : Granted D scope actor s action) (performs : Performs actor action response s s') (mine :
    actor = pid → ¬ action.Decides D requestId) (creator : Creator pid requestId s) : Creator pid requestId s' := by
  obtain ⟨created, unprepared, unmarked⟩ := creator
  refine ⟨(seen_performs performs).mpr (.inr created),
    not_prepared_keep inv granted performs created mine unprepared, ?_⟩
  rw [seen_performs performs]
  rintro (now | old)
  · obtain ⟨E, context, given, same⟩ := marks_eq now
    cases same
    obtain ⟨-, -, -, creator | ⟨prepared, -⟩⟩ := granted
    · exact mine (inv.creator requestId actor pid creator created) ⟨rfl, .inr (.inl rfl)⟩
    · exact unprepared prepared
  · exact unmarked old

theorem Creator.framed : (discipline D scope).Framed pid (fun action => ¬ action.Decides D requestId)
      (Creator pid requestId) :=
  .of_keep (fun inv granted performs mine creator => creator.keep inv granted performs mine)
    fun _ => id

theorem seen_framed {p : Event actions → Prop} :
    (discipline D scope).Framed pid (fun _ => True) fun s => Seen p s.trace :=
  .of_keep (fun _ _ performs _ seen => (seen_performs performs).mpr (.inr seen)) fun _ => id

def CalledExternally (pid : ℕ) (s : Shared (machine D)) : Prop :=
  ∃ call, call.External ∧ Seen (By pid (calls call)) s.trace

theorem RowUpdate.of_finished (update : RowUpdate D action old new) (granted : Granted D scope actor s action)
    (target : action.target D = some requestId) (found : s.world.jobs.find? requestId = some old) (finished : old.status
    = .complete ∨ old.status = .overrun) : (∃ E context given, action = .change E context given requestId .prepared)
    ∨ (∃ context providerId partialPath generation, action = .bindProvider context requestId providerId
    partialPath generation) ∧ CalledExternally actor s ∨ new.status = old.status ∧ new.charged = old.charged := by
  have inactive : ¬ Active s requestId := by
    intro active
    obtain ⟨incomplete, notOverrun⟩ := active old found
    rcases finished with done | done
    · exact incomplete done
    · exact notOverrun done
  cases update with
  | @changed E context given requestId update row guarded =>
    cases target
    cases update with
    | prepared => exact .inl ⟨_, _, _, rfl⟩
    | submitting | overrun | complete => exact absurd granted.2.1 inactive
    | cacheHit | evidence => exact absurd granted.2 inactive
    | cacheKey | partialPath | finalAdmissionMarker => exact .inr (.inr ⟨rfl, rfl⟩)
  | bound =>
    cases target
    rcases granted.1 with ⟨-, active⟩ | external
    · exact absurd active inactive
    · exact .inr (.inl ⟨⟨_, _, _, _, rfl⟩, external⟩)
  | pinned | admitted | reviewed => exact .inr (.inr ⟨rfl, rfl⟩)

def Act.Pins : Act → Prop
  | .release lock => lock = .billing
  | .publish _ => True
  | .bindProvider _ _ _ _ generation => generation ≠ none
  | .pinGeneration _ _ _ => True
  | .ledger op => op.context ≠ none
  | _ => False

theorem GrantedPublish.held {snapshot : Snapshot} (granted : GrantedPublish D actor s snapshot) :
    Held s actor .billing := by
  unfold GrantedPublish at granted
  split at granted
  · exact granted.1
  · exact granted.1.1

variable {generation : ℕ}

theorem Writer.keep (granted : Granted D scope actor s action)
    (performs : Performs actor action response s s') (mine : actor = pid → action ≠ .release .billing ∧
    ∀ snapshot, action ≠ .publish snapshot) (writer : Writer s pid generation) : Writer s' pid generation := by
  obtain ⟨held, marker⟩ := writer
  refine ⟨held.keep granted performs fun me => (mine me).1, ?_⟩
  rcases (performs_surroundings performs).snapshot with same | ⟨snapshot, rfl, -⟩
  · rw [same]
    exact marker
  · exact absurd rfl ((mine (held.unique (GrantedPublish.held granted))).2 snapshot)

def AtGeneration (pid generation : ℕ) (s : Shared (machine D)) : Prop :=
  Held s pid .billing ∧ s.world.generation = generation

theorem AtGeneration.framed {generation : ℕ} : (discipline D scope).Framed pid (fun
    action => action ≠ .release .billing ∧ ∀ snapshot, action ≠ .publish snapshot) (AtGeneration pid generation) := by
  refine .of_keep ?_ fun foreign at' => ⟨at'.1.crash foreign, at'.2⟩
  rintro actor action response s s' inv granted performs mine ⟨held, same⟩
  refine ⟨held.keep granted performs fun me => (mine me).1, ?_⟩
  rcases (performs_surroundings performs).snapshot with kept | ⟨snapshot, rfl, -⟩
  · exact (congrArg (fun file => (file.map Snapshot.generation).getD 0) kept).trans same
  · exact absurd rfl ((mine (held.unique (GrantedPublish.held granted))).2 snapshot)

theorem Writer.framed {generation : ℕ} : (discipline D scope).Framed pid (fun action => action ≠ .release .billing ∧
    ∀ snapshot, action ≠ .publish snapshot) fun s => Writer s pid generation :=
  .of_keep (fun _ granted performs mine writer => writer.keep granted performs mine)
    fun foreign writer => ⟨writer.1.crash foreign, writer.2⟩

structure Row.SameBinding (new old : Row) : Prop where
  generation : new.generation = old.generation
  binding : new.settlementBinding = old.settlementBinding
  request : new.request = old.request

def RowKept (requestId : String) (row : Row) (s : Shared (machine D)) : Prop :=
  row.generation ≠ none →
    ∃ later, s.world.jobs.find? requestId = some later ∧ later.SameBinding row

def ClaimKept (requestId : String) (claim : StandingBudget.Claim) (s : Shared (machine D)) : Prop :=
  claim.generation ≠ none →
    ∃ later, s.world.ledger.claims.find? requestId = some later ∧ later.SameBinding claim

theorem RowUpdate.sameBinding (update : RowUpdate D action old new) (granted : Granted D scope actor s action)
    (calm : action.Pins → ∀ generation, ¬ Writer s actor generation)
    (pinned : old.generation ≠ none) : new.SameBinding old := by
  cases update with
  | @changed E context given target update row guarded => cases update <;> exact ⟨rfl, rfl, rfl⟩
  | @bound context generation target providerId partialPath row pin writer free unknown =>
    have given := pin.resolve_left pinned
    obtain ⟨g, same⟩ := ne_none_iff_exists'.mp given
    exact absurd (granted.2 g same) (calm given g)
  | pinned writer => exact absurd granted (calm trivial _)
  | admitted | reviewed => exact ⟨rfl, rfl, rfl⟩

theorem RowKept.keep (granted : Granted D scope actor s action)
    (performs : Performs actor action response s s') (calm : action.Pins →
    ∀ generation, ¬ Writer s actor generation) (kept : RowKept requestId row s) : RowKept requestId row s' := by
  intro pinned
  obtain ⟨later, found, same⟩ := kept pinned
  obtain ⟨new, newFound, rfl | ⟨-, update⟩⟩ := (performs_jobs performs).found found
  · exact ⟨_, newFound, same⟩
  · have step := update.sameBinding granted calm (same.generation ▸ pinned)
    exact ⟨new, newFound, step.generation.trans same.generation, step.binding.trans same.binding,
      step.request.trans same.request⟩

variable {claim : StandingBudget.Claim}

theorem ClaimKept.keep (granted : Granted D scope actor s action)
    (performs : Performs actor action response s s') (calm : action.Pins →
    ∀ generation, ¬ Writer s actor generation) (kept : ClaimKept requestId claim s) : ClaimKept requestId claim s' := by
  intro pinned
  obtain ⟨later, found, same⟩ := kept pinned
  rcases (performs_surroundings performs).ledger with unchanged | ⟨op, rfl, stepped⟩
  · rw [unchanged]
    exact ⟨later, found, same⟩
  · have outside : op.context = none := by
      by_contra inside
      obtain ⟨generation, given⟩ := ne_none_iff_exists'.mp inside
      exact calm inside generation (granted generation given)
    obtain ⟨last, lastFound, step⟩ := (StandingBudget.step_change stepped).pinned outside found
      (same.generation ▸ pinned)
    exact ⟨last, lastFound, same.trans step⟩

theorem RowKept.framed {row : Row} : (discipline D scope).Framed pid (fun action => ¬ action.Pins)
      fun s => Held s pid .billing ∧ RowKept requestId row s := by
  refine .of_keep ?_ fun foreign kept => ⟨kept.1.crash foreign, kept.2⟩
  rintro actor action response s s' inv granted performs mine ⟨held, kept⟩
  exact ⟨held.keep granted performs fun me equal => mine me (equal ▸ rfl),
    kept.keep granted performs fun pins _ writer => mine (held.unique writer.1) pins⟩

theorem ClaimKept.framed : (discipline D scope).Framed pid (fun action => ¬ action.Pins)
      fun s => Held s pid .billing ∧ ClaimKept requestId claim s := by
  refine .of_keep ?_ fun foreign kept => ⟨kept.1.crash foreign, kept.2⟩
  rintro actor action response s s' inv granted performs mine ⟨held, kept⟩
  exact ⟨held.keep granted performs fun me equal => mine me (equal ▸ rfl),
    kept.keep granted performs fun pins _ writer => mine (held.unique writer.1) pins⟩

theorem stored_of_kept (coherent : Coherent requestId generation row claim) (rowKept : RowKept requestId row s)
    (claimKept : ClaimKept requestId claim s) : Stored s requestId generation := by
  obtain ⟨rowPin, claimPin, bound, endpoint, authority, request, provider, scope, providerId⟩ := coherent
  obtain ⟨row', found, sameRow⟩ := rowKept (by simp [rowPin])
  obtain ⟨claim', claimFound, sameClaim⟩ := claimKept (by simp [claimPin])
  refine ⟨row', claim', found, claimFound, ?_⟩
  rw [Coherent, Row.endpoint, Row.mode, sameRow.generation, sameRow.binding, sameRow.request,
    sameClaim.generation, sameClaim.requestId, sameClaim.provider, sameClaim.authScope,
    sameClaim.providerRequestId]
  exact ⟨rowPin, claimPin, bound, endpoint, authority, request, provider, scope, providerId⟩

theorem Stored.keep (granted : Granted D scope actor s action)
    (performs : Performs actor action response s s') (calm : action.Pins → ∀ generation,
    ¬ Writer s actor generation) (stored : Stored s requestId generation) : Stored s' requestId generation := by
  obtain ⟨row, claim, found, claimFound, coherent⟩ := stored
  have rowKept : RowKept requestId row s := fun _ => ⟨row, found, rfl, rfl, rfl⟩
  have claimKept : ClaimKept requestId claim s := fun _ => ⟨claim, claimFound, .refl claim⟩
  exact stored_of_kept coherent (rowKept.keep granted performs calm) (claimKept.keep granted performs calm)

end VideoPoster.Executor
