import VideoPoster.Worker.Discipline

/-!
# The programs keep the discipline
-/

namespace VideoPoster.Worker
open Python Tables Interleaving Program Protocol.Safe Option EpisodeWorker Protocol.Stable

variable {plus : ℚ → ℚ → ℚ} {pid : ℕ}

def Act.Free : Act → Prop
  | .claim _ _ _ _ | .wake _ _ _ _ | .unlockWriter => False
  | _ => True

variable {action : Act}

theorem Act.Free.granted (free : action.Free) (pid : ℕ) (s : Shared (machine plus)) : Granted pid s action := by
  cases action with
  | claim | wake | unlockWriter => exact free.elim
  | _ => trivial

variable {actor : ℕ} {response : action.Res} {s s' : Shared (machine plus)}

theorem Held.keep (held : Held s pid) (granted : Granted actor s action) (own : actor = pid → action ≠ .unlockWriter)
    (performs : Performs actor action response s s') : Held s' pid := by
  obtain ⟨oracle, executed, -⟩ := performs
  rcases exec_writer executed with ⟨-, free, -⟩ | ⟨rfl, -⟩ | same
  · rw [Held, free] at held
    cases held
  · have mine : s.world.writer = some actor := granted
    exact absurd rfl (own (some.inj (mine.symm.trans held)))
  · exact same.trans held

theorem Held.framed : (discipline plus).Framed pid Act.Free (fun s => Held s pid) := by
  apply Protocol.Framed.of_keep
  · intro actor action response s s' inv granted performs harmless held
    refine held.keep granted (fun same => ?_) performs
    rintro rfl
    exact harmless same
  · intro dead s foreign held
    have alive : s.world.writer ≠ some dead := by
      rw [held]
      exact fun same => foreign (some.inj same).symm
    exact (if_neg alive).trans held

def Prepared (s : Shared (machine plus)) (pid : ℕ) (episodeId : String) (token : ℤ) : Prop :=
  Held s pid ∧ Ready s episodeId token

theorem Ready.keep {episodeId : String} {token : ℤ} (ready : Ready s episodeId token) (noClaim : claimOf ⟨actor, action,
    response⟩ = none) (performs : Performs actor action response s s') : Ready s' episodeId token := by
  obtain ⟨oracle, executed, -⟩ := performs
  refine ⟨ready.1.trans ((exec_change executed).lastEpoch_le _), ?_⟩
  rcases exec_tasks executed with ⟨same, -⟩ | ⟨old, new, step, before, after⟩
  · rw [same]
    exact ready.2
  · rw [after]
    intro row member episode epoch stored
    rcases Table.mem_put.mp member with rfl | ⟨other, -⟩
    · rcases step.epoch with ⟨_, claim, -⟩ | ⟨-, kept⟩
      · rw [noClaim] at claim
        cases claim
      · obtain ⟨row', rfl, stored'⟩ := bind_eq_some_iff.mp (kept.symm.trans stored)
        exact ready.2 row' (Table.find?_eq_some.mp before).1 (step.episode.symm.trans episode) epoch stored'
    · exact ready.2 row other episode epoch stored

theorem Prepared.framed (episodeId : String) (token : ℤ) :
    (discipline plus).Framed pid Act.Free (fun s => Prepared s pid episodeId token) := by
  apply Protocol.Framed.of_keep
  · intro actor action response s s' inv granted performs harmless prepared
    have own : actor = pid → action ≠ .unlockWriter := by
      rintro same rfl
      exact harmless same
    refine ⟨prepared.1.keep granted own performs, prepared.2.keep ?_ performs⟩
    -- A claim would be another process's, and that process would hold the lock.
    by_contra claimed
    obtain ⟨claim, is⟩ := ne_none_iff_exists'.mp claimed
    have mine : s.world.writer = some actor := (Granted.claimed granted is).1
    have same : actor = pid := some.inj (mine.symm.trans prepared.1)
    have free := harmless same
    unfold claimOf at is
    split at is
    · rename_i event
      cases event
      exact free
    · cases is
  · intro dead s foreign prepared
    have alive : s.world.writer ≠ some dead := by
      rw [prepared.1]
      exact fun same => foreign (some.inj same).symm
    exact ⟨(if_neg alive).trans prepared.1, prepared.2⟩

theorem Approved.framed {kind : Act → Prop} (episodeId expected hash : String) : (discipline plus).Framed pid kind
      (fun s => Approved pid episodeId expected hash s.trace) := by
  apply Protocol.Framed.of_keep
  · intro actor action response s s' inv granted performs _ approved
    obtain ⟨root, gate, files, member, rest⟩ := approved
    refine ⟨root, gate, files, ?_, rest⟩
    rw [performs.choose_spec.2]
    exact .tail _ member
  · exact fun _ => id

variable {α : Type} {body : Program α}

theorem safe_writing {L : Assertion (machine plus)} (framed : (discipline plus).Framed pid Act.Free L)
    (safe : (discipline plus).Safe pid (fun s => Held s pid ∧ L s) body (fun _ s => Held s pid) fun _ s => Held s pid) :
    (discipline plus).Obeys pid L (writing body) := by
  have both : (discipline plus).Framed pid Act.Free (fun s => Held s pid ∧ L s) :=
    Held.framed.and framed
  have locked : (discipline plus).Safe (ε := Error) pid L
      (.act (I := actions) .lockWriter .pure) (fun _ s => Held s pid ∧ L s) fun _ _ => True := by
    apply perform
    · exact fun _ _ _ => trivial
    · exact fun _ => both.stable
    · intro response s s' inv known performs inv'
      refine ⟨?_, framed.kept inv performs trivial trivial known⟩
      obtain ⟨oracle, executed, -⟩ := performs
      change exec plus oracle pid s.world .lockWriter = some (s'.world, response) at executed
      simp only [exec] at executed
      split at executed
      · exact (congrArg World.writer (Prod.mk.inj (some.inj executed)).1).symm
      · cases executed
  have unlocked : (discipline plus).Safe (ε := Error) pid (fun s => Held s pid)
      (.act (I := actions) .unlockWriter .pure) (fun _ _ => True) fun _ _ => True :=
    perform (fun _ _ => id) (fun _ => true)
      fun _ _ _ _ _ _ _ => trivial
  refine locked.bind fun _ => .ensuring ?_ (fun _ => unlocked) fun _ => unlocked
  have marked : (discipline plus).Safe (ε := Error) pid (fun s => Held s pid ∧ L s)
      (.act (I := actions) .mark .pure) (fun _ s => Held s pid ∧ L s) fun _ s => Held s pid :=
    both.perform trivial fun _ _ _ => trivial
  exact marked.bind fun _ => safe

section Free

variable {kind : Act → Prop}

variable {action : Act}

variable {α : Type}

theorem only_require (condition : Prop) [Decidable condition] (error : Error) :
    (Program.require condition error).Only kind :=
  .ofExcept _

theorem only_writing {body : Program α} (lock : kind .lockWriter) (mark : kind .mark)
    (unlock : kind .unlockWriter) (only : body.Only kind) : (writing body).Only kind :=
  .bind (only_act lock) fun _ => .ensuring (.bind (only_act mark) fun _ => only) (only_act unlock)

theorem only_time : time.Only Act.Free := only_act trivial

theorem only_publish : publish.Only Act.Free := only_act trivial

theorem only_acquire (episodeId runId : String) (now ttl : ℚ) : (acquire episodeId runId now ttl).Only Act.Free :=
  only_request trivial

theorem only_renew (lease : EpisodeLease) (now ttl : ℚ) : (renew lease now ttl).Only Act.Free :=
  only_request trivial

theorem only_active (lease : EpisodeLease) (episodeId workerId : String) (now : ℚ) :
    (Program.active lease episodeId workerId now).Only Act.Free :=
  .bind (only_require _ _) fun _ => only_request trivial

theorem only_timeOr (now : Option ℚ) : (timeOr now).Only Act.Free := by
  cases now with
  | none => exact only_act trivial
  | some now => trivial

theorem only_release (lease : EpisodeLease) (now : ℚ) : (release lease now).Only Act.Free :=
  .request trivial fun _ => only_request trivial

theorem only_nextPending : nextPending.Only Act.Free := by
  refine .act trivial fun selected => ?_
  cases selected with
  | none => trivial
  | some episodeId => exact .request trivial fun _ => trivial

end Free

variable {program : Program α}

theorem conforms_of_only (only : program.Only Act.Free) : (discipline plus).Conforms program :=
  Protocol.Conforms.of_only (fun pid _ free s _ => free.granted pid s) only

theorem safe_of_only {F : Assertion (machine plus)} (framed : (discipline plus).Framed pid Act.Free F)
    (only : program.Only Act.Free) : (discipline plus).Safe pid F program (fun _ => F) fun _ => F :=
  of_only (fun _ free s _ => free.granted pid s) only framed

theorem conforms_writing (only : body.Only Act.Free) : (discipline plus).Conforms (writing body) := by
  intro pid
  apply safe_writing Protocol.Framed.fact
  exact (safe_of_only Held.framed only).strengthen fun _ _ known => known.1

theorem conforms_status (episodeId : String) : (discipline plus).Conforms (status episodeId) :=
  conforms_of_only (only_request trivial)

theorem conforms_enqueue (episodeId root kind : String) :
    (discipline plus).Conforms (Program.enqueue episodeId root kind) := by
  refine (conforms_of_only (only_require _ _)).bind fun _ => ?_
  refine .bind (conforms_writing ?_) fun _ => conforms_status episodeId
  exact .act trivial fun _ => .request trivial fun _ => only_act trivial

theorem safe_active (lease : EpisodeLease) (episodeId workerId : String) (now : ℚ) :
    (discipline plus).Safe pid (fun s => Held s pid) (active lease episodeId workerId now)
      (fun _ s => Prepared s pid episodeId lease.fencingToken) fun _ s => Held s pid := by
  apply ofExcept_bind
  · intro _ required
    obtain ⟨episode, -⟩ := require_eq_ok.mp required
    apply request
    · exact fun _ _ _ => trivial
    · exact fun _ => (Prepared.framed _ _).stable
    · exact fun _ => Held.framed.stable
    · intro response value s s' ok inv held performs inv'
      have kept := Held.framed.kept inv performs trivial trivial held
      obtain ⟨oracle, executed, -⟩ := performs
      change exec plus oracle pid s.world (.assertActive lease now) = some (s'.world, response)
        at executed
      simp only [exec, some.injEq, Prod.mk.injEq] at executed
      obtain ⟨same, rfl⟩ := executed
      have active : s.world.store.Active lease now := require_eq_ok.mp ok
      have token := inv.fenced _ lease active.1
      rw [episode] at token
      refine ⟨kept, ?_⟩
      rw [Ready, ← same]
      refine ⟨token.le, fun row member is epoch stored => ?_⟩
      rw [token, ← is]
      exact inv.epochs row member epoch stored
    · intro response e s s' _ inv held performs _
      exact Held.framed.kept inv performs trivial trivial held
  · exact fun _ _ _ _ => id

section
variable (episodeId workerId : String)

variable (lease : EpisodeLease)

theorem conforms_claim (now : Option ℚ) : (discipline plus).Conforms (claim episodeId workerId lease now) := by
  refine (conforms_of_only (only_timeOr now)).bind fun now => ?_
  refine .bind (fun pid => ?_) fun _ => conforms_status episodeId
  refine safe_writing Protocol.Framed.fact (.strengthen ?_ fun _ _ known => known.1)
  refine (safe_active lease episodeId workerId now).bind fun _ => ?_
  refine .bind (Q := fun _ s => Held s pid) ?_ fun _ => ?_
  · apply request
    · exact fun _ _ => id
    · exact fun _ => Held.framed.stable
    · exact fun _ => Held.framed.stable
    · intro response value s s' _ inv prepared performs _
      have granted : Granted pid s (.claim episodeId workerId lease.fencingToken now) := prepared
      exact prepared.1.keep granted (fun _ => Act.noConfusion) performs
    · intro response e s s' _ inv prepared performs _
      have granted : Granted pid s (.claim episodeId workerId lease.fencingToken now) := prepared
      exact prepared.1.keep granted (fun _ => Act.noConfusion) performs
  · exact safe_of_only Held.framed (only_act trivial)

theorem conforms_complete (outcome : Dict) (now : Option ℚ) :
    (discipline plus).Conforms (complete episodeId workerId lease outcome now) := by
  refine .bind (.ofExcept _) fun completion => ?_
  refine .bind (conforms_writing ?_) fun _ => conforms_status episodeId
  exact .bind (only_timeOr now) fun _ => .bind (only_active _ _ _ _) fun _ =>
    .request trivial fun _ => only_act trivial

theorem conforms_retry (action : String) : (discipline plus).Conforms (retry episodeId workerId lease action) := by
  apply conforms_writing
  exact .act trivial fun _ => .bind (only_active _ _ _ _) fun _ =>
    .act trivial fun _ => .act trivial fun _ => only_act trivial

theorem conforms_unknown : (discipline plus).Conforms (unknown episodeId workerId lease) := by
  apply conforms_writing
  exact .act trivial fun _ => .bind (only_active _ _ _ _) fun _ =>
    .act trivial fun _ => .request trivial fun _ => only_act trivial

end

theorem conforms_wakeGate (episodeId gate : String) : (discipline plus).Conforms (wakeGate episodeId gate) := by
  unfold wakeGate
  cases expected : Program.expectedAction gate with
  | none => exact .raise _
  | some action =>
    refine (conforms_status episodeId).bind fun task => fun pid => ?_
    have approvedFrame : ∀ hash, (discipline plus).Framed pid Act.Free
        (fun s => Approved pid episodeId action hash s.trace) :=
      Approved.framed episodeId action
    refine .bind (Q := fun hash s => Approved pid episodeId action hash s.trace) ?_ fun hash => ?_
    · apply request
      · exact fun _ _ _ => trivial
      · exact fun hash => (approvedFrame hash).stable
      · exact fun _ => true
      · intro files hash s s' approved inv _ performs _
        refine ⟨task.root, gate, files, ?_, approved, expected⟩
        rw [performs.choose_spec.2]
        exact List.mem_cons_self
      · exact fun _ _ _ _ _ _ _ _ _ => trivial
    · refine .bind (Q := fun _ _ => True) ?_ fun changed => ?_
      · apply safe_writing (approvedFrame hash)
        have both := Held.framed.and (approvedFrame hash)
        refine .bind
          (Q := fun _ s => Held s pid ∧ Approved pid episodeId action hash s.trace) ?_ fun now => ?_
        · exact (safe_of_only both only_time).raising fun _ _ known => known.1
        refine .bind (Q := fun _ s => Held s pid) ?_ fun changed => ?_
        · apply perform
          · exact fun _ _ known => known.2
          · exact fun _ => Held.framed.stable
          · intro response s s' inv known performs _
            have granted : Granted pid s (.wake episodeId action hash now) := known.2
            exact known.1.keep granted (fun _ => Act.noConfusion) performs
        · exact (safe_of_only Held.framed only_publish).bind fun _ _ _ => id
      · exact ((conforms_of_only (only_require _ _)).bind fun _ => conforms_status episodeId) pid

section Turn
variable (worker : EpisodeWorker)

theorem only_assertCurrent (current : EpisodeLease) : (assertCurrent current).Only Act.Free :=
  .act trivial fun _ => only_request trivial

theorem only_releaseCurrent (current : EpisodeLease) : (releaseCurrent current).Only Act.Free :=
  .act trivial fun _ => only_release _ _

theorem only_beat (beats : ℕ) (current : EpisodeLease) : (worker.beat beats current).Only Act.Free := by
  induction beats generalizing current with
  | zero => trivial
  | succ beats ih =>
    refine .act trivial fun now => .bind (.attempt (only_request trivial)) fun renewed => ?_
    cases renewed with
    | ok renewed => exact ih renewed
    | error e => trivial

theorem conforms_settle (episodeId : String) (current : EpisodeLease) {body : Program Unit} (conforms :
    (discipline plus).Conforms body) : (discipline plus).Conforms (worker.settle episodeId current body) := by
  refine conforms.attempt.bind fun outcome => ?_
  cases outcome with
  | ok _ => exact conforms_of_only (only_releaseCurrent current)
  | error e =>
    refine .bind (conforms_of_only (.attempt (only_assertCurrent current))) fun asserted => ?_
    cases asserted with
    | error _ => exact .raise e
    | ok _ =>
      refine .bind ?_ fun _ => .raise e
      exact (conforms_retry _ _ _ _).ensuring (conforms_of_only (only_releaseCurrent current))

theorem conforms_conclude (episodeId : String) (current : EpisodeLease) (ending : Ending) :
    (discipline plus).Conforms (worker.conclude episodeId current ending) := by
  have finishing : ∀ outcome, (discipline plus).Conforms (worker.settle episodeId current do
        assertCurrent current
        let _ ← complete episodeId worker.workerId current outcome none
        pure ()) := by
    intro outcome
    apply conforms_settle
    exact (conforms_of_only (only_assertCurrent current)).bind fun _ =>
      (conforms_complete _ _ _ _ _).bind fun _ => .pure ()
  cases ending with
  | returned outcome => exact finishing outcome
  | raised e => exact conforms_settle worker _ _ (.raise e)
  | cancelled outcome =>
    cases outcome with
    | ok outcome => exact finishing outcome
    | error e => exact conforms_settle worker _ _ (.raise e)
  | abandoned =>
    refine .bind (conforms_of_only (only_act trivial)) fun now => ?_
    refine .bind (conforms_of_only (.attempt (only_request trivial))) fun renewed => ?_
    cases renewed with
    | error e => exact conforms_settle worker _ _ (.raise e)
    | ok renewed =>
      refine (conforms_unknown _ _ _).attempt.bind fun recorded => ?_
      cases recorded with
      | error e => exact conforms_settle worker _ _ (.raise e)
      | ok _ => exact .pure ()

theorem conforms_runOnce (invocation : Invocation) : (discipline plus).Conforms (worker.runOnce invocation) := by
  refine (conforms_of_only only_nextPending).bind fun task => ?_
  cases task with
  | none => exact .pure ()
  | some task =>
    refine .bind (conforms_of_only (only_act trivial)) fun uuid => ?_
    refine .bind (conforms_of_only (only_act trivial)) fun now => ?_
    refine .bind (conforms_of_only (.attempt (only_request trivial))) fun acquired => ?_
    cases acquired with
    | error e =>
      simp only
      split_ifs
      · exact .pure ()
      · exact .raise e
    | ok lease =>
      refine (conforms_claim _ _ _ _).bind fun claimed => ?_
      refine (conforms_of_only (only_beat worker _ _)).bind fun current => ?_
      exact conforms_conclude worker _ _ _

end Turn

theorem admits (kinds : Set Call) : (discipline plus).Admits (callsIn kinds) := by
  rintro _ ⟨call, -, rfl⟩
  cases call with
  | acquire => exact (conforms_of_only (only_acquire _ _ _ _)).discard
  | renew => exact (conforms_of_only (only_renew _ _ _)).discard
  | assertActive => exact conforms_of_only (only_request trivial)
  | release => exact conforms_of_only (only_release _ _)
  | enqueue => exact (conforms_enqueue _ _ _).discard
  | claim => exact (conforms_claim _ _ _ _).discard
  | complete => exact (conforms_complete _ _ _ _ _).discard
  | retry => exact conforms_retry _ _ _ _
  | unknown => exact conforms_unknown _ _ _
  | wakeGate => exact (conforms_wakeGate _ _).discard
  | runOnce worker invocation => exact conforms_runOnce worker invocation

end VideoPoster.Worker
