import VideoPoster.Worker.Ownership

/-!
# Turns that lose the race
-/

namespace VideoPoster.Worker
open Python Tables Interleaving List Program Protocol.Safe LeaseStore World Protocol.Conforms Option String EpisodeWorker Table Protocol.Sound Prod Config

variable {plus : ℚ → ℚ → ℚ} {pid : ℕ}

def turnCalls : Set Call := fun
  | .runOnce _ _ | .enqueue _ _ _ | .wakeGate _ _ => True
  | _ => False

/-! ## Run ids -/

section Trace
variable (trace : List (Event actions))

def Drew (pid : ℕ) (uuid : String) : Prop := (⟨pid, .uuid4, uuid⟩ : Event actions) ∈ trace

def Runs (pid : ℕ) (runId : String) : Prop :=
  ∃ workerId uuid, Drew trace pid uuid ∧ runId = workerId ++ ":" ++ uuid

def Asked (runId : String) : Prop :=
  ∃ e ∈ trace, ∃ episodeId now ttl, e.action = .acquire episodeId runId now ttl

def Claimed (pid : ℕ) : Prop := ∃ e ∈ trace, e.process = pid ∧ claimOf e ≠ none

end Trace

section Mono
variable {trace : List (Event actions)} {runId : String}

theorem Runs.cons (runs : Runs trace pid runId) (e : Event actions) : Runs (e :: trace) pid runId := by
  obtain ⟨workerId, uuid, drew, is⟩ := runs
  exact ⟨workerId, uuid, .tail _ drew, is⟩

theorem Asked.cons (asked : Asked trace runId) (e : Event actions) : Asked (e :: trace) runId := by
  obtain ⟨a, member, is⟩ := asked
  exact ⟨a, .tail _ member, is⟩

theorem Claimed.cons (claimed : Claimed trace pid) (e : Event actions) : Claimed (e :: trace) pid := by
  obtain ⟨a, member, is⟩ := claimed
  exact ⟨a, .tail _ member, is⟩

end Mono

structure TurnInv (s : Shared (machine plus)) : Prop where
  drawn : ∀ pid uuid, Drew s.trace pid uuid → uuid ∈ s.world.uuids ∧ uuid.length = 32
  unique : ∀ p q uuid, Drew s.trace p uuid → Drew s.trace q uuid → p = q
  asked : ∀ runId, Asked s.trace runId → ∃ pid, Runs s.trace pid runId
  rows : ∀ row ∈ s.world.store.leases, Asked s.trace row.runId
  shown : ∀ pid lease now response,
    (⟨pid, .assertActive lease now, response⟩ : Event actions) ∈ s.trace →
    Runs s.trace pid lease.runId ∧ Asked s.trace lease.runId

theorem append_uuid_inj {w w' u u' : String} (same : w ++ ":" ++ u = w' ++ ":" ++ u')
    (length : u.length = u'.length) : u = u' := by
  have lists := congrArg String.toList same
  simp only [toList_append] at lists
  exact String.toList_inj.mp (append_inj_right' lists (by simpa only [String.length_toList]))

variable {s : Shared (machine plus)} {runId : String}

theorem Runs.unique {p q : ℕ} (inv : TurnInv s)
    (runs : Runs s.trace p runId) (runs' : Runs s.trace q runId) : p = q := by
  obtain ⟨w, u, drew, rfl⟩ := runs
  obtain ⟨w', u', drew', same⟩ := runs'
  have length := (inv.drawn p u drew).2.trans (inv.drawn q u' drew').2.symm
  cases append_uuid_inj same length
  exact inv.unique p q u drew drew'

/-! ## The protocol -/

section Assertions
variable (s : Shared (machine plus))

def OwnRow (lease : EpisodeLease) : Prop :=
  ∀ row ∈ s.world.store.leases, row.runId = lease.runId → row = lease

def Mine (pid : ℕ) (runId : String) : Prop :=
  Runs s.trace pid runId ∧ Asked s.trace runId ∧ Claimed s.trace pid

def Unused (pid : ℕ) (lease : EpisodeLease) : Prop :=
  Runs s.trace pid lease.runId ∧ Asked s.trace lease.runId ∧ OwnRow s lease

def Fresh (pid : ℕ) (runId : String) : Prop := Runs s.trace pid runId ∧ ¬ Asked s.trace runId

end Assertions

def TurnGranted (pid : ℕ) (s : Shared (machine plus)) : Act → Prop
  | .acquire _ runId _ _ => Fresh s pid runId
  | .renew lease _ _ => Mine s pid lease.runId
  | .assertActive lease _ => Mine s pid lease.runId ∨ Unused s pid lease
  | _ => True

variable {episodeId : String} {lease : EpisodeLease}

theorem acquire_leases {store store' : LeaseStore} {now ttl : ℚ} (acquired : store.acquire plus
    episodeId runId now ttl = .ok (lease, store')) : store'.leases = store.leases.put lease ∧ lease.runId = runId := by
  rcases acquire_eq_ok acquired with ⟨-, granted⟩ | ⟨_, -, -, -, rfl, rfl⟩
  · obtain ⟨rfl, rfl⟩ := mk.inj granted
    exact ⟨rfl, rfl⟩
  · exact ⟨rfl, rfl⟩

variable {oracle : Oracle} {w w' : World} {action : Act} {response : action.Res}

section
variable (executed : exec plus oracle pid w action = some (w', response))
include executed

theorem row_of_exec {row : EpisodeLease} (member : row ∈ w'.store.leases) : row ∈ w.store.leases ∨
    (∃ episodeId now ttl, (⟨pid, action, response⟩ : Event actions) = ⟨pid, .acquire episodeId row.runId now ttl,
    (.ok row : Result EpisodeLease)⟩) ∨ ∃ lease now ttl, action = .renew lease now ttl ∧ lease.runId = row.runId := by
  cases action with
  | acquire episodeId runId now ttl =>
    obtain ⟨rfl, -⟩ | ⟨lease, store, acquired, rfl, rfl⟩ := leased_cases executed
    · exact .inl member
    · obtain ⟨put, rfl⟩ := acquire_leases acquired
      rw [put] at member
      rcases mem_put.mp member with rfl | ⟨old, -⟩
      · exact .inr (.inl ⟨episodeId, now, ttl, rfl⟩)
      · exact .inl old
  | renew lease now ttl =>
    obtain ⟨rfl, -⟩ | ⟨renewed, store, renewal, rfl, rfl⟩ := leased_cases executed
    · exact .inl member
    · obtain ⟨-, -, -, run, put⟩ := renew_change renewal
      simp only [put] at member
      rcases mem_put.mp member with rfl | ⟨old, -⟩
      · exact .inr (.inr ⟨lease, now, ttl, rfl, run.symm⟩)
      · exact .inl old
  | delete lease =>
    obtain ⟨rfl, -⟩ | ⟨store, deletion, rfl⟩ := released_cases executed
    · exact .inl member
    · obtain ⟨-, rfl⟩ := delete_change deletion
      exact .inl (mem_delete.mp member).1
  | _ =>
    rw [store_kept executed (by simp) (by simp) (by simp)] at member
    exact .inl member

theorem uuids_of_exec : (∃ uuid, (⟨pid, action, response⟩ : Event actions) = ⟨pid, .uuid4, uuid⟩ ∧
    uuid.length = 32 ∧ uuid ∉ w.uuids ∧ w'.uuids = uuid :: w.uuids) ∨ action ≠ .uuid4 ∧ w'.uuids = w.uuids := by
  cases action with
  | uuid4 =>
    simp only [exec] at executed
    split at executed
    · rename_i fresh
      cases executed
      exact .inl ⟨_, rfl, fresh.1, fresh.2, rfl⟩
    · cases executed
  | lockWriter =>
    simp only [exec] at executed
    split at executed <;> cases executed
    exact .inr ⟨by simp, rfl⟩
  | acquire | renew =>
    simp only [exec, leased, some.injEq] at executed
    split at executed <;> cases executed <;> exact .inr ⟨by simp, rfl⟩
  | delete =>
    simp only [exec, released, some.injEq] at executed
    split at executed <;> cases executed <;> exact .inr ⟨by simp, rfl⟩
  | enqueue | claim | complete | unknown =>
    simp only [exec, commit, some.injEq] at executed
    split at executed <;> cases executed <;> exact .inr ⟨by simp, rfl⟩
  | _ =>
    cases executed
    exact .inr ⟨by simp, rfl⟩

end

section Step
variable {action : Act} {response : action.Res} {s s' : Shared (machine plus)}

theorem drew_cons {e : Event actions} {trace : List (Event actions)} {p : ℕ} {uuid : String}
    (drew : Drew (e :: trace) p uuid) : e = ⟨p, .uuid4, uuid⟩ ∨ Drew trace p uuid := by
  rcases mem_cons.mp drew with is | earlier
  · exact .inl is.symm
  · exact .inr earlier

theorem TurnInv.step (inv : TurnInv s) (granted : TurnGranted pid s action)
    (performs : Performs pid action response s s') : TurnInv s' := by
  obtain ⟨oracle, executed, extended⟩ := performs
  have uuids := uuids_of_exec executed
  refine ⟨?_, ?_, ?_, ?_, ?_⟩ <;> rw [extended]
  · intro p uuid drew
    rcases uuids with ⟨new, is, length, -, stored⟩ | ⟨other, stored⟩ <;> rw [stored]
    · rcases drew_cons drew with same | earlier
      · rw [is] at same
        cases same
        exact ⟨mem_cons_self, length⟩
      · exact ⟨.tail _ (inv.drawn p uuid earlier).1, (inv.drawn p uuid earlier).2⟩
    · rcases drew_cons drew with same | earlier
      · cases same
        exact absurd rfl other
      · exact inv.drawn p uuid earlier
  · intro p q uuid drew drew'
    -- The one new draw is of an identifier that was not drawn before.
    have late : ∀ r r', (⟨pid, action, response⟩ : Event actions) = ⟨r, .uuid4, uuid⟩ → ¬ Drew s.trace r' uuid := by
      intro r r' same earlier
      rcases uuids with ⟨new, is, -, fresh, -⟩ | ⟨other, -⟩
      · rw [is] at same
        cases same
        exact fresh (inv.drawn r' _ earlier).1
      · cases same
        exact other rfl
    rcases drew_cons drew with same | earlier <;> rcases drew_cons drew' with same' | earlier'
    · exact congrArg Event.process (same.symm.trans same')
    · exact absurd earlier' (late p q same)
    · exact absurd earlier (late q p same')
    · exact inv.unique p q uuid earlier earlier'
  · rintro runId ⟨e, member, episodeId, now, ttl, is⟩
    rcases mem_cons.mp member with rfl | earlier
    · simp only at is
      subst is
      exact ⟨pid, granted.1.cons _⟩
    · obtain ⟨p, runs⟩ := inv.asked runId ⟨e, earlier, episodeId, now, ttl, is⟩
      exact ⟨p, runs.cons _⟩
  · intro row member
    rcases row_of_exec executed member with old | ⟨episodeId, now, ttl, is⟩ | ⟨lease, now, ttl, is, run⟩
    · exact (inv.rows row old).cons _
    · exact ⟨_, mem_cons_self, episodeId, now, ttl, congrArg Event.action is⟩
    · subst is
      rw [← run]
      exact granted.2.1.cons _
  · intro p lease now answer member
    rcases mem_cons.mp member with same | earlier
    · cases same
      rcases granted with mine | unused
      · exact ⟨mine.1.cons _, mine.2.1.cons _⟩
      · exact ⟨unused.1.cons _, unused.2.1.cons _⟩
    · obtain ⟨runs, asked⟩ := inv.shown p lease now answer earlier
      exact ⟨runs.cons _, asked.cons _⟩

end Step

theorem TurnInv.initial (start : ℚ) : TurnInv (⟨new start, []⟩ : Shared (machine plus)) := by
  have none : ∀ p uuid, ¬ Drew [] p uuid := fun _ _ drew => not_mem_nil drew
  refine ⟨fun p uuid drew => absurd drew (none p uuid), fun p _ uuid drew => absurd drew (none p uuid), ?_, ?_, ?_⟩
  · rintro runId ⟨e, member, -⟩
    exact absurd member not_mem_nil
  · exact fun row member => absurd member not_mem_nil
  · exact fun p lease now response member => absurd member not_mem_nil

theorem TurnInv.crash (dead : ℕ) (inv : TurnInv s) : TurnInv (s.crash dead) :=
  ⟨inv.drawn, inv.unique, inv.asked, inv.rows, inv.shown⟩

def turns (plus : ℚ → ℚ → ℚ) : Protocol (machine plus) where
  inv := TurnInv
  grants := TurnGranted
  preserves inv granted performs := inv.step granted performs
  survives := TurnInv.crash

/-! ## What a turn knows -/

theorem Mine.framed (kind : Act → Prop) (runId : String) :
    (turns plus).Framed pid kind (fun s => Mine s pid runId) := by
  apply Protocol.Framed.of_keep
  · intro actor action response s s' inv granted performs _ mine
    rw [Mine, performs.choose_spec.2]
    exact ⟨mine.1.cons _, mine.2.1.cons _, mine.2.2.cons _⟩
  · exact fun _ => id

theorem OwnRow.keep {actor : ℕ} {s' : Shared (machine plus)} (own : OwnRow s lease) (foreign : ∀ episodeId now ttl,
    action ≠ .acquire episodeId lease.runId now ttl) (foreign' : ∀ other now ttl, action = .renew other now ttl →
    other.runId ≠ lease.runId) (performs : Performs actor action response s s') : OwnRow s' lease := by
  obtain ⟨oracle, executed, -⟩ := performs
  intro row member same
  rcases row_of_exec executed member with old | ⟨episodeId, now, ttl, is⟩ | ⟨other, now, ttl, is, run⟩
  · exact own row old same
  · have made : action = .acquire episodeId row.runId now ttl := congrArg Event.action is
    rw [same] at made
    exact absurd made (foreign episodeId now ttl)
  · exact absurd (run.trans same) (foreign' other now ttl is)

def Act.Aside : Act → Prop
  | .acquire _ _ _ _ | .renew _ _ _ | .assertActive _ _ => False
  | _ => True

theorem Act.Aside.granted (aside : action.Aside) (pid : ℕ) (s : Shared (machine plus)) : TurnGranted pid s action := by
  cases action with
  | acquire | renew | assertActive => exact aside.elim
  | _ => trivial

def Act.Looks (lease : EpisodeLease) : Act → Prop
  | .assertActive shown _ => shown = lease
  | action => action.Aside

theorem Unused.framed (lease : EpisodeLease) :
    (turns plus).Framed pid (Act.Looks lease) (fun s => Unused s pid lease) := by
  apply Protocol.Framed.of_keep
  · intro actor action response s s' inv granted performs harmless unused
    obtain ⟨runs, asked, own⟩ := unused
    have extended := performs.choose_spec.2
    refine ⟨by rw [extended]; exact runs.cons _, by rw [extended]; exact asked.cons _, ?_⟩
    apply own.keep ?_ ?_ performs
    · rintro episodeId now ttl rfl
      exact granted.2 asked
    · rintro other now ttl rfl same
      have others : Runs s.trace actor lease.runId := same ▸ granted.1
      exact harmless (Runs.unique inv others runs)
  · exact fun _ => id

theorem Fresh.framed (runId : String) : (turns plus).Framed pid Act.Aside (fun s => Fresh s pid runId) := by
  apply Protocol.Framed.of_keep
  · intro actor action response s s' inv granted performs harmless fresh
    rw [Fresh, performs.choose_spec.2]
    refine ⟨fresh.1.cons _, ?_⟩
    rintro ⟨e, member, episodeId, now, ttl, is⟩
    rcases mem_cons.mp member with rfl | earlier
    · simp only at is
      subst is
      exact harmless (Runs.unique inv granted.1 fresh.1)
    · exact fresh.2 ⟨e, earlier, episodeId, now, ttl, is⟩
  · exact fun _ => id

/-! ## The programs of a turn -/

variable {α : Type} {program : Program α}

theorem safe_aside {F : Assertion (machine plus)} (framed : (turns plus).Framed pid Act.Aside F)
    (only : program.Only Act.Aside) : (turns plus).Safe pid F program (fun _ => F) fun _ => F :=
  of_only (fun _ aside s _ => aside.granted pid s) only framed

theorem conforms_aside (only : program.Only Act.Aside) : (turns plus).Conforms program :=
  of_only (fun pid _ aside s _ => aside.granted pid s) only

def Act.Uses (runId : String) : Act → Prop
  | .acquire _ _ _ _ => False
  | .renew lease _ _ | .assertActive lease _ => lease.runId = runId
  | _ => True

theorem safe_uses (only : program.Only (Act.Uses runId)) : (turns plus).Safe pid (fun s => Mine s pid runId)
    program (fun _ s => Mine s pid runId) fun _ s => Mine s pid runId := by
  apply within (Mine.framed _ runId) ?_ only
  intro action uses s _ mine
  cases action with
  | acquire => exact uses.elim
  | renew lease now ttl =>
    cases uses
    exact mine
  | assertActive lease now =>
    cases uses
    exact .inl mine
  | _ => trivial

section Uses
variable (worker : EpisodeWorker) (lease : EpisodeLease)

theorem uses_active (episodeId workerId : String) (now : ℚ) :
    (active lease episodeId workerId now).Only (Act.Uses lease.runId) :=
  .bind (only_require _ _) fun _ => only_request rfl

theorem uses_assertCurrent : (assertCurrent lease).Only (Act.Uses lease.runId) :=
  .act trivial fun _ => only_request rfl

theorem uses_releaseCurrent : (releaseCurrent lease).Only (Act.Uses lease.runId) :=
  .act trivial fun _ => .bind (only_request rfl) fun _ => only_request trivial

theorem uses_complete (episodeId workerId : String) (outcome : Dict) :
    (complete episodeId workerId lease outcome none).Only (Act.Uses lease.runId) :=
  .bind (.ofExcept _) fun _ => .bind (only_writing trivial trivial trivial
    (.act trivial fun _ => .bind (uses_active _ _ _ _) fun _ =>
      .request trivial fun _ => only_act trivial)) fun _ => only_request trivial

theorem uses_retry (episodeId workerId action : String) :
    (retry episodeId workerId lease action).Only (Act.Uses lease.runId) :=
  only_writing trivial trivial trivial
    (.act trivial fun _ => .bind (uses_active _ _ _ _) fun _ =>
      .act trivial fun _ => .act trivial fun _ => only_act trivial)

theorem uses_unknown (episodeId workerId : String) : (unknown episodeId workerId lease).Only (Act.Uses lease.runId) :=
  only_writing trivial trivial trivial
    (.act trivial fun _ => .bind (uses_active _ _ _ _) fun _ =>
      .act trivial fun _ => .request trivial fun _ => only_act trivial)

theorem uses_settle (episodeId : String) {body : Program Unit} (uses : body.Only (Act.Uses lease.runId)) :
    (worker.settle episodeId lease body).Only (Act.Uses lease.runId) := by
  refine .bind (.attempt uses) fun outcome => ?_
  cases outcome with
  | ok _ => exact uses_releaseCurrent lease
  | error e =>
    refine .bind (.attempt (uses_assertCurrent lease)) fun asserted => ?_
    cases asserted with
    | error _ => trivial
    | ok _ =>
      exact .bind (.ensuring (uses_retry lease _ _ _) (uses_releaseCurrent lease)) fun _ => trivial

theorem uses_finish (episodeId : String) (outcome : Dict) : (worker.settle episodeId lease do
      assertCurrent lease
      let _ ← complete episodeId worker.workerId lease outcome none
      pure ()).Only (Act.Uses lease.runId) := by
  apply uses_settle
  exact .bind (uses_assertCurrent lease) fun _ => .bind (uses_complete lease _ _ _) fun _ => trivial

end Uses

theorem safe_clock (runId : String) :
    (turns plus).Safe pid (fun s => Mine s pid runId) time (fun _ s => Mine s pid runId) fun _ _ => True := by
  have uses : time.Only (Act.Uses runId) := only_act trivial
  exact (safe_uses uses).raising fun _ _ _ => trivial

theorem safe_renew (current : EpisodeLease) (now ttl : ℚ) : (turns plus).Safe pid (fun s => Mine s pid current.runId)
    (renew current now ttl) (fun renewed s => Mine s pid renewed.runId) fun _ s => Mine s pid current.runId := by
  apply request
  · exact fun _ _ => id
  · exact fun renewed => (Mine.framed Act.Aside _).stable
  · exact fun _ => (Mine.framed Act.Aside _).stable
  · intro response renewed s s' ok inv mine performs _
    have run : renewed.runId = current.runId := by
      obtain ⟨oracle, executed, -⟩ := performs
      obtain ⟨-, _, rfl⟩ | ⟨_, _, renewal, rfl, -⟩ := leased_cases executed
      · cases ok
      · cases ok
        exact (renew_change renewal).2.2.2.1
    rw [run]
    exact (Mine.framed (fun _ => True) _).kept inv performs mine trivial mine
  · intro response e s s' _ inv mine performs _
    exact (Mine.framed (fun _ => True) _).kept inv performs mine trivial mine

section Turn
variable (worker : EpisodeWorker)

theorem safe_beat (beats : ℕ) (current : EpisodeLease) : (turns plus).Safe pid (fun s => Mine s pid current.runId)
    (worker.beat beats current) (fun current' s => Mine s pid current'.runId) fun _ _ => True := by
  induction beats generalizing current with
  | zero => exact fun _ _ => id
  | succ beats ih =>
    refine (safe_clock current.runId).bind fun now => ?_
    exact (safe_renew current now _).attempt_bind (fun renewed => ih renewed) fun _ _ _ => id

theorem safe_settle (episodeId : String) (current : EpisodeLease) {body : Program Unit}
    (uses : body.Only (Act.Uses current.runId)) : (turns plus).Obeys pid (fun s => Mine s pid current.runId)
    (worker.settle episodeId current body) :=
  (safe_uses (uses_settle worker current episodeId uses)).obeys

theorem safe_conclude (episodeId : String) (current : EpisodeLease) (ending : Ending) : (turns plus).Obeys pid (fun
    s => Mine s pid current.runId) (worker.conclude episodeId current ending) := by
  have finishing : ∀ outcome, (turns plus).Obeys pid (fun s => Mine s pid current.runId)
      (worker.conclude episodeId current (.returned outcome)) := fun outcome =>
    (safe_uses (uses_finish worker current episodeId outcome)).obeys
  cases ending with
  | returned outcome => exact finishing outcome
  | raised e => exact safe_settle worker _ _ trivial
  | cancelled outcome =>
    cases outcome with
    | ok outcome => exact finishing outcome
    | error e => exact safe_settle worker _ _ trivial
  | abandoned =>
    refine (safe_clock current.runId).bind fun now => ?_
    refine (safe_renew current now _).attempt_bind (fun renewed => ?_) fun e => safe_settle worker _ _ trivial
    exact (safe_uses (uses_unknown renewed _ _)).attempt_bind (fun _ _ _ _ => trivial)
      fun e => safe_settle worker _ _ trivial

/-! ## Up to the claim -/

theorem safe_looks {α : Type} {program : Program α} {lease : EpisodeLease} (only : program.Only (Act.Looks lease)) :
    (turns plus).Safe pid (fun s => Unused s pid lease) program (fun _ s => Unused s pid lease)
      fun _ s => Unused s pid lease := by
  apply within (Unused.framed lease) ?_ only
  intro action looks s _ unused
  cases action with
  | acquire | renew => exact looks.elim
  | assertActive shown now =>
    cases looks
    exact .inr unused
  | _ => trivial

theorem safe_claim (lease : EpisodeLease) (episodeId workerId : String) : (turns plus).Safe pid (fun s => Unused
    s pid lease) (claim episodeId workerId lease none) (fun _ s => Mine s pid lease.runId) fun _ _ => True := by
  have time : time.Only (Act.Looks lease) := only_act trivial
  have lock : (Prog.act .lockWriter .pure : Program Unit).Only (Act.Looks lease) :=
    only_act trivial
  have mark : (Prog.act .mark .pure : Program Unit).Only (Act.Looks lease) :=
    only_act trivial
  have unlock : (Prog.act .unlockWriter .pure : Program Unit).Only Act.Aside :=
    only_act trivial
  have looking : ∀ now, (active lease episodeId workerId now).Only (Act.Looks lease) :=
    fun now => .bind (only_require _ _) fun _ => only_request rfl
  have claiming : ∀ now, (turns plus).Safe pid (fun s => Unused s pid lease)
      (Prog.request (.claim episodeId workerId lease.fencingToken now) id)
      (fun _ s => Mine s pid lease.runId) fun (_ : Error) _ => True := by
    intro now
    apply request
    · exact fun _ _ _ => trivial
    · exact fun _ => (Mine.framed Act.Aside _).stable
    · exact fun _ => Protocol.Stable.true
    · intro response value s s' ok inv unused performs _
      rw [id] at ok
      subst ok
      rw [Mine, performs.choose_spec.2]
      exact ⟨unused.1.cons _, unused.2.1.cons _, _, mem_cons_self, rfl, nofun⟩
    · exact fun _ _ _ _ _ _ _ _ _ => trivial
  have keeping : ∀ {α : Type} {program : Program α}, program.Only (Act.Uses lease.runId) →
      (turns plus).Safe pid (fun s => Mine s pid lease.runId) program
        (fun _ s => Mine s pid lease.runId) fun _ _ => True := fun only =>
    (safe_uses only).raising fun _ _ _ => trivial
  have forget : ∀ {α : Type} {program : Program α}, program.Only (Act.Looks lease) →
      (turns plus).Safe pid (fun s => Unused s pid lease) program
        (fun _ s => Unused s pid lease) fun _ _ => True := fun only =>
    (safe_looks only).raising fun _ _ _ => trivial
  refine (forget time).bind fun now => ?_
  refine .bind (Q := fun _ s => Mine s pid lease.runId) ?_ fun _ =>
    keeping (only_request trivial)
  refine (forget lock).bind fun _ => .ensuring (B := fun _ _ => True) ?_
    (fun _ => keeping (only_act trivial)) fun _ => conforms_aside unlock pid
  exact (forget mark).bind fun _ => (forget (looking now)).bind fun _ => (claiming now).bind fun _ =>
    keeping (only_act trivial)

theorem safe_uuid4 : (turns plus).Safe pid (fun _ => True) uuid4
      (fun uuid s => ∀ workerId, Fresh s pid (workerId ++ ":" ++ uuid)) fun _ _ => True := by
  apply perform
  · exact fun _ _ _ => trivial
  · exact fun uuid => (Protocol.Framed.forall fun workerId => Fresh.framed _).stable
  · intro uuid s s' inv _ performs _ workerId
    obtain ⟨oracle, executed, extended⟩ := performs
    rw [Fresh, extended]
    refine ⟨⟨workerId, uuid, mem_cons_self, rfl⟩, ?_⟩
    rintro ⟨e, member, episodeId, now, ttl, is⟩
    rcases mem_cons.mp member with rfl | earlier
    · cases is
    · obtain ⟨q, w, u, drew, same⟩ := inv.asked _ ⟨e, earlier, episodeId, now, ttl, is⟩
      obtain ⟨known, length⟩ := inv.drawn q u drew
      change exec plus oracle pid s.world .uuid4 = some (s'.world, uuid) at executed
      rcases uuids_of_exec executed with ⟨new, made, length', fresh, -⟩ | ⟨other, -⟩
      · cases made
        cases append_uuid_inj same (length'.trans length.symm)
        exact fresh known
      · exact other rfl

theorem safe_acquire (episodeId runId : String) (now ttl : ℚ) : (turns plus).Safe pid (fun s => Fresh s pid runId)
    (acquire episodeId runId now ttl) (fun lease s => Unused s pid lease) fun _ _ => True := by
  apply request
  · exact fun _ _ => id
  · exact fun lease => (Unused.framed lease).stable
  · exact fun _ => Protocol.Stable.true
  · intro response lease s s' ok inv fresh performs _
    rw [id] at ok
    subst ok
    obtain ⟨put, rfl⟩ := acquire_leases (acquired_of_performs performs)
    rw [Unused, performs.choose_spec.2]
    refine ⟨fresh.1.cons _, ⟨_, mem_cons_self, episodeId, now, ttl, rfl⟩, ?_⟩
    intro row member same
    rw [put] at member
    rcases mem_put.mp member with is | ⟨old, -⟩
    · exact is
    · exact absurd (same ▸ inv.rows row old) fresh.2
  · exact fun _ _ _ _ _ _ _ _ _ => trivial

theorem turns_runOnce (invocation : Invocation) : (turns plus).Conforms (worker.runOnce invocation) := by
  have pending : nextPending.Only Act.Aside := by
    refine .act trivial fun selected => ?_
    cases selected with
    | none => trivial
    | some episodeId => exact .request trivial fun _ => trivial
  intro pid
  refine .bind (conforms_aside pending pid) fun task => ?_
  cases task with
  | none => exact fun _ _ _ => trivial
  | some task =>
    refine safe_uuid4.bind fun uuid => ?_
    have clock : (turns plus).Safe pid (fun s => ∀ workerId, Fresh s pid (workerId ++ ":" ++ uuid)) time
        (fun _ s => Fresh s pid (worker.workerId ++ ":" ++ uuid)) fun _ _ => True := by
      have aside : time.Only Act.Aside := only_act trivial
      exact (safe_aside (Fresh.framed _) aside).consequence (fun _ _ fresh => fresh _)
        (fun _ _ => id) fun _ _ _ => trivial
    refine clock.bind fun now => ?_
    refine (safe_acquire _ _ _ _).attempt_bind (fun lease => ?_) fun e => ?_
    · refine (safe_claim lease _ _).bind fun claimed => ?_
      refine (safe_beat worker _ lease).bind fun current => ?_
      exact safe_conclude worker _ current _
    · simp only
      split_ifs
      · exact fun _ _ _ => trivial
      · exact fun _ _ _ => trivial

end Turn

theorem turns_admits : (turns plus).Admits (callsIn turnCalls) := by
  rintro _ ⟨call, within, rfl⟩
  cases call with
  | runOnce worker invocation => exact turns_runOnce worker invocation
  | enqueue episodeId root kind =>
    refine discard (conforms_aside ?_)
    exact .bind (only_require _ _) fun _ => .bind (only_writing trivial trivial trivial
      (.act trivial fun _ => .request trivial fun _ => only_act trivial))
      fun _ => only_request trivial
  | wakeGate episodeId gate =>
    refine discard (conforms_aside ?_)
    unfold wakeGate
    split
    · trivial
    · exact .request trivial fun _ => .request trivial fun _ =>
        .bind (only_writing trivial trivial trivial (.act trivial fun _ =>
          .act trivial fun _ => .act trivial fun _ => trivial)) fun _ =>
            .bind (only_require _ _) fun _ => only_request trivial
  | _ => exact within.elim

/-! ## Refused claims -/

/-- The process acquired the lease, and its claim was refused at the clock reading `now`. -/
structure Refused (trace : List (Event actions)) (pid : ℕ) (lease : EpisodeLease) (now : ℚ) :
    Prop where
  acquired : ∃ acquiredAt ttl,
    (⟨pid, .acquire lease.episodeId lease.runId acquiredAt ttl,
      (.ok lease : Result EpisodeLease)⟩ : Event actions) ∈ trace
  refused : (∃ error, (⟨pid, .assertActive lease now, (.error error : Result Unit)⟩ :
      Event actions) ∈ trace) ∨
    ∃ workerId error, (⟨pid, .claim lease.episodeId workerId lease.fencingToken now,
      (.error error : Result Unit)⟩ : Event actions) ∈ trace
  unclaimed : ¬ Claimed trace pid

def claimsOpenTask (w : World) : Act → Bool
  | .claim episodeId _ _ _ => (w.tasks.find? episodeId).any fun row => Tasks.Claimable row
  | _ => true

def claimsInTime : Condition (machine plus) := fun w e => claimsOpenTask w e.action = true

instance (w : World) (e : Event actions) : Decidable ((claimsInTime : Condition (machine plus)) w e) :=
  inferInstanceAs (Decidable (_ = true))

theorem claim_of_claimsOpenTask {tasks : Tasks} (workerId : String) (token : ℤ)
    (now : ℚ) (error : Error) (isOpen : (tasks.find? episodeId).any (fun row => Tasks.Claimable row) = true) :
    tasks.claim episodeId workerId token now ≠ .error error := by
  obtain ⟨row, found, claimable⟩ := (any_eq_true _ _).mp isOpen
  simp [Tasks.claim, Tasks.update, found, of_decide_eq_true claimable]

/-- Claims are refused for a stale lease only, and then no row of the run is unexpired. -/
structure Harmless (s : Shared (machine plus)) : Prop where
  eligible : ∀ e ∈ s.trace, ∀ pid episodeId workerId token now error,
    e ≠ ⟨pid, .claim episodeId workerId token now, (.error error : Result Unit)⟩
  expired : ∀ pid lease now error,
    (⟨pid, .assertActive lease now, (.error error : Result Unit)⟩ : Event actions) ∈ s.trace →
    ¬ Claimed s.trace pid → ∀ row ∈ s.world.store.leases, row.runId = lease.runId →
      row.expiresAt ≤ now

section Step
variable {action : Act} {response : action.Res} {s s' : Shared (machine plus)}

theorem Harmless.step (harmless : Harmless s) (inv : TurnInv s) (granted : TurnGranted pid s action) (inTime :
    claimsInTime s.world ⟨pid, action, response⟩) (performs : Performs pid action response s s') : Harmless s' := by
  obtain ⟨oracle, executed, extended⟩ := performs
  refine ⟨?_, ?_⟩ <;> rw [extended]
  · intro e member p episodeId workerId token now error is
    rcases mem_cons.mp member with rfl | earlier
    · cases is
      change exec plus oracle pid s.world (.claim episodeId workerId token now) =
        some (s'.world, .error error) at executed
      simp only [exec, some.injEq] at executed
      have succeeds := claim_of_claimsOpenTask workerId token now error inTime
      cases claim : s.world.tasks.claim episodeId workerId token now with
      | ok tasks =>
        rw [claim] at executed
        cases (mk.inj executed).2
      | error e =>
        rw [claim] at executed
        cases (mk.inj executed).2
        exact succeeds claim
    · exact harmless.eligible e earlier p episodeId workerId token now error is
  · intro p lease now error member unclaimed row present same
    have before : ¬ Claimed s.trace p := fun claimed => unclaimed (claimed.cons _)
    rcases mem_cons.mp member with is | earlier
    · cases is
      change exec plus oracle pid s.world (.assertActive lease now) =
        some (s'.world, .error error) at executed
      simp only [exec, some.injEq, Prod.mk.injEq] at executed
      obtain ⟨kept, stale⟩ := executed
      rw [← kept] at present
      rcases granted with mine | unused
      · exact absurd mine.2.2 before
      · cases unused.2.2 row present same
        by_contra unexpired
        have active : s.world.store.Active lease now :=
          ⟨find?_eq_some.mpr ⟨present, rfl⟩, not_le.mp unexpired⟩
        simp [LeaseStore.assertActive, Python.require, active] at stale
    · obtain ⟨runs, asked⟩ := inv.shown p lease now _ earlier
      rcases row_of_exec executed present with old | ⟨episodeId, asOf, ttl, is⟩ | ⟨other, asOf, ttl, is, run⟩
      · exact harmless.expired p lease now error earlier before row old same
      · have made : action = .acquire episodeId row.runId asOf ttl := congrArg Event.action is
        subst made
        exact absurd (same ▸ asked) granted.2
      · subst is
        have mine : Mine s pid lease.runId := (run.trans same) ▸ granted
        cases Runs.unique inv mine.1 runs
        exact absurd mine.2.2 before

end Step

theorem refused_turn_leaves_no_lease {start : ℚ} {c : Config (machine plus) Error} (reaches : Reaches
    (callsIn turnCalls) claimsInTime (initial (new start)) c) {lease : EpisodeLease} {now : ℚ} (refused :
    Refused c.trace pid lease now) : ∀ row ∈ c.world.store.leases, row.runId = lease.runId → row.expiresAt ≤ now := by
  have harmless : Harmless c.toShared := by
    refine invariant turns_admits (initial (TurnInv.initial start)) ?_ ?_ ?_ reaches
    · intro p action response s s' inv harmless granted inTime performs
      exact harmless.step inv granted inTime performs
    · exact fun _ _ harmless => ⟨harmless.eligible, harmless.expired⟩
    · exact ⟨fun e member => absurd member not_mem_nil,
        fun p lease now error member => absurd member not_mem_nil⟩
  rcases refused.refused with ⟨error, stale⟩ | ⟨workerId, error, ineligible⟩
  · exact harmless.expired pid lease now error stale refused.unclaimed
  · exact absurd rfl (harmless.eligible _ ineligible pid lease.episodeId workerId _ now error)

/-! ## Samples -/

section Test
variable (pid : ℕ) (lease : EpisodeLease) (now : ℚ)

def acquires : Event actions → Bool
  | ⟨actor, .acquire episodeId runId _ _, .ok granted⟩ =>
    actor = pid ∧ episodeId = lease.episodeId ∧ runId = lease.runId ∧ granted = lease
  | _ => false

def refuses : Event actions → Bool
  | ⟨actor, .assertActive shown readAt, .error _⟩ => actor = pid ∧ shown = lease ∧ readAt = now
  | ⟨actor, .claim episodeId _ token readAt, .error _⟩ =>
    actor = pid ∧ episodeId = lease.episodeId ∧ token = lease.fencingToken ∧ readAt = now
  | _ => false

def refusedTest (trace : List (Event actions)) : Bool :=
  trace.any (acquires pid lease) && trace.any (refuses pid lease now) &&
    trace.all fun e => e.process ≠ pid ∨ claimOf e = none

variable {pid lease now}

theorem Refused.of_test {trace : List (Event actions)}
    (passed : refusedTest pid lease now trace = true) : Refused trace pid lease now := by
  simp only [refusedTest, Bool.and_eq_true] at passed
  obtain ⟨⟨acquired, refused⟩, unclaimed⟩ := passed
  obtain ⟨e, member, acquired⟩ := any_eq_true.mp acquired
  obtain ⟨e', member', refused⟩ := any_eq_true.mp refused
  refine ⟨?_, ?_, ?_⟩
  · unfold acquires at acquired
    split at acquired
    · obtain ⟨rfl, rfl, rfl, rfl⟩ := of_decide_eq_true acquired
      exact ⟨_, _, member⟩
    · cases acquired
  · unfold refuses at refused
    split at refused
    · obtain ⟨rfl, rfl, rfl⟩ := of_decide_eq_true refused
      exact .inl ⟨_, member'⟩
    · obtain ⟨rfl, rfl, rfl, rfl⟩ := of_decide_eq_true refused
      exact .inr ⟨_, _, member'⟩
    · cases refused
  · rintro ⟨claim, member, process, claimed⟩
    rcases of_decide_eq_true (all_eq_true.mp unclaimed claim member) with other | none
    · exact other process
    · exact claimed none

end Test

def sampleUuid (digit : Char) : String := ofList (replicate 32 digit)

def drawAt (now : ℚ) (digit : Char) : Oracle := ⟨now, sampleUuid digit, ⟨none, true, 0, none⟩⟩

def sampleWorker (workerId : String) : EpisodeWorker := ⟨workerId, 30, by decide⟩

def sampleTurn (workerId : String) : Call :=
  .runOnce (sampleWorker workerId) ⟨0, .returned (sampleOutcome "TERMINAL")⟩

def sampleRace : List Call :=
  [.enqueue "EP000001" "root" "fixture", sampleTurn "w1", sampleTurn "w2"]

theorem sampleRace_calls : ∀ call ∈ sampleRace, call ∈ turnCalls := by
  intro call member
  simp only [sampleRace, mem_cons, not_mem_nil, or_false] at member
  rcases member with rfl | rfl | rfl <;> trivial

def sampleTurnLease (token : ℤ) (now : ℚ) : EpisodeLease :=
  ⟨"EP000001", "w1:" ++ sampleUuid '1', token, now, now, now + 30⟩

def lateClaim : List (ℕ × Oracle) :=
  replicate 7 (0, drawAt 0 '0') ++ replicate 5 (1, drawAt 0 '1') ++
    replicate 5 (1, drawAt 100 '1')

theorem lateClaim_leaves_no_lease : ∃ c : Config (machine (· + ·)) Error,
    Reaches (callsIn turnCalls) claimsInTime (initial (new 0)) c ∧ Refused c.trace 1 (sampleTurnLease 1 0)
    100 ∧ ∀ row ∈ c.world.store.leases, row.runId = (sampleTurnLease 1 0).runId → row.expiresAt ≤ 100 := by
  have passed : (after (· + ·) claimsInTime sampleRace lateClaim).any (fun c =>
      refusedTest 1 (sampleTurnLease 1 0) 100 c.trace) = true := by
    decide +kernel
  obtain ⟨c, reached, refused⟩ := exists_reaches_of_after sampleRace_calls passed
  have isRefused := Refused.of_test refused
  exact ⟨c, reached, isRefused, refused_turn_leaves_no_lease reached isRefused⟩

def lostRace : List (ℕ × Oracle) :=
  replicate 7 (0, drawAt 0 '0') ++ replicate 2 (1, drawAt 1 '1') ++
    replicate 26 (2, drawAt 2 '2') ++ replicate 9 (1, drawAt 3 '1')

theorem lostRace_leaves_lease : ∃ c : Config (machine (· + ·)) Error,
    Reaches (callsIn turnCalls) anyStep (initial (new 0)) c ∧ Refused c.trace 1 (sampleTurnLease 2 3)
    3 ∧ ∃ row ∈ c.world.store.leases, row.runId = (sampleTurnLease 2 3).runId ∧ 3 < row.expiresAt := by
  have passed : (after (· + ·) anyStep sampleRace lostRace).any (fun c =>
      refusedTest 1 (sampleTurnLease 2 3) 3 c.trace &&
        c.world.store.leases.rows.any fun row =>
          row.runId = (sampleTurnLease 2 3).runId ∧ 3 < row.expiresAt) = true := by
    decide +kernel
  obtain ⟨c, reached, holds⟩ := exists_reaches_of_after sampleRace_calls passed
  simp only [Bool.and_eq_true] at holds
  obtain ⟨row, member, left⟩ := any_eq_true.mp holds.2
  exact ⟨c, reached, Refused.of_test holds.1, row, member, of_decide_eq_true left⟩

end VideoPoster.Worker
