import VideoPoster.Worker.System

/-!
# Fencing
-/

namespace VideoPoster.Worker
open Python Tables Interleaving Table Prod World Option Config

variable {plus : ℚ → ℚ → ℚ}

variable {now ttl : ℚ} {lease : EpisodeLease}

namespace LeaseStore
variable {store store' : LeaseStore}

inductive Change (plus : ℚ → ℚ → ℚ) (store : LeaseStore) : LeaseStore → Prop
  | kept : Change plus store store
  | granted {episodeId runId : String} {now ttl : ℚ} :
      ¬ store.Reentrant episodeId runId now →
      Change plus store (store.grant plus episodeId runId now ttl).2
  | refreshed {row lease : EpisodeLease} : store.leases.find? lease.episodeId = some row →
      lease.runId = row.runId → lease.fencingToken = row.fencingToken →
      Change plus store { store with leases := store.leases.put lease }
  | deleted {lease : EpisodeLease} : store.Owned lease →
      Change plus store { store with leases := store.leases.delete lease.episodeId }

theorem acquire_change {episodeId runId : String} (acquired : store.acquire plus episodeId runId now ttl =
    .ok (lease, store')) : Change plus store store' ∧ lease.episodeId = episodeId ∧ lease.runId = runId := by
  rcases acquire_eq_ok acquired with ⟨new, granted⟩ | ⟨row, found, same, -, rfl, rfl⟩
  · obtain ⟨rfl, rfl⟩ := Prod.mk.inj granted
    exact ⟨.granted new, rfl, rfl⟩
  · exact ⟨.refreshed found same.symm rfl, rfl, rfl⟩

theorem renew_change {renewed : EpisodeLease} (renewal : store.renew plus lease now ttl = .ok (renewed, store'))
    : store.Active lease now ∧ Change plus store store' ∧ renewed.episodeId =
    lease.episodeId ∧ renewed.runId = lease.runId ∧ store' = { store with leases := store.leases.put renewed } := by
  simp only [renew, bind_eq_ok, require_eq_ok, pure_eq_ok, exists_const] at renewal
  obtain ⟨-, active, renewal⟩ := renewal
  cases renewal
  exact ⟨active, .refreshed active.1 rfl rfl, rfl, rfl, rfl⟩

theorem delete_change (deleted : store.delete lease = .ok store') :
    store.Owned lease ∧ store' = { store with leases := store.leases.delete lease.episodeId } := by
  simp only [delete, bind_eq_ok, require_eq_ok, pure_eq_ok, exists_const] at deleted
  exact ⟨deleted.1, deleted.2.symm⟩

def Fenced (store : LeaseStore) : Prop :=
  ∀ episodeId row, store.leases.find? episodeId = some row →
    row.fencingToken = store.lastEpoch episodeId

theorem Fenced.empty : empty.Fenced := by
  intro episodeId row found
  cases found

theorem lastEpoch_grant (store : LeaseStore) (episodeId runId : String) (now ttl : ℚ) (other : String) :
    (store.grant plus episodeId runId now ttl).2.lastEpoch other =
      if other = episodeId then store.lastEpoch episodeId + 1 else store.lastEpoch other := by
  simp only [grant, lastEpoch, find?_put]
  split_ifs with same <;> simp

theorem Change.lastEpoch_le (change : Change plus store store') (episodeId : String) :
    store.lastEpoch episodeId ≤ store'.lastEpoch episodeId := by
  cases change with
  | kept => exact le_rfl
  | granted new =>
    rw [lastEpoch_grant]
    split_ifs with same
    · rw [same]
      exact Int.le_add_one le_rfl
    · exact le_rfl
  | refreshed => exact le_rfl
  | deleted => exact le_rfl

theorem Fenced.change (fenced : store.Fenced) (change : Change plus store store') : store'.Fenced := by
  intro episodeId row found
  cases change with
  | kept => exact fenced episodeId row found
  | granted new =>
    rw [lastEpoch_grant]
    simp only [grant, find?_put] at found
    split_ifs at found ⊢ with same
    · cases found
      rfl
    · exact fenced episodeId row found
  | refreshed present _ token =>
    simp only [find?_put] at found
    split_ifs at found with same
    · cases found
      rw [token, same]
      exact fenced _ _ present
    · exact fenced episodeId row found
  | deleted owned =>
    simp only [find?_delete] at found
    split_ifs at found
    exact fenced episodeId row found

end LeaseStore

open LeaseStore

variable {w w' : World}

theorem leased_cases {result : Result (EpisodeLease × LeaseStore)} {response : Result EpisodeLease}
    (executed : some (w.leased result) = some (w', response)) : w' = w ∧ (∃ error, response = .error error) ∨
      ∃ lease store, result = .ok (lease, store) ∧ response = .ok lease ∧ w' = { w with store := store } := by
  cases result with
  | error error =>
    cases executed
    exact .inl ⟨rfl, error, rfl⟩
  | ok result =>
    cases executed
    exact .inr ⟨_, _, rfl, rfl, rfl⟩

theorem released_cases {result : Result LeaseStore} {response : Result Unit}
    (executed : some (w.released result) = some (w', response)) : w' = w ∧ (∃ error, response = .error error) ∨
      ∃ store, result = .ok store ∧ w' = { w with store := store } := by
  cases result with
  | error error =>
    cases executed
    exact .inl ⟨rfl, error, rfl⟩
  | ok result =>
    cases executed
    exact .inr ⟨_, rfl, rfl⟩

variable {oracle : Oracle} {pid : ℕ} {action : Act} {response : action.Res}

section
variable (executed : exec plus oracle pid w action = some (w', response))
include executed

theorem store_kept (acquire : ∀ episodeId runId now ttl, action ≠ .acquire episodeId runId now ttl) (renew : ∀
    lease now ttl, action ≠ .renew lease now ttl) (delete : ∀ lease, action ≠ .delete lease) : w'.store = w.store := by
  cases action with
  | acquire => exact absurd rfl (acquire _ _ _ _)
  | renew => exact absurd rfl (renew _ _ _)
  | delete => exact absurd rfl (delete _)
  | uuid4 | lockWriter =>
    simp only [exec] at executed
    split at executed <;> cases executed
    rfl
  | enqueue | claim | complete | unknown =>
    simp only [exec, commit, some.injEq] at executed
    split at executed <;> cases executed <;> rfl
  | _ =>
    cases executed
    rfl

theorem exec_change : Change plus w.store w'.store := by
  cases action with
  | acquire =>
    obtain ⟨rfl, -⟩ | ⟨lease, store, acquired, -, rfl⟩ := leased_cases executed
    · exact .kept
    · exact (acquire_change acquired).1
  | renew =>
    obtain ⟨rfl, -⟩ | ⟨lease, store, renewal, -, rfl⟩ := leased_cases executed
    · exact .kept
    · exact (renew_change renewal).2.1
  | delete =>
    obtain ⟨rfl, -⟩ | ⟨store, deletion, rfl⟩ := released_cases executed
    · exact .kept
    · obtain ⟨owned, rfl⟩ := delete_change deletion
      exact .deleted owned
  | _ =>
    rw [store_kept executed (by simp) (by simp) (by simp)]
    exact .kept

end

inductive Grants : Event actions → EpisodeLease → Prop
  | acquire {pid : ℕ} {episodeId runId : String} {now ttl : ℚ} {lease : EpisodeLease} :
      Grants ⟨pid, .acquire episodeId runId now ttl, (.ok lease : Result EpisodeLease)⟩ lease

/-- The event accepts the lease that a caller shows. The two steps of `release` count one by one. -/
inductive Accepts : Event actions → EpisodeLease → Prop
  | renew {pid : ℕ} {lease renewed : EpisodeLease} {now ttl : ℚ} :
      Accepts ⟨pid, .renew lease now ttl, (.ok renewed : Result EpisodeLease)⟩ lease
  | assertActive {pid : ℕ} {lease : EpisodeLease} {now : ℚ} :
      Accepts ⟨pid, .assertActive lease now, (.ok () : Result Unit)⟩ lease
  | delete {pid : ℕ} {lease : EpisodeLease} :
      Accepts ⟨pid, .delete lease, (.ok () : Result Unit)⟩ lease

structure FencedHistory (s : Shared (machine plus)) : Prop where
  fenced : s.world.store.Fenced
  granted : ∀ e ∈ s.trace, ∀ lease, Grants e lease →
    lease.fencingToken ≤ s.world.store.lastEpoch lease.episodeId

section Steps
variable {pid : ℕ} {action : Act} {response : action.Res} {s s' : Shared (machine plus)}

theorem Performs.change (performs : Performs pid action response s s') : Change plus s.world.store s'.world.store := by
  obtain ⟨oracle, executed, -⟩ := performs
  exact exec_change executed

theorem acquired_of_performs {episodeId runId : String}
    (performs : Performs (I := actions) pid (.acquire episodeId runId now ttl) (.ok lease) s s') :
    s.world.store.acquire plus episodeId runId now ttl = .ok (lease, s'.world.store) := by
  obtain ⟨oracle, executed, -⟩ := performs
  obtain ⟨-, _, ⟨⟩⟩ | ⟨_, store, acquired, ⟨⟩, stored⟩ := leased_cases executed
  rw [acquired, stored]

theorem Accepts.owned (accepts : Accepts ⟨pid, action, response⟩ lease)
    (performs : Performs pid action response s s') : s.world.store.Owned lease := by
  obtain ⟨oracle, executed, -⟩ := performs
  have ofActive : ∀ now, s.world.store.Active lease now → s.world.store.Owned lease :=
    fun now active => ⟨lease, active.1, rfl, rfl⟩
  cases accepts with
  | @renew _ _ renewed now ttl =>
    obtain ⟨-, _, ⟨⟩⟩ | ⟨_, _, renewal, -⟩ := leased_cases executed
    exact ofActive now (renew_change renewal).1
  | @assertActive _ _ now =>
    simp only [exec, some.injEq, Prod.mk.injEq, LeaseStore.assertActive, require_eq_ok] at executed
    exact ofActive now executed.2
  | delete =>
    obtain ⟨-, _, ⟨⟩⟩ | ⟨_, deletion, -⟩ := released_cases executed
    exact (delete_change deletion).1

theorem FencedHistory.step (history : FencedHistory s)
    (performs : Performs pid action response s s') : FencedHistory s' := by
  have change := Performs.change performs
  have fenced := history.fenced.change change
  refine ⟨fenced, fun e member lease grants => ?_⟩
  have extended := performs.choose_spec.2
  rw [extended, List.mem_cons] at member
  rcases member with rfl | old
  · cases grants
    have acquired := acquired_of_performs performs
    rcases acquire_eq_ok acquired with ⟨-, granted⟩ | ⟨row, found, -, -, rfl, stored⟩
    · have stored := congrArg snd granted
      have new := congrArg fst granted
      simp only at stored new
      rw [stored, new]
      exact (lastEpoch_grant _ _ _ _ _ _).trans (if_pos rfl) |>.ge
    · rw [stored]
      exact (history.fenced _ row found).le
  · exact (history.granted e old lease grants).trans (change.lastEpoch_le _)

theorem FencedHistory.accepted {old : EpisodeLease} {e : Event actions} (history : FencedHistory s) (accepts : Accepts
    ⟨pid, action, response⟩ lease) (performs : Performs pid action response s s') (member : e ∈ s.trace)
    (grants : Grants e old) (same : old.episodeId = lease.episodeId) : old.fencingToken ≤ lease.fencingToken := by
  obtain ⟨row, found, -, token⟩ := accepts.owned performs
  rw [← token, history.fenced _ row found, ← same]
  exact history.granted e member old grants

end Steps

theorem FencedHistory.reaches {calls : Set (Program Unit)}
    {allowed : Condition (machine plus)} {start : ℚ} {c : Config (machine plus) Error}
    (reaches : Reaches calls allowed (initial (new start)) c) : FencedHistory c.toShared := by
  refine Reaches.invariant ?_ ?_ ?_ reaches
  · intro pid action response s s' history performs
    exact history.step performs
  · intro s pid history
    exact ⟨history.fenced, history.granted⟩
  · exact ⟨.empty, fun _ member => by cases member⟩

theorem lease_fencing {calls : Set (Program Unit)} {start : ℚ} {c : Config (machine plus) Error}
    (reaches : Reaches calls anyStep (initial (new start)) c) {pid : ℕ} {action : Act}
    {response : action.Res} {s' : Shared (machine plus)}
    (performs : Performs pid action response c.toShared s') :
    -- a new lease has a token beyond all that were granted before
    (∀ {episodeId runId : String} {now ttl : ℚ} {lease : EpisodeLease}, (⟨pid, action, response⟩ : Event actions) =
        ⟨pid, .acquire episodeId runId now ttl, (.ok lease : Result EpisodeLease)⟩ →
      ¬ c.world.store.Reentrant episodeId runId now →
      ∀ e ∈ c.trace, ∀ old, Grants e old → old.episodeId = episodeId →
        old.fencingToken < lease.fencingToken) ∧
    -- no lease is accepted that is older than one granted before
    (∀ {lease : EpisodeLease}, Accepts ⟨pid, action, response⟩ lease →
      ∀ e ∈ c.trace, ∀ old, Grants e old → old.episodeId = lease.episodeId →
        old.fencingToken ≤ lease.fencingToken) ∧
    -- a release removes the caller's own row only
    (∀ {lease : EpisodeLease}, action = .delete lease → ∀ row ∈ c.world.store.leases, row ∉ s'.world.store.leases →
        row.episodeId = lease.episodeId ∧ row.runId = lease.runId ∧
          row.fencingToken = lease.fencingToken) := by
  have history := FencedHistory.reaches reaches
  refine ⟨?_, ?_, ?_⟩
  · intro episodeId runId now ttl lease same new e member old grants episode
    cases same
    rcases acquire_eq_ok (acquired_of_performs performs) with ⟨-, granted⟩ | ⟨row, found, run⟩
    · have token : lease.fencingToken = c.world.store.lastEpoch episodeId + 1 := by
        rw [(mk.inj granted).1]
      rw [token]
      exact Int.lt_add_one_of_le (episode ▸ history.granted e member old grants)
    · exact absurd ⟨row, found, run.1, run.2.1⟩ new
  · intro lease accepts e member old grants same
    exact history.accepted accepts performs member grants same
  · intro lease same row before after
    subst same
    obtain ⟨oracle, executed, -⟩ := performs
    simp only [exec, some.injEq] at executed
    cases deletion : c.world.store.delete lease with
    | error e =>
      rw [deletion] at executed
      rw [← (mk.inj executed).1] at after
      exact absurd before after
    | ok result =>
      rw [deletion] at executed
      obtain ⟨⟨held, found, run, token⟩, rfl⟩ := delete_change deletion
      rw [← (mk.inj executed).1] at after
      have episode : row.episodeId = lease.episodeId := by
        by_contra other
        exact after (mem_delete.mpr ⟨before, other⟩)
      obtain ⟨heldMem, heldEpisode⟩ := find?_eq_some.mp found
      cases eq_of_key before heldMem (episode.trans heldEpisode.symm)
      exact ⟨episode, run, token⟩

def grantsLease (lease : EpisodeLease) : Event actions → Bool
  | ⟨_, .acquire _ _ _ _, .ok granted⟩ => granted = lease
  | _ => false

def sampleLease : EpisodeLease := ⟨"EP000001", "w1:1", 1, 0, 0, 30⟩

def sampleReleased : Option (Config (machine (· + ·)) Error) :=
  after (· + ·) anyStep [.acquire "EP000001" "w1:1" 0 30, .release sampleLease 20]
    [(0, clockAt 0), (1, clockAt 0), (1, clockAt 0)]

theorem second_lease_outranks_first : ∃ c : Config (machine (· + ·)) Error,
      Reaches (callsIn Set.univ) anyStep (initial (new 0)) c ∧
      ∃ s' lease, Performs (I := actions) 2 (.acquire "EP000001" "w2:2" 10 30) (.ok lease)
          c.toShared s' ∧ sampleLease.fencingToken < lease.fencingToken := by
  have passed : sampleReleased.any (fun c =>
      decide (c.world.store.leases.find? "EP000001" = none) &&
        c.trace.any (grantsLease sampleLease)) = true := by
    decide +kernel
  obtain ⟨c, reached, holds⟩ := exists_reaches_of_after (fun _ _ => Set.mem_univ _) passed
  simp only [Bool.and_eq_true, decide_eq_true_eq, List.any_eq_true] at holds
  obtain ⟨free, e, member, grants⟩ := holds
  have first : Grants e sampleLease := by
    unfold grantsLease at grants
    split at grants
    · cases of_decide_eq_true grants
      exact .acquire
    · cases grants
  have acquired : c.world.store.acquire (· + ·) "EP000001" "w2:2" 10 30 =
      .ok (c.world.store.grant (· + ·) "EP000001" "w2:2" 10 30) := by
    simp only [LeaseStore.acquire, free]
    rfl
  have performs : Performs (I := actions) 2 (.acquire "EP000001" "w2:2" 10 30)
      (.ok (c.world.store.grant (· + ·) "EP000001" "w2:2" 10 30).1) c.toShared
      ⟨{ c.world with store := (c.world.store.grant (· + ·) "EP000001" "w2:2" 10 30).2 }, _ :: _⟩ :=
    ⟨clockAt 0, by simp only [exec, acquired, leased], rfl⟩
  refine ⟨c, reached, _, _, performs, ?_⟩
  refine (lease_fencing reached performs).1 rfl ?_ e member sampleLease first rfl
  rintro ⟨row, found, -⟩
  rw [free] at found
  cases found

end VideoPoster.Worker
