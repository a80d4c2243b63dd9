import VideoPoster.Python.Basic
import VideoPoster.Tables.Table
import Mathlib.Data.Rat.Defs
import Mathlib.Algebra.Order.Ring.Rat

/-!
# `lease`: fenced leases for episodes

One row for the active lease of an episode, and one for the last epoch that was ever granted for it, which no
operation takes back.
-/

namespace VideoPoster.Worker
open Python Tables

structure EpisodeLease where
  episodeId : String
  runId : String
  fencingToken : ℤ
  acquiredAt : ℚ
  heartbeatAt : ℚ
  expiresAt : ℚ
  deriving DecidableEq

structure Epoch where
  episodeId : String
  lastEpoch : ℤ

structure LeaseStore where
  leases : Table EpisodeLease.episodeId
  epochs : Table Epoch.episodeId

namespace LeaseStore

def empty : LeaseStore := ⟨.empty, .empty⟩

def lastEpoch (store : LeaseStore) (episodeId : String) : ℤ :=
  ((store.epochs.find? episodeId).map Epoch.lastEpoch).getD 0

def stale : Error := .runtime "stale episode lease"

def grant (plus : ℚ → ℚ → ℚ) (store : LeaseStore) (episodeId runId : String) (now ttl : ℚ) :
    EpisodeLease × LeaseStore :=
  let epoch := store.lastEpoch episodeId + 1
  let lease := ⟨episodeId, runId, epoch, now, now, plus now ttl⟩
  (lease, ⟨store.leases.put lease, store.epochs.put ⟨episodeId, epoch⟩⟩)

def acquire (plus : ℚ → ℚ → ℚ) (store : LeaseStore) (episodeId runId : String) (now ttl : ℚ) :
    Result (EpisodeLease × LeaseStore) := do
  require (episodeId ≠ "" ∧ runId ≠ "" ∧ 0 < ttl)
    (.value "episode ID, run ID and positive lease TTL are required")
  match store.leases.find? episodeId with
  | none => .ok (store.grant plus episodeId runId now ttl)
  | some row =>
    if row.runId ≠ runId ∧ now < row.expiresAt then
      .error (.runtime "episode lease is held by another run")
    else if row.runId = runId ∧ now < row.expiresAt then
      let lease := ⟨episodeId, runId, row.fencingToken, row.acquiredAt, now, plus now ttl⟩
      .ok (lease, { store with leases := store.leases.put lease })
    else .ok (store.grant plus episodeId runId now ttl)

def Active (store : LeaseStore) (lease : EpisodeLease) (now : ℚ) : Prop :=
  store.leases.find? lease.episodeId = some lease ∧ now < lease.expiresAt

instance (store : LeaseStore) (lease : EpisodeLease) (now : ℚ) :
    Decidable (store.Active lease now) :=
  inferInstanceAs (Decidable (_ ∧ _))

def renew (plus : ℚ → ℚ → ℚ) (store : LeaseStore) (lease : EpisodeLease) (now ttl : ℚ) :
    Result (EpisodeLease × LeaseStore) := do
  require (0 < ttl) (.value "positive lease TTL is required")
  require (store.Active lease now) stale
  let renewed := { lease with heartbeatAt := now, expiresAt := plus now ttl }
  pure (renewed, { store with leases := store.leases.put renewed })

def assertActive (store : LeaseStore) (lease : EpisodeLease) (now : ℚ) : Result Unit :=
  require (store.Active lease now) stale

/-- The row is of the caller's run and epoch, as the `DELETE` of `release` asks. -/
def Owned (store : LeaseStore) (lease : EpisodeLease) : Prop :=
  ∃ row ∈ store.leases.find? lease.episodeId,
    row.runId = lease.runId ∧ row.fencingToken = lease.fencingToken

instance (store : LeaseStore) (lease : EpisodeLease) : Decidable (store.Owned lease) :=
  inferInstanceAs (Decidable (∃ row ∈ _, _))

def delete (store : LeaseStore) (lease : EpisodeLease) : Result LeaseStore := do
  require (store.Owned lease) stale
  pure { store with leases := store.leases.delete lease.episodeId }

def Reentrant (store : LeaseStore) (episodeId runId : String) (now : ℚ) : Prop :=
  ∃ row, store.leases.find? episodeId = some row ∧ row.runId = runId ∧ now < row.expiresAt

theorem acquire_eq_ok {plus : ℚ → ℚ → ℚ} {store store' : LeaseStore} {episodeId runId : String} {now ttl : ℚ} {lease :
    EpisodeLease} (acquired : store.acquire plus episodeId runId now ttl = .ok (lease, store')) : (¬ store.Reentrant
    episodeId runId now ∧ (lease, store') = store.grant plus episodeId runId now ttl) ∨ ∃ row, store.leases.find?
    episodeId = some row ∧ row.runId = runId ∧ now < row.expiresAt ∧ lease = ⟨episodeId, runId, row.fencingToken,
    row.acquiredAt, now, plus now ttl⟩ ∧ store' = { store with leases := store.leases.put lease } := by
  simp only [acquire, bind_eq_ok, require_eq_ok, exists_const] at acquired
  obtain ⟨-, acquired⟩ := acquired
  cases found : store.leases.find? episodeId with
  | none =>
    rw [found] at acquired
    refine .inl ⟨?_, (Except.ok.inj acquired).symm⟩
    rintro ⟨row, present, -⟩
    rw [found] at present
    cases present
  | some row =>
    rw [found] at acquired
    simp only at acquired
    split at acquired
    · cases acquired
    · split at acquired
      · rename_i same
        cases acquired
        exact .inr ⟨row, rfl, same.1, same.2, rfl, rfl⟩
      · rename_i other
        refine .inl ⟨?_, (Except.ok.inj acquired).symm⟩
        rintro ⟨row', present, same⟩
        rw [found] at present
        cases present
        exact other same

end LeaseStore
end VideoPoster.Worker
