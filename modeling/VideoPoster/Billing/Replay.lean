import VideoPoster.Billing.Coherence
import VideoPoster.Executor.Lineage

/-!
# Replaying a provider binding
-/

namespace VideoPoster.Billing
open Python Tables Interleaving Executor Prog StandingBudget Table Option Program

variable {D : Deployment} {scope : Scope} {s s' : Shared (machine D)} {pid : ℕ} {action : Act}
  {response : action.Res}

structure PinsBounded (w : World) : Prop where
  rows : ∀ row ∈ w.jobs, ∀ generation, row.generation = some generation → generation ≤ w.generation
  claims : ∀ claim ∈ w.ledger.claims, ∀ generation, claim.generation = some generation →
    generation ≤ w.generation

theorem Writer.generation_eq {generation : ℕ} (writer : Writer s pid generation) : s.world.generation = generation := by
  obtain ⟨-, marker, shown, -, same⟩ := writer
  rw [World.generation, shown]
  exact same

theorem generation_mono (granted : Granted D scope pid s action)
    (performs : Performs pid action response s s') : s.world.generation ≤ s'.world.generation := by
  rcases (performs_surroundings performs).snapshot with same | ⟨snapshot, rfl, shown⟩
  · exact (congrArg (fun file => (file.map Snapshot.generation).getD 0) same).ge
  · have after : s'.world.generation = snapshot.generation := by
      rw [World.generation, shown]
      rfl
    rw [after]
    change GrantedPublish D pid s snapshot at granted
    unfold GrantedPublish at granted
    split at granted
    · exact granted.2 ▸ Nat.le_succ _
    · exact (Writer.generation_eq granted.1).le

theorem RowUpdate.generation {old new : Row} (update : RowUpdate D action old new)
    (granted : Granted D scope pid s action) {generation : ℕ} (pinned : new.generation = some generation) :
    old.generation = some generation ∨ generation = s.world.generation := by
  cases update with
  | @changed E context given target update row guarded =>
    cases update <;> exact .inl pinned
  | @bound context given target providerId partialPath row pin writer free unknown =>
    cases given with
    | none => exact .inl pinned
    | some g =>
      cases pinned
      exact .inr (Writer.generation_eq (granted.2 _ rfl)).symm
  | pinned writer =>
    cases pinned
    exact .inr (Writer.generation_eq granted).symm
  | admitted | reviewed => exact .inl pinned

theorem PinsBounded.performs (granted : Granted D scope pid s action) (performs :
    Performs pid action response s s') (inv : PinsBounded s.world) : PinsBounded s'.world := by
  have grows := generation_mono granted performs
  constructor
  · have change := performs_jobs performs
    generalize s'.world.jobs = after at change
    intro row member generation pinned
    refine le_trans ?_ grows
    cases change with
    | same => exact inv.rows row member generation pinned
    | inserted admitted =>
      rcases mem_put.mp member with rfl | ⟨old, -⟩
      · exact (Writer.generation_eq (granted.2.2 generation pinned)).ge
      · exact inv.rows row old generation pinned
    | updated succeeds target found update =>
      rcases mem_put.mp member with rfl | ⟨old, -⟩
      · rcases RowUpdate.generation update granted pinned with before | rfl
        · exact inv.rows _ (find?_eq_some.mp found).1 generation before
        · exact le_rfl
      · exact inv.rows row old generation pinned
  · intro claim member generation pinned
    refine le_trans ?_ grows
    rcases (performs_surroundings performs).ledger with same | ⟨op, rfl, stepped⟩
    · rw [same] at member
      exact inv.claims claim member generation pinned
    · rcases generation_of_step stepped member pinned with inside | ⟨old, before, same⟩
      · exact (Writer.generation_eq (granted generation inside)).ge
      · exact inv.claims old before generation same

variable {kinds : Set Call} {c : Config (machine D) Error}

theorem pinsBounded_of_reaches (reaches : Reaches (callsIn D kinds) anyStep (freshRoot D) c) : PinsBounded c.world := by
  refine Protocol.Sound.invariant (K := fun s : Shared (machine D) => PinsBounded s.world)
    (discipline_admits fun _ : ℕ => subset_refl kinds) sound_freshRoot ?_ ?_ ?_ reaches
  · intro pid action response s s' _ inv granted _ performs
    have granted : Granted D (fun _ => kinds) pid s action := granted
    exact inv.performs granted performs
  · rintro s dead - inv
    exact ⟨inv.rows, inv.claims⟩
  · exact ⟨fun _ member => (List.not_mem_nil member).elim, fun _ member => (List.not_mem_nil member).elim⟩

section Evaluate
variable {oracles : ℕ → Oracle} {times : ℕ → ℤ} {requestId providerId partialPath : String}
  {generation : ℕ}

def shows (w : World) (snapshot : Snapshot) : World := { w with snapshot := some snapshot }

theorem evaluate_generatedAt (clock : ∀ n, (oracles n).answer .clock = some (times n)) :
    generatedAt.evaluate oracles pid s =
      some (.ok (times s.trace.length), ⟨s.world, ⟨pid, .ask .clock, some (times s.trace.length)⟩ :: s.trace⟩) := by
  change evaluate _ _ (act (I := actions) (.ask .clock) _) _ = _
  simp only [evaluate, exec, clock]
  rfl

theorem generatedAt_ok {time : ℤ} (ran : generatedAt.evaluate oracles pid s = some (.ok time, s')) :
    s'.world = s.world := by
  obtain ⟨_, s₁, asked, integral⟩ := evaluate_bind_eq_ok.mp ran
  cases asked
  obtain ⟨-, rfl⟩ := evaluate_ofExcept_eq_ok.mp integral
  rfl

theorem slot_ok {paths : List LockId} {lock : LockId} (ran : (slot paths).evaluate
    oracles pid s = some (.ok lock, s')) : s'.world = s.world.lock lock (some pid) := by
  obtain ⟨executed, -⟩ := evaluate_perform_eq_ok.mp ran
  simp only [exec, map_eq_some_iff, Prod.mk.injEq] at executed
  obtain ⟨_, -, world, rfl⟩ := executed
  exact world.symm

theorem marker_ok (ran : (marker requestId generation).evaluate oracles pid s = some (.ok (), s')) :
    ∃ time, s'.world = shows s.world ⟨.writerInProgress, generation, requestId, time⟩ := by
  obtain ⟨time, s₁, timed, shown⟩ := evaluate_bind_eq_ok.mp ran
  cases shown
  exact ⟨time, by rw [generatedAt_ok timed, shows]⟩

theorem evaluate_marker (clock : ∀ n, (oracles n).answer .clock = some (times n)) (pid : ℕ) (requestId : String)
    (generation : ℕ) (s : Shared (machine D)) : ∃ trace, (marker requestId generation).evaluate oracles
    pid s = some (.ok (), ⟨shows s.world ⟨.writerInProgress, generation, requestId, times s.trace.length⟩, trace⟩) :=
  ⟨_, evaluate_bind_eq_ok.mpr ⟨_, _, evaluate_generatedAt clock, rfl⟩⟩

theorem evaluate_bindProvider {context given : Option ℕ}
    : (bindProvider context requestId providerId partialPath given).evaluate
    oracles pid s = some (.ok (), s') ↔ ∃ jobs, Executor.checkpointProviderBinding
    D context requestId providerId partialPath given s.world.jobs = .ok jobs ∧ s' = ⟨{ s.world with jobs := jobs },
    ⟨pid, .bindProvider context requestId providerId partialPath given, .ok ()⟩ :: s.trace⟩ := by
  simp only [bindProvider, request, evaluate, exec]
  cases Executor.checkpointProviderBinding D context requestId providerId partialPath given
    s.world.jobs with
  | error e => simp [World.commit, Prog.ofExcept, Prog.evaluate]
  | ok jobs =>
    simp only [World.commit, Prog.ofExcept, Prog.evaluate, id]
    constructor
    · rintro ⟨⟩
      exact ⟨jobs, rfl, rfl⟩
    · rintro ⟨_, ⟨⟩, rfl⟩
      rfl

theorem evaluate_ledger {op : StandingBudget.Op} {claim : StandingBudget.Claim} : (ledger op).evaluate
    oracles pid s = some (.ok claim, s') ↔ ∃ ledger, op.apply D.policy s.world.ledger =
    .ok (ledger, claim) ∧ s' = ⟨{ s.world with ledger := ledger }, ⟨pid, .ledger op, .ok claim⟩ :: s.trace⟩ := by
  simp only [ledger, request, evaluate, exec, StandingBudget.Ledger.step]
  cases op.apply D.policy s.world.ledger with
  | error e => simp [Prog.ofExcept, Prog.evaluate]
  | ok outcome =>
    obtain ⟨ledger, result⟩ := outcome
    simp only [Prog.ofExcept, Prog.evaluate, id]
    constructor
    · rintro ⟨⟩
      exact ⟨ledger, rfl, rfl⟩
    · rintro ⟨_, ⟨⟩, rfl⟩
      rfl

theorem current_ok {settlement : Option Dict} (ran : (current requestId generation settlement).evaluate
    oracles pid s = some (.ok (), s')) : ∃ row claim time, s.world.jobs.find? requestId =
    some row ∧ s.world.ledger.claims.find? requestId = some claim ∧ Coherent requestId generation row claim ∧
    s'.world = shows s.world ⟨.current row claim settlement, generation, requestId, time⟩ := by
  obtain ⟨found, s₁, inspected, ran⟩ := evaluate_bind_eq_ok.mp ran
  obtain ⟨claim, s₂, claimed, ran⟩ := evaluate_bind_eq_ok.mp ran
  obtain ⟨row, s₃, present, ran⟩ := evaluate_bind_eq_ok.mp ran
  obtain ⟨_, s₄, checked, ran⟩ := evaluate_bind_eq_ok.mp ran
  obtain ⟨time, s₅, timed, shown⟩ := evaluate_bind_eq_ok.mp ran
  cases inspected
  obtain ⟨ledger, applied, rfl⟩ := evaluate_ledger.1 claimed
  obtain ⟨claimFound, rfl⟩ := claim_ok applied
  obtain ⟨there, rfl⟩ := evaluate_ofExcept_eq_ok.mp present
  obtain ⟨coherent, rfl⟩ := evaluate_ofExcept_eq_ok.mp checked
  have rowFound : s.world.jobs.find? requestId = some row := by
    cases find : s.world.jobs.find? requestId with
    | none =>
      rw [find] at there
      cases there
    | some other =>
      rw [find] at there
      cases there
      rfl
  refine ⟨row, claim, time, rowFound, claimFound, require_eq_ok.mp coherent, ?_⟩
  cases shown
  rw [generatedAt_ok timed, shows]

theorem evaluate_current {row : Row} {claim : StandingBudget.Claim}
    (clock : ∀ n, (oracles n).answer .clock = some (times n)) (pid : ℕ) (settlement : Option Dict)
    (s : Shared (machine D)) (named : requestId ≠ "") (found : s.world.jobs.find? requestId = some row)
    (claimFound : s.world.ledger.claims.find? requestId = some claim)
    (coherent : Coherent requestId generation row claim) :
    ∃ time trace, (current requestId generation settlement).evaluate oracles pid s =
      some (.ok (), ⟨shows s.world ⟨.current row claim settlement, generation, requestId, time⟩, trace⟩) := by
  have claimed : (StandingBudget.Op.claim requestId).apply D.policy s.world.ledger = .ok (s.world.ledger, claim) := by
    simp only [StandingBudget.Op.apply, StandingBudget.claim, claimFound, bind_eq_ok, require_eq_ok,
      exists_const, pure_eq_ok]
    exact ⟨named, trivial⟩
  refine ⟨_, _, evaluate_bind_eq_ok.mpr ⟨_, _, rfl, evaluate_bind_eq_ok.mpr
    ⟨claim, _, evaluate_ledger.2 ⟨_, claimed, rfl⟩, evaluate_bind_eq_ok.mpr
    ⟨row, _, evaluate_ofExcept_eq_ok.mpr ⟨by rw [found]; rfl, rfl⟩, evaluate_bind_eq_ok.mpr
    ⟨(), _, evaluate_ofExcept_eq_ok.mpr ⟨require_eq_ok.mpr coherent, rfl⟩,
      evaluate_bind_eq_ok.mpr ⟨_, _, evaluate_generatedAt clock, rfl⟩⟩⟩⟩⟩⟩

structure Checkpointed (D : Deployment) (requestId providerId partialPath : String) (w w' : World) :
    Prop where
  jobs : Executor.checkpointProviderBinding D (some (w.generation + 1)) requestId providerId partialPath
    (some (w.generation + 1)) w.jobs = .ok w'.jobs
  ledger : ∃ claim, bindProviderRequestId (some (w.generation + 1)) requestId providerId
    (some (w.generation + 1)) w.ledger = .ok (w'.ledger, claim)
  snapshot : ∃ row claim time, w'.jobs.find? requestId = some row ∧
    w'.ledger.claims.find? requestId = some claim ∧
    Coherent requestId (w.generation + 1) row claim ∧
    w'.snapshot = some ⟨.current row claim none, w.generation + 1, requestId, time⟩

theorem checkpointProviderBinding_checkpointed {result : StandingBudget.Claim}
    (ran : (checkpointProviderBinding requestId providerId partialPath).evaluate
    oracles pid s = some (.ok result, s')) : Checkpointed D requestId providerId partialPath s.world s'.world := by
  obtain ⟨lock, s₁, locked, ran⟩ := evaluate_bind_eq_ok.mp ran
  obtain ⟨s₂, ran, released⟩ := evaluate_ensuring_eq_ok.mp ran
  obtain ⟨generation, s₃, read, ran⟩ := evaluate_bind_eq_ok.mp ran
  obtain ⟨_, s₄, marked, ran⟩ := evaluate_bind_eq_ok.mp ran
  obtain ⟨_, s₅, bound, ran⟩ := evaluate_bind_eq_ok.mp ran
  obtain ⟨claim, s₆, ledgerBound, ran⟩ := evaluate_bind_eq_ok.mp ran
  obtain ⟨_, s₇, readback, ended⟩ := evaluate_bind_eq_ok.mp ran
  cases read
  cases released
  cases ended
  have taken := slot_ok locked
  obtain ⟨time, marker⟩ := marker_ok marked
  obtain ⟨jobs, rowBound, rfl⟩ := evaluate_bindProvider.1 bound
  obtain ⟨ledger, claimBound, rfl⟩ := evaluate_ledger.1 ledgerBound
  obtain ⟨row, claim, time', found, claimFound, coherent, shown⟩ := current_ok readback
  have generation : s₁.world.generation = s.world.generation := by rw [taken]; rfl
  rw [marker, generation] at rowBound claimBound
  rw [taken] at rowBound claimBound
  refine ⟨?_, ⟨result, ?_⟩, row, claim, time', ?_, ?_, generation ▸ coherent, ?_⟩
  all_goals simp only [World.lock, shown, shows]
  · exact rowBound
  · exact claimBound
  · exact found
  · exact claimFound
  · rw [generation]

structure FirstBinding (providerId : String) (row : Row) (claim : StandingBudget.Claim) : Prop where
  valid : providerId ≠ "" ∧ providerId ≠ unassigned ∧ providerId.length ≤ 512
  rowUnbound : row.Unbound
  claimUnbound : claim.providerRequestId = unassigned
  settlementMode : claim.settlementMode = .falReadbackV2
  provider : claim.provider = row.endpoint
  authScope : claim.authScope = row.settlementBinding.authScope

variable {row : Row} {claim : StandingBudget.Claim}

def BoundTo (requestId providerId : String) (generation : ℕ) (w : World) : Prop :=
  ∃ row claim snapshot, w.jobs.find? requestId = some row ∧
    w.ledger.claims.find? requestId = some claim ∧ w.snapshot = some snapshot ∧
    row.settlementBinding.providerRequestId = providerId ∧ row.providerId = providerId ∧
    claim.providerRequestId = providerId ∧ row.generation = some generation ∧
    claim.generation = some generation ∧ IsCurrent snapshot ∧ snapshot.requestId = requestId ∧
    snapshot.generation = generation

theorem Checkpointed.firstBinding {w w' : World} (done : Checkpointed D requestId providerId partialPath w w')
    (bounded : PinsBounded w) (found : w.jobs.find? requestId = some row) (claimFound : w.ledger.claims.find? requestId
    = some claim) : FirstBinding providerId row claim ∧ BoundTo requestId providerId (w.generation + 1) w' := by
  obtain ⟨jobs, ⟨result, ledger⟩, row', claim', time, found', claimFound', coherent, shown⟩ := done
  have boundTo (rowId : row'.settlementBinding.providerRequestId = providerId)
      (mirror : row'.providerId = providerId) (claimId : claim'.providerRequestId = providerId) :
      BoundTo requestId providerId (w.generation + 1) w' :=
    ⟨row', claim', _, found', claimFound', shown, rowId, mirror, claimId, coherent.1, coherent.2.1, nofun, rfl, rfl⟩
  obtain ⟨rowPin, claimPin, -, -, -, -, provider, authScope, -⟩ := coherent
  have valid : providerId ≠ "" ∧ providerId ≠ unassigned ∧ providerId.length ≤ 512 := by
    simp only [bindProviderRequestId, bind_eq_ok, require_eq_ok, exists_const] at ledger
    exact ledger.1.2
  have stale {generation : ℕ} (old : generation ≤ w.generation) : generation ≠ w.generation + 1 :=
    (Nat.lt_succ_of_le old).ne
  obtain ⟨_, rowFound, -, -, same | ⟨free, unknown, put⟩⟩ := checkpointProviderBinding_ok jobs
  · rw [same] at found'
    exact absurd rfl (stale (bounded.rows row' (find?_eq_some.mp found').1 _ rowPin))
  obtain rfl := some.inj (rowFound.symm.trans found)
  obtain ⟨_, oldClaim, mode, -, -, ⟨-, -, same⟩ | ⟨unbound, -, rfl, claimPut⟩⟩ :=
    bindProviderRequestId_ok ledger
  · rw [same] at claimFound'
    exact absurd rfl (stale (bounded.claims claim' (find?_eq_some.mp claimFound').1 _ claimPin))
  obtain rfl := some.inj (oldClaim.symm.trans claimFound)
  have rowKey := (find?_eq_some.mp found).2
  have claimKey := (find?_eq_some.mp claimFound).2
  rw [put, ← rowKey] at found'
  rw [claimPut, ← claimKey] at claimFound'
  obtain rfl := some.inj ((find?_put_self _ _).symm.trans found')
  obtain rfl := some.inj ((find?_put_self _ _).symm.trans claimFound')
  exact ⟨⟨valid, ⟨free, unknown⟩, unbound, mode, provider, authScope⟩, boundTo rfl rfl rfl⟩

theorem checkpointProviderBinding_unbound (valid : providerId ≠ "" ∧ providerId.length ≤ 512)
    {jobs : Jobs} (found : jobs.find? requestId = some row) (wellFormed : row.WellFormed)
    (unbound : row.Unbound) :
    ∃ bound, bound = row.bound D providerId partialPath (some (generation + 1)) ∧
      Executor.checkpointProviderBinding D (some (generation + 1)) requestId providerId partialPath
        (some (generation + 1)) jobs = .ok (jobs.put bound) := by
  have key := (find?_eq_some.mp found).2
  have fresh : ¬ (row.settlementBinding.providerRequestId = providerId ∧ row.providerId = providerId) := by
    rintro ⟨-, same⟩
    exact valid.1 (same.symm.trans unbound.2)
  refine ⟨_, rfl, ?_⟩
  simp only [Executor.checkpointProviderBinding, found, if_neg fresh, bind_eq_ok, require_eq_ok,
    exists_const, requireCoordinatorWrite_eq_ok, pure_eq_ok]
  exact ⟨valid, by simp [ValidGeneration], .inr trivial, .inr (by simp),
    ⟨wellFormed.bound.trans key, wellFormed.endpoint, wellFormed.authority, wellFormed.named⟩, unbound, rfl⟩

theorem bindProviderRequestId_unbound {ledger : StandingBudget.Ledger}
    (valid : providerId ≠ "" ∧ providerId ≠ unassigned ∧ providerId.length ≤ 512)
    (named : requestId ≠ "") (found : ledger.claims.find? requestId = some claim)
    (mode : claim.settlementMode = .falReadbackV2) (unbound : claim.providerRequestId = unassigned) :
    ∃ bound : StandingBudget.Claim,
      bound = { claim with providerRequestId := providerId, generation := some (generation + 1) } ∧
      bindProviderRequestId (some (generation + 1)) requestId providerId
        (some (generation + 1)) ledger = .ok ({ ledger with claims := ledger.claims.put bound }, bound) := by
  have fresh : claim.providerRequestId ≠ providerId := fun same => valid.2.1 (same.symm.trans unbound)
  refine ⟨_, rfl, ?_⟩
  simp only [bindProviderRequestId, requireGeneration,
    denyContext, requirePin, found, if_neg fresh, bind_eq_ok,
    require_eq_ok, exists_const, pure_eq_ok]
  exact ⟨⟨named, valid⟩, by simp [ValidGeneration], .inr trivial, mode, .inr (by simp), unbound, rfl⟩

theorem FirstBinding.evaluate (first : FirstBinding providerId row claim)
    (clock : ∀ n, (oracles n).answer .clock = some (times n)) (named : requestId ≠ "")
    (wellFormed : row.WellFormed) (free : s.world.locks .billing = none)
    (found : s.world.jobs.find? requestId = some row)
    (claimFound : s.world.ledger.claims.find? requestId = some claim) :
    ∃ result s', (checkpointProviderBinding requestId providerId partialPath).evaluate
      (M := machine D) oracles pid s = some (.ok result, s') := by
  obtain ⟨valid, unbound, claimUnbound, mode, provider, authScope⟩ := first
  have rowKey := (find?_eq_some.mp found).2
  have claimKey := (find?_eq_some.mp claimFound).2
  obtain ⟨newRow, sameRow, rowBound⟩ : ∃ newRow, _ ∧ Executor.checkpointProviderBinding D
      (some (s.world.generation + 1)) requestId providerId partialPath
      (some (s.world.generation + 1)) s.world.jobs = .ok (s.world.jobs.put newRow) :=
    checkpointProviderBinding_unbound ⟨valid.1, valid.2.2⟩ found wellFormed unbound
  obtain ⟨newClaim, sameClaim, claimBound⟩ : ∃ newClaim, _ ∧ bindProviderRequestId
      (some (s.world.generation + 1)) requestId providerId (some (s.world.generation + 1))
      s.world.ledger = .ok ({ s.world.ledger with claims := s.world.ledger.claims.put newClaim }, newClaim) :=
    bindProviderRequestId_unbound valid named claimFound mode claimUnbound
  have locked : (slot [.billing]).evaluate oracles pid s =
      some (.ok .billing, ⟨s.world.lock .billing (some pid), ⟨pid, .slot [.billing], .billing⟩ :: s.trace⟩) :=
    evaluate_perform_eq_ok.mpr ⟨by simp [exec, free], rfl⟩
  obtain ⟨trace, marked⟩ := evaluate_marker clock pid requestId (s.world.generation + 1)
    ⟨s.world.lock .billing (some pid), ⟨pid, .readGeneration, s.world.generation⟩ ::
      ⟨pid, .slot [.billing], .billing⟩ :: s.trace⟩
  have newRowKey : newRow.requestId = requestId := sameRow ▸ rowKey
  have newClaimKey : newClaim.requestId = requestId := sameClaim ▸ claimKey
  have coherent : Coherent requestId (s.world.generation + 1) newRow newClaim := by
    rw [sameRow, sameClaim]
    exact ⟨rfl, rfl, wellFormed.bound.trans rowKey, wellFormed.endpoint, wellFormed.authority,
      claimKey, provider, authScope, rfl⟩
  have readback (snapshot : Option Snapshot) (locks : LockId → Option ℕ)
      (trace : List (Event actions)) := evaluate_current (D := D) clock pid none
    ⟨⟨s.world.jobs.put newRow, ⟨s.world.ledger.claims.put newClaim, s.world.ledger.receipts⟩, snapshot, locks⟩,
      trace⟩ named (newRowKey ▸ find?_put_self s.world.jobs newRow)
    (newClaimKey ▸ find?_put_self s.world.ledger.claims newClaim) coherent
  obtain ⟨time, trace', shown⟩ := readback _ _ (_ :: _ :: trace)
  refine ⟨_, _, evaluate_bind_eq_ok.mpr ⟨_, _, locked, evaluate_ensuring_eq_ok.mpr
    ⟨_, evaluate_bind_eq_ok.mpr ⟨_, _, rfl, evaluate_bind_eq_ok.mpr ⟨_, _, marked,
      evaluate_bind_eq_ok.mpr ⟨_, _, evaluate_bindProvider.2 ⟨_, rowBound, rfl⟩,
        evaluate_bind_eq_ok.mpr ⟨_, _, evaluate_ledger.2 ⟨_, claimBound, rfl⟩,
          evaluate_bind_eq_ok.mpr ⟨_, _, shown, rfl⟩⟩⟩⟩⟩, rfl⟩⟩⟩

/-- A call succeeds, and leaves both stores and the file as it should, exactly if it is the first one
to bind either store. -/
theorem checkpoint_replay_iff (reaches : Reaches (callsIn D kinds) anyStep (freshRoot D) c) (free : c.world.locks
    .billing = none) (clock : ∀ n, (oracles n).answer .clock ≠ none) (found : c.world.jobs.find? requestId = some row)
    (claimFound : c.world.ledger.claims.find? requestId = some claim) : (∃ result s', (checkpointProviderBinding
    requestId providerId partialPath).evaluate oracles pid c.toShared = some (.ok result, s')
    ∧ BoundTo requestId providerId (c.world.generation + 1) s'.world) ↔ FirstBinding providerId row claim := by
  have bounded := pinsBounded_of_reaches reaches
  have member := (find?_eq_some.mp found).1
  have named : requestId ≠ "" :=
    (find?_eq_some.mp found).2 ▸ (LineageInv.of_reaches reaches).identified row member
  have wellFormed : row.WellFormed :=
    (sound_freshRoot.reaches (discipline_admits fun _ : ℕ => subset_refl kinds) reaches).inv.wellFormed row member
  constructor
  · rintro ⟨result, s', ran, -⟩
    exact ((checkpointProviderBinding_checkpointed ran).firstBinding bounded found claimFound).1
  · intro first
    choose times timed using fun n => ne_none_iff_exists'.mp (clock n)
    obtain ⟨result, s', ran⟩ := first.evaluate timed named wellFormed free found claimFound
    exact ⟨result, s', ran, ((checkpointProviderBinding_checkpointed ran).firstBinding bounded found claimFound).2⟩

end Evaluate

def checkpointTurn : Turn where
  call := .checkpointProviderBinding sampleFalId "fal-1" ""
  oracle := sampleOracle none (sampleProvider 1)
  steps := 12

def replayCheckpoint (s : Shared (machine (sampleDeployment 6))) :
    Option (Result StandingBudget.Claim × Shared (machine (sampleDeployment 6))) :=
  (checkpointProviderBinding sampleFalId "fal-1" "").evaluate (fun _ => sampleOracle none (sampleProvider 1)) 2 s

theorem admission_then_checkpoint_binds :
    ∃ c, Reaches (callsIn (sampleDeployment 6) Set.univ) anyStep (freshRoot (sampleDeployment 6)) c ∧
      ∃ result s', replayCheckpoint c.toShared = some (.ok result, s') ∧
        BoundTo sampleFalId "fal-1" (c.world.generation + 1) s'.world := by
  have passed : (after (sampleDeployment 6) anyStep (freshRoot _) [admissionTurn]).any (fun c =>
      decide (c.world.locks .billing = none) && (c.world.jobs.find? sampleFalId).any fun row =>
        (c.world.ledger.claims.find? sampleFalId).any fun claim =>
          decide (row.Unbound ∧ claim.providerRequestId = unassigned ∧
            claim.settlementMode = .falReadbackV2 ∧ claim.provider = row.endpoint ∧
            claim.authScope = row.settlementBinding.authScope)) = true := by
    decide +kernel
  obtain ⟨c, reached, holds⟩ :=
    exists_reaches_of_after _ anyStep Set.univ (fun _ _ => trivial) passed
  simp only [Bool.and_eq_true, decide_eq_true_eq, any_eq_true] at holds
  obtain ⟨free, row, found, claim, claimFound, unbound, claimUnbound, mode, provider, scope⟩ := holds
  exact ⟨c, reached, (checkpoint_replay_iff reached free (fun _ => some_ne_none _) found claimFound).mpr
    ⟨by decide, unbound, claimUnbound, mode, provider, scope⟩⟩

theorem checkpoint_replay_leaves_marker :
    ∃ c, Reaches (callsIn (sampleDeployment 6) Set.univ) anyStep (freshRoot (sampleDeployment 6)) c ∧
      BoundTo sampleFalId "fal-1" c.world.generation c.world ∧
      (∃ claim, c.world.ledger.claims.find? sampleFalId = some claim ∧ claim.actual = none) ∧
      ∃ outcome, replayCheckpoint c.toShared = some outcome ∧
        outcome.1 = .error (.snapshot "durable records are not coherently pinned") ∧
        ∃ snapshot, outcome.2.world.snapshot = some snapshot ∧ snapshot.status = .writerInProgress := by
  have passed : (after (sampleDeployment 6) anyStep (freshRoot _) [admissionTurn, checkpointTurn]).any
      (fun c => ((c.world.jobs.find? sampleFalId).any fun row =>
        (c.world.ledger.claims.find? sampleFalId).any fun claim =>
          c.world.snapshot.any fun snapshot =>
            decide (row.settlementBinding.providerRequestId = "fal-1" ∧ row.providerId = "fal-1" ∧
              claim.providerRequestId = "fal-1" ∧ row.generation = some c.world.generation ∧
              claim.generation = some c.world.generation ∧ IsCurrent snapshot ∧
              snapshot.requestId = sampleFalId ∧ snapshot.generation = c.world.generation) &&
            decide (claim.actual = none)) &&
        (replayCheckpoint c.toShared).any fun outcome =>
          decide (outcome.1 = .error (.snapshot "durable records are not coherently pinned")) &&
          outcome.2.world.snapshot.any fun snapshot => decide (snapshot.status = .writerInProgress)) = true := by
    decide +kernel
  obtain ⟨c, reached, holds⟩ :=
    exists_reaches_of_after _ anyStep Set.univ (fun _ _ => trivial) passed
  simp only [Bool.and_eq_true, decide_eq_true_eq, any_eq_true] at holds
  obtain ⟨⟨row, found, claim, claimFound, snapshot, shown, bound, unsettled⟩, replayed⟩ := holds
  exact ⟨c, reached, ⟨row, claim, snapshot, found, claimFound, shown, bound⟩, ⟨claim, claimFound, unsettled⟩, replayed⟩

end VideoPoster.Billing
