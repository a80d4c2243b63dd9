import VideoPoster.Executor.Lineage
import VideoPoster.Executor.Projection

/-!
# `FalLedgerSettlementService`: the binding check
-/

namespace VideoPoster.Billing
open Python Tables Executor Interleaving Option

def settlementDenied (message : String) : Error := ⟨.other "SettlementDenied", message⟩

/-- What the final-admission verifier says during one reconciliation: it reopens protected files. -/
structure FinalAdmissionVerifier where
  matchesScope : String → Result Bool
  verify : Row → SettlementBinding → StandingBudget.Claim → Result Unit

structure SettlementService where
  verifier : Option FinalAdmissionVerifier

def Mode.text : Mode → String
  | .test => "TEST"
  | .live => "LIVE"
  | .other name => name

namespace SettlementService
variable (service : SettlementService)

def matchesScope (scope : String) : Result Bool :=
  match service.verifier with
  | none => pure false
  | some verifier => verifier.matchesScope scope

def expectedScope (localRequestId : String) (receipt : Row) : Result String :=
  match receipt.mode with
  | .test => pure "TEST_LOCAL_ONLY"
  | .live => do
    let ours ← service.matchesScope receipt.settlementBinding.authScope
    if ours = true then pure receipt.settlementBinding.authScope
    else do
      require (∃ authorization ∈ receipt.authorization, authorization.requestId = localRequestId)
        (settlementDenied "LIVE executor receipt authorization binding is missing")
      pure ("LIVE_AUTHORIZATION_REQUEST:" ++ localRequestId)
  | .other _ => .error (settlementDenied "executor receipt mode is invalid")

def Bounded (value : String) : Prop := value ≠ "" ∧ value.length ≤ 512

instance (value : String) : Decidable (Bounded value) := inferInstanceAs (Decidable (_ ∧ _))

def binding (jobs : Jobs) (localRequestId : String) (requireProviderId : Bool) :
    Result (Row × SettlementBinding) := do
  require (localRequestId ≠ "") (settlementDenied "local request id required")
  match jobs.find? localRequestId with
  | none => .error (settlementDenied "executor receipt schema-v2 binding required")
  | some receipt => do
    let binding := receipt.settlementBinding
    require (binding.localRequestId = localRequestId)
      (settlementDenied "executor settlement binding local request mismatch")
    require (Bounded binding.providerRequestId ∧ Bounded binding.endpointId ∧
        Bounded binding.authScope ∧ Bounded binding.authorityMode.text)
      (settlementDenied "executor settlement binding is malformed")
    require (binding.providerRequestId = unassigned → requireProviderId = false)
      (settlementDenied "remote provider request id is not durable")
    require (receipt.requestId = localRequestId ∧ receipt.endpoint = binding.endpointId)
      (settlementDenied "executor receipt does not bind settlement endpoint")
    let expected ← service.expectedScope localRequestId receipt
    require (binding.authScope = expected ∧ binding.authorityMode = receipt.mode)
      (settlementDenied "executor settlement auth scope mismatch")
    pure (receipt, binding)

def confirm (receipt : Row) (binding : SettlementBinding) (claim : StandingBudget.Claim) :
    Result Unit :=
  match service.verifier with
  | none => pure ()
  | some verifier => do
    let ours ← verifier.matchesScope binding.authScope
    if ours = true then verifier.verify receipt binding claim else pure ()

def reconcileBinding (jobs : Jobs) (ledger : StandingBudget.Ledger) (localRequestId : String) :
    Result (Row × SettlementBinding × StandingBudget.Claim) := do
  let (receipt, binding) ← service.binding jobs localRequestId true
  match ledger.claims.find? localRequestId with
  | none => .error (settlementDenied "matching standing-ledger reservation required")
  | some claim => do
    require (claim.provider = binding.endpointId)
      (settlementDenied "standing-ledger provider does not bind executor endpoint")
    require (claim.settlementMode = .falReadbackV2 ∧ claim.authScope = binding.authScope ∧
        claim.providerRequestId = binding.providerRequestId ∧
        claim.authorityMode = binding.authorityMode)
      (settlementDenied "standing-ledger settlement binding mismatch")
    service.confirm receipt binding claim
    pure (receipt, binding, claim)

end SettlementService

def testScope : Option BudgetAdmission → String
  | none => "TEST_LOCAL_ONLY"
  | some admission => "AUTHENTICATED_TEST_REQUEST:" ++ admission.requestId

/-- The bounds that the writers of a row have checked, and where its scope comes from. -/
structure Stamped (row : Row) : Prop where
  mode : row.mode.Explicit
  endpoint : row.endpoint ≠ ""
  scope : SettlementService.Bounded row.settlementBinding.authScope
  provider : SettlementService.Bounded row.settlementBinding.providerRequestId
  test : row.mode = .test → row.settlementBinding.authScope = testScope row.authenticatedBudgetAdmission

variable {D : Deployment} {s s' : Shared (machine D)} {pid : ℕ} {action : Act}
  {response : action.Res}

theorem intentScope_test {E : Instance} {job : Job} {admission : Option BudgetAdmission} {scope : String} (test :
    job.mode = .test) (minted : intentScope E job none admission = .ok scope) : scope = testScope admission := by
  cases admission with
  | some admission =>
    simp only [intentScope, bind_eq_ok, pure_eq_ok] at minted
    obtain ⟨_, -, same⟩ := minted
    exact same.symm
  | none =>
    have raw : ¬ (job.mode = .live ∧ job.endpoint = flux3Endpoint) := by simp [test]
    simp only [intentScope, if_neg raw, bind_eq_ok, pure_eq_ok] at minted
    obtain ⟨_, -, _, -, same⟩ := minted
    exact same.symm

theorem Stamped.of_minted {r : Reservation} (minted : Minted r) : Stamped (r.row D) where
  mode := minted.mode
  endpoint := minted.endpoint
  scope := minted.scope
  provider := by
    show SettlementService.Bounded unassigned
    decide
  test := by
    intro test
    rcases minted.origin with ⟨E, scope⟩ | ⟨raw, args, same, direct⟩
    · exact intentScope_test test scope
    · have direct : r.authScope = "TEST_LOCAL_ONLY" := by
        rw [direct, runScope, if_pos (same ▸ test)]
      show r.authScope = testScope r.authenticatedBudgetAdmission
      rw [direct, raw]
      rfl

theorem performs_bindProvider {context generation : Option ℕ} {requestId providerId partialPath : String}
    {response : Result Unit} (performs : Performs (M := machine D) pid (.bindProvider context requestId providerId
    partialPath generation) response s s') : s'.world.jobs = s.world.jobs ∨ SettlementService.Bounded providerId := by
  obtain ⟨oracle, executed⟩ := performs_exec performs
  simp only [exec, some.injEq] at executed
  cases bound : Executor.checkpointProviderBinding D context requestId providerId partialPath generation
      s.world.jobs with
  | ok jobs =>
    simp only [Executor.checkpointProviderBinding, bind_eq_ok, require_eq_ok] at bound
    obtain ⟨_, bounded, -⟩ := bound
    exact .inr bounded
  | error error =>
    rw [bound] at executed
    exact .inl (congrArg (fun outcome => outcome.1.jobs) executed).symm

theorem Stamped.update {old new : Row} (update : RowUpdate D action old new) (bounded :
    ∀ context requestId providerId partialPath generation, action = .bindProvider context requestId providerId
    partialPath generation → SettlementService.Bounded providerId) (stamped : Stamped old) : Stamped new := by
  obtain ⟨mode, endpoint, scope, provider, test⟩ := stamped
  cases update with
  | @changed E context given target update row guarded =>
    cases update <;> exact ⟨mode, endpoint, scope, provider, test⟩
  | bound => exact ⟨mode, endpoint, scope, bounded _ _ _ _ _ rfl, test⟩
  | pinned | admitted | reviewed => exact ⟨mode, endpoint, scope, provider, test⟩

theorem Stamped.performs (written : action.Written) (performs : Performs pid action response s s')
    (stamped : ∀ row ∈ s.world.jobs, Stamped row) : ∀ row ∈ s'.world.jobs, Stamped row := by
  by_cases quiet : s'.world.jobs = s.world.jobs
  · rw [quiet]
    exact stamped
  refine (performs_jobs performs).forall ?_ (fun update => Stamped.update update ?_) stamped
  · rintro r rfl
    exact .of_minted written
  · rintro context requestId providerId partialPath generation rfl
    exact (performs_bindProvider performs).resolve_left quiet

theorem stamped_of_reaches {kinds : Set Call} {c : Config (machine D) Error}
    (reaches : Reaches (callsIn D kinds) anyStep (freshRoot D) c) : ∀ row ∈ c.world.jobs, Stamped row := by
  refine Protocol.Sound.invariant (P := writing D)
    (K := fun s : Shared (machine D) => ∀ row ∈ s.world.jobs, Stamped row) (writing_admits kinds)
    (.initial trivial) ?_ (fun _ _ => id) ?_ reaches
  · intro pid action response s s' _ stamped written _ performs
    exact Stamped.performs written performs stamped
  · intro row member
    cases member

/-- The claim was reserved with the row's binding, and is bound to the same provider request. -/
structure ClaimBinds (claim : StandingBudget.Claim) (row : Row) : Prop where
  provider : claim.provider = row.settlementBinding.endpointId
  settlementMode : claim.settlementMode = .falReadbackV2
  scope : claim.authScope = row.settlementBinding.authScope
  providerRequestId : claim.providerRequestId = row.settlementBinding.providerRequestId
  authority : claim.authorityMode = row.settlementBinding.authorityMode

/-- The cases that the service covers: a TEST row without an admission of the bridge, a LIVE row with
the scope of the configured final admission, or with that of its own authorization. -/
structure Settleable (service : SettlementService) (row : Row) (claim : StandingBudget.Claim) : Prop where
  endpoint : row.endpoint.length ≤ 512
  test : row.mode = .test → row.authenticatedBudgetAdmission = none
  live : row.mode = .live → service.matchesScope row.settlementBinding.authScope = .ok true ∨
    (∃ authorization ∈ row.authorization, authorization.requestId = row.requestId) ∧
      row.settlementBinding.authScope = "LIVE_AUTHORIZATION_REQUEST:" ++ row.requestId
  verified : service.matchesScope row.settlementBinding.authScope = .ok false ∨
    service.matchesScope row.settlementBinding.authScope = .ok true ∧
      ∀ verifier ∈ service.verifier, verifier.verify row row.settlementBinding claim = .ok ()

variable {service : SettlementService} {row : Row} {claim : StandingBudget.Claim} {requestId : String}

theorem authenticated_ne_local (name : String) : "AUTHENTICATED_TEST_REQUEST:" ++ name ≠ "TEST_LOCAL_ONLY" := by
  intro same
  have lengths := congrArg (fun text => text.toList.length) same
  simp only [String.toList_append, List.length_append] at lengths
  have long : "AUTHENTICATED_TEST_REQUEST:".toList.length = 27 := by decide
  have short : "TEST_LOCAL_ONLY".toList.length = 15 := by decide
  omega

theorem testScope_local {admission : Option BudgetAdmission} :
    testScope admission = "TEST_LOCAL_ONLY" ↔ admission = none := by
  cases admission with
  | none => exact iff_of_true rfl rfl
  | some admission => exact iff_of_false (authenticated_ne_local _) (some_ne_none _)

theorem expectedScope_test (stamped : Stamped row) (test : row.mode = .test) : service.expectedScope requestId row =
    .ok row.settlementBinding.authScope ↔ row.authenticatedBudgetAdmission = none := by
  rw [← testScope_local, ← stamped.test test]
  simp only [SettlementService.expectedScope, test, pure_eq_ok]
  exact eq_comm

theorem expectedScope_live (live : row.mode = .live) {ours : Bool}
    (known : service.matchesScope row.settlementBinding.authScope = .ok ours) :
    service.expectedScope requestId row = .ok row.settlementBinding.authScope ↔ ours = true ∨
      (∃ authorization ∈ row.authorization, authorization.requestId = requestId) ∧
        row.settlementBinding.authScope = "LIVE_AUTHORIZATION_REQUEST:" ++ requestId := by
  simp only [SettlementService.expectedScope, live, known, bind_eq_ok, Except.ok.injEq, exists_eq_left']
  cases ours with
  | true => simp only [if_true, pure_eq_ok, true_or]
  | false =>
    simp only [Bool.false_eq_true, if_false, bind_eq_ok, require_eq_ok, exists_const, pure_eq_ok, false_or]
    exact and_congr_right fun _ => eq_comm

theorem binding_iff {jobs : Jobs} (found : jobs.find? requestId = some row) (named : requestId ≠ "")
    (stamped : Stamped row) (wellFormed : row.WellFormed)
    (assigned : row.settlementBinding.providerRequestId ≠ unassigned)
    {outcome : Row × SettlementBinding} :
    service.binding jobs requestId true = .ok outcome ↔ row.endpoint.length ≤ 512 ∧
      service.expectedScope requestId row = .ok row.settlementBinding.authScope ∧
      outcome = (row, row.settlementBinding) := by
  obtain ⟨-, key⟩ := Table.find?_eq_some.mp found
  have mode : SettlementService.Bounded row.settlementBinding.authorityMode.text := by
    rw [wellFormed.authority]
    rcases stamped.mode with test | live
    · rw [test]
      decide
    · rw [live]
      decide
  have endpoint : SettlementService.Bounded row.endpoint ↔ row.endpoint.length ≤ 512 :=
    and_iff_right stamped.endpoint
  rw [wellFormed.authority] at mode
  simp only [SettlementService.binding, found, bind_eq_ok, require_eq_ok, exists_const, pure_eq_ok,
    wellFormed.endpoint, wellFormed.bound, key, named, mode, endpoint, stamped.scope,
    stamped.provider, assigned, wellFormed.authority, ne_eq, not_false_eq_true, IsEmpty.forall_iff,
    true_and, and_true]
  constructor
  · rintro ⟨short, expected, scope, rfl, rfl⟩
    exact ⟨short, scope, rfl⟩
  · rintro ⟨short, scope, rfl⟩
    exact ⟨short, _, scope, rfl, rfl⟩

theorem confirm_eq_ok : service.confirm row row.settlementBinding claim = .ok () ↔ service.matchesScope
    row.settlementBinding.authScope = .ok false ∨ service.matchesScope row.settlementBinding.authScope =
    .ok true ∧ ∀ verifier ∈ service.verifier, verifier.verify row row.settlementBinding claim = .ok () := by
  unfold SettlementService.confirm SettlementService.matchesScope
  cases service.verifier with
  | none => simp [pure, Except.pure]
  | some verifier =>
    simp only [bind_eq_ok, mem_some_iff, forall_eq']
    constructor
    · rintro ⟨ours, known, verified⟩
      cases ours with
      | false => exact .inl known
      | true => exact .inr ⟨known, by simpa using verified⟩
    · rintro (known | ⟨known, verified⟩)
      · exact ⟨false, known, rfl⟩
      · exact ⟨true, known, by simpa using verified⟩

theorem expectedScope_iff (stamped : Stamped row) {ours : Bool}
    (known : service.matchesScope row.settlementBinding.authScope = .ok ours) :
    service.expectedScope requestId row = .ok row.settlementBinding.authScope ↔
      (row.mode = .test → row.authenticatedBudgetAdmission = none) ∧
      (row.mode = .live → ours = true ∨ (∃ authorization ∈ row.authorization, authorization.requestId = requestId) ∧
          row.settlementBinding.authScope = "LIVE_AUTHORIZATION_REQUEST:" ++ requestId) := by
  rcases stamped.mode with test | live
  · rw [expectedScope_test stamped test]
    simp [test]
  · rw [expectedScope_live live known]
    simp [live]

theorem reconcileBinding_iff {jobs : Jobs} {ledger : StandingBudget.Ledger}
    (found : jobs.find? requestId = some row) (named : requestId ≠ "") (stamped : Stamped row)
    (wellFormed : row.WellFormed) (assigned : row.settlementBinding.providerRequestId ≠ unassigned)
    (claimFound : ledger.claims.find? requestId = some claim) (binds : ClaimBinds claim row) :
    (∃ outcome, service.reconcileBinding jobs ledger requestId = .ok outcome) ↔ Settleable service row claim := by
  obtain ⟨-, key⟩ := Table.find?_eq_some.mp found
  have bound : claim.settlementMode = .falReadbackV2 ∧ claim.authScope = row.settlementBinding.authScope ∧
      claim.providerRequestId = row.settlementBinding.providerRequestId ∧
      claim.authorityMode = row.settlementBinding.authorityMode :=
    ⟨binds.settlementMode, binds.scope, binds.providerRequestId, binds.authority⟩
  have accepted : (∃ outcome, service.reconcileBinding jobs ledger requestId = .ok outcome) ↔
      row.endpoint.length ≤ 512 ∧
      service.expectedScope requestId row = .ok row.settlementBinding.authScope ∧
      service.confirm row row.settlementBinding claim = .ok () := by
    simp only [SettlementService.reconcileBinding, bind_eq_ok,
      binding_iff found named stamped wellFormed assigned, claimFound]
    constructor
    · rintro ⟨outcome, _, ⟨short, scope, rfl⟩, _, -, _, -, _, confirmed, -⟩
      exact ⟨short, scope, confirmed⟩
    · rintro ⟨short, scope, confirmed⟩
      exact ⟨_, _, ⟨short, scope, rfl⟩, (), require_eq_ok.mpr binds.provider, (),
        require_eq_ok.mpr bound, (), confirmed, rfl⟩
  rw [accepted, confirm_eq_ok]
  constructor
  · rintro ⟨short, scope, verified⟩
    have answered : ∃ ours, service.matchesScope row.settlementBinding.authScope = .ok ours := by
      rcases verified with known | ⟨known, -⟩
      · exact ⟨_, known⟩
      · exact ⟨_, known⟩
    obtain ⟨ours, known⟩ := answered
    obtain ⟨test, live⟩ := (expectedScope_iff stamped known).mp scope
    exact ⟨short, test, fun mode => by simpa [known, key] using live mode, verified⟩
  · rintro ⟨short, test, live, verified⟩
    refine ⟨short, ?_, verified⟩
    rcases verified with known | ⟨known, -⟩
    · refine (expectedScope_iff stamped known).mpr ⟨test, fun mode => ?_⟩
      simpa [known, key] using live mode
    · exact (expectedScope_iff stamped known).mpr ⟨test, fun _ => .inl rfl⟩

theorem written_of_reaches {D : Deployment} {kinds : Set Call} {c : Config (machine D) Error}
    (reaches : Reaches (callsIn D kinds) anyStep (freshRoot D) c)
    (found : c.world.jobs.find? requestId = some row) :
    requestId ≠ "" ∧ Stamped row ∧ row.WellFormed := by
  obtain ⟨member, key⟩ := Table.find?_eq_some.mp found
  refine ⟨key ▸ (LineageInv.of_reaches reaches).identified row member, stamped_of_reaches reaches row member, ?_⟩
  exact (sound_freshRoot.reaches (discipline_admits fun _ : ℕ => subset_refl kinds) reaches).inv.wellFormed row member

theorem settleable_iff {D : Deployment}
    {kinds : Set Call} {c : Config (machine D) Error} (reaches : Reaches (callsIn D kinds) anyStep (freshRoot D) c)
    (found : c.world.jobs.find? requestId = some row) (assigned : row.settlementBinding.providerRequestId ≠ unassigned)
    (claimFound : c.world.ledger.claims.find? requestId = some claim) (binds : ClaimBinds claim row) : (∃ outcome,
    service.reconcileBinding c.world.jobs c.world.ledger requestId = .ok outcome) ↔ Settleable service row claim := by
  obtain ⟨named, stamped, wellFormed⟩ := written_of_reaches reaches found
  exact reconcileBinding_iff found named stamped wellFormed assigned claimFound binds

instance : Decidable (ClaimBinds claim row) :=
  decidable_of_iff (claim.provider = row.settlementBinding.endpointId ∧
      claim.settlementMode = .falReadbackV2 ∧ claim.authScope = row.settlementBinding.authScope ∧
      claim.providerRequestId = row.settlementBinding.providerRequestId ∧
      claim.authorityMode = row.settlementBinding.authorityMode)
    ⟨fun ⟨provider, mode, scope, id, authority⟩ => ⟨provider, mode, scope, id, authority⟩,
      fun ⟨provider, mode, scope, id, authority⟩ => ⟨provider, mode, scope, id, authority⟩⟩

def awaitsSettlement {D : Deployment} (test : Row → Bool) (c : Config (machine D) Error) : Bool :=
  (c.world.jobs.find? sampleFalId).any fun row =>
    (c.world.ledger.claims.find? sampleFalId).any fun claim =>
      decide (row.status = .complete ∧ row.settlementBinding.providerRequestId ≠ unassigned ∧
        ClaimBinds claim row) && test row

theorem awaitsSettlement_records {D : Deployment}
    {test : Row → Bool} {c : Config (machine D) Error} (awaits : awaitsSettlement test c = true) : ∃ row claim,
    c.world.jobs.find? sampleFalId = some row ∧ c.world.ledger.claims.find? sampleFalId = some claim ∧ row.status =
    .complete ∧ row.settlementBinding.providerRequestId ≠ unassigned ∧ ClaimBinds claim row ∧ test row = true := by
  simp only [awaitsSettlement, any_eq_true, Bool.and_eq_true, decide_eq_true_eq] at awaits
  obtain ⟨row, found, claim, claimFound, ⟨complete, assigned, binds⟩, holds⟩ := awaits
  exact ⟨row, claim, found, claimFound, complete, assigned, binds, holds⟩

theorem plain_test_settleable : ∃ c, Reaches (callsIn (sampleDeployment 6) Set.univ) anyStep
    (freshRoot (sampleDeployment 6)) c ∧ ∃ row, c.world.jobs.find? sampleFalId = some row ∧ row.status = .complete ∧
    ∃ outcome, SettlementService.reconcileBinding ⟨none⟩ c.world.jobs c.world.ledger sampleFalId = .ok outcome := by
  have passed : (after (sampleDeployment 6) anyStep (freshRoot _) [admissionTurn, pinnedTurn]).any
      (awaitsSettlement fun row => decide (row.mode = .test ∧ row.endpoint = "fal-ai/flux" ∧
        row.authenticatedBudgetAdmission = none)) = true := by
    decide +kernel
  obtain ⟨c, reached, awaits⟩ :=
    exists_reaches_of_after _ anyStep Set.univ (fun _ _ => trivial) passed
  obtain ⟨row, claim, found, claimFound, complete, assigned, binds, holds⟩ :=
    awaitsSettlement_records awaits
  obtain ⟨test, endpoint, raw⟩ := of_decide_eq_true holds
  have short : row.endpoint.length ≤ 512 := by
    rw [endpoint]
    decide
  exact ⟨c, reached, row, found, complete, (settleable_iff reached found assigned claimFound binds).mpr
    ⟨short, fun _ => raw, fun live => absurd (live.symm.trans test) (by decide), .inl rfl⟩⟩

def sampleBridged : Deployment := { sampleDeployment 6 with composition := some "bridge-1" }

def sampleBridgeOracle : Oracle where
  answer
    | .bridgeComposition => .ok "bridge-1"
    | .policy =>
      .ok ⟨.test, ["fal-ai/flux"], "budget-1", "episode-1", emptySha256, "5.000000", "20.000000", "1.000000"⟩
    | other => (sampleOracle none (sampleProvider 1)).answer other
  provider := .checkpoint "fal-1" "" fun _ => sampleProvider 1

def sampleBridgeReserve : StandingBudget.Op := .reserve none (.ok "2026-07")
  { requestId := sampleFalId, episodeId := "episode-1", provider := "fal-ai/flux",
    quotedCapUsd := .finite false 1 0, settlementMode := .falReadbackV2,
    authScope := "AUTHENTICATED_TEST_REQUEST:budget-1", authorityMode := some .test }

def bridgedTurns : List Turn :=
  [⟨.prepareIntent sampleLedgerExecutor sampleFal none none none, sampleBridgeOracle, 7, false⟩,
    ⟨.ledger sampleBridgeReserve, sampleBridgeOracle, 2, false⟩,
    ⟨.bindPreparedStandingLedgerAdmission sampleLedgerExecutor sampleFal, sampleBridgeOracle, 9, false⟩,
    ⟨.run { executor := sampleLedgerExecutor, job := sampleFal, providerMode := .test,
            settlementCheckpoint := .hook true, submitPrepared := true }, sampleBridgeOracle, 20, false⟩]

theorem bridged_test_not_settleable : ∃ c, Reaches (callsIn sampleBridged Set.univ) anyStep (freshRoot sampleBridged)
    c ∧ ∃ row claim, c.world.jobs.find? sampleFalId = some row ∧ c.world.ledger.claims.find? sampleFalId = some claim ∧
    row.status = .complete ∧ row.settlementBinding.providerRequestId ≠ unassigned ∧ ClaimBinds claim row ∧ ∀ service :
    SettlementService, ¬ ∃ outcome, service.reconcileBinding c.world.jobs c.world.ledger sampleFalId = .ok outcome := by
  have passed : (after sampleBridged anyStep (freshRoot _) bridgedTurns).any
      (awaitsSettlement fun row => decide (row.mode = .test ∧ row.authenticatedBudgetAdmission ≠ none)) = true := by
    decide +kernel
  obtain ⟨c, reached, awaits⟩ :=
    exists_reaches_of_after _ anyStep Set.univ (fun _ _ => trivial) passed
  obtain ⟨row, claim, found, claimFound, complete, assigned, binds, holds⟩ :=
    awaitsSettlement_records awaits
  obtain ⟨test, admitted⟩ := of_decide_eq_true holds
  refine ⟨c, reached, row, claim, found, claimFound, complete, assigned, binds, fun service accepted => ?_⟩
  obtain ⟨named, stamped, wellFormed⟩ := written_of_reaches reached found
  exact admitted (((reconcileBinding_iff found named stamped wellFormed assigned claimFound binds).mp
    accepted).test test)

/-- A row as any history of calls leaves it. -/
structure Auditable (row : Row) : Prop where
  named : row.requestId ≠ ""
  stamped : Stamped row
  wellFormed : row.WellFormed
  receipt : row.status = .complete → row.result ≠ none ∧ row.actualCost = some row.charged

theorem rows_auditable {D : Deployment} {kinds : Set Call} {c : Config (machine D) Error}
    (reaches : Reaches (callsIn D kinds) anyStep (freshRoot D) c) : ∀ row ∈ c.world.jobs, Auditable row := by
  intro row member
  obtain ⟨named, stamped, wellFormed⟩ := written_of_reaches reaches (Table.find?_eq_some.mpr ⟨member, rfl⟩)
  refine ⟨named, stamped, wellFormed, fun complete => ?_⟩
  exact ⟨receipted_of_reaches reaches row member complete, (priced_of_reaches reaches row member complete).1⟩

theorem bridged_row_auditable : ∃ c, Reaches (callsIn sampleBridged Set.univ) anyStep (freshRoot sampleBridged) c ∧
    ∃ row ∈ c.world.jobs, row.status = .complete ∧ Auditable row := by
  have passed : (after sampleBridged anyStep (freshRoot _) bridgedTurns).any
      (fun c => c.world.jobs.rows.any fun row => decide (row.status = .complete)) = true := by decide +kernel
  obtain ⟨c, reached, holds⟩ := exists_reaches_of_after _ anyStep Set.univ (fun _ _ => trivial) passed
  obtain ⟨row, member, complete⟩ := List.any_eq_true.mp holds
  exact ⟨c, reached, row, member, of_decide_eq_true complete, rows_auditable reached row member⟩

end VideoPoster.Billing
