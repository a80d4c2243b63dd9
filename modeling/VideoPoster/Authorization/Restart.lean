import VideoPoster.Authorization.Saga

/-!
# Interrupted admissions
-/

namespace VideoPoster.Authorization
open Python Billing Tables Interleaving Executor Authorization Stage Option Table StandingBudget.ReserveArgs

variable {D : Deployment} {E : Instance} {B : AuthenticatedBudgetBridge} {job : Job} {oracle : Oracle} {pid : ℕ}
  {w w' : World}

/-! ## Interrupted calls -/

structure Progress (D : Deployment) (B : AuthenticatedBudgetBridge) (job : Job) (w₀ w : World) : Prop where
  jobs : w.jobs = w₀.jobs ∨ ∃ stage : Stage, w.jobs = w₀.jobs.put (stage.row D B job)
  ledger : w.ledger = w₀.ledger ∨ ∃ claim, Reserves D B job claim ∧ w.ledger = claimed w₀.ledger claim

structure Fresh (D : Deployment) (job : Job) (w : World) : Prop where
  intent : w.jobs.find? (D.requestId job) = none
  claim : w.ledger.claims.find? (D.requestId job) = none

section Progress
variable {w₀ : World}

theorem Progress.found (progress : Progress D B job w₀ w) (fresh : Fresh D job w₀) {row : Row}
    (found : w.jobs.find? (D.requestId job) = some row) : ∃ stage : Stage, row = stage.row D B job := by
  rcases progress.jobs with same | ⟨stage, put⟩
  · rw [same, fresh.intent] at found
    cases found
  · refine ⟨stage, ?_⟩
    have there := find?_put_self w₀.jobs (stage.row D B job)
    rw [stage.row_requestId, ← put, found] at there
    exact some.inj there

theorem Progress.claimed (progress : Progress D B job w₀ w) (fresh : Fresh D job w₀) :
    w.ledger.claims.find? (D.requestId job) = none ∧ w.ledger = w₀.ledger ∨ ∃ claim, w.ledger.claims.find?
    (D.requestId job) = some claim ∧ Reserves D B job claim ∧ w.ledger = claimed w₀.ledger claim := by
  rcases progress.ledger with same | ⟨claim, reserves, put⟩
  · exact .inl ⟨same ▸ fresh.claim, same⟩
  · refine .inr ⟨claim, ?_, reserves, put⟩
    rw [put, ← reserves.named]
    exact find?_put_self _ _

/-! ### Every action keeps to the stages -/

abbrev Keeps {α : Type} (D : Deployment) (B : AuthenticatedBudgetBridge) (job : Job) (w₀ : World) (oracle : Oracle)
    (pid : ℕ) (Q : α → Prop) (program : Program α) : Prop :=
  program.Maintains (M := machine D) oracle pid (Progress D B job w₀) Q

theorem keeps_still {α : Type} {program : Program α} (only : program.Only Act.Still) :
    Keeps D B job w₀ oracle pid (fun _ => True) program :=
  only.maintains still_keeps

theorem keeps_ask (query : Query) : Keeps D B job w₀ oracle pid (· = oracle.answer query) (Program.ask query) := by
  refine @Prog.Maintains.perform actions (machine D) Error oracle pid _ (.ask query) _ fun start executed => ?_
  simp only [exec, some.injEq, Prod.mk.injEq] at executed
  obtain ⟨rfl, rfl⟩ := executed
  exact ⟨start, rfl⟩

theorem keeps_ofResult {α : Type} (result : Result α) :
    Keeps D B job w₀ oracle pid (fun x => result = .ok x) (Program.ofResult result) :=
  .ofExcept result

theorem keeps_require {condition : Prop} [Decidable condition] {error : Error} :
    Keeps D B job w₀ oracle pid (fun _ => condition) (Program.require condition error) :=
  (Prog.Maintains.ofExcept _).weaken fun _ ok => require_eq_ok.mp ok

theorem keeps_inspect (fresh : Fresh D job w₀) : Keeps D B job w₀ oracle pid (fun found => ∀ row,
    found = some row → ∃ stage : Stage, row = stage.row D B job) (Program.inspect (D.requestId job)) := by
  refine @Prog.Maintains.perform actions (machine D) Error oracle pid _ (.inspect (D.requestId job)) _
    fun start executed => ?_
  simp only [exec, some.injEq, Prod.mk.injEq] at executed
  obtain ⟨rfl, rfl⟩ := executed
  exact ⟨start, fun row found => start.found fresh found⟩

theorem Progress.withJobs {jobs : Jobs} (progress : Progress D B job w₀ w)
    (staged : jobs = w.jobs ∨ ∃ stage : Stage, jobs = w.jobs.put (stage.row D B job)) :
    Progress D B job w₀ { w with jobs := jobs } := by
  refine ⟨?_, progress.ledger⟩
  rcases staged with rfl | ⟨stage, rfl⟩
  · exact progress.jobs
  · rcases progress.jobs with same | ⟨earlier, put⟩
    · exact .inr ⟨stage, by rw [same]⟩
    · refine .inr ⟨stage, ?_⟩
      show w.jobs.put _ = _
      rw [put, put_put]
      rw [stage.row_requestId, earlier.row_requestId]

theorem keeps_reserve : Keeps D B job w₀ oracle pid (fun _ => True) (Program.reserve (reservation B job D)) := by
  refine .request fun {w w' response} start executed => ?_
  simp only [exec, some.injEq] at executed
  cases stored : reserveRow D (fun path => oracle.answer (.fileSha path)) (reservation B job D) w.jobs with
  | error error =>
    rw [stored] at executed
    cases executed
    exact ⟨start, fun _ _ => trivial⟩
  | ok done =>
    obtain ⟨jobs, inserted⟩ := done
    rw [stored] at executed
    cases executed
    refine ⟨start.withJobs ?_, fun _ _ => trivial⟩
    rcases reserveRow_ok stored with ⟨-, same, -⟩ | ⟨-, -, put⟩
    · exact .inl same
    · exact .inr ⟨.intent, put⟩

theorem keeps_prepared (fresh : Fresh D job w₀) : Keeps D B job w₀ oracle pid (fun _ => True)
    (Program.change E none none (D.requestId job) .prepared) := by
  refine .request fun {w w' response} start executed => ?_
  simp only [exec, some.injEq] at executed
  cases changed : changeRow E none none (D.requestId job) .prepared w.jobs with
  | error error =>
    rw [changed] at executed
    cases executed
    exact ⟨start, fun _ _ => trivial⟩
  | ok jobs =>
    rw [changed] at executed
    cases executed
    obtain ⟨row, found, -, rfl⟩ := changeRow_ok changed
    obtain ⟨stage, rfl⟩ := start.found fresh found
    refine ⟨start.withJobs (.inr ?_), fun _ _ => trivial⟩
    cases stage with
    | intent => exact ⟨.prepared, rfl⟩
    | prepared => exact ⟨.prepared, rfl⟩
    | admitted => exact ⟨.admitted, rfl⟩

variable {policy : BudgetPolicy} {trustDigest : String}

theorem keeps_configured (covers : Covers B oracle policy) (composed : D.composition = some trustDigest) :
    Keeps D B job w₀ oracle pid (· = some (budgetAdmission D B job)) (configuredAuthenticatedBudgetBinding D job) where
  kept := (keeps_still (only_configuredAuthenticatedBudgetBinding job)).kept
  value _ ends := by
    obtain ⟨-, -, -, -, same, -⟩ := (ends_configured_iff covers composed).mp ends
    exact same

section
variable (fresh : Fresh D job w₀)
include fresh

theorem keeps_prepareIntent (covers : Covers B oracle policy) (composed : D.composition =
    some trustDigest) : Keeps D B job w₀ oracle pid (fun _ => True) (prepareIntent D E none job none none none) := by
  have contract := @keeps_still D B job oracle pid w₀ _ _ (only_validateInputContract job)
  unfold prepareIntent reserve readBack
  refine keeps_require.bind fun _ _ => (keeps_ofResult _).bind fun _ _ => contract.bind fun _ _ =>
    (keeps_configured covers composed).bind ?_
  rintro _ rfl
  refine (keeps_ofResult _).bind fun scope bound => ?_
  cases bound.symm.trans (intentScope_eq _)
  refine .bind (Q := fun _ => True) ?_ fun inserted _ => ?_
  · refine keeps_require.bind fun _ _ => keeps_require.bind fun _ _ => keeps_require.bind fun _ _ =>
      (keeps_ofResult _).bind fun _ _ => contract.bind fun _ _ => (keeps_ofResult _).bind fun scope settled => ?_
    cases settlementScope_ok settled
    exact keeps_reserve
  refine (keeps_inspect fresh).bind fun found _ => .bind (Q := fun _ => True) ?_ fun found _ => ?_
  · split
    · exact (keeps_prepared fresh).bind fun _ _ => keeps_still (only_inspect _)
    · exact .pure trivial
  exact (keeps_ofResult _).bind fun row _ => keeps_require.bind fun _ _ => .pure trivial

theorem keeps_ledgerReserve (month : Result String) :
    Keeps D B job w₀ oracle pid (fun _ => True) (Program.ledger (.reserve none month (reserveArgs D B job))) := by
  refine .request fun {w w' response} start executed => ?_
  simp only [exec, StandingBudget.Ledger.step, StandingBudget.Op.apply, some.injEq] at executed
  refine ⟨?_, fun _ _ => trivial⟩
  cases applied : StandingBudget.reserve D.policy none month (reserveArgs D B job) w.ledger with
  | error error =>
    rw [applied] at executed
    cases executed
    exact start
  | ok done =>
    obtain ⟨ledger, claim⟩ := done
    rw [applied] at executed
    cases executed
    rcases start.claimed fresh with ⟨absent, same⟩ | ⟨there, found, reserves, put⟩
    · obtain ⟨reserves, written⟩ := ledgerReserve_new absent applied
      exact ⟨start.jobs, .inr ⟨claim, reserves, same ▸ written⟩⟩
    · rcases StandingBudget.reserve_ok applied with ⟨-, same⟩ | ⟨absent, -⟩
      · exact ⟨start.jobs, .inr ⟨there, reserves, same.trans put⟩⟩
      · cases found.symm.trans absent

theorem keeps_bindAdmission (stage : Stage) : Keeps D B job w₀ oracle pid (fun _ => True)
    (Program.bindAdmission (D.requestId job) (stage.row D B job).settlementBinding (admissionMarker D B job)) := by
  refine .request fun {w w' response} start executed => ?_
  simp only [exec, some.injEq] at executed
  refine ⟨?_, fun _ _ => trivial⟩
  cases bound : Executor.bindAdmission (D.requestId job) (stage.row D B job).settlementBinding
      (admissionMarker D B job) w.jobs with
  | error error =>
    rw [bound] at executed
    cases executed
    exact start
  | ok jobs =>
    rw [bound] at executed
    cases executed
    obtain ⟨row, found, prepared, rfl⟩ := bindAdmission_ok bound
    obtain ⟨there, rfl⟩ := start.found fresh found
    refine start.withJobs (.inr ⟨.admitted, ?_⟩)
    cases there with
    | intent => cases prepared
    | prepared => rfl
    | admitted => rfl

theorem keeps_bindPrepared (covers : Covers B oracle policy) (composed : D.composition = some
    trustDigest) : Keeps D B job w₀ oracle pid (fun _ => True) (bindPreparedStandingLedgerAdmission D E none job) := by
  unfold bindPreparedStandingLedgerAdmission
  refine (keeps_inspect fresh).bind fun found staged => (keeps_ofResult _).bind fun row there => ?_
  have listed : found = some row := by
    cases found with
    | none => cases there
    | some _ =>
      cases there
      rfl
  obtain ⟨stage, rfl⟩ := staged row listed
  refine keeps_require.bind fun _ _ => (keeps_ofResult _).bind fun _ _ =>
    (keeps_still (only_verifyPreparedFalAdmission _ _ _ _)).bind fun _ _ => ?_
  unfold freshAuthenticatedBudgetAdmission
  rw [stage.row_admission]
  refine .bind (Q := (· = some (budgetAdmission D B job))) ((keeps_configured covers composed).bind ?_) ?_
  · rintro _ rfl
    exact keeps_require.bind fun _ _ => .pure rfl
  rintro _ rfl
  refine (keeps_ofResult _).bind fun admission same => ?_
  cases same
  rw [stage.intends.marker]
  exact (keeps_bindAdmission fresh stage).bind fun _ _ => keeps_still (only_inspect _)

end

theorem only_loadPolicy : (loadPolicy B).Only Act.Still := by
  unfold loadPolicy
  exact (only_ask _).bind fun _ => (only_ofResult _).bind fun _ => (only_require _ _).bind fun _ => trivial

theorem only_matches : (matchesAuthenticatedBudgetBridge D E B).Only Act.Still := by
  unfold matchesAuthenticatedBudgetBridge
  split
  · split_ifs
    · exact (only_ask _).bind fun _ => (only_ofResult _).bind fun _ => trivial
    · trivial
  · trivial

theorem only_existingClaim : (existingClaim D job).Only Act.Still := by
  unfold existingClaim
  have read : (Program.ledger (.claim (D.requestId job))).Only Act.Still := ⟨trivial, fun _ => .ofExcept _⟩
  refine read.attempt.bind fun answer => ?_
  cases answer with
  | ok claim => trivial
  | error error =>
    show Prog.Only _ (if error.kind = .budgetDenied then pure none else .raise error)
    split_ifs <;> trivial

theorem keeps_prepareAndAdmit (fresh : Fresh D job w₀) (covers : Covers B oracle policy) (composed :
    D.composition = some trustDigest) : Keeps D B job w₀ oracle pid (fun _ => True) (prepareAndAdmit D E B job) := by
  unfold prepareAndAdmit
  refine (keeps_prepareIntent fresh covers composed).bind fun _ _ => keeps_require.bind fun _ _ =>
    (keeps_ask .month).bind fun month _ => (keeps_ledgerReserve fresh month).bind fun _ _ =>
    keeps_require.bind fun _ _ => (keeps_bindPrepared fresh covers composed).bind fun _ _ =>
    keeps_require.bind fun _ _ => .pure trivial

theorem keeps_admitClaimed (fresh : Fresh D job w₀) (covers : Covers B oracle policy)
    (composed : D.composition = some trustDigest) (existing : Option StandingBudget.Claim) :
    Keeps D B job w₀ oracle pid (fun _ => True) (admitClaimed D E B job existing) := by
  unfold admitClaimed
  split
  · exact .pure trivial
  refine (keeps_inspect fresh).bind fun intent _ => ?_
  split_ifs
  · unfold completedClaim
    split
    · exact keeps_require.bind fun _ _ => .pure trivial
    · exact .raise _
  · exact keeps_prepareAndAdmit fresh covers composed

theorem keeps_admission (fresh : Fresh D job w₀) :
    Keeps D B job w₀ oracle pid (fun _ => True) (admitExecutorIntent D E B job) := by
  have loaded : Keeps D B job w₀ oracle pid (Covers B oracle) (loadPolicy B) := by
    refine ⟨(keeps_still only_loadPolicy).kept, fun _ ends => ?_⟩
    obtain ⟨answered, binds, -⟩ := ends_loadPolicy_iff.1 ends
    exact ⟨answered, binds⟩
  have matched : Keeps D B job w₀ oracle pid
      (fun configured => configured = true → ∃ trustDigest, D.composition = some trustDigest)
      (matchesAuthenticatedBudgetBridge D E B) := by
    refine ⟨(keeps_still only_matches).kept, fun {_ _ configured} _ ends same => ?_⟩
    subst same
    obtain ⟨⟨trustDigest, composed, -⟩, -⟩ := ends_matches_iff.1 ends
    exact ⟨trustDigest, composed⟩
  unfold admitExecutorIntent
  refine loaded.bind fun policy covers => keeps_require.bind fun _ _ => matched.bind fun configured composition =>
    keeps_require.bind fun _ same => (keeps_still only_existingClaim).bind fun existing _ => ?_
  obtain ⟨trustDigest, composed⟩ := composition same
  exact keeps_admitClaimed fresh covers composed existing

/-! ## Calling again -/

/-- The world after any number of calls that were cut off anywhere, under whatever the outside answered. -/
inductive Interrupted (D : Deployment) (E : Instance) (B : AuthenticatedBudgetBridge) (job : Job) (w₀ : World) :
    World → Prop
  | none : Interrupted D E B job w₀ w₀
  | again {oracle : Oracle} {pid : ℕ} {w w' : World} (earlier : Interrupted D E B job w₀ w)
      (cut : (admitExecutorIntent D E B job).Cut (M := machine D) oracle pid w w') :
      Interrupted D E B job w₀ (w'.crash pid)

theorem Interrupted.progress (fresh : Fresh D job w₀) (interrupted : Interrupted D E B job w₀ w) :
    Progress D B job w₀ w := by
  induction interrupted with
  | none => exact ⟨.inl rfl, .inl rfl⟩
  | again _ cut ih =>
    obtain ⟨jobs, ledger⟩ := (keeps_admission fresh).kept ih cut
    exact ⟨jobs, ledger⟩

structure Granted (D : Deployment) (E : Instance) (B : AuthenticatedBudgetBridge) (job : Job) (oracle : Oracle)
    (pid : ℕ) (w₀ : World) : Prop where
  authority : Authority D E B job oracle pid
  configured : E.standingLedger ≠ none
  plain : job.endpoint ≠ flux3Endpoint
  stored : reserveRow D (fun path => oracle.answer (.fileSha path)) (reservation B job D) w₀.jobs =
    .ok (w₀.jobs.put (intent.row D B job), true)
  reserved : ∃ claim, Reserves D B job claim ∧ claim.reservedUsd = job.cost.toRat ∧
    StandingBudget.reserve D.policy none (oracle.answer .month) (reserveArgs D B job) w₀.ledger =
      .ok (claimed w₀.ledger claim, claim)

variable {claim : StandingBudget.Claim}

theorem granted_of_returns (fresh : Fresh D job w₀) (ends :
    EndsIn D oracle pid (admitExecutorIntent D E B job) w₀ (.ok claim) w') : Granted D E B job oracle pid w₀ := by
  obtain ⟨policy, trustDigest, covers, composed, created, ends⟩ := admit_ok ends
  rw [fresh.claim] at ends
  have ends := admitClaimed_ok (by simp) (by simp [fresh.intent]) ends
  obtain ⟨row, w₁, w₂, prepared, reserved, kept, binds, admitted, marked⟩ := prepareAndAdmit_ok ends
  obtain ⟨⟨test, configured, policyTest, allowed, valid, contract, scope⟩, found⟩ :=
    prepareIntent_ok covers composed prepared
  rcases found with ⟨there, -⟩ | ⟨-, stored, rfl, rfl⟩
  · cases fresh.intent.symm.trans there
  obtain ⟨reserves, ledger⟩ := ledgerReserve_new fresh.claim reserved
  obtain ⟨row, there, -, w₃, verified⟩ := bindPrepared_ok marked
  rw [kept] at there
  have put := find?_put_self w₀.jobs (Stage.prepared.row D B job)
  rw [row_requestId] at put
  cases there.symm.trans put
  obtain ⟨standing, plain⟩ := verify_ok (row_marker _) verified
  exact ⟨⟨test, created, ⟨trustDigest, composed, configured⟩, ⟨policy, covers, policyTest⟩, allowed, valid, contract,
    scope⟩, standing, plain, stored, ⟨claim, reserves, binds.2.2.1, by rw [reserved, ledger]⟩⟩

theorem Reserves.reservedUsd {other : StandingBudget.Claim} (reserves : Reserves D B job claim)
    (others : Reserves D B job other) : claim.reservedUsd = other.reservedUsd ∧ { claim with month := other.month } = other := by
  obtain ⟨cap, recorded, counted, rfl⟩ := reserves
  obtain ⟨cap', recorded', counted', rfl⟩ := others
  cases counted.symm.trans counted'
  exact ⟨rfl, rfl⟩

section Again
variable (granted : Granted D E B job oracle pid w₀) (fresh : Fresh D job w₀)
  (progress : Progress D B job w₀ w)
include granted

include fresh progress in
theorem reserves_again : ∃ claim, Reserves D B job claim ∧ StandingBudget.reserve D.policy none (oracle.answer .month)
    (reserveArgs D B job) w.ledger = .ok (claimed w₀.ledger claim, claim)
    ∧ ∀ c, w.ledger.claims.find? (D.requestId job) = some c → claim = c := by
  obtain ⟨first, reserves, -, reserved⟩ := granted.reserved
  rcases progress.claimed fresh with ⟨absent, same⟩ | ⟨claim, found, reserves', put⟩
  · exact ⟨first, reserves, same ▸ reserved, by simp [absent]⟩
  · refine ⟨claim, reserves', ?_, fun c same => some.inj (found.symm.trans same)⟩
    rw [← put]
    exact ledgerReserve_again reserved found reserves'

include progress in
theorem prepares_again (past : ∀ row, w.jobs.find? (D.requestId job) = some row → row.status ≠ .intent) :
    ∃ stage : Stage, stage ≠ .intent ∧
      EndsIn D oracle pid (prepareIntent D E none job none none none) w (.ok (stage.row D B job))
        { w with jobs := w₀.jobs.put (stage.row D B job) } := by
  rcases progress.jobs with same | ⟨stage, put⟩
  · refine ⟨.prepared, by decide, ?_⟩
    have stored := granted.stored
    rw [← same] at stored
    have inserted := find?_put_self w.jobs (intent.row D B job)
    rw [row_requestId] at inserted
    have marked := @ends_markPrepared D E B job oracle pid { w with jobs := w.jobs.put (intent.row D B job) }
      .intent inserted
    have twice : ((w.jobs.put (intent.row D B job)).put (prepared.row D B job)) =
        w₀.jobs.put (prepared.row D B job) := by
      rw [same, put_put]
      rfl
    refine ends_prepareIntent granted.authority stored ?_ (by simp [row])
    rw [← twice]
    exact marked
  · have found : w.jobs.find? (D.requestId job) = some (stage.row D B job) := by
      rw [put]
      have there := find?_put_self w₀.jobs (stage.row D B job)
      rwa [stage.row_requestId] at there
    have prepared : (stage.row D B job).status = .prepared := by
      cases stage with
      | intent => exact absurd rfl (past _ found)
      | prepared => rfl
      | admitted => rfl
    have present : reserveRow D (fun path => oracle.answer (.fileSha path)) (reservation B job D) w.jobs =
        .ok (w.jobs, false) := by
      unfold reserveRow
      rw [show (reservation B job D).job = job from rfl, found]
      rfl
    refine ⟨stage, ?_, ?_⟩
    · rintro rfl
      exact past _ found rfl
    · rw [← put]
      refine ends_prepareIntent granted.authority present ?_ (by simp [prepared])
      rw [found]
      exact .pure _

theorem ends_prepareAndAdmit {stage : Stage} (reserves : Reserves D B job claim)
    (reserved : StandingBudget.reserve D.policy none (oracle.answer .month) (reserveArgs D B job) w.ledger =
      .ok (claimed w₀.ledger claim, claim))
    (past : stage ≠ .intent)
    (prepared : EndsIn D oracle pid (prepareIntent D E none job none none none) w (.ok (stage.row D B job))
      { w with jobs := w₀.jobs.put (stage.row D B job) }) :
    EndsIn D oracle pid (prepareAndAdmit D E B job) w (.ok claim)
      { w with
        jobs := w₀.jobs.put (admitted.row D B job), ledger := claimed w₀.ledger claim } := by
  obtain ⟨first, others, exactly, -⟩ := granted.reserved
  have value : claim.reservedUsd = job.cost.toRat := (reserves.reservedUsd others).1.trans exactly
  have claims : Claims D B job claim := by
    obtain ⟨cap, recorded, -, made⟩ := reserves
    exact ⟨⟨cap, recorded, made⟩, value⟩
  have binds : ClaimBindsJob D B job claim := by
    obtain ⟨⟨cap, recorded, rfl⟩, -⟩ := claims
    exact ⟨rfl, rfl, value, rfl, rfl, rfl⟩
  have found : (claimed w₀.ledger claim).claims.find? (D.requestId job) = some claim := by
    rw [← reserves.named]
    exact find?_put_self _ _
  have there := find?_put_self w₀.jobs (stage.row D B job)
  rw [stage.row_requestId] at there
  let reservedWorld : World :=
    { w with jobs := w₀.jobs.put (stage.row D B job), ledger := claimed w₀.ledger claim }
  have stored : EndsIn D oracle pid (Program.ledger (.reserve none (oracle.answer .month) (reserveArgs D B job)))
      { w with jobs := w₀.jobs.put (stage.row D B job) } (.ok claim) reservedWorld :=
    ends_ledger_iff.2 ⟨reserved, rfl⟩
  have marked := @ends_bindAdmission D E B job oracle pid reservedWorld granted.authority stage claim
    granted.configured granted.plain found claims there past
  rw [show reservedWorld.jobs.put (admitted.row D B job) = w₀.jobs.put (admitted.row D B job) from
    put_put _ (by simp)] at marked
  unfold prepareAndAdmit
  refine prepared.bind (ends_require_bind ?_ (.bind ((@ends_ask_iff D oracle pid _ _ .month _).mpr ⟨rfl, rfl⟩) ?_))
  · simp [BindsJob]
  exact stored.bind (ends_require_bind binds (marked.bind (ends_require_bind rfl (.pure claim))))

include fresh progress in
theorem ends_admitClaimed {stage : Stage} (reserves : Reserves D B job claim)
    (reserved : StandingBudget.reserve D.policy none (oracle.answer .month) (reserveArgs D B job) w.ledger =
      .ok (claimed w₀.ledger claim, claim))
    (same : ∀ c, w.ledger.claims.find? (D.requestId job) = some c → claim = c) (past : stage ≠ .intent)
    (prepared : EndsIn D oracle pid (prepareIntent D E none job none none none) w (.ok (stage.row D B job))
      { w with jobs := w₀.jobs.put (stage.row D B job) }) :
    EndsIn D oracle pid (admitClaimed D E B job (w.ledger.claims.find? (D.requestId job))) w (.ok claim)
      { w with
        jobs := w₀.jobs.put (admitted.row D B job), ledger := claimed w₀.ledger claim } := by
  have known : (w.ledger.claims.find? (D.requestId job)).filter (fun claim => claim.state = .unknown) = none := by
    rw [filter_eq_none_iff]
    intro c found
    obtain ⟨cap, recorded, -, rfl⟩ := reserves
    cases same c found
    simp [toClaim]
  have unfinished : ¬ ((w.jobs.find? (D.requestId job)).any fun row => row.status = .complete) = true := by
    cases found : w.jobs.find? (D.requestId job) with
    | none => simp
    | some row =>
      obtain ⟨stage, rfl⟩ := progress.found fresh found
      cases stage <;> simp [row, Reservation.row]
  unfold admitClaimed
  rw [known]
  refine .bind (ends_inspect_iff.2 ⟨rfl, rfl⟩) ?_
  rw [if_neg unfinished]
  exact ends_prepareAndAdmit granted reserves reserved past prepared

include fresh progress in
theorem returns_again (past : ∀ row, w.jobs.find? (D.requestId job) = some row → row.status ≠ .intent) :
    ∃ claim, EndsIn D oracle pid (admitExecutorIntent D E B job) w (.ok claim)
        { w with
          jobs := w₀.jobs.put (admitted.row D B job), ledger := claimed w₀.ledger claim } ∧
      Reserves D B job claim ∧ ∀ c, w.ledger.claims.find? (D.requestId job) = some c → claim = c := by
  obtain ⟨claim, reserves, reserved, same⟩ := reserves_again granted fresh progress
  obtain ⟨stage, notIntent, prepared⟩ := prepares_again granted progress past
  refine ⟨claim, ?_, reserves, same⟩
  obtain ⟨policy, covers, policyTest⟩ := granted.authority.covers
  obtain ⟨trustDigest, composed, configured⟩ := granted.authority.composed
  have allowed : job.mode = .test ∧ job.endpoint ∈ policy.allowedProviders :=
    ⟨granted.authority.mode, covers.same.2.2.2 ▸ granted.authority.allowed⟩
  unfold admitExecutorIntent
  refine .bind (ends_loadPolicy_iff.2 ⟨covers.answered, covers.binds, rfl⟩) (ends_require_bind allowed ?_)
  refine .bind (ends_matches_iff.2 ⟨⟨trustDigest, composed, configured⟩, granted.authority.created, rfl⟩)
    (ends_require_bind rfl ((ends_existing w).bind ?_))
  exact ends_admitClaimed granted fresh progress reserves reserved same notIntent prepared

end Again

theorem intent_refused {row : Row}
    (fresh : Fresh D job w₀) (progress : Progress D B job w₀ w) (found : w.jobs.find? (D.requestId job) = some row)
    (stuck : row.status = .intent) : ¬ EndsIn D oracle pid (admitExecutorIntent D E B job) w (.ok claim) w' := by
  intro ends
  obtain ⟨policy, trustDigest, covers, composed, -, ends⟩ := admit_ok ends
  have known : ∀ c ∈ w.ledger.claims.find? (D.requestId job), c.state ≠ .unknown := by
    intro c listed
    rcases progress.claimed fresh with ⟨absent, -⟩ | ⟨claim, there, ⟨cap, recorded, -, rfl⟩, -⟩
    · cases absent.symm.trans listed
    · cases there.symm.trans listed
      simp [toClaim]
  have unfinished : ∀ r ∈ w.jobs.find? (D.requestId job), r.status ≠ .complete := by
    intro r listed
    cases found.symm.trans listed
    simp [stuck]
  have ends := admitClaimed_ok known unfinished ends
  obtain ⟨prepared, w₁, w₂, read, reserved, kept, -, admitted, marked⟩ := prepareAndAdmit_ok ends
  obtain ⟨-, ⟨there, rfl⟩ | ⟨absent, -⟩⟩ := prepareIntent_ok covers composed read
  · obtain ⟨last, present, status, -⟩ := bindPrepared_ok marked
    rw [kept] at present
    cases found.symm.trans present
    cases stuck.symm.trans status
  · cases found.symm.trans absent
end Progress

end VideoPoster.Authorization
