import VideoPoster.Executor.Lineage
import VideoPoster.Executor.RunConduct
import VideoPoster.Production.Compiled

/-!
# Released heroes and the executor's rule
-/

namespace VideoPoster.Production
open Python Billing Tables Interleaving Executor Function Table Option

variable {D : Deployment}

def Call.OfPipeline : Call → Prop
  | .run _ => True
  | .qa _ => True
  | _ => False

def pipelineCalls : Set Call := { call | Call.OfPipeline call }

/-- The rows carry the id of their own job, and only complete rows have been reviewed. -/
structure ReceiptsInv (D : Deployment) (jobs : Jobs) : Prop where
  identified : ∀ row ∈ jobs, row.requestId = D.requestId row.request
  reviewed : ∀ row ∈ jobs, row.review ≠ none → row.status = .complete

theorem reviewed_of_update {action : Act} {old new : Row} (update : RowUpdate D action old new)
    (reviewed : new.review ≠ none) : old.review ≠ none ∨ new.status = .complete := by
  cases update with
  | @changed E context given requestId update row guarded => cases update <;> exact .inl reviewed
  | bound | pinned | admitted => exact .inl reviewed
  | reviewed fresh complete => exact .inr complete

section Step
variable {s s' : Shared (machine D)} {pid : ℕ} {action : Act} {response : action.Res}
  {scope : Scope}

theorem not_called {call : Call} (inv : Inv D (fun _ => pipelineCalls) s)
    (seen : Seen (By pid (calls call)) s.trace) : ¬ call.External ∧ ¬ call.Prepares := by
  have member : Call.OfPipeline call := inv.inScope pid call seen
  cases call <;> first | exact member.elim | exact ⟨id, id⟩

theorem complete_of_update {old new : Row}
    {requestId : String} (update : RowUpdate D action old new) (inv : Inv D (fun _ => pipelineCalls) s)
    (granted : Granted D (fun _ => pipelineCalls) pid s action) (target : action.target D = some requestId)
    (found : s.world.jobs.find? requestId = some old) (complete : old.status = .complete) : new.status = .complete := by
  rcases update.of_finished granted target found (.inl complete) with
    ⟨E, context, given, rfl⟩ | ⟨-, call, external, seen⟩ | ⟨same, -⟩
  · rcases granted.2 with ⟨-, active⟩ | ⟨call, prepares, seen⟩
    · exact absurd complete (active old found).1
    · exact absurd prepares (not_called inv seen).2
  · exact absurd external (not_called inv seen).1
  · exact same.trans complete

theorem ReceiptsInv.performs (receipts : ReceiptsInv D s.world.jobs)
    (inv : Inv D (fun _ => pipelineCalls) s) (granted : Granted D (fun _ => pipelineCalls) pid s action)
    (performs : Performs (M := machine D) pid action response s s') : ReceiptsInv D s'.world.jobs := by
  have change := performs_jobs performs
  generalize s'.world.jobs = after at change
  cases change with
  | same => exact receipts
  | inserted admitted =>
    constructor
    · intro row member
      rcases mem_put.mp member with rfl | ⟨old, -⟩
      · rfl
      · exact receipts.identified row old
    · intro row member reviewed
      rcases mem_put.mp member with rfl | ⟨old, -⟩
      · exact absurd rfl reviewed
      · exact receipts.reviewed row old reviewed
  | @updated _ _ old new _ succeeds target found update =>
    have before := (find?_eq_some.mp found).1
    constructor
    · intro row member
      rcases mem_put.mp member with rfl | ⟨other, -⟩
      · rw [update.requestId, update.request]
        exact receipts.identified old before
      · exact receipts.identified row other
    · intro row member reviewed
      rcases mem_put.mp member with rfl | ⟨other, -⟩
      · rcases reviewed_of_update update reviewed with already | complete
        · exact complete_of_update update inv granted target found
            (receipts.reviewed old before already)
        · exact complete
      · exact receipts.reviewed row other reviewed

end Step

variable {c : Config (machine D) Error}

theorem receiptsInv_of_reaches (reaches : Reaches (callsIn D pipelineCalls) anyStep (freshRoot D) c) :
    ReceiptsInv D c.world.jobs := by
  refine Protocol.Sound.invariant (K := fun s : Shared (machine D) => ReceiptsInv D s.world.jobs)
    (discipline_admits (D := D) fun _ : ℕ => subset_refl pipelineCalls) sound_freshRoot ?_
    (fun _ _ => id) ?_ reaches
  · intro pid action response s s' inv receipts granted _ performs
    have granted : Granted D (fun _ => pipelineCalls) pid s action := granted
    exact receipts.performs inv granted performs
  · exact ⟨fun _ member => (List.not_mem_nil member).elim, fun _ member => (List.not_mem_nil member).elim⟩

/-- The image of a scene is its first pass, or the correction that has replaced it. -/
structure RunInv (R : ProductionRun) : Prop where
  scene : ∀ sceneId image, R.activeImages sceneId = some image → image.scene = sceneId
  mode : ∀ sceneId image, R.activeImages sceneId = some image → image.mode = R.plan.episode.mode
  category : ∀ sceneId image, R.activeImages sceneId = some image →
    image.category = if R.corrections sceneId = none then .first else .correction

variable {P : Plan} {sceneId : String}

theorem frame?_sceneId {frame : FrameSpec} (found : P.frame? sceneId = some frame) : frame.sceneId = sceneId := by
  simpa using List.find?_some found

theorem RunInv.start (P : Plan) : RunInv P.start := by
  have baseline {sceneId : String} {image : Job} (active : P.baseline sceneId = some image) :
      image.scene = sceneId ∧ image.mode = P.episode.mode ∧ image.category = .first := by
    unfold Plan.baseline at active
    split at active
    · cases active
    · obtain ⟨frame, found, rfl⟩ := map_eq_some_iff.mp active
      exact ⟨frame?_sceneId found, rfl, rfl⟩
  exact ⟨fun _ _ active => (baseline active).1, fun _ _ active => (baseline active).2.1,
    fun _ _ active => (baseline active).2.2⟩

variable {R : ProductionRun}

theorem RunInv.replace (inv : RunInv R) {correction : Job}
    (scene : correction.scene = sceneId) (mode : correction.mode = R.plan.episode.mode)
    (category : correction.category = .correction) :
    RunInv { R with
      corrections := update R.corrections sceneId (some correction)
      activeImages := update R.activeImages sceneId (some correction) } := by
  have images (other : String) (image : Job)
      (active : update R.activeImages sceneId (some correction) other = some image) :
      other = sceneId ∧ image = correction ∨ other ≠ sceneId ∧ R.activeImages other = some image := by
    by_cases same : other = sceneId
    · subst same
      rw [update_self] at active
      exact .inl ⟨rfl, (some.inj active).symm⟩
    · rw [update_of_ne same] at active
      exact .inr ⟨same, active⟩
  constructor
  · intro other image active
    obtain ⟨rfl, rfl⟩ | ⟨-, old⟩ := images other image active
    · exact scene
    · exact inv.scene other image old
  · intro other image active
    obtain ⟨rfl, rfl⟩ | ⟨-, old⟩ := images other image active
    · exact mode
    · exact inv.mode other image old
  · intro other image active
    obtain ⟨rfl, rfl⟩ | ⟨distinct, old⟩ := images other image active
    · simpa using category
    · simpa only [update_of_ne distinct] using inv.category other image old

theorem RunInv.remediationJob {R : ProductionRun} (inv : RunInv R) (jobs : Jobs) (sceneId : String)
    (finding : Dict) : RunInv (remediationJob D jobs R sceneId finding).1 := by
  unfold Production.remediationJob
  split
  · exact inv
  split
  · exact inv
  split
  · split <;> exact inv
  split
  · exact inv
  split
  · split
    · exact inv
    · rename_i frame found
      exact inv.replace (frame?_sceneId found) rfl rfl
  · exact inv

variable {jobs : Jobs} {cost : Decimal} {endpoint : String} {hero : Job}

theorem releaseHeroes_fst (frames : List FrameSpec) (R : ProductionRun) :
    ∃ heroes, (releaseHeroes D jobs cost endpoint frames R).1 = { R with heroes := heroes } := by
  induction frames generalizing R with
  | nil => exact ⟨R.heroes, rfl⟩
  | cons frame rest ih =>
    simp only [releaseHeroes]
    split
    · exact ih R
    split
    · exact ⟨R.heroes, rfl⟩
    split
    · exact ⟨R.heroes, rfl⟩
    split
    · obtain ⟨heroes, same⟩ := ih { R with heroes := _ }
      exact ⟨heroes, same⟩
    · exact ih R

theorem releaseHeroes_ok {frames : List FrameSpec} {heroes : List Job} (released : (releaseHeroes D jobs cost endpoint
    frames R).2 = .ok heroes) (member : hero ∈ heroes) : ∃ frame image, R.activeImages frame.sceneId = some image ∧
    (jobs.find? (D.requestId image)).bind Row.qa = some true ∧ hero = heroJob D R.plan frame image cost endpoint := by
  induction frames generalizing R heroes with
  | nil =>
    cases released
    cases member
  | cons frame rest ih =>
    simp only [releaseHeroes] at released
    split at released
    · exact ih released member
    split at released
    · cases released
    split at released
    · cases released
    rename_i image active
    split at released
    · rename_i approved
      obtain ⟨eligible, later, rfl⟩ := map_eq_ok.mp released
      have others := ih later
      split at member
      · rcases List.mem_cons.mp member with rfl | old
        · exact ⟨frame, image, active, approved, rfl⟩
        · exact others old
      · exact others member
    · exact ih released member

theorem eligibleHeroJobs_ok {heroes : List Job} (released : (eligibleHeroJobs D jobs R cost endpoint).2 = .ok heroes)
    (member : hero ∈ heroes) : ∃ frame image, R.activeImages frame.sceneId = some image ∧
    (jobs.find? (D.requestId image)).bind Row.qa = some true ∧ hero = heroJob D R.plan frame image cost endpoint := by
  unfold eligibleHeroJobs at released
  split at released
  · cases released
  split at released
  · cases released
  split at released
  · cases released
  · exact releaseHeroes_ok released member

theorem RunInv.eligibleHeroJobs {R : ProductionRun} (inv : RunInv R) (jobs : Jobs) (cost : Decimal)
    (endpoint : String) : RunInv (eligibleHeroJobs D jobs R cost endpoint).1 := by
  unfold Production.eligibleHeroJobs
  split
  · exact inv
  split
  · exact inv
  split
  · exact inv
  · obtain ⟨heroes, same⟩ : ∃ heroes, (releaseHeroes D jobs cost endpoint _ R).1 = _ :=
      releaseHeroes_fst R.plan.episode.frames R
    rw [same]
    exact ⟨inv.scene, inv.mode, inv.category⟩

inductive Step (D : Deployment) :
    Config (machine D) Error × ProductionRun → Config (machine D) Error × ProductionRun → Prop
  | executor {c c' : Config (machine D) Error} {R : ProductionRun}
      (step : Interleaving.Step (callsIn D pipelineCalls) anyStep c c') : Step D (c, R) (c', R)
  | remediate {c : Config (machine D) Error} {R : ProductionRun} (sceneId : String) (finding : Dict) :
      Step D (c, R) (c, (remediationJob D c.world.jobs R sceneId finding).1)
  | release {c : Config (machine D) Error} {R : ProductionRun} (cost : Decimal) (endpoint : String) :
      Step D (c, R) (c, (eligibleHeroJobs D c.world.jobs R cost endpoint).1)

def Reachable (D : Deployment) (P : Plan) (state : Config (machine D) Error × ProductionRun) : Prop :=
  ∃ c, Reaches (callsIn D pipelineCalls) anyStep (freshRoot D) c ∧
    Relation.ReflTransGen (Step D) (c, P.start) state

theorem Reachable.inv (reachable : Reachable D P (c, R)) :
    Reaches (callsIn D pipelineCalls) anyStep (freshRoot D) c ∧ RunInv R := by
  obtain ⟨first, history, later⟩ := reachable
  suffices ∀ state, Relation.ReflTransGen (Step D) (first, P.start) state →
      Reaches (callsIn D pipelineCalls) anyStep (freshRoot D) state.1 ∧ RunInv state.2 from
    this _ later
  intro state run
  induction run with
  | refl => exact ⟨history, RunInv.start P⟩
  | tail _ last ih =>
    cases last with
    | executor step => exact ⟨ih.1.tail step, ih.2⟩
    | remediate sceneId finding => exact ⟨ih.1, ih.2.remediationJob _ _ _⟩
    | release cost endpoint => exact ⟨ih.1, ih.2.eligibleHeroJobs _ _ _⟩

def AdmitsHero (jobs : Jobs) (job : Job) : Prop :=
  ∃ previous, predecessorOf jobs job = some previous ∧ HeroPredecessor job previous

instance (jobs : Jobs) (job : Job) : Decidable (AdmitsHero jobs job) :=
  decidable_of_iff (∃ previous ∈ predecessorOf jobs job, HeroPredecessor job previous) Iff.rfl

def Identifies (D : Deployment) (a b : Job) : Prop :=
  D.requestId a = D.requestId b → a.scene = b.scene ∧ a.category = b.category ∧ a.mode = b.mode

instance (D : Deployment) (a b : Job) : Decidable (Identifies D a b) :=
  inferInstanceAs (Decidable (_ → _))

theorem predecessorOf_of_find {job : Job} {row : Row} (found : jobs.find? job.predecessor = some row)
    (mode : row.mode = job.mode) : predecessorOf jobs job = some row := by
  obtain ⟨member, key⟩ := find?_eq_some.mp found
  cases searched : predecessorOf jobs job with
  | none =>
    have absent := List.find?_eq_none.mp searched row (mem_inMode.mpr ⟨member, mode⟩)
    simp [key] at absent
  | some other =>
    obtain ⟨otherMember, -, otherKey⟩ := predecessorOf_eq_some searched
    rw [eq_of_key otherMember member (otherKey.trans key.symm)]

/-- A released hero meets the executor's rule exactly if its scene has no correction. -/
theorem released_hero_admitted_iff {P : Plan} {R : ProductionRun} (reachable : Reachable D P (c, R)) (identifies :
    ∀ row ∈ c.world.jobs, ∀ sceneId image, R.activeImages sceneId = some image → Identifies D row.request image)
    {heroes : List Job} (released : (eligibleHeroJobs D c.world.jobs R cost endpoint).2 = .ok heroes)
    (member : hero ∈ heroes) : AdmitsHero c.world.jobs hero ↔ R.corrections hero.scene = none := by
  obtain ⟨history, inv⟩ := reachable.inv
  obtain ⟨identified, reviewed⟩ := receiptsInv_of_reaches history
  obtain ⟨frame, image, active, approved, rfl⟩ := eligibleHeroJobs_ok released member
  obtain ⟨row, found, qa⟩ := bind_eq_some_iff.mp approved
  obtain ⟨stored, key⟩ := find?_eq_some.mp found
  obtain ⟨scene, category, mode⟩ :=
    identifies row stored frame.sceneId image active ((identified row stored).symm.trans key)
  have predecessor : predecessorOf c.world.jobs (heroJob D R.plan frame image cost endpoint) = some row :=
    predecessorOf_of_find found (mode.trans (inv.mode _ _ active))
  have complete : row.status = .complete := by
    refine reviewed row stored fun unreviewed => ?_
    simp [Row.qa, unreviewed] at qa
  have kind : row.category = if R.corrections frame.sceneId = none then .first else .correction :=
    category.trans (inv.category _ _ active)
  change _ ↔ R.corrections frame.sceneId = none
  constructor
  · rintro ⟨previous, named, -, -, -, first⟩
    obtain rfl := some.inj (predecessor.symm.trans named)
    by_contra corrected
    rw [kind, if_neg corrected] at first
    cases first
  · intro uncorrected
    exact ⟨row, predecessor, qa, scene.trans (inv.scene _ _ active), complete, kind.trans (if_pos uncorrected)⟩

/-! ## An approved first pass and an approved correction

One frame, with the hashes that the source computes for its jobs. -/

def sampleAsset (path : String) : FrozenAsset := ⟨path, emptySha256, "reviewer-1", .test⟩

def sampleFrame : FrameSpec := ⟨"R001", 0, 4, "a boat", "the boat leaves", true⟩

def samplePlan : Plan where
  episode :=
    { episodeId := "episode-1"
      mode := .test
      frames := [sampleFrame]
      checksum := "44d251911cc4012e15897b3808d01a192a1750e1e0a66548acfa384174635cc1"
      distinct := by decide }
  sourceManifest := ⟨[sampleAsset "/in/ref.png"], sampleAsset "/in/sheet.png", "reviewer-1", .test⟩
  endpoint := "flux"
  imageCost := .finite false 1 0

def sampleBaseline : Job := samplePlan.jobFor sampleFrame .first samplePlan.imageCost

def sampleBaselineId : String := "cd8788f82acecd797915244459e8eddd6bfc51b393ea203f35ebb0f6d3700b3e"

def sampleReplacementId : String := "6146b502a12239915bab1b16bea1de7aa27596e3adf61e4d05a36b133e0120ea"

def samplePlanRequestId (job : Job) : String :=
  if job.category = .first then sampleBaselineId
  else if job.category = .correction then sampleReplacementId
  else if job.predecessor = sampleBaselineId then
    "685a944b658e8a026be0e277fe678710f60ac978895984d1f13beff77e16c293"
  else "40b62f6f81cc3ceb7ef1594bfed3e45e762bdc486e0c300a8224b190f77184b1"

def samplePlanDeployment : Deployment :=
  { sampleDeployment 6 with
    requestId := samplePlanRequestId
    requestId_ne_empty := fun job => by
      unfold samplePlanRequestId
      split_ifs <;> decide }

def reviewedTurns (job : Job) (requestId : String) (approved : Bool) : List Turn :=
  [⟨.run { executor := sampleExecutor, job := job, providerMode := .test },
      sampleOracle none (sampleProvider 1), 22, false⟩,
    ⟨.qa (sampleReview requestId approved), sampleOracle none (sampleProvider 1), 2, false⟩]

theorem reviewedTurns_ofPipeline (job : Job) (requestId : String) (approved : Bool) :
    ∀ turn ∈ reviewedTurns job requestId approved, turn.call ∈ pipelineCalls := by
  simp [reviewedTurns, pipelineCalls, Call.OfPipeline]

def sampleHeroes (c : Config (machine samplePlanDeployment) Error) (R : ProductionRun) :
    Result (List Job) :=
  (eligibleHeroJobs samplePlanDeployment c.world.jobs R (.finite false 1 0) "seedance").2

def sampleReplacement : Job :=
  samplePlan.correction sampleFrame sampleBaselineId ⟨"ACTION", (remediationConstraint "ACTION").getD ""⟩

def remediated (c : Config (machine samplePlanDeployment) Error) : ProductionRun :=
  (remediationJob samplePlanDeployment c.world.jobs samplePlan.start "R001" [("code", .str "ACTION")]).1

theorem Reachable.of_executor {c c' : Config (machine D) Error} (reachable : Reachable D P (c, R))
    (later : Reaches (callsIn D pipelineCalls) anyStep c c') : Reachable D P (c', R) := by
  obtain ⟨first, history, run⟩ := reachable
  exact ⟨first, history, run.trans (later.lift (fun c => (c, R)) fun _ _ step => .executor step)⟩

theorem corrected_hero_refused : ∃ c R, Reachable samplePlanDeployment samplePlan (c, R) ∧
      ∃ heroes, sampleHeroes c R = .ok heroes ∧ ∃ hero ∈ heroes, ¬ AdmitsHero c.world.jobs hero := by
  have passed : (after samplePlanDeployment anyStep (freshRoot _)
      (reviewedTurns sampleBaseline sampleBaselineId false)).any (fun c =>
        (after samplePlanDeployment anyStep c (reviewedTurns sampleReplacement sampleReplacementId true)).any fun c' =>
            (sampleHeroes c' (remediated c)).toOption.any fun heroes =>
              decide (∃ hero ∈ heroes, ¬ AdmitsHero c'.world.jobs hero)) = true := by
    decide +kernel
  obtain ⟨c, reached, holds⟩ := exists_reaches_of_after _ anyStep pipelineCalls (reviewedTurns_ofPipeline _ _ _) passed
  obtain ⟨c', later, holds⟩ := exists_reaches_of_after _ anyStep pipelineCalls (reviewedTurns_ofPipeline _ _ _) holds
  obtain ⟨heroes, released, refused⟩ := (any_eq_true _ _).mp holds
  have reachable : Reachable samplePlanDeployment samplePlan (c, remediated c) :=
    ⟨c, reached, .single (.remediate _ _)⟩
  exact ⟨c', remediated c, reachable.of_executor later, heroes, toOption_eq_some.mp released, of_decide_eq_true refused⟩

theorem sampleBaseline_of_active {image : Job}
    (active : samplePlan.start.activeImages sceneId = some image) : image = sampleBaseline := by
  have active : samplePlan.baseline sceneId = some image := active
  unfold Plan.baseline at active
  split at active
  · cases active
  · obtain ⟨frame, found, rfl⟩ := map_eq_some_iff.mp active
    rw [List.mem_singleton.mp (List.mem_of_find?_eq_some found)]
    rfl

theorem approved_hero_admitted : ∃ c, Reachable samplePlanDeployment samplePlan (c, samplePlan.start)
    ∧ ∃ heroes, sampleHeroes c samplePlan.start = .ok heroes ∧ ∃ hero ∈ heroes, AdmitsHero c.world.jobs hero := by
  have passed : (after samplePlanDeployment anyStep (freshRoot _)
      (reviewedTurns sampleBaseline sampleBaselineId true)).any (fun c =>
        decide (∀ row ∈ c.world.jobs.rows, Identifies samplePlanDeployment row.request sampleBaseline) &&
        (sampleHeroes c samplePlan.start).toOption.any fun heroes =>
          decide (∃ hero ∈ heroes, hero.scene = "R001")) = true := by
    decide +kernel
  obtain ⟨c, reached, holds⟩ := exists_reaches_of_after _ anyStep pipelineCalls (reviewedTurns_ofPipeline _ _ _) passed
  simp only [Bool.and_eq_true, decide_eq_true_eq, any_eq_true] at holds
  obtain ⟨identifies, heroes, released, hero, member, -⟩ := holds
  have released := toOption_eq_some.mp released
  have reachable : Reachable samplePlanDeployment samplePlan (c, samplePlan.start) := ⟨c, reached, .refl⟩
  refine ⟨c, reachable, heroes, released, hero, member, ?_⟩
  refine (released_hero_admitted_iff reachable (fun row stored sceneId image active => ?_) released member).mpr rfl
  exact sampleBaseline_of_active active ▸ identifies row stored

end VideoPoster.Production
