import VideoPoster.Production.Imported

/-!
# Heroes that are lost
-/

namespace VideoPoster.Production
open Python Billing Tables Executor List ProductionRun FrameSpec Function

structure HeroCall where
  jobs : Jobs
  cost : Decimal
  endpoint : String

namespace HeroCall
variable (D : Deployment) (call : HeroCall) (R : ProductionRun)

def apply : ProductionRun × Result (List Job) := eligibleHeroJobs D call.jobs R call.cost call.endpoint

def Approves (frame : FrameSpec) (image : Job) : Prop :=
  R.activeImages frame.sceneId = some image ∧ (call.jobs.find? (D.requestId image)).bind Row.qa = some true

def Pending (R : ProductionRun) (frame : FrameSpec) : Prop :=
  R.plan.wantsHero frame = true ∧ R.heroes frame.sceneId = none

def Raises (frame : FrameSpec) : Prop :=
  Pending R frame ∧
    ((∃ item ∈ R.plan.articulated frame.sceneId, call.endpoint ≠ item.endpoint) ∨ R.activeImages frame.sceneId = none)

def Releases (frame : FrameSpec) : Prop :=
  Pending R frame ∧ ¬ call.Raises R frame ∧ ∃ image, call.Approves D R frame image

def Overtakes (frames : List FrameSpec) : Prop :=
  ∃ earlier ready later, frames = earlier ++ ready :: later ∧ call.Releases D R ready ∧
    (∀ frame ∈ earlier, ¬ call.Raises R frame) ∧ ∃ frame ∈ later, call.Raises R frame

/-- The image is approved, and the executor does not know the hero: the one that was entered, or else a new one. -/
def Eligible (frame : FrameSpec) : Prop :=
  R.plan.wantsHero frame = true ∧ ∃ image, call.Approves D R frame image ∧
    call.jobs.find? (D.requestId ((R.heroes frame.sceneId).getD
      (heroJob D R.plan frame image call.cost call.endpoint))) = none

structure LosesNothing : Prop where
  offered : ∀ heroes, (call.apply D R).2 = .ok heroes → ∀ frame ∈ R.plan.episode.frames, call.Eligible D R frame →
    ∃ hero ∈ heroes, hero.scene = frame.sceneId
  kept : ∀ error, (call.apply D R).2 = .error error → (call.apply D R).1.heroes = R.heroes

def Checked : Prop :=
  positiveCost call.cost = .ok true ∧ blank call.endpoint = false ∧ R.plan.requireExecutableMotionInventory = .ok ()

def Executed : Prop :=
  ∀ frame ∈ R.plan.episode.frames, ∀ image hero, R.plan.wantsHero frame = true → call.Approves D R frame image →
    R.heroes frame.sceneId = some hero → call.jobs.find? (D.requestId hero) ≠ none

/-- No hero is entered before a frame that raises, and where none raises the heroes entered before were run. -/
def Calm : Prop :=
  call.Checked R → ¬ call.Overtakes D R R.plan.episode.frames ∧
    ((∀ frame ∈ R.plan.episode.frames, ¬ call.Raises R frame) → call.Executed D R)

end HeroCall

open HeroCall

variable {D : Deployment} {call : HeroCall} {R : ProductionRun} {frame : FrameSpec} {frames rest : List FrameSpec}

def HeroCall.release (D : Deployment) (call : HeroCall) (frames : List FrameSpec) (R : ProductionRun) :=
  releaseHeroes D call.jobs call.cost call.endpoint frames R

def ProductionRun.enter (R : ProductionRun) (sceneId : String) (hero : Job) : ProductionRun :=
  { R with heroes := update R.heroes sceneId (some hero) }

theorem release_cons (frame : FrameSpec) (rest : List FrameSpec) (R : ProductionRun) : (¬ call.Raises R frame ∧
    ¬ call.Releases D R frame ∧ call.release D (frame :: rest) R = call.release D rest R) ∨ (call.Raises R frame ∧
    ∃ error, call.release D (frame :: rest) R = (R, .error error)) ∨ call.Releases D R frame ∧ ∃ image hero, hero =
    heroJob D R.plan frame image call.cost call.endpoint ∧ call.Approves D R frame image ∧ call.release D (frame ::
    rest) R = ((call.release D rest (R.enter frame.sceneId hero)).1, (call.release D rest (R.enter frame.sceneId
    hero)).2.map fun eligible => if call.jobs.find? (D.requestId hero) = none then hero :: eligible else eligible) := by
  have pending : Pending R frame ↔
      ¬ ((frame.hero = false ∧ R.plan.articulated frame.sceneId = none) ∨ R.heroes frame.sceneId ≠ none) := by
    simp only [Pending, Plan.wantsHero, Bool.or_eq_true, Option.isSome_iff_ne_none, not_or, not_not, not_and_or,
      Bool.not_eq_false]
  unfold release
  rw [releaseHeroes]
  dsimp only
  split
  · rename_i skipped
    have idle : ¬ Pending R frame := fun waits => pending.mp waits skipped
    exact .inl ⟨fun raises => idle raises.1, fun releases => idle releases.1, rfl⟩
  rename_i wanted
  have waits := pending.mpr wanted
  split
  · rename_i mismatch
    exact .inr (.inl ⟨⟨waits, .inl mismatch⟩, _, rfl⟩)
  rename_i agrees
  split
  · rename_i absent
    exact .inr (.inl ⟨⟨waits, .inr absent⟩, _, rfl⟩)
  rename_i image active
  have silent : ¬ call.Raises R frame := by
    rintro ⟨-, mismatch | absent⟩
    · exact agrees mismatch
    · rw [active] at absent
      cases absent
  split
  · rename_i approved
    exact .inr (.inr ⟨⟨waits, silent, image, active, approved⟩, image, _, rfl, ⟨active, approved⟩, rfl⟩)
  · rename_i unapproved
    refine .inl ⟨silent, ?_, rfl⟩
    rintro ⟨-, -, other, stands, approved⟩
    cases active.symm.trans stands
    exact unapproved approved

theorem raises_enter {sceneId : String} {hero : Job} (other : frame.sceneId ≠ sceneId) :
    call.Raises (R.enter sceneId hero) frame ↔ call.Raises R frame := by
  simp [Raises, Pending, enter, update_of_ne other]

theorem enter_rest {hero : Job} (distinct : ((frame :: rest).map sceneId).Nodup) : ∀ other ∈ rest,
    other.sceneId ≠ frame.sceneId ∧ (call.Raises (R.enter frame.sceneId hero) other ↔ call.Raises R other) := by
  intro other member
  have fresh : other.sceneId ≠ frame.sceneId := fun same => by
    rw [map_cons, nodup_cons] at distinct
    exact distinct.1 (same ▸ mem_map_of_mem member)
  exact ⟨fresh, raises_enter fresh⟩

theorem release_error_iff (distinct : (frames.map sceneId).Nodup) :
    (∃ error, (call.release D frames R).2 = .error error) ↔ ∃ frame ∈ frames, call.Raises R frame := by
  induction frames generalizing R with
  | nil => simp [release, releaseHeroes]
  | cons frame rest ih =>
    have later := (nodup_cons.mp distinct).2
    obtain ⟨silent, -, same⟩ | ⟨raises, error, same⟩ | ⟨⟨-, silent, -⟩, image, hero, -, -, same⟩ :=
      @release_cons D call frame rest R
    · rw [same, ih later]
      simp [silent]
    · rw [same]
      simp [raises]
    · have inner := @ih (R.enter frame.sceneId hero) later
      have unchanged : (∃ other ∈ rest, call.Raises (R.enter frame.sceneId hero) other) ↔
          ∃ other ∈ rest, call.Raises R other :=
        exists_congr fun other => and_congr_right fun member => (enter_rest distinct other member).2
      rw [same, exists_mem_cons_iff, or_iff_right silent, ← unchanged, ← inner]
      cases (call.release D rest (R.enter frame.sceneId hero)).2 <;> simp [Except.map]

theorem overtakes_cons : call.Overtakes D R (frame :: rest) ↔ (call.Releases D R frame ∧
    ∃ other ∈ rest, call.Raises R other) ∨ ¬ call.Raises R frame ∧ call.Overtakes D R rest := by
  constructor
  · rintro ⟨earlier, ready, later, split, releases, silent, raises⟩
    cases earlier with
    | nil =>
      obtain ⟨rfl, rfl⟩ := cons.inj split
      exact .inl ⟨releases, raises⟩
    | cons head earlier =>
      obtain ⟨rfl, rfl⟩ := cons.inj split
      exact .inr ⟨silent _ mem_cons_self, earlier, ready, later, rfl, releases,
        fun other member => silent other (.tail _ member), raises⟩
  · rintro (⟨releases, raises⟩ | ⟨silent, earlier, ready, later, rfl, releases, others, raises⟩)
    · exact ⟨[], frame, rest, rfl, releases, by simp, raises⟩
    · exact ⟨frame :: earlier, ready, later, rfl, releases, by simpa [silent] using others, raises⟩

theorem release_keeps_iff (distinct : (frames.map sceneId).Nodup) : (∀ error, (call.release D frames R).2 =
    .error error → (call.release D frames R).1.heroes = R.heroes) ↔ ¬ call.Overtakes D R frames := by
  induction frames generalizing R with
  | nil => simp [release, releaseHeroes, Overtakes]
  | cons frame rest ih =>
    have later := (nodup_cons.mp distinct).2
    rw [overtakes_cons]
    obtain ⟨silent, idle, same⟩ | ⟨raises, error, same⟩ | ⟨releases, image, hero, -, -, same⟩ :=
      @release_cons D call frame rest R
    · rw [same, ih later]
      simp [silent, idle]
    · rw [same]
      have idle : ¬ call.Releases D R frame := fun releases => releases.2.1 raises
      simp [raises, idle]
    · have failed := @release_error_iff D call (R.enter frame.sceneId hero) rest later
      have entered : (call.release D rest (R.enter frame.sceneId hero)).1.heroes ≠ R.heroes := fun kept => by
        have stays : (call.release D rest (R.enter frame.sceneId hero)).1.heroes frame.sceneId ≠ none :=
          releaseHeroes_keeps (by simp [enter])
        rw [kept] at stays
        exact stays releases.1.2
      have unchanged : (∃ other ∈ rest, call.Raises (R.enter frame.sceneId hero) other) ↔
          ∃ other ∈ rest, call.Raises R other :=
        exists_congr fun other => and_congr_right fun member => (enter_rest distinct other member).2
      have raised : call.Overtakes D R rest → ∃ other ∈ rest, call.Raises R other := by
        rintro ⟨earlier, ready, later, rfl, -, -, other, member, raises⟩
        exact ⟨other, by simp [member], raises⟩
      rw [same, or_iff_left_of_imp fun overtakes => ⟨releases, raised overtakes.2⟩, and_iff_right releases,
        ← unchanged, ← failed]
      cases (call.release D rest (R.enter frame.sceneId hero)).2 <;> simp [Except.map, entered]

theorem release_mem (distinct : (frames.map sceneId).Nodup)
    {heroes : List Job} {hero : Job} (released : (call.release D frames R).2 = .ok heroes) :
    hero ∈ heroes ↔ ∃ frame ∈ frames, ∃ image, call.Releases D R frame ∧ call.Approves D R frame image ∧
    hero = heroJob D R.plan frame image call.cost call.endpoint ∧ call.jobs.find? (D.requestId hero) = none := by
  induction frames generalizing R heroes with
  | nil =>
    cases released
    simp
  | cons frame rest ih =>
    have later := (nodup_cons.mp distinct).2
    obtain ⟨silent, idle, same⟩ | ⟨raises, error, same⟩ | ⟨releases, image, entered, rfl, approves, same⟩ :=
      @release_cons D call frame rest R
    · rw [same] at released
      rw [ih later released, exists_mem_cons_iff]
      simp [idle]
    · rw [same] at released
      cases released
    · set entered := heroJob D R.plan frame image call.cost call.endpoint
      rw [same] at released
      obtain ⟨eligible, inner, rfl⟩ := map_eq_ok.mp released
      have others : hero ∈ eligible ↔ ∃ other ∈ rest, ∃ image, call.Releases D R other ∧
          call.Approves D R other image ∧ hero = heroJob D R.plan other image call.cost call.endpoint ∧
          call.jobs.find? (D.requestId hero) = none := by
        rw [ih later inner]
        refine exists_congr fun other => and_congr_right fun member => exists_congr fun image => ?_
        obtain ⟨fresh, unchanged⟩ := @enter_rest call R frame rest entered distinct other member
        refine and_congr_left' ?_
        rw [Releases, Releases, unchanged]
        simp [Pending, enter, update_of_ne fresh, Approves]
      have first : (∃ image, call.Releases D R frame ∧ call.Approves D R frame image ∧
          hero = heroJob D R.plan frame image call.cost call.endpoint ∧
          call.jobs.find? (D.requestId hero) = none) ↔
          hero = entered ∧ call.jobs.find? (D.requestId entered) = none := by
        constructor
        · rintro ⟨other, -, stands, rfl, absent⟩
          cases approves.1.symm.trans stands.1
          exact ⟨rfl, absent⟩
        · rintro ⟨rfl, absent⟩
          exact ⟨image, releases, approves, rfl, absent⟩
      rw [exists_mem_cons_iff, first, ← others]
      split_ifs with absent <;> simp [absent]

theorem apply_of_checked (checked : call.Checked R) : call.apply D R = call.release D R.plan.episode.frames R := by
  obtain ⟨cost, endpoint, inventory⟩ := checked
  simp [apply, eligibleHeroJobs, release, cost, endpoint, inventory]

theorem apply_unchecked (unchecked : ¬ call.Checked R) : ∃ error, call.apply D R = (R, .error error) := by
  unfold apply eligibleHeroJobs
  split
  · exact ⟨_, rfl⟩
  rename_i positive cost
  split
  · exact ⟨_, rfl⟩
  rename_i accepted
  split
  · exact ⟨_, rfl⟩
  rename_i inventory
  obtain ⟨positive', endpoint⟩ := not_or.mp accepted
  exact absurd ⟨by rw [cost]; simpa using positive', by simpa using endpoint, inventory⟩ unchecked

theorem losesNothing_iff : call.LosesNothing D R ↔ call.Calm D R := by
  by_cases checked : call.Checked R
  swap
  · obtain ⟨error, same⟩ := apply_unchecked (D := D) checked
    refine iff_of_true ⟨fun heroes ok => ?_, fun _ _ => by rw [same]⟩ fun holds => absurd holds checked
    rw [same] at ok
    cases ok
  have distinct := R.plan.episode.distinct
  have kept := @release_keeps_iff D call R _ distinct
  have failed := @release_error_iff D call R _ distinct
  rw [Calm, forall_prop_of_true checked, ← kept, ← apply_of_checked checked]
  rw [← apply_of_checked checked] at failed
  refine ⟨fun nothing => ⟨nothing.kept, fun silent frame member image hero wants approves entered => ?_⟩,
    fun ⟨kept, executed⟩ => ⟨fun heroes ok frame member eligible => ?_, kept⟩⟩
  · cases outcome : (call.apply D R).2 with
    | error error =>
      obtain ⟨other, member, raises⟩ := failed.mp ⟨error, outcome⟩
      exact absurd raises (silent other member)
    | ok heroes =>
      intro absent
      obtain ⟨offered, listed, scene⟩ := nothing.offered heroes outcome frame member
        ⟨wants, image, approves, by simpa [entered] using absent⟩
      rw [apply_of_checked checked] at outcome
      obtain ⟨other, _, _, releases, _, rfl, _⟩ := (release_mem distinct outcome).mp listed
      have fresh := releases.1.2
      rw [show other.sceneId = frame.sceneId from scene, entered] at fresh
      cases fresh
  · have silent : ∀ frame ∈ R.plan.episode.frames, ¬ call.Raises R frame := fun frame member raises => by
      obtain ⟨error, outcome⟩ := failed.mpr ⟨frame, member, raises⟩
      rw [ok] at outcome
      cases outcome
    obtain ⟨wants, image, approves, absent⟩ := eligible
    cases entered : R.heroes frame.sceneId with
    | some hero =>
      exact absurd (by simpa [entered] using absent) (executed silent frame member image hero wants approves entered)
    | none =>
      rw [apply_of_checked checked] at ok
      refine ⟨heroJob D R.plan frame image call.cost call.endpoint, (release_mem distinct ok).mpr ?_, rfl⟩
      exact ⟨frame, member, image, ⟨⟨wants, entered⟩, silent frame member, image, approves⟩, approves, rfl,
        by simpa [entered] using absent⟩

def HeroCall.points (D : Deployment) : ProductionRun → List HeroCall → List (ProductionRun × HeroCall)
  | _, [] => []
  | R, call :: later => (R, call) :: points D (call.apply D R).1 later

/-- In every sequence of calls nothing is lost exactly if every call is calm where it is made. -/
theorem no_hero_lost_iff (D : Deployment) (R : ProductionRun) (calls : List HeroCall) :
    (∀ point ∈ points D R calls, point.2.LosesNothing D point.1) ↔ ∀ point ∈ points D R calls, point.2.Calm D point.1 :=
  forall₂_congr fun _ _ => losesNothing_iff

theorem shore_entered_by_failure :
    let R := { (importingPlan true).start with plan := { importingPlan true with episode :=
      { (importingPlan true).episode with
        frames := [⟨"R002", 4, 8, "a shore", "it is empty", true⟩, ⟨"R001", 0, 4, "a boat", "the boat leaves", true⟩]
        distinct := show ["R002", "R001"].Nodup by decide } } }
    let call : HeroCall := ⟨(shoreReview true).2.1, .finite false 1 0, "seedance"⟩
    (call.apply samplePlanDeployment R).2 = .error (.key "R001") ∧ ¬ call.LosesNothing samplePlanDeployment R := by
  refine ⟨by decide, fun nothing => ?_⟩
  have entered := congrFun (nothing.kept (.key "R001") (by decide)) "R002"
  exact absurd entered (by decide)

end VideoPoster.Production
