import Mathlib.Tactic.Linarith
import Mathlib.Tactic.Positivity
import Mathlib.Tactic.Ring
import VideoPoster.Python.Basic
import VideoPoster.Tables.Table

/-!
# `revision_live`: the worst case of a plan and its authorizations
-/

namespace VideoPoster.RevisionLive
open Python Tables List

/-! ## Plans -/

structure Reviewer where
  promptPerMillion : ℚ
  completionPerMillion : ℚ
  imagePerItem : ℚ
  request : ℚ
  contextTokens : ℕ
  maxTokens : ℕ

structure Contract where
  imageCost : ℚ
  nonImageReserve : ℚ
  heroUnitCostUsd : ℚ
  reviewer : Reviewer

/-- A plan of `create_plan`: it reserves the contract's price for every selected event. -/
structure Plan where
  deployment : Contract
  estimatedSceneCount : ℕ
  budgetUsd : ℚ
  selectedEventIds : List String
  heroes : Bool
  optIn : heroes = false → selectedEventIds = []

def Plan.reservedUsd (plan : Plan) : ℚ := plan.deployment.heroUnitCostUsd * plan.selectedEventIds.length

/-- The charge of one review: the whole context, the longest answer, three images and the request. -/
def Reviewer.perReview (r : Reviewer) : ℚ :=
  (r.promptPerMillion * r.contextTokens + r.completionPerMillion * r.maxTokens) / 1000000 +
    r.imagePerItem * 3 + r.request

def Plan.count (plan : Plan) : ℕ := plan.estimatedSceneCount + 10

def Contract.Nonnegative (c : Contract) : Prop :=
  0 ≤ c.imageCost ∧ 0 ≤ c.nonImageReserve ∧ 0 ≤ c.heroUnitCostUsd ∧
    0 ≤ c.reviewer.promptPerMillion ∧ 0 ≤ c.reviewer.completionPerMillion ∧
    0 ≤ c.reviewer.imagePerItem ∧ 0 ≤ c.reviewer.request

instance (c : Contract) : Decidable c.Nonnegative := inferInstanceAs (Decidable (_ ∧ _))

def Contract.Bounded (c : Contract) : Prop :=
  0 < c.imageCost ∧ c.imageCost < 6 ∧ 0 < c.nonImageReserve ∧ c.nonImageReserve < 6

instance (c : Contract) : Decidable c.Bounded := inferInstanceAs (Decidable (_ ∧ _))

def preflight (others : Result Unit) (plan : Plan) : Result Unit := do
  let c := plan.deployment
  others
  require c.Nonnegative (.value "finite nonnegative price required")
  require c.Bounded (.value "deployment budget bounds")
  require (plan.heroes = true → 0 < c.heroUnitCostUsd ∧ c.heroUnitCostUsd < 6)
    (.value "audited LIVE RunPod price authority required")
  require (plan.budgetUsd ≤ 6) (.value "LIVE plan contract mismatch")
  require (c.reviewer.perReview * plan.count ≤ c.nonImageReserve ∧
      c.imageCost * plan.count + c.nonImageReserve + plan.reservedUsd ≤ plan.budgetUsd)
    (.value "worst-case images, correction and review budget exceeded")

def Plan.priorSpend (plan : Plan) : ℚ := plan.deployment.nonImageReserve

/-! ## Authorizations -/

inductive Category where
  | baseline | correction | hero
  deriving DecidableEq

structure Job where
  requestId : String
  scene : String
  category : Category
  cost : ℚ

structure Entry where
  requestId : String
  cost : ℚ

abbrev Authorizations := Table Entry.requestId

def Job.entry (job : Job) : Entry := ⟨job.requestId, job.cost⟩

def recorded (jobs : List Job) (ledger : Authorizations) : Authorizations :=
  jobs.foldl (fun ledger job => ledger.put job.entry) ledger

def Plan.Covers (plan : Plan) (ledger : Authorizations) : Prop :=
  ledger.rows.length ≤ plan.count ∧ ledger.sum Entry.cost + plan.priorSpend ≤ plan.budgetUsd

instance (plan : Plan) (ledger : Authorizations) : Decidable (plan.Covers ledger) :=
  inferInstanceAs (Decidable (_ ∧ _))

/-- `authorize`: the ledger that it writes. `exact` stands for the checks that the plan is approved and
that every job is the exact request of the compilation. -/
def authorize (exact : List Job → Result Unit) (plan : Plan) (jobs : List Job) (ledger : Authorizations) :
    Result Authorizations := do
  exact jobs
  require (jobs ≠ [] ∧ (jobs.map Job.requestId).Nodup) (.value "unique exact jobs required")
  require (plan.Covers (recorded jobs ledger)) (.value "exact authorization total exceeds budget")
  pure (recorded jobs ledger)

def afterCall (exact : List Job → Result Unit) (plan : Plan) (ledger : Authorizations) (jobs : List Job) :
    Authorizations :=
  match authorize exact plan jobs ledger with
  | .ok written => written
  | .error _ => ledger

def afterCalls (exact : List Job → Result Unit) (plan : Plan) (ledger : Authorizations)
    (calls : List (List Job)) : Authorizations := calls.foldl (afterCall exact plan) ledger

/-! ## What a plan can need -/

def inCategory (jobs : List Job) (category : Category) : List Job :=
  jobs.filter fun job => job.category = category

def Contract.price (c : Contract) : Category → ℚ
  | .baseline | .correction => c.imageCost
  | .hero => c.heroUnitCostUsd

/-- One baseline for each of the scenes, one correction for a scene whose baseline was rejected, up to
ten, and one hero for each selected event. -/
structure Needed (plan : Plan) (jobs : List Job) : Prop where
  distinct : (jobs.map Job.requestId).Nodup
  baselines : (inCategory jobs .baseline).length ≤ plan.estimatedSceneCount
  corrections : (inCategory jobs .correction).length ≤ 10
  once : ((inCategory jobs .correction).map Job.scene).Nodup
  corrected : ∀ job ∈ inCategory jobs .correction, ∃ other ∈ inCategory jobs .baseline,
    other.scene = job.scene
  heroes : (inCategory jobs .hero).length ≤ plan.selectedEventIds.length
  priced : ∀ job ∈ jobs, job.cost = plan.deployment.price job.category

/-! ## The ledger of needed jobs -/

variable {exact : List Job → Result Unit} {plan : Plan} {jobs call : List Job} {ledger : Authorizations}

theorem mem_recorded {entry : Entry} (member : entry ∈ recorded jobs ledger) :
    entry ∈ ledger ∨ ∃ job ∈ jobs, job.entry = entry := by
  induction jobs generalizing ledger with
  | nil => exact .inl member
  | cons job jobs ih =>
    rcases ih member with old | ⟨other, there, is⟩
    · rcases Table.mem_put.mp old with rfl | ⟨old, -⟩
      · exact .inr ⟨job, .head _, rfl⟩
      · exact .inl old
    · exact .inr ⟨other, .tail _ there, is⟩

def Within (jobs : List Job) (ledger : Authorizations) : Prop :=
  ∀ entry ∈ ledger, ∃ job ∈ jobs, job.entry = entry

theorem Within.recorded (within : Within jobs ledger) (call_le : ∀ job ∈ call, job ∈ jobs) :
    Within jobs (recorded call ledger) := by
  intro entry member
  rcases mem_recorded member with old | ⟨job, there, is⟩
  · exact within entry old
  · exact ⟨job, call_le job there, is⟩

theorem Within.subperm (within : Within jobs ledger) : ledger.rows.Subperm (jobs.map Job.entry) := by
  have nodup : ledger.rows.Nodup := .of_map _ ledger.unique
  refine subperm_of_subset nodup fun entry member => ?_
  obtain ⟨job, there, is⟩ := within entry member
  exact mem_map.mpr ⟨job, there, is⟩

theorem sum_le_of_subperm {entries others : List Entry} (le : entries.Subperm others)
    (nonneg : ∀ entry ∈ others, 0 ≤ entry.cost) : (entries.map Entry.cost).sum ≤ (others.map Entry.cost).sum := by
  obtain ⟨same, perm, sub⟩ := le
  rw [← (perm.map Entry.cost).sum_eq]
  refine (sub.map Entry.cost).sum_le_sum fun cost member => ?_
  obtain ⟨entry, there, rfl⟩ := mem_map.mp member
  exact nonneg entry there

theorem length_categories (jobs : List Job) : jobs.length = (inCategory jobs .baseline).length +
    (inCategory jobs .correction).length + (inCategory jobs .hero).length := by
  induction jobs with
  | nil => rfl
  | cons job jobs ih =>
    cases is : job.category with
    | baseline | correction | hero =>
      simp only [inCategory, filter_cons, is, decide_true, if_true, reduceCtorEq, decide_false,
        Bool.false_eq_true, if_false, length_cons] at ih ⊢
      omega

theorem sum_categories (c : Contract) (priced : ∀ job ∈ jobs, job.cost = c.price job.category) :
    ((jobs.map Job.entry).map Entry.cost).sum = c.imageCost * ((inCategory jobs .baseline).length
    + (inCategory jobs .correction).length : ℕ) + c.heroUnitCostUsd * (inCategory jobs .hero).length := by
  induction jobs with
  | nil => simp [inCategory]
  | cons job jobs ih =>
    have rest := ih fun other member => priced other (.tail _ member)
    have price := priced job (.head _)
    simp only [map_cons, sum_cons, rest, Job.entry, price]
    cases is : job.category with
    | baseline | correction | hero =>
      simp only [inCategory, filter_cons, is, decide_true, if_true, reduceCtorEq, decide_false,
        Bool.false_eq_true, if_false, length_cons, Contract.price]
      push_cast
      ring

theorem Needed.correction_le (needed : Needed plan jobs) :
    (inCategory jobs .correction).length ≤ (inCategory jobs .baseline).length := by
  have scenes : (inCategory jobs .correction).map Job.scene ⊆ (inCategory jobs .baseline).map Job.scene := by
    intro scene member
    obtain ⟨job, there, rfl⟩ := mem_map.mp member
    obtain ⟨other, baseline, same⟩ := needed.corrected job there
    exact mem_map.mpr ⟨other, baseline, same⟩
  have le := (subperm_of_subset needed.once scenes).length_le
  rwa [length_map, length_map] at le

/-! ## Accepted plans -/

structure Accepted (plan : Plan) : Prop where
  nonnegative : plan.deployment.Nonnegative
  budget : plan.deployment.imageCost * plan.count + plan.priorSpend + plan.reservedUsd ≤ plan.budgetUsd

theorem preflight_accepted {others : Result Unit} (passed : preflight others plan = .ok ()) : Accepted plan := by
  simp only [preflight, bind_eq_ok, require_eq_ok, exists_const] at passed
  obtain ⟨-, -, nonnegative, -, -, -, -, budget⟩ := passed
  exact ⟨nonnegative, budget⟩

def Plan.Counted (plan : Plan) : Prop :=
  plan.selectedEventIds = [] ∨ plan.estimatedSceneCount + plan.selectedEventIds.length ≤ 10

theorem Needed.length_le (needed : Needed plan jobs) (counted : plan.Counted) : jobs.length ≤ plan.count := by
  have baselines := needed.baselines
  have corrections := needed.corrections
  have corrected := needed.correction_le
  have heroes := needed.heroes
  rw [length_categories jobs, Plan.count]
  rcases counted with none | few
  · rw [none, length_nil] at heroes
    omega
  · omega

theorem Needed.sum_le (needed : Needed plan jobs) (accepted : Accepted plan) :
    ((jobs.map Job.entry).map Entry.cost).sum + plan.priorSpend ≤ plan.budgetUsd := by
  obtain ⟨image, -, hero, -⟩ := accepted.nonnegative
  have images : (((inCategory jobs .baseline).length + (inCategory jobs .correction).length : ℕ) : ℚ) ≤
      plan.count := by
    have := needed.baselines
    have := needed.corrections
    exact_mod_cast (by unfold Plan.count; omega : (inCategory jobs .baseline).length +
      (inCategory jobs .correction).length ≤ plan.count)
  have heroes : ((inCategory jobs .hero).length : ℚ) ≤ plan.selectedEventIds.length := by
    exact_mod_cast needed.heroes
  have imageCosts := mul_le_mul_of_nonneg_left images image
  have heroCosts := mul_le_mul_of_nonneg_left heroes hero
  have budget := accepted.budget
  rw [sum_categories plan.deployment needed.priced]
  rw [Plan.reservedUsd] at budget
  linarith

theorem Needed.covers (needed : Needed plan jobs) (accepted : Accepted plan) (counted : plan.Counted)
    (within : Within jobs ledger) : plan.Covers ledger := by
  have le := within.subperm
  constructor
  · calc ledger.rows.length ≤ (jobs.map Job.entry).length := le.length_le
      _ = jobs.length := length_map _
      _ ≤ plan.count := needed.length_le counted
  · have nonneg : ∀ entry ∈ jobs.map Job.entry, 0 ≤ entry.cost := by
      intro entry member
      obtain ⟨job, there, rfl⟩ := mem_map.mp member
      have price := needed.priced job there
      have image := accepted.nonnegative.1
      have hero := accepted.nonnegative.2.2.1
      cases is : job.category <;> simp only [Job.entry, price, is, Contract.price] <;> assumption
    have costs := sum_le_of_subperm le nonneg
    have total := needed.sum_le accepted
    unfold Table.sum
    linarith

/-! ## Calls -/

def CallOf (exact : List Job → Result Unit) (jobs call : List Job) : Prop :=
  exact call = .ok () ∧ call ≠ [] ∧ (call.map Job.requestId).Nodup ∧ ∀ job ∈ call, job ∈ jobs

theorem authorize_eq_ok {written : Authorizations} :
    authorize exact plan call ledger = .ok written ↔ exact call = .ok () ∧ (call ≠ [] ∧ (call.map Job.requestId).Nodup)
    ∧ plan.Covers (recorded call ledger) ∧ written = recorded call ledger := by
  simp only [authorize, bind_eq_ok, require_eq_ok, exists_const, pure_eq_ok]
  constructor
  · rintro ⟨⟨⟩, given, nonempty, covers, rfl⟩
    exact ⟨given, nonempty, covers, rfl⟩
  · rintro ⟨given, nonempty, covers, rfl⟩
    exact ⟨(), given, nonempty, covers, rfl⟩

def AllPass (exact : List Job → Result Unit) (plan : Plan) :
    Authorizations → List (List Job) → Prop
  | _, [] => True
  | ledger, call :: calls => (∃ written, authorize exact plan call ledger = .ok written) ∧
      AllPass exact plan (afterCall exact plan ledger call) calls

theorem Needed.allPass (needed : Needed plan jobs) (accepted : Accepted plan) (counted : plan.Counted)
    {calls : List (List Job)} (of : ∀ call ∈ calls, CallOf exact jobs call)
    (within : Within jobs ledger) : AllPass exact plan ledger calls := by
  induction calls generalizing ledger with
  | nil => trivial
  | cons call calls ih =>
    obtain ⟨given, nonempty, distinct, among⟩ := of call (.head _)
    have inside := within.recorded among
    have passes : authorize exact plan call ledger = .ok (recorded call ledger) :=
      authorize_eq_ok.2 ⟨given, ⟨nonempty, distinct⟩, needed.covers accepted counted inside, rfl⟩
    refine ⟨⟨_, passes⟩, ?_⟩
    rw [afterCall, passes]
    exact ih (fun other member => of other (.tail _ member)) inside

/-! ## The largest set -/

def name (letter : Char) (n : ℕ) : String := .ofList (replicate (n + 1) letter)

theorem name_inj {a b : Char} {n m : ℕ} (same : name a n = name b m) : a = b ∧ n = m := by
  have lists : replicate (n + 1) a = replicate (m + 1) b := by
    have := congrArg String.toList same
    simpa only [name, String.toList_ofList] using this
  have lengths := congrArg length lists
  rw [length_replicate, length_replicate] at lengths
  have heads := congrArg head? lists
  rw [replicate_succ, replicate_succ, head?_cons, head?_cons] at heads
  exact ⟨Option.some.inj heads, by omega⟩

def numbered (plan : Plan) (letter : Char) (category : Category) (n : ℕ) : Job where
  requestId := name letter n
  scene := name 's' n
  category := category
  cost := plan.deployment.price category

def numberedJobs (plan : Plan) (letter : Char) (category : Category) (count : ℕ) : List Job :=
  (range count).map (numbered plan letter category)

def worst (plan : Plan) : List Job :=
  numberedJobs plan 'b' .baseline plan.estimatedSceneCount ++
    numberedJobs plan 'c' .correction (min plan.estimatedSceneCount 10) ++
      numberedJobs plan 'h' .hero plan.selectedEventIds.length

theorem inCategory_numberedJobs (letter : Char) (category other : Category) (count : ℕ) : inCategory (numberedJobs
    plan letter category count) other = if category = other then numberedJobs plan letter category count else [] := by
  unfold inCategory numberedJobs
  split_ifs with same
  · refine filter_eq_self.mpr fun job member => ?_
    obtain ⟨n, -, rfl⟩ := mem_map.mp member
    exact decide_eq_true same
  · refine filter_eq_nil_iff.mpr fun job member => ?_
    obtain ⟨n, -, rfl⟩ := mem_map.mp member
    exact fun equal => same (of_decide_eq_true equal)

theorem inCategory_worst (plan : Plan) :
    inCategory (worst plan) .baseline = numberedJobs plan 'b' .baseline plan.estimatedSceneCount ∧
    inCategory (worst plan) .correction = numberedJobs plan 'c' .correction (min plan.estimatedSceneCount 10)
    ∧ inCategory (worst plan) .hero = numberedJobs plan 'h' .hero plan.selectedEventIds.length := by
  have split : ∀ category, inCategory (worst plan) category =
      inCategory (numberedJobs plan 'b' .baseline plan.estimatedSceneCount) category ++
        inCategory (numberedJobs plan 'c' .correction (min plan.estimatedSceneCount 10)) category ++
          inCategory (numberedJobs plan 'h' .hero plan.selectedEventIds.length) category := by
    intro category
    simp only [inCategory, worst, filter_append]
  refine ⟨?_, ?_, ?_⟩ <;> rw [split] <;> simp [inCategory_numberedJobs]

theorem nodup_numberedJobs (letter : Char) (category : Category) (count : ℕ) :
    ((numberedJobs plan letter category count).map Job.requestId).Nodup := by
  rw [numberedJobs, map_map]
  exact nodup_range.map fun n m same => (name_inj same).2

theorem requestId_numberedJobs {letter : Char} {category : Category} {count : ℕ} {id : String}
    (member : id ∈ (numberedJobs plan letter category count).map Job.requestId) : ∃ n, id = name letter n := by
  obtain ⟨job, there, rfl⟩ := mem_map.mp member
  obtain ⟨n, -, rfl⟩ := mem_map.mp there
  exact ⟨n, rfl⟩

theorem nodup_worst (plan : Plan) : ((worst plan).map Job.requestId).Nodup := by
  have apart : ∀ {a b : Char} {c d : Category} {i j : ℕ}, a ≠ b →
      List.Disjoint ((numberedJobs plan a c i).map Job.requestId)
        ((numberedJobs plan b d j).map Job.requestId) := by
    intro a b c d i j different id left right
    obtain ⟨n, rfl⟩ := requestId_numberedJobs left
    obtain ⟨m, same⟩ := requestId_numberedJobs right
    exact different (name_inj same).1
  rw [worst, map_append, map_append]
  refine (List.Nodup.append (nodup_numberedJobs _ _ _) (nodup_numberedJobs _ _ _)
    (apart (by decide))).append (nodup_numberedJobs _ _ _) ?_
  exact disjoint_append_left.mpr ⟨apart (by decide), apart (by decide)⟩

theorem needed_worst (plan : Plan) : Needed plan (worst plan) := by
  obtain ⟨baselines, corrections, heroes⟩ := inCategory_worst plan
  have length : ∀ (letter : Char) (category : Category) (count : ℕ),
      (numberedJobs plan letter category count).length = count := by
    intro letter category count
    rw [numberedJobs, length_map, length_range]
  constructor
  · exact nodup_worst plan
  · rw [baselines, length]
  · rw [corrections, length]
    exact Nat.min_le_right _ _
  · rw [corrections, numberedJobs, map_map]
    exact nodup_range.map fun n m same => (name_inj same).2
  · rw [corrections, baselines]
    intro job member
    obtain ⟨n, inside, rfl⟩ := mem_map.mp member
    rw [mem_range] at inside
    exact ⟨numbered plan 'b' .baseline n, mem_map.mpr ⟨n, mem_range.mpr (by omega), rfl⟩, rfl⟩
  · rw [heroes, length]
  · intro job member
    simp only [worst, mem_append, numberedJobs, mem_map] at member
    rcases member with (⟨n, -, rfl⟩ | ⟨n, -, rfl⟩) | ⟨n, -, rfl⟩ <;> rfl

theorem length_worst (plan : Plan) : (worst plan).length =
    plan.estimatedSceneCount + min plan.estimatedSceneCount 10 + plan.selectedEventIds.length := by
  simp [worst, numberedJobs, Nat.add_assoc]

/-! ## The worst case covers the run -/

/-- Every set of jobs that the plan can need passes the count and the budget, in any order and in any
grouping of calls. -/
def Plan.WorstCaseCovers (plan : Plan) : Prop :=
  ∀ (exact : List Job → Result Unit) (jobs : List Job) (calls : List (List Job)), Needed plan jobs →
    (∀ call ∈ calls, CallOf exact jobs call) → AllPass exact plan .empty calls

theorem covers_afterCalls (accepted : Accepted plan) (exact : List Job → Result Unit) (calls : List (List Job)) :
    (afterCalls exact plan .empty calls).sum Entry.cost + plan.priorSpend ≤ plan.budgetUsd := by
  have kept : ∀ ledger : Authorizations, ledger.sum Entry.cost + plan.priorSpend ≤ plan.budgetUsd →
      (afterCalls exact plan ledger calls).sum Entry.cost + plan.priorSpend ≤ plan.budgetUsd := by
    induction calls with
    | nil => exact fun _ => id
    | cons call calls ih =>
      intro ledger within
      refine ih _ ?_
      unfold afterCall
      cases ran : authorize exact plan call ledger with
      | error error => exact within
      | ok written =>
        obtain ⟨-, -, covers, rfl⟩ := authorize_eq_ok.1 ran
        exact covers.2
  refine kept .empty ?_
  obtain ⟨image, -, hero, -⟩ := accepted.nonnegative
  have budget := accepted.budget
  have images : 0 ≤ plan.deployment.imageCost * plan.count := by positivity
  have heroes : 0 ≤ plan.reservedUsd := by
    unfold Plan.reservedUsd
    positivity
  rw [Table.sum_empty]
  linarith

theorem length_recorded (distinct : (jobs.map Job.requestId).Nodup) (new : ∀ entry ∈ ledger, ∀ job ∈ jobs,
    job.requestId ≠ entry.requestId) : (recorded jobs ledger).rows.length = jobs.length + ledger.rows.length := by
  induction jobs generalizing ledger with
  | nil => simp [recorded]
  | cons job jobs ih =>
    obtain ⟨alone, rest⟩ := nodup_cons.mp distinct
    have all : ledger.rows.filter (fun other => other.requestId ≠ job.entry.requestId) = ledger.rows :=
      filter_eq_self.mpr fun entry member =>
        decide_eq_true (Ne.symm (new entry member job (.head _)))
    have put : (ledger.put job.entry).rows.length = ledger.rows.length + 1 := by
      simp only [Table.put, all, length_cons]
    have later : (recorded jobs (ledger.put job.entry)).rows.length =
        jobs.length + (ledger.put job.entry).rows.length := by
      refine ih rest fun entry member other there => ?_
      rcases Table.mem_put.mp member with rfl | ⟨old, -⟩
      · exact fun same => alone (mem_map.mpr ⟨other, there, same⟩)
      · exact new entry old other (.tail _ there)
    change (recorded jobs (ledger.put job.entry)).rows.length = _
    rw [later, put, length_cons]
    omega

theorem worst_refused (uncounted : ¬plan.Counted) : ¬plan.WorstCaseCovers := by
  intro covers
  simp only [Plan.Counted, not_or, not_le] at uncounted
  obtain ⟨selected, many⟩ := uncounted
  have some : plan.selectedEventIds.length ≠ 0 := fun none => selected (length_eq_zero_iff.mp none)
  have nonempty : worst plan ≠ [] := by
    intro nothing
    have length := length_worst plan
    rw [nothing, length_nil] at length
    omega
  have one := covers (fun _ => .ok ()) (worst plan) [worst plan] (needed_worst plan) fun call member => by
    obtain rfl := mem_singleton.mp member
    exact ⟨rfl, nonempty, nodup_worst plan, fun _ => id⟩
  obtain ⟨⟨written, passes⟩, -⟩ := one
  obtain ⟨-, -, fits, rfl⟩ := authorize_eq_ok.1 passes
  have keys : (recorded (worst plan) .empty).rows.length = (worst plan).length :=
    length_recorded (nodup_worst plan) (by rintro _ ⟨⟩)
  have most := fits.1
  rw [keys, length_worst, Plan.count] at most
  omega

theorem preflight_covers (others : Result Unit) (plan : Plan) (passed : preflight others plan = .ok ()) :
    (plan.WorstCaseCovers ↔ plan.selectedEventIds = [] ∨ plan.estimatedSceneCount + plan.selectedEventIds.length ≤ 10) ∧
    ∀ (exact : List Job → Result Unit) (calls : List (List Job)),
      (afterCalls exact plan .empty calls).sum Entry.cost + plan.priorSpend ≤ plan.budgetUsd := by
  have accepted := preflight_accepted passed
  refine ⟨⟨fun covers => ?_, fun counted exact jobs calls needed of => ?_⟩, covers_afterCalls accepted⟩
  · by_contra uncounted
    exact worst_refused uncounted covers
  · exact needed.allPass accepted counted of (by rintro _ ⟨⟩)

/-! ## A plan with heroes -/

def samplePlan : Plan where
  deployment := ⟨1 / 50, 1, 1 / 2, ⟨1 / 10, 1 / 2, 1 / 1000, 0, 1000, 1000⟩⟩
  estimatedSceneCount := 42
  budgetUsd := 6
  selectedEventIds := ["promise-stars", "new-names", "promised-son", "visitors"]
  heroes := true
  optIn := nofun

theorem samplePlan_accepted : preflight (.ok ()) samplePlan = .ok () := by
  decide +kernel

theorem preflight_covers_sample : (samplePlan.WorstCaseCovers ↔
    samplePlan.selectedEventIds = [] ∨ samplePlan.estimatedSceneCount + samplePlan.selectedEventIds.length ≤ 10)
    ∧ ∀ (exact : List Job → Result Unit) (calls : List (List Job)),
    (afterCalls exact samplePlan .empty calls).sum Entry.cost + samplePlan.priorSpend ≤ samplePlan.budgetUsd :=
  preflight_covers (.ok ()) samplePlan samplePlan_accepted

theorem heroes_refused : preflight (.ok ()) samplePlan = .ok () ∧ ¬samplePlan.WorstCaseCovers := by
  refine ⟨samplePlan_accepted, worst_refused ?_⟩
  simp [Plan.Counted, samplePlan]

end VideoPoster.RevisionLive
