import Mathlib.Data.Prod.Lex
import Mathlib.Data.Rat.Cast.Order
import Mathlib.Data.List.Sort
import Mathlib.Tactic.Linarith
import Mathlib.Tactic.Positivity
import VideoPoster.Budget.Guard
import VideoPoster.Python.Basic

/-!
# `hybrid.planner`: the cost envelope and the heroes of an episode
-/

namespace VideoPoster.Planning
open Python Budget Planning List

structure Capacity where
  first : ℕ
  alternative : ℕ
  correction : ℕ
  thumbnail : ℕ

def Capacity.total (capacity : Capacity) : ℕ :=
  capacity.first + capacity.alternative + capacity.correction + capacity.thumbnail

theorem defaultPrices : (0 : ℚ) ≤ 52 / 1000 ∧ (0 : ℚ) ≤ 6 := by norm_num

/-- The configured values that a plan reads, with the checks of `__post_init__`. -/
structure Config where
  capacity : Capacity := ⟨39, 39, 10, 4⟩
  videoPerSecond : ℚ := 52 / 1000
  heroSlots : ℕ := 12
  retrySlots : ℕ := 3
  clipSeconds : ℕ := 5
  limit : ℚ := 6
  reserve : capacity = ⟨39, 39, 10, 4⟩ := by rfl
  contract : (heroSlots, retrySlots, clipSeconds) = (12, 3, 5) := by rfl
  priced : 0 ≤ videoPerSecond := by exact defaultPrices.1
  limited : 0 ≤ limit := by exact defaultPrices.2

structure Hero where
  sceneId : String
  action : String
  impact : ℚ
  movement : ℚ
  start : ℚ
  identified : sceneId ≠ "" ∧ blank action = false
  scores : (0 ≤ impact ∧ impact ≤ 1) ∧ 0 ≤ movement ∧ movement ≤ 1
  started : 0 ≤ start

def Hero.key (hero : Hero) : ℚ ×ₗ ℚ ×ₗ String :=
  toLex (-(hero.impact * hero.movement), toLex (hero.start, hero.sceneId))

structure PlanRequest where
  candidates : List Hero := []
  localOnly : Bool := false
  guard : Option (CostLedger .exact) := none
  committed : ℚ := 0
  images : ℚ := 0
  recommendedDurationSeconds : Option ℤ := none
  essentialEvents : Option ℤ := none
  narrationWords : Option ℤ := none
  sceneCount : Option ℤ := none
  closingSeconds : ℤ := 4

structure Delivery where
  durationSeconds : ℤ
  essentialEvents : Option ℤ
  narrationWords : Option ℤ
  sceneCount : ℤ
  heroSeconds : ℤ
  localWindowCount : ℤ
  localAnimationSeconds : ℤ
  closingSeconds : ℤ

structure Plan where
  delivery : Option Delivery
  baselineImages : ℕ
  heroClips : ℕ
  heroSeconds : ℕ
  heroCost : ℚ
  reservedHeroCost : ℚ
  retryCost : ℚ
  immediate : ℚ
  probable : ℚ
  maximum : ℚ
  immediateProjected : ℚ
  probableProjected : ℚ
  conservativeProjected : ℚ
  immediateBudgetAction : BudgetAction
  probableBudgetAction : BudgetAction
  conservativeBudgetAction : BudgetAction
  heroes : List Hero
  localOnly : Bool

variable (config : Config) (request : PlanRequest)

def money (value : ℚ) : Result Unit := require (0 ≤ value) (.value "cost must be finite and nonnegative")

def natural (name : String) (value : Option ℤ) : Result Unit :=
  require (∀ n ∈ value, 0 ≤ n) (.value (name ++ " must be a nonnegative integer"))

def selectedBaselineCount : ℕ := (request.sceneCount.map Int.toNat).getD config.capacity.first

def movingCandidates : List Hero := request.candidates.filter fun hero => 0 < hero.movement

def ranked (heroes : List Hero) : List Hero := heroes.insertionSort fun a b => a.key ≤ b.key

def heroes : List Hero :=
  (ranked (movingCandidates request)).take (min config.heroSlots (selectedBaselineCount config request))

def ledger : CostLedger .exact := request.guard.getD ⟨config.limit, (5 : ℚ), (0 : ℚ)⟩

def heroClips : ℕ := if request.localOnly then 0 else (heroes config request).length

def baselineImageCost : ℚ :=
  if request.localOnly then 0 else request.images * selectedBaselineCount config request / config.capacity.total

def heroCost (clips : ℕ) : ℚ := (clips * config.clipSeconds : ℕ) * config.videoPerSecond

def api : ℚ :=
  if request.localOnly then 0 else baselineImageCost config request + heroCost config (heroClips config request)

def conservativeApi : ℚ :=
  if request.localOnly then 0 else request.images + heroCost config config.heroSlots + heroCost config config.retrySlots

def delivery : Result (Option Delivery) :=
  match request.recommendedDurationSeconds with
  | none => pure none
  | some duration => do
    let heroSeconds := heroClips config request * config.clipSeconds
    let sceneCount := request.sceneCount.getD request.candidates.length
    let localAnimationSeconds := duration - heroSeconds - request.closingSeconds
    require (0 ≤ localAnimationSeconds) (.value "duration is shorter than hero and closing contract")
    pure (some ⟨duration, request.essentialEvents, request.narrationWords, sceneCount, heroSeconds,
      max 0 (sceneCount - heroClips config request), localAnimationSeconds, request.closingSeconds⟩)

def costed (delivery : Option Delivery) : Plan :=
  let ledger := ledger config request
  let projected (cost : ℚ) : ℚ := request.committed + cost
  { delivery
    baselineImages := selectedBaselineCount config request
    heroClips := heroClips config request
    heroSeconds := heroClips config request * config.clipSeconds
    heroCost := heroCost config (heroClips config request)
    reservedHeroCost := heroCost config config.heroSlots
    retryCost := heroCost config config.retrySlots
    immediate := baselineImageCost config request
    probable := api config request
    maximum := conservativeApi config request
    immediateProjected := projected (baselineImageCost config request) + (show ℚ from ledger.spent)
    probableProjected := projected (api config request) + (show ℚ from ledger.spent)
    conservativeProjected := projected (conservativeApi config request) + (show ℚ from ledger.spent)
    immediateBudgetAction := approveJob ledger (projected (baselineImageCost config request))
    probableBudgetAction := approveJob ledger (projected (api config request))
    conservativeBudgetAction := approveJob ledger (projected (conservativeApi config request))
    heroes := if request.localOnly then [] else (heroes config request).insertionSort fun a b => a.start ≤ b.start
    localOnly := request.localOnly }

def plan : Result Plan := do
  money request.committed
  money request.images
  require (3 ≤ request.closingSeconds ∧ request.closingSeconds ≤ 10) (.value "closing_seconds must be 3 to 10 seconds")
  natural "essential_events" request.essentialEvents
  natural "narration_words" request.narrationWords
  natural "scene_count" request.sceneCount
  require (∀ duration ∈ request.recommendedDurationSeconds, 180 ≤ duration ∧ duration ≤ 900)
    (.value "recommended_duration_seconds must be 180 to 900")
  require (∀ duration ∈ request.recommendedDurationSeconds, request.closingSeconds < duration)
    (.value "closing duration must fit inside episode duration")
  require (∀ count ∈ request.sceneCount, count ≤ config.capacity.first) (.value "scene_count exceeds baseline capacity")
  require (request.candidates.map Hero.sceneId).Nodup (.value "duplicate scene IDs")
  let delivery ← delivery config request
  money (ledger config request).spent
  pure (costed config request delivery)

/-! ## The heroes -/

/-- Higher impact times movement, then earlier start, then smaller identifier. -/
def Hero.Precedes (hero other : Hero) : Prop :=
  other.impact * other.movement < hero.impact * hero.movement ∨
    other.impact * other.movement = hero.impact * hero.movement ∧
      (hero.start < other.start ∨ hero.start = other.start ∧ hero.sceneId < other.sceneId)

variable {config request} {hero other : Hero} {selected : List Hero}

theorem key_lt_iff : hero.key < other.key ↔ hero.Precedes other := by
  simp only [Hero.key, Hero.Precedes, Prod.Lex.toLex_lt_toLex, neg_lt_neg_iff, neg_inj]
  grind

def Distinct (heroes : List Hero) : Prop := (heroes.map Hero.sceneId).Nodup

theorem Distinct.eq_of_key (distinct : Distinct selected) (member : hero ∈ selected) (member' : other ∈ selected)
    (same : hero.key = other.key) : hero = other :=
  inj_on_of_nodup_map distinct member member' (congrArg (fun key => (ofLex (ofLex key).2).2) same)

theorem ranked_perm (heroes : List Hero) : (ranked heroes).Perm heroes := perm_insertionSort ..

theorem ranked_pairwise (heroes : List Hero) : (ranked heroes).Pairwise fun a b => a.key ≤ b.key :=
  have : IsTrans Hero fun a b => a.key ≤ b.key := ⟨fun _ _ _ => le_trans⟩
  have : Std.Total fun a b : Hero => a.key ≤ b.key := ⟨fun a b => le_total a.key b.key⟩
  pairwise_insertionSort ..

theorem ranked_congr {heroes : List Hero} (perm : selected.Perm heroes) (distinct : Distinct selected) :
    ranked selected = ranked heroes := by
  refine List.Perm.eq_of_pairwise ?_ (ranked_pairwise selected) (ranked_pairwise heroes) ?_
  · intro a b member member' before after
    exact distinct.eq_of_key ((ranked_perm _).mem_iff.mp member)
      (perm.mem_iff.mpr ((ranked_perm _).mem_iff.mp member')) (before.antisymm after)
  · exact (ranked_perm _).trans (perm.trans (ranked_perm _).symm)

theorem Distinct.moving (distinct : Distinct request.candidates) : Distinct (movingCandidates request) :=
  distinct.sublist (filter_sublist.map _)

theorem heroes_mem (member : hero ∈ heroes config request) : hero ∈ request.candidates ∧ 0 < hero.movement := by
  simpa [movingCandidates] using (ranked_perm _).mem_iff.mp (mem_of_mem_take member)

theorem heroes_length : (heroes config request).length =
    min (min config.heroSlots (selectedBaselineCount config request)) (movingCandidates request).length := by
  rw [heroes, length_take, (ranked_perm _).length_eq]

section
variable (distinct : Distinct request.candidates)
include distinct

theorem heroes_distinct : Distinct (heroes config request) :=
  ((((ranked_perm _).map _).nodup_iff).mpr distinct.moving).sublist ((take_sublist ..).map _)

theorem heroes_precede (member : hero ∈ heroes config request) (candidate : other ∈ request.candidates)
    (moves : 0 < other.movement) (left : other ∉ heroes config request) : hero.Precedes other := by
  have moving : other ∈ movingCandidates request := by simpa [movingCandidates] using ⟨candidate, moves⟩
  have inRanked := (ranked_perm _).mem_iff.mpr moving
  have sorted := ranked_pairwise (movingCandidates request)
  rw [← take_append_drop (min config.heroSlots (selectedBaselineCount config request)) (ranked _)] at sorted inRanked
  have dropped := (mem_append.mp inRanked).resolve_left left
  have before : hero.key ≤ other.key := (pairwise_append.mp sorted).2.2 _ member _ dropped
  rw [← key_lt_iff]
  apply before.lt_of_ne
  intro same
  exact left (distinct.eq_of_key (heroes_mem member).1 candidate same ▸ member)

theorem heroes_congr {candidates : List Hero} (perm : request.candidates.Perm
    candidates) : heroes config { request with candidates := candidates } = heroes config request := by
  have same : ranked (movingCandidates request) = ranked (movingCandidates { request with candidates := candidates }) :=
    ranked_congr (perm.filter _) distinct.moving
  rw [heroes, ← same]
  rfl

end

/-! ## The plan -/

def Proceeds (action : BudgetAction) : Prop := action = .proceed ∨ action = .proceedWithWarning

structure Planned (config : Config) (request : PlanRequest) (plan : Plan) : Prop where
  immediate : plan.immediate ≤ plan.probable
  probable : plan.probable ≤ plan.maximum
  proceeds : Proceeds plan.conservativeBudgetAction →
    Proceeds plan.probableBudgetAction ∧ Proceeds plan.immediateBudgetAction
  unselected : request.localOnly = true → plan.heroes = []
  selected : request.localOnly = false →
    plan.heroes.length = min 12 (min (selectedBaselineCount config request) (movingCandidates request).length) ∧
    ∀ hero ∈ plan.heroes, ∀ other ∈ request.candidates, 0 < other.movement → other ∉ plan.heroes →
      hero.Precedes other
  moving : ∀ hero ∈ plan.heroes, hero ∈ request.candidates ∧ 0 < hero.movement
  distinct : Distinct plan.heroes
  unordered : ∀ candidates, request.candidates.Perm candidates →
    Planning.plan config { request with candidates := candidates } = .ok plan
  tiled : ∀ delivery ∈ plan.delivery, request.recommendedDurationSeconds = some delivery.durationSeconds ∧
    delivery.heroSeconds = 5 * plan.heroes.length ∧
    delivery.heroSeconds + delivery.localAnimationSeconds + delivery.closingSeconds = delivery.durationSeconds

theorem proceeds_mono {ledger : CostLedger .exact} {less more : ℚ} (le : less ≤ more)
    (proceeds : Proceeds (approveJob ledger (more : ℚ))) : Proceeds (approveJob ledger (less : ℚ)) := by
  have within {cost : ℚ} : Proceeds (approveJob ledger (cost : ℚ)) ↔
      (show ℚ from ledger.spent) + cost ≤ (show ℚ from ledger.hardLimit) := by
    unfold approveJob CostLedger.check Proceeds
    simp only [FloatArithmetic.exact, decide_eq_true_eq]
    split_ifs with above warned
    · simpa using above
    · simpa using above
    · simpa using above
  rw [within] at proceeds ⊢
  exact (add_le_add_right le _).trans proceeds

theorem heroCost_mono {few many : ℕ} (le : few ≤ many) : heroCost config few ≤ heroCost config many := by
  apply mul_le_mul_of_nonneg_right _ config.priced
  exact_mod_cast Nat.mul_le_mul_right _ le

theorem heroCost_nonneg (clips : ℕ) : 0 ≤ heroCost config clips := mul_nonneg (Nat.cast_nonneg _) config.priced

theorem baselineImageCost_le_api : baselineImageCost config request ≤ api config request := by
  unfold api
  split_ifs with offline
  · simp [baselineImageCost, offline]
  · exact le_add_of_nonneg_right (heroCost_nonneg _)

theorem heroClips_le : heroClips config request ≤ config.heroSlots := by
  unfold heroClips
  split_ifs
  · exact Nat.zero_le _
  · rw [heroes_length]
    omega

theorem api_le_conservativeApi (given : 0 ≤ request.images) (fits : selectedBaselineCount
    config request ≤ config.capacity.total) : api config request ≤ conservativeApi config request := by
  unfold api conservativeApi baselineImageCost
  split_ifs
  · exact le_rfl
  · have total : (0 : ℚ) < config.capacity.total := by rw [config.reserve]; norm_num [Capacity.total]
    have share : (selectedBaselineCount config request : ℚ) / config.capacity.total ≤ 1 :=
      (div_le_one total).mpr (by exact_mod_cast fits)
    have imageCost := mul_le_of_le_one_right given share
    have clips : heroCost config (heroClips config request) ≤ _ := heroCost_mono heroClips_le
    have retries : 0 ≤ heroCost config config.retrySlots := heroCost_nonneg _
    rw [mul_div_assoc]
    linarith

theorem baselineCount_le (capacity : ∀ count ∈ request.sceneCount, count ≤ config.capacity.first) :
    selectedBaselineCount config request ≤ config.capacity.first := by
  unfold selectedBaselineCount
  cases given : request.sceneCount with
  | none => exact le_rfl
  | some count => exact Int.toNat_le.mpr (capacity count given)

theorem plan_congr {candidates : List Hero} (distinct : Distinct request.candidates) (perm : request.candidates.Perm
    candidates) : plan config { request with candidates := candidates } = plan config request := by
  have same : heroes config _ = _ := heroes_congr distinct perm
  have clips : heroClips config { request with candidates := candidates } = heroClips config request := by
    rw [heroClips, heroClips, same]
  have delivered : delivery config { request with candidates := candidates } = delivery config request := by
    rw [delivery, delivery, clips, perm.length_eq]
  have outcome (d : Option Delivery) : costed config { request with candidates := candidates } d =
      costed config request d := by
    simp only [costed, api, clips, same]
    rfl
  have both : (candidates.map Hero.sceneId).Nodup ↔ (request.candidates.map Hero.sceneId).Nodup :=
    (perm.map _).nodup_iff.symm
  simp only [plan, both, delivered, outcome]
  rfl

theorem delivery_eq {delivered : Option Delivery} (is : delivery config request = .ok delivered) :
    ∀ d ∈ delivered, request.recommendedDurationSeconds = some d.durationSeconds ∧ d.heroSeconds =
    5 * heroClips config request ∧ d.heroSeconds + d.localAnimationSeconds + d.closingSeconds = d.durationSeconds := by
  unfold delivery at is
  split at is
  · cases is
    simp
  · rename_i duration given
    simp only [bind_eq_ok, require_eq_ok, exists_const, pure_eq_ok] at is
    obtain ⟨-, rfl⟩ := is
    have clip := congrArg (fun slots => slots.2.2) config.contract
    simp only at clip
    intro d member
    cases member
    refine ⟨given, by rw [clip, mul_comm]; rfl, ?_⟩
    dsimp only
    omega

theorem plan_planned {plan : Plan} (accepted : Planning.plan config request = .ok plan) :
    Planned config request plan := by
  have whole := accepted
  simp only [Planning.plan, money, natural, bind_eq_ok, require_eq_ok, exists_const, pure_eq_ok] at accepted
  obtain ⟨-, images, -, -, -, -, -, -, capacity, distinct, delivered, is, -, rfl⟩ := accepted
  have fits := baselineCount_le capacity
  have bounded : api config request ≤ conservativeApi config request :=
    api_le_conservativeApi images (fits.trans (by unfold Capacity.total; omega))
  have chosen : ((heroes config request).insertionSort fun a b => a.start ≤ b.start).Perm (heroes config request) :=
    perm_insertionSort ..
  have clips : heroClips config request = (costed config request delivered).heroes.length := by
    unfold heroClips costed
    split_ifs
    · rfl
    · exact chosen.length_eq.symm
  refine ⟨baselineImageCost_le_api, bounded, fun proceeds => ?_, fun offline => if_pos offline, fun online => ?_, ?_, ?_,
    fun candidates perm => (plan_congr distinct perm).trans whole, fun d member => clips ▸ delivery_eq is d member⟩
  · exact ⟨proceeds_mono (add_le_add_right bounded _) proceeds,
      proceeds_mono (add_le_add_right (baselineImageCost_le_api.trans bounded) _) proceeds⟩
  · have all : (costed config request delivered).heroes = _ := if_neg (Bool.eq_false_iff.mp online)
    rw [all]
    constructor
    · have slots := congrArg Prod.fst config.contract
      simp only at slots
      rw [chosen.length_eq, heroes_length, slots, min_assoc]
    · intro hero member other candidate moves left
      exact heroes_precede distinct (chosen.mem_iff.mp member) candidate moves (mt chosen.mem_iff.mpr left)
  · intro hero member
    unfold costed at member
    split_ifs at member
    · cases member
    · exact heroes_mem (chosen.mem_iff.mp member)
  · unfold costed
    split_ifs
    · exact nodup_nil
    · exact ((chosen.map _).nodup_iff).mpr (heroes_distinct distinct)

theorem plan_accepts {plan : Plan} {duration : ℤ} (accepted : Planning.plan config request = .ok plan)
    (low : 180 ≤ duration) (high : duration ≤ 900) :
    ∃ plan, Planning.plan config { request with recommendedDurationSeconds := some duration } = .ok plan := by
  simp only [Planning.plan, money, natural, bind_eq_ok, require_eq_ok, exists_const, pure_eq_ok] at accepted
  obtain ⟨committed, images, closing, events, words, scenes, -, -, capacity, distinct, -, -, spent, -⟩ := accepted
  have few : heroClips config { request with recommendedDurationSeconds := some duration } ≤ _ := heroClips_le
  have fits : 0 ≤ duration - (heroClips config { request with recommendedDurationSeconds := some duration } *
      config.clipSeconds : ℕ) - request.closingSeconds := by
    obtain ⟨slots, -, clip⟩ : config.heroSlots = 12 ∧ config.retrySlots = 3 ∧ config.clipSeconds = 5 := by
      simpa using config.contract
    rw [slots] at few
    rw [clip]
    omega
  simp only [Planning.plan, money, natural, delivery, bind_eq_ok, require_eq_ok, exists_const, pure_eq_ok]
  exact ⟨_, committed, images, closing, events, words, scenes, by simp [low, high], by simp; omega, capacity, distinct,
    _, ⟨fits, rfl⟩, spent, rfl⟩

def dove : Hero :=
  { sceneId := "scene-1", action := "dove flies", impact := 1, movement := 1 / 2, start := 8
    identified := by decide, scores := by norm_num, started := by norm_num }

def doveEpisode : PlanRequest := { candidates := [dove], recommendedDurationSeconds := some 300 }

theorem doveEpisode_planned : ∃ plan, Planning.plan {} doveEpisode = .ok plan ∧ Planned {} doveEpisode plan := by
  have some : (plan {} doveEpisode).toOption.isSome := by decide +kernel
  obtain ⟨plan, is⟩ := Option.isSome_iff_exists.mp some
  have accepted := toOption_eq_some.mp is
  exact ⟨plan, accepted, plan_planned accepted⟩

theorem local_only_selects_nobody : ∃ plan, Planning.plan {} { doveEpisode with localOnly := true } = .ok plan ∧
    plan.heroes.length ≠ min 12 (min (selectedBaselineCount {} doveEpisode) (movingCandidates doveEpisode).length) :=
  ⟨_, rfl, by decide +kernel⟩

end VideoPoster.Planning
