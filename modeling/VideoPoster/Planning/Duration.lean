import VideoPoster.Floating.Rounding
import VideoPoster.Planning.Planner

/-!
# `DurationPlannerAgent`: the recommended duration
-/

namespace VideoPoster.Planning
open Floating Python

inductive Tier where
  | short | medium | long | special | solAdaptive

theorem defaultLimits : (0 : ℤ) ≤ 5 ∧ (1 / 10 : ℚ) ≤ 5 ∧ (0 : ℚ) ≤ 30 ∧ (0 : ℚ) ≤ 1 / 10 ∧ (0 : ℚ) ≤ 0 := by
  norm_num

structure DurationPlannerAgent where
  maxGenerativeClips : ℤ := 5
  preferredClipDurationS : ℚ := 5
  maxGenerativeSeconds : ℚ := 30
  costPerGenerativeSecond : ℚ := 1 / 10
  costPerImage : ℚ := 0
  clips : 0 ≤ maxGenerativeClips := by exact defaultLimits.1
  preferred : 1 / 10 ≤ preferredClipDurationS := by exact defaultLimits.2.1
  seconds : 0 ≤ maxGenerativeSeconds := by exact defaultLimits.2.2.1
  generative : 0 ≤ costPerGenerativeSecond := by exact defaultLimits.2.2.2.1
  image : 0 ≤ costPerImage := by exact defaultLimits.2.2.2.2

structure SolPlan where
  minutes : Option ℕ
  scenes : ℕ

structure DurationPlan (E R : Type) where
  complexityTier : Tier
  recommendedDurationS : ℚ
  durationMin : ℚ
  durationMax : ℚ
  wordCountTarget : ℤ
  sceneCount : ℤ
  imageCount : ℤ
  localAnimatedScenes : ℤ
  runpodCandidateScenes : ℤ
  runpodClipSecondsTotal : ℚ
  costMinUsd : ℚ
  costLikelyUsd : ℚ
  costMaxUsd : ℚ
  keyEvents : List E
  references : List R

def scaled (tier : Tier) (low high share : ℚ) : Tier × ℚ × ℚ × ℚ := (tier, low + (high - low) * min 1 share, low, high)

def classifyComplexity (events references : ℕ) : Tier × ℚ × ℚ × ℚ :=
  if events ≤ 7 ∧ references ≤ 2 then scaled .short 180 300 (events / 7)
  else if events ≤ 10 ∧ references ≤ 3 then scaled .medium 360 480 ((events - 7) / 3)
  else if events ≤ 15 then scaled .long 480 720 ((events - 10) / 5)
  else scaled .special 720 900 ((events - 15) / 10)

def runpodPct : Tier → ℚ
  | .short | .long | .solAdaptive => 1 / 10
  | .medium => 12 / 100
  | .special => 8 / 100

section Plan
variable {E R : Type}

def DurationPlannerAgent.plan (agent : DurationPlannerAgent) (sol : Option SolPlan) (keyFacts : List E)
    (references : List R) : DurationPlan E R :=
  let events := max 1 keyFacts.length
  let (tier, durationS, durMin, durMax) := classifyComplexity events references.length
  let (durationS, durMin, durMax) : ℚ × ℚ × ℚ := match sol.bind SolPlan.minutes with
    | some minutes => (minutes * 60, max 180 (minutes * 60 - 60), minutes * 60 + 60)
    | none => (durationS, durMin, durMax)
  let solSceneCount : ℤ := (sol.map SolPlan.scenes).getD 0
  let tier := if solSceneCount = 0 then tier else .solAdaptive
  let sceneCount := if solSceneCount = 0 then max (events : ℤ) (roundEven (durationS / 8)) else solSceneCount
  let secondsLimitedClips := ⌊agent.maxGenerativeSeconds / agent.preferredClipDurationS⌋
  let runpodScenes := min (min agent.maxGenerativeClips secondsLimitedClips)
    (max 0 (roundEven (sceneCount * runpodPct tier)))
  let runpodSeconds := runpodScenes * agent.preferredClipDurationS
  let costMin := sceneCount * agent.costPerImage
  let costLikely := costMin + runpodSeconds * agent.costPerGenerativeSecond
  ⟨tier, durationS, durMin, durMax, (durationS / 60 * 130).num.tdiv (durationS / 60 * 130).den, sceneCount, sceneCount,
    sceneCount - runpodScenes, runpodScenes, runpodSeconds, costMin, costLikely, costLikely * (16 / 10), keyFacts,
    references⟩

variable (agent : DurationPlannerAgent) (keyFacts : List E) (references : List R)

def recommendation : ℚ := (agent.plan none keyFacts references).recommendedDurationS

/-- The recommendation is in its range, grows with the story, and is one that `planner.plan` accepts. -/
structure InRange : Prop where
  low : (agent.plan none keyFacts references).durationMin ≤ recommendation agent keyFacts references
  high : recommendation agent keyFacts references ≤ (agent.plan none keyFacts references).durationMax
  allowed : 180 ≤ recommendation agent keyFacts references ∧ recommendation agent keyFacts references ≤ 900
  moreEvents : ∀ more, recommendation agent keyFacts references ≤ recommendation agent (keyFacts ++ more) references
  moreReferences : ∀ more, recommendation agent keyFacts references ≤ recommendation agent keyFacts (references ++ more)
  scenes : keyFacts.length ≤ (agent.plan none keyFacts references).sceneCount
  accepted : ∀ config request plan, Planning.plan config request = .ok plan →
    let duration := roundEven (recommendation agent keyFacts references)
    ∃ plan, Planning.plan config { request with recommendedDurationSeconds := some duration } = .ok plan

end Plan

/-! ## The four tiers -/

variable {events more references : ℕ}

theorem classify_short (few : events ≤ 7) (near : references ≤ 2) :
    classifyComplexity events references = (Tier.short, 180 + 120 * ((events : ℚ) / 7), 180, 300) := by
  have : (events : ℚ) ≤ 7 := by exact_mod_cast few
  rw [classifyComplexity, if_pos ⟨few, near⟩, scaled, min_eq_right (by linarith)]
  norm_num

theorem classify_medium (other : 7 < events ∨ 2 < references) (few : events ≤ 10) (near : references ≤ 3) :
    classifyComplexity events references = (Tier.medium, 80 + 40 * (events : ℚ), 360, 480) := by
  have : (events : ℚ) ≤ 10 := by exact_mod_cast few
  rw [classifyComplexity, if_neg (by omega), if_pos ⟨few, near⟩, scaled, min_eq_right (by linarith)]
  ring_nf

theorem classify_long (other : 10 < events ∨ 3 < references) (few : events ≤ 15) :
    classifyComplexity events references = (Tier.long, 48 * (events : ℚ), 480, 720) := by
  have : (events : ℚ) ≤ 15 := by exact_mod_cast few
  rw [classifyComplexity, if_neg (by omega), if_neg (by omega), if_pos few, scaled, min_eq_right (by linarith)]
  ring_nf

theorem classify_special (many : 15 < events) : classifyComplexity events references =
    (Tier.special, 720 + 180 * min 1 (((events : ℚ) - 15) / 10), 720, 900) := by
  rw [classifyComplexity, if_neg (by omega), if_neg (by omega), if_neg (by omega), scaled]
  norm_num

theorem special_bounds (many : 15 < events) :
    0 ≤ min 1 (((events : ℚ) - 15) / 10) ∧ min 1 (((events : ℚ) - 15) / 10) ≤ 1 := by
  have : (15 : ℚ) < events := by exact_mod_cast many
  exact ⟨le_min zero_le_one (by linarith), min_le_left ..⟩

theorem classify_le_medium (few : events ≤ 10) (near : references ≤ 3) :
    (classifyComplexity events references).2.1 ≤ 480 := by
  have : (events : ℚ) ≤ 10 := by exact_mod_cast few
  by_cases short : events ≤ 7 ∧ references ≤ 2
  · have : (events : ℚ) ≤ 7 := by exact_mod_cast short.1
    rw [classify_short short.1 short.2]
    linarith
  · rw [classify_medium (by omega) few near]
    linarith

theorem classify_mono (le : events ≤ more) :
    (classifyComplexity events references).2.1 ≤ (classifyComplexity more references).2.1 := by
  have cast : (events : ℚ) ≤ more := by exact_mod_cast le
  by_cases early : events ≤ 10 ∧ references ≤ 3
  · have bound := classify_le_medium early.1 early.2
    by_cases special : 15 < more
    · have := special_bounds special
      rw [classify_special special]
      linarith
    by_cases long : 10 < more
    · have : (10 : ℚ) < more := by exact_mod_cast long
      rw [classify_long (.inl long) (by omega)]
      linarith
    by_cases medium : 7 < more ∨ 2 < references
    · rw [classify_medium medium (by omega) early.2]
      by_cases short : events ≤ 7 ∧ references ≤ 2
      · have : (8 : ℚ) ≤ more := by exact_mod_cast (by omega : 8 ≤ more)
        have : (events : ℚ) ≤ 7 := by exact_mod_cast short.1
        rw [classify_short short.1 short.2]
        linarith
      · rw [classify_medium (by omega) early.1 early.2]
        linarith
    · rw [classify_short (by omega) (by omega), classify_short (by omega) (by omega)]
      linarith
  · by_cases special : 15 < more
    · rw [classify_special special]
      by_cases special' : 15 < events
      · have shares : ((events : ℚ) - 15) / 10 ≤ (more - 15) / 10 := by linarith
        have := min_le_min_left 1 shares
        rw [classify_special special']
        linarith
      · have := special_bounds special
        have : (events : ℚ) ≤ 15 := by exact_mod_cast not_lt.mp special'
        rw [classify_long (by omega) (by omega)]
        linarith
    · rw [classify_long (by omega) (by omega), classify_long (by omega) (by omega)]
      linarith

def Within : Tier × ℚ × ℚ × ℚ → Prop
  | (_, duration, low, high) => (180 ≤ duration ∧ duration ≤ 900) ∧ low ≤ duration ∧ duration ≤ high

theorem classify_many (many : 10 ≤ events) (references : ℕ) : Within (classifyComplexity events references)
    ∧ ∀ more, (classifyComplexity events references).2.1 = (classifyComplexity events more).2.1 := by
  have cast : (10 : ℚ) ≤ events := by exact_mod_cast many
  by_cases special : 15 < events
  · have := special_bounds special
    rw [classify_special special]
    refine ⟨⟨⟨?_, ?_⟩, ?_, ?_⟩, fun more => by rw [classify_special special]⟩
    iterate 4 linarith
  have : (events : ℚ) ≤ 15 := by exact_mod_cast not_lt.mp special
  by_cases long : 10 < events
  · rw [classify_long (.inl long) (by omega)]
    refine ⟨⟨⟨?_, ?_⟩, ?_, ?_⟩, fun more => by rw [classify_long (.inl long) (by omega)]⟩
    iterate 4 linarith
  · obtain rfl : events = 10 := by omega
    have value (references : ℕ) : (classifyComplexity 10 references).2.1 = 480 := by
      by_cases near : references ≤ 3
      · rw [classify_medium (by omega) (by omega) near]
        norm_num
      · rw [classify_long (by omega) (by omega)]
        norm_num
    by_cases near : references ≤ 3
    · rw [classify_medium (by omega) (by omega) near]
      norm_num [Within, value]
    · rw [classify_long (by omega) (by omega)]
      norm_num [Within, value]

theorem classify_six_or_seven (six : 6 ≤ events) (seven : events ≤ 7) (near : references ≤ 2) :
    Within (classifyComplexity events references) ∧ ∀ more, references ≤ more →
      (classifyComplexity events references).2.1 ≤ (classifyComplexity events more).2.1 := by
  have least : (6 : ℚ) ≤ events := by exact_mod_cast six
  have most : (events : ℚ) ≤ 7 := by exact_mod_cast seven
  rw [classify_short seven near]
  refine ⟨⟨⟨?_, ?_⟩, ?_, ?_⟩, fun more _ => ?_⟩
  iterate 4 linarith
  by_cases short : more ≤ 2
  · rw [classify_short seven short]
  by_cases medium : more ≤ 3
  · rw [classify_medium (.inr (by omega)) (by omega) medium]
    linarith
  · rw [classify_long (by omega) (by omega)]
    linarith

section InRange
variable {E R : Type} {agent : DurationPlannerAgent} {keyFacts : List E} {references : List R}

theorem recommendation_eq : recommendation agent keyFacts references =
    (classifyComplexity (max 1 keyFacts.length) references.length).2.1 := rfl

theorem many_of_inRange [Inhabited R] (inRange : InRange agent keyFacts references) : 10 ≤ keyFacts.length ∨
    6 ≤ keyFacts.length ∧ keyFacts.length ≤ 7 ∧ references.length ≤ 2 := by
  by_contra few
  have more := inRange.moreReferences (List.replicate 4 default)
  have low : (classifyComplexity (max 1 keyFacts.length) references.length).2.2.1 ≤ _ := inRange.low
  rw [recommendation_eq] at more low
  rw [recommendation_eq, List.length_append, List.length_replicate,
    classify_long (.inr (show 3 < references.length + 4 by omega)) (by omega)] at more
  by_cases long : 3 < references.length
  · rw [classify_long (.inr long) (by omega)] at low
    have : (10 : ℚ) ≤ (max 1 keyFacts.length : ℕ) := by simp only at low; linarith
    have : 10 ≤ max 1 keyFacts.length := by exact_mod_cast this
    omega
  by_cases medium : 7 < max 1 keyFacts.length ∨ 2 < references.length
  · rw [classify_medium medium (by omega) (by omega)] at more
    have : (10 : ℚ) ≤ (max 1 keyFacts.length : ℕ) := by simp only at more; linarith
    have : 10 ≤ max 1 keyFacts.length := by exact_mod_cast this
    omega
  · rw [classify_short (by omega) (by omega)] at more
    have : (5 : ℚ) < (max 1 keyFacts.length : ℕ) := by simp only at more; linarith
    have : 5 < max 1 keyFacts.length := by exact_mod_cast this
    omega

theorem inRange_iff [Inhabited R] : InRange agent keyFacts references ↔ 10 ≤ keyFacts.length ∨
    6 ≤ keyFacts.length ∧ keyFacts.length ≤ 7 ∧ references.length ≤ 2 := by
  refine ⟨many_of_inRange, fun enough => ?_⟩
  have counted : max 1 keyFacts.length = keyFacts.length := by omega
  obtain ⟨⟨⟨least, most⟩, low, high⟩, more⟩ :
      Within (classifyComplexity (max 1 keyFacts.length) references.length) ∧ ∀ more, references.length ≤ more →
        recommendation agent keyFacts references ≤ (classifyComplexity (max 1 keyFacts.length) more).2.1 := by
    rcases enough with many | ⟨six, seven, near⟩
    · obtain ⟨within, same⟩ := classify_many (counted.symm ▸ many) references.length
      exact ⟨within, fun more _ => (same more).le⟩
    · exact classify_six_or_seven (counted.symm ▸ six) (counted.symm ▸ seven) near
  refine ⟨low, high, ⟨least, most⟩, fun later => ?_, fun others => ?_, ?_, fun config request plan accepted => ?_⟩
  · exact classify_mono (max_le_max_left 1 (by simp))
  · exact more (references ++ others).length (by simp)
  · refine le_trans ?_ (le_max_left _ _)
    exact_mod_cast le_max_right 1 keyFacts.length
  · have floor : roundEven 180 ≤ roundEven (recommendation agent keyFacts references) := roundEven_mono least
    have ceiling : roundEven (recommendation agent keyFacts references) ≤ roundEven 900 := roundEven_mono most
    exact plan_accepts accepted ((roundEven_intCast 180).symm.trans_le floor) (ceiling.trans_eq (roundEven_intCast 900))

theorem flood_too_short : ¬ InRange {} ["Flood"] ["Genesis 6", "Genesis 7", "Genesis 8", "Genesis 9"] := by
  intro inRange
  have low := inRange.low
  norm_num [recommendation, DurationPlannerAgent.plan, classifyComplexity, scaled] at low

end InRange

end VideoPoster.Planning
