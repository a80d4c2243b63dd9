import VideoPoster.Budget.Guard
import VideoPoster.Floating.Rounding

/-!
# `CostLedger`: the balance across restarts

Amounts are exact here.
-/

namespace VideoPoster.Budget.Restart
open Floating List

structure BudgetConfig where
  warningUsd : ℚ
  hardLimitUsd : ℚ

structure CostRecord where
  jobId : String
  provider : String
  estimatedCost : ℚ
  actualCost : ℚ
  sceneId : String := ""

structure BudgetOverride where
  who : String
  oldLimit : ℚ
  newLimit : ℚ
  reason : String

structure Ledger where
  warning : ℚ
  hardLimit : ℚ
  spent : ℚ := 0
  runpod : ℚ := 0
  otherServices : ℚ := 0
  jobs : List CostRecord := []
  overrides : List BudgetOverride := []

def Ledger.new (budget : BudgetConfig) : Ledger := { warning := budget.warningUsd, hardLimit := budget.hardLimitUsd }

def round (amount : ℚ) : ℚ := roundEven (amount * 10000) / 10000

namespace Ledger

def recordJob (ledger : Ledger) (record : CostRecord) : Ledger :=
  { ledger with
    jobs := ledger.jobs ++ [record]
    spent := ledger.spent + record.actualCost
    runpod := if record.provider = "runpod" then ledger.runpod + record.actualCost else ledger.runpod
    otherServices := if record.provider = "runpod" then ledger.otherServices
      else ledger.otherServices + record.actualCost }

def applyOverride (ledger : Ledger) (override : BudgetOverride) : Ledger :=
  { ledger with overrides := ledger.overrides ++ [override], hardLimit := override.newLimit }

def toDict (ledger : Ledger) : Ledger :=
  { ledger with
    spent := round ledger.spent
    runpod := round ledger.runpod
    otherServices := round ledger.otherServices }

def load (data : Ledger) (budget : BudgetConfig) : Ledger :=
  { new budget with
    spent := data.spent
    runpod := data.runpod
    otherServices := data.otherServices
    jobs := data.jobs
    overrides := data.overrides
    hardLimit := (data.overrides.getLast?.map BudgetOverride.newLimit).getD budget.hardLimitUsd }

def check (ledger : Ledger) (estimatedCost : ℚ) : BudgetAction :=
  CostLedger.check (F := .exact) ⟨ledger.hardLimit, ledger.warning, ledger.spent⟩ estimatedCost

end Ledger

inductive Step where
  | recordJob (record : CostRecord)
  | applyOverride (override : BudgetOverride)
  | restart

def Step.isRestart : Step → Bool
  | .restart => true
  | _ => false

def Ledger.step (budget : BudgetConfig) (ledger : Ledger) : Step → Ledger
  | .recordJob record => ledger.recordJob record
  | .applyOverride override => ledger.applyOverride override
  | .restart => .load ledger.toDict budget

def run (budget : BudgetConfig) (steps : List Step) : Ledger := steps.foldl (Ledger.step budget) (.new budget)

structure Balanced (ledger : Ledger) : Prop where
  spent : ledger.spent = (ledger.jobs.map CostRecord.actualCost).sum
  split : ledger.spent = ledger.runpod + ledger.otherServices

def Limited (budget : BudgetConfig) (ledger : Ledger) : Prop :=
  ledger.hardLimit = (ledger.overrides.getLast?.map BudgetOverride.newLimit).getD budget.hardLimitUsd

def FourDecimals (amount : ℚ) : Prop := round amount = amount

def Step.Whole : Step → Prop
  | .recordJob record => FourDecimals record.actualCost
  | _ => True

structure Sound (budget : BudgetConfig) (ledger : Ledger) : Prop extends Balanced ledger where
  whole : FourDecimals ledger.spent ∧ FourDecimals ledger.runpod ∧ FourDecimals ledger.otherServices
  limited : Limited budget ledger
  warned : ledger.warning = budget.warningUsd

theorem fourDecimals_iff {amount : ℚ} : FourDecimals amount ↔ ∃ n : ℤ, amount = n / 10000 := by
  constructor
  · intro whole
    exact ⟨_, whole.symm⟩
  · rintro ⟨n, rfl⟩
    have exact : (n / 10000 * 10000 : ℚ) = n := by ring
    rw [FourDecimals, round, exact, roundEven_intCast]

theorem FourDecimals.add {x y : ℚ} (left : FourDecimals x) (right : FourDecimals y) : FourDecimals (x + y) := by
  obtain ⟨m, rfl⟩ := fourDecimals_iff.1 left
  obtain ⟨n, rfl⟩ := fourDecimals_iff.1 right
  refine fourDecimals_iff.2 ⟨m + n, ?_⟩
  push_cast
  ring

theorem fourDecimals_zero : FourDecimals 0 := fourDecimals_iff.2 ⟨0, by simp⟩

section Steps
variable {budget : BudgetConfig} {ledger : Ledger} {step : Step} {steps : List Step}

theorem limited_step (limited : Limited budget ledger) : Limited budget (ledger.step budget step) := by
  cases step with
  | recordJob record => exact limited
  | applyOverride override => simp [Limited, Ledger.step, Ledger.applyOverride]
  | restart => rfl

theorem Sound.restart (sound : Sound budget ledger) : ledger.step budget .restart = ledger := by
  obtain ⟨spent, runpod, otherServices⟩ := sound.whole
  have limited := sound.limited
  unfold FourDecimals at spent runpod otherServices
  unfold Limited at limited
  simp only [Ledger.step, Ledger.load, Ledger.toDict, Ledger.new, spent, runpod, otherServices, ← limited,
    ← sound.warned]

theorem Sound.after (sound : Sound budget ledger) (whole : step.Whole) : Sound budget (ledger.step budget step) := by
  obtain ⟨spent, runpod, otherServices⟩ := sound.whole
  cases step with
  | recordJob record =>
    refine ⟨⟨by simp [Ledger.step, Ledger.recordJob, sound.spent], ?_⟩,
      ⟨spent.add whole, ?_⟩, limited_step sound.limited, sound.warned⟩
    · simp only [Ledger.step, Ledger.recordJob, sound.split]
      split_ifs <;> ring
    · simp only [Ledger.step, Ledger.recordJob]
      split_ifs
      · exact ⟨runpod.add whole, otherServices⟩
      · exact ⟨runpod, otherServices.add whole⟩
  | applyOverride override =>
    exact ⟨⟨sound.spent, sound.split⟩, sound.whole, limited_step sound.limited, sound.warned⟩
  | restart =>
    rw [sound.restart]
    exact sound

theorem run_concat : run budget (steps ++ [step]) = (run budget steps).step budget step := by simp [run]

theorem run_limited : Limited budget (run budget steps) := by
  induction steps using reverseRecOn with
  | nil => rfl
  | append_singleton steps step ih =>
    rw [run_concat]
    exact limited_step ih

theorem run_sound (whole : ∀ step ∈ steps, step.Whole) : Sound budget (run budget steps) := by
  induction steps using reverseRecOn with
  | nil =>
    exact ⟨⟨rfl, by simp [run, Ledger.new]⟩, ⟨fourDecimals_zero, fourDecimals_zero, fourDecimals_zero⟩, rfl, rfl⟩
  | append_singleton steps step ih =>
    rw [run_concat]
    exact (ih fun other member => whole other (by simp [member])).after (whole step (by simp))

theorem run_without_restarts (whole : ∀ step ∈ steps, step.Whole) :
    run budget (steps.filter fun step => !step.isRestart) = run budget steps := by
  induction steps using reverseRecOn with
  | nil => rfl
  | append_singleton steps step ih =>
    have before : ∀ step ∈ steps, step.Whole := fun other member => whole other (by simp [member])
    have same := ih before
    rw [filter_append, run_concat]
    cases step with
    | restart =>
      rw [(run_sound before).restart]
      simpa [Step.isRestart] using same
    | recordJob record =>
      rw [← same]
      exact run_concat
    | applyOverride override =>
      rw [← same]
      exact run_concat

/-- The limit is the one of the last override in every run; if all costs have four decimals, the totals agree
with the jobs, and a restart changes no check. -/
theorem ledger_balances (budget : BudgetConfig) (steps : List Step) : Limited budget (run budget steps)
    ∧ ((∀ step ∈ steps, step.Whole) → Balanced (run budget steps) ∧ ∀ estimatedCost, (run budget steps).check
    estimatedCost = (run budget (steps.filter fun step => !step.isRestart)).check estimatedCost) := by
  refine ⟨run_limited, fun whole => ⟨(run_sound whole).toBalanced, fun estimatedCost => ?_⟩⟩
  rw [run_without_restarts whole]

end Steps

def sampleSteps (cost : ℚ) : List Step := [.recordJob ⟨"j1", "runpod", cost, cost, ""⟩, .restart]

theorem cent_kept : Balanced (run ⟨1, 2⟩ (sampleSteps (1 / 100))) := by
  refine ((ledger_balances ⟨1, 2⟩ (sampleSteps (1 / 100))).2 ?_).1
  have whole : FourDecimals (1 / 100) := fourDecimals_iff.2 ⟨100, by norm_num⟩
  simpa [sampleSteps, Step.Whole] using whole

theorem small_cost_forgotten : ¬ Balanced (run ⟨1, 2⟩ (sampleSteps (1 / 25000)))
    ∧ (run ⟨1, 2⟩ (sampleSteps (1 / 25000))).check 2 = .proceedWithWarning ∧
    (run ⟨1, 2⟩ ((sampleSteps (1 / 25000)).filter fun step => !step.isRestart)).check 2 = .waitingBudgetApproval := by
  refine ⟨fun balanced => ?_, by decide +kernel, by decide +kernel⟩
  exact absurd balanced.spent (by decide +kernel)

end VideoPoster.Budget.Restart
