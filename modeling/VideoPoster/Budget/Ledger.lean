import VideoPoster.Floating.Places
import VideoPoster.Python.Decimal

/-!
# `budget.guard`: the ledger of an episode in its file

The totals are binary floating point and rounded to four decimals whenever the ledger is saved.
-/

namespace VideoPoster.Budget
open Python Floating List

inductive Amount where
  | finite (value : ℚ)
  | inf
  deriving DecidableEq

namespace Amount

def zero : Amount := .finite 0

def ofRat (x : ℚ) : Amount :=
  if binary64.Finite (binary64.nearest x) then .finite (binary64.nearest x) else .inf

def add : Amount → Amount → Amount
  | .finite x, .finite y => ofRat (x + y)
  | _, _ => .inf

/-- `round(amount, 4)`. An amount so large that its range matters is a whole number. -/
def round : Amount → Amount
  | .finite x => .finite (binary64.places 4 x)
  | .inf => .inf

theorem binary64_hasPlaces : binary64.HasPlaces 4 := by
  refine ⟨by decide, by decide, ?_⟩
  have small : (2 : ℚ) ^ (-1074 : ℤ) ≤ 2 ^ (-14 : ℤ) := zpow_le_zpow_right₀ (by norm_num) (by norm_num)
  have := mul_le_mul_of_nonneg_right small (by norm_num : (0 : ℚ) ≤ 10 ^ 4)
  refine this.trans_lt ?_
  norm_num

@[simp]
theorem round_round (amount : Amount) : amount.round.round = amount.round := by
  cases amount with
  | finite x => exact congrArg finite (Format.places_places binary64_hasPlaces x)
  | inf => rfl

@[simp]
theorem round_zero : zero.round = zero := by
  have nothing : roundEven 0 = 0 := by exact_mod_cast roundEven_intCast 0
  have places : binary64.places 4 0 = 0 := by simp [Format.places, nothing]
  exact congrArg finite places

end Amount

structure CostRecord where
  jobId : String
  provider : String
  estimatedCost : Amount
  actualCost : Amount
  sceneId : String

/-- `costs.json`. Of an override it has the new limit, as `str` shows it; `none` if there is none. -/
structure Costs where
  spent : Amount
  runpod : Amount
  otherServices : Amount
  jobs : List CostRecord
  overrides : List (Option Decimal)

def Costs.empty : Costs := ⟨.zero, .zero, .zero, [], []⟩

/-- `CostLedger`. The hard limit is the decimal that `str` shows. -/
structure EpisodeLedger extends Costs where
  hardLimit : Decimal

namespace EpisodeLedger

def load (file : Option Costs) (hardLimitUsd : Decimal) : EpisodeLedger :=
  match file with
  | none => ⟨.empty, hardLimitUsd⟩
  | some costs => ⟨costs, (costs.overrides.getLast?.bind id).getD hardLimitUsd⟩

def recordJob (ledger : EpisodeLedger) (record : CostRecord) : EpisodeLedger :=
  { ledger with
    jobs := ledger.jobs ++ [record]
    spent := ledger.spent.add record.actualCost
    runpod := if record.provider = "runpod" then ledger.runpod.add record.actualCost else ledger.runpod
    otherServices := if record.provider = "runpod" then ledger.otherServices
      else ledger.otherServices.add record.actualCost }

def toDict (ledger : EpisodeLedger) : Costs :=
  { ledger.toCosts with
    spent := ledger.spent.round
    runpod := ledger.runpod.round
    otherServices := ledger.otherServices.round }

def recordJobs (ledger : EpisodeLedger) (records : List CostRecord) : EpisodeLedger :=
  records.foldl recordJob ledger

variable {ledger : EpisodeLedger} {records : List CostRecord}

theorem recordJobs_jobs : (ledger.recordJobs records).jobs = ledger.jobs ++ records := by
  induction records generalizing ledger with
  | nil => simp [recordJobs]
  | cons record rest ih => exact ih.trans (append_assoc _ [record] rest)

theorem recordJobs_overrides : (ledger.recordJobs records).overrides = ledger.overrides := by
  induction records generalizing ledger with
  | nil => rfl
  | cons record rest ih => exact ih

end EpisodeLedger

def runningTotal (total : Amount) (records : List CostRecord) : Amount :=
  records.foldl (fun total record => total.add record.actualCost) total

def savedTotal (batches : List (List CostRecord)) : Amount :=
  batches.foldl (fun total batch => (runningTotal total batch).round) .zero

theorem EpisodeLedger.recordJobs_spent {ledger : EpisodeLedger} {records : List CostRecord} :
    (ledger.recordJobs records).spent = runningTotal ledger.spent records := by
  induction records generalizing ledger with
  | nil => rfl
  | cons record rest ih => exact ih

theorem savedTotal_concat (batches : List (List CostRecord)) (batch : List CostRecord) :
    savedTotal (batches ++ [batch]) = (runningTotal (savedTotal batches) batch).round := by
  rw [savedTotal, foldl_append]
  rfl

theorem savedTotal_round (batches : List (List CostRecord)) : (savedTotal batches).round = savedTotal batches := by
  induction batches using reverseRecOn with
  | nil => exact Amount.round_zero
  | append_singleton batches batch ih => rw [savedTotal_concat, Amount.round_round]

def Costs.Totalled (costs : Costs) : Prop :=
  ∃ batches, [] ∉ batches ∧ batches.flatten = costs.jobs ∧ costs.spent = savedTotal batches

structure Costs.Rounded (costs : Costs) : Prop where
  spent : costs.spent.round = costs.spent
  runpod : costs.runpod.round = costs.runpod
  otherServices : costs.otherServices.round = costs.otherServices

theorem EpisodeLedger.toDict_rounded (ledger : EpisodeLedger) : ledger.toDict.Rounded :=
  ⟨Amount.round_round _, Amount.round_round _, Amount.round_round _⟩

theorem Costs.Rounded.toDict {costs : Costs} (rounded : costs.Rounded) (hardLimit : Decimal) :
    EpisodeLedger.toDict ⟨costs, hardLimit⟩ = costs := by
  obtain ⟨spent, runpod, otherServices⟩ := rounded
  simp only [EpisodeLedger.toDict, spent, runpod, otherServices]

theorem Costs.Rounded.empty : Costs.empty.Rounded :=
  ⟨Amount.round_zero, Amount.round_zero, Amount.round_zero⟩

theorem Costs.Totalled.empty : Costs.empty.Totalled := ⟨[], not_mem_nil, rfl, rfl⟩

theorem Costs.Totalled.recordJobs {costs : Costs} (totalled : costs.Totalled) (hardLimit : Decimal)
    (records : List CostRecord) : ((EpisodeLedger.mk costs hardLimit).recordJobs records).toDict.Totalled := by
  obtain ⟨batches, nonempty, records', spent⟩ := totalled
  have saved : ((EpisodeLedger.mk costs hardLimit).recordJobs records).toDict.spent =
      (runningTotal (savedTotal batches) records).round := by
    rw [← spent]
    exact congrArg Amount.round EpisodeLedger.recordJobs_spent
  have jobs : ((EpisodeLedger.mk costs hardLimit).recordJobs records).toDict.jobs = batches.flatten ++ records := by
    rw [records']
    exact EpisodeLedger.recordJobs_jobs
  cases records with
  | nil => exact ⟨batches, nonempty, by rw [jobs, append_nil], saved.trans (savedTotal_round batches)⟩
  | cons record rest =>
    refine ⟨batches ++ [record :: rest], ?_, ?_, saved.trans (savedTotal_concat _ _).symm⟩
    · simp [nonempty]
    · rw [jobs, flatten_append, flatten_singleton]

end VideoPoster.Budget
