import Mathlib.Data.Rat.Defs

/-!
# `budget.guard`: the check that precedes every paid operation

The guard computes in binary floating point.
-/

namespace VideoPoster.Budget

structure FloatArithmetic where
  Carrier : Type
  ofRat : ℚ → Carrier
  add : Carrier → Carrier → Carrier
  greater : Carrier → Carrier → Bool

def FloatArithmetic.exact : FloatArithmetic := ⟨ℚ, id, (· + ·), fun a b => b < a⟩

inductive BudgetAction where
  | proceed | proceedWithWarning | waitingBudgetApproval | blocked
  deriving DecidableEq

structure CostLedger (F : FloatArithmetic) where
  hardLimit : F.Carrier
  warning : F.Carrier
  spent : F.Carrier

def CostLedger.check {F : FloatArithmetic} (ledger : CostLedger F) (estimatedCost : F.Carrier) :
    BudgetAction :=
  let projected := F.add ledger.spent estimatedCost
  if F.greater projected ledger.hardLimit then .waitingBudgetApproval
  else if F.greater projected ledger.warning then .proceedWithWarning
  else .proceed

def approveJob {F : FloatArithmetic} (ledger : CostLedger F) (estimatedCost : F.Carrier) :
    BudgetAction :=
  ledger.check estimatedCost

end VideoPoster.Budget
