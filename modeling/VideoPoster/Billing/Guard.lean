import VideoPoster.Python.Basic

/-!
# `_billing_coordinator_guard`: who may write a generation-pinned record
-/

namespace VideoPoster.Billing
open Python

inductive Mode where
  | test | live
  | other (name : String)
  deriving DecidableEq

def Mode.Explicit (mode : Mode) : Prop := mode = .test ∨ mode = .live

instance (mode : Mode) : Decidable mode.Explicit := inferInstanceAs (Decidable (_ ∨ _))

def Mode.ofString : String → Mode
  | "TEST" => .test
  | "LIVE" => .live
  | name => .other name

def unassigned : String := "UNASSIGNED"

/-- The durable owner of a pinned record; schema and namespace are fixed by the code. -/
structure OwnerBinding where
  configRoot : String
  deriving DecidableEq

structure Capability where
  coordinator : ℕ
  requestId : String
  executor : ℕ
  ledger : ℕ
  config : ℕ
  ownerBinding : OwnerBinding

/-- `billing snapshot generation must be a positive integer`, where one is given. -/
def ValidGeneration (generation : Option ℕ) : Prop := generation ≠ some 0

instance (generation : Option ℕ) : Decidable (ValidGeneration generation) :=
  inferInstanceAs (Decidable (_ ≠ _))

def requireCoordinatorWrite (context generation : Option ℕ) : Result Unit :=
  require (generation = none ∨ context = generation)
    (.permission "billing snapshot generation requires coordinator writer context")

def requireCoordinatorCapability (given : Option Capability) (coordinator : Option ℕ)
    (requestId : String) (executor : ℕ) (ledger : Option ℕ) (config : ℕ)
    (owner : Option OwnerBinding) : Result Unit :=
  require (∃ capability, given = some capability ∧ some capability.coordinator = coordinator ∧
      capability.requestId = requestId ∧ capability.executor = executor ∧
      some capability.ledger = ledger ∧ capability.config = config ∧
      some capability.ownerBinding = owner)
    (.permission "generation-pinned FAL submit requires coordinator capability")

@[simp]
theorem requireCoordinatorWrite_eq_ok {context generation : Option ℕ}
    {u : Unit} : requireCoordinatorWrite context generation = .ok u ↔ generation = none ∨ context = generation :=
  require_eq_ok

end VideoPoster.Billing
