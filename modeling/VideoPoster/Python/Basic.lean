import Mathlib.Data.String.Basic

/-!
# Exceptions and text
-/

namespace VideoPoster.Python

inductive ErrorKind where
  | valueError | typeError | keyError | permissionError | runtimeError | osError
  | budgetDenied | billingSnapshotError
  | other (name : String)
  deriving DecidableEq

def ErrorKind.name : ErrorKind → String
  | valueError => "ValueError"
  | typeError => "TypeError"
  | keyError => "KeyError"
  | permissionError => "PermissionError"
  | runtimeError => "RuntimeError"
  | osError => "OSError"
  | budgetDenied => "BudgetDenied"
  | billingSnapshotError => "BillingSnapshotError"
  | other name => name

structure Error where
  kind : ErrorKind
  message : String
  deriving DecidableEq

namespace Error
def value (message : String) : Error := ⟨.valueError, message⟩
def type (message : String) : Error := ⟨.typeError, message⟩
def key (message : String) : Error := ⟨.keyError, message⟩
def permission (message : String) : Error := ⟨.permissionError, message⟩
def runtime (message : String) : Error := ⟨.runtimeError, message⟩
def os (message : String) : Error := ⟨.osError, message⟩
def denied (message : String) : Error := ⟨.budgetDenied, message⟩
def snapshot (message : String) : Error := ⟨.billingSnapshotError, message⟩
end Error

abbrev Result (α : Type) := Except Error α

def require (condition : Prop) [Decidable condition] (error : Error) : Result Unit :=
  if condition then .ok () else .error error

@[simp]
theorem require_eq_ok {condition : Prop} [Decidable condition] {error : Error} {u : Unit} :
    require condition error = .ok u ↔ condition := by
  unfold require
  split_ifs with holds <;> simp [holds]

variable {β α : Type} {x : Result α} {b : β}

@[simp]
theorem bind_eq_ok {f : α → Result β} : (x >>= f) = .ok b ↔ ∃ a, x = .ok a ∧ f a = .ok b := by
  cases x with
  | error e => simp [bind, Except.bind]
  | ok a => simp [bind, Except.bind]

variable {a : α}

@[simp]
theorem pure_eq_ok {b : α} : (pure a : Result α) = .ok b ↔ a = b := by
  simp [pure, Except.pure]

theorem map_eq_ok {f : α → β} : x.map f = .ok b ↔ ∃ a, x = .ok a ∧ f a = b := by
  cases x with
  | error e => simp [Except.map]
  | ok a => simp [Except.map]

theorem toOption_eq_some : x.toOption = some a ↔ x = .ok a := by
  cases x <;> simp [Except.toOption]

def rewrap {α : Type} (kinds : List ErrorKind) (wrapped : Error → Error) : Result α → Result α
  | .ok value => .ok value
  | .error error => .error (if error.kind ∈ kinds then wrapped error else error)

theorem rewrap_eq_ok {kinds : List ErrorKind} {wrapped : Error → Error}
    {result : Result α} {value : α} : rewrap kinds wrapped result = .ok value ↔ result = .ok value := by
  cases result <;> simp [rewrap]

def written {W : Type} (failure : Option Error) (w changed : W) : W × Result Unit :=
  match failure with
  | some error => (w, .error error)
  | none => (changed, .ok ())

theorem written_eq {W : Type} {failure : Option Error} {w changed w' : W}
    {r : Result Unit} (is : written failure w changed = (w', r)) : w' = w ∧ r ≠ .ok () ∨ w' = changed ∧ r = .ok () := by
  unfold written at is
  split at is
  · cases is
    exact .inl ⟨rfl, nofun⟩
  · cases is
    exact .inr ⟨rfl, rfl⟩

def isSpace (c : Char) : Bool :=
  let n := c.toNat
  (0x09 ≤ n && n ≤ 0x0d) || (0x1c ≤ n && n ≤ 0x20) || n == 0x85 || n == 0xa0 || n == 0x1680 ||
    (0x2000 ≤ n && n ≤ 0x200a) || n == 0x2028 || n == 0x2029 || n == 0x202f || n == 0x205f ||
    n == 0x3000

def blank (text : String) : Bool := text.toList.all isSpace

def strip (text : String) : String :=
  .ofList ((text.toList.dropWhile isSpace).reverse.dropWhile isSpace).reverse

/-- `text.casefold()`, as far as it is compared with a word of plain letters other than k and s. -/
def casefold (text : String) : String := .ofList (text.toList.map Char.toLower)

def startsWith (text start : String) : Bool := start.toList.isPrefixOf text.toList

end VideoPoster.Python
