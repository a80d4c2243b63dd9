import Mathlib.Logic.Function.Basic

/-!
# Processes as trees of atomic actions

A process performs atomic actions on state that it shares with other processes; between two actions anything may
happen.
-/

namespace VideoPoster.Interleaving

structure Interface where
  Act : Type
  Res : Act → Type

/-- A process: it stops with a value or an exception, or performs one action and goes on. -/
inductive Prog (I : Interface) (ε α : Type) where
  | pure (value : α)
  | raise (error : ε)
  | act (action : I.Act) (next : I.Res action → Prog I ε α)

namespace Prog
variable {I : Interface} {ε α β : Type}

def bind : Prog I ε α → (α → Prog I ε β) → Prog I ε β
  | .pure value, next => next value
  | .raise error, _ => .raise error
  | .act action rest, next => .act action fun response => (rest response).bind next

theorem bind_pure (program : Prog I ε α) : program.bind .pure = program := by
  induction program with
  | pure value => rfl
  | raise error => rfl
  | act action next ih => exact congrArg (Prog.act action) (funext ih)

theorem bind_assoc {γ : Type} (program : Prog I ε α) (next : α → Prog I ε β) (last : β → Prog I ε γ) :
    (program.bind next).bind last = program.bind fun value => (next value).bind last := by
  induction program with
  | pure value => rfl
  | raise error => rfl
  | act action k ih => exact congrArg (Prog.act action) (funext ih)

instance : Monad (Prog I ε) where
  pure := Prog.pure
  bind := Prog.bind

def perform (action : I.Act) : Prog I ε (I.Res action) := .act action .pure

def ofExcept : Except ε α → Prog I ε α
  | .ok value => .pure value
  | .error error => .raise error

def request (action : I.Act) (response : I.Res action → Except ε α) : Prog I ε α :=
  .act action fun r => ofExcept (response r)

def attempt : Prog I ε α → Prog I ε (Except ε α)
  | .pure value => .pure (.ok value)
  | .raise error => .pure (.error error)
  | .act action next => .act action fun response => (next response).attempt

/-- The `finally` clause: `cleanup` runs after a normal end and after an exception alike. -/
def ensuring (body : Prog I ε α) (cleanup : Prog I ε Unit) : Prog I ε α :=
  body.attempt.bind fun result => cleanup.bind fun _ => ofExcept result

def discard (body : Prog I ε α) : Prog I ε Unit := body.bind fun _ => .pure ()

def Only (kind : I.Act → Prop) : Prog I ε α → Prop
  | .pure _ => True
  | .raise _ => True
  | .act action next => kind action ∧ ∀ response, (next response).Only kind

variable {kind : I.Act → Prop}

variable {program : Prog I ε α}

theorem Only.mono {kind' : I.Act → Prop} (only : program.Only kind)
    (weaker : ∀ action, kind action → kind' action) : program.Only kind' := by
  induction program with
  | pure value => trivial
  | raise error => trivial
  | act action next ih => exact ⟨weaker _ only.1, fun response => ih response (only.2 response)⟩

variable {next : α → Prog I ε β}

theorem Only.bind (first : program.Only kind)
    (rest : ∀ value, (next value).Only kind) : (program.bind next).Only kind := by
  induction program with
  | pure value => exact rest value
  | raise error => trivial
  | act action k ih => exact ⟨first.1, fun response => ih response (first.2 response)⟩

theorem Only.attempt (only : program.Only kind) : program.attempt.Only kind := by
  induction program with
  | pure value => trivial
  | raise error => trivial
  | act action k ih => exact ⟨only.1, fun response => ih response (only.2 response)⟩

theorem Only.ofExcept (result : Except ε α) : (Prog.ofExcept (I := I) result).Only kind := by
  cases result <;> trivial

theorem Only.ofExcept_bind {result : Except ε α} (rest : ∀ value, result = .ok value → (next value).Only kind) :
    ((Prog.ofExcept result).bind next).Only kind := by
  cases result with
  | error error => trivial
  | ok value => exact rest value rfl

theorem Only.ensuring {cleanup : Prog I ε Unit}
    (body : program.Only kind) (finish : cleanup.Only kind) : (program.ensuring cleanup).Only kind :=
  body.attempt.bind fun result => finish.bind fun _ => .ofExcept result

end Prog

section
variable {I : Interface} {ε α : Type} {kind : I.Act → Prop} {action : I.Act}

theorem only_request {answer : I.Res action → Except ε α} (allowed : kind action) :
    (Prog.request action answer).Only kind :=
  ⟨allowed, fun _ => .ofExcept _⟩

theorem only_act (allowed : kind action) : (Prog.act (ε := ε) action .pure).Only kind :=
  ⟨allowed, fun _ => trivial⟩

variable {β : Type} {next : α → Prog I ε β} {after : I.Res action → Prog I ε α}

theorem Prog.Only.request {answer : I.Res action → Except ε α} (allowed : kind action)
    (rest : ∀ value, (next value).Only kind) : ((Prog.request action answer).bind next).Only kind :=
  (only_request allowed).bind rest

theorem Prog.Only.act (allowed : kind action) (rest : ∀ value, (after value).Only kind) :
    ((Prog.act action .pure).bind after).Only kind :=
  (only_act allowed).bind rest

end
end VideoPoster.Interleaving
