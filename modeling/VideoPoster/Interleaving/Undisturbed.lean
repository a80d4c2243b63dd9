import VideoPoster.Interleaving.Execution

/-!
# Runs with nothing in between
-/

namespace VideoPoster.Interleaving
open Prog

variable {I : Interface} {M : Machine I} {ε α β : Type}

def Machine.Keeps (M : Machine I) (kind : I.Act → Prop) : Prop :=
  ∀ {oracle pid w w' action response}, kind action → M.exec oracle pid w action = some (w', response) →
    w' = w

namespace Prog
variable {oracles : ℕ → M.Oracle} {pid : ℕ} {s s' : Shared M} {program : Prog I ε α}
  {kind : I.Act → Prop}

theorem Only.preserves {K : M.World → Prop}
    (step : ∀ {oracle : M.Oracle} {w w' : M.World} {action : I.Act} {response : I.Res action}, kind action →
    M.exec oracle pid w action = some (w', response) → K w → K w') (only : program.Only kind) {outcome : Except ε α}
    (ran : program.evaluate oracles pid s = some (outcome, s')) (start : K s.world) : K s'.world := by
  induction program generalizing s with
  | pure value =>
    cases ran
    exact start
  | raise error =>
    cases ran
    exact start
  | act action rest ih =>
    simp only [evaluate] at ran
    split at ran
    · cases ran
    · rename_i world response executed
      exact ih response (only.2 response) ran (step only.1 executed start)

theorem Only.world_eq (keeps : M.Keeps kind) (only : program.Only kind) {outcome : Except ε α}
    (ran : program.evaluate oracles pid s = some (outcome, s')) : s'.world = s.world := by
  refine Only.preserves (K := fun w => w = s.world) ?_ only ran rfl
  intro oracle w w' action response harmless executed same
  exact (keeps harmless executed).trans same

theorem evaluate_ofExcept (result : Except ε α) :
    (ofExcept (I := I) result).evaluate oracles pid s = some (result, s) := by
  cases result <;> rfl

variable {next : α → Prog I ε β}

theorem Only.outcome {outcome : Except ε β} (only : program.Only kind) (keeps : M.Keeps kind)
    (ran : (program.bind next).evaluate oracles pid s = some (outcome, s')) : (∃ error, outcome = .error error)
    ∧ s'.world = s.world ∨ ∃ value middle, program.evaluate oracles pid s = some (.ok value, middle)
    ∧ middle.world = s.world ∧ (next value).evaluate oracles pid middle = some (outcome, s') := by
  rcases evaluate_bind_eq_some.1 ran with ⟨value, middle, first, rest⟩ | ⟨error, first, rfl⟩
  · exact .inr ⟨value, middle, first, only.world_eq keeps first, rest⟩
  · exact .inl ⟨⟨error, rfl⟩, only.world_eq keeps first⟩

theorem ofExcept_outcome {result : Except ε α} {outcome : Except ε β} (ran :
    ((ofExcept result).bind next).evaluate oracles pid s = some (outcome, s')) : (∃ error, outcome = .error error)
    ∧ s' = s ∨ ∃ value, result = .ok value ∧ (next value).evaluate oracles pid s = some (outcome, s') := by
  cases result with
  | ok value => exact .inr ⟨value, rfl, ran⟩
  | error error =>
    cases ran
    exact .inl ⟨⟨error, rfl⟩, rfl⟩

theorem evaluate_discard {outcome : Except ε Unit} : (program.discard).evaluate oracles pid s = some (outcome, s') ↔
      ∃ result, program.evaluate oracles pid s = some (result, s') ∧ outcome = result.map fun _ => () := by
  unfold discard
  constructor
  · intro ran
    rcases evaluate_bind_eq_some.1 ran with ⟨value, _, first, ⟨⟩⟩ | ⟨error, first, rfl⟩
    · exact ⟨_, first, rfl⟩
    · exact ⟨_, first, rfl⟩
  · rintro ⟨result, ran, rfl⟩
    cases result with
    | ok value => exact evaluate_bind_eq_some.2 (.inl ⟨value, s', ran, rfl⟩)
    | error error => exact evaluate_bind_eq_some.2 (.inr ⟨error, ran, rfl⟩)

theorem evaluate_ensuring {cleanup : Prog I ε Unit} {outcome : Except ε α}
    (returns : ∀ s result s', cleanup.evaluate oracles pid s = some (result, s') → result = .ok ()) :
    (program.ensuring cleanup).evaluate oracles pid s = some (outcome, s') ↔ ∃ middle, program.evaluate oracles pid s =
    some (outcome, middle) ∧ cleanup.evaluate oracles pid middle = some (.ok (), s') := by
  unfold ensuring
  constructor
  · intro ran
    rcases evaluate_bind_eq_some.1 ran with ⟨result, middle, attempted, rest⟩ | ⟨_, attempted, -⟩
    · rcases evaluate_bind_eq_some.1 rest with ⟨_, last, cleaned, ended⟩ | ⟨_, cleaned, -⟩
      · rw [evaluate_ofExcept] at ended
        cases ended
        exact ⟨middle, evaluate_attempt_eq_ok.1 attempted, cleaned⟩
      · cases returns _ _ _ cleaned
    · obtain ⟨_, same, -⟩ := evaluate_attempt_eq_some.1 attempted
      cases same
  · rintro ⟨middle, ran, cleaned⟩
    refine evaluate_bind_eq_some.2 (.inl ⟨outcome, middle, evaluate_attempt_eq_ok.2 ran, ?_⟩)
    exact evaluate_bind_eq_some.2 (.inl ⟨(), s', cleaned, evaluate_ofExcept outcome⟩)

def Ends (oracle : M.Oracle) (pid : ℕ) (program : Prog I ε α) (w : M.World) (outcome : Except ε α)
    (w' : M.World) : Prop :=
  ∀ trace, ∃ trace', program.evaluate (fun _ => oracle) pid ⟨w, trace⟩ = some (outcome, ⟨w', trace'⟩)

section Ends
variable {oracle : M.Oracle} {w w₁ w₂ : M.World} {outcome : Except ε α}

theorem Ends.pure (value : α) : (pure value : Prog I ε α).Ends oracle pid w (.ok value) w :=
  fun trace => ⟨trace, rfl⟩

theorem Ends.raise (error : ε) : (raise error : Prog I ε α).Ends oracle pid w (.error error) w :=
  fun trace => ⟨trace, rfl⟩

theorem Ends.ofExcept (result : Except ε α) : (ofExcept (I := I) result).Ends oracle pid w result w :=
  fun trace => ⟨trace, evaluate_ofExcept result⟩

variable {action : I.Act} {response : I.Res action}

theorem Ends.act {next : I.Res action → Prog I ε α} (executed : M.exec oracle pid w action = some (w₁, response))
    (rest : (next response).Ends oracle pid w₁ outcome w₂) : (act action next).Ends oracle pid w outcome w₂ := by
  intro trace
  obtain ⟨trace', ran⟩ := rest (⟨pid, action, response⟩ :: trace)
  refine ⟨trace', ?_⟩
  simp only [evaluate, executed]
  exact ran

theorem Ends.perform (executed : M.exec oracle pid w action = some (w₁, response)) :
    (Prog.act action .pure : Prog I ε _).Ends oracle pid w (.ok response) w₁ :=
  .act executed (.pure response)

theorem Ends.request {answer : I.Res action → Except ε α} (executed : M.exec oracle pid w action =
    some (w₁, response)) : (request action answer).Ends oracle pid w (answer response) w₁ :=
  .act executed (.ofExcept _)

variable {value : α}

theorem Ends.bind {result : Except ε β} (first : program.Ends oracle pid w (.ok value) w₁)
    (rest : (next value).Ends oracle pid w₁ result w₂) : (program.bind next).Ends oracle pid w result w₂ := by
  intro trace
  obtain ⟨middle, ran⟩ := first trace
  obtain ⟨trace', continued⟩ := rest middle
  exact ⟨trace', evaluate_bind_eq_some.2 (.inl ⟨value, _, ran, continued⟩)⟩

theorem Ends.bind_error {error : ε} (first : program.Ends oracle pid w (.error error) w₁) :
    (program.bind next).Ends oracle pid w (.error error) w₁ := by
  intro trace
  obtain ⟨middle, ran⟩ := first trace
  exact ⟨middle, evaluate_bind_eq_some.2 (.inr ⟨error, ran, rfl⟩)⟩

theorem Ends.ofExcept_bind {result : Except ε α} {outcome : Except ε β} (ok : result = .ok value) (rest :
    (next value).Ends oracle pid w outcome w₁) : ((Prog.ofExcept result).bind next).Ends oracle pid w outcome w₁ := by
  subst ok
  exact rest

theorem Ends.attempt (ends : program.Ends oracle pid w outcome w₁) :
    (program.attempt : Prog I ε _).Ends oracle pid w (.ok outcome) w₁ := by
  intro trace
  obtain ⟨trace', ran⟩ := ends trace
  exact ⟨trace', evaluate_attempt_eq_ok.2 ran⟩

theorem Ends.ensuring {cleanup : Prog I ε Unit} (body : program.Ends oracle pid w outcome w₁)
    (last : cleanup.Ends oracle pid w₁ (.ok ()) w₂) : (program.ensuring cleanup).Ends oracle pid w outcome w₂ :=
  body.attempt.bind (last.bind (.ofExcept outcome))

theorem Ends.unique {outcome' : Except ε α} (first : program.Ends oracle pid w outcome w₁)
    (second : program.Ends oracle pid w outcome' w₂) : outcome = outcome' ∧ w₁ = w₂ := by
  obtain ⟨trace, ran⟩ := first []
  obtain ⟨trace', ran'⟩ := second []
  have same := Option.some.inj (ran.symm.trans ran')
  cases same
  exact ⟨rfl, rfl⟩

end Ends
end Prog
end VideoPoster.Interleaving
