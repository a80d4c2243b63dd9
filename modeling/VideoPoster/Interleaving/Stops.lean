import VideoPoster.Interleaving.Interruption

/-!
# Where a program can stop
-/

namespace VideoPoster.Interleaving
open Prog

variable {I : Interface} {M : Machine I} {ε α β : Type}

namespace Prog
variable {oracle : M.Oracle} {pid : ℕ} {program : Prog I ε α} {w w₁ w' : M.World} {outcome : Except ε α}
  {kind : I.Act → Prop} {pending : Option I.Act}

/-- Alone, the program stops in the world `w'`; the action is the one that it did not come to. -/
inductive Stops (oracle : M.Oracle) (pid : ℕ) : Prog I ε α → M.World → M.World → Option I.Act → Prop
  | pure (value : α) (w : M.World) : Stops oracle pid (.pure value) w w none
  | raise (error : ε) (w : M.World) : Stops oracle pid (.raise error) w w none
  | before (action : I.Act) (next : I.Res action → Prog I ε α) (w : M.World) :
      Stops oracle pid (.act action next) w w (some action)
  | later {action : I.Act} {next : I.Res action → Prog I ε α} {response : I.Res action} {w w₁ w' : M.World}
      {pending : Option I.Act} (executed : M.exec oracle pid w action = some (w₁, response))
      (rest : Stops oracle pid (next response) w₁ w' pending) : Stops oracle pid (.act action next) w w' pending

theorem Ends.stops (ends : program.Ends oracle pid w outcome w') : program.Stops oracle pid w w' none := by
  induction program generalizing w with
  | pure value =>
    obtain ⟨-, rfl⟩ := ends_pure_iff.1 ends
    exact .pure value w'
  | raise error =>
    obtain ⟨-, rfl⟩ := ends_raise_iff.1 ends
    exact .raise error w'
  | act action next ih =>
    obtain ⟨response, w₁, executed, rest⟩ := ends_act_iff.1 ends
    exact .later executed (ih response rest)

variable {next : α → Prog I ε β}

theorem Stops.of_bind (stops : (program.bind next).Stops oracle pid w w' pending) : program.Stops oracle
    pid w w' pending ∨ ∃ x w₁, program.Ends oracle pid w (.ok x) w₁ ∧ (next x).Stops oracle pid w₁ w' pending := by
  induction program generalizing w with
  | pure value => exact .inr ⟨value, w, .pure value, stops⟩
  | raise error =>
    cases stops
    exact .inl (.raise error _)
  | act action rest ih =>
    cases stops with
    | before => exact .inl (.before action rest _)
    | later executed stops =>
      rcases ih _ stops with inside | ⟨x, w₂, ends, after⟩
      · exact .inl (.later executed inside)
      · exact .inr ⟨x, w₂, .act executed ends, after⟩

theorem Ends.of_bind_error {error : ε}
    (ends : (program.bind next).Ends oracle pid w (.error error) w') : program.Ends oracle pid w (.error error)
    w' ∨ ∃ x w₁, program.Ends oracle pid w (.ok x) w₁ ∧ (next x).Ends oracle pid w₁ (.error error) w' := by
  obtain ⟨trace', ran⟩ := ends []
  rcases evaluate_bind_eq_some.mp ran with ⟨x, ⟨w₁, middle⟩, first, rest⟩ | ⟨error', first, same⟩
  · exact .inr ⟨x, w₁, ends_of_evaluate first, ends_of_evaluate rest⟩
  · cases same
    exact .inl (ends_of_evaluate first)

theorem Stops.inside {action : I.Act} (stops : program.Stops oracle pid w w' (some action)) :
    (program.bind next).Stops oracle pid w w' (some action) := by
  generalize here : some action = pending at stops
  induction stops with
  | pure => cases here
  | raise => cases here
  | before => exact .before _ _ _
  | later executed _ ih => exact .later executed (ih here)

theorem Stops.rest {x : α} (first : program.Ends oracle pid w (.ok x) w₁)
    (stops : (next x).Stops oracle pid w₁ w' pending) : (program.bind next).Stops oracle pid w w' pending := by
  induction program generalizing w with
  | pure value =>
    obtain ⟨is, rfl⟩ := ends_pure_iff.1 first
    cases is
    exact stops
  | raise error =>
    obtain ⟨is, -⟩ := ends_raise_iff.1 first
    cases is
  | act action rest ih =>
    obtain ⟨response, w₂, executed, first⟩ := ends_act_iff.1 first
    exact .later executed (ih response first)

theorem Stops.keeps {P : M.World → Prop} (stops : program.Stops oracle pid w w' pending)
    (step : ∀ {w w₁ : M.World} {action : I.Act} {response : I.Res action},
      M.exec oracle pid w action = some (w₁, response) → P w → P w₁) (start : P w) : P w' := by
  induction stops with
  | pure => exact start
  | raise => exact start
  | before => exact start
  | later executed _ ih => exact ih (step executed start)

def stopAfter (oracle : M.Oracle) (pid : ℕ) : ℕ → Prog I ε α → M.World → Option (M.World × Option I.Act)
  | _, .pure _, w => some (w, none)
  | _, .raise _, w => some (w, none)
  | 0, .act action _, w => some (w, some action)
  | count + 1, .act action next, w =>
    match M.exec oracle pid w action with
    | some (w₁, response) => stopAfter oracle pid count (next response) w₁
    | none => none

theorem Stops.of_stopAfter {count : ℕ} (stopped : stopAfter (M := M) oracle pid count program w = some (w', pending)) :
    program.Stops oracle pid w w' pending := by
  induction program generalizing w count with
  | pure value =>
    cases count <;> cases stopped <;> exact .pure value _
  | raise error =>
    cases count <;> cases stopped <;> exact .raise error _
  | act action next ih =>
    cases count with
    | zero =>
      cases stopped
      exact .before action next _
    | succ count =>
      simp only [stopAfter] at stopped
      cases executed : M.exec oracle pid w action with
      | none => simp [executed] at stopped
      | some done =>
        obtain ⟨w₁, response⟩ := done
        simp only [executed] at stopped
        exact .later executed (ih response stopped)

def Stays (oracle : M.Oracle) (pid : ℕ) (K : M.World → Option I.Act → Prop) (program : Prog I ε α) (w : M.World) :
    Prop :=
  ∀ w' pending, program.Stops oracle pid w w' pending → K w' pending

section Stays
variable {K : M.World → Option I.Act → Prop} {P : M.World → Prop}

theorem Stays.pure {value : α} (here : K w none) : (pure value : Prog I ε α).Stays oracle pid K w := by
  intro w' pending stops
  cases stops
  exact here

theorem Stays.raise {error : ε} (here : K w none) : (raise error : Prog I ε α).Stays oracle pid K w := by
  intro w' pending stops
  cases stops
  exact here

theorem Stays.act {action : I.Act} {next : I.Res action → Prog I ε α} (here : K w (some action))
    (rest : ∀ w₁ response, M.exec oracle pid w action = some (w₁, response) → (next response).Stays oracle pid K w₁) :
    (act action next).Stays oracle pid K w := by
  intro w' pending stops
  cases stops with
  | before => exact here
  | later executed stops => exact rest _ _ executed w' pending stops

theorem Stays.bind (first : program.Stays oracle pid K w) (rest : ∀ x w₁, program.Ends oracle pid w (.ok x)
    w₁ → (next x).Stays oracle pid K w₁) : (program.bind next).Stays oracle pid K w := by
  intro w' pending stops
  rcases stops.of_bind with inside | ⟨x, w₁, ends, after⟩
  · exact first w' pending inside
  · exact rest x w₁ ends w' pending after

theorem Stays.check {result : Except ε α} (here : K w none) (rest :
    ∀ x, result = .ok x → (next x).Stays oracle pid K w) : ((ofExcept result).bind next).Stays oracle pid K w := by
  cases result with
  | ok x => exact rest x rfl
  | error error => exact .raise here

theorem Stays.ofExcept {result : Except ε α} (here : K w none) :
    (ofExcept (I := I) result).Stays oracle pid K w := by
  cases result with
  | ok x => exact .pure here
  | error error => exact .raise here

theorem Stays.mono {K' : M.World → Option I.Act → Prop} (stays : program.Stays oracle pid K w)
    (weaker : ∀ w' pending, K w' pending → K' w' pending) : program.Stays oracle pid K' w :=
  fun w' pending stops => weaker w' pending (stays w' pending stops)

variable (step : ∀ {w w₁ : M.World} {action : I.Act} {response : I.Res action}, kind action → M.exec oracle pid w action = some (w₁, response) → P w → P w₁)
include step

theorem Only.stays (only : program.Only kind) (start : P w) : program.Stays oracle pid (fun w' _ => P w') w := by
  intro w' pending stops
  induction stops with
  | pure => exact start
  | raise => exact start
  | before => exact start
  | later executed _ ih => exact ih (only.2 _) (step only.1 executed start)

theorem Only.ends (only : program.Only kind) (start : P w) (ends : program.Ends oracle pid w outcome w') : P w' :=
  only.stays step start w' none ends.stops

end Stays
end Prog
end VideoPoster.Interleaving
