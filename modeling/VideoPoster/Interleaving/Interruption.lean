import VideoPoster.Interleaving.Undisturbed

/-!
# Programs that are cut off
-/

namespace VideoPoster.Interleaving
open Prog List Option

variable {I : Interface} {M : Machine I} {ε α β : Type}

def Machine.Outside (M : Machine I) (kind : I.Act → Prop) : Prop :=
  ∀ oracle pid action, kind action → ∃ response, ∀ w, M.exec oracle pid w action = some (w, response)

namespace Prog
variable {oracle : M.Oracle} {pid : ℕ} {program : Prog I ε α} {w w₁ w' : M.World} {outcome : Except ε α}
  {kind : I.Act → Prop}

theorem ends_of_evaluate {trace trace' : List (Event I)} (ran : program.evaluate (fun _ => oracle)
    pid (⟨w, trace⟩ : Shared M) = some (outcome, ⟨w', trace'⟩)) : program.Ends oracle pid w outcome w' := by
  induction program generalizing w trace with
  | pure value =>
    cases ran
    exact .pure value
  | raise error =>
    cases ran
    exact .raise error
  | act action next ih =>
    simp only [evaluate] at ran
    cases executed : M.exec oracle pid w action with
    | none => simp [executed] at ran
    | some done =>
      obtain ⟨w₁, response⟩ := done
      simp only [executed] at ran
      exact .act executed (ih response ran)

variable {action : I.Act}

theorem ends_act_iff {next : I.Res action → Prog I ε α} : (act action next).Ends oracle pid w outcome w' ↔ ∃
    response w₁, M.exec oracle pid w action = some (w₁, response) ∧ (next response).Ends oracle pid w₁ outcome w' := by
  constructor
  · intro ends
    obtain ⟨trace', ran⟩ := ends []
    simp only [evaluate] at ran
    cases executed : M.exec oracle pid w action with
    | none => simp [executed] at ran
    | some done =>
      obtain ⟨w₁, response⟩ := done
      simp only [executed] at ran
      exact ⟨response, w₁, rfl, ends_of_evaluate ran⟩
  · rintro ⟨response, w₁, executed, ends⟩
    exact .act executed ends

variable {value : α}

@[simp]
theorem ends_pure_iff : (pure value : Prog I ε α).Ends oracle pid w outcome w' ↔ outcome = .ok value ∧ w' = w := by
  constructor
  · intro ends
    obtain ⟨same, world⟩ := ends.unique (.pure value)
    exact ⟨same, world⟩
  · rintro ⟨rfl, rfl⟩
    exact .pure value

@[simp]
theorem ends_raise_iff {error : ε} :
    (raise error : Prog I ε α).Ends oracle pid w outcome w' ↔ outcome = .error error ∧ w' = w := by
  constructor
  · intro ends
    obtain ⟨same, world⟩ := ends.unique (.raise error)
    exact ⟨same, world⟩
  · rintro ⟨rfl, rfl⟩
    exact .raise error

@[simp]
theorem ends_ofExcept_iff {result : Except ε α} :
    (ofExcept (I := I) result).Ends oracle pid w outcome w' ↔ outcome = result ∧ w' = w := by
  constructor
  · intro ends
    obtain ⟨same, world⟩ := ends.unique (.ofExcept result)
    exact ⟨same, world⟩
  · rintro ⟨rfl, rfl⟩
    exact .ofExcept _

variable {next : α → Prog I ε β}

@[simp]
theorem ends_bind_iff {value : β} : (program.bind next).Ends oracle pid w (.ok value) w' ↔
      ∃ x w₁, program.Ends oracle pid w (.ok x) w₁ ∧ (next x).Ends oracle pid w₁ (.ok value) w' := by
  constructor
  · intro ends
    obtain ⟨trace', ran⟩ := ends []
    obtain ⟨x, ⟨w₁, middle⟩, first, rest⟩ := evaluate_bind_eq_ok.1 ran
    exact ⟨x, w₁, ends_of_evaluate first, ends_of_evaluate rest⟩
  · rintro ⟨x, w₁, first, rest⟩
    exact first.bind rest

@[simp]
theorem bind_eq (program : Prog I ε α) (next : α → Prog I ε β) : program >>= next = program.bind next := rfl

@[simp]
theorem pure_eq (value : α) : (Pure.pure value : Prog I ε α) = .pure value := rfl

@[simp]
theorem ends_request_iff {answer : I.Res action → Except ε α} : (request action answer).Ends oracle
    pid w outcome w' ↔ ∃ response, M.exec oracle pid w action = some (w', response) ∧ outcome = answer response := by
  unfold request
  rw [ends_act_iff]
  constructor
  · rintro ⟨response, w₁, executed, ends⟩
    obtain ⟨rfl, rfl⟩ := ends_ofExcept_iff.1 ends
    exact ⟨response, executed, rfl⟩
  · rintro ⟨response, executed, rfl⟩
    exact ⟨response, w', executed, .ofExcept _⟩

theorem Ends.anywhere (outside : M.Outside kind) (only : program.Only kind)
    (ends : program.Ends oracle pid w outcome w') (w₁ : M.World) : w' = w ∧ program.Ends oracle pid w₁ outcome w₁ := by
  induction program with
  | pure value =>
    obtain ⟨rfl, rfl⟩ := ends_pure_iff.1 ends
    exact ⟨rfl, .pure value⟩
  | raise error =>
    obtain ⟨rfl, rfl⟩ := ends_raise_iff.1 ends
    exact ⟨rfl, .raise error⟩
  | act action next ih =>
    obtain ⟨response, w₂, executed, rest⟩ := ends_act_iff.1 ends
    obtain ⟨answer, answered⟩ := outside oracle pid action only.1
    cases executed.symm.trans (answered w)
    obtain ⟨same, elsewhere⟩ := ih response (only.2 response) rest
    exact ⟨same, .act (answered w₁) elsewhere⟩

/-- Alone, with this oracle at every action, the program can die in the world `w'`. -/
inductive Cut (oracle : M.Oracle) (pid : ℕ) : Prog I ε α → M.World → M.World → Prop
  | here (program : Prog I ε α) (w : M.World) : Cut oracle pid program w w
  | later {action : I.Act} {next : I.Res action → Prog I ε α} {response : I.Res action} {w w₁ w' : M.World}
      (executed : M.exec oracle pid w action = some (w₁, response))
      (rest : Cut oracle pid (next response) w₁ w') : Cut oracle pid (.act action next) w w'

theorem Ends.cut (ends : program.Ends oracle pid w outcome w') : program.Cut oracle pid w w' := by
  induction program generalizing w with
  | pure value =>
    obtain ⟨-, rfl⟩ := ends_pure_iff.1 ends
    exact .here _ _
  | raise error =>
    obtain ⟨-, rfl⟩ := ends_raise_iff.1 ends
    exact .here _ _
  | act action next ih =>
    obtain ⟨response, w₁, executed, rest⟩ := ends_act_iff.1 ends
    exact .later executed (ih response rest)

theorem Cut.of_bind (cut : (program.bind next).Cut oracle pid w w') :
    program.Cut oracle pid w w' ∨ ∃ x w₁, program.Ends oracle pid w (.ok x) w₁ ∧ (next x).Cut oracle pid w₁ w' := by
  induction program generalizing w with
  | pure value => exact .inr ⟨value, w, .pure value, cut⟩
  | raise error =>
    cases cut
    exact .inl (.here _ _)
  | act action rest ih =>
    cases cut with
    | here => exact .inl (.here _ _)
    | later executed cut =>
      rcases ih _ cut with inside | ⟨x, w₂, ends, after⟩
      · exact .inl (.later executed inside)
      · exact .inr ⟨x, w₂, .act executed ends, after⟩

def cutAfter (oracle : M.Oracle) (pid : ℕ) : ℕ → Prog I ε α → M.World → Option M.World
  | count + 1, .act action next, w =>
    match M.exec oracle pid w action with
    | some (w₁, response) => cutAfter oracle pid count (next response) w₁
    | none => none
  | _, _, w => some w

theorem Cut.of_cutAfter {count : ℕ} (died : cutAfter (M := M) oracle pid count program w = some w') :
    program.Cut oracle pid w w' := by
  induction count generalizing program w with
  | zero =>
    simp only [cutAfter, some.injEq] at died
    exact died ▸ .here _ _
  | succ count ih =>
    cases program with
    | pure value =>
      simp only [cutAfter, some.injEq] at died
      exact died ▸ .here _ _
    | raise error =>
      simp only [cutAfter, some.injEq] at died
      exact died ▸ .here _ _
    | act action next =>
      simp only [cutAfter] at died
      cases executed : M.exec oracle pid w action with
      | none => simp [executed] at died
      | some done =>
        obtain ⟨w₁, response⟩ := done
        simp only [executed] at died
        exact .later executed (ih died)

/-- From worlds with `K` the program stays in worlds with `K`, wherever it dies, and hands on values with `Q`
only. -/
structure Maintains (oracle : M.Oracle) (pid : ℕ) (K : M.World → Prop) (Q : α → Prop)
    (program : Prog I ε α) : Prop where
  kept : ∀ {w w'}, K w → program.Cut oracle pid w w' → K w'
  value : ∀ {w w' x}, K w → program.Ends oracle pid w (.ok x) w' → Q x

section Maintains
variable {K : M.World → Prop} {Q : α → Prop} {R : β → Prop}

theorem Maintains.pure {x : α} (holds : Q x) : (pure x : Prog I ε α).Maintains oracle pid K Q where
  kept start cut := by
    cases cut
    exact start
  value _ ends := by
    obtain ⟨same, -⟩ := ends_pure_iff.1 ends
    cases same
    exact holds

theorem Maintains.raise (error : ε) : (raise error : Prog I ε α).Maintains oracle pid K Q where
  kept start cut := by
    cases cut
    exact start
  value _ ends := by
    obtain ⟨same, -⟩ := ends_raise_iff.1 ends
    cases same

theorem Maintains.ofExcept (result : Except ε α) :
    (ofExcept (I := I) result).Maintains oracle pid K fun x => result = .ok x := by
  cases result with
  | ok x => exact .pure rfl
  | error error => exact .raise error

theorem Maintains.act {next : I.Res action → Prog I ε α}
    (step : ∀ {w w' response}, K w → M.exec oracle pid w action = some (w', response) →
      K w' ∧ (next response).Maintains oracle pid K Q) :
    (act action next).Maintains oracle pid K Q where
  kept start cut := by
    cases cut with
    | here => exact start
    | later executed rest =>
      obtain ⟨middle, maintains⟩ := step start executed
      exact maintains.kept middle rest
  value start ends := by
    obtain ⟨response, w₁, executed, rest⟩ := ends_act_iff.1 ends
    obtain ⟨middle, maintains⟩ := step start executed
    exact maintains.value middle rest

theorem Maintains.perform {action : I.Act} {Q : I.Res action → Prop}
    (step : ∀ {w w' response}, K w → M.exec oracle pid w action = some (w', response) → K w' ∧ Q response) :
    (Prog.act action .pure : Prog I ε _).Maintains oracle pid K Q :=
  .act fun start executed => ⟨(step start executed).1, .pure (step start executed).2⟩

theorem Maintains.request {answer : I.Res action → Except ε α}
    (step : ∀ {w w' response}, K w → M.exec oracle pid w action = some (w', response)
    → K w' ∧ ∀ x, answer response = .ok x → Q x) : (request action answer).Maintains oracle pid K Q := by
  refine .act fun start executed => ?_
  obtain ⟨kept, holds⟩ := step start executed
  refine ⟨kept, ?_⟩
  cases known : answer _ with
  | ok x => exact .pure (holds x known)
  | error error => exact .raise error

theorem Maintains.bind (first : program.Maintains oracle pid K Q)
    (rest : ∀ x, Q x → (next x).Maintains oracle pid K R) :
    (program.bind next).Maintains oracle pid K R where
  kept start cut := by
    rcases cut.of_bind with inside | ⟨x, w₁, ends, after⟩
    · exact first.kept start inside
    · exact (rest x (first.value start ends)).kept (first.kept start ends.cut) after
  value start ends := by
    obtain ⟨x, w₁, head, after⟩ := ends_bind_iff.1 ends
    exact (rest x (first.value start head)).value (first.kept start head.cut) after

theorem Maintains.weaken {Q' : α → Prop} (maintains : program.Maintains oracle pid K Q)
    (weaker : ∀ x, Q x → Q' x) : program.Maintains oracle pid K Q' where
  kept := maintains.kept
  value start ends := weaker _ (maintains.value start ends)

theorem Only.maintains (keeps : M.Keeps kind) (only : program.Only kind) :
    program.Maintains oracle pid K fun _ => True := by
  refine ⟨fun {w w'} start cut => ?_, fun _ _ => trivial⟩
  induction cut with
  | here => exact start
  | later executed _ ih => exact ih (only.2 _) (keeps only.1 executed ▸ start)

end Maintains

/-- With such responses the program can come to this end, whatever else happens between its actions. -/
inductive Answered (R : (action : I.Act) → I.Res action → Prop) : Prog I ε α → Except ε α → Prop
  | pure (value : α) : Answered R (.pure value) (.ok value)
  | raise (error : ε) : Answered R (.raise error) (.error error)
  | act {action : I.Act} {next : I.Res action → Prog I ε α} {response : I.Res action} {outcome : Except ε α}
      (responds : R action response) (rest : Answered R (next response) outcome) :
      Answered R (.act action next) outcome

variable {result : Except ε β}

section Answered
variable {R : (action : I.Act) → I.Res action → Prop}

theorem Answered.of_bind (answered : (program.bind next).Answered R result) : (∃ x, program.Answered R (.ok x)
    ∧ (next x).Answered R result) ∨ ∃ error, program.Answered R (.error error) ∧ result = .error error := by
  induction program with
  | pure value => exact .inl ⟨value, .pure value, answered⟩
  | raise error =>
    cases answered
    exact .inr ⟨error, .raise error, rfl⟩
  | act action rest ih =>
    cases answered with
    | act responds answered =>
      rcases ih _ answered with ⟨x, first, after⟩ | ⟨error, first, same⟩
      · exact .inl ⟨x, .act responds first, after⟩
      · exact .inr ⟨error, .act responds first, same⟩

theorem Answered.ofExcept_eq {result outcome : Except ε α}
    (answered : (ofExcept (I := I) result).Answered R outcome) : outcome = result := by
  cases result <;> cases answered <;> rfl

theorem Answered.act_pure {outcome : Except ε (I.Res action)} (answered :
    (Prog.act (I := I) action .pure).Answered R outcome) : ∃ response, R action response ∧ outcome = .ok response := by
  cases answered with
  | act responds rest =>
    cases rest
    exact ⟨_, responds, rfl⟩

theorem Only.answered (responds : ∀ action, kind action → ∃ response, R action response) (only : program.Only kind) :
    ∃ outcome, program.Answered R outcome := by
  induction program with
  | pure value => exact ⟨_, .pure value⟩
  | raise error => exact ⟨_, .raise error⟩
  | act action next ih =>
    obtain ⟨response, answers⟩ := responds action only.1
    obtain ⟨outcome, rest⟩ := ih response (only.2 response)
    exact ⟨outcome, .act answers rest⟩

end Answered

section Records
variable {γ : Type} {record : Event I → Option γ}

def Records (record : Event I → Option γ) (oracle : M.Oracle) (pid : ℕ) (program : Prog I ε α) (w : M.World)
    (outcome : Except ε α) (w' : M.World) (recorded : List γ) : Prop :=
  ∀ trace, ∃ events, program.evaluate (fun _ => oracle) pid (⟨w, trace⟩ : Shared M) =
    some (outcome, ⟨w', events ++ trace⟩) ∧ events.filterMap record = recorded

variable {recorded later : List γ} {w₂ : M.World}

theorem Records.pure (value : α) : (pure value : Prog I ε α).Records record oracle pid w (.ok value) w [] :=
  fun _ => ⟨[], rfl, rfl⟩

theorem Records.raise (error : ε) : (raise error : Prog I ε α).Records record oracle pid w (.error error) w [] :=
  fun _ => ⟨[], rfl, rfl⟩

theorem Records.act {next : I.Res action → Prog I ε α} {response : I.Res action} (executed : M.exec oracle pid w
    action = some (w₁, response)) (rest : (next response).Records record oracle pid w₁ outcome w₂ recorded) : (act
    action next).Records record oracle pid w outcome w₂ (recorded ++ (record ⟨pid, action, response⟩).toList) := by
  intro trace
  obtain ⟨events, ran, rfl⟩ := rest (⟨pid, action, response⟩ :: trace)
  refine ⟨events ++ [⟨pid, action, response⟩], ?_, ?_⟩
  · simp only [evaluate, executed, append_assoc, singleton_append]
    exact ran
  · rw [filterMap_append]
    cases known : record ⟨pid, action, response⟩ <;> simp [known]

theorem Records.bind (first : program.Records record oracle pid w (.ok value) w₁ recorded)
    (rest : (next value).Records record oracle pid w₁ result w₂ later) :
    (program.bind next).Records record oracle pid w result w₂ (later ++ recorded) := by
  intro trace
  obtain ⟨events, ran, rfl⟩ := first trace
  obtain ⟨events', continued, rfl⟩ := rest (events ++ trace)
  refine ⟨events' ++ events, ?_, filterMap_append⟩
  rw [append_assoc]
  exact evaluate_bind_eq_some.2 (.inl ⟨value, _, ran, continued⟩)

theorem Records.after (first : program.Records record oracle pid w (.ok value) w₁ []) (rest : (next value).Records
    record oracle pid w₁ result w₂ later) : (program.bind next).Records record oracle pid w result w₂ later := by
  have both := first.bind rest
  rwa [append_nil] at both

theorem Records.bind_error {error : ε} (first : program.Records record oracle pid w (.error error) w₁ recorded) :
    (program.bind next).Records record oracle pid w (.error error) w₁ recorded := by
  intro trace
  obtain ⟨events, ran, listed⟩ := first trace
  exact ⟨events, evaluate_bind_eq_some.2 (.inr ⟨error, ran, rfl⟩), listed⟩

theorem Records.attempt (first : program.Records record oracle pid w outcome w₁ recorded) :
    (program.attempt : Prog I ε _).Records record oracle pid w (.ok outcome) w₁ recorded := by
  intro trace
  obtain ⟨events, ran, listed⟩ := first trace
  exact ⟨events, evaluate_attempt_eq_ok.2 ran, listed⟩

theorem Records.ensuring {cleanup : Prog I ε Unit} (body : program.Records record oracle pid w outcome w₁ recorded)
    (last : cleanup.Records record oracle pid w₁ (.ok ()) w₂ []) :
    (program.ensuring cleanup).Records record oracle pid w outcome w₂ recorded := by
  intro trace
  obtain ⟨events, ran, rfl⟩ := body trace
  obtain ⟨events', cleaned, nothing⟩ := last (events ++ trace)
  refine ⟨events' ++ events, ?_, by rw [filterMap_append, nothing, nil_append]⟩
  rw [append_assoc]
  have finished : (cleanup.bind fun _ => ofExcept outcome).evaluate (fun _ => oracle) pid
      (⟨w₁, events ++ trace⟩ : Shared M) = some (outcome, ⟨w₂, events' ++ (events ++ trace)⟩) :=
    evaluate_bind_eq_some.2 (.inl ⟨(), _, cleaned, evaluate_ofExcept outcome⟩)
  exact evaluate_bind_eq_some.2 (.inl ⟨outcome, _, evaluate_attempt_eq_ok.2 ran, finished⟩)

theorem Ends.records (only : program.Only kind)
    (silent : ∀ action response, kind action → record ⟨pid, action, response⟩ = none)
    (ends : program.Ends oracle pid w outcome w') : program.Records record oracle pid w outcome w' [] := by
  induction program generalizing w with
  | pure value =>
    obtain ⟨rfl, rfl⟩ := ends_pure_iff.1 ends
    exact .pure value
  | raise error =>
    obtain ⟨rfl, rfl⟩ := ends_raise_iff.1 ends
    exact .raise error
  | act action next ih =>
    obtain ⟨response, w₁, executed, rest⟩ := ends_act_iff.1 ends
    have recorded := Records.act executed (ih response (only.2 response) rest)
    rwa [silent action response only.1] at recorded

/-- From every world with `K` the program comes to an end in one, and nothing is recorded of it. -/
def Silent (record : Event I → Option γ) (oracle : M.Oracle) (pid : ℕ) (K : M.World → Prop)
    (program : Prog I ε α) : Prop :=
  ∀ w, K w → ∃ outcome w', program.Records record oracle pid w outcome w' [] ∧ K w'

variable {K : M.World → Prop}

theorem Silent.pure (value : α) : (pure value : Prog I ε α).Silent record oracle pid K :=
  fun w start => ⟨_, w, .pure value, start⟩

theorem Silent.raise (error : ε) : (raise error : Prog I ε α).Silent record oracle pid K :=
  fun w start => ⟨_, w, .raise error, start⟩

theorem Silent.bind (first : program.Silent record oracle pid K)
    (rest : ∀ value, (next value).Silent record oracle pid K) : (program.bind next).Silent record oracle pid K := by
  intro w start
  obtain ⟨outcome, w₁, ran, middle⟩ := first w start
  cases outcome with
  | error error => exact ⟨_, w₁, .bind_error ran, middle⟩
  | ok value =>
    obtain ⟨result, w₂, continued, last⟩ := rest value w₁ middle
    exact ⟨result, w₂, ran.bind continued, last⟩

theorem Silent.attempt (first : program.Silent record oracle pid K) :
    (program.attempt : Prog I ε _).Silent record oracle pid K := by
  intro w start
  obtain ⟨outcome, w₁, ran, last⟩ := first w start
  exact ⟨_, w₁, ran.attempt, last⟩

theorem Only.silent (only : program.Only kind)
    (step : ∀ w action, kind action → K w → ∃ w' response, M.exec oracle pid w action = some (w', response) ∧
      K w' ∧ record ⟨pid, action, response⟩ = none) : program.Silent record oracle pid K := by
  induction program with
  | pure value => exact .pure value
  | raise error => exact .raise error
  | act action next ih =>
    intro w start
    obtain ⟨w₁, response, executed, middle, unrecorded⟩ := step w action only.1 start
    obtain ⟨outcome, w₂, ran, last⟩ := ih response (only.2 response) w₁ middle
    have records := Records.act executed ran
    rw [unrecorded] at records
    exact ⟨outcome, w₂, records, last⟩

end Records
end Prog
end VideoPoster.Interleaving
