import Mathlib.Logic.Relation
import Mathlib.Data.Set.Basic
import VideoPoster.Interleaving.Program

/-!
# Interleaved execution with crashes

A machine executes one atomic action at a time.
-/

namespace VideoPoster.Interleaving
open Prog Function List Option

structure Machine (I : Interface) where
  World : Type
  Oracle : Type
  exec : Oracle → ℕ → World → (action : I.Act) → Option (World × I.Res action)
  crash : ℕ → World → World

structure Event (I : Interface) where
  process : ℕ
  action : I.Act
  response : I.Res action

structure Shared {I : Interface} (M : Machine I) where
  world : M.World
  trace : List (Event I)

structure Config {I : Interface} (M : Machine I) (ε : Type) extends Shared M where
  processes : ℕ → Option (Prog I ε Unit)
  spawned : ℕ

section
variable {I : Interface} {M : Machine I} {ε α : Type}

def Config.initial (world : M.World) : Config M ε :=
  ⟨⟨world, []⟩, fun _ => none, 0⟩

def Shared.crash (s : Shared M) (pid : ℕ) : Shared M := { s with world := M.crash pid s.world }

def Performs (pid : ℕ) (action : I.Act) (response : I.Res action) (s s' : Shared M) : Prop :=
  ∃ oracle, M.exec oracle pid s.world action = some (s'.world, response) ∧
    s'.trace = ⟨pid, action, response⟩ :: s.trace

abbrev Condition (M : Machine I) := M.World → Event I → Prop

inductive Step (calls : Set (Prog I ε Unit)) (allowed : Condition M) :
    Config M ε → Config M ε → Prop
  | spawn {c : Config M ε} {call : Prog I ε Unit} (called : call ∈ calls) :
      Step calls allowed c { c with
        processes := update c.processes c.spawned (some call), spawned := c.spawned + 1 }
  | perform {c : Config M ε} {s' : Shared M} {pid : ℕ} {action : I.Act} {response : I.Res action}
      {next : I.Res action → Prog I ε Unit} (alive : c.processes pid = some (.act action next))
      (performs : Performs pid action response c.toShared s')
      (meets : allowed c.world ⟨pid, action, response⟩) :
      Step calls allowed c { s' with
        processes := update c.processes pid (some (next response))
        spawned := c.spawned }
  | crash {c : Config M ε} (pid : ℕ) :
      Step calls allowed c { c.toShared.crash pid with
        processes := update c.processes pid none, spawned := c.spawned }

/-- `c'` is reached from `c` by calls of the given kind, every step meeting the condition. -/
abbrev Reaches (calls : Set (Prog I ε Unit)) (allowed : Condition M) (c c' : Config M ε) : Prop :=
  Relation.ReflTransGen (Step calls allowed) c c'

def anyStep : Condition M := fun _ _ => True

instance (w : M.World) (e : Event I) : Decidable (anyStep w e) := .isTrue trivial

theorem Step.mono {calls calls' : Set (Prog I ε Unit)} {allowed allowed' : Condition M}
    {c c' : Config M ε} (subset : calls ⊆ calls') (weaker : ∀ w e, allowed w e → allowed' w e)
    (step : Step calls allowed c c') : Step calls' allowed' c c' := by
  cases step with
  | spawn called => exact .spawn (subset called)
  | perform alive performs meets => exact .perform alive performs (weaker _ _ meets)
  | crash pid => exact .crash pid

theorem Reaches.mono {calls calls' : Set (Prog I ε Unit)} {allowed allowed' : Condition M}
    {c c' : Config M ε} (subset : calls ⊆ calls') (weaker : ∀ w e, allowed w e → allowed' w e)
    (reaches : Reaches calls allowed c c') : Reaches calls' allowed' c c' :=
  Relation.ReflTransGen.mono (fun _ _ => Step.mono subset weaker) _ _ reaches

theorem Reaches.invariant {calls : Set (Prog I ε Unit)} {allowed : Condition M} {c c' : Config M ε}
    {K : Shared M → Prop} (step : ∀ {pid : ℕ} {action : I.Act} {response : I.Res action} {s s' : Shared M},
    K s → Performs pid action response s s' → K s') (crash : ∀ {s : Shared M} (pid : ℕ), K s → K (s.crash pid))
    (start : K c.toShared) (reaches : Reaches calls allowed c c') : K c'.toShared := by
  induction reaches with
  | refl => exact start
  | tail _ last ih =>
    cases last with
    | spawn => exact ih
    | perform _ performs => exact step ih performs
    | crash pid => exact crash pid ih

theorem Reaches.performed {calls : Set (Prog I ε Unit)} {allowed : Condition M} {c c' : Config M ε}
    (reaches : Reaches calls allowed c c') {e : Event I} {earlier : List (Event I)} (event : e :: earlier <:+ c'.trace)
    (later : ¬ e :: earlier <:+ c.trace) : ∃ b d, Reaches calls allowed c b ∧ Step calls allowed b d ∧
    Reaches calls allowed d c' ∧ b.trace = earlier ∧ Performs e.process e.action e.response b.toShared d.toShared := by
  induction reaches with
  | refl => exact absurd event later
  | @tail b d before last ih =>
    by_cases old : e :: earlier <:+ b.trace
    · obtain ⟨x, y, toX, step, fromY, rest⟩ := ih old
      exact ⟨x, y, toX, step, fromY.tail last, rest⟩
    · cases last with
      | spawn called => exact absurd event old
      | crash pid => exact absurd event old
      | @perform s' pid action response next alive performs meets =>
        have extended : s'.trace = ⟨pid, action, response⟩ :: b.trace := performs.choose_spec.2
        rw [extended] at event
        obtain ⟨rfl, rfl⟩ := cons.inj ((suffix_cons_iff.mp event).resolve_right old)
        exact ⟨b, _, before, .perform alive performs meets, .refl, rfl, performs⟩

/-! ## Later processes -/

def Config.since (c c' : Config M ε) : List (Event I) :=
  c'.trace.take (c'.trace.length - c.trace.length)

theorem Config.since_eq {c c' : Config M ε} {events : List (Event I)}
    (extended : c'.trace = events ++ c.trace) : c.since c' = events := by
  simp [Config.since, extended]

def Config.Stopped (c : Config M ε) : Prop :=
  ∀ pid action next, c.processes pid ≠ some (.act action next)

structure Config.LaterThan (c c' : Config M ε) : Prop where
  spawned : c.spawned ≤ c'.spawned
  actor : ∀ {pid : ℕ} {action : I.Act} {next : I.Res action → Prog I ε Unit},
    c'.processes pid = some (.act action next) → c.spawned ≤ pid

theorem Config.Stopped.laterThan {c : Config M ε} (stopped : c.Stopped) : c.LaterThan c :=
  ⟨le_rfl, fun alive => absurd alive (stopped _ _ _)⟩

theorem Config.LaterThan.step {calls : Set (Prog I ε Unit)} {allowed : Condition M}
    {c b d : Config M ε} (later : c.LaterThan b) (step : Step calls allowed b d) : c.LaterThan d := by
  cases step with
  | spawn called =>
    refine ⟨later.spawned.trans (Nat.le_succ _), fun {pid _ _} alive => ?_⟩
    by_cases same : pid = b.spawned
    · exact same ▸ later.spawned
    · simp only [update_of_ne same] at alive
      exact later.actor alive
  | @perform s' actor action response next running performs meets =>
    refine ⟨later.spawned, fun {pid _ _} alive => ?_⟩
    by_cases same : pid = actor
    · exact same ▸ later.actor running
    · simp only [update_of_ne same] at alive
      exact later.actor alive
  | crash dead =>
    refine ⟨later.spawned, fun {pid _ _} alive => ?_⟩
    by_cases same : pid = dead
    · simp [same] at alive
    · simp only [update_of_ne same] at alive
      exact later.actor alive

structure Config.Numbered (c : Config M ε) : Prop where
  alive : ∀ {pid : ℕ} {program : Prog I ε Unit}, c.processes pid = some program → pid < c.spawned
  events : ∀ e ∈ c.trace, e.process < c.spawned

theorem Config.Numbered.initial (world : M.World) : (Config.initial (ε := ε) world).Numbered :=
  ⟨fun alive => (by cases alive), fun _ member => (by cases member)⟩

theorem Config.Numbered.step {calls : Set (Prog I ε Unit)} {allowed : Condition M}
    {c c' : Config M ε} (numbered : c.Numbered) (step : Step calls allowed c c') : c'.Numbered := by
  cases step with
  | spawn called =>
    refine ⟨fun {pid _} alive => ?_, fun e member => (numbered.events e member).trans (Nat.lt_succ_self _)⟩
    by_cases same : pid = c.spawned
    · exact same ▸ Nat.lt_succ_self _
    · simp only [update_of_ne same] at alive
      exact (numbered.alive alive).trans (Nat.lt_succ_self _)
  | @perform s' actor action response next running performs meets =>
    obtain ⟨_, -, extended⟩ := performs
    refine ⟨fun {pid _} alive => ?_, fun e member => ?_⟩
    · by_cases same : pid = actor
      · rw [same]
        exact numbered.alive running
      · simp only [update_of_ne same] at alive
        exact numbered.alive alive
    · simp only [extended, mem_cons] at member
      rcases member with rfl | old
      · exact numbered.alive running
      · exact numbered.events e old
  | crash dead =>
    refine ⟨fun {pid _} alive => ?_, numbered.events⟩
    by_cases same : pid = dead
    · simp [same] at alive
    · simp only [update_of_ne same] at alive
      exact numbered.alive alive

theorem Config.Numbered.reaches {calls : Set (Prog I ε Unit)} {allowed : Condition M}
    {c c' : Config M ε} (numbered : c.Numbered) (reaches : Reaches calls allowed c c') : c'.Numbered := by
  induction reaches with
  | refl => exact numbered
  | tail _ step ih => exact ih.step step

def Config.idle (c : Config M ε) : Bool :=
  (range c.spawned).all fun pid =>
    match c.processes pid with
    | some (.act _ _) => false
    | _ => true

theorem Config.Numbered.stopped {c : Config M ε} (numbered : c.Numbered) (idle : c.idle = true) : c.Stopped := by
  intro pid action next alive
  have checked := all_eq_true.mp idle pid (mem_range.mpr (numbered.alive alive))
  simp [alive] at checked

/-! ## Schedules

A schedule fixes every choice, so that a concrete history can be computed. Every event is checked
against the state before it. -/

inductive Move (M : Machine I) (ε : Type) where
  | spawn (call : Prog I ε Unit)
  | perform (pid : ℕ) (oracle : M.Oracle)
  | crash (pid : ℕ)

def Config.move (check : M.World → Event I → Bool) (c : Config M ε) : Move M ε → Option (Config M ε)
  | .spawn call => some { c with
      processes := update c.processes c.spawned (some call), spawned := c.spawned + 1 }
  | .perform pid oracle =>
    match c.processes pid with
    | some (.act action next) =>
      match M.exec oracle pid c.world action with
      | some (world, response) =>
        if check c.world ⟨pid, action, response⟩ then some
          ⟨⟨world, ⟨pid, action, response⟩ :: c.trace⟩,
            update c.processes pid (some (next response)), c.spawned⟩
        else none
      | none => none
    | _ => none
  | .crash pid => some { c.toShared.crash pid with
      processes := update c.processes pid none, spawned := c.spawned }

def Config.simulate (check : M.World → Event I → Bool) (c : Config M ε) :
    List (Move M ε) → Option (Config M ε)
  | [] => some c
  | m :: rest => (c.move check m).bind fun c' => c'.simulate check rest

def Move.calls : Move M ε → Set (Prog I ε Unit)
  | .spawn call => {call}
  | _ => ∅

variable {calls : Set (Prog I ε Unit)} {allowed : Condition M} {check : M.World → Event I → Bool}
  {c c' : Config M ε}

section
variable (checked : ∀ w e, check w e = true → allowed w e)
include checked

theorem Config.move_step {m : Move M ε}
    (subset : m.calls ⊆ calls) (moved : c.move check m = some c') : Step calls allowed c c' := by
  cases m with
  | spawn call =>
    cases moved
    exact .spawn (subset rfl)
  | crash pid =>
    cases moved
    exact .crash pid
  | perform pid oracle =>
    simp only [Config.move] at moved
    split at moved
    · rename_i action next alive
      split at moved
      · rename_i world response executed
        split at moved
        · rename_i met
          cases moved
          have performs : Performs pid action response c.toShared
            ⟨world, ⟨pid, action, response⟩ :: c.trace⟩ := ⟨oracle, executed, rfl⟩
          exact .perform alive performs (checked _ _ met)
        · cases moved
      · cases moved
    · cases moved

theorem Config.simulate_reaches {moves : List (Move M ε)} (subset :
    ∀ m ∈ moves, m.calls ⊆ calls) (simulated : c.simulate check moves = some c') : Reaches calls allowed c c' := by
  induction moves generalizing c with
  | nil =>
    cases simulated
    exact .refl
  | cons m rest ih =>
    obtain ⟨middle, moved, simulated⟩ := bind_eq_some_iff.mp simulated
    exact .head (Config.move_step checked (subset m (by simp)) moved)
      (ih (fun m' member => subset m' (by simp [member])) simulated)

theorem Config.exists_reaches {moves : List (Move M ε)} (subset : ∀ m ∈ moves, m.calls ⊆ calls) {test : Config M ε →
    Bool} (passed : (c.simulate check moves).any test = true) : ∃ c', Reaches calls allowed c c' ∧ test c' = true := by
  obtain ⟨c', simulated, passed⟩ := (any_eq_true _ _).mp passed
  exact ⟨c', Config.simulate_reaches checked subset simulated, passed⟩

end

/-! ## Counting events by process -/

def countBy (kind : Event I → Bool) (pid : ℕ) (trace : List (Event I)) : ℕ :=
  trace.countP fun e => kind e && decide (e.process = pid)

variable {action : I.Act}

theorem Performs.countBy {pid : ℕ} {response : I.Res action} {s s' : Shared M}
    (performs : Performs pid action response s s') (kind : Event I → Bool) (actor : ℕ) : countBy kind actor s'.trace =
    countBy kind actor s.trace + if kind ⟨pid, action, response⟩ && decide (pid = actor) then 1 else 0 := by
  obtain ⟨-, -, extended⟩ := performs
  rw [extended, Interleaving.countBy, countP_cons]
  rfl

section Count
variable {kind other : Event I → Bool} {trace : List (Event I)}

theorem countBy_add_le (kind : Event I → Bool) {p q : ℕ} (different : p ≠ q) (trace : List (Event I)) :
    countBy kind p trace + countBy kind q trace ≤ trace.countP kind := by
  induction trace with
  | nil => exact le_rfl
  | cons e trace ih =>
    simp only [countBy, countP_cons, Bool.and_eq_true, decide_eq_true_eq] at ih ⊢
    grind

theorem countBy_pos {e : Event I} (member : e ∈ trace) (is : kind e = true) : 0 < countBy kind e.process trace :=
  countP_pos_iff.mpr ⟨e, member, by simp [is]⟩

theorem countP_le_one (each : ∀ pid, countBy kind pid trace ≤ countBy other pid trace)
    (one : trace.countP other ≤ 1) : trace.countP kind ≤ 1 := by
  rcases Nat.eq_zero_or_pos (trace.countP kind) with none | some
  · rw [none]
    exact Nat.zero_le 1
  obtain ⟨e, member, is⟩ := countP_pos_iff.mp some
  have first := countBy_pos member is
  have same : ∀ e' ∈ trace, kind e' = true → e'.process = e.process := by
    intro e' member' is'
    by_contra different
    have second := countBy_pos member' is'
    have both := countBy_add_le other different trace
    have := each e.process
    have := each e'.process
    omega
  have all : trace.countP kind = countBy kind e.process trace := by
    refine countP_congr fun e' member' => ?_
    constructor
    · intro is'
      simp [is', same e' member' is']
    · intro is'
      exact (Bool.and_eq_true_iff.mp is').1
  have whole : countBy other e.process trace ≤ trace.countP other :=
    countP_mono_left fun _ _ is => (Bool.and_eq_true_iff.mp is).1
  have := each e.process
  omega

end Count

/-! ## Uninterrupted runs -/

/-- Process `pid` runs a program to its end with nothing in between; the oracle may change with
every action. No result means that the program is blocked. -/
def Prog.evaluate (oracles : ℕ → M.Oracle) (pid : ℕ) :
    Prog I ε α → Shared M → Option (Except ε α × Shared M)
  | .pure value, s => some (.ok value, s)
  | .raise error, s => some (.error error, s)
  | .act action next, s =>
    match M.exec (oracles s.trace.length) pid s.world action with
    | none => none
    | some (world, response) =>
      (next response).evaluate oracles pid ⟨world, ⟨pid, action, response⟩ :: s.trace⟩

/-- Process `pid` gets this far in a program with nothing in between, or ends there. -/
inductive Prog.Runs (pid : ℕ) : Prog I ε α → Shared M → Shared M → Prop
  | stop (program : Prog I ε α) (s : Shared M) : Runs pid program s s
  | step {action : I.Act} {next : I.Res action → Prog I ε α} {response : I.Res action}
      {s s' s'' : Shared M} (performs : Performs pid action response s s')
      (rest : Runs pid (next response) s' s'') : Runs pid (.act action next) s s''

def Prog.runFor (oracle : M.Oracle) (pid : ℕ) : ℕ → Prog I ε α → Shared M → Option (Shared M)
  | 0, _, s => some s
  | count + 1, .act action next, s =>
    match M.exec oracle pid s.world action with
    | none => none
    | some (world, response) =>
      (next response).runFor oracle pid count ⟨world, ⟨pid, action, response⟩ :: s.trace⟩
  | _ + 1, _, _ => none

variable {program : Prog I ε α}

theorem Prog.runs_of_runFor {oracle : M.Oracle}
    {pid count : ℕ} {s s' : Shared M} (ran : program.runFor oracle pid count s = some s') : program.Runs pid s s' := by
  induction count generalizing program s with
  | zero =>
    cases ran
    exact .stop program _
  | succ count ih =>
    cases program with
    | pure value => cases ran
    | raise e => cases ran
    | act action next =>
      simp only [runFor] at ran
      split at ran
      · cases ran
      · rename_i world response executed
        exact .step ⟨oracle, executed, rfl⟩ (ih ran)

section Evaluate
variable {β : Type} {oracles : ℕ → M.Oracle} {pid : ℕ} {s s' : Shared M}

variable {result : Except ε α}

theorem Prog.runs_of_evaluate (ran : program.evaluate oracles pid s = some (result, s')) : program.Runs pid s s' := by
  induction program generalizing s with
  | pure value =>
    cases ran
    exact .stop _ _
  | raise error =>
    cases ran
    exact .stop _ _
  | act action next ih =>
    simp only [evaluate] at ran
    split at ran
    · cases ran
    · rename_i world response executed
      exact .step ⟨_, executed, rfl⟩ (ih response ran)

theorem Prog.evaluate_bind_eq_some {next : α → Prog I ε β}
    {result : Except ε β} : (program.bind next).evaluate oracles pid s = some (result, s')
    ↔ (∃ x middle, program.evaluate oracles pid s = some (.ok x, middle) ∧ (next x).evaluate oracles pid middle =
    some (result, s')) ∨ ∃ e, program.evaluate oracles pid s = some (.error e, s') ∧ result = .error e := by
  induction program generalizing s with
  | pure x =>
    constructor
    · intro ran
      exact .inl ⟨x, s, rfl, ran⟩
    · rintro (⟨_, _, ⟨⟩, ran⟩ | ⟨e, ⟨⟩, -⟩)
      exact ran
  | raise e =>
    constructor
    · rintro ⟨⟩
      exact .inr ⟨e, rfl, rfl⟩
    · rintro (⟨_, _, ⟨⟩, -⟩ | ⟨_, ⟨⟩, rfl⟩)
      rfl
  | act action rest ih =>
    simp only [bind, evaluate]
    split
    · simp
    · exact ih _

theorem Prog.evaluate_bind_eq_ok {next : α → Prog I ε β} {value : β} :
    (program.bind next).evaluate oracles pid s = some (.ok value, s') ↔ ∃ x middle, program.evaluate oracles pid s =
    some (.ok x, middle) ∧ (next x).evaluate oracles pid middle = some (.ok value, s') := by
  rw [evaluate_bind_eq_some]
  simp

variable {value : α}

theorem Prog.evaluate_ofExcept_eq_ok :
    (ofExcept (I := I) result).evaluate oracles pid s = some (.ok value, s') ↔ result = .ok value ∧ s' = s := by
  cases result <;> simp [ofExcept, evaluate, eq_comm]

theorem Prog.evaluate_request_eq_ok {response : I.Res action → Except ε α} :
    (request action response).evaluate oracles pid s = some (.ok value, s') ↔ ∃ r, M.exec (oracles s.trace.length)
    pid s.world action = some (s'.world, r) ∧ response r = .ok value ∧ s'.trace = ⟨pid, action, r⟩ :: s.trace := by
  obtain ⟨world', trace'⟩ := s'
  simp only [request, evaluate]
  split
  · rename_i blocked
    simp [blocked]
  · rename_i world r executed
    simp only [evaluate_ofExcept_eq_ok, executed, Shared.mk.injEq, some.injEq, Prod.mk.injEq]
    constructor
    · rintro ⟨ok, rfl, rfl⟩
      exact ⟨r, ⟨rfl, rfl⟩, ok, rfl⟩
    · rintro ⟨_, ⟨rfl, rfl⟩, ok, rfl⟩
      exact ⟨ok, rfl, rfl⟩

theorem Prog.evaluate_perform_eq_ok {value : I.Res action} : (act action pure : Prog I ε _).evaluate
    oracles pid s = some (.ok value, s') ↔ M.exec (oracles s.trace.length)
    pid s.world action = some (s'.world, value) ∧ s'.trace = ⟨pid, action, value⟩ :: s.trace := by
  obtain ⟨world', trace'⟩ := s'
  simp only [evaluate]
  split
  · rename_i blocked
    simp [blocked]
  · rename_i world r executed
    simp only [executed, Shared.mk.injEq, some.injEq, Prod.mk.injEq, Except.ok.injEq]
    constructor
    · rintro ⟨rfl, rfl, rfl⟩
      exact ⟨⟨rfl, rfl⟩, rfl⟩
    · rintro ⟨⟨rfl, rfl⟩, rfl⟩
      exact ⟨rfl, rfl, rfl⟩

theorem Prog.evaluate_attempt_eq_some {outcome : Except ε (Except ε α)} :
    (program.attempt : Prog I ε _).evaluate oracles pid s = some (outcome, s') ↔
      ∃ result, outcome = .ok result ∧ program.evaluate oracles pid s = some (result, s') := by
  induction program generalizing s with
  | pure x =>
    constructor
    · rintro ⟨⟩
      exact ⟨.ok x, rfl, rfl⟩
    · rintro ⟨_, rfl, ⟨⟩⟩
      rfl
  | raise e =>
    constructor
    · rintro ⟨⟩
      exact ⟨.error e, rfl, rfl⟩
    · rintro ⟨_, rfl, ⟨⟩⟩
      rfl
  | act action rest ih =>
    simp only [attempt, evaluate]
    split
    · simp
    · exact ih _

theorem Prog.evaluate_attempt_eq_ok : (program.attempt : Prog I ε _).evaluate oracles pid s =
    some (.ok result, s') ↔ program.evaluate oracles pid s = some (result, s') := by
  simp [evaluate_attempt_eq_some]

theorem Prog.evaluate_ensuring_eq_ok {cleanup : Prog I ε Unit} : (program.ensuring cleanup).evaluate oracles pid s =
    some (.ok value, s') ↔ ∃ middle, program.evaluate oracles pid s =
    some (.ok value, middle) ∧ cleanup.evaluate oracles pid middle = some (.ok (), s') := by
  simp only [ensuring, evaluate_bind_eq_ok, evaluate_attempt_eq_ok, evaluate_ofExcept_eq_ok]
  constructor
  · rintro ⟨_, middle, ran, ⟨⟩, last, cleaned, rfl, rfl⟩
    exact ⟨middle, ran, cleaned⟩
  · rintro ⟨middle, ran, cleaned⟩
    exact ⟨_, middle, ran, (), s', cleaned, rfl, rfl⟩

end Evaluate

end
end VideoPoster.Interleaving
