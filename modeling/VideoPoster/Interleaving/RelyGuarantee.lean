import VideoPoster.Interleaving.Execution

/-!
# Rely-guarantee reasoning about processes

A protocol says which actions a process is granted in a shared state, and an invariant that the granted actions
keep.
-/

namespace VideoPoster.Interleaving
open Prog Function

variable {I : Interface} {M : Machine I} {ε α β : Type}

abbrev Assertion (M : Machine I) := Shared M → Prop

structure Protocol (M : Machine I) where
  inv : Assertion M
  grants : ℕ → Shared M → I.Act → Prop
  preserves : ∀ {pid : ℕ} {action : I.Act} {response : I.Res action} {s s' : Shared M},
    inv s → grants pid s action → Performs pid action response s s' → inv s'
  survives : ∀ {s : Shared M} (pid : ℕ), inv s → inv (s.crash pid)

namespace Protocol
variable (P : Protocol M)

inductive Interference (pid : ℕ) : Shared M → Shared M → Prop
  | perform {other : ℕ} {action : I.Act} {response : I.Res action} {s s' : Shared M}
      (foreign : other ≠ pid) (granted : P.grants other s action)
      (performs : Performs other action response s s') : Interference pid s s'
  | crash {other : ℕ} {s : Shared M} (foreign : other ≠ pid) : Interference pid s (s.crash other)

def Stable (pid : ℕ) (L : Assertion M) : Prop :=
  ∀ s s', P.inv s → P.Interference pid s s' → L s → L s'

/-- Under `L`, process `pid` performs granted actions only; it ends with `Q` or raises with `E`. -/
def Safe (pid : ℕ) (L : Assertion M) :
    Prog I ε α → (α → Assertion M) → (ε → Assertion M) → Prop
  | .pure value, Q, _ => ∀ s, P.inv s → L s → Q value s
  | .raise error, _, E => ∀ s, P.inv s → L s → E error s
  | .act action next, Q, E =>
    (∀ s, P.inv s → L s → P.grants pid s action) ∧
    ∀ response, ∃ L', P.Stable pid L' ∧
      (∀ s s', P.inv s → L s → Performs pid action response s s' → P.inv s' → L' s') ∧
      Safe pid L' (next response) Q E

variable {P} {pid : ℕ} {L L' : Assertion M} {Q Q' : α → Assertion M} {E E' : ε → Assertion M}

theorem Stable.true : P.Stable pid fun _ => True := fun _ _ _ _ _ => trivial

theorem Stable.and (left : P.Stable pid L) (right : P.Stable pid L') : P.Stable pid fun s => L s ∧ L' s :=
  fun s s' inv step holds => ⟨left s s' inv step holds.1, right s s' inv step holds.2⟩

variable {program : Prog I ε α}

theorem Safe.consequence (safe : P.Safe pid L program Q E) (pre : ∀ s, P.inv s → L' s → L s)
    (post : ∀ value s, Q value s → Q' value s) (error : ∀ e s, E e s → E' e s) : P.Safe pid L' program Q' E' := by
  induction program generalizing L L' with
  | pure value => exact fun s inv holds => post _ _ (safe s inv (pre s inv holds))
  | raise e => exact fun s inv holds => error _ _ (safe s inv (pre s inv holds))
  | act action next ih =>
    refine ⟨fun s inv holds => safe.1 s inv (pre s inv holds), fun response => ?_⟩
    obtain ⟨M', stable, establishes, rest⟩ := safe.2 response
    refine ⟨M', stable, fun s s' inv holds performs inv' =>
      establishes s s' inv (pre s inv holds) performs inv', ?_⟩
    exact ih response rest fun _ _ => id

theorem Safe.strengthen (safe : P.Safe pid L program Q E)
    (pre : ∀ s, P.inv s → L' s → L s) : P.Safe pid L' program Q E :=
  safe.consequence pre (fun _ _ => id) fun _ _ => id

theorem Safe.weaken (safe : P.Safe pid L program Q E) (post : ∀ value s, Q value s → Q' value s)
    (error : ∀ e s, E e s → E' e s) : P.Safe pid L program Q' E' :=
  safe.consequence (fun _ _ => id) post error

theorem Safe.raising (safe : P.Safe pid L program Q E) (error : ∀ e s, E e s → E' e s) : P.Safe pid L program Q E' :=
  safe.weaken (fun _ _ => id) error

/-- Under `L`, process `pid` performs granted actions only, however it ends. -/
abbrev Obeys (P : Protocol M) (pid : ℕ) (L : Assertion M) (program : Prog I ε α) : Prop :=
  P.Safe pid L program (fun _ _ => True) fun _ _ => True

theorem Safe.obeys (safe : P.Safe pid L program Q E) : P.Obeys pid L program :=
  safe.weaken (fun _ _ _ => trivial) fun _ _ _ => trivial

variable {next : α → Prog I ε β} {R : β → Assertion M}

theorem Safe.bind (first : P.Safe pid L program Q E)
    (rest : ∀ value, P.Safe pid (Q value) (next value) R E) : P.Safe pid L (program.bind next) R E := by
  induction program generalizing L with
  | pure value => exact (rest value).strengthen first
  | raise e => exact first
  | act action k ih =>
    refine ⟨first.1, fun response => ?_⟩
    obtain ⟨L', stable, establishes, safe⟩ := first.2 response
    exact ⟨L', stable, establishes, ih response safe⟩

theorem Safe.attempt {R : Except ε α → Assertion M} {F : ε → Assertion M} (safe :
    P.Safe pid L program (fun value => R (.ok value)) fun e => R (.error e)) : P.Safe pid L program.attempt R F := by
  induction program generalizing L with
  | pure value => exact safe
  | raise e => exact safe
  | act action next ih =>
    refine ⟨safe.1, fun response => ?_⟩
    obtain ⟨L', stable, establishes, rest⟩ := safe.2 response
    exact ⟨L', stable, establishes, ih response rest⟩

variable {A : α → Assertion M} {B : ε → Assertion M}

theorem Safe.attempt_bind {next : Except ε α → Prog I ε β}
    (body : P.Safe pid L program A B) (ok : ∀ value, P.Safe pid (A value) (next (.ok value)) R E)
    (error : ∀ e, P.Safe pid (B e) (next (.error e)) R E) : P.Safe pid L (program.attempt.bind next) R E := by
  induction program generalizing L with
  | pure value => exact (ok value).strengthen body
  | raise e => exact (error e).strengthen body
  | act action k ih =>
    refine ⟨body.1, fun response => ?_⟩
    obtain ⟨L', stable, establishes, rest⟩ := body.2 response
    exact ⟨L', stable, establishes, ih response rest⟩

variable {cleanup : Prog I ε Unit}

theorem Safe.ensuring (body : P.Safe pid L program A B) (ok : ∀ value, P.Safe pid (A value) cleanup (fun _ => Q value)
    E) (error : ∀ e, P.Safe pid (B e) cleanup (fun _ => E e) E) : P.Safe pid L (program.ensuring cleanup) Q E := by
  refine body.attempt_bind (fun value => (ok value).bind fun _ => ?_) fun e => (error e).bind fun _ => ?_
  · exact fun _ _ => id
  · exact fun _ _ => id

variable {action : I.Act}

theorem Safe.act {next : I.Res action → Prog I ε α} (L' : I.Res action → Assertion M)
    (granted : ∀ s, P.inv s → L s → P.grants pid s action) (stable : ∀ response, P.Stable pid (L' response))
    (establishes : ∀ response s s', P.inv s → L s → Performs pid action response s s' → P.inv s' → L' response s')
    (rest : ∀ response, P.Safe pid (L' response) (next response) Q E) : P.Safe pid L (.act action next) Q E :=
  ⟨granted, fun response => ⟨L' response, stable response, establishes response, rest response⟩⟩

theorem Safe.raise_of {error : ε} (holds : ∀ s, P.inv s → L s → E error s) : P.Safe pid L (.raise error) Q E := holds

theorem Safe.ofExcept_bind {result : Except ε α} (ok : ∀ value, result = .ok value → P.Safe pid L (next value) R E)
    (error : ∀ e, result = .error e → ∀ s, P.inv s → L s → E e s) : P.Safe pid L ((ofExcept result).bind next) R E := by
  cases result with
  | ok value => exact ok value rfl
  | error e => exact error e rfl

theorem Safe.check {result : Except ε α} (rest : ∀ value, P.Safe pid L (next value) R fun _ _ => True) :
    P.Safe pid L ((ofExcept result).bind next) R fun _ _ => True :=
  .ofExcept_bind (fun value _ => rest value) fun _ _ _ _ _ => trivial

theorem Safe.perform {action : I.Act} {R : I.Res action → Assertion M}
    (granted : ∀ s, P.inv s → L s → P.grants pid s action) (stable : ∀ r, P.Stable pid (R r)) (establishes :
    ∀ r s s', P.inv s → L s → Performs pid action r s s' → P.inv s' → R r s') : P.Safe pid L (.act action .pure) R E :=
  Safe.act R granted stable establishes fun _ _ _ => id

variable {response : I.Res action → Except ε α}

theorem Safe.request (granted : ∀ s, P.inv s → L s → P.grants pid s action) (stable : ∀ value, P.Stable pid (Q value))
    (stableError : ∀ e, P.Stable pid (E e)) (ok : ∀ r value s s', response r = .ok value → P.inv s →
    L s → Performs pid action r s s' → P.inv s' → Q value s') (error : ∀ r e s s', response r = .error e → P.inv s →
    L s → Performs pid action r s s' → P.inv s' → E e s') : P.Safe pid L (request action response) Q E := by
  refine ⟨granted, fun r => ?_⟩
  cases outcome : response r with
  | ok value =>
    have ends : (ofExcept (response r) : Prog I ε α) = .pure value := by rw [outcome]; rfl
    refine ⟨Q value, stable value, fun s s' inv holds performs inv' =>
      ok r value s s' outcome inv holds performs inv', ?_⟩
    show P.Safe pid (Q value) (ofExcept (response r)) Q E
    rw [ends]
    exact fun _ _ => id
  | error e =>
    have ends : (ofExcept (response r) : Prog I ε α) = .raise e := by rw [outcome]; rfl
    refine ⟨E e, stableError e, fun s s' inv holds performs inv' =>
      error r e s s' outcome inv holds performs inv', ?_⟩
    show P.Safe pid (E e) (ofExcept (response r)) Q E
    rw [ends]
    exact fun _ _ => id

/-! ## Frames

What a process knows survives the programs that perform harmless actions only. -/

/-- Neither the other processes nor the process's own actions of the given kind falsify `F`. -/
structure Framed (P : Protocol M) (pid : ℕ) (kind : I.Act → Prop) (F : Assertion M) : Prop where
  stable : P.Stable pid F
  kept : ∀ {action : I.Act} {response : I.Res action} {s s' : Shared M}, P.inv s →
    Performs pid action response s s' → P.grants pid s action → kind action → F s → F s'

variable {kind : I.Act → Prop} {F : Assertion M}

theorem Framed.of_keep (keep : ∀ {actor : ℕ} {action : I.Act} {response : I.Res action} {s s' : Shared M},
    P.inv s → P.grants actor s action → Performs actor action response s s' → (actor = pid → kind action) → F s → F s')
    (crash : ∀ {dead : ℕ} {s : Shared M}, dead ≠ pid → F s → F (s.crash dead)) : P.Framed pid kind F := by
  constructor
  · intro s s' inv step holds
    cases step with
    | perform foreign granted performs =>
      exact keep inv granted performs (fun same => absurd same foreign) holds
    | crash foreign => exact crash foreign holds
  · intro action response s s' inv performs granted harmless holds
    exact keep inv granted performs (fun _ => harmless) holds

theorem Framed.perform {kind : I.Act → Prop}
    {F : Assertion M} {action : I.Act} (framed : P.Framed pid kind F) (harmless : kind action)
    (granted : ∀ s, P.inv s → F s → P.grants pid s action) : P.Safe pid F (.act action .pure) (fun _ => F) E :=
  Safe.perform granted (fun _ => framed.stable) fun _ s _ inv holds performs _ =>
    framed.kept inv performs (granted s inv holds) harmless holds

theorem Framed.request (framed : P.Framed pid kind F) (harmless : kind action) (granted :
    ∀ s, P.inv s → F s → P.grants pid s action) : P.Safe pid F (request action response) (fun _ => F) fun _ => F :=
  Safe.request granted (fun _ => framed.stable) (fun _ => framed.stable)
    (fun _ _ s _ _ inv holds performs _ =>
      framed.kept inv performs (granted s inv holds) harmless holds)
    (fun _ _ s _ _ inv holds performs _ =>
      framed.kept inv performs (granted s inv holds) harmless holds)

theorem Safe.frame (safe : P.Safe pid L program Q E) (only : program.Only kind) (framed : P.Framed pid kind F) :
    P.Safe pid (fun s => L s ∧ F s) program (fun value s => Q value s ∧ F s) fun e s => E e s ∧ F s := by
  induction program generalizing L with
  | pure value => exact fun s inv holds => ⟨safe s inv holds.1, holds.2⟩
  | raise e => exact fun s inv holds => ⟨safe s inv holds.1, holds.2⟩
  | act action next ih =>
    refine ⟨fun s inv holds => safe.1 s inv holds.1, fun response => ?_⟩
    obtain ⟨L', stable, establishes, rest⟩ := safe.2 response
    refine ⟨fun s => L' s ∧ F s, stable.and framed.stable, ?_, ih response rest (only.2 response)⟩
    intro s s' inv holds performs inv'
    exact ⟨establishes s s' inv holds.1 performs inv', framed.kept inv performs (safe.1 s inv holds.1) only.1 holds.2⟩

theorem Safe.within (framed : P.Framed pid kind F) (granted : ∀ action, kind action → ∀ s, P.inv s →
    F s → P.grants pid s action) (only : program.Only kind) : P.Safe pid F program (fun _ => F) fun _ => F := by
  induction program with
  | pure value => exact fun _ _ => id
  | raise e => exact fun _ _ => id
  | act action next ih =>
    refine ⟨granted action only.1, fun response => ?_⟩
    refine ⟨F, framed.stable, fun s s' inv holds performs _ => ?_, ih response (only.2 response)⟩
    exact framed.kept inv performs (granted action only.1 s inv holds) only.1 holds

theorem Safe.of_only (granted : ∀ action, kind action → ∀ s, P.inv s → P.grants pid s action)
    (only : program.Only kind) (framed : P.Framed pid kind F) : P.Safe pid F program (fun _ => F) fun _ => F :=
  Safe.within framed (fun action holds s inv _ => granted action holds s inv) only

theorem Framed.and {G : Assertion M} (left : P.Framed pid kind F)
    (right : P.Framed pid kind G) : P.Framed pid kind fun s => F s ∧ G s :=
  ⟨left.stable.and right.stable, fun inv performs granted harmless holds =>
    ⟨left.kept inv performs granted harmless holds.1, right.kept inv performs granted harmless holds.2⟩⟩

theorem Framed.imp {fact : Prop} (framed : P.Framed pid kind F) : P.Framed pid kind fun s => fact → F s :=
  ⟨fun s s' inv step holds known => framed.stable s s' inv step (holds known),
    fun inv performs granted harmless holds known =>
      framed.kept inv performs granted harmless (holds known)⟩

theorem Framed.forall {ι : Type} {F : ι → Assertion M}
    (framed : ∀ i, P.Framed pid kind (F i)) : P.Framed pid kind fun s => ∀ i, F i s :=
  ⟨fun s s' inv step holds i => (framed i).stable s s' inv step (holds i), fun inv performs granted harmless holds i =>
      (framed i).kept inv performs granted harmless (holds i)⟩

theorem Framed.fact {fact : Prop} : P.Framed pid kind fun _ => fact :=
  ⟨fun _ _ _ _ => id, fun _ _ _ _ => id⟩

theorem Framed.mono {kind' : I.Act → Prop}
    (framed : P.Framed pid kind F) (subset : ∀ action, kind' action → kind action) : P.Framed pid kind' F :=
  ⟨framed.stable, fun inv performs granted harmless =>
    framed.kept inv performs granted (subset _ harmless)⟩

theorem Safe.given {fact : Prop} (known : ∀ s, P.inv s → L s → fact)
    (safe : fact → P.Safe pid L program Q E) : P.Safe pid L program Q E := by
  by_cases holds : fact
  · exact safe holds
  · have never : ∀ s, P.inv s → L s → False := fun s inv l => holds (known s inv l)
    clear safe known
    induction program generalizing L with
    | pure value => exact fun s inv l => (never s inv l).elim
    | raise e => exact fun s inv l => (never s inv l).elim
    | act action next ih =>
      refine ⟨fun s inv l => (never s inv l).elim, fun response => ⟨fun _ => False, ?_, ?_, ?_⟩⟩
      · exact fun _ _ _ _ => id
      · exact fun s _ inv l _ _ => never s inv l
      · exact ih response fun _ _ => id

theorem Safe.runs {s s' : Shared M} (safe : P.Safe pid L program Q E)
    (inv : P.inv s) (holds : L s) (runs : program.Runs pid s s') : P.inv s' := by
  induction runs generalizing L with
  | stop program s => exact inv
  | @step action next response s s' s'' performs rest ih =>
    have inv' := P.preserves inv (safe.1 s inv holds) performs
    obtain ⟨L', -, establishes, continues⟩ := safe.2 response
    exact ih continues inv' (establishes s s' inv holds performs inv')

def Conforms (P : Protocol M) (program : Prog I ε α) : Prop :=
  ∀ pid, P.Safe pid (fun _ => True) program (fun _ _ => True) fun _ _ => True

theorem Conforms.pure (value : α) : P.Conforms (Prog.pure value : Prog I ε α) :=
  fun _ _ _ _ => trivial

theorem Conforms.raise (error : ε) : P.Conforms (raise error : Prog I ε α) :=
  fun _ _ _ _ => trivial

theorem Conforms.ofExcept (result : Except ε α) : P.Conforms (ofExcept result : Prog I ε α) := by
  cases result with
  | ok value => exact .pure value
  | error e => exact .raise e

theorem Conforms.bind (first : P.Conforms program)
    (rest : ∀ value, P.Conforms (next value)) : P.Conforms (program.bind next) :=
  fun pid => (first pid).bind fun value => rest value pid

theorem Conforms.attempt (conforms : P.Conforms program) : P.Conforms program.attempt :=
  fun pid => Safe.attempt (conforms pid)

theorem Conforms.ensuring (body : P.Conforms program) (last : P.Conforms cleanup) :
    P.Conforms (program.ensuring cleanup) :=
  fun pid => (body pid).ensuring (fun _ => last pid) fun _ => last pid

theorem Conforms.discard (conforms : P.Conforms program) : P.Conforms program.discard :=
  conforms.bind fun _ => .pure ()

theorem Conforms.of_only (granted : ∀ pid action, kind action → ∀ s, P.inv s → P.grants pid s action)
    (only : program.Only kind) : P.Conforms program :=
  fun pid => Safe.of_only (granted pid) only ⟨Stable.true, fun _ _ _ _ _ => trivial⟩

/-- Every process is safe where it stands, with the outcomes `Q` and `E`. -/
def Standing (P : Protocol M) (Q : ℕ → Unit → Assertion M) (E : ℕ → ε → Assertion M) (c : Config M ε) : Prop :=
  ∀ pid program, c.processes pid = some program → ∃ L, P.Stable pid L ∧ L c.toShared ∧
    P.Safe pid L program (Q pid) (E pid)

structure Sound (P : Protocol M) (c : Config M ε) : Prop where
  inv : P.inv c.toShared
  safe : ∀ pid program, c.processes pid = some program → ∃ L, P.Stable pid L ∧ L c.toShared ∧
    P.Safe pid L program (fun _ _ => True) fun _ _ => True

def Admits (P : Protocol M) (calls : Set (Prog I ε Unit)) : Prop :=
  ∀ call ∈ calls, ∀ pid, P.Safe pid (fun _ => True) call (fun _ _ => True) fun _ _ => True

variable {calls : Set (Prog I ε Unit)} {allowed : Condition M} {c c' : Config M ε}

theorem Sound.initial {world : M.World} (inv : P.inv ⟨world, []⟩) : P.Sound (Config.initial (ε := ε) world) :=
  ⟨inv, fun _ _ alive => by cases alive⟩

theorem Sound.of_stopped (inv : P.inv c.toShared) (stopped : c.Stopped) : P.Sound c := by
  refine ⟨inv, fun pid program alive => ⟨fun _ => True, Stable.true, trivial, ?_⟩⟩
  cases program with
  | pure value => exact fun _ _ _ => trivial
  | raise e => exact fun _ _ _ => trivial
  | act action next => exact absurd alive (stopped pid action next)

theorem Standing.granted {Q : ℕ → Unit → Assertion M} {E : ℕ → ε → Assertion M} (standing : P.Standing Q E c)
    (inv : P.inv c.toShared) {next : I.Res action → Prog I ε Unit}
    (alive : c.processes pid = some (.act action next)) : P.grants pid c.toShared action := by
  obtain ⟨L, -, holds, safe⟩ := standing pid _ alive
  exact safe.1 _ inv holds

theorem Standing.step {Q : ℕ → Unit → Assertion M} {E : ℕ → ε → Assertion M} (standing : P.Standing Q E c)
    (inv : P.inv c.toShared) (admitted : ∀ call ∈ calls, ∃ L, P.Stable c.spawned L ∧ L c.toShared ∧ P.Safe c.spawned
    L call (Q c.spawned) (E c.spawned)) (step : Step calls allowed c c') : P.inv c'.toShared ∧ P.Standing Q E c' := by
  cases step with
  | spawn called =>
    rename_i call
    refine ⟨inv, fun pid program alive => ?_⟩
    by_cases fresh : pid = c.spawned
    · subst fresh
      simp only [update_self, Option.some.injEq] at alive
      subst alive
      exact admitted call called
    · simp only [update_of_ne fresh] at alive
      exact standing pid program alive
  | crash dead =>
    refine ⟨P.survives dead inv, fun pid program alive => ?_⟩
    by_cases same : pid = dead
    · subst same
      simp at alive
    · simp only [update_of_ne same] at alive
      obtain ⟨L, stable, holds, safe⟩ := standing pid program alive
      exact ⟨L, stable, stable _ _ inv (.crash (Ne.symm same)) holds, safe⟩
  | @perform s' actor action response next running performs meets =>
    have granted := standing.granted inv running
    have inv' := P.preserves inv granted performs
    refine ⟨inv', fun pid program alive => ?_⟩
    by_cases same : pid = actor
    · subst same
      simp only [update_self, Option.some.injEq] at alive
      subst alive
      obtain ⟨L, -, holds, safe⟩ := standing pid _ running
      obtain ⟨L', stable, establishes, rest⟩ := safe.2 response
      exact ⟨L', stable, establishes _ _ inv holds performs inv', rest⟩
    · simp only [update_of_ne same] at alive
      obtain ⟨L, stable, holds, safe⟩ := standing pid program alive
      exact ⟨L, stable, stable _ _ inv (.perform (Ne.symm same) granted performs) holds, safe⟩

theorem Sound.granted {next : I.Res action → Prog I ε Unit}
    (sound : P.Sound c) (alive : c.processes pid = some (.act action next)) : P.grants pid c.toShared action :=
  Standing.granted sound.safe sound.inv alive

variable (admits : P.Admits calls)
include admits

variable (sound : P.Sound c)
include sound

theorem Sound.step (step : Step calls allowed c c') : P.Sound c' := by
  obtain ⟨inv, safe⟩ := Standing.step sound.safe sound.inv
    (fun call called => ⟨fun _ => True, Stable.true, trivial, admits call called _⟩) step
  exact ⟨inv, safe⟩

theorem Sound.reaches (reaches : Reaches calls allowed c c') : P.Sound c' := by
  induction reaches with
  | refl => exact sound
  | tail _ step ih => exact ih.step admits step

variable {K : Assertion M}

theorem Sound.invariant (step : ∀ {pid : ℕ} {action : I.Act} {response :
    I.Res action} {s s' : Shared M}, P.inv s → K s → P.grants pid s action → allowed s.world ⟨pid, action, response⟩ →
    Performs pid action response s s' → K s') (crash : ∀ {s : Shared M} (pid : ℕ), P.inv s → K s → K (s.crash pid))
    (start : K c.toShared) (reaches : Reaches calls allowed c c') : K c'.toShared := by
  induction reaches with
  | refl => exact start
  | @tail b d before last ih =>
    have soundness := sound.reaches admits before
    cases last with
    | spawn called => exact ih
    | crash pid => exact crash pid soundness.inv ih
    | perform alive performs meets =>
      exact step soundness.inv ih (soundness.granted alive) meets performs

theorem Sound.invariant_later (stopped : c.Stopped) (step : ∀ {pid : ℕ} {action : I.Act} {response : I.Res action}
    {s s' : Shared M}, c.spawned ≤ pid → P.inv s → K s → P.grants pid s action → allowed s.world ⟨pid, action, response⟩
    → Performs pid action response s s' → K s') (crash : ∀ {s : Shared M} (pid : ℕ), P.inv s → K s → K (s.crash pid))
    (start : K c.toShared) (reaches : Reaches calls allowed c c') : K c'.toShared := by
  suffices c.LaterThan c' ∧ K c'.toShared from this.2
  induction reaches with
  | refl => exact ⟨stopped.laterThan, start⟩
  | @tail b d before last ih =>
    have soundness := sound.reaches admits before
    refine ⟨ih.1.step last, ?_⟩
    cases last with
    | spawn called => exact ih.2
    | crash pid => exact crash pid soundness.inv ih.2
    | perform alive performs meets =>
      exact step (ih.1.actor alive) soundness.inv ih.2 (soundness.granted alive) meets performs

end Protocol
end VideoPoster.Interleaving
