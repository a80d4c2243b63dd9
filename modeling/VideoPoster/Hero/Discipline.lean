import VideoPoster.Interleaving.Outcomes
import VideoPoster.Hero.Provider

/-!
# The discipline of a hero request
-/

namespace VideoPoster.Hero
open Python Interleaving Option Prod

def Status.Final (status : Status) : Prop := status = .completed ∨ status = .failed

section
variable (P : Provider)

def Priced (response : Json) : Prop :=
  ∀ id, parseStatus response id = .ok .completed → ∀ job error, actualCost P job response = .error error →
    error.kind ≠ .valueError

def Agrees (checkpoint : Option Checkpoint) (response : Json) : Prop :=
  ∀ file ∈ checkpoint, file.status.Final → ∀ status, parseStatus response file.providerId = .ok status →
    status = file.status ∨ status = .completed

def NoValueError {α : Type} (answer : Result α) : Prop := ∀ error, answer = .error error → error.kind ≠ .valueError

/-- No cancellation is carried out for a job that is recorded to be done, the provider does not take back that it is
done, and the place of the clip is free or holds the clip. -/
def careful : Condition machine := fun w e =>
  match e with
  | ⟨_, .load .cancelOnce, found⟩ => ∀ file ∈ found, ¬ file.status.Final
  | ⟨_, .submit, answer⟩ => ∀ response, answer = .ok response → Priced P response
  | ⟨_, .status _, answer⟩ => ∀ response, answer = .ok response → Priced P response ∧ Agrees w.checkpoint response
  | ⟨_, .look expected, found⟩ => found = .absent ∨ found = .regular expected
  | ⟨_, .download _ _, answer⟩ => NoValueError answer
  | ⟨_, .link _, answer⟩ => NoValueError answer
  | ⟨_, .save _, answer⟩ => NoValueError answer
  | _ => True

noncomputable abbrev carefulMachine : Machine actions := machine.restrict (careful P)

def claims : Event actions → Bool
  | ⟨_, .claim _, .ok true⟩ => true
  | _ => false

def submits : Event actions → Bool
  | ⟨_, .submit, _⟩ => true
  | _ => false

inductive Tells (response : Json) : Event actions → Prop
  | submit (pid : ℕ) (id : String) (completed : parseStatus response id = .ok .completed) :
      Tells response ⟨pid, .submit, .ok response⟩
  | status (pid : ℕ) (providerId id : String) (completed : parseStatus response id = .ok .completed) :
      Tells response ⟨pid, .status providerId, .ok response⟩

inductive Refutes : Event actions → Prop
  | declared {response : Json} {error : Error} {e : Event actions} (tells : Tells response e)
      (malformed : declared P response = .error error) : Refutes e
  | download (pid : ℕ) (url expected : String) (content : Option String) (other : content ≠ some expected) :
      Refutes ⟨pid, .download url expected, .ok content⟩

def Refuted (pid : ℕ) (trace : List (Event actions)) : Prop := ∃ e ∈ trace, e.process = pid ∧ Refutes P e

def Heard (pid : ℕ) (response : Json) (trace : List (Event actions)) : Prop :=
  Priced P response ∧ ∃ e ∈ trace, e.process = pid ∧ Tells response e

structure Stored (output : Output) (file : Checkpoint) : Prop where
  path : file.resultPath = P.target
  valid : validSha256 file.resultSha256 = true
  output : output = .regular file.resultSha256
  cost : ∃ cost : Decimal, file.actualCost = P.text cost ∧ cost.isFinite = true ∧ 0 ≤ cost.toRat

structure Sane (output : Output) (file : Checkpoint) : Prop where
  claimed : file.cancelClaimed = true → ¬ file.status.Final
  named : file.providerId = "" ∨ validId file.providerId = true
  started : file.providerId = "" → file.status = .submitting
  result : file.resultPath ≠ "" → Stored P output file

structure Inv (s : Shared (carefulMachine P)) : Prop where
  claims : s.trace.countP claims = if s.world.checkpoint.isSome then 1 else 0
  submits : ∀ pid, countBy submits pid s.trace ≤ countBy Hero.claims pid s.trace
  file : ∀ file, s.world.checkpoint = some file → Sane P s.world.output file

structure Replaces (pid : ℕ) (s : Shared (carefulMachine P)) (file new : Checkpoint) : Prop where
  mine : file.providerId = "" → 0 < countBy claims pid s.trace
  same : file.providerId ≠ "" → new.providerId = file.providerId
  claimed : file.cancelClaimed = true → new.cancelClaimed = true
  final : file.status.Final → new.status = .completed ∨
    new.status = .failed ∧ (file.status = .failed ∨ Refuted P pid s.trace)
  sane : Sane P s.world.output new

def grants (pid : ℕ) (s : Shared (carefulMachine P)) : Act → Prop
  | .save new => ∃ file, s.world.checkpoint = some file ∧ Replaces P pid s file new
  | .claim new => Sane P s.world.output new
  | .submit => countBy submits pid s.trace < countBy claims pid s.trace
  | _ => True

end

section Effect
variable {P : Provider} {pid : ℕ} {action : Act} {response : action.Res} {s s' : Shared (carefulMachine P)}

def Act.Awaits : Act → Prop
  | .begin | .submit | .status _ | .cancel _ | .download _ _ | .sleep _ => True
  | _ => False

def Effect (w w' : World) : (action : Act) → action.Res → Prop
  | .load _, found => w' = w ∧ found = w.checkpoint
  | .save new, answer => answer = .ok () ∧ w' = { w with checkpoint := some new } ∨ (∃ error, answer = .error error) ∧ w' = w
  | .claim new, answer =>
    answer = .ok true ∧ w.checkpoint = none ∧ w' = { w with checkpoint := some new } ∨ answer ≠ .ok true ∧ w' = w
  | .look _, found => w' = w ∧ found = w.output
  | .link sha256, answer =>
    answer = .ok true ∧ w.output = .absent ∧ w' = { w with output := .regular sha256 } ∨
      w' = w ∧ answer ≠ .ok true ∧ (answer = .ok false → w.output ≠ .absent)
  | .time, _ | .remember _, _ => w' = w
  | .suspend, _ => w' = { w with turn := none }
  | .begin, _ | .submit, _ | .status _, _ | .cancel _, _ | .download _ _, _ | .sleep _, _ => True

structure Done (pid : ℕ) (action : Act) (response : action.Res) (s s' : Shared (carefulMachine P)) : Prop where
  trace : s'.trace = ⟨pid, action, response⟩ :: s.trace
  careful : careful P s.world ⟨pid, action, response⟩
  turn : ¬ action.Awaits → s.world.turn = some pid
  wakes : action.Awaits → s.world.turn = none ∧ s'.world = { s.world with turn := some pid }
  effect : Effect s.world s'.world action response

theorem done_of_performs (performs : Performs pid action response s s') : Done pid action response s s' := by
  obtain ⟨oracle, executed, careful, trace⟩ := performs_restrict.mp performs
  have woken {answer : action.Res} (is : (if s.world.turn = none then some ({ s.world with turn := some pid }, answer)
      else none) = some (s'.world, response)) : s.world.turn = none ∧ s'.world = { s.world with turn := some pid } := by
    split_ifs at is with free
    exact ⟨free, (mk.inj (some.inj is)).1.symm⟩
  have own {α : Type} {x y : α} (is : (if s.world.turn = some pid then some x else none) = some y) :
      s.world.turn = some pid ∧ x = y := by
    split_ifs at is with mine
    exact ⟨mine, some.inj is⟩
  cases action with
  | begin => exact ⟨trace, careful, fun idle => absurd trivial idle, fun _ => woken executed, trivial⟩
  | submit => exact ⟨trace, careful, fun idle => absurd trivial idle, fun _ => woken executed, trivial⟩
  | status providerId => exact ⟨trace, careful, fun idle => absurd trivial idle, fun _ => woken executed, trivial⟩
  | cancel providerId => exact ⟨trace, careful, fun idle => absurd trivial idle, fun _ => woken executed, trivial⟩
  | download url expected => exact ⟨trace, careful, fun idle => absurd trivial idle, fun _ => woken executed, trivial⟩
  | sleep seconds => exact ⟨trace, careful, fun idle => absurd trivial idle, fun _ => woken executed, trivial⟩
  | suspend =>
    obtain ⟨mine, is⟩ := own executed
    exact ⟨trace, careful, fun _ => mine, nofun, (mk.inj is).1.symm⟩
  | load reader =>
    obtain ⟨mine, is⟩ := own executed
    obtain ⟨world, found⟩ := mk.inj is
    exact ⟨trace, careful, fun _ => mine, nofun, world.symm, found.symm⟩
  | save new =>
    obtain ⟨mine, is⟩ := own executed
    refine ⟨trace, careful, fun _ => mine, nofun, ?_⟩
    rcases written_eq is with ⟨world, failed⟩ | ⟨world, ok⟩
    · refine .inr ⟨?_, world⟩
      cases response with
      | ok value => exact absurd rfl failed
      | error error => exact ⟨error, rfl⟩
    · exact .inl ⟨ok, world⟩
  | claim new =>
    have mine : s.world.turn = some pid := by
      by_contra other
      simp only [exec, if_neg other] at executed
      cases executed
    refine ⟨trace, careful, fun _ => mine, nofun, ?_⟩
    simp only [exec, if_pos mine] at executed
    split at executed
    · obtain ⟨world, rfl⟩ := mk.inj (some.inj executed)
      exact .inr ⟨by simp, world.symm⟩
    · rename_i absent
      split at executed
      · obtain ⟨world, rfl⟩ := mk.inj (some.inj executed)
        exact .inl ⟨rfl, absent, world.symm⟩
      · obtain ⟨world, rfl⟩ := mk.inj (some.inj executed)
        exact .inr ⟨nofun, world.symm⟩
  | time =>
    obtain ⟨mine, is⟩ := own executed
    exact ⟨trace, careful, fun _ => mine, nofun, (mk.inj is).1.symm⟩
  | remember providerId =>
    obtain ⟨mine, is⟩ := own executed
    exact ⟨trace, careful, fun _ => mine, nofun, (mk.inj is).1.symm⟩
  | look expected =>
    obtain ⟨mine, is⟩ := own executed
    obtain ⟨world, found⟩ := mk.inj is
    exact ⟨trace, careful, fun _ => mine, nofun, world.symm, found.symm⟩
  | link sha256 =>
    have mine : s.world.turn = some pid := by
      by_contra other
      simp only [exec, if_neg other] at executed
      cases executed
    refine ⟨trace, careful, fun _ => mine, nofun, ?_⟩
    simp only [exec, if_pos mine] at executed
    split at executed
    · obtain ⟨world, rfl⟩ := mk.inj (some.inj executed)
      exact .inr ⟨world.symm, nofun, nofun⟩
    · rename_i absent
      obtain ⟨world, rfl⟩ := mk.inj (some.inj executed)
      exact .inl ⟨rfl, absent, world.symm⟩
    · rename_i present
      obtain ⟨world, rfl⟩ := mk.inj (some.inj executed)
      exact .inr ⟨world.symm, by simp, fun _ => present⟩

theorem Done.output (done : Done pid action response s s') (there : s.world.output ≠ .absent) :
    s'.world.output = s.world.output := by
  have awake (awaits : action.Awaits) : s'.world.output = s.world.output := by rw [(done.wakes awaits).2]
  have effect := done.effect
  cases action with
  | link sha256 =>
    rcases effect with ⟨-, absent, -⟩ | ⟨same, -⟩
    · exact absurd absent there
    · rw [same]
  | save new => rcases effect with ⟨-, same⟩ | ⟨-, same⟩ <;> rw [same]
  | claim new => rcases effect with ⟨-, -, same⟩ | ⟨-, same⟩ <;> rw [same]
  | load reader => rw [effect.1]
  | look expected => rw [effect.1]
  | time => rw [show s'.world = s.world from effect]
  | remember providerId => rw [show s'.world = s.world from effect]
  | suspend => rw [show s'.world = { s.world with turn := none } from effect]
  | begin => exact awake trivial
  | submit => exact awake trivial
  | status providerId => exact awake trivial
  | cancel providerId => exact awake trivial
  | download url expected => exact awake trivial
  | sleep seconds => exact awake trivial

theorem Done.checkpoint (done : Done pid action response s s') : (∃ new, action = .save new ∧
    s'.world = { s.world with checkpoint := some new }) ∨ (∃ new, action = .claim new ∧ claims ⟨pid, action, response⟩ =
    true ∧ s.world.checkpoint = none ∧ s'.world = { s.world with checkpoint := some new })
    ∨ claims ⟨pid, action, response⟩ = false ∧ s'.world.checkpoint = s.world.checkpoint := by
  have awake (awaits : action.Awaits) : s'.world.checkpoint = s.world.checkpoint := by rw [(done.wakes awaits).2]
  have effect := done.effect
  cases action with
  | save new =>
    rcases effect with ⟨-, same⟩ | ⟨-, same⟩
    · exact .inl ⟨new, rfl, same⟩
    · exact .inr (.inr ⟨rfl, by rw [same]⟩)
  | claim new =>
    rcases effect with ⟨rfl, absent, same⟩ | ⟨failed, same⟩
    · exact .inr (.inl ⟨new, rfl, rfl, absent, same⟩)
    · refine .inr (.inr ⟨?_, by rw [same]⟩)
      unfold claims
      split
      · rename_i is
        cases is
        exact absurd rfl failed
      · rfl
  | link sha256 => rcases effect with ⟨-, -, same⟩ | ⟨same, -⟩ <;> exact .inr (.inr ⟨rfl, by rw [same]⟩)
  | load reader => exact .inr (.inr ⟨rfl, by rw [effect.1]⟩)
  | look expected => exact .inr (.inr ⟨rfl, by rw [effect.1]⟩)
  | time => exact .inr (.inr ⟨rfl, by rw [show s'.world = s.world from effect]⟩)
  | remember providerId => exact .inr (.inr ⟨rfl, by rw [show s'.world = s.world from effect]⟩)
  | suspend => exact .inr (.inr ⟨rfl, by rw [show s'.world = { s.world with turn := none } from effect]⟩)
  | begin => exact .inr (.inr ⟨rfl, awake trivial⟩)
  | submit => exact .inr (.inr ⟨rfl, awake trivial⟩)
  | status providerId => exact .inr (.inr ⟨rfl, awake trivial⟩)
  | cancel providerId => exact .inr (.inr ⟨rfl, awake trivial⟩)
  | download url expected => exact .inr (.inr ⟨rfl, awake trivial⟩)
  | sleep seconds => exact .inr (.inr ⟨rfl, awake trivial⟩)

theorem Stored.later {file : Checkpoint}
    (stored : Stored P s.world.output file) (done : Done pid action response s s') : Stored P s'.world.output file := by
  have there : s.world.output ≠ .absent := by
    rw [stored.output]
    nofun
  exact ⟨stored.path, stored.valid, (done.output there).trans stored.output, stored.cost⟩

theorem Sane.later {file : Checkpoint} (sane : Sane P s.world.output file) (done : Done pid action response s s') :
    Sane P s'.world.output file :=
  ⟨sane.claimed, sane.named, sane.started, fun has => (sane.result has).later done⟩

theorem isSome_checkpoint (granted : grants P pid s action) (done : Done pid action response s s') :
    s'.world.checkpoint.isSome = (s.world.checkpoint.isSome || claims ⟨pid, action, response⟩) ∧
      (claims ⟨pid, action, response⟩ = true → s.world.checkpoint = none) := by
  rcases done.checkpoint with ⟨new, rfl, same⟩ | ⟨new, -, claims, absent, same⟩ | ⟨unclaimed, same⟩
  · obtain ⟨file, found, -⟩ := granted
    rw [same, found]
    exact ⟨rfl, nofun⟩
  · rw [same, absent, claims]
    exact ⟨rfl, fun _ => rfl⟩
  · rw [same, unclaimed, Bool.or_false]
    exact ⟨rfl, nofun⟩

theorem submits_eq_true {e : Event actions} (is : submits e = true) : e.action = .submit := by
  unfold submits at is
  split at is
  · rfl
  · cases is

theorem Inv.step (inv : Inv P s) (granted : grants P pid s action) (performs : Performs pid action response s s') :
    Inv P s' := by
  have done := done_of_performs performs
  obtain ⟨there, fresh⟩ := isSome_checkpoint granted done
  refine ⟨?_, fun actor => ?_, fun file found => ?_⟩
  · rw [done.trace, List.countP_cons, inv.claims, there]
    cases is : Hero.claims ⟨pid, action, response⟩ with
    | false => simp
    | true => simp [fresh is]
  · rw [performs.countBy, performs.countBy]
    have before := inv.submits actor
    by_cases is : (Hero.submits ⟨pid, action, response⟩ && decide (pid = actor)) = true
    · obtain ⟨submitted, own⟩ := Bool.and_eq_true_iff.mp is
      obtain rfl := of_decide_eq_true own
      obtain rfl : action = .submit := submits_eq_true submitted
      have fewer : countBy Hero.submits pid s.trace < countBy Hero.claims pid s.trace := granted
      rw [if_pos is]
      omega
    · rw [if_neg is]
      omega
  · rcases done.checkpoint with ⟨new, rfl, same⟩ | ⟨new, rfl, -, -, same⟩ | ⟨-, same⟩
    · obtain ⟨old, -, replaces⟩ := granted
      rw [same] at found
      cases found
      exact replaces.sane.later done
    · rw [same] at found
      cases found
      exact Sane.later granted done
    · rw [same] at found
      exact (inv.file file found).later done

theorem Inv.crash (pid : ℕ) (inv : Inv P s) : Inv P (s.crash pid) := ⟨inv.claims, inv.submits, inv.file⟩

end Effect

noncomputable def discipline (P : Provider) : Protocol (carefulMachine P) where
  inv := Inv P
  grants := grants P
  preserves inv granted performs := inv.step granted performs
  survives pid inv := inv.crash pid

theorem Inv.initial {P : Provider} {output : Output} : Inv P ⟨⟨none, output, none⟩, []⟩ :=
  ⟨rfl, fun _ => le_rfl, nofun⟩

section Lasting
variable {P : Provider} {pid : ℕ} {id : String} {state : Checkpoint}

theorem stable_turn {F : Assertion (carefulMachine P)} :
    (discipline P).Stable pid fun s => s.world.turn = some pid ∧ F s := by
  intro s s' _ step holds
  cases step with
  | @perform other action response _ _ foreign _ performs =>
    exfalso
    have done := done_of_performs performs
    by_cases awaits : action.Awaits
    · exact nomatch (done.wakes awaits).1.symm.trans holds.1
    · exact foreign (some.inj ((done.turn awaits).symm.trans holds.1))
  | @crash other _ foreign =>
    have same : s.crash other = s := by
      have free : s.world.turn ≠ some other := fun taken => foreign (some.inj (taken.symm.trans holds.1))
      show (⟨World.crash other s.world, s.trace⟩ : Shared (carefulMachine P)) = s
      rw [World.crash, if_neg free]
    rw [same]
    exact holds

def Bound (id : String) (w : World) : Prop := ∃ file, w.checkpoint = some file ∧ file.providerId = id

structure Copied (P : Provider) (id : String) (state : Checkpoint) (w : World) : Prop where
  named : state.providerId = id
  file : ∃ file, w.checkpoint = some file ∧ file.providerId = id ∧
    (state.cancelClaimed = true → file.cancelClaimed = true) ∧ (state.status.Final → file.status.Final)
  result : state.resultPath ≠ "" → Stored P w.output state

theorem Copied.bound {w : World} (copied : Copied P id state w) : Bound id w := by
  obtain ⟨file, found, same, -⟩ := copied.file
  exact ⟨file, found, same⟩

theorem Copied.of_checkpoint {s : Shared (carefulMachine P)} (inv : Inv P s) (found : s.world.checkpoint = some state)
    (named : state.providerId = id) : Copied P id state s.world :=
  ⟨named, ⟨state, found, named, fun is => is, fun is => is⟩, (inv.file state found).result⟩

variable {actor : ℕ} {action : Act} {response : action.Res} {s s' : Shared (carefulMachine P)}

theorem Copied.step (known : id ≠ "") (copied : Copied P id state s.world) (granted : grants P actor s action)
    (performs : Performs actor action response s s') : Copied P id state s'.world := by
  have done := done_of_performs performs
  obtain ⟨file, found, same, claimed, final⟩ := copied.file
  refine ⟨copied.named, ?_, fun has => (copied.result has).later done⟩
  rcases done.checkpoint with ⟨new, rfl, now⟩ | ⟨new, -, -, absent, -⟩ | ⟨-, now⟩
  · obtain ⟨old, was, replaces⟩ := granted
    cases was.symm.trans found
    refine ⟨new, by rw [now], ?_, fun is => replaces.claimed (claimed is), fun is => ?_⟩
    · rw [replaces.same (same ▸ known), same]
    · rcases replaces.final (final is) with completed | ⟨failed, -⟩
      · exact .inl completed
      · exact .inr failed
  · exact nomatch absent.symm.trans found
  · exact ⟨file, by rw [now, found], same, claimed, final⟩

theorem stable_copied (known : id ≠ "") : (discipline P).Stable pid fun s => Copied P id state s.world := by
  intro s s' _ step copied
  cases step with
  | perform _ granted performs => exact copied.step known granted performs
  | crash _ => exact ⟨copied.named, copied.file, copied.result⟩

theorem stable_bound (known : id ≠ "") : (discipline P).Stable pid fun s => Bound id s.world := by
  intro s s' inv step bound
  obtain ⟨file, found, same⟩ := bound
  exact (stable_copied known s s' inv step (Copied.of_checkpoint inv found same)).bound

structure Pending (pid : ℕ) (state : Checkpoint) (s : Shared (carefulMachine P)) : Prop where
  file : s.world.checkpoint = some state
  unnamed : state.providerId = ""
  mine : countBy submits pid s.trace < countBy claims pid s.trace

theorem claimer_unique (inv : Inv P s)
    (mine : 0 < countBy claims pid s.trace) (theirs : 0 < countBy claims actor s.trace) : actor = pid := by
  by_contra different
  have both := countBy_add_le claims different s.trace
  have one := inv.claims
  split_ifs at one <;> omega

theorem stable_pending : (discipline P).Stable pid (Pending pid state) := by
  intro s s' inv step pending
  cases step with
  | crash _ => exact ⟨pending.file, pending.unnamed, pending.mine⟩
  | @perform other action response _ _ foreign granted performs =>
    have done := done_of_performs performs
    refine ⟨?_, pending.unnamed, ?_⟩
    · rcases done.checkpoint with ⟨new, rfl, -⟩ | ⟨new, -, -, absent, -⟩ | ⟨-, same⟩
      · obtain ⟨old, was, replaces⟩ := granted
        cases was.symm.trans pending.file
        exact absurd (claimer_unique inv (Nat.zero_lt_of_lt pending.mine) (replaces.mine pending.unnamed)) foreign
      · exact nomatch absent.symm.trans pending.file
      · rw [same, pending.file]
    · rw [performs.countBy, performs.countBy]
      simp only [decide_eq_false foreign, Bool.and_false, Bool.false_eq_true, if_false, Nat.add_zero]
      exact pending.mine

end Lasting

end VideoPoster.Hero
