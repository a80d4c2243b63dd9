import VideoPoster.Interleaving.RelyGuarantee

/-!
# What processes leave behind when they return
-/

namespace VideoPoster.Interleaving

variable {I : Interface} {M : Machine I} {ε α : Type}

open Classical in
noncomputable abbrev Machine.restrict (M : Machine I) (allowed : Condition M) : Machine I where
  World := M.World
  Oracle := M.Oracle
  exec oracle pid w action :=
    (M.exec oracle pid w action).filter fun done => decide (allowed w ⟨pid, action, done.2⟩)
  crash := M.crash

section Restrict
variable {allowed : Condition M} {calls : Set (Prog I ε Unit)} {c c' : Config M ε}

def Shared.under (s : Shared M) (allowed : Condition M) : Shared (M.restrict allowed) := ⟨s.world, s.trace⟩

def Config.under (c : Config M ε) (allowed : Condition M) : Config (M.restrict allowed) ε :=
  ⟨c.toShared.under allowed, c.processes, c.spawned⟩

theorem performs_restrict {pid : ℕ} {action : I.Act} {response : I.Res action} {s s' : Shared (M.restrict allowed)} :
    Performs pid action response s s' ↔ ∃ oracle, M.exec oracle pid s.world action = some (s'.world, response)
    ∧ allowed s.world ⟨pid, action, response⟩ ∧ s'.trace = ⟨pid, action, response⟩ :: s.trace := by
  classical
  refine exists_congr fun oracle => ?_
  rw [Option.filter_eq_some_iff, decide_eq_true_iff, and_assoc]

theorem Step.restrict (step : Step calls allowed c c') : Step calls anyStep (c.under allowed) (c'.under allowed) := by
  cases step with
  | spawn called => exact .spawn called
  | crash pid => exact .crash pid
  | @perform s' pid action response next alive performs meets =>
    obtain ⟨oracle, executed, extended⟩ := performs
    exact @Step.perform _ _ _ _ _ (c.under allowed) (s'.under allowed) pid action response next alive
      (performs_restrict.2 ⟨oracle, executed, meets, extended⟩) trivial

theorem Reaches.restrict (reaches : Reaches calls allowed c c') :
    Reaches calls anyStep (c.under allowed) (c'.under allowed) := by
  induction reaches with
  | refl => exact .refl
  | tail _ step ih => exact ih.tail step.restrict

end Restrict

def Prog.Returned : Prog I ε α → Prop
  | .act _ _ => False
  | _ => True

def Config.Returned (c : Config M ε) : Prop :=
  ∀ pid < c.spawned, ∃ program, c.processes pid = some program ∧ program.Returned

namespace Protocol
variable {P : Protocol M} {Done : ℕ → Assertion M} {calls : Set (Prog I ε Unit)} {allowed : Condition M}
  {c c' : Config M ε}

/-- Every call leads from nothing done by its process to what is done when it returns. -/
structure Concludes (P : Protocol M) (Done : ℕ → Assertion M) (calls : Set (Prog I ε Unit)) : Prop where
  start : ∀ pid s, (∀ e ∈ s.trace, e.process ≠ pid) → Done pid s
  stable : ∀ pid, P.Stable pid (Done pid)
  call : ∀ call ∈ calls, ∀ pid, P.Safe pid (Done pid) call (fun _ => Done pid) fun _ => Done pid

structure Settled (P : Protocol M) (Done : ℕ → Assertion M) (c : Config M ε) : Prop where
  inv : P.inv c.toShared
  numbered : c.Numbered
  safe : ∀ pid program, c.processes pid = some program → ∃ L, P.Stable pid L ∧ L c.toShared ∧
    P.Safe pid L program (fun _ => Done pid) fun _ => Done pid

theorem Settled.initial {world : M.World} (inv : P.inv ⟨world, []⟩) : P.Settled Done (Config.initial (ε := ε) world) :=
  ⟨inv, .initial world, fun _ _ alive => by cases alive⟩

theorem Settled.step (concludes : P.Concludes Done calls) (settled : P.Settled Done c)
    (step : Step calls allowed c c') : P.Settled Done c' := by
  obtain ⟨inv, safe⟩ := Standing.step settled.safe settled.inv (fun call called => ⟨Done c.spawned,
    concludes.stable _, concludes.start _ _ fun e member => (settled.numbered.events e member).ne,
    concludes.call call called _⟩) step
  exact ⟨inv, settled.numbered.step step, safe⟩

theorem Settled.reaches (concludes : P.Concludes Done calls) (settled : P.Settled Done c)
    (reaches : Reaches calls allowed c c') : P.Settled Done c' := by
  induction reaches with
  | refl => exact settled
  | tail _ step ih => exact ih.step concludes step

theorem Settled.done (settled : P.Settled Done c) (returned : c.Returned) {e : Event I} (member : e ∈ c.trace) :
    Done e.process c.toShared := by
  obtain ⟨program, alive, final⟩ := returned e.process (settled.numbered.events e member)
  obtain ⟨L, -, holds, safe⟩ := settled.safe _ _ alive
  cases program with
  | pure value => exact safe _ settled.inv holds
  | raise error => exact safe _ settled.inv holds
  | act action next => exact final.elim

end Protocol
end VideoPoster.Interleaving
