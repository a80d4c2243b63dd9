import Mathlib.Data.Fintype.EquivFin
import Mathlib.Logic.Relation
import Mathlib.Order.WellFounded

/-!
# Cycles
-/

namespace VideoPoster.Paths
open Relation

variable {α : Type} {edge : α → α → Prop}

theorem exists_cycle {nodes : List α} (nonempty : nodes ≠ [])
    (goes : ∀ node ∈ nodes, ∃ other ∈ nodes, edge node other) : ∃ node ∈ nodes, TransGen edge node node := by
  by_contra none
  push Not at none
  let later : {node // node ∈ nodes} → {node // node ∈ nodes} → Prop := fun node other =>
    TransGen edge other.1 node.1
  have trans : IsTrans _ later := ⟨fun _ _ _ first second => second.trans first⟩
  have irrefl : Std.Irrefl later := ⟨fun node => none node.1 node.2⟩
  have finite : Finite {node // node ∈ nodes} := by
    refine Finite.of_surjective (fun i : Fin nodes.length => ⟨nodes.get i, List.get_mem nodes i⟩) fun node => ?_
    obtain ⟨i, is⟩ := List.mem_iff_get.mp node.2
    exact ⟨i, Subtype.ext is⟩
  obtain ⟨first, member⟩ := List.exists_mem_of_ne_nil nodes nonempty
  obtain ⟨last, -, ends⟩ :=
    (Finite.wellFounded_of_trans_of_irrefl later).has_min Set.univ ⟨⟨first, member⟩, trivial⟩
  obtain ⟨other, member, step⟩ := goes last.1 last.2
  exact ends ⟨other, member⟩ trivial (.single step)

theorem exists_next_of_cycle {node : α} (cycle : TransGen edge node node) :
    ∃ other, edge node other ∧ TransGen edge other other := by
  obtain ⟨other, step, back⟩ := TransGen.head'_iff.mp cycle
  exact ⟨other, step, .tail' back step⟩

end VideoPoster.Paths
