import Mathlib.Data.Finset.Card
import Mathlib.Logic.Relation

/-!
# Working through a list
-/

namespace VideoPoster.Paths
open Finset List
variable {α : Type} [DecidableEq α]

def sweep (next : α → List α) : Finset α → List α → Finset α
  | todo, [] => todo
  | todo, node :: stack =>
    if node ∈ todo then sweep next (todo.erase node) (next node ++ stack) else sweep next todo stack
termination_by todo stack => (todo.card, stack.length)
decreasing_by
  · exact Prod.Lex.left _ _ (card_erase_lt_of_mem ‹_›)
  · exact Prod.Lex.right _ (Nat.lt_succ_self _)

variable {next : α → List α} {todo : Finset α} {stack : List α} {node other : α}

theorem sweep_subset : sweep next todo stack ⊆ todo := by
  fun_induction sweep next todo stack with
  | case1 todo => exact subset_rfl
  | case2 todo node stack member ih => exact ih.trans (erase_subset _ _)
  | case3 todo node stack absent ih => exact ih

theorem not_mem_sweep_of_stack (pending : node ∈ stack) : node ∉ sweep next todo stack := by
  fun_induction sweep next todo stack with
  | case1 todo => cases pending
  | case2 todo first stack member ih =>
    rcases mem_cons.mp pending with rfl | later
    · exact fun left => notMem_erase _ _ (sweep_subset left)
    · exact ih (mem_append_right _ later)
  | case3 todo first stack absent ih =>
    rcases mem_cons.mp pending with rfl | later
    · exact fun left => absent (sweep_subset left)
    · exact ih later

theorem not_mem_sweep_of_next (member : node ∈ todo) (done : node ∉ sweep next todo stack)
    (edge : other ∈ next node) : other ∉ sweep next todo stack := by
  fun_induction sweep next todo stack with
  | case1 todo => exact absurd member done
  | case2 todo first stack _ ih =>
    by_cases same : node = first
    · subst same
      exact not_mem_sweep_of_stack (mem_append_left _ edge)
    · exact ih (mem_erase.mpr ⟨same, member⟩) done
  | case3 todo first stack _ ih => exact ih member done

abbrev Through (next : α → List α) (todo : Finset α) : α → α → Prop :=
  Relation.ReflTransGen fun node other => other ∈ next node ∧ other ∈ todo

theorem exists_through (member : node ∈ todo) (done : node ∉ sweep next todo stack) :
    ∃ first ∈ stack, first ∈ todo ∧ Through next todo first node := by
  fun_induction sweep next todo stack with
  | case1 todo => exact absurd member done
  | case2 todo first stack inside ih =>
    by_cases same : node = first
    · subst same
      exact ⟨node, .head _, inside, .refl⟩
    obtain ⟨source, pending, left, way⟩ := ih (mem_erase.mpr ⟨same, member⟩) done
    have way : Through next todo source node :=
      Relation.ReflTransGen.mono (fun _ _ step => ⟨step.1, mem_of_mem_erase step.2⟩) _ _ way
    have left := mem_of_mem_erase left
    rcases mem_append.mp pending with neighbour | later
    · exact ⟨first, .head _, inside, .head ⟨neighbour, left⟩ way⟩
    · exact ⟨source, .tail _ later, left, way⟩
  | case3 todo first stack _ ih =>
    obtain ⟨source, pending, left, way⟩ := ih member done
    exact ⟨source, .tail _ pending, left, way⟩

theorem not_mem_sweep_iff : node ∈ todo ∧ node ∉ sweep next todo stack ↔
    ∃ first ∈ stack, first ∈ todo ∧ Through next todo first node := by
  constructor
  · rintro ⟨member, done⟩
    exact exists_through member done
  · rintro ⟨first, pending, inside, way⟩
    induction way with
    | refl => exact ⟨inside, not_mem_sweep_of_stack pending⟩
    | tail _ step ih => exact ⟨step.2, not_mem_sweep_of_next ih.1 ih.2 step.1⟩

end VideoPoster.Paths
