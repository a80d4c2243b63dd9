import Mathlib.Data.List.DropRight

/-!
# Milestones along a path
-/

namespace VideoPoster.Paths
open List
variable {σ : Type}

def since (reset : σ → Bool) (path : List σ) : List σ := path.rtakeWhile fun node => !reset node

@[simp]
theorem since_nil (reset : σ → Bool) : since reset [] = [] := rfl

theorem since_concat (reset : σ → Bool) (path : List σ) (node : σ) :
    since reset (path ++ [node]) = if reset node then [] else since reset path ++ [node] := by
  unfold since
  rw [rtakeWhile_concat]
  cases reset node <;> rfl

theorem since_sublist (reset : σ → Bool) (path : List σ) : (since reset path).Sublist path :=
  (rtakeWhile_suffix _ path).sublist

theorem split_since {reset : σ → Bool} {path : List σ} (passed : ∃ node ∈ path, reset node) : ∃ before node,
    reset node ∧ path = before ++ node :: since reset path ∧ ∀ later ∈ since reset path, reset later = false := by
  induction path using reverseRecOn with
  | nil => simp at passed
  | append_singleton path last ih =>
    rw [since_concat]
    cases now : reset last with
    | true => exact ⟨path, last, now, by simp, by simp⟩
    | false =>
      obtain ⟨node, member, isReset⟩ := passed
      have earlier : node ∈ path := by
        rcases mem_append.1 member with member | member
        · exact member
        · rw [mem_singleton.1 member, now] at isReset
          cases isReset
      obtain ⟨before, node, isReset, split, none⟩ := ih ⟨node, earlier, isReset⟩
      refine ⟨before, node, isReset, ?_, ?_⟩
      · simp only [Bool.false_eq_true, if_false]
        nth_rewrite 1 [split]
        simp
      · intro later member
        simp only [Bool.false_eq_true, if_false, mem_append, mem_singleton] at member
        rcases member with member | rfl
        · exact none later member
        · exact now

/-- `Follows edge counts start path now`: along `path` every node that counts was entered by an
edge from the one that counted before it, and `now` is the last of these. -/
inductive Follows (edge : σ → σ → Prop) (counts : σ → Bool) (start : σ) : List σ → σ → Prop
  | start : Follows edge counts start [] start
  | move {path : List σ} {now next : σ} : Follows edge counts start path now →
      counts next = true → edge now next → Follows edge counts start (path ++ [next]) next
  | aside {path : List σ} {now node : σ} : Follows edge counts start path now →
      counts node = false → Follows edge counts start (path ++ [node]) now

structure Milestones (edge : σ → σ → Prop) (reset : σ → Bool) where
  owed : σ → List σ
  step : ∀ now next, edge now next →
    (owed next).Sublist (if reset next then [] else owed now ++ [next])

theorem Milestones.passed {edge : σ → σ → Prop} {counts reset : σ → Bool} {start now : σ} {path : List σ} (milestones :
    Milestones edge reset) (clear : milestones.owed start = []) (asides : ∀ node, counts node = false → reset node =
    false) (follows : Follows edge counts start path now) : (milestones.owed now).Sublist (since reset path) := by
  induction follows with
  | start => rw [clear, since_nil]
  | @move path now next _ _ moved ih =>
    have owed := milestones.step now next moved
    rw [since_concat]
    cases isReset : reset next with
    | true => simpa [isReset] using owed
    | false =>
      rw [isReset] at owed
      exact owed.trans (ih.append_right [next])
  | @aside path now node _ out ih =>
    rw [since_concat, asides node out]
    exact ih.trans (sublist_append_left _ _)

end VideoPoster.Paths
