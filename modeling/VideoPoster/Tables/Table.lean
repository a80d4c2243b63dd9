import Mathlib.Algebra.BigOperators.Group.List.Basic
import Mathlib.Algebra.Order.BigOperators.Group.List
import Mathlib.Data.List.Nodup
import Mathlib.Data.List.Perm.Basic
import Mathlib.Tactic.Abel

/-!
# Tables with a primary key
-/

namespace VideoPoster.Tables
open List

structure Table {κ ρ : Type} (key : ρ → κ) where
  rows : List ρ
  unique : (rows.map key).Nodup

namespace Table
variable {κ ρ : Type} {key : ρ → κ}

instance : Membership ρ (Table key) := ⟨fun t row => row ∈ t.rows⟩

def empty : Table key := ⟨[], by simp⟩

variable {t : Table key} {row : ρ}

theorem mem_rows : row ∈ t.rows ↔ row ∈ t := Iff.rfl

theorem eq_of_key {a b : ρ} (ha : a ∈ t) (hb : b ∈ t) (equal : key a = key b) : a = b :=
  inj_on_of_nodup_map t.unique ha hb equal

section Lookup
variable [DecidableEq κ]

def find? (t : Table key) (k : κ) : Option ρ := t.rows.find? fun row => key row = k

def put (t : Table key) (row : ρ) : Table key where
  rows := row :: t.rows.filter fun other => key other ≠ key row
  unique := by
    simp only [map_cons, nodup_cons, mem_map, mem_filter]
    refine ⟨?_, t.unique.sublist (filter_sublist.map key)⟩
    rintro ⟨other, ⟨-, distinct⟩, equal⟩
    simp [equal] at distinct

variable {k : κ}

theorem find?_eq_some : t.find? k = some row ↔ row ∈ t ∧ key row = k := by
  constructor
  · intro found
    exact ⟨mem_of_find?_eq_some found, by simpa using find?_some found⟩
  · rintro ⟨member, rfl⟩
    cases found : t.find? (key row) with
    | none =>
      have absent := find?_eq_none.mp found row member
      simp at absent
    | some other =>
      have other_mem : other ∈ t := mem_of_find?_eq_some found
      have other_key : key other = key row := by simpa using find?_some found
      rw [eq_of_key other_mem member other_key]

theorem find?_eq_none : t.find? k = none ↔ ∀ row ∈ t, key row ≠ k := by
  simp [find?, mem_rows]

theorem mem_put {other : ρ} : other ∈ t.put row ↔ other = row ∨ other ∈ t ∧ key other ≠ key row := by
  change other ∈ (t.put row).rows ↔ _
  simp [put, mem_rows]

@[simp]
theorem find?_put_self (t : Table key) (row : ρ) : (t.put row).find? (key row) = some row :=
  find?_eq_some.mpr ⟨mem_put.2 (.inl rfl), rfl⟩

theorem find?_put_of_ne (t : Table key) (distinct : k ≠ key row) : (t.put row).find? k = t.find? k := by
  cases found : t.find? k with
  | none =>
    rw [find?_eq_none] at found ⊢
    intro other member
    rcases mem_put.1 member with rfl | ⟨old, -⟩
    · exact Ne.symm distinct
    · exact found other old
  | some other =>
    obtain ⟨member, rfl⟩ := find?_eq_some.mp found
    exact find?_eq_some.mpr ⟨mem_put.2 (.inr ⟨member, distinct⟩), rfl⟩

theorem find?_put (t : Table key) (row : ρ) (k : κ) :
    (t.put row).find? k = if k = key row then some row else t.find? k := by
  split_ifs with same
  · rw [same, find?_put_self]
  · exact find?_put_of_ne t same

theorem put_put (t : Table key) {other : ρ} (same : key other = key row) : (t.put row).put other = t.put other := by
  unfold put
  simp only [Table.mk.injEq, cons.injEq, true_and]
  rw [filter_cons_of_neg (by simp [same]), filter_filter]
  exact filter_congr fun third _ => by simp [same]

theorem find?_of_put_eq_none (absent : (t.put row).find? k = none) : t.find? k = none := by
  rw [find?_put] at absent
  split_ifs at absent
  exact absent

def delete (t : Table key) (k : κ) : Table key where
  rows := t.rows.filter fun row => key row ≠ k
  unique := t.unique.sublist (filter_sublist.map key)

theorem mem_delete : row ∈ t.delete k ↔ row ∈ t ∧ key row ≠ k := by
  change row ∈ (t.delete k).rows ↔ _
  simp [delete, mem_rows]

theorem find?_delete (t : Table key) (k l : κ) : (t.delete k).find? l = if l = k then none else t.find? l := by
  split_ifs with same
  · rw [find?_eq_none]
    intro row member equal
    exact (mem_delete.1 member).2 (equal.trans same)
  · cases found : t.find? l with
    | none =>
      rw [find?_eq_none] at found ⊢
      intro row member
      exact found row (mem_delete.1 member).1
    | some row =>
      obtain ⟨member, rfl⟩ := find?_eq_some.mp found
      exact find?_eq_some.mpr ⟨mem_delete.2 ⟨member, same⟩, rfl⟩

end Lookup

/-- `UPDATE` of every row; the key stays. -/
def map (t : Table key) (f : ρ → ρ) (same : ∀ row, key (f row) = key row) : Table key where
  rows := t.rows.map f
  unique := by
    rw [map_map]
    exact (map_congr_left fun row _ => same row) ▸ t.unique

variable {f : ρ → ρ}

theorem mem_map (same : ∀ row, key (f row) = key row) : row ∈ t.map f same ↔ ∃ old ∈ t, f old = row := by
  change row ∈ (t.map f same).rows ↔ _
  simp [map, mem_rows]

theorem find?_map [DecidableEq κ] (t : Table key) (same : ∀ row, key (f row) = key row)
    (k : κ) : (t.map f same).find? k = (t.find? k).map f := by
  cases found : t.find? k with
  | none =>
    rw [find?_eq_none] at found
    refine find?_eq_none.mpr fun row member => ?_
    obtain ⟨old, oldMember, rfl⟩ := (mem_map same).mp member
    rw [same]
    exact found old oldMember
  | some old =>
    obtain ⟨member, rfl⟩ := find?_eq_some.mp found
    exact find?_eq_some.mpr ⟨(mem_map same).mpr ⟨old, member, rfl⟩, same old⟩

section Sums
variable {μ : Type} [AddCommMonoid μ]

def sum (t : Table key) (f : ρ → μ) : μ := (t.rows.map f).sum

@[simp]
theorem sum_empty (f : ρ → μ) : (empty : Table key).sum f = 0 := rfl

section Updates
variable [DecidableEq κ]

theorem sum_put_new (f : ρ → μ) (absent : t.find? (key row) = none) : (t.put row).sum f = f row + t.sum f := by
  have all : t.rows.filter (fun other => key other ≠ key row) = t.rows :=
    filter_eq_self.mpr fun other member => by
      simpa using find?_eq_none.mp absent other member
  simp only [sum, put, all, map_cons, sum_cons]

variable {old : ρ}

theorem sum_put_replace (f : ρ → μ)
    (found : t.find? (key row) = some old) : (t.put row).sum f + f old = t.sum f + f row := by
  obtain ⟨member, same⟩ := find?_eq_some.mp found
  have perm : t.rows.Perm (old :: t.rows.filter fun other => key other ≠ key row) := by
    refine (perm_ext_iff_of_nodup (.of_map key t.unique) ?_).mpr fun other => ?_
    · exact nodup_cons.mpr ⟨by simp [same], (List.Nodup.of_map key t.unique).filter _⟩
    · constructor
      · intro h
        by_cases k : key other = key row
        · exact mem_cons.mpr (.inl (eq_of_key h member (k.trans same.symm)))
        · exact mem_cons.mpr (.inr (by simp [h, k]))
      · intro h
        rcases mem_cons.mp h with rfl | h
        · exact member
        · exact (mem_filter.mp h).1
  have total : t.sum f = f old + ((t.rows.filter fun other => key other ≠ key row).map f).sum := by
    rw [sum, (perm.map f).sum_eq, map_cons, sum_cons]
  rw [total]
  simp only [sum, put, map_cons, sum_cons]
  abel

theorem sum_put_same {ν : Type} [AddCancelCommMonoid ν] (f : ρ → ν)
    (found : t.find? (key row) = some old) (same : f row = f old) : (t.put row).sum f = t.sum f := by
  have balance := sum_put_replace f found
  rw [same] at balance
  exact add_right_cancel balance

theorem sum_put_le {ν : Type} [AddCommMonoid ν] [PartialOrder ν] [IsOrderedCancelAddMonoid ν]
    (f : ρ → ν) (found : t.find? (key row) = some old) (le : f row ≤ f old) : (t.put row).sum f ≤ t.sum f := by
  have balance := sum_put_replace f found
  refine le_of_add_le_add_right (a := f old) ?_
  rw [balance]
  exact add_le_add_right le _

end Updates

theorem sum_map (same : ∀ row, key (f row) = key row) (g : ρ → μ) :
    (t.map f same).sum g = t.sum fun row => g (f row) := by
  simp [sum, map, map_map, Function.comp_def]

theorem sum_congr {f g : ρ → μ} (equal : ∀ row ∈ t, f row = g row) : t.sum f = t.sum g := by
  simp only [sum]
  rw [map_congr_left equal]

theorem sum_le_sum {ν : Type} [AddCommMonoid ν]
    [PartialOrder ν] [IsOrderedAddMonoid ν] {f g : ρ → ν} (le : ∀ row ∈ t, f row ≤ g row) : t.sum f ≤ t.sum g :=
  List.sum_le_sum le

end Sums
end Table
end VideoPoster.Tables
