import Mathlib.Data.List.Sort
import Mathlib.Order.Basic

/-!
# Sorting without repetition

`std::sort` and then `std::unique`: the elements of a list in strictly ascending order. Two lists with the same
elements give the same result.
-/

namespace RttOpcua.Lib

variable {α : Type}

/-! ## `List.eraseReps` -/

section EraseReps

variable [BEq α]

theorem eraseReps_loop (l : List α) : ∀ (a : α) (acc : List α),
    List.eraseRepsBy.loop (· == ·) a l acc = acc.reverse ++ List.eraseRepsBy.loop (· == ·) a l [] := by
  induction l with
  | nil => simp [List.eraseRepsBy.loop]
  | cons b rest ih =>
      intro a acc
      simp only [List.eraseRepsBy.loop]
      cases a == b with
      | true => exact ih a acc
      | false =>
          rw [ih b (a :: acc), ih b [a]]
          simp

theorem eraseReps_cons_cons (a b : α) (l : List α) :
    (a :: b :: l).eraseReps = if a == b then (a :: l).eraseReps else a :: (b :: l).eraseReps := by
  simp only [List.eraseReps, List.eraseRepsBy, List.eraseRepsBy.loop]
  cases a == b with
  | true => rfl
  | false => exact eraseReps_loop l b [a]

theorem mem_eraseReps_cons [LawfulBEq α] {x : α} {l : List α} : ∀ a, x ∈ (a :: l).eraseReps ↔ x ∈ a :: l := by
  induction l with
  | nil => exact fun a => Iff.rfl
  | cons b rest ih =>
      intro a
      rw [eraseReps_cons_cons]
      split
      · rename_i heq
        obtain rfl := eq_of_beq heq
        rw [ih a]
        simp
      · rw [List.mem_cons, ih b, List.mem_cons (a := x) (b := a)]

theorem mem_eraseReps [LawfulBEq α] {x : α} {l : List α} : x ∈ l.eraseReps ↔ x ∈ l := by
  cases l with
  | nil => exact Iff.rfl
  | cons a rest => exact mem_eraseReps_cons a

end EraseReps

/-! ## Ascending lists -/

section Ascending

variable [Ord α] [Std.TransOrd α] [Std.LawfulEqOrd α]

/-- Where equal neighbours are one, an ascending list ascends strictly. -/
theorem pairwise_eraseReps_cons [BEq α] [LawfulBEq α] {l : List α} : ∀ a,
    (a :: l).Pairwise (fun a b => (compare a b).isLE = true) →
    (a :: l).eraseReps.Pairwise fun a b => compare a b = .lt := by
  induction l with
  | nil => exact fun a _ => List.pairwise_singleton _ _
  | cons b rest ih =>
      intro a h
      obtain ⟨hle, hrest⟩ := List.pairwise_cons.1 h
      rw [eraseReps_cons_cons]
      split
      · rename_i heq
        obtain rfl := eq_of_beq heq
        exact ih a hrest
      · rename_i hne
        have hlt : compare a b = .lt := by
          have hab := hle b (by simp)
          cases hcompare : compare a b with
          | lt => rfl
          | eq => exact absurd (Std.LawfulEqOrd.compare_eq_iff_eq.1 hcompare) (by simpa using hne)
          | gt => rw [hcompare] at hab; cases hab
        refine List.pairwise_cons.2 ⟨fun c hc => ?_, ih b hrest⟩
        rcases List.mem_cons.1 (mem_eraseReps.1 hc) with rfl | hc
        · exact hlt
        · exact Std.TransCmp.lt_of_lt_of_isLE hlt ((List.pairwise_cons.1 hrest).1 c hc)

/-- The order of `compare`. -/
abbrev AtMost (a b : α) : Prop := (compare a b).isLE = true

instance : Std.Total (AtMost (α := α)) where
  total a b := by
    have hswap : compare b a = (compare a b).swap := Std.OrientedCmp.eq_swap
    unfold AtMost
    rw [hswap]
    cases compare a b <;> simp

instance : IsTrans α AtMost where
  trans _ _ _ hab hbc := Std.TransCmp.isLE_trans hab hbc

theorem pairwise_sortUnique [BEq α] [LawfulBEq α] (l : List α) :
    (l.insertionSort fun a b => (compare a b).isLE).eraseReps.Pairwise fun a b => compare a b = .lt := by
  have hsorted : (l.insertionSort AtMost).Pairwise AtMost := List.pairwise_insertionSort AtMost l
  cases h : l.insertionSort AtMost with
  | nil => exact .nil
  | cons a rest => exact pairwise_eraseReps_cons a (h ▸ hsorted)

/-- A strictly ascending list is determined by its elements. -/
theorem eq_of_ascending {l l' : List α} (h : l.Pairwise fun a b => compare a b = .lt)
    (h' : l'.Pairwise fun a b => compare a b = .lt) (hmem : ∀ x, x ∈ l ↔ x ∈ l') : l = l' := by
  have hne : ∀ {a b : α}, compare a b = .lt → a ≠ b := by
    rintro a b hlt rfl
    have hself : compare a a = .eq := Std.ReflCmp.compare_self
    rw [hself] at hlt
    cases hlt
  refine List.Perm.eq_of_pairwise (fun a b _ _ hab hba => ?_) h h'
    ((List.perm_ext_iff_of_nodup (h.imp hne) (h'.imp hne)).2 hmem)
  have hswap : compare a b = (compare b a).swap := Std.OrientedCmp.eq_swap
  rw [hswap, hba] at hab
  cases hab

end Ascending

end RttOpcua.Lib
