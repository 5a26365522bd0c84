import Mathlib.Data.Finset.Card
import Mathlib.Data.List.Dedup
import Mathlib.Logic.Relation

/-!
# Worklist searches

Items are found once, and wait in a list until their successors have been looked up. A search whose successors stay
in a finite set ends after as many rounds as the set has items, and one more; what it has found is what can be reached.
-/

namespace RttOpcua.Lib.Worklist

open Relation

variable {α : Type} [DecidableEq α]

/-- What has not been found before, each item once. -/
def fresh (found successors : List α) : List α := successors.dedup.filter (· ∉ found)

/-- The search, for as many rounds as there is fuel. The lookup of successors may fail. -/
def search (next : α → Option (List α)) : Nat → List α → List α → Option (List α)
  | _, [], found => some found
  | 0, _ :: _, _ => none
  | fuel + 1, x :: pending, found =>
      match next x with
      | none => none
      | some successors =>
          search next fuel ((fresh found successors).reverse ++ pending) (found ++ fresh found successors)

/-- `y` is found when the successors of `x` are looked up. -/
def Successor (next : α → Option (List α)) (x y : α) : Prop := ∃ successors, next x = some successors ∧ y ∈ successors

variable {next : α → Option (List α)} {root x : α} {pending found successors : List α} {bound : Finset α} {fuel : Nat}

theorem mem_fresh {y : α} : y ∈ fresh found successors ↔ y ∈ successors ∧ y ∉ found := by simp [fresh]

theorem fresh_nodup : (fresh found successors).Nodup := (List.nodup_dedup _).filter _

/-! ## Rounds -/

/-- The rounds that are left: one for each item that waits or can still be found. -/
def rounds (bound : Finset α) (pending found : List α) : Nat := pending.length + (bound \ found.toFinset).card

/-- A round takes one item off and adds as many as it finds. -/
theorem rounds_round (h : ∀ y ∈ successors, y ∈ bound) :
    rounds bound ((fresh found successors).reverse ++ pending) (found ++ fresh found successors) + 1 =
      rounds bound (x :: pending) found := by
  have hsubset : (fresh found successors).toFinset ⊆ bound \ found.toFinset := by
    intro y hy
    obtain ⟨hy, hnew⟩ := mem_fresh.1 (List.mem_toFinset.1 hy)
    simpa [hnew] using h y hy
  have hleft : bound \ (found ++ fresh found successors).toFinset =
      (bound \ found.toFinset) \ (fresh found successors).toFinset := by
    rw [List.toFinset_append]
    ext y
    simp only [Finset.mem_union, Finset.mem_sdiff]
    tauto
  have hcard := Finset.card_sdiff_add_card_eq_card hsubset
  rw [List.toFinset_card_of_nodup fresh_nodup] at hcard
  simp only [rounds, hleft, List.length_append, List.length_reverse, List.length_cons]
  omega

/-- With fuel for all rounds the result does not depend on it. -/
theorem search_fuel (hbound : ∀ x y, Successor next x y → y ∈ bound) :
    ∀ {fuel fuel' : Nat} {pending found : List α}, rounds bound pending found ≤ fuel →
      rounds bound pending found ≤ fuel' → search next fuel pending found = search next fuel' pending found := by
  intro fuel
  induction fuel with
  | zero =>
      intro fuel' pending found h h'
      cases pending with
      | nil => simp [search]
      | cons x pending => simp [rounds] at h
  | succ fuel ih =>
      intro fuel' pending found h h'
      cases pending with
      | nil => simp [search]
      | cons x pending =>
          obtain ⟨fuel', rfl⟩ : ∃ n, fuel' = n + 1 := ⟨fuel' - 1, by simp only [rounds, List.length_cons] at h'; omega⟩
          cases hnext : next x with
          | none => simp [search, hnext]
          | some successors =>
              have hround : rounds bound ((fresh found successors).reverse ++ pending)
                  (found ++ fresh found successors) + 1 = rounds bound (x :: pending) found :=
                rounds_round fun y hy => hbound x y ⟨successors, hnext, hy⟩
              simp only [search, hnext]
              exact ih (by omega) (by omega)

/-! ## What is found -/

/-- The state of a search from `root`: everything found can be reached, and what was looked up has its successors
found. -/
structure Searching (next : α → Option (List α)) (root : α) (pending found : List α) : Prop where
  reached : ∀ y ∈ found, TransGen (Successor next) root y
  waiting : ∀ x ∈ pending, x = root ∨ x ∈ found
  expanded : ∀ x, x = root ∨ x ∈ found → x ∉ pending → ∀ y, Successor next x y → y ∈ found
  nodup : found.Nodup

omit [DecidableEq α] in
theorem Searching.init (root : α) : Searching next root [root] [] := by
  refine ⟨by simp, by simp, fun x hx hnot => ?_, List.nodup_nil⟩
  simp_all

omit [DecidableEq α] in
theorem Searching.reach (h : Searching next root pending found) (hx : x = root ∨ x ∈ found) :
    ReflTransGen (Successor next) root x := by
  rcases hx with rfl | hx
  · exact .refl
  · exact (h.reached x hx).to_reflTransGen

theorem Searching.round (h : Searching next root (x :: pending) found) (hnext : next x = some successors) :
    Searching next root ((fresh found successors).reverse ++ pending) (found ++ fresh found successors) where
  reached y hy := by
    rcases List.mem_append.1 hy with hy | hy
    · exact h.reached y hy
    · exact .tail' (h.reach (h.waiting x (by simp))) ⟨successors, hnext, (mem_fresh.1 hy).1⟩
  waiting y hy := by
    rcases List.mem_append.1 hy with hy | hy
    · exact .inr (List.mem_append_right _ (List.mem_reverse.1 hy))
    · exact (h.waiting y (List.mem_cons_of_mem x hy)).imp_right (List.mem_append_left _)
  expanded z hz hnot y hy := by
    obtain ⟨hfresh, hpending⟩ : z ∉ fresh found successors ∧ z ∉ pending := by simpa using hnot
    have hz : z = root ∨ z ∈ found := hz.imp_right fun hmem => (List.mem_append.1 hmem).resolve_right hfresh
    by_cases hzx : z = x
    · obtain ⟨ys, hys, hy⟩ := hy
      rw [hzx, hnext] at hys
      cases hys
      by_cases hold : y ∈ found
      · exact List.mem_append_left _ hold
      · exact List.mem_append_right _ (mem_fresh.2 ⟨hy, hold⟩)
    · exact List.mem_append_left _ (h.expanded z hz (by simp [hzx, hpending]) y hy)
  nodup := by
    refine List.nodup_append.2 ⟨h.nodup, fresh_nodup, ?_⟩
    rintro y hy z hz rfl
    exact (mem_fresh.1 hz).2 hy

omit [DecidableEq α] in
/-- When nothing waits any more, everything that can be reached is found. -/
theorem Searching.mem_iff (h : Searching next root [] found) (y : α) : y ∈ found ↔ TransGen (Successor next) root y := by
  constructor
  · exact h.reached y
  · intro hreach
    induction hreach with
    | single hstep => exact h.expanded root (.inl rfl) (by simp) _ hstep
    | tail _ hstep ih => exact h.expanded _ (.inr ih) (by simp) _ hstep

/-- A search with fuel for all rounds ends with all that it can find, or with a failed lookup. -/
theorem search_cases (hbound : ∀ x y, Successor next x y → y ∈ bound) :
    ∀ {fuel : Nat} {pending found : List α}, Searching next root pending found → rounds bound pending found ≤ fuel →
      (∃ x, ReflTransGen (Successor next) root x ∧ next x = none ∧ search next fuel pending found = none) ∨
        ∃ found', search next fuel pending found = some found' ∧ Searching next root [] found' := by
  intro fuel
  induction fuel with
  | zero =>
      intro pending found h hfuel
      cases pending with
      | nil => exact .inr ⟨found, by simp [search], h⟩
      | cons x pending => simp [rounds] at hfuel
  | succ fuel ih =>
      intro pending found h hfuel
      cases pending with
      | nil => exact .inr ⟨found, by simp [search], h⟩
      | cons x pending =>
          cases hnext : next x with
          | none => exact .inl ⟨x, h.reach (h.waiting x (by simp)), hnext, by simp [search, hnext]⟩
          | some successors =>
              have hround : rounds bound ((fresh found successors).reverse ++ pending)
                  (found ++ fresh found successors) + 1 = rounds bound (x :: pending) found :=
                rounds_round fun y hy => hbound x y ⟨successors, hnext, hy⟩
              simp only [search, hnext]
              exact ih (h.round hnext) (by omega)

end RttOpcua.Lib.Worklist
