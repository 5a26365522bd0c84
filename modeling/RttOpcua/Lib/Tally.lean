import Mathlib.Data.Set.Card
import Mathlib.Logic.Function.Basic

/-!
# Tallies

Places that hold at most one token each, and a counter for each kind of token. The counters tally if
each is the number of places that hold its token. Taking, dropping and moving a token keep a tally, and
a token that is held is counted, so dropping it never takes the counter below zero.
-/

namespace RttOpcua.Lib

variable {π κ : Type} [DecidableEq π] [DecidableEq κ]

/-- Counter `n k` is the number of places that hold `k`. -/
def Tally (f : π → Option κ) (n : κ → Nat) : Prop := ∀ k, {p | f p = some k}.encard = n k

namespace Tally

variable {f : π → Option κ} {n : κ → Nat} {p q : π} {k : κ}

omit [DecidableEq π] [DecidableEq κ] in
theorem pos (h : Tally f n) (hp : f p = some k) : 0 < n k := by
  refine Nat.pos_of_ne_zero fun hz => ?_
  have he := h k
  rw [hz, Nat.cast_zero, Set.encard_eq_zero] at he
  have hmem : p ∈ {p | f p = some k} := hp
  rw [he] at hmem
  exact hmem

omit [DecidableEq π] [DecidableEq κ] in
theorem zero_iff (h : Tally f n) : n k = 0 ↔ ∀ p, f p ≠ some k := by
  constructor
  · intro hz p hp
    have := h.pos hp
    omega
  · intro hno
    have he : {p | f p = some k} = ∅ := Set.eq_empty_iff_forall_notMem.mpr hno
    simpa [he] using (h k).symm

theorem take (h : Tally f n) (hp : f p = none) :
    Tally (Function.update f p (some k)) (Function.update n k (n k + 1)) := by
  intro j
  by_cases hj : j = k
  · subst hj
    have he : {p' | Function.update f p (some j) p' = some j} = insert p {p' | f p' = some j} := by
      ext p'
      by_cases hp' : p' = p <;> simp [hp']
    have hnot : p ∉ {p' | f p' = some j} := by simp [hp]
    rw [he, Set.encard_insert_of_notMem hnot, h j]
    simp
  · have he : {p' | Function.update f p (some k) p' = some j} = {p' | f p' = some j} := by
      ext p'
      by_cases hp' : p' = p
      · subst hp'; simp [hp, Ne.symm hj]
      · simp [hp']
    rw [he, h j]
    simp [hj]

theorem drop (h : Tally f n) (hp : f p = some k) :
    Tally (Function.update f p none) (Function.update n k (n k - 1)) := by
  intro j
  by_cases hj : j = k
  · subst hj
    have he : {p' | f p' = some j} = insert p {p' | Function.update f p none p' = some j} := by
      ext p'
      by_cases hp' : p' = p
      · subst hp'; simp [hp]
      · simp [hp']
    have hnot : p ∉ {p' | Function.update f p none p' = some j} := by simp
    have hcard := h j
    rw [he, Set.encard_insert_of_notMem hnot] at hcard
    have hpos := h.pos hp
    have hfin : {p' | Function.update f p none p' = some j}.encard ≠ ⊤ := by
      intro htop
      rw [htop] at hcard
      exact absurd hcard (by simp)
    obtain ⟨m, hm⟩ := ENat.ne_top_iff_exists.mp hfin
    rw [← hm] at hcard ⊢
    have hsum : m + 1 = n j := by exact_mod_cast hcard
    simp only [Function.update_self]
    congr 1
    omega
  · have he : {p' | Function.update f p none p' = some j} = {p' | f p' = some j} := by
      ext p'
      by_cases hp' : p' = p
      · subst hp'; simp [hp, Ne.symm hj]
      · simp [hp']
    rw [he, h j]
    simp [hj]

omit [DecidableEq κ] in
theorem move (h : Tally f n) (hp : f p = some k) (hq : f q = none) :
    Tally (Function.update (Function.update f p none) q (some k)) n := by
  classical
  have hdrop := h.drop hp
  have hqp : q ≠ p := by rintro rfl; simp [hq] at hp
  have htake := hdrop.take (p := q) (k := k) (by simp [hqp, hq])
  have hpos := h.pos hp
  have he : Function.update (Function.update n k (n k - 1)) k
      (Function.update n k (n k - 1) k + 1) = n := by
    ext j
    by_cases hj : j = k
    · subst hj; simp; omega
    · simp [hj]
  rw [he] at htake
  exact htake

end Tally

end RttOpcua.Lib
