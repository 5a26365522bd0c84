import RttOpcua.Model.Lemmas.Path

/-!
# Unambiguous segments

Which lists of names `makeNodePath` tells apart, and which strings `decodeCanonicalSegment` accepts. The latter reads
by index; here a read past the end is a result of its own.
-/

namespace RttOpcua.Model

/-! ## Names -/

/-- The empty name and the name of one zero byte are not told apart. -/
def SameSegment (a b : Str) : Prop := a = b ∨ (a = [] ∧ b = [0]) ∨ (a = [0] ∧ b = [])

theorem sameSegment_iff (a b : Str) :
    SameSegment a b ↔ (if a = [] then [0] else a) = (if b = [] then [0] else b) := by
  unfold SameSegment
  by_cases ha : a = []
  all_goals by_cases hb : b = []
  all_goals simp [ha, hb, eq_comm]

theorem escape_eq_iff (a b : Str) : escapeNodeIdSegment a = escapeNodeIdSegment b ↔ SameSegment a b := by
  rw [sameSegment_iff]
  constructor
  · intro h
    have hdecode := congrArg decodeCanonicalSegment h
    rw [decodeCanonicalSegment_escape, decodeCanonicalSegment_escape] at hdecode
    exact Option.some.inj hdecode
  · intro h
    rw [← escape_of_decode (decodeCanonicalSegment_escape a), h]
    exact escape_of_decode (decodeCanonicalSegment_escape b)

theorem splitPath_foldl (names : List Str) (path : Str) :
    splitPath (names.foldl appendNodeSegment path) = splitPath path ++ names.map escapeNodeIdSegment := by
  induction names generalizing path with
  | nil => simp
  | cons name rest ih =>
      rw [List.foldl_cons, ih, appendNodeSegment, splitPath_append,
        splitPath_of_not_mem (slash_not_mem_escape name), List.map_cons, List.append_assoc]
      rfl

/-- A path determines the escaped names it was made of. -/
theorem makeNodePath_eq_iff (s t : List Str) :
    makeNodePath s = makeNodePath t ↔ s.map escapeNodeIdSegment = t.map escapeNodeIdSegment := by
  constructor
  · intro h
    have hsplit := congrArg splitPath h
    rw [makeNodePath, makeNodePath, splitPath_foldl, splitPath_foldl] at hsplit
    exact List.append_cancel_left hsplit
  · intro h
    apply splitPath_inj
    rw [makeNodePath, makeNodePath, splitPath_foldl, splitPath_foldl, h]

/-! ## Reads -/

/-- The loop of `decodeCanonicalSegment` from `index` on; the outer `none` is a read past the end. -/
def decodeFrom (segment : Str) (index : Nat) (decoded : Str) : Option (Option Str) :=
  if index < segment.length then
    segment[index]?.bind fun c =>
      if c ≠ percent then decodeFrom segment (index + 1) (decoded ++ [c])
      else if index + 2 ≥ segment.length then some none
      else
        segment[index + 1]?.bind fun high =>
          if ¬ isUpperHexDigit high then some none
          else
            segment[index + 2]?.bind fun low =>
              if ¬ isUpperHexDigit low then some none
              else decodeFrom segment (index + 3) (decoded ++ [hexValue high <<< 4 ||| hexValue low])
  else some (some decoded)
termination_by segment.length - index

theorem decodeEscapes_plain {c : UInt8} (h : c ≠ percent) (rest : Str) :
    decodeEscapes (c :: rest) = (decodeEscapes rest).map (c :: ·) := by
  conv_lhs => unfold decodeEscapes
  exact if_pos h

theorem decodeEscapes_escape (high low : UInt8) (rest : Str) :
    decodeEscapes (percent :: high :: low :: rest) =
      if isUpperHexDigit high && isUpperHexDigit low then
        (decodeEscapes rest).map ((hexValue high <<< 4 ||| hexValue low) :: ·)
      else none := by
  conv_lhs => unfold decodeEscapes
  exact if_neg (not_not_intro rfl)

theorem decodeEscapes_truncated {rest : Str} (h : rest.length ≤ 1) : decodeEscapes (percent :: rest) = none := by
  cases rest with
  | nil => rfl
  | cons high rest =>
      cases rest with
      | nil => rfl
      | cons low rest => simp at h

/-- No read is past the end, and the loop does what `decodeEscapes` does with the rest. -/
theorem decodeFrom_eq (segment : Str) : ∀ n index decoded, segment.length - index = n →
    decodeFrom segment index decoded = some ((decodeEscapes (segment.drop index)).map (decoded ++ ·)) := by
  intro n
  induction n using Nat.strongRecOn with
  | ind n ih =>
      intro index decoded hn
      unfold decodeFrom
      by_cases hlt : index < segment.length
      · rw [if_pos hlt, List.getElem?_eq_getElem hlt, Option.bind_some, List.drop_eq_getElem_cons hlt]
        by_cases hplain : segment[index] = percent
        · rw [if_neg (not_not_intro hplain), hplain]
          by_cases hend : index + 2 ≥ segment.length
          · rw [if_pos hend, decodeEscapes_truncated (by rw [List.length_drop]; omega), Option.map_none]
          · have hhigh : index + 1 < segment.length := by omega
            have hlow : index + 2 < segment.length := by omega
            rw [if_neg hend, List.getElem?_eq_getElem hhigh, Option.bind_some, List.getElem?_eq_getElem hlow,
              Option.bind_some, List.drop_eq_getElem_cons hhigh, List.drop_eq_getElem_cons hlow, decodeEscapes_escape,
              ih _ (by omega) (index + 3) _ rfl]
            by_cases h : isUpperHexDigit segment[index + 1] = true
            all_goals by_cases h' : isUpperHexDigit segment[index + 2] = true
            all_goals simp [h, h', Function.comp_def]
        · rw [if_pos hplain, decodeEscapes_plain hplain, ih _ (by omega) (index + 1) _ rfl]
          simp [Function.comp_def]
      · rw [if_neg hlt, List.drop_eq_nil_of_le (by omega)]
        simp [decodeEscapes]

/-! ## Both directions -/

/-- Two lists of names have the same path exactly if they agree position by position, up to the empty name and the name
of one zero byte. `decodeCanonicalSegment` accepts exactly the escaped names, gives back the name it came from, and
never reads past the end. -/
theorem escaping_unambiguous (s t : List Str) :
    (makeNodePath s = makeNodePath t ↔ List.Forall₂ SameSegment s t) ∧
    (∀ segment, (∃ decoded, decodeCanonicalSegment segment = some decoded) ↔ ∃ name, escapeNodeIdSegment name = segment) ∧
    (∀ name, ∃ decoded, decodeCanonicalSegment (escapeNodeIdSegment name) = some decoded ∧ SameSegment decoded name) ∧
    (∀ segment, decodeFrom segment 0 [] = some (decodeEscapes segment)) := by
  refine ⟨?_, fun segment => decodeCanonicalSegment_isSome, fun name => ?_, fun segment => ?_⟩
  · rw [makeNodePath_eq_iff, ← List.forall₂_eq_eq_eq, List.forall₂_map_left_iff, List.forall₂_map_right_iff]
    simp only [escape_eq_iff]
  · refine ⟨_, decodeCanonicalSegment_escape name, (sameSegment_iff _ _).2 ?_⟩
    by_cases h : name = []
    all_goals simp [h]
  · rw [decodeFrom_eq segment _ 0 [] rfl]
    simp

end RttOpcua.Model
