import RttOpcua.Model.Selector
import Mathlib.Data.List.Infix

/-!
# Paths and their segments

An escaped name has no slash and no star, and `decodeCanonicalSegment` undoes it. So a path of the object model splits
into the segments that it was made of.
-/

namespace RttOpcua.Model

/-! ## Bytes -/

/-- A test of all bytes. -/
theorem forall_byte {p : UInt8 → Bool} (h : ∀ n : Fin 256, p (UInt8.ofNat n) = true) (v : UInt8) : p v = true := by
  have hv := h ⟨v.toNat, v.toNat_lt⟩
  simpa using hv

theorem isUnreserved_ne {v : UInt8} (h : isUnreserved v = true) : v ≠ percent ∧ v ≠ slash ∧ v ≠ star := by
  have hall := forall_byte (p := fun v => !isUnreserved v || (v != percent && v != slash && v != star))
    (by decide +kernel) v
  simpa [h, and_assoc] using hall

/-- The two digits of a byte. -/
theorem hexDigit_spec (v : UInt8) :
    isUpperHexDigit (hexDigit (v >>> 4)) = true ∧ isUpperHexDigit (hexDigit (v &&& 0x0F)) = true ∧
      hexValue (hexDigit (v >>> 4)) <<< 4 ||| hexValue (hexDigit (v &&& 0x0F)) = v := by
  have hall := forall_byte (p := fun v => isUpperHexDigit (hexDigit (v >>> 4)) &&
    isUpperHexDigit (hexDigit (v &&& 0x0F)) &&
    (hexValue (hexDigit (v >>> 4)) <<< 4 ||| hexValue (hexDigit (v &&& 0x0F))) == v) (by decide +kernel) v
  simpa [and_assoc] using hall

theorem isUpperHexDigit_ne {v : UInt8} (h : isUpperHexDigit v = true) : v ≠ slash ∧ v ≠ star := by
  have hall := forall_byte (p := fun v => !isUpperHexDigit v || (v != slash && v != star)) (by decide +kernel) v
  simpa [h] using hall

/-! ## Escaped names -/

theorem mem_escapeByte {c v : UInt8} (h : c ∈ escapeByte v) : c ≠ slash ∧ c ≠ star := by
  unfold escapeByte at h
  split at h
  · rename_i hv
    obtain rfl := List.mem_singleton.1 h
    exact (isUnreserved_ne hv).2
  · obtain ⟨hhigh, hlow, -⟩ := hexDigit_spec v
    simp only [List.mem_cons, List.not_mem_nil, or_false] at h
    rcases h with rfl | rfl | rfl
    · decide
    · exact isUpperHexDigit_ne hhigh
    · exact isUpperHexDigit_ne hlow

theorem mem_escapeNodeIdSegment {c : UInt8} {name : Str} (h : c ∈ escapeNodeIdSegment name) : c ≠ slash ∧ c ≠ star := by
  unfold escapeNodeIdSegment at h
  split at h
  · have hc : c = 37 ∨ c = 48 ∨ c = 48 := by simpa [lit] using h
    rcases hc with rfl | rfl | rfl <;> decide
  · obtain ⟨v, -, hv⟩ := List.mem_flatMap.1 h
    exact mem_escapeByte hv

theorem slash_not_mem_escape (name : Str) : slash ∉ escapeNodeIdSegment name :=
  fun h => (mem_escapeNodeIdSegment h).1 rfl

theorem star_not_mem_escape (name : Str) : star ∉ escapeNodeIdSegment name :=
  fun h => (mem_escapeNodeIdSegment h).2 rfl

theorem escapeByte_ne_nil (v : UInt8) : escapeByte v ≠ [] := by
  unfold escapeByte
  split <;> simp

theorem escapeNodeIdSegment_ne_nil (name : Str) : escapeNodeIdSegment name ≠ [] := by
  unfold escapeNodeIdSegment
  split
  · decide
  · rename_i hne
    obtain ⟨v, rest, rfl⟩ := List.exists_cons_of_ne_nil hne
    simp [escapeByte_ne_nil]

/-! ## Decoding -/

theorem decodeEscapes_escapeByte (v : UInt8) (rest : Str) :
    decodeEscapes (escapeByte v ++ rest) = (decodeEscapes rest).map (v :: ·) := by
  unfold escapeByte
  split
  · rename_i hv
    have hne := (isUnreserved_ne hv).1
    rw [List.singleton_append]
    conv_lhs => unfold decodeEscapes
    exact if_pos hne
  · obtain ⟨hhigh, hlow, hvalue⟩ := hexDigit_spec v
    simp [decodeEscapes, hhigh, hlow, hvalue]

theorem decodeEscapes_flatMap (name : Str) : decodeEscapes (name.flatMap escapeByte) = some name := by
  induction name with
  | nil => rfl
  | cons v rest ih => rw [List.flatMap_cons, decodeEscapes_escapeByte, ih, Option.map_some]

/-- The empty name is escaped as the name of one zero byte. -/
theorem decodeCanonicalSegment_escape (name : Str) :
    decodeCanonicalSegment (escapeNodeIdSegment name) = some (if name = [] then [0] else name) := by
  by_cases h : name = []
  · subst h
    rfl
  · have hdecode : decodeEscapes (escapeNodeIdSegment name) = some name := by
      rw [escapeNodeIdSegment, if_neg h]
      exact decodeEscapes_flatMap name
    simp [decodeCanonicalSegment, hdecode, h]

theorem escape_of_decode {segment decoded : Str} (h : decodeCanonicalSegment segment = some decoded) :
    escapeNodeIdSegment decoded = segment := by
  unfold decodeCanonicalSegment at h
  split at h
  · split at h
    · rename_i hescape
      exact Option.some.inj h ▸ hescape
    · cases h
  · cases h

/-- Canonical segments are the escaped names. -/
theorem decodeCanonicalSegment_isSome {segment : Str} :
    (∃ decoded, decodeCanonicalSegment segment = some decoded) ↔ ∃ name, escapeNodeIdSegment name = segment := by
  constructor
  · rintro ⟨decoded, h⟩
    exact ⟨decoded, escape_of_decode h⟩
  · rintro ⟨name, rfl⟩
    exact ⟨_, decodeCanonicalSegment_escape name⟩

/-- Decoding tells canonical segments apart. -/
theorem decode_inj {a b da db : Str} (ha : decodeCanonicalSegment a = some da) (hb : decodeCanonicalSegment b = some db) :
    da = db ↔ a = b := by
  constructor
  · rintro rfl
    rw [← escape_of_decode ha, ← escape_of_decode hb]
  · rintro rfl
    exact Option.some.inj (ha.symm.trans hb)

/-! ## Splitting -/

theorem splitPath_append (a b : Str) : splitPath (a ++ slash :: b) = splitPath a ++ splitPath b :=
  List.splitOn_append_cons_self a b

theorem splitPath_of_not_mem {a : Str} (h : slash ∉ a) : splitPath a = [a] := List.splitOn_eq_singleton h

theorem splitPath_ne_nil (a : Str) : splitPath a ≠ [] := List.splitOn_ne_nil slash a

theorem splitPath_inj {a b : Str} (h : splitPath a = splitPath b) : a = b := by
  have ha : [slash].intercalate (splitPath a) = a := List.intercalate_splitOn slash
  have hb : [slash].intercalate (splitPath b) = b := List.intercalate_splitOn slash
  rw [← ha, ← hb, h]

/-- The segments of a path; the empty path has none. -/
def segments (path : Str) : List Str := if path = [] then [] else splitPath path

theorem segments_inj {a b : Str} (h : segments a = segments b) : a = b := by
  unfold segments at h
  split at h <;> split at h
  · rename_i ha hb
    rw [ha, hb]
  · exact absurd h.symm (splitPath_ne_nil b)
  · exact absurd h (splitPath_ne_nil a)
  · exact splitPath_inj h

/-! ## Resource paths -/

theorem slash_not_mem_category (kind : ResourceKind) : slash ∉ resourceCategory kind := by cases kind <;> decide

theorem resourceCategory_inj {kind kind' : ResourceKind} (h : resourceCategory kind = resourceCategory kind') :
    kind = kind' := by
  revert h
  cases kind <;> cases kind' <;> decide

/-- Categories need no escape. -/
theorem escape_resourceCategory (kind : ResourceKind) :
    escapeNodeIdSegment (resourceCategory kind) = resourceCategory kind := by
  cases kind <;> decide

theorem resourcePath_ne_nil (owner : Str) (kind : ResourceKind) (name : Str) : resourcePath owner kind name ≠ [] := by
  simp [resourcePath, appendNodeSegment]

theorem splitPath_resourcePath (owner : Str) (kind : ResourceKind) (name : Str) :
    splitPath (resourcePath owner kind name) = segments owner ++ [resourceCategory kind, escapeNodeIdSegment name] := by
  have hcategory := splitPath_of_not_mem (slash_not_mem_category kind)
  have hname := splitPath_of_not_mem (slash_not_mem_escape name)
  unfold resourcePath appendNodeSegment segments
  rw [splitPath_append, hname]
  split
  · rw [List.nil_append, hcategory]
    rfl
  · rw [List.append_assoc, List.singleton_append, splitPath_append, hcategory, List.append_assoc]
    rfl

theorem segments_resourcePath (owner : Str) (kind : ResourceKind) (name : Str) :
    segments (resourcePath owner kind name) = segments owner ++ [resourceCategory kind, escapeNodeIdSegment name] := by
  rw [segments, if_neg (resourcePath_ne_nil owner kind name), splitPath_resourcePath]

/-- A resource path determines its owner and its kind. -/
theorem resourcePath_inj {owner owner' : Str} {kind kind' : ResourceKind} {name name' : Str}
    (h : resourcePath owner kind name = resourcePath owner' kind' name') : owner = owner' ∧ kind = kind' := by
  have hsegments := congrArg segments h
  rw [segments_resourcePath, segments_resourcePath] at hsegments
  obtain ⟨howner, htail⟩ := List.append_inj' hsegments rfl
  simp only [List.cons.injEq, and_true] at htail
  exact ⟨segments_inj howner, resourceCategory_inj htail.1⟩

end RttOpcua.Model
