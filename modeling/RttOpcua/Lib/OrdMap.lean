import Mathlib.Data.List.Basic
import Mathlib.Order.Basic

/-!
# Ordered maps

`std::map` and `std::set`: a list of entries whose keys strictly ascend, so that a map is determined by
what it finds (`OrdMap.ext_find`) and iteration is in the order of the keys.
-/

namespace RttOpcua.Lib

variable {α β : Type} [Ord α]

/-! ## Lists of entries -/

section Entries

def insertEntry (k : α) (v : β) : List (α × β) → List (α × β)
  | [] => [(k, v)]
  | e :: rest =>
      match compare k e.1 with
      | .lt => (k, v) :: e :: rest
      | .eq => (k, v) :: rest
      | .gt => e :: insertEntry k v rest

def findEntry [DecidableEq α] (k : α) : List (α × β) → Option β
  | [] => none
  | e :: rest => if k = e.1 then some e.2 else findEntry k rest

/-- The keys strictly ascend. -/
def Ascending (l : List (α × β)) : Prop := l.Pairwise fun a b => compare a.1 b.1 = .lt

theorem mem_insertEntry {k : α} {v : β} {l : List (α × β)} {e : α × β} (h : e ∈ insertEntry k v l) :
    e = (k, v) ∨ e ∈ l := by
  induction l with
  | nil => simpa [insertEntry] using h
  | cons d rest ih =>
      simp only [insertEntry] at h
      split at h
      all_goals simp only [List.mem_cons] at h ⊢
      all_goals grind

theorem Ascending.filter {l : List (α × β)} (h : Ascending l) (p : α × β → Bool) : Ascending (l.filter p) :=
  List.Pairwise.filter p h

theorem Ascending.insertEntry [Std.TransOrd α] {k : α} {v : β} {l : List (α × β)} (h : Ascending l) :
    Ascending (insertEntry k v l) := by
  induction l with
  | nil => simp [Ascending, Lib.insertEntry]
  | cons d rest ih =>
      obtain ⟨hd, hrest⟩ := List.pairwise_cons.mp h
      simp only [Lib.insertEntry]
      split
      case h_1 hlt =>
        refine List.pairwise_cons.mpr ⟨fun e he => ?_, h⟩
        obtain rfl | he := List.mem_cons.mp he
        · exact hlt
        · exact Std.TransCmp.lt_trans hlt (hd e he)
      case h_2 heq =>
        refine List.pairwise_cons.mpr ⟨fun e he => ?_, hrest⟩
        exact Std.TransCmp.lt_of_eq_of_lt heq (hd e he)
      case h_3 hgt =>
        refine List.pairwise_cons.mpr ⟨fun e he => ?_, ih hrest⟩
        obtain rfl | he := mem_insertEntry he
        · exact Std.OrientedCmp.lt_of_gt hgt
        · exact hd e he

variable [Std.LawfulEqOrd α]

theorem Ascending.ne_head {d e : α × β} {rest : List (α × β)} (h : Ascending (d :: rest)) (he : e ∈ rest) :
    e.1 ≠ d.1 := by
  intro heq
  have := (List.pairwise_cons.mp h).1 e he
  simp [heq] at this

theorem Ascending.nodup {l : List (α × β)} (h : Ascending l) : l.Nodup :=
  h.imp fun hlt heq => by simp [heq] at hlt

variable [DecidableEq α]

theorem findEntry_insertEntry (k k' : α) (v : β) (l : List (α × β)) :
    findEntry k' (insertEntry k v l) = if k' = k then some v else findEntry k' l := by
  induction l with
  | nil => simp [insertEntry, findEntry]
  | cons d rest ih =>
      simp only [insertEntry]
      split
      case h_1 => simp [findEntry]
      case h_2 heq =>
        have : k = d.1 := by simpa using heq
        simp only [findEntry, this]
        split <;> rfl
      case h_3 hgt =>
        have hne : k ≠ d.1 := by
          rintro rfl
          simp at hgt
        simp only [findEntry, ih]
        grind

omit [Std.LawfulEqOrd α] [Ord α] in
theorem findEntry_none {k : α} {l : List (α × β)} (h : ∀ e ∈ l, k ≠ e.1) : findEntry k l = none := by
  induction l with
  | nil => rfl
  | cons d rest ih =>
      simp only [findEntry, if_neg (h d (by simp))]
      exact ih fun e he => h e (by simp [he])

omit [Std.LawfulEqOrd α] [Ord α] in
theorem mem_of_findEntry {k : α} {v : β} {l : List (α × β)} (h : findEntry k l = some v) : (k, v) ∈ l := by
  induction l with
  | nil => simp [findEntry] at h
  | cons d rest ih =>
      simp only [findEntry] at h
      split at h
      case isTrue heq =>
        obtain rfl := Option.some.inj h
        exact List.mem_cons.mpr (.inl (by rw [heq]))
      case isFalse => exact List.mem_cons_of_mem _ (ih h)

theorem Ascending.findEntry_of_mem {k : α} {v : β} {l : List (α × β)} (h : Ascending l) (hm : (k, v) ∈ l) :
    findEntry k l = some v := by
  induction l with
  | nil => simp at hm
  | cons d rest ih =>
      simp only [findEntry]
      obtain rfl | hm := List.mem_cons.mp hm
      · simp
      · rw [if_neg (h.ne_head hm)]
        exact ih (List.pairwise_cons.mp h).2 hm

/-- Ascending lists with the same entries are equal. -/
theorem Ascending.eq_of_findEntry [Std.TransOrd α] {l l' : List (α × β)} (h : Ascending l) (h' : Ascending l')
    (hf : ∀ k, findEntry k l = findEntry k l') : l = l' := by
  have hmem : ∀ e, e ∈ l ↔ e ∈ l' := fun e =>
    ⟨fun he => mem_of_findEntry ((hf e.1).symm.trans (h.findEntry_of_mem he)),
      fun he => mem_of_findEntry ((hf e.1).trans (h'.findEntry_of_mem he))⟩
  have hperm : l.Perm l' := (List.perm_ext_iff_of_nodup h.nodup h'.nodup).mpr hmem
  unfold Ascending at h h'
  refine List.Perm.eq_of_pairwise ?_ h h' hperm
  intro a b _ _ hab hba
  exact absurd hba (Std.OrientedCmp.not_lt_of_lt hab)

end Entries

/-! ## Maps -/

structure OrdMap (α β : Type) [Ord α] where
  entries : List (α × β)
  sorted : Ascending entries

namespace OrdMap

def keys (m : OrdMap α β) : List α := m.entries.map Prod.fst

def size (m : OrdMap α β) : Nat := m.entries.length

def empty : OrdMap α β := ⟨[], List.Pairwise.nil⟩

instance : EmptyCollection (OrdMap α β) := ⟨empty⟩

instance : Inhabited (OrdMap α β) := ⟨empty⟩

instance [DecidableEq α] [DecidableEq β] : DecidableEq (OrdMap α β) := fun m n =>
  decidable_of_iff (m.entries = n.entries) (by cases m; cases n; simp)

/-- The same keys with other values. -/
def map {γ : Type} (f : β → γ) (m : OrdMap α β) : OrdMap α γ :=
  ⟨m.entries.map fun e => (e.1, f e.2), List.pairwise_map.mpr (m.sorted.imp id)⟩

variable [DecidableEq α]

/-- `find`. -/
def find? (m : OrdMap α β) (k : α) : Option β := findEntry k m.entries

def contains (m : OrdMap α β) (k : α) : Bool := (m.find? k).isSome

/-- `erase`. -/
def erase (m : OrdMap α β) (k : α) : OrdMap α β := ⟨m.entries.filter fun e => k ≠ e.1, m.sorted.filter _⟩

section Insert

variable [Std.TransOrd α] (m : OrdMap α β) (k : α) (v : β)

/-- `insert_or_assign`. -/
def insertOrAssign : OrdMap α β := ⟨insertEntry k v m.entries, m.sorted.insertEntry⟩

/-- `emplace`: nothing changes if the key is there. -/
def emplace : OrdMap α β := if m.contains k then m else m.insertOrAssign k v

end Insert

section Lemmas

variable {m n : OrdMap α β} {k k' : α} {v : β}

@[simp]
theorem find?_empty : (∅ : OrdMap α β).find? k = none := rfl

theorem find?_map {γ : Type} (f : β → γ) : (m.map f).find? k = (m.find? k).map f := by
  simp only [find?, map]
  induction m.entries with
  | nil => rfl
  | cons e rest ih =>
      simp only [List.map_cons, findEntry, ih]
      split <;> rfl

theorem contains_map {γ : Type} (f : β → γ) : (m.map f).contains k = m.contains k := by
  simp [contains, find?_map]

variable [Std.LawfulEqOrd α]

theorem mem_entries : (k, v) ∈ m.entries ↔ m.find? k = some v :=
  ⟨m.sorted.findEntry_of_mem, mem_of_findEntry⟩

theorem mem_keys : k ∈ m.keys ↔ m.contains k = true := by
  simp only [keys, List.mem_map, contains, Option.isSome_iff_exists, Prod.exists]
  constructor
  · rintro ⟨k', v, hm, rfl⟩
    exact ⟨v, mem_entries.mp hm⟩
  · rintro ⟨v, hv⟩
    exact ⟨k, v, mem_entries.mpr hv, rfl⟩

omit [DecidableEq α] in
theorem keys_nodup : m.keys.Nodup :=
  List.pairwise_map.mpr (List.Pairwise.imp (fun hlt heq => by simp [heq] at hlt) m.sorted)

@[simp, grind =]
theorem find?_erase : (m.erase k).find? k' = if k' = k then none else m.find? k' := by
  split
  case isTrue h =>
    subst h
    refine findEntry_none fun e he heq => ?_
    simp [erase, heq] at he
  case isFalse h =>
    cases hf : m.find? k' with
    | none =>
        refine findEntry_none fun e he heq => ?_
        have hm : e ∈ m.entries := List.mem_of_mem_filter he
        have hsome := mem_entries.mp (show (k', e.2) ∈ m.entries by subst heq; exact hm)
        simp [hf] at hsome
    | some v =>
        refine (m.erase k).sorted.findEntry_of_mem (List.mem_filter.mpr ⟨mem_entries.mpr hf, ?_⟩)
        simpa using fun heq : k = k' => h heq.symm

variable [Std.TransOrd α]

@[simp, grind =]
theorem find?_insertOrAssign :
    (m.insertOrAssign k v).find? k' = if k' = k then some v else m.find? k' :=
  findEntry_insertEntry k k' v m.entries

@[grind =]
theorem find?_emplace :
    (m.emplace k v).find? k' = if k' = k ∧ m.contains k = false then some v else m.find? k' := by
  unfold emplace
  split
  case isTrue h => simp [h]
  case isFalse h => simp [h]

/-- Inserting a new key adds one entry. -/
theorem perm_insertOrAssign (h : m.contains k = false) : (m.insertOrAssign k v).entries.Perm ((k, v) :: m.entries) := by
  have hkeys : ∀ e ∈ m.entries, e.1 ≠ k := by
    rintro e he rfl
    have := mem_keys.mp (List.mem_map_of_mem he)
    simp [h] at this
  simp only [insertOrAssign]
  revert hkeys
  induction m.entries with
  | nil => exact fun _ => .refl _
  | cons e rest ih =>
      intro hkeys
      simp only [insertEntry]
      split
      · exact .refl _
      · rename_i heq
        exact absurd (by simpa using heq : k = e.1).symm (hkeys e (by simp))
      · exact (List.Perm.cons e (ih fun e' he' => hkeys e' (by simp [he']))).trans (.swap _ _ _)

/-- A map is what it finds. -/
theorem ext_find (h : ∀ k, m.find? k = n.find? k) : m = n := by
  have := m.sorted.eq_of_findEntry n.sorted h
  cases m
  cases n
  simp_all

end Lemmas

end OrdMap

/-! ## Sets -/

/-- `std::set`. -/
abbrev OrdSet (α : Type) [Ord α] := OrdMap α Unit

namespace OrdSet

variable [Std.TransOrd α]

def insert (s : OrdSet α) (k : α) : OrdSet α := OrdMap.insertOrAssign s k ()

def insertAll (s : OrdSet α) (ks : List α) : OrdSet α := ks.foldl insert s

variable [Std.LawfulEqOrd α] [DecidableEq α] {s t : OrdSet α} {k k' : α}

@[simp, grind =]
theorem contains_insert : OrdMap.contains (insert s k) k' = (decide (k' = k) || OrdMap.contains s k') := by
  simp only [OrdMap.contains, insert, OrdMap.find?_insertOrAssign]
  split <;> simp_all

@[simp, grind =]
theorem contains_insertAll (ks : List α) :
    OrdMap.contains (insertAll s ks) k' = (decide (k' ∈ ks) || OrdMap.contains s k') := by
  induction ks generalizing s with
  | nil => simp [insertAll]
  | cons k rest ih =>
      have hcons : insertAll s (k :: rest) = insertAll (insert s k) rest := rfl
      rw [hcons, ih, contains_insert]
      grind

theorem ext_contains (h : ∀ k, OrdMap.contains s k = OrdMap.contains t k) : s = t := by
  refine OrdMap.ext_find fun k => ?_
  have := h k
  simp only [OrdMap.contains] at this
  cases hs : OrdMap.find? s k
  all_goals cases ht : OrdMap.find? t k
  all_goals simp_all

end OrdSet

end RttOpcua.Lib
