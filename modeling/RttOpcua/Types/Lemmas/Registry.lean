import RttOpcua.Types.Registry
import Mathlib.Data.List.Nodup

/-!
# The registry over a run

What one call does (`register_cases`, `freeze_cases`), and from it what holds after any calls (`Valid`).
-/

namespace RttOpcua.Types

open RttOpcua.Lib

variable {F : Type}

/-! ## Sorted texts -/

section Sorting

theorem sort_perm (texts : List Str) : (sort texts).Perm texts := List.mergeSort_perm _ _

theorem sort_pairwise (texts : List Str) : (sort texts).Pairwise fun a b => (compare a b).isLE = true := by
  refine List.pairwise_mergeSort (fun a b c hab hbc => ?_) (fun a b => ?_) texts
  · exact Std.TransCmp.isLE_trans hab hbc
  · have hswap : compare b a = (compare a b).swap := Std.OrientedCmp.eq_swap
    rw [hswap]
    cases compare a b <;> rfl

/-- Sorting forgets the order of the input. -/
theorem sort_congr {texts texts' : List Str} (h : texts.Perm texts') : sort texts = sort texts' := by
  refine List.Perm.eq_of_pairwise (fun a b _ _ hab hba => ?_) (sort_pairwise texts) (sort_pairwise texts')
    ((sort_perm texts).trans (h.trans (sort_perm texts').symm))
  exact Std.LawfulEqCmp.eq_of_compare (Std.OrientedCmp.isLE_antisymm hab hba)

theorem sort_of_ascending {texts : List Str} (h : texts.Pairwise fun a b => compare a b = .lt) : sort texts = texts := by
  refine List.Perm.eq_of_pairwise (fun a b _ _ hab hba => ?_) (sort_pairwise texts)
    (h.imp fun hlt => by simp [hlt]) (sort_perm texts)
  exact Std.LawfulEqCmp.eq_of_compare (Std.OrientedCmp.isLE_antisymm hab hba)

/-- A sorted list without equal neighbours ascends strictly. -/
theorem pairwise_of_adjacentFind {texts : List Str} (h : texts.Pairwise fun a b => (compare a b).isLE = true)
    (hno : adjacentFind texts = false) : texts.Pairwise fun a b => compare a b = .lt := by
  induction texts with
  | nil => exact .nil
  | cons a rest ih =>
      obtain ⟨ha, hrest⟩ := List.pairwise_cons.1 h
      cases rest with
      | nil => exact List.pairwise_singleton _ _
      | cons b rest =>
          simp only [adjacentFind, Bool.or_eq_false_iff, decide_eq_false_iff_not] at hno
          have hlt : compare a b = .lt := by
            have hle := ha b (by simp)
            cases hcmp : compare a b with
            | lt => rfl
            | eq => exact absurd (Std.LawfulEqCmp.eq_of_compare hcmp) hno.1
            | gt => simp [hcmp] at hle
          have hpair := ih hrest hno.2
          refine List.pairwise_cons.2 ⟨fun c hc => ?_, hpair⟩
          rcases List.mem_cons.1 hc with rfl | hc
          · exact hlt
          · exact Std.TransCmp.lt_trans hlt ((List.pairwise_cons.1 hpair).1 c hc)

end Sorting

/-! ## One call -/

/-- What `validateDefinitions` has tested of a definition. -/
structure CustomDataTypeDefinition.Valid (d : CustomDataTypeDefinition F) (namespaceUri : Str) : Prop where
  namespaceUri : d.id.namespaceUri = namespaceUri
  materialize : d.materialize.isSome = true

/-- What `validateAndNormalize` has tested of a provider. -/
structure DataTypeProvider.Valid (p : DataTypeProvider F) : Prop where
  ascending : p.dependencies.Pairwise fun a b => compare a b = .lt
  notSelf : p.name ∉ p.dependencies
  definitions : ∀ d ∈ p.dataTypes, d.Valid p.namespaceUri

section Calls

variable {s s' : RegistryState F} {p q : DataTypeProvider F}

theorem validateDefinitions_eq_none {ds : List (CustomDataTypeDefinition F)} :
    ∀ occupied : List (Str × Str), validateDefinitions p ds occupied = none → occupied.Nodup →
      (ds.flatMap CustomDataTypeDefinition.nodeIds ++ occupied).Nodup ∧ ∀ d ∈ ds, d.Valid p.namespaceUri := by
  induction ds with
  | nil => exact fun occupied _ hn => ⟨by simpa using hn, by simp⟩
  | cons d rest ih =>
      intro occupied h hn
      simp only [validateDefinitions] at h
      split at h
      · cases h
      · rename_i hvalid
        split at h
        · cases h
        · rename_i hns
          split at h
          · cases h
          · rename_i hfree
            simp only [not_or, List.mem_cons] at hfree
            obtain ⟨hne, htype, hencoding⟩ := hfree
            obtain ⟨hnodup, hall⟩ := ih _ h (List.nodup_cons.2 ⟨by simp [hencoding.1, hencoding.2],
              List.nodup_cons.2 ⟨htype, hn⟩⟩)
            refine ⟨?_, fun d' hd' => ?_⟩
            · rw [List.flatMap_cons, List.append_assoc]
              refine (List.Perm.nodup_iff ?_).1 hnodup
              exact (List.perm_append_comm_assoc _ [_, _] _).trans ((List.Perm.swap _ _ []).append_right _)
            · rcases List.mem_cons.1 hd' with rfl | hd'
              · refine ⟨not_not.1 hns, ?_⟩
                simp only [Bool.or_eq_true, not_or, Option.isNone_iff_eq_none] at hvalid
                exact Option.isSome_iff_ne_none.2 hvalid.2
              · exact hall d' hd'

theorem validateAndNormalize_eq_ok (h : validateAndNormalize p s = .ok q) (hn : s.occupied.Nodup) :
    q = { p with dependencies := sort p.dependencies } ∧ q.Valid ∧ (q.nodeIds ++ s.occupied).Nodup := by
  unfold validateAndNormalize at h
  split at h
  · cases h
  · split at h
    · cases h
    · rename_i hdeps
      simp only at h
      split at h
      · cases h
      · rename_i hadjacent
        split at h
        · cases h
        · rename_i hnone
          cases h
          obtain ⟨hnodup, hall⟩ := validateDefinitions_eq_none _ hnone hn
          refine ⟨rfl, ⟨?_, fun hself => ?_, hall⟩, hnodup⟩
          · exact pairwise_of_adjacentFind (sort_pairwise _) (by simpa using hadjacent)
          · refine hdeps (List.any_eq_true.2 ⟨p.name, (sort_perm _).mem_iff.1 hself, by simp⟩)

theorem registerNew_cases (hn : s.occupied.Nodup) :
    (∃ message, registerNew s p = (s, .error message)) ∨
    ∃ q, registerNew s p = ({ s with providers := s.providers.insertOrAssign q.name q }, .ok ()) ∧
      s.frozen = false ∧ s.providers.contains q.name = false ∧ q.Valid ∧ (q.nodeIds ++ s.occupied).Nodup := by
  unfold registerNew
  split
  · exact .inl ⟨_, rfl⟩
  · rename_i hfrozen
    split
    · exact .inl ⟨_, rfl⟩
    · rename_i hcontains
      split
      · exact .inl ⟨_, rfl⟩
      · rename_i q hok
        obtain ⟨rfl, hvalid, hnodup⟩ := validateAndNormalize_eq_ok hok hn
        refine .inr ⟨_, ?_, by simpa using hfrozen, by simpa using hcontains, hvalid, hnodup⟩
        simp [OrdMap.emplace, hcontains]

/-- A registration fails, finds the provider, or adds one. -/
theorem register_cases (hn : s.occupied.Nodup) :
    (∃ r, registerDataTypeProvider s p = (s, r)) ∨
    ∃ q, registerDataTypeProvider s p = ({ s with providers := s.providers.insertOrAssign q.name q }, .ok ()) ∧
      s.frozen = false ∧ s.providers.contains q.name = false ∧ q.Valid ∧ (q.nodeIds ++ s.occupied).Nodup := by
  unfold registerDataTypeProvider
  simp only
  split
  · split
    · exact .inl ⟨_, rfl⟩
    · obtain ⟨message, h⟩ | h := registerNew_cases hn
      · exact .inl ⟨_, h⟩
      · exact .inr h
  · obtain ⟨message, h⟩ | h := registerNew_cases hn
    · exact .inl ⟨_, h⟩
    · exact .inr h

/-- A failed registration changes nothing. -/
theorem register_error {message : Str} (h : (registerDataTypeProvider s p).2 = .error message) :
    (registerDataTypeProvider s p).1 = s := by
  unfold registerDataTypeProvider registerNew at h ⊢
  simp only at h ⊢
  grind

theorem freeze_error {message : Str} (h : (freezeDataTypeRegistry s).2 = .error message) :
    (freezeDataTypeRegistry s).1 = s := by
  unfold freezeDataTypeRegistry at h ⊢
  grind

/-- Equal up to the order of the dependencies. -/
structure SameUpToOrder (p q : DataTypeProvider F) : Prop where
  name : p.name = q.name
  namespaceUri : p.namespaceUri = q.namespaceUri
  dependencies : p.dependencies.Perm q.dependencies
  dataTypes : List.Forall₂ (fun l r => sameDefinition l r = true) q.dataTypes p.dataTypes

theorem all_sameDefinition {ds ds' : List (CustomDataTypeDefinition F)}
    (h : List.Forall₂ (fun l r => sameDefinition l r = true) ds ds') :
    ds.length = ds'.length ∧ ((ds.zip ds').all fun d => sameDefinition d.1 d.2) = true := by
  induction h with
  | nil => exact ⟨rfl, rfl⟩
  | cons hd _ ih => exact ⟨by simp [ih.1], by simp [hd, ih.2]⟩

/-- A provider that is registered already. -/
theorem register_same (hq : s.providers.find? q.name = some q) (hvalid : q.Valid) (h : SameUpToOrder p q) :
    registerDataTypeProvider s p = (s, .ok ()) := by
  have hsort : sort p.dependencies = q.dependencies :=
    (sort_congr h.dependencies).trans (sort_of_ascending hvalid.ascending)
  obtain ⟨hlength, hall⟩ := all_sameDefinition h.dataTypes
  unfold registerDataTypeProvider
  simp only [h.name, hq, hsort]
  rw [if_pos]
  simp only [sameProvider, h.namespaceUri, hlength, hall, decide_true, Bool.and_self]

end Calls

/-! ## Runs -/

/-- The invariant of the registry. -/
structure Valid (s : RegistryState F) : Prop where
  named : ∀ name p, s.providers.find? name = some p → p.name = name ∧ p.Valid
  distinct : s.occupied.Nodup
  order : s.frozen = true → computeProviderOrder s = .ok s.providerOrder

section Runs

variable {s s' : RegistryState F}

theorem Valid.init : Valid ({} : RegistryState F) := ⟨nofun, List.nodup_nil, nofun⟩

theorem Valid.register (h : Valid s) (p : DataTypeProvider F) : Valid (registerDataTypeProvider s p).1 := by
  obtain ⟨r, hr⟩ | ⟨q, hq, hfrozen, hnew, hvalid, hnodup⟩ := register_cases (p := p) h.distinct
  · rw [hr]
    exact h
  · rw [hq]
    refine ⟨fun name p' hp' => ?_, ?_, fun hf => ?_⟩
    · simp only [OrdMap.find?_insertOrAssign] at hp'
      split at hp'
      · obtain rfl := Option.some.inj hp'
        rename_i heq
        exact ⟨heq.symm, hvalid⟩
      · exact h.named name p' hp'
    · have hperm : ((s.providers.insertOrAssign q.name q).entries.flatMap fun e => e.2.nodeIds).Perm
          (q.nodeIds ++ s.occupied) := (OrdMap.perm_insertOrAssign hnew).flatMap_right _
      exact hperm.nodup_iff.2 hnodup
    · rw [hfrozen] at hf
      cases hf

/-- The order does not depend on whether the registry is frozen. -/
theorem computeProviderOrder_congr (h : s'.providers = s.providers) :
    computeProviderOrder s' = computeProviderOrder s := by
  unfold computeProviderOrder RegistryState.missing RegistryState.graph
  rw [h]

theorem freeze_cases (s : RegistryState F) :
    (freezeDataTypeRegistry s).1 = s ∨
    ∃ order, freezeDataTypeRegistry s = ({ s with providerOrder := order, frozen := true }, .ok order) ∧
      computeProviderOrder s = .ok order := by
  unfold freezeDataTypeRegistry
  split
  · exact .inl rfl
  · split
    · exact .inl rfl
    · exact .inr ⟨_, rfl, ‹_›⟩

theorem freeze_frozen (hf : s.frozen = true) : freezeDataTypeRegistry s = (s, .ok s.providerOrder) := if_pos hf

/-- After a freeze that succeeds the registry is frozen with this order. -/
theorem freeze_ok {order : List Str} (h : (freezeDataTypeRegistry s).2 = .ok order) :
    (freezeDataTypeRegistry s).1.frozen = true ∧ (freezeDataTypeRegistry s).1.providerOrder = order ∧
      (freezeDataTypeRegistry s).1.providers = s.providers := by
  unfold freezeDataTypeRegistry at h ⊢
  split at h
  · rename_i hf
    rw [if_pos hf]
    exact ⟨hf, Except.ok.inj h, rfl⟩
  · rename_i hf
    rw [if_neg hf]
    split at h
    · cases h
    · exact ⟨rfl, Except.ok.inj h, rfl⟩

theorem Valid.freeze (h : Valid s) : Valid (freezeDataTypeRegistry s).1 := by
  obtain hr | ⟨order, ho, hcompute⟩ := freeze_cases s
  · rw [hr]
    exact h
  · rw [ho]
    exact ⟨h.named, h.distinct, fun _ => (computeProviderOrder_congr rfl).trans hcompute⟩

theorem Valid.call (h : Valid s) (c : Call F) : Valid (call s c) := by
  cases c with
  | register p => exact h.register p
  | freeze => exact h.freeze

theorem Valid.run (calls : List (Call F)) : ∀ s : RegistryState F, Valid s → Valid (run s calls) := by
  induction calls with
  | nil => exact fun _ h => h
  | cons c rest ih => exact fun s h => ih (Types.call s c) (h.call c)

/-- Nothing changes a frozen registry. -/
theorem call_frozen (h : Valid s) (hf : s.frozen = true) (c : Call F) : call s c = s := by
  cases c with
  | register p =>
      obtain ⟨r, hr⟩ | ⟨q, -, hfrozen, -⟩ := register_cases (p := p) h.distinct
      · simp [call, hr]
      · rw [hf] at hfrozen
        cases hfrozen
  | freeze => simp [call, freeze_frozen hf]

theorem run_frozen (h : Valid s) (hf : s.frozen = true) (calls : List (Call F)) : run s calls = s := by
  induction calls with
  | nil => rfl
  | cons c rest ih => rw [run, List.foldl_cons, call_frozen h hf c]; exact ih

end Runs

end RttOpcua.Types
