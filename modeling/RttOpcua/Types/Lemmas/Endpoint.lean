import RttOpcua.Types.Endpoint
import RttOpcua.Types.Lemmas.Registry

/-!
# Binding an endpoint

The frozen providers come with their dependencies first (`frozen_spec`), and the loop of `bind` stores the datatypes
in this order without moving one (`BindInv`).
-/

namespace RttOpcua.Types

open RttOpcua.Lib

variable {F : Type}

/-! ## The frozen providers -/

/-- `a` is a provider that names `b` as a dependency. -/
def RegistryState.DependsOn (s : RegistryState F) (a b : Str) : Prop :=
  ∃ p, s.providers.find? a = some p ∧ b ∈ p.dependencies

/-- What `frozenDataTypeProviders` returns: each provider once, after those that it depends on. -/
structure FrozenProviders (s : RegistryState F) (providers : List (DataTypeProvider F)) : Prop where
  perm : providers.Perm (s.providers.entries.map Prod.snd)
  before : ∀ before p after, providers = before ++ p :: after → ∀ n, Relation.TransGen s.DependsOn p.name n →
    ∃ q ∈ before, q.name = n

section Frozen

variable {s s' : RegistryState F} {providers : List (DataTypeProvider F)}

theorem dependsOn_iff {a b : Str} : s.DependsOn a b ↔ b ∈ Kahn.dependenciesOf s.graph a := by
  simp only [RegistryState.DependsOn, Kahn.dependenciesOf, RegistryState.graph, OrdMap.find?_map]
  cases s.providers.find? a <;> simp

theorem computeProviderOrder_spec {order : List Str} (h : computeProviderOrder s = .ok order) :
    order.Nodup ∧ (∀ n, n ∈ order ↔ s.providers.contains n = true) ∧
      Kahn.Closed (Kahn.dependenciesOf s.graph) order := by
  unfold computeProviderOrder at h
  split at h
  · cases h
  · simp only at h
    split at h
    · cases h
    · rename_i hsize
      obtain rfl := Except.ok.inj h
      have hinv : Kahn.Inv s.graph (Kahn.result s.graph) := Kahn.result_inv.1
      refine ⟨hinv.nodup, fun n => ?_, hinv.closed⟩
      rw [Kahn.mem_result, RegistryState.graph, OrdMap.contains_map]
      simpa [RegistryState.graph, OrdMap.map, OrdMap.size] using hsize

theorem map_name_filterMap (h : Valid s) {names : List Str} (hn : ∀ n ∈ names, s.providers.contains n = true) :
    (names.filterMap s.providers.find?).map DataTypeProvider.name = names := by
  induction names with
  | nil => rfl
  | cons n rest ih =>
      obtain ⟨p, hp⟩ := Option.isSome_iff_exists.1 (hn n (by simp))
      rw [List.filterMap_cons_some hp, List.map_cons, (h.named n p hp).1, ih fun m hm => hn m (by simp [hm])]

theorem frozen_spec (h : Valid s) (hok : frozenDataTypeProviders s = (s', .ok providers)) :
    FrozenProviders s providers ∧ s'.providers = s.providers := by
  unfold frozenDataTypeProviders at hok
  split at hok
  · cases hok
  · rename_i s₁ order hfreeze
    obtain ⟨rfl, hproviders⟩ := Prod.mk.inj hok
    have hok' : (freezeDataTypeRegistry s).2 = .ok order := by rw [hfreeze]
    obtain ⟨hfrozen, horder, hsame⟩ := freeze_ok hok'
    have hvalid' := h.freeze
    rw [hfreeze] at hfrozen horder hsame hvalid'
    simp only at hfrozen horder hsame hvalid'
    obtain ⟨hnodup, hmem, hclosed⟩ := computeProviderOrder_spec (hvalid'.order hfrozen)
    obtain rfl := (Except.ok.inj hproviders).symm
    have hnames := map_name_filterMap hvalid' fun n hn => (hmem n).1 hn
    have hgraph : s₁.graph = s.graph := by simp only [RegistryState.graph, hsame]
    refine ⟨⟨?_, fun before p after hp n hn => ?_⟩, hsame⟩
    · refine (List.perm_ext_iff_of_nodup ?_ ?_).2 fun p => ?_
      · exact List.Nodup.of_map _ (hnames ▸ hnodup)
      · refine List.Nodup.of_map DataTypeProvider.name ?_
        rw [List.map_map]
        have hkeys : s.providers.entries.map (DataTypeProvider.name ∘ Prod.snd) = s.providers.keys :=
          List.map_congr_left fun e he => (h.named e.1 e.2 (OrdMap.mem_entries.1 he)).1
        rw [hkeys]
        exact OrdMap.keys_nodup
      · rw [← hsame]
        simp only [List.mem_filterMap, List.mem_map, Prod.exists, exists_eq_right, OrdMap.mem_entries]
        constructor
        · rintro ⟨n, -, hp⟩
          exact ⟨n, hp⟩
        · rintro ⟨n, hp⟩
          exact ⟨n, (hmem n).2 (by simp [OrdMap.contains, hp]), hp⟩
    · rw [hp, List.map_append, List.map_cons] at hnames
      have htrans : Relation.TransGen (fun a b => b ∈ Kahn.dependenciesOf s₁.graph a) p.name n :=
        Relation.TransGen.mono (fun a b hab => by rw [hgraph]; exact dependsOn_iff.1 hab) _ _ hn
      have hbefore := hclosed.transitive htrans _ _ hnames.symm
      obtain ⟨q, hq, rfl⟩ := List.mem_map.1 hbefore
      exact ⟨q, hq, rfl⟩

end Frozen

/-! ## Namespaces -/

section Namespaces

variable {namespaces : List (Str × Nat)} {table : OrdMap Str Nat}

theorem readNamespaces_spec : ∀ (seen : OrdMap Str Nat) (indexes : List Nat),
    (∀ uri i, seen.find? uri = some i → i ∈ indexes) →
    (∀ uri uri' i, seen.find? uri = some i → seen.find? uri' = some i → uri = uri') →
    readNamespaces namespaces seen indexes = some table →
    (∀ uri i, table.find? uri = some i ↔ seen.find? uri = some i ∨ (uri, i) ∈ namespaces) ∧
      ∀ uri uri' i, table.find? uri = some i → table.find? uri' = some i → uri = uri' := by
  induction namespaces with
  | nil =>
      intro seen indexes _ hinj h
      obtain rfl := Option.some.inj h
      exact ⟨by simp, hinj⟩
  | cons entry rest ih =>
      obtain ⟨uri₀, i₀⟩ := entry
      intro seen indexes hseen hinj h
      simp only [readNamespaces] at h
      split at h
      · cases h
      · rename_i hfree
        simp only [not_or, Bool.not_eq_true] at hfree
        obtain ⟨-, -, hnew, hindex⟩ := hfree
        have hfind : ∀ uri, (seen.emplace uri₀ i₀).find? uri = if uri = uri₀ then some i₀ else seen.find? uri := by
          intro uri
          simp [OrdMap.find?_emplace, hnew]
        have hseen' : ∀ uri i, (seen.emplace uri₀ i₀).find? uri = some i → i ∈ i₀ :: indexes := by
          intro uri i hi
          rw [hfind] at hi
          split at hi
          · simp [Option.some.inj hi]
          · exact List.mem_cons_of_mem _ (hseen uri i hi)
        have hinj' : ∀ uri uri' i, (seen.emplace uri₀ i₀).find? uri = some i →
            (seen.emplace uri₀ i₀).find? uri' = some i → uri = uri' := by
          intro uri uri' i hi hi'
          rw [hfind] at hi hi'
          split at hi <;> split at hi'
          · rename_i h₁ h₂
            exact h₁.trans h₂.symm
          · obtain rfl := Option.some.inj hi
            exact absurd (hseen uri' _ hi') hindex
          · obtain rfl := Option.some.inj hi'
            exact absurd (hseen uri _ hi) hindex
          · exact hinj uri uri' i hi hi'
        obtain ⟨hiff, hinj''⟩ := ih (seen.emplace uri₀ i₀) (i₀ :: indexes) hseen' hinj' h
        refine ⟨fun uri i => ?_, hinj''⟩
        rw [hiff, hfind]
        have hnone : seen.find? uri₀ = none := by simpa [OrdMap.contains] using hnew
        by_cases heq : uri = uri₀
        · subst heq
          simp [hnone, eq_comm]
        · simp [heq]

/-- An accepted table gives each URI its index, and no two URIs the same. -/
theorem acceptNamespaces_spec (h : acceptNamespaces namespaces = .ok table) :
    (∀ uri i, table.find? uri = some i ↔ (uri, i) ∈ namespaces) ∧
      ∀ uri uri' i, table.find? uri = some i → table.find? uri' = some i → uri = uri' := by
  unfold acceptNamespaces at h
  split at h
  · cases h
  · rename_i table' hread
    split at h
    · obtain rfl := Except.ok.inj h
      simpa using readNamespaces_spec ∅ [] nofun nofun hread
    · cases h

end Namespaces

/-! ## The loop over the definitions -/

/-- A datatype has the ids of its definition at the endpoint. -/
def Matches (table : OrdMap Str Nat) (d : CustomDataTypeDefinition F) (t : DataType) : Prop :=
  ∃ index, table.find? d.id.namespaceUri = some index ∧
    (t.typeId, t.binaryEncodingId) = EndpointTypes.expected d index

/-- What holds after the definitions `done`: their datatypes are stored in order, and the context has the handle of
each and no other. -/
structure BindInv (table : OrdMap Str Nat) (capacity buffer : Nat) (done : List (CustomDataTypeDefinition F))
    (e : EndpointTypes) : Prop where
  sameTable : e.factoryState.namespaceIndexes = table
  sameCapacity : e.customDataTypes.capacity = capacity
  sameBuffer : e.customDataTypes.buffer = buffer
  length : e.customDataTypes.items.length = done.length
  indexes : ∀ id, e.factoryState.dataType id = (e.customDataTypeIndexes.find? id).map (Handle.mk buffer)
  stored : ∀ (i : Nat) d, done[i]? = some d → e.customDataTypeIndexes.find? d.id = some i
  only : ∀ id (i : Nat), e.customDataTypeIndexes.find? id = some i → ∃ d, done[i]? = some d ∧ d.id = id
  matching : ∀ (i : Nat) d t, done[i]? = some d → e.customDataTypes.items[i]? = some t → Matches table d t

/-- Handles stay, and what they point to. -/
structure Keeps (e e' : EndpointTypes) : Prop where
  buffer : e'.customDataTypes.buffer = e.customDataTypes.buffer
  handle : ∀ id h, e.factoryState.dataType id = some h → e'.factoryState.dataType id = some h ∧
    ∃ t, e.customDataTypes.read h = some t ∧ e'.customDataTypes.read h = some t

theorem getElem?_concat_cases {α : Type} {xs : List α} {x y : α} {i : Nat} (h : (xs ++ [x])[i]? = some y) :
    xs[i]? = some y ∨ i = xs.length ∧ y = x := by
  rcases Nat.lt_trichotomy i xs.length with hlt | rfl | hgt
  · exact .inl (by rwa [List.getElem?_append_left hlt] at h)
  · exact .inr ⟨rfl, by simpa using h.symm⟩
  · rw [List.getElem?_eq_none (by simp; omega)] at h
    cases h

section Bind

variable {table : OrdMap Str Nat} {capacity buffer : Nat} {done : List (CustomDataTypeDefinition F)}
  {d : CustomDataTypeDefinition F} {e e' : EndpointTypes} {materialize : Materialize F}

theorem bindDefinition_eq_ok (h : e.bindDefinition materialize d = .ok e') :
    ∃ t, Matches e.factoryState.namespaceIndexes d t ∧ e' = e.store d t := by
  unfold EndpointTypes.bindDefinition at h
  split at h
  · cases h
  · split at h
    · cases h
    · rename_i t _
      split at h
      · cases h
      · rename_i index hindex
        split at h
        · cases h
        · rename_i hmatch
          simp only [not_or, not_not] at hmatch
          exact ⟨t, ⟨index, hindex, hmatch.1⟩, (Except.ok.inj h).symm⟩

theorem BindInv.reserved (providers : List (DataTypeProvider F)) :
    BindInv table (providers.map fun p => p.dataTypes.length).sum
      (EndpointTypes.reserved table providers).customDataTypes.buffer
      ([] : List (CustomDataTypeDefinition F)) (EndpointTypes.reserved table providers) := by
  refine ⟨rfl, ?_, rfl, ?_, fun id => rfl, by simp, fun id i h => ?_, by simp⟩
  · simp only [EndpointTypes.reserved, CustomDataTypes.reserve]
    split
    · rfl
    · rename_i hzero
      simp only [Nat.not_lt, Nat.le_zero] at hzero
      exact hzero.symm
  · simp only [EndpointTypes.reserved, CustomDataTypes.reserve]
    split <;> rfl
  · cases h

theorem BindInv.find?_none (h : BindInv table capacity buffer done e) (hnew : ∀ x ∈ done, x.id ≠ d.id) :
    e.customDataTypeIndexes.find? d.id = none := by
  cases hf : e.customDataTypeIndexes.find? d.id with
  | none => rfl
  | some i =>
      obtain ⟨x, hx, hid⟩ := h.only d.id i hf
      exact absurd hid (hnew x (List.mem_of_getElem? hx))

theorem BindInv.handle_cases (h : BindInv table capacity buffer done e) {id : LogicalDataTypeId} {hd : Handle}
    (hid : e.factoryState.dataType id = some hd) :
    ∃ i x, hd = ⟨buffer, i⟩ ∧ i < e.customDataTypes.items.length ∧ x ∈ done ∧ x.id = id := by
  rw [h.indexes] at hid
  obtain ⟨i, hi, rfl⟩ := Option.map_eq_some_iff.1 hid
  obtain ⟨x, hx, rfl⟩ := h.only id i hi
  exact ⟨i, x, rfl, h.length ▸ (List.getElem?_eq_some_iff.1 hx).1, List.mem_of_getElem? hx, rfl⟩

theorem BindInv.step (h : BindInv table capacity buffer done e) (hnew : ∀ x ∈ done, x.id ≠ d.id)
    (hroom : done.length < capacity) (hok : e.bindDefinition materialize d = .ok e') :
    BindInv table capacity buffer (done ++ [d]) e' ∧ Keeps e e' := by
  obtain ⟨t, hmatch, rfl⟩ := bindDefinition_eq_ok hok
  have hpush : e.customDataTypes.pushBack t = { e.customDataTypes with items := e.customDataTypes.items ++ [t] } := by
    unfold CustomDataTypes.pushBack
    rw [if_pos (by rw [h.length, h.sameCapacity]; exact hroom)]
  have hnone := h.find?_none hnew
  have hlength : (e.customDataTypes.items ++ [t]).length - 1 = done.length := by simp [h.length]
  have hindex : ∀ id, (e.store d t).customDataTypeIndexes.find? id =
      if id = d.id then some done.length else e.customDataTypeIndexes.find? id := by
    intro id
    simp [EndpointTypes.store, hpush, OrdMap.find?_emplace, OrdMap.contains, hnone, h.length]
  have hhandle : ∀ id, (e.store d t).factoryState.dataType id =
      if id = d.id then some ⟨buffer, done.length⟩ else e.factoryState.dataType id := by
    intro id
    have hno : e.factoryState.dataTypes.find? d.id = none := by
      have := h.indexes d.id
      rwa [hnone] at this
    simp [EndpointTypes.store, FactoryState.dataType, hpush, OrdMap.find?_emplace, OrdMap.contains, hno, h.length,
      h.sameBuffer]
  have hitems : (e.store d t).customDataTypes = { e.customDataTypes with items := e.customDataTypes.items ++ [t] } :=
    hpush
  refine ⟨⟨h.sameTable, ?_, ?_, ?_, fun id => ?_, fun i x hx => ?_, fun id i hi => ?_, fun i x u hx hu => ?_⟩, ?_,
    fun id hd hid => ?_⟩
  · rw [hitems]
    exact h.sameCapacity
  · rw [hitems]
    exact h.sameBuffer
  · simp [hitems, h.length]
  · rw [hhandle, hindex, h.indexes]
    split <;> rfl
  · rw [hindex]
    rcases getElem?_concat_cases hx with hx | ⟨rfl, rfl⟩
    · rw [if_neg (hnew x (List.mem_of_getElem? hx))]
      exact h.stored i x hx
    · simp
  · rw [hindex] at hi
    split at hi
    · rename_i heq
      obtain rfl := Option.some.inj hi
      exact ⟨d, by simp, heq.symm⟩
    · obtain ⟨x, hx, hid⟩ := h.only id i hi
      exact ⟨x, by rw [List.getElem?_append_left (List.getElem?_eq_some_iff.1 hx).1]; exact hx, hid⟩
  · rw [hitems] at hu
    rcases getElem?_concat_cases hx with hx | ⟨rfl, rfl⟩
    · have hlt : i < e.customDataTypes.items.length := h.length ▸ (List.getElem?_eq_some_iff.1 hx).1
      rw [List.getElem?_append_left hlt] at hu
      exact h.matching i x u hx hu
    · rw [← h.length] at hu
      simp only [List.getElem?_concat_length, Option.some.injEq] at hu
      subst hu
      exact h.sameTable ▸ hmatch
  · rw [hitems]
  · obtain ⟨i, x, rfl, hlt, hx, rfl⟩ := h.handle_cases hid
    refine ⟨?_, e.customDataTypes.items[i], ?_, ?_⟩
    · rw [hhandle, if_neg (hnew x hx)]
      exact hid
    · simp [CustomDataTypes.read, h.sameBuffer, hlt]
    · simp [CustomDataTypes.read, hitems, h.sameBuffer, List.getElem?_append_left hlt, hlt]

theorem Keeps.refl (h : BindInv table capacity buffer done e) : Keeps e e := by
  refine ⟨rfl, fun id hd hid => ⟨hid, ?_⟩⟩
  obtain ⟨i, x, rfl, hlt, -, -⟩ := h.handle_cases hid
  exact ⟨e.customDataTypes.items[i], by simp [CustomDataTypes.read, h.sameBuffer, hlt],
    by simp [CustomDataTypes.read, h.sameBuffer, hlt]⟩

theorem Keeps.trans {e'' : EndpointTypes} (h : Keeps e e') (h' : Keeps e' e'') : Keeps e e'' := by
  refine ⟨h'.buffer.trans h.buffer, fun id hd hid => ?_⟩
  obtain ⟨hid', t, ht, ht'⟩ := h.handle id hd hid
  obtain ⟨hid'', u, hu, hu'⟩ := h'.handle id hd hid'
  obtain rfl : t = u := Option.some.inj (ht'.symm.trans hu)
  exact ⟨hid'', t, ht, hu'⟩

/-- The loop keeps the invariant, as long as there is room and no id comes twice. -/
theorem BindInv.run {ds : List (CustomDataTypeDefinition F)} :
    ∀ {done : List (CustomDataTypeDefinition F)} {e e' : EndpointTypes}, BindInv table capacity buffer done e →
      ((done ++ ds).map CustomDataTypeDefinition.id).Nodup → (done ++ ds).length ≤ capacity →
      EndpointTypes.bindDefinitions materialize ds e = .ok e' →
      BindInv table capacity buffer (done ++ ds) e' ∧ Keeps e e' := by
  induction ds with
  | nil =>
      intro done e e' h _ _ hok
      obtain rfl := Except.ok.inj hok
      rw [List.append_nil]
      exact ⟨h, .refl h⟩
  | cons d rest ih =>
      intro done e e' h hnodup hroom hok
      simp only [EndpointTypes.bindDefinitions] at hok
      cases hd : e.bindDefinition materialize d with
      | error message =>
          rw [hd] at hok
          cases hok
      | ok e₁ =>
          rw [hd] at hok
          have hnew : ∀ x ∈ done, x.id ≠ d.id := by
            intro x hx hid
            rw [List.map_append] at hnodup
            exact (List.nodup_append.1 hnodup).2.2 x.id (List.mem_map_of_mem hx) d.id (by simp) hid
          have hlt : done.length < capacity := by
            simp only [List.length_append, List.length_cons] at hroom
            omega
          obtain ⟨h₁, hkeeps⟩ := h.step hnew hlt hd
          rw [List.append_cons] at hnodup hroom ⊢
          obtain ⟨h', hkeeps'⟩ := ih h₁ hnodup hroom hok
          exact ⟨h', hkeeps.trans hkeeps'⟩

/-- The context has a handle for the datatype of a definition, and it points to one that fits the definition. -/
def Ready (table : OrdMap Str Nat) (e : EndpointTypes) (d : CustomDataTypeDefinition F) : Prop :=
  ∃ hd t, e.factoryState.dataType d.id = some hd ∧ e.customDataTypes.read hd = some t ∧ Matches table d t

theorem BindInv.resolves (h : BindInv table capacity buffer done e) (hd : d ∈ done) :
    ∃ i t, e.customDataTypeIndexes.find? d.id = some i ∧ e.customDataTypes.items[i]? = some t ∧ Matches table d t := by
  obtain ⟨i, hi, hget⟩ := List.mem_iff_getElem.1 hd
  have hlt : i < e.customDataTypes.items.length := h.length ▸ hi
  have hsome : done[i]? = some d := by rw [List.getElem?_eq_getElem hi, hget]
  have hitem : e.customDataTypes.items[i]? = some e.customDataTypes.items[i] := List.getElem?_eq_getElem hlt
  exact ⟨i, e.customDataTypes.items[i], h.stored i d hsome, hitem, h.matching i d _ hsome hitem⟩

theorem BindInv.ready (h : BindInv table capacity buffer done e) (hd : d ∈ done) : Ready table e d := by
  obtain ⟨i, t, hi, ht, hmatch⟩ := h.resolves hd
  refine ⟨⟨buffer, i⟩, t, by rw [h.indexes, hi]; rfl, ?_, hmatch⟩
  rw [CustomDataTypes.read, if_pos h.sameBuffer.symm]
  exact ht

end Bind

/-! ## Distinct ids -/

section Distinct

variable {s : RegistryState F} {providers : List (DataTypeProvider F)} {table : OrdMap Str Nat}

theorem FrozenProviders.nodup_nodeIds (hv : Valid s) (h : FrozenProviders s providers) :
    ((providers.flatMap DataTypeProvider.dataTypes).flatMap CustomDataTypeDefinition.nodeIds).Nodup := by
  rw [List.flatMap_assoc]
  have hperm := h.perm.flatMap_right DataTypeProvider.nodeIds
  rw [List.flatMap_map] at hperm
  exact hperm.symm.nodup hv.distinct

theorem nodup_id {ds : List (CustomDataTypeDefinition F)}
    (h : (ds.flatMap CustomDataTypeDefinition.nodeIds).Nodup) : (ds.map CustomDataTypeDefinition.id).Nodup := by
  obtain ⟨-, hdisjoint⟩ := List.nodup_flatMap.1 h
  refine List.pairwise_map.2 (hdisjoint.imp fun {a b} hab hid => ?_)
  have ha : (a.id.namespaceUri, a.id.typeNodeId) ∈ a.nodeIds := by simp [CustomDataTypeDefinition.nodeIds]
  have hb : (a.id.namespaceUri, a.id.typeNodeId) ∈ b.nodeIds := by simp [CustomDataTypeDefinition.nodeIds, hid]
  exact hab ha hb

/-- The node of an id at an endpoint. -/
def atEndpoint (table : OrdMap Str Nat) (id : Str × Str) : NodeId :=
  ⟨(table.find? id.1).getD 0, .string id.2⟩

theorem Matches.nodeIds {d : CustomDataTypeDefinition F} {t : DataType} (h : Matches table d t) :
    [t.typeId, t.binaryEncodingId] = d.nodeIds.map (atEndpoint table) := by
  obtain ⟨index, hindex, hids⟩ := h
  obtain ⟨htype, hencoding⟩ := Prod.mk.inj hids
  simp [CustomDataTypeDefinition.nodeIds, atEndpoint, hindex, htype, hencoding]

/-- The ids of the nodes of an endpoint are distinct if no two URIs have the same index. -/
theorem nodup_of_matches {ds : List (CustomDataTypeDefinition F)} {ts : List DataType}
    (hinj : ∀ uri uri' i, table.find? uri = some i → table.find? uri' = some i → uri = uri')
    (h : List.Forall₂ (Matches table) ds ts) (hnodup : (ds.flatMap CustomDataTypeDefinition.nodeIds).Nodup) :
    (ts.flatMap fun t => [t.typeId, t.binaryEncodingId]).Nodup := by
  have hmap : (ts.flatMap fun t => [t.typeId, t.binaryEncodingId]) =
      (ds.flatMap CustomDataTypeDefinition.nodeIds).map (atEndpoint table) := by
    clear hnodup
    induction h with
    | nil => rfl
    | cons hd _ ih => rw [List.flatMap_cons, List.flatMap_cons, List.map_append, ih, hd.nodeIds]
  have hknown : ∀ id ∈ ds.flatMap CustomDataTypeDefinition.nodeIds, ∃ i, table.find? id.1 = some i := by
    clear hnodup hmap
    induction h with
    | nil => simp
    | cons hd _ ih =>
        intro id hid
        rcases List.mem_append.1 hid with hid | hid
        · obtain ⟨index, hindex, -⟩ := hd
          refine ⟨index, ?_⟩
          simp only [CustomDataTypeDefinition.nodeIds, List.mem_cons, List.not_mem_nil, or_false] at hid
          rcases hid with rfl | rfl <;> exact hindex
        · exact ih id hid
  rw [hmap]
  refine hnodup.map_on fun id hid id' hid' heq => ?_
  obtain ⟨i, hi⟩ := hknown id hid
  obtain ⟨i', hi'⟩ := hknown id' hid'
  simp only [atEndpoint, hi, hi', Option.getD_some, NodeId.mk.injEq, Identifier.string.injEq] at heq
  exact Prod.ext (hinj id.1 id'.1 i hi (heq.1 ▸ hi')) heq.2

end Distinct

/-! ## The whole of `bind` -/

section Whole

variable {s : RegistryState F} {providers before after : List (DataTypeProvider F)} {p : DataTypeProvider F}
  {table : OrdMap Str Nat} {materialize : Materialize F} {done rest : List (CustomDataTypeDefinition F)}
  {d : CustomDataTypeDefinition F} {e e' : EndpointTypes}

theorem bindDefinitions_spec (hv : Valid s) (h : FrozenProviders s providers)
    {ds next : List (CustomDataTypeDefinition F)} (hds : providers.flatMap DataTypeProvider.dataTypes = ds ++ next)
    (hok : EndpointTypes.bindDefinitions materialize ds (EndpointTypes.reserved table providers) = .ok e) :
    BindInv table (providers.map fun p => p.dataTypes.length).sum
      (EndpointTypes.reserved table providers).customDataTypes.buffer ds e := by
  have hnodup := nodup_id (h.nodup_nodeIds hv)
  have hlength : (providers.flatMap DataTypeProvider.dataTypes).length =
      (providers.map fun p => p.dataTypes.length).sum := List.length_flatMap
  rw [hds, List.map_append] at hnodup
  rw [hds, List.length_append] at hlength
  have hroom : ds.length ≤ (providers.map fun p => p.dataTypes.length).sum := by omega
  exact (BindInv.run (BindInv.reserved providers) (List.nodup_append.1 hnodup).1 hroom hok).1

theorem bindDefinitions_keeps (hv : Valid s) (h : FrozenProviders s providers)
    {ds next more : List (CustomDataTypeDefinition F)}
    (hds : providers.flatMap DataTypeProvider.dataTypes = ds ++ (next ++ more))
    (hok : EndpointTypes.bindDefinitions materialize ds (EndpointTypes.reserved table providers) = .ok e)
    (hok' : EndpointTypes.bindDefinitions materialize next e = .ok e') : Keeps e e' := by
  have hnodup := nodup_id (h.nodup_nodeIds hv)
  have hlength : (providers.flatMap DataTypeProvider.dataTypes).length =
      (providers.map fun p => p.dataTypes.length).sum := List.length_flatMap
  rw [hds, ← List.append_assoc, List.map_append] at hnodup
  rw [hds, ← List.append_assoc, List.length_append] at hlength
  have hroom : (ds ++ next).length ≤ (providers.map fun p => p.dataTypes.length).sum := by omega
  exact (BindInv.run (bindDefinitions_spec hv h hds hok) (List.nodup_append.1 hnodup).1 hroom hok').2

/-- The datatypes of a provider that comes earlier are there. -/
theorem ready_before (hv : Valid s) (h : FrozenProviders s providers) (hp : providers = before ++ p :: after)
    (hd : p.dataTypes = done ++ d :: rest)
    (hok : EndpointTypes.bindDefinitions materialize (before.flatMap DataTypeProvider.dataTypes ++ done)
      (EndpointTypes.reserved table providers) = .ok e) {n : Str} (hn : Relation.TransGen s.DependsOn p.name n) :
    ∃ q, s.providers.find? n = some q ∧ ∀ x ∈ q.dataTypes, Ready table e x := by
  have hds : providers.flatMap DataTypeProvider.dataTypes =
      before.flatMap DataTypeProvider.dataTypes ++ done ++ (d :: rest ++ after.flatMap DataTypeProvider.dataTypes) := by
    simp [hp, hd]
  obtain ⟨q, hq, rfl⟩ := h.before before p after hp n hn
  obtain ⟨name, hname⟩ : ∃ name, s.providers.find? name = some q := by
    have hmem := h.perm.subset (hp ▸ List.mem_append_left _ hq)
    simpa only [List.mem_map, Prod.exists, exists_eq_right, OrdMap.mem_entries] using hmem
  refine ⟨q, (hv.named name q hname).1 ▸ hname, fun x hx => ?_⟩
  exact (bindDefinitions_spec hv h hds hok).ready (List.mem_append_left _ (List.mem_flatMap.2 ⟨q, hq, hx⟩))

theorem bind_spec (hv : Valid s) (h : FrozenProviders s providers)
    (hok : EndpointTypes.bind materialize table providers = .ok e) :
    BindInv table (providers.map fun p => p.dataTypes.length).sum
      (EndpointTypes.reserved table providers).customDataTypes.buffer (providers.flatMap DataTypeProvider.dataTypes) e := by
  unfold EndpointTypes.bind at hok
  split at hok
  · cases hok
  · exact bindDefinitions_spec hv h (List.append_nil _).symm hok

theorem BindInv.forall₂ {capacity buffer : Nat} {ds : List (CustomDataTypeDefinition F)}
    (h : BindInv table capacity buffer ds e) : List.Forall₂ (Matches table) ds e.customDataTypes.items := by
  refine List.forall₂_iff_get.2 ⟨h.length.symm, fun i hi hi' => ?_⟩
  exact h.matching i _ _ (List.getElem?_eq_getElem hi) (List.getElem?_eq_getElem hi')

/-- A successful `create` went through all of its steps. -/
theorem create_eq_ok {T : Type} [DecidableEq T] {namespaces : List (Str × Nat)} {repository : TypeRepository T}
    {source : CodecSource T} {r : EndpointTypeRegistry T}
    (h : (EndpointTypeRegistry.create s namespaces materialize repository source).2 = .ok r) :
    ∃ table providers, acceptNamespaces namespaces = .ok table ∧
      frozenDataTypeProviders s = ((EndpointTypeRegistry.create s namespaces materialize repository source).1,
        .ok providers) ∧
      EndpointTypes.bind materialize table providers = .ok r.types ∧
      Codecs.bindNames repository source r.types repository.names {} = .ok r.codecs := by
  unfold EndpointTypeRegistry.create at h ⊢
  split at h
  · cases h
  · rename_i table htable
    simp only [htable]
    split at h
    · cases h
    · rename_i s' providers hfrozen
      simp only [hfrozen]
      cases hbind : EndpointTypes.bind materialize table providers with
      | error message =>
          rw [hbind] at h
          cases h
      | ok types =>
          rw [hbind] at h
          cases hcodecs : Codecs.bindNames repository source types repository.names {} with
          | error message =>
              simp only [bind, Except.bind, hcodecs] at h
              cases h
          | ok codecs =>
              simp only [bind, Except.bind, hcodecs, pure, Except.pure, Except.ok.injEq] at h
              subst h
              exact ⟨table, providers, rfl, rfl, hbind, hcodecs⟩

section Create

variable {T : Type} [DecidableEq T] {namespaces : List (Str × Nat)} {repository : TypeRepository T}
  {source : CodecSource T} {r : EndpointTypeRegistry T}

theorem create_resolves (hv : Valid s)
    (h : (EndpointTypeRegistry.create s namespaces materialize repository source).2 = .ok r) {name : Str}
    (hp : s.providers.find? name = some p) (hd : d ∈ p.dataTypes) :
    ∃ index t, (d.id.namespaceUri, index) ∈ namespaces ∧ r.types.dataType d.id = some t ∧
      (t.typeId, t.binaryEncodingId) = EndpointTypes.expected d index := by
  obtain ⟨table, providers, htable, hfrozen, hbind, -⟩ := create_eq_ok h
  have hspec := (frozen_spec hv hfrozen).1
  have hmem : p ∈ providers := by
    refine hspec.perm.symm.subset ?_
    simp only [List.mem_map, Prod.exists, exists_eq_right, OrdMap.mem_entries]
    exact ⟨name, hp⟩
  obtain ⟨i, t, hi, ht, index, hindex, hids⟩ :=
    (bind_spec hv hspec hbind).resolves (List.mem_flatMap.2 ⟨p, hmem, hd⟩)
  exact ⟨index, t, ((acceptNamespaces_spec htable).1 _ _).1 hindex, by rw [EndpointTypes.dataType, hi]; exact ht, hids⟩

theorem create_nodup (hv : Valid s)
    (h : (EndpointTypeRegistry.create s namespaces materialize repository source).2 = .ok r) :
    (r.types.customDataTypes.items.flatMap fun t => [t.typeId, t.binaryEncodingId]).Nodup := by
  obtain ⟨table, providers, htable, hfrozen, hbind, -⟩ := create_eq_ok h
  have hspec := (frozen_spec hv hfrozen).1
  exact nodup_of_matches (acceptNamespaces_spec htable).2 (bind_spec hv hspec hbind).forall₂
    (hspec.nodup_nodeIds hv)

theorem create_frozen (h : (EndpointTypeRegistry.create s namespaces materialize repository source).2 = .ok r) :
    let s' := (EndpointTypeRegistry.create s namespaces materialize repository source).1
    s' = (freezeDataTypeRegistry s).1 ∧ s'.frozen = true ∧ s'.providers = s.providers := by
  intro s'
  obtain ⟨table, providers, -, hfrozen, -, -⟩ := create_eq_ok h
  unfold frozenDataTypeProviders at hfrozen
  split at hfrozen
  · cases hfrozen
  · rename_i s₁ order hfreeze
    obtain rfl : s₁ = s' := (Prod.mk.inj hfrozen).1
    have hok : (freezeDataTypeRegistry s).2 = .ok order := by rw [hfreeze]
    obtain ⟨h₁, -, h₂⟩ := freeze_ok hok
    rw [hfreeze] at h₁ h₂
    exact ⟨by rw [hfreeze], h₁, h₂⟩

end Create

end Whole

end RttOpcua.Types
