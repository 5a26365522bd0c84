import RttOpcua.Model.Snapshot
import RttOpcua.Model.Lemmas.Inventory

/-!
# Bundles

The nodes that a bundle asks for: its category, the node of its resource, and leaves below that.
-/

namespace RttOpcua.Model

open RttOpcua.Lib

/-! ## Paths of nodes -/

section Paths

variable {component : Str} {record : ResourceRecord}

theorem splitPath_appendNodeSegment (path name : Str) :
    splitPath (appendNodeSegment path name) = splitPath path ++ [escapeNodeIdSegment name] := by
  rw [appendNodeSegment, splitPath_append, splitPath_of_not_mem (slash_not_mem_escape name)]

theorem pathDepth_appendNodeSegment (path name : Str) :
    pathDepth (appendNodeSegment path name) = pathDepth path + 1 := by
  have hname : (escapeNodeIdSegment name).count slash = 0 := List.count_eq_zero.2 (slash_not_mem_escape name)
  simp [pathDepth, appendNodeSegment, hname]

theorem splitPath_resourceNodePath {path : Str} (hne : path ≠ []) :
    splitPath (resourceNodePath (componentPath component) path) =
      splitPath (componentPath component) ++ segments path := by
  rw [resourceNodePath, splitPath_append, segments, if_neg hne]

theorem splitPath_ownerNodePath :
    splitPath (ownerNodePath component record) = splitPath (componentPath component) ++ segments record.ownerPath := by
  unfold ownerNodePath
  split
  · rename_i h
    simp [h, segments]
  · rename_i h
    exact splitPath_resourceNodePath h

/-- The two ways to spell the path of a category. -/
theorem categoryNodePath_eq :
    categoryNodePath component record = appendNodeSegment (ownerNodePath component record) (resourceCategory record.kind) := by
  unfold categoryNodePath ownerNodePath appendNodeSegment resourceNodePath
  rw [escape_resourceCategory]
  split
  · rfl
  · simp

theorem splitPath_categoryNodePath :
    splitPath (categoryNodePath component record) =
      splitPath (componentPath component) ++ (segments record.ownerPath ++ [resourceCategory record.kind]) := by
  rw [categoryNodePath_eq, splitPath_appendNodeSegment, splitPath_ownerNodePath, escape_resourceCategory,
    List.append_assoc]

/-- A record that lies at the path of its owner, kind and name. -/
def Placed (record : ResourceRecord) : Prop := record.path = resourcePath record.ownerPath record.kind record.name

theorem recordNodePath_eq (h : Placed record) :
    recordNodePath component record = appendNodeSegment (categoryNodePath component record) record.name := by
  unfold recordNodePath categoryNodePath resourceNodePath
  rw [h]
  unfold resourcePath appendNodeSegment
  split <;> simp

theorem splitPath_recordNodePath (h : Placed record) :
    splitPath (recordNodePath component record) = splitPath (componentPath component) ++ segments record.path := by
  rw [recordNodePath, splitPath_resourceNodePath]
  rw [h]
  exact resourcePath_ne_nil _ _ _

theorem appendNodeSegment_ne (path name : Str) : appendNodeSegment path name ≠ path := by
  intro h
  have hlength := congrArg List.length h
  simp only [appendNodeSegment, List.length_append, List.length_cons] at hlength
  omega

end Paths

/-! ## The form of a bundle -/

section Shape

variable (component : Str) (services : Nat → Service)

/-- The node of a record. -/
structure IsPrimary (record : ResourceRecord) (spec : NodeSpec) : Prop where
  path : spec.path = recordNodePath component record
  parent : spec.parentPath = categoryNodePath component record

/-- Leaves of the node of a record. Services have none: their categories belong to other bundles. -/
structure AreLeaves (record : ResourceRecord) (names : List Str) (leaves : List NodeSpec) : Prop where
  kind : record.kind = .service → names = []
  nodup : (names.map escapeNodeIdSegment).Nodup
  paths : leaves.map NodeSpec.path = names.map (appendNodeSegment (recordNodePath component record))
  parent : ∀ leaf ∈ leaves, leaf.parentPath = recordNodePath component record

/-- The category, the node of the record and its leaves, in some order. -/
def BundleShape (record : ResourceRecord) (specs : List NodeSpec) : Prop :=
  ∃ primary names leaves, IsPrimary component record primary ∧ AreLeaves component record names leaves ∧
    specs.Perm (categorySpec component services record :: primary :: leaves)

variable {component services} {registry : TypeRegistry} {record : ResourceRecord} {specs : List NodeSpec}

theorem categorySpec_path : (categorySpec component services record).path = categoryNodePath component record :=
  categoryNodePath_eq.symm

theorem operationMetadata_leaves (hkind : record.kind ≠ .service) (schema : OperationSchema) :
    ∃ names, AreLeaves component record names (operationMetadata (recordNodePath component record) schema) := by
  unfold operationMetadata
  split <;> split
  · exact ⟨[], fun _ => rfl, by decide, rfl, by simp⟩
  · exact ⟨[lit "rttOutputTypes", lit "rttOutputSources"], fun h => absurd h hkind, by decide, rfl,
      by simp [staticArrayPropertySpec]⟩
  · exact ⟨[lit "rttInputTypes"], fun h => absurd h hkind, by decide, rfl, by simp [staticArrayPropertySpec]⟩
  · exact ⟨[lit "rttInputTypes", lit "rttOutputTypes", lit "rttOutputSources"], fun h => absurd h hkind, by decide, rfl,
      by simp [staticArrayPropertySpec]⟩

theorem operationBundle_shape (hp : Placed record) (hkind : record.kind ≠ .service)
    (h : operationBundle component services registry record = .ok specs) :
    BundleShape component services record specs := by
  unfold operationBundle at h
  split at h
  · cases h
  · split at h
    · cases h
    · simp only at h
      split at h
      · split at h <;> cases h
      · split at h
        · cases h
        · obtain rfl := Except.ok.inj h
          obtain ⟨names, hleaves⟩ : ∃ names, AreLeaves component record names _ := operationMetadata_leaves hkind _
          exact ⟨_, names, _, ⟨(recordNodePath_eq hp).symm, rfl⟩, hleaves,
            List.Perm.cons _ List.perm_append_comm⟩

/-- The bundle of a property or an attribute: its category, its value and its type. -/
theorem configurationBundle_eq_ok {found : Option (Option DataSource × Str)}
    (h : configurationBundle component services registry record found = .ok specs) :
    ∃ source description type codec, found = some (some source, description) ∧ source.typeInfo = some type ∧
      registry.codecForTypeInfo type = some codec ∧ codec.hasValue = true ∧
      specs = [categorySpec component services record,
        dataSourceSpec (categoryNodePath component record) record.name description source codec,
        staticStringSpec (appendNodeSegment (recordNodePath component record) (lit "rttType"))
          (recordNodePath component record) (lit "rttType") (lit "Canonical RTT value type.")
          (registry.getTypeName type) true] := by
  unfold configurationBundle at h
  split at h
  · cases h
  · split at h
    · cases h
    · split at h
      · rename_i source type codec htype hcodec
        split at h
        · rename_i hvalue
          obtain rfl := Except.ok.inj h
          rw [Option.bind_some] at htype hcodec
          rw [htype, codecOf, Option.bind_some] at hcodec
          exact ⟨source, _, type, codec, rfl, htype, hcodec, hvalue, rfl⟩
        · cases h
      · cases h

theorem configurationBundle_shape (hp : Placed record) (hkind : record.kind ≠ .service)
    {found : Option (Option DataSource × Str)}
    (h : configurationBundle component services registry record found = .ok specs) :
    BundleShape component services record specs := by
  obtain ⟨source, description, type, codec, -, -, -, -, rfl⟩ := configurationBundle_eq_ok h
  exact ⟨_, [lit "rttType"], _, ⟨(recordNodePath_eq hp).symm, rfl⟩,
    ⟨fun h => absurd h hkind, by decide, rfl, by simp [staticStringSpec]⟩, .refl _⟩

/-- The bundle of a port, which has one direction. -/
theorem portBundle_eq_ok (h : portBundle component services registry record = .ok specs) :
    ∃ port type codec, (services record.owner).getPort record.name = some port ∧ port.isInput ≠ port.isOutput ∧
      port.typeInfo = some type ∧ registry.codecForTypeInfo type = some codec ∧ codec.hasValue = true ∧
      specs = [categorySpec component services record,
        objectSpec (recordNodePath component record) (categoryNodePath component record) record.name port.description,
        staticStringSpec (appendNodeSegment (recordNodePath component record) (lit "type"))
          (recordNodePath component record) (lit "type") (lit "Canonical RTT port type.") (registry.getTypeName type)
          false,
        portDirectionSpec (recordNodePath component record) (if port.isInput then .input else .output),
        staticStringSpec (appendNodeSegment (recordNodePath component record) (lit "description"))
          (recordNodePath component record) (lit "description") (lit "RTT port description.") port.description
          false] ++ portValueSpecs port (recordNodePath component record) codec := by
  unfold portBundle at h
  split at h
  · cases h
  · split at h
    · cases h
    · rename_i port hport
      split at h
      · cases h
      · rename_i hdirection
        simp only at h
        split at h
        · rename_i type codec htype hcodec
          split at h
          · rename_i hvalue
            obtain rfl := Except.ok.inj h
            rw [codecOf, htype, Option.bind_some] at hcodec
            exact ⟨port, type, codec, hport, hdirection, htype, hcodec, hvalue, rfl⟩
          · cases h
        · cases h

/-- The value node, if there is one. -/
theorem portValueSpecs_paths (port : Port) (portPath : Str) (codec : Codec) :
    ∃ names, (names = [] ∨ names = [lit "value"]) ∧
      (portValueSpecs port portPath codec).map NodeSpec.path = names.map (appendNodeSegment portPath) ∧
      ∀ leaf ∈ portValueSpecs port portPath codec, leaf.parentPath = portPath := by
  unfold portValueSpecs
  split
  · exact ⟨_, .inr rfl, rfl, by simp [inputPortValueSpec]⟩
  · split
    · exact ⟨_, .inr rfl, rfl, by simp [outputPortValueSpec]⟩
    · exact ⟨_, .inl rfl, rfl, by simp⟩

theorem portBundle_shape (hkind : record.kind ≠ .service)
    (h : portBundle component services registry record = .ok specs) : BundleShape component services record specs := by
  obtain ⟨port, type, codec, -, -, -, -, -, rfl⟩ := portBundle_eq_ok h
  obtain ⟨names, hnames, hpaths, hparent⟩ := portValueSpecs_paths port (recordNodePath component record) codec
  refine ⟨_, lit "type" :: lit "direction" :: lit "description" :: names,
    _ :: _ :: _ :: portValueSpecs port (recordNodePath component record) _, ⟨rfl, rfl⟩,
    ⟨fun h => absurd h hkind, ?_, ?_, ?_⟩, .refl _⟩
  · rcases hnames with rfl | rfl <;> decide
  · rw [List.map_cons, List.map_cons, List.map_cons, hpaths]
    rfl
  · intro leaf hleaf
    simp only [List.mem_cons] at hleaf
    rcases hleaf with rfl | rfl | rfl | hleaf
    case inr.inr.inr => exact hparent leaf hleaf
    all_goals rfl

theorem serviceBundle_eq_ok (h : serviceBundle component services record = .ok specs) :
    record.discoveryError = [] ∧ ∃ service, record.service = some service ∧
      specs = [categorySpec component services record,
        objectSpec (recordNodePath component record) (categoryNodePath component record) record.name
          (services service).doc] := by
  unfold serviceBundle at h
  split at h
  · cases h
  · rename_i herror
    split at h
    · cases h
    · rename_i service hservice
      obtain rfl := Except.ok.inj h
      exact ⟨not_not.1 herror, service, hservice, rfl⟩

theorem serviceBundle_shape (h : serviceBundle component services record = .ok specs) :
    BundleShape component services record specs := by
  obtain ⟨-, service, -, rfl⟩ := serviceBundle_eq_ok h
  exact ⟨_, [], [], ⟨rfl, rfl⟩, ⟨fun _ => rfl, by decide, rfl, by simp⟩, .refl _⟩

/-- Bundles of all kinds. -/
theorem bundle_shape (hp : Placed record) (h : bundle component services registry record = .ok specs) :
    BundleShape component services record specs := by
  unfold bundle at h
  split at h
  case h_1 hkind => exact operationBundle_shape hp (by rw [hkind]; decide) h
  case h_2 hkind => exact configurationBundle_shape hp (by rw [hkind]; decide) h
  case h_3 hkind => exact configurationBundle_shape hp (by rw [hkind]; decide) h
  case h_4 hkind => exact portBundle_shape (by rw [hkind]; decide) h
  case h_5 => exact serviceBundle_shape h

end Shape

/-! ## Collisions -/

section Collisions

variable {component : Str} {services : Nat → Service} {inventory : ComponentInventory} {record record' : ResourceRecord}
  {specs specs' : List NodeSpec}

/-- Where a node of a bundle lies below its component. -/
inductive NodeTail (component : Str) (services : Nat → Service) (record : ResourceRecord) (spec : NodeSpec) :
    List Str → Prop
  | category : spec = categorySpec component services record →
      NodeTail component services record spec (segments record.ownerPath ++ [resourceCategory record.kind])
  | primary : spec.parentPath = categoryNodePath component record →
      NodeTail component services record spec (segments record.path)
  | leaf (name : Str) : record.kind ≠ .service → spec.parentPath = recordNodePath component record →
      NodeTail component services record spec (segments record.path ++ [escapeNodeIdSegment name])

/-- The paths of nodes are their parents' with one more segment. -/
theorem BundleShape.mem (hshape : BundleShape component services record specs) (hp : Placed record) {spec : NodeSpec}
    (hspec : spec ∈ specs) : (∃ name, spec.path = appendNodeSegment spec.parentPath name) ∧
      ∃ tail, splitPath spec.path = splitPath (componentPath component) ++ tail ∧
        NodeTail component services record spec tail := by
  obtain ⟨primary, names, leaves, hprimary, hleaves, hperm⟩ := hshape
  have hspec' := hperm.mem_iff.1 hspec
  simp only [List.mem_cons] at hspec'
  rcases hspec' with rfl | rfl | hleaf
  · exact ⟨⟨_, rfl⟩, _, by rw [categorySpec_path, splitPath_categoryNodePath], .category rfl⟩
  · refine ⟨⟨record.name, ?_⟩, _, by rw [hprimary.path, splitPath_recordNodePath hp], .primary hprimary.parent⟩
    rw [hprimary.path, hprimary.parent, recordNodePath_eq hp]
  · have hpath : spec.path ∈ names.map (appendNodeSegment (recordNodePath component record)) :=
      hleaves.paths ▸ List.mem_map_of_mem hleaf
    obtain ⟨name, hname, hpath⟩ := List.mem_map.1 hpath
    have hkind : record.kind ≠ .service := fun h => by simp [hleaves.kind h] at hname
    have hparent := hleaves.parent spec hleaf
    refine ⟨⟨name, by rw [hparent, hpath]⟩, _, ?_, .leaf name hkind hparent⟩
    rw [← hpath, splitPath_appendNodeSegment, splitPath_recordNodePath hp, List.append_assoc]

theorem segments_of_placed (hp : Placed record) : segments record.path =
    segments record.ownerPath ++ [resourceCategory record.kind, escapeNodeIdSegment record.name] := by
  rw [hp, segments_resourcePath]

/-- Within a bundle no path comes twice. -/
theorem BundleShape.nodup (hshape : BundleShape component services record specs) (hp : Placed record) :
    (specs.map NodeSpec.path).Nodup := by
  obtain ⟨primary, names, leaves, hprimary, hleaves, hperm⟩ := hshape
  refine (hperm.map NodeSpec.path).nodup_iff.2 ?_
  rw [List.map_cons, List.map_cons, hleaves.paths, categorySpec_path, hprimary.path]
  have hdepth : pathDepth (recordNodePath component record) = pathDepth (categoryNodePath component record) + 1 := by
    rw [recordNodePath_eq hp, pathDepth_appendNodeSegment]
  have hnames : (names.map (appendNodeSegment (recordNodePath component record))).Nodup := by
    have hmap := hleaves.nodup.map (f := fun segment => recordNodePath component record ++ slash :: segment)
      fun a b hab => (List.cons.inj (List.append_cancel_left hab)).2
    rwa [List.map_map] at hmap
  have hdeeper : ∀ path ∈ names.map (appendNodeSegment (recordNodePath component record)),
      pathDepth path = pathDepth (recordNodePath component record) + 1 := by
    intro path hpath
    obtain ⟨name, -, rfl⟩ := List.mem_map.1 hpath
    exact pathDepth_appendNodeSegment _ _
  refine List.nodup_cons.2 ⟨fun hmem => ?_, List.nodup_cons.2 ⟨fun hmem => ?_, hnames⟩⟩
  · rcases List.mem_cons.1 hmem with heq | hmem
    · rw [← heq] at hdepth
      omega
    · have := hdeeper _ hmem
      omega
  · have := hdeeper _ hmem
    omega

/-- The path of a service has a category and a name for each step. -/
theorem even_segments (h : InventoryInv inventory) {owner : Str} (hk : Known inventory owner) :
    (segments owner).length % 2 = 0 := by
  refine Known.induct h (P := fun owner => (segments owner).length % 2 = 0) rfl (fun r _ _ _ ih => ?_) hk
  rw [segments_resourcePath, List.length_append, List.length_cons, List.length_cons, List.length_nil]
  omega

/-- Nodes of two bundles with one path: the same category, or the bundles are of one record. -/
theorem collision (h : InventoryInv inventory) (hr : inventory.resources.find? record.path = some record)
    (hr' : inventory.resources.find? record'.path = some record') (hshape : BundleShape component services record specs)
    (hshape' : BundleShape component services record' specs') {a b : NodeSpec} (ha : a ∈ specs) (hb : b ∈ specs')
    (hab : a.path = b.path) :
    record = record' ∨ a = categorySpec component services record ∧ b = categorySpec component services record' ∧
      record.ownerPath = record'.ownerPath ∧ record.kind = record'.kind := by
  have hp : Placed record := (h.path _ record hr).2
  have hp' : Placed record' := (h.path _ record' hr').2
  obtain ⟨-, tail, hsplit, htail⟩ := hshape.mem hp ha
  obtain ⟨-, tail', hsplit', htail'⟩ := hshape'.mem hp' hb
  have hsame : tail = tail' := by
    rw [hab, hsplit'] at hsplit
    exact (List.append_cancel_left hsplit).symm
  have heven := even_segments h (h.owner _ record hr)
  have heven' := even_segments h (h.owner _ record' hr')
  have hpath := segments_of_placed hp
  have hpath' := segments_of_placed hp'
  -- the number of segments tells a resource from categories and leaves
  have hlength : (segments record.path).length % 2 = 0 := by
    rw [hpath, List.length_append, List.length_cons, List.length_cons, List.length_nil]
    omega
  have hlength' : (segments record'.path).length % 2 = 0 := by
    rw [hpath', List.length_append, List.length_cons, List.length_cons, List.length_nil]
    omega
  have hrecord : segments record.path = segments record'.path → record = record' := by
    intro hsegments
    rw [segments_inj hsegments] at hr
    exact Option.some.inj (hr.symm.trans hr')
  -- an owner is no record of another kind
  have howner : ∀ {r q : ResourceRecord}, inventory.resources.find? r.path = some r → Known inventory q.ownerPath →
      segments q.ownerPath = segments r.path → r.kind = .service := by
    intro r q hrec hknown hsegments
    rw [segments_inj hsegments] at hknown
    rcases hknown with hnil | ⟨s, hs, hkind⟩
    · rw [(h.path _ r hrec).2] at hnil
      exact absurd hnil (resourcePath_ne_nil _ _ _)
    · obtain rfl := Option.some.inj (hrec.symm.trans hs)
      exact hkind
  have hcount := congrArg List.length hsame
  cases htail with
  | category hcat =>
      cases htail' with
      | category hcat' =>
          obtain ⟨hs, hc⟩ := List.append_inj' hsame rfl
          exact .inr ⟨hcat, hcat', segments_inj hs, resourceCategory_inj (List.cons.inj hc).1⟩
      | primary _ =>
          simp only [List.length_append, List.length_cons, List.length_nil] at hcount
          omega
      | leaf name hkind _ =>
          obtain ⟨hs, -⟩ := List.append_inj' hsame rfl
          exact absurd (howner hr' (h.owner _ record hr) hs) hkind
  | primary _ =>
      cases htail' with
      | primary _ => exact .inl (hrecord hsame)
      | _ =>
          simp only [List.length_append, List.length_cons, List.length_nil] at hcount
          omega
  | leaf name hkind _ =>
      cases htail' with
      | category _ =>
          obtain ⟨hs, -⟩ := List.append_inj' hsame rfl
          exact absurd (howner hr (h.owner _ record' hr') hs.symm) hkind
      | primary _ =>
          simp only [List.length_append, List.length_cons, List.length_nil] at hcount
          omega
      | leaf name' _ _ =>
          obtain ⟨hs, -⟩ := List.append_inj' hsame rfl
          exact .inl (hrecord hs)

end Collisions

end RttOpcua.Model
