import RttOpcua.Remote.Discovery
import RttOpcua.Remote.Lemmas.Mirror

/-!
# What a client finds of a publication

The children of a folder are the nodes of the effective resources of one service and one kind, and below the node of a
resource a client finds what the resource's own bundle has there.
-/

namespace RttOpcua.Remote

open RttOpcua.Lib RttOpcua.Model

/-! ## Paths -/

section Paths

variable {component : Str} {servicePath : List Str} {record : ResourceRecord}

theorem length_segments_ownerPath (servicePath : List Str) :
    (segments (ownerPath servicePath)).length = 2 * servicePath.length := by
  induction servicePath using List.reverseRecOn with
  | nil => rfl
  | append_singleton services service ih =>
      rw [ownerPath_append, segments_resourcePath, List.length_append, ih]
      simp only [List.length_append, List.length_cons, List.length_nil]
      omega

end Paths

/-! ## Effective resources -/

section Effective

variable (c : Component) (mode : PublicationMode) (selectors : List Str)

/-- A resource that is published. -/
structure Effective (record : ResourceRecord) : Prop where
  path : record.path ∈ effectivePaths c mode selectors
  found : (discoverComponent c).resources.find? record.path = some record

/-- A published resource of the service at a path. -/
structure EffectiveAt (servicePath : List Str) (kind : ResourceKind) (record : ResourceRecord) : Prop extends
    Effective c mode selectors record where
  owner : record.ownerPath = ownerPath servicePath
  kind_eq : record.kind = kind

variable {c mode selectors} {record record' : ResourceRecord}

theorem Effective.placed (h : Effective c mode selectors record) : Placed record := (record_path h.found).2

/-- Within a service a kind and a name have one resource. -/
theorem EffectiveAt.eq {servicePath : List Str} {kind : ResourceKind}
    (h : EffectiveAt c mode selectors servicePath kind record)
    (h' : EffectiveAt c mode selectors servicePath kind record') (hname : record.name = record'.name) :
    record = record' := by
  have hplaced := h.placed
  have hplaced' := h'.placed
  have hpath : record.path = record'.path := by
    rw [hplaced, hplaced', h.owner, h'.owner, h.kind_eq, h'.kind_eq, hname]
  have hfound := h.found
  rw [hpath, h'.found, Option.some.injEq] at hfound
  exact hfound.symm

end Effective

/-! ## Nodes of resources -/

section Nodes

variable {c : Component} {registry : TypeRegistry} {mode : PublicationMode} {selectors : List Str}
  {record : ResourceRecord}

/-- What the bundle of a published resource has. -/
abbrev recordSpecs (c : Component) (registry : TypeRegistry) (record : ResourceRecord) : List NodeSpec :=
  resourceSpecs c registry (discoverComponent c) record.path

theorem Effective.shape (hr : Effective c mode selectors record) (h : Complete c registry mode selectors) :
    BundleShape c.name c.service record (recordSpecs c registry record) := by
  obtain ⟨record', hfound, -, -, hshape⟩ := h.shape hr.path
  obtain rfl := Option.some.inj (hfound.symm.trans hr.found)
  exact hshape

theorem Effective.bundle (hr : Effective c mode selectors record) (h : Complete c registry mode selectors) :
    bundle c.name c.service registry record = .ok (recordSpecs c registry record) := by
  obtain ⟨record', specs, hfound, hbundle⟩ := h.bundle record.path hr.path
  obtain rfl := Option.some.inj (hfound.symm.trans hr.found)
  rw [recordSpecs, resourceSpecs_eq hfound hbundle, hbundle]

theorem Effective.mem_insertions (hr : Effective c mode selectors record) {spec : NodeSpec}
    (hspec : spec ∈ recordSpecs c registry record) : spec ∈ insertions c registry mode selectors :=
  List.mem_cons_of_mem _ (List.mem_flatMap.2 ⟨_, hr.path, hspec⟩)

/-- An inserted node is that of the component or belongs to the bundle of a published resource. -/
theorem exists_record (h : Complete c registry mode selectors) {spec : NodeSpec}
    (hspec : spec ∈ insertions c registry mode selectors) :
    spec = rootSpec c ∨ ∃ record, Effective c mode selectors record ∧ spec ∈ recordSpecs c registry record := by
  rcases List.mem_cons.1 hspec with rfl | hspec
  · exact .inl rfl
  · obtain ⟨path, hpath, hspec⟩ := List.mem_flatMap.1 hspec
    obtain ⟨record, hfound, rfl, -⟩ := h.shape hpath
    exact .inr ⟨record, ⟨hpath, hfound⟩, hspec⟩

theorem even_segments_path (hr : Effective c mode selectors record) : (segments record.path).length % 2 = 0 := by
  have howner := even_segments (discoverComponent_inv c) ((discoverComponent_inv c).owner _ record hr.found)
  rw [segments_of_placed hr.placed, List.length_append, List.length_cons, List.length_cons, List.length_nil]
  omega

theorem record_of_parent (h : Complete c registry mode selectors) {servicePath : List Str} {kind : ResourceKind}
    {spec : NodeSpec} (hspec : spec ∈ insertions c registry mode selectors)
    (hparent : spec.parentPath = modelPath c.name servicePath [resourceCategory kind]) :
    ∃ record, EffectiveAt c mode selectors servicePath kind record ∧ spec ∈ recordSpecs c registry record ∧
      spec.path = recordNodePath c.name record := by
  -- the segments of the folder below the component
  let folder : ResourceRecord :=
    { kind, path := [], ownerPath := ownerPath servicePath, legacyPath := [], name := [], owner := 0
      discoveryError := [] }
  have hfolder : splitPath spec.parentPath = splitPath (componentPath c.name) ++
      (segments (ownerPath servicePath) ++ [resourceCategory kind]) := by
    have hpath : categoryNodePath c.name folder = modelPath c.name servicePath [resourceCategory kind] :=
      categoryNodePath_eq_modelPath rfl
    rw [hparent, ← hpath, splitPath_categoryNodePath]
  have hdepth := length_segments_ownerPath servicePath
  rcases exists_record h hspec with rfl | ⟨record, hr, hmem⟩
  · have hlength := congrArg List.length hfolder
    have hroot : splitPath (componentPath c.name) = splitPath (rootSpec c).parentPath ++ [escapeNodeIdSegment c.name] :=
      splitPath_appendNodeSegment _ _
    rw [hroot] at hlength
    simp only [List.length_append, List.length_cons] at hlength
    omega
  · obtain ⟨⟨name, hname⟩, tail, hsplit, htail⟩ := (hr.shape h).mem hr.placed hmem
    rw [hname, splitPath_appendNodeSegment, hfolder, List.append_assoc] at hsplit
    have hsame := List.append_cancel_left hsplit
    have hcount := congrArg List.length hsame
    have heven := even_segments (discoverComponent_inv c) ((discoverComponent_inv c).owner _ record hr.found)
    have heven' := even_segments_path hr
    cases htail with
    | category =>
        simp only [List.length_append, List.length_cons, List.length_nil] at hcount
        omega
    | leaf =>
        simp only [List.length_append, List.length_cons, List.length_nil] at hcount
        omega
    | primary =>
        rw [segments_of_placed hr.placed, List.append_assoc] at hsame
        obtain ⟨howner, hrest⟩ := List.append_inj' hsame rfl
        obtain ⟨hkind, hescaped⟩ := List.cons.inj hrest
        have hkind := resourceCategory_inj hkind
        have howner := segments_inj howner
        refine ⟨record, ⟨hr, howner.symm, hkind.symm⟩, hmem, ?_⟩
        rw [hname, hparent, recordNodePath_eq hr.placed, categoryNodePath_eq_modelPath howner.symm, ← hkind,
          appendNodeSegment, appendNodeSegment, List.head_eq_of_cons_eq hescaped]

/-- A node directly below the node of a resource that is no service belongs to the bundle of the resource. -/
theorem mem_of_leafPath (h : Complete c registry mode selectors) (hr : Effective c mode selectors record)
    (hkind : record.kind ≠ .service) {spec : NodeSpec} (hspec : spec ∈ insertions c registry mode selectors) {leaf : Str}
    (hpath : spec.path = appendNodeSegment (recordNodePath c.name record) leaf) :
    spec ∈ recordSpecs c registry record := by
  have hleaf : splitPath spec.path = splitPath (componentPath c.name) ++
      (segments record.path ++ [escapeNodeIdSegment leaf]) := by
    rw [hpath, splitPath_appendNodeSegment, splitPath_recordNodePath hr.placed, List.append_assoc]
  have heven := even_segments_path hr
  rcases exists_record h hspec with rfl | ⟨record', hr', hmem⟩
  · have hlength := congrArg List.length hleaf
    have hroot : (rootSpec c).path = componentPath c.name := rfl
    rw [hroot] at hlength
    simp only [List.length_append, List.length_cons] at hlength
    omega
  · obtain ⟨-, tail, hsplit, htail⟩ := (hr'.shape h).mem hr'.placed hmem
    rw [hleaf] at hsplit
    have hsame := List.append_cancel_left hsplit
    have hcount := congrArg List.length hsame
    have heven' := even_segments_path hr'
    cases htail with
    | primary =>
        simp only [List.length_append, List.length_cons, List.length_nil] at hcount
        omega
    | category =>
        -- the owner of a resource is a service
        obtain ⟨howner, -⟩ := List.append_inj' hsame rfl
        rcases (discoverComponent_inv c).owner _ record' hr'.found with hnil | ⟨service, hfound, hservice⟩
        · rw [← segments_inj howner, hr.placed] at hnil
          exact absurd hnil (resourcePath_ne_nil _ _ _)
        · rw [← segments_inj howner, hr.found] at hfound
          obtain rfl := Option.some.inj hfound
          exact absurd hservice hkind
    | leaf =>
        obtain ⟨hrecord, -⟩ := List.append_inj' hsame rfl
        rw [recordSpecs, segments_inj hrecord]
        exact hmem

theorem find?_leaf (h : Complete c registry mode selectors) (hr : Effective c mode selectors record)
    (hkind : record.kind ≠ .service) (leaf : Str) :
    (snapshotComponent c registry mode selectors).nodes.find? (appendNodeSegment (recordNodePath c.name record) leaf) =
      ((recordSpecs c registry record).foldl insertNode ∅).find?
        (appendNodeSegment (recordNodePath c.name record) leaf) := by
  have hsame : ∀ a ∈ recordSpecs c registry record, ∀ b ∈ recordSpecs c registry record, a.path = b.path → a = b :=
    fun a ha b hb => h.same a (hr.mem_insertions ha) b (hr.mem_insertions hb)
  refine Option.ext fun spec => h.find?_iff.trans ⟨?_, fun hfind => ?_⟩
  · rintro ⟨hspec, hpath⟩
    rw [← hpath]
    exact find?_of_mem hsame (mem_of_leafPath h hr hkind hspec hpath)
  · obtain ⟨hmem, hpath⟩ := mem_of_find?_insertNode hfind
    exact ⟨hr.mem_insertions hmem, hpath⟩

end Nodes

/-! ## Loops -/

section Loops

variable {D : Type} {read : NodeSpec → Except Str (Option D)}

theorem readReferences_eq_ok {f : NodeSpec → Option D} {references : List NodeSpec}
    (hname : ∀ r ∈ references, r.browseName ≠ []) (hread : ∀ r ∈ references, read r = .ok (f r)) :
    readReferences read references = .ok (references.filterMap f) := by
  induction references with
  | nil => rfl
  | cons r rest ih =>
      rw [List.forall_mem_cons] at hname hread
      obtain ⟨hne, hname⟩ := hname
      obtain ⟨hr, hread⟩ := hread
      simp only [readReferences, if_neg hne, hr, ih hname hread, bind, Except.bind, List.filterMap_cons]
      cases f r with
      | none => rfl
      | some d => rfl

theorem hasAdjacentDuplicate_of_nodup {names : List Str} (h : names.Nodup) : hasAdjacentDuplicate names = false := by
  induction names with
  | nil => rfl
  | cons a rest ih =>
      obtain ⟨hnot, hrest⟩ := List.nodup_cons.1 h
      cases rest with
      | nil => rfl
      | cons b rest =>
          have hne : a ≠ b := fun hab => hnot (hab ▸ List.mem_cons_self)
          rw [hasAdjacentDuplicate, ih hrest, Bool.or_false, decide_eq_false hne]

/-- The names of what is read are those of the nodes, without repetition. -/
theorem nodup_filterMap {f : NodeSpec → Option D} {name : D → Str} {references : List NodeSpec}
    (hname : ∀ r ∈ references, ∀ d, f r = some d → name d = r.browseName)
    (hnodup : (references.map NodeSpec.browseName).Nodup) : ((references.filterMap f).map name).Nodup := by
  induction references with
  | nil => exact List.nodup_nil
  | cons r rest ih =>
      rw [List.forall_mem_cons] at hname
      obtain ⟨hr, hname⟩ := hname
      obtain ⟨hnot, hnodup⟩ := List.nodup_cons.1 hnodup
      rw [List.filterMap_cons]
      cases hf : f r with
      | none => exact ih hname hnodup
      | some d =>
          refine List.nodup_cons.2 ⟨fun hmem => hnot ?_, ih hname hnodup⟩
          obtain ⟨e, he, hsame⟩ := List.mem_map.1 hmem
          obtain ⟨q, hq, hfq⟩ := List.mem_filterMap.1 he
          rw [← hr d hf, ← hsame, hname q hq e hfq]
          exact List.mem_map_of_mem hq

theorem mapM_eq_ok {α β : Type} {build : α → Except Str β} (name : α → Str) (name' : β → Str) {l : List α}
    (h : ∀ a ∈ l, ∃ b, build a = .ok b ∧ name' b = name a) :
    ∃ bs, l.mapM build = .ok bs ∧ bs.map name' = l.map name ∧ ∀ b ∈ bs, ∃ a ∈ l, build a = .ok b := by
  induction l with
  | nil => exact ⟨[], rfl, rfl, fun b hb => absurd hb List.not_mem_nil⟩
  | cons a rest ih =>
      obtain ⟨⟨b, hb, hsame⟩, hrest⟩ := List.forall_mem_cons.1 h
      obtain ⟨bs, hbs, hnames, hall⟩ := ih hrest
      refine ⟨b :: bs, ?_, by rw [List.map_cons, List.map_cons, hsame, hnames], fun x hx => ?_⟩
      · rw [List.mapM_cons, hb]
        simp only [bind, Except.bind, hbs]
        rfl
      · rcases List.mem_cons.1 hx with rfl | hx
        · exact ⟨a, List.mem_cons_self, hb⟩
        · obtain ⟨y, hy, hbuild⟩ := hall x hx
          exact ⟨y, List.mem_cons_of_mem _ hy, hbuild⟩

end Loops

/-! ## Folders -/

section Folders

/-- The items stand for the published resources of one service and one kind that are shown, each for one of them. -/
structure Exactly {α : Type} (c : Component) (mode : PublicationMode) (selectors : List Str) (servicePath : List Str)
    (kind : ResourceKind) (shown : ResourceRecord → Prop) (name : α → Str) (Stands : ResourceRecord → α → Prop)
    (items : List α) : Prop where
  nodup : (items.map name).Nodup
  stands : ∀ item ∈ items, ∃ record, EffectiveAt c mode selectors servicePath kind record ∧ shown record ∧
    name item = record.name ∧ Stands record item
  all : ∀ record, EffectiveAt c mode selectors servicePath kind record → shown record → record.name ∈ items.map name

/-- The node of a resource, below its folder. -/
structure IsNode (c : Component) (registry : TypeRegistry) (record : ResourceRecord) (kind : NodeKind)
    (node : NodeSpec) : Prop where
  mem : node ∈ recordSpecs c registry record
  path : node.path = recordNodePath c.name record
  parent : node.parentPath = categoryNodePath c.name record
  browseName : node.browseName = record.name
  reference : node.reference = .hasComponent
  kind_eq : node.kind = kind

variable {c : Component} {registry : TypeRegistry} {mode : PublicationMode} {selectors servicePath : List Str}
  {kind : ResourceKind} {shown : ResourceRecord → Prop} {D : Type} {name : D → Str} {Stands : ResourceRecord → D → Prop}

theorem Exactly.imp {Stands' : ResourceRecord → D → Prop} {items : List D}
    (h : Exactly c mode selectors servicePath kind shown name Stands items)
    (himp : ∀ record item, Stands record item → Stands' record item) :
    Exactly c mode selectors servicePath kind shown name Stands' items := by
  refine ⟨h.nodup, fun item hitem => ?_, h.all⟩
  obtain ⟨record, hrecord, hshown, hname, hstands⟩ := h.stands item hitem
  exact ⟨record, hrecord, hshown, hname, himp record item hstands⟩

theorem Exactly.mapM {α : Type} {name' : α → Str} {Stands' : ResourceRecord → α → Prop} {items : List D}
    {build : D → Except Str α} (h : Exactly c mode selectors servicePath kind shown name Stands items)
    (hbuild : ∀ record item, EffectiveAt c mode selectors servicePath kind record → name item = record.name →
      Stands record item → ∃ built, build item = .ok built ∧ name' built = record.name ∧ Stands' record built) :
    ∃ built, items.mapM build = .ok built ∧ Exactly c mode selectors servicePath kind shown name' Stands' built := by
  have hbuilds : ∀ item ∈ items, ∃ b, build item = .ok b ∧ name' b = name item := by
    intro item hitem
    obtain ⟨record, hrecord, -, hname, hstands⟩ := h.stands item hitem
    obtain ⟨b, hb, hsame, -⟩ := hbuild record item hrecord hname hstands
    exact ⟨b, hb, hsame.trans hname.symm⟩
  obtain ⟨built, hbuilt, hnames, hfrom⟩ := mapM_eq_ok name name' hbuilds
  refine ⟨built, hbuilt, ⟨hnames ▸ h.nodup, fun b hb => ?_, fun record hrecord hshown => hnames ▸ h.all record hrecord
    hshown⟩⟩
  obtain ⟨item, hitem, hok⟩ := hfrom b hb
  obtain ⟨record, hrecord, hshown, hname, hstands⟩ := h.stands item hitem
  obtain ⟨b', hb', hsame, hstands'⟩ := hbuild record item hrecord hname hstands
  obtain rfl : b = b' := Except.ok.inj (hok.symm.trans hb')
  exact ⟨record, hrecord, hshown, hsame, hstands'⟩

variable {store : RemoteStore}

theorem mem_browse (h : Complete c registry mode selectors)
    (hstore : store.nodes = (snapshotComponent c registry mode selectors).nodes) {folder : Str} {k : NodeKind}
    {node : NodeSpec} : node ∈ store.browse folder k ↔ node ∈ insertions c registry mode selectors ∧
      node.parentPath = folder ∧ node.reference = .hasComponent ∧ node.kind = k := by
  rw [(store.browse_perm folder k).mem_iff, List.mem_filter, decide_eq_true_iff, hstore]
  refine and_congr_left fun _ => ?_
  simp only [List.mem_map, Prod.exists, exists_eq_right, OrdMap.mem_entries, h.find?_iff]
  exact ⟨fun ⟨_, hmem, _⟩ => hmem, fun hmem => ⟨_, hmem, rfl⟩⟩

theorem nodup_browse (h : Complete c registry mode selectors)
    (hstore : store.nodes = (snapshotComponent c registry mode selectors).nodes) (folder : Str) (k : NodeKind) :
    ((store.browse folder k).map NodeSpec.path).Nodup := by
  rw [((store.browse_perm folder k).map NodeSpec.path).nodup_iff, hstore]
  have hpaths : ((snapshotComponent c registry mode selectors).nodes.entries.map Prod.snd).map NodeSpec.path =
      (snapshotComponent c registry mode selectors).nodes.keys := by
    rw [OrdMap.keys, List.map_map]
    refine List.map_congr_left fun entry hentry => ?_
    obtain ⟨path, node⟩ := entry
    exact (h.find?_iff.1 (OrdMap.mem_entries.1 hentry)).2
  have hkeys := (OrdMap.keys_nodup (m := (snapshotComponent c registry mode selectors).nodes))
  rw [← hpaths] at hkeys
  exact hkeys.sublist (List.filter_sublist.map _)

theorem contains_folder (h : Complete c registry mode selectors)
    (hstore : store.nodes = (snapshotComponent c registry mode selectors).nodes) {record : ResourceRecord}
    (hr : EffectiveAt c mode selectors servicePath kind record) :
    store.nodes.contains (modelPath c.name servicePath [resourceCategory kind]) = true := by
  obtain ⟨primary, names, leaves, -, -, hperm⟩ := hr.shape h
  have hfind := h.find?_iff.2 ⟨hr.mem_insertions (hperm.mem_iff.2 List.mem_cons_self), rfl⟩
  rw [categorySpec_path, categoryNodePath_eq_modelPath hr.owner, hr.kind_eq] at hfind
  rw [hstore, OrdMap.contains, hfind]
  rfl

/-- What is read of a folder, where each node is read as the resource that it is of. -/
theorem discoverFolder_exactly (h : Complete c registry mode selectors)
    (hstore : store.nodes = (snapshotComponent c registry mode selectors).nodes) {k : NodeKind}
    {read : NodeSpec → Except Str (Option D)} (what : Str)
    (hname : ∀ record, EffectiveAt c mode selectors servicePath kind record → record.name ≠ [])
    (hnode : ∀ record, EffectiveAt c mode selectors servicePath kind record →
      ∃ node, IsNode c registry record k node ∧
        ((shown record ∧ ∃ d, read node = .ok (some d) ∧ name d = record.name ∧ Stands record d) ∨
          (¬ shown record ∧ read node = .ok none))) :
    ∃ items, discoverFolder store (modelPath c.name servicePath [resourceCategory kind]) k what name read = .ok items ∧
      Exactly c mode selectors servicePath kind shown name Stands items := by
  by_cases hfolder : store.nodes.contains (modelPath c.name servicePath [resourceCategory kind]) = false
  · refine ⟨[], by rw [discoverFolder, if_pos hfolder], List.nodup_nil, fun item hitem => absurd hitem
      List.not_mem_nil, fun record hr _ => ?_⟩
    rw [contains_folder h hstore hr] at hfolder
    cases hfolder
  -- the nodes of the folder are those of the resources
  have hrecord : ∀ node ∈ store.browse (modelPath c.name servicePath [resourceCategory kind]) k, ∃ record,
      EffectiveAt c mode selectors servicePath kind record ∧ IsNode c registry record k node ∧
        ((shown record ∧ ∃ d, read node = .ok (some d) ∧ name d = record.name ∧ Stands record d) ∨
          (¬ shown record ∧ read node = .ok none)) := by
    intro node hmem
    obtain ⟨hinserted, hparent, -, -⟩ := (mem_browse h hstore).1 hmem
    obtain ⟨record, hr, hspec, hpath⟩ := record_of_parent h hinserted hparent
    obtain ⟨node', hnode', hread⟩ := hnode record hr
    obtain rfl := h.same node hinserted node' (hr.mem_insertions hnode'.mem) (hpath.trans hnode'.path.symm)
    exact ⟨record, hr, hnode', hread⟩
  have hlisted : ∀ {record node}, EffectiveAt c mode selectors servicePath kind record → IsNode c registry record k node →
      node ∈ store.browse (modelPath c.name servicePath [resourceCategory kind]) k := by
    intro record node hr hnode
    refine (mem_browse h hstore).2 ⟨hr.mem_insertions hnode.mem, ?_, hnode.reference, hnode.kind_eq⟩
    rw [hnode.parent, categoryNodePath_eq_modelPath hr.owner, hr.kind_eq]
  let f : NodeSpec → Option D := fun node => (read node).toOption.join
  have hread : ∀ node ∈ store.browse (modelPath c.name servicePath [resourceCategory kind]) k,
      read node = .ok (f node) := by
    intro node hmem
    obtain ⟨record, -, -, ⟨-, d, hd, -⟩ | ⟨-, hd⟩⟩ := hrecord node hmem
    all_goals simp only [f, hd, Except.toOption, Option.join_some]
  have hsome : ∀ node ∈ store.browse (modelPath c.name servicePath [resourceCategory kind]) k, ∀ d, f node = some d →
      ∃ record, EffectiveAt c mode selectors servicePath kind record ∧ IsNode c registry record k node ∧ shown record ∧
        name d = record.name ∧ Stands record d := by
    intro node hmem d hd
    have hok := hread node hmem
    rw [hd] at hok
    obtain ⟨record, hr, hnode, ⟨hshown, d', hd', hsame, hstands⟩ | ⟨-, hnone⟩⟩ := hrecord node hmem
    · obtain rfl : d = d' := Option.some.inj (Except.ok.inj (hok.symm.trans hd'))
      exact ⟨record, hr, hnode, hshown, hsame, hstands⟩
    · cases hok.symm.trans hnone
  have hnodup : ((store.browse (modelPath c.name servicePath [resourceCategory kind]) k).map
      NodeSpec.browseName).Nodup := by
    refine List.Nodup.of_map (appendNodeSegment (modelPath c.name servicePath [resourceCategory kind])) ?_
    rw [List.map_map]
    refine (List.map_congr_left fun node hmem => ?_) ▸ nodup_browse h hstore _ k
    obtain ⟨record, hr, hnode, -⟩ := hrecord node hmem
    rw [hnode.path, recordNodePath_eq hr.placed, categoryNodePath_eq_modelPath hr.owner, hr.kind_eq,
      Function.comp_apply, hnode.browseName]
  have hfound : readReferences read (store.browse (modelPath c.name servicePath [resourceCategory kind]) k) =
      .ok ((store.browse (modelPath c.name servicePath [resourceCategory kind]) k).filterMap f) := by
    refine readReferences_eq_ok (fun node hmem => ?_) hread
    obtain ⟨record, hr, hnode, -⟩ := hrecord node hmem
    rw [hnode.browseName]
    exact hname record hr
  -- the order of the names is all that sorting changes
  have hsorted := List.perm_insertionSort (fun a b => AtMost (name a) (name b))
    ((store.browse (modelPath c.name servicePath [resourceCategory kind]) k).filterMap f)
  have hunique : (((store.browse (modelPath c.name servicePath [resourceCategory kind]) k).filterMap f).map
      name).Nodup := by
    refine nodup_filterMap (fun node hmem d hd => ?_) hnodup
    obtain ⟨record, -, hnode, -, hsame, -⟩ := hsome node hmem d hd
    rw [hsame, hnode.browseName]
  refine ⟨_, ?_, (hsorted.map name).nodup_iff.2 hunique, fun item hitem => ?_, fun record hr hshown => ?_⟩
  · simp only [discoverFolder, if_neg hfolder, hfound, bind, Except.bind,
      hasAdjacentDuplicate_of_nodup ((hsorted.map name).nodup_iff.2 hunique), Bool.false_eq_true, if_false]
  · obtain ⟨node, hmem, hd⟩ := List.mem_filterMap.1 (hsorted.mem_iff.1 hitem)
    obtain ⟨record, hr, -, hshown, hsame, hstands⟩ := hsome node hmem item hd
    exact ⟨record, hr, hshown, hsame, hstands⟩
  · obtain ⟨node, hnode, ⟨-, d, hd, hsame, -⟩ | ⟨hhidden, -⟩⟩ := hnode record hr
    · have hmem := hlisted hr hnode
      have hf : f node = some d := Except.ok.inj ((hread node hmem).symm.trans hd)
      rw [← hsame]
      exact List.mem_map_of_mem (hsorted.mem_iff.2 (List.mem_filterMap.2 ⟨node, hmem, hf⟩))
    · exact absurd hshown hhidden

end Folders

end RttOpcua.Remote
