import RttOpcua.Remote.Lemmas.Published
import RttOpcua.Remote.Staging

/-!
# Reading the resources of a service

What each kind of bundle leaves for a client, and how `discoverOperations`, `discoverValues`, `discoverPorts` and
`discoverServices` read it again.
-/

namespace RttOpcua.Remote

open RttOpcua.Lib RttOpcua.Model

section Read

variable {c : Component} {registry : TypeRegistry} {mode : PublicationMode} {selectors servicePath : List Str}
  {store : RemoteStore} {record : ResourceRecord}

/-- A node below the node of a published resource. -/
theorem find?_of_mem_bundle (h : Complete c registry mode selectors)
    (hstore : store.nodes = (snapshotComponent c registry mode selectors).nodes) {kind : ResourceKind}
    (hr : EffectiveAt c mode selectors servicePath kind record) (leaf : Str) {spec : NodeSpec}
    (hspec : spec ∈ recordSpecs c registry record)
    (hpath : spec.path = appendNodeSegment (recordNodePath c.name record) leaf) :
    store.nodes.find? (modelPath c.name servicePath [resourceCategory kind, record.name, leaf]) = some spec := by
  rw [hstore, ← hr.kind_eq, ← leafPath_eq_modelPath hr.placed hr.owner leaf]
  exact h.find?_iff.2 ⟨hr.mem_insertions hspec, hpath⟩

/-! ## Operations -/

/-- The description of an operation as its schema has it. -/
def DescribesOperation (c : Component) (registry : TypeRegistry) (record : ResourceRecord)
    (description : RemoteOperationDescription) : Prop :=
  ∃ operation, (c.service record.owner).getOperation record.name = some operation ∧
    (describe registry operation).supported = true ∧
    description = descriptionOf record.name operation.description (describe registry operation)

theorem discoverOperations_exactly (servicePath : List Str) (h : Complete c registry mode selectors)
    (hstore : store.nodes = (snapshotComponent c registry mode selectors).nodes)
    (hname : ∀ record, Effective c mode selectors record → record.name ≠ []) :
    ∃ operations, discoverOperations store c.name servicePath = .ok operations ∧
      Exactly c mode selectors servicePath .operation (fun _ => True) RemoteOperationDescription.name
        (DescribesOperation c registry) operations := by
  have hroot : store.nodes.contains (componentPath c.name) = true := by
    have hfind := h.find?_iff.2 ⟨List.mem_cons_self, rfl⟩
    rw [hstore, OrdMap.contains, show componentPath c.name = (rootSpec c).path from rfl, hfind]
    rfl
  rw [discoverOperations, hroot, if_neg (by decide), show lit "operations" = resourceCategory .operation from rfl]
  refine discoverFolder_exactly h hstore _ (fun record hr => hname record hr.toEffective) fun record hr => ?_
  have hbundle := hr.bundle h
  rw [bundle, hr.kind_eq] at hbundle
  obtain ⟨operation, hfound, hsupported, hspecs⟩ :=
    operationBundle_eq_ok c.name servicePath hr.placed hr.kind_eq hr.owner hbundle
  obtain ⟨hinputs, -, hsources⟩ := lengths_of_supported hsupported
  have hcategory : categoryNodePath c.name record = modelPath c.name servicePath [lit "operations"] := by
    rw [categoryNodePath_eq_modelPath hr.owner, hr.kind_eq]
    rfl
  -- the client reads the metadata in the bundle
  have hmetadata : ∀ leaf, metadataNode store.nodes c.name servicePath record.name leaf =
      metadataNode ((publishedSpecs c.name servicePath record.name operation.description
        (describe registry operation)).foldl insertNode ∅) c.name servicePath record.name leaf := by
    intro leaf
    have hleaf := find?_leaf h hr.toEffective (by rw [hr.kind_eq]; decide) leaf
    rw [leafPath_eq_modelPath hr.placed hr.owner, hr.kind_eq, hspecs, ← hstore] at hleaf
    refine Eq.trans hleaf (metadataNode_cons c.name servicePath record.name ?_ leaf)
    rw [categorySpec_path, hcategory]
  refine ⟨operationSpec (modelPath c.name servicePath [lit "operations"]) record.name operation.description
    (describe registry operation), ⟨?_, ?_, hcategory.symm, rfl, rfl, rfl⟩, .inl ⟨trivial, _, ?_, rfl, operation,
      hfound, hsupported, rfl⟩⟩
  · rw [hspecs, publishedSpecs]
    exact List.mem_cons_of_mem _ (List.mem_append_right _ List.mem_cons_self)
  · rw [recordNodePath_eq hr.placed, hcategory]
    rfl
  · have hread := discoverOperation_of_metadata c.name servicePath record.name operation.description hmetadata
      hinputs hsources
    exact congrArg (Except.map some) hread

/-! ## Properties and attributes -/

def RemoteValueCategory.kind : RemoteValueCategory → ResourceKind
  | .properties => .property
  | .attributes => .attribute

/-- What the bundle of a value finds of it. -/
def foundValue (service : Service) (name : Str) : RemoteValueCategory → Option (Option DataSource × Str)
  | .properties => (service.getProperty name).map fun p => (p.dataSource, p.description)
  | .attributes => (service.getValue name).map fun p => (p.dataSource, [])

def DescribesValue (c : Component) (registry : TypeRegistry) (category : RemoteValueCategory) (record : ResourceRecord)
    (description : RemoteValueDescription) : Prop :=
  ∃ source text type codec, foundValue (c.service record.owner) record.name category = some (some source, text) ∧
    source.typeInfo = some type ∧ registry.codecForTypeInfo type = some codec ∧ codec.hasValue = true ∧
    description = ⟨record.name, text, registry.getTypeName type, source.isAssignable⟩

theorem discoverValues_exactly (servicePath : List Str) (h : Complete c registry mode selectors)
    (hstore : store.nodes = (snapshotComponent c registry mode selectors).nodes)
    (hname : ∀ record, Effective c mode selectors record → record.name ≠ []) (category : RemoteValueCategory) :
    ∃ values, discoverValues store c.name servicePath category = .ok values ∧
      Exactly c mode selectors servicePath category.kind (fun _ => True) RemoteValueDescription.name
        (DescribesValue c registry category) values := by
  have hsegment : resourceCategory category.kind = categorySegment category := by cases category <;> rfl
  rw [discoverValues, ← hsegment]
  refine discoverFolder_exactly h hstore _ (fun record hr => hname record hr.toEffective) fun record hr => ?_
  have hbundle : configurationBundle c.name c.service registry record
      (foundValue (c.service record.owner) record.name category) = .ok (recordSpecs c registry record) := by
    have hbundle := hr.bundle h
    rw [bundle, hr.kind_eq] at hbundle
    cases category <;> exact hbundle
  obtain ⟨source, text, type, codec, hfound, htype, hcodec, hvalue, hspecs⟩ := configurationBundle_eq_ok hbundle
  have hleaf := find?_of_mem_bundle h hstore hr (lit "rttType")
    (by rw [hspecs]; exact List.mem_cons_of_mem _ (List.mem_cons_of_mem _ List.mem_cons_self)) rfl
  refine ⟨dataSourceSpec (categoryNodePath c.name record) record.name text source codec,
    ⟨?_, (recordNodePath_eq hr.placed).symm, rfl, rfl, rfl, rfl⟩, .inl ⟨trivial, _, ?_, rfl, source, text, type, codec,
      hfound, htype, hcodec, hvalue, rfl⟩⟩
  · rw [hspecs]
    exact List.mem_cons_of_mem _ List.mem_cons_self
  · rw [hsegment] at hleaf
    simp only [discoverValue, dataSourceSpec, hleaf]
    rfl

/-! ## Services -/

def DescribesService (c : Component) (record : ResourceRecord) (description : RemoteServiceDescription) : Prop :=
  ∃ service, record.service = some service ∧ description = ⟨record.name, (c.service service).doc⟩

/-- No resource is the provider `this`. -/
theorem EffectiveAt.name_ne_this (hr : EffectiveAt c mode selectors servicePath .service record) :
    record.name ≠ lit "this" := by
  have hfound := hr.found
  rw [find?_discoverComponent] at hfound
  obtain ⟨above, service, owner, legacy, -, -, hmem⟩ := mem_componentOffers.1 (List.mem_of_find?_eq_some hfound)
  obtain ⟨-, -, -, hname, -⟩ := mem_ownRecords hmem
  rw [hr.kind_eq] at hname
  exact of_decide_eq_true (List.mem_filter.1 hname).2

theorem discoverServices_exactly (servicePath : List Str) (h : Complete c registry mode selectors)
    (hstore : store.nodes = (snapshotComponent c registry mode selectors).nodes)
    (hname : ∀ record, Effective c mode selectors record → record.name ≠ []) :
    ∃ services, discoverServices store c.name servicePath = .ok services ∧
      Exactly c mode selectors servicePath .service (fun _ => True) RemoteServiceDescription.name
        (DescribesService c) services := by
  rw [discoverServices, show lit "services" = resourceCategory .service from rfl]
  refine discoverFolder_exactly h hstore _ (fun record hr => hname record hr.toEffective) fun record hr => ?_
  have hbundle := hr.bundle h
  rw [bundle, hr.kind_eq] at hbundle
  obtain ⟨-, service, hservice, hspecs⟩ := serviceBundle_eq_ok hbundle
  refine ⟨objectSpec (recordNodePath c.name record) (categoryNodePath c.name record) record.name
    (c.service service).doc, ⟨?_, rfl, rfl, rfl, rfl, rfl⟩, .inl ⟨trivial, _, ?_, rfl, service, hservice, rfl⟩⟩
  · rw [hspecs]
    exact List.mem_cons_of_mem _ List.mem_cons_self
  · exact congrArg Except.ok (if_neg hr.name_ne_this)

/-! ## Ports -/

/-- An input port, or an output port that keeps its last written value: these have a value node. -/
def HasValueNode (c : Component) (record : ResourceRecord) : Prop :=
  ∃ port, (c.service record.owner).getPort record.name = some port ∧
    (port.isInput = true ∨ port.keepsLastWrittenValue = true)

def portDirection (port : Port) : PortDirection := if port.isInput then .input else .output

def DescribesPort (c : Component) (registry : TypeRegistry) (record : ResourceRecord)
    (description : RemotePortDescription) : Prop :=
  ∃ port type codec, (c.service record.owner).getPort record.name = some port ∧ port.typeInfo = some type ∧
    registry.codecForTypeInfo type = some codec ∧ codec.hasValue = true ∧
    description = ⟨record.name, port.description, registry.getTypeName type, portDirection port⟩

/-- The value node of a port, as a client finds it. -/
theorem find?_value (h : Complete c registry mode selectors)
    (hstore : store.nodes = (snapshotComponent c registry mode selectors).nodes)
    (hr : EffectiveAt c mode selectors servicePath .port record) {port : Port} {type : Nat} {codec : Codec}
    (hspecs : recordSpecs c registry record = [categorySpec c.name c.service record,
        objectSpec (recordNodePath c.name record) (categoryNodePath c.name record) record.name port.description,
        staticStringSpec (appendNodeSegment (recordNodePath c.name record) (lit "type"))
          (recordNodePath c.name record) (lit "type") (lit "Canonical RTT port type.") (registry.getTypeName type)
          false,
        portDirectionSpec (recordNodePath c.name record) (portDirection port),
        staticStringSpec (appendNodeSegment (recordNodePath c.name record) (lit "description"))
          (recordNodePath c.name record) (lit "description") (lit "RTT port description.") port.description
          false] ++ portValueSpecs port (recordNodePath c.name record) codec) :
    store.nodes.find? (modelPath c.name servicePath [lit "ports", record.name, lit "value"]) =
      (portValueSpecs port (recordNodePath c.name record) codec).head? := by
  cases hvalue : portValueSpecs port (recordNodePath c.name record) codec with
  | cons value rest =>
      have hpath : value.path = appendNodeSegment (recordNodePath c.name record) (lit "value") := by
        unfold portValueSpecs at hvalue
        split at hvalue
        · obtain ⟨rfl, -⟩ := List.cons.inj hvalue
          rfl
        · split at hvalue
          · obtain ⟨rfl, -⟩ := List.cons.inj hvalue
            rfl
          · cases hvalue
      refine find?_of_mem_bundle h hstore hr (lit "value") ?_ hpath
      rw [hspecs, hvalue]
      exact List.mem_append_right _ List.mem_cons_self
  | nil =>
      have hleaf := find?_leaf h hr.toEffective (by rw [hr.kind_eq]; decide) (lit "value")
      rw [leafPath_eq_modelPath hr.placed hr.owner, hr.kind_eq, ← hstore] at hleaf
      refine hleaf.trans (Option.eq_none_iff_forall_ne_some.2 fun spec hfind => ?_)
      obtain ⟨hmem, hpath⟩ := mem_of_find?_insertNode hfind
      have hleafPath : modelPath c.name servicePath [resourceCategory .port, record.name, lit "value"] =
          appendNodeSegment (recordNodePath c.name record) (lit "value") := by
        rw [leafPath_eq_modelPath hr.placed hr.owner, hr.kind_eq]
      rw [hleafPath] at hpath
      have hdepth := congrArg pathDepth hpath
      have hrecord : pathDepth (recordNodePath c.name record) = pathDepth (categoryNodePath c.name record) + 1 := by
        rw [recordNodePath_eq hr.placed, pathDepth_appendNodeSegment]
      rw [hspecs, hvalue, List.append_nil] at hmem
      simp only [List.mem_cons, List.not_mem_nil, or_false] at hmem
      rw [pathDepth_appendNodeSegment] at hdepth
      have hdistinct : ∀ {leaf}, escapeNodeIdSegment leaf ≠ escapeNodeIdSegment (lit "value") →
          appendNodeSegment (recordNodePath c.name record) leaf ≠
            appendNodeSegment (recordNodePath c.name record) (lit "value") :=
        fun hne heq => hne (List.cons.inj (List.append_cancel_left heq)).2
      rcases hmem with rfl | rfl | rfl | rfl | rfl
      · rw [categorySpec_path] at hdepth
        omega
      · exact absurd hpath.symm (appendNodeSegment_ne _ _)
      · exact hdistinct (by decide) hpath
      · exact hdistinct (by decide) hpath
      · exact hdistinct (by decide) hpath

theorem discoverPorts_exactly {client : TypeRegistry} (servicePath : List Str)
    (h : Complete c registry mode selectors)
    (hstore : store.nodes = (snapshotComponent c registry mode selectors).nodes)
    (hname : ∀ record, Effective c mode selectors record → record.name ≠ [])
    (hcodec : ∀ type codec, registry.codecForTypeInfo type = some codec →
      client.codecForTypeName (registry.getTypeName type) = some codec) :
    ∃ ports, discoverPorts store c.name servicePath client = .ok ports ∧
      Exactly c mode selectors servicePath .port (HasValueNode c) RemotePortDescription.name
        (DescribesPort c registry) ports := by
  rw [discoverPorts, show lit "ports" = resourceCategory .port from rfl]
  refine discoverFolder_exactly h hstore _ (fun record hr => hname record hr.toEffective) fun record hr => ?_
  have hbundle := hr.bundle h
  rw [bundle, hr.kind_eq] at hbundle
  obtain ⟨port, type, codec, hport, -, htype, htypeCodec, hvalue, hspecs⟩ := portBundle_eq_ok hbundle
  have htypeNode : store.nodes.find? (modelPath c.name servicePath [lit "ports", record.name, lit "type"]) =
      some (staticStringSpec (appendNodeSegment (recordNodePath c.name record) (lit "type"))
        (recordNodePath c.name record) (lit "type") (lit "Canonical RTT port type.") (registry.getTypeName type) false) :=
    find?_of_mem_bundle h hstore hr (lit "type") (by rw [hspecs]; simp) rfl
  have hdirectionNode : store.nodes.find? (modelPath c.name servicePath [lit "ports", record.name, lit "direction"]) =
      some (portDirectionSpec (recordNodePath c.name record) (portDirection port)) :=
    find?_of_mem_bundle h hstore hr (lit "direction") (by rw [hspecs]; simp [portDirection]) rfl
  have hvalueNode := find?_value h hstore hr hspecs
  refine ⟨objectSpec (recordNodePath c.name record) (categoryNodePath c.name record) record.name port.description,
    ⟨by rw [hspecs]; simp, rfl, rfl, rfl, rfl, rfl⟩, ?_⟩
  -- the port without its value node
  have hread : discoverPort store c.name servicePath client (objectSpec (recordNodePath c.name record)
      (categoryNodePath c.name record) record.name port.description) =
      if port.isInput = true ∨ port.keepsLastWrittenValue = true then
        .ok (some ⟨record.name, port.description, registry.getTypeName type, portDirection port⟩)
      else .ok none := by
    simp only [discoverPort, objectSpec, htypeNode, hdirectionNode, hvalueNode, readStringValue, staticStringSpec,
      readPortDirection, portDirectionSpec, bind, Except.bind, validatePortValue, hcodec type codec htypeCodec, hvalue,
      portValueSpecs, portDirection]
    cases port.isInput
    all_goals cases port.keepsLastWrittenValue
    all_goals simp [variableAttributes, outputPortValueSpec, inputPortValueSpec]
  by_cases hshown : port.isInput = true ∨ port.keepsLastWrittenValue = true
  · rw [if_pos hshown] at hread
    exact .inl ⟨⟨port, hport, hshown⟩, _, hread, rfl, port, type, codec, hport, htype, htypeCodec, hvalue, rfl⟩
  · rw [if_neg hshown] at hread
    refine .inr ⟨fun hshown' => hshown ?_, hread⟩
    obtain ⟨port', hport', hvalue'⟩ := hshown'
    obtain rfl := Option.some.inj (hport.symm.trans hport')
    exact hvalue'

end Read

end RttOpcua.Remote
