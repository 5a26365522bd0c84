import RttOpcua.Model.Lemmas.Describe
import RttOpcua.Model.Lemmas.Snapshot
import RttOpcua.Remote.Operation

/-!
# The way of a schema

From `describe` over the published nodes and the description that a client reads to a `RemoteOperation`, and back to
`describe`.
-/

namespace RttOpcua.Remote

open RttOpcua.Lib RttOpcua.Model

/-! ## The published nodes -/

section Published

variable (component : Str) (servicePath : List Str) (name : Str)

/-- The nodes of an operation, as its bundle has them. -/
def publishedSpecs (description : Str) (schema : OperationSchema) : List NodeSpec :=
  operationMetadata (operationPath component servicePath name) schema ++
    [operationSpec (modelPath component servicePath [lit "operations"]) name description schema]

/-- The path of a service among the resources of its component. -/
def ownerPath : Str := servicePath.foldl (fun owner name => resourcePath owner .service name) []

theorem ownerPath_append :
    ownerPath (servicePath ++ [name]) = resourcePath (ownerPath servicePath) .service name := by
  rw [ownerPath, List.foldl_append]
  rfl

theorem modelPath_append (trailing : List Str) (leaf : Str) :
    modelPath component servicePath (trailing ++ [leaf]) =
      appendNodeSegment (modelPath component servicePath trailing) leaf := by
  simp [modelPath, makeNodePath, List.foldl_append]

/-- The client finds the node of a service where the server puts it. -/
theorem ownerNodePath_eq {record : ResourceRecord} (h : record.ownerPath = ownerPath servicePath) :
    ownerNodePath component record = modelPath component servicePath [] := by
  induction servicePath using List.reverseRecOn generalizing record with
  | nil =>
      simp only [ownerPath, List.foldl_nil] at h
      simp [ownerNodePath, h, modelPath, makeNodePath, componentPath, componentsPath]
  | append_singleton services service ih =>
      have howner : record.ownerPath = resourcePath (ownerPath services) .service service := by
        rw [h, ownerPath_append]
      -- the service as a resource of its owner
      let resource : ResourceRecord :=
        { kind := .service, path := record.ownerPath, ownerPath := ownerPath services, legacyPath := [],
          name := service, owner := 0, discoveryError := [] }
      have hne : record.ownerPath ≠ [] := howner ▸ resourcePath_ne_nil _ _ _
      have hnode : ownerNodePath component record = recordNodePath component resource := by
        rw [ownerNodePath, if_neg hne, recordNodePath]
      have hplaced : Placed resource := howner
      rw [hnode, recordNodePath_eq hplaced, categoryNodePath_eq, ih rfl]
      simp [modelPath, makeNodePath, List.foldl_append, resource, resourceCategory]

section Record

variable {component : Str} {servicePath : List Str} {record : ResourceRecord}

/-- So are those of a category, of a resource and of its metadata. -/
theorem categoryNodePath_eq_modelPath (howner : record.ownerPath = ownerPath servicePath) :
    categoryNodePath component record = modelPath component servicePath [resourceCategory record.kind] := by
  rw [categoryNodePath_eq, ownerNodePath_eq component servicePath howner]
  exact (modelPath_append component servicePath [] (resourceCategory record.kind)).symm

theorem recordNodePath_eq_modelPath (hplaced : Placed record) (howner : record.ownerPath = ownerPath servicePath) :
    recordNodePath component record = modelPath component servicePath [resourceCategory record.kind, record.name] := by
  rw [recordNodePath_eq hplaced, categoryNodePath_eq_modelPath howner]
  exact (modelPath_append component servicePath [resourceCategory record.kind] record.name).symm

theorem leafPath_eq_modelPath (hplaced : Placed record) (howner : record.ownerPath = ownerPath servicePath)
    (leaf : Str) : appendNodeSegment (recordNodePath component record) leaf =
      modelPath component servicePath [resourceCategory record.kind, record.name, leaf] := by
  rw [recordNodePath_eq_modelPath hplaced howner]
  exact (modelPath_append component servicePath [resourceCategory record.kind, record.name] leaf).symm

end Record

/-- The bundle of an operation is its category and these nodes, under the paths that the client reads. -/
theorem operationBundle_eq_ok {services : Nat → Service} {registry : TypeRegistry} {record : ResourceRecord}
    {specs : List NodeSpec} (hplaced : Placed record) (hkind : record.kind = .operation)
    (howner : record.ownerPath = ownerPath servicePath)
    (h : operationBundle component services registry record = .ok specs) :
    ∃ operation, (services record.owner).getOperation record.name = some operation ∧
      (describe registry operation).supported = true ∧
      specs = categorySpec component services record ::
        publishedSpecs component servicePath record.name operation.description (describe registry operation) := by
  have hcategory : categoryNodePath component record = modelPath component servicePath [lit "operations"] := by
    rw [categoryNodePath_eq_modelPath howner, hkind, resourceCategory]
  have hrecord : recordNodePath component record = operationPath component servicePath record.name := by
    rw [recordNodePath_eq_modelPath hplaced howner, hkind, resourceCategory, operationPath]
  simp only [operationBundle] at h
  split at h
  · cases h
  split at h
  · cases h
  case h_2 operation hoperation =>
    split at h
    · split at h <;> cases h
    · rename_i hsupported
      split at h
      · cases h
      · cases h
        refine ⟨operation, hoperation, by simpa using hsupported, ?_⟩
        rw [publishedSpecs, hrecord, hcategory]
        rfl

theorem operationBundle_isOk {services : Nat → Service} {registry : TypeRegistry} {record : ResourceRecord}
    {operation : Operation} (herror : record.discoveryError = [])
    (hfound : (services record.owner).getOperation record.name = some operation)
    (hsupported : (describe registry operation).supported = true) (hmandatory : mandatoryOutputType record = none) :
    ∃ specs, operationBundle component services registry record = .ok specs := by
  simp [operationBundle, herror, hfound, hsupported, hmandatory]

/-! ## The description -/

theorem metadataNode_published (description : Str) (schema : OperationSchema) :
    let nodes : NodeMap := (publishedSpecs component servicePath name description schema).foldl insertNode ∅
    let path := operationPath component servicePath name
    metadataNode nodes component servicePath name (lit "rttInputTypes") =
      (if schema.inputTypeNames = [] then none else
        some (staticArrayPropertySpec path (lit "rttInputTypes") (lit "Canonical RTT input argument types.")
          (.stringArray schema.inputTypeNames))) ∧
    metadataNode nodes component servicePath name (lit "rttOutputTypes") =
      (if schema.outputTypeNames = [] then none else
        some (staticArrayPropertySpec path (lit "rttOutputTypes") (lit "Canonical RTT output argument types.")
          (.stringArray schema.outputTypeNames))) ∧
    metadataNode nodes component servicePath name (lit "rttOutputSources") =
      (if schema.outputTypeNames = [] then none else
        some (staticArrayPropertySpec path (lit "rttOutputSources")
          (lit "Return value (-1) or mutable input index for each output.") (.int32Array schema.outputSources))) := by
  have hleaf : ∀ leaf, modelPath component servicePath [lit "operations", name, leaf] =
      appendNodeSegment (operationPath component servicePath name) leaf := fun leaf =>
    modelPath_append component servicePath [lit "operations", name] leaf
  have hmethod : appendNodeSegment (modelPath component servicePath [lit "operations"]) name =
      operationPath component servicePath name :=
    (modelPath_append component servicePath [lit "operations"] name).symm
  have hself : ∀ leaf, operationPath component servicePath name ≠
      appendNodeSegment (operationPath component servicePath name) leaf := fun leaf => (appendNodeSegment_ne _ leaf).symm
  have hdistinct : ∀ leaf leaf', appendNodeSegment (operationPath component servicePath name) leaf =
      appendNodeSegment (operationPath component servicePath name) leaf' ↔
      escapeNodeIdSegment leaf = escapeNodeIdSegment leaf' := fun leaf leaf' => by simp [appendNodeSegment]
  have hin : escapeNodeIdSegment (lit "rttInputTypes") ≠ escapeNodeIdSegment (lit "rttOutputTypes") := by decide
  have hinSources : escapeNodeIdSegment (lit "rttInputTypes") ≠ escapeNodeIdSegment (lit "rttOutputSources") := by decide
  have hout : escapeNodeIdSegment (lit "rttOutputTypes") ≠ escapeNodeIdSegment (lit "rttOutputSources") := by decide
  refine ⟨?_, ?_, ?_⟩
  all_goals
    simp only [metadataNode, hleaf, find?_foldl_insertNode, OrdMap.find?_empty, Option.or_none, publishedSpecs,
      operationMetadata, operationSpec, hmethod]
    by_cases hinputs : schema.inputTypeNames = []
    all_goals by_cases houtputs : schema.outputTypeNames = []
    all_goals simp [hinputs, houtputs, staticArrayPropertySpec, hself, hdistinct, hin, hin.symm, hinSources,
      hinSources.symm, hout.symm]

/-- What the client reads of a published schema. -/
def descriptionOf (description : Str) (schema : OperationSchema) : RemoteOperationDescription where
  name
  description
  inputTypes := schema.inputTypeNames
  inputNames := schema.inputs.map Argument.name
  inputDescriptions := schema.inputs.map Argument.description
  outputTypes := schema.outputTypeNames
  outputSources := schema.outputSources

theorem readStrings_published (path leaf text : Str) (values : List Str) :
    readStrings (if values = [] then none else some (staticArrayPropertySpec path leaf text (.stringArray values))) =
      .ok values := by
  split
  case isTrue hnil => rw [hnil]; rfl
  case isFalse => rfl

theorem readIntegers_published (path leaf text : Str) {names : List Str} {values : List Int}
    (hlength : values.length = names.length) :
    readIntegers (if names = [] then none else some (staticArrayPropertySpec path leaf text (.int32Array values))) =
      .ok values := by
  split
  case isTrue hnil =>
    rw [hnil, List.length_nil, List.length_eq_zero_iff] at hlength
    rw [hlength]
    rfl
  case isFalse => rfl

theorem discoverOperation_published (description : Str) {schema : OperationSchema}
    (hinputs : schema.inputs.length = schema.inputTypeNames.length)
    (hsources : schema.outputSources.length = schema.outputTypeNames.length) :
    discoverOperation ((publishedSpecs component servicePath name description schema).foldl insertNode ∅) component
        servicePath name (operationSpec (modelPath component servicePath [lit "operations"]) name description schema) =
      .ok (descriptionOf name description schema) := by
  obtain ⟨hin, hout, hsrc⟩ := metadataNode_published component servicePath name description schema
  have hmethod : (operationSpec (modelPath component servicePath [lit "operations"]) name description schema).schema =
      schema := rfl
  simp only [discoverOperation, hin, hout, hsrc, readStrings_published, readIntegers_published _ _ _ hsources, bind,
    Except.bind, hmethod, List.length_map, hinputs, hsources, ne_eq, not_true_eq_false, or_self, and_false, ↓reduceIte]
  rfl

/-- The category of the operations is not among the metadata of an operation. -/
theorem metadataNode_cons {category : NodeSpec} {specs : List NodeSpec}
    (hcategory : category.path = modelPath component servicePath [lit "operations"]) (leaf : Str) :
    metadataNode ((category :: specs).foldl insertNode ∅) component servicePath name leaf =
      metadataNode (specs.foldl insertNode ∅) component servicePath name leaf := by
  have hoperation : operationPath component servicePath name =
      appendNodeSegment (modelPath component servicePath [lit "operations"]) name :=
    modelPath_append component servicePath [lit "operations"] name
  have hleaf : modelPath component servicePath [lit "operations", name, leaf] =
      appendNodeSegment (operationPath component servicePath name) leaf :=
    modelPath_append component servicePath [lit "operations", name] leaf
  have hne : category.path ≠ modelPath component servicePath [lit "operations", name, leaf] := by
    intro h
    have hlength := congrArg List.length (hcategory.symm.trans h)
    rw [hleaf, hoperation] at hlength
    simp only [appendNodeSegment, List.length_append, List.length_cons] at hlength
    omega
  rw [metadataNode, metadataNode, find?_foldl_insertNode, find?_foldl_insertNode, List.reverse_cons,
    List.find?_append]
  simp [hne]

theorem discoverOperation_of_metadata (description : Str) {schema : OperationSchema} {nodes : NodeMap}
    (hmetadata : ∀ leaf, metadataNode nodes component servicePath name leaf =
      metadataNode ((publishedSpecs component servicePath name description schema).foldl insertNode ∅) component
        servicePath name leaf)
    (hinputs : schema.inputs.length = schema.inputTypeNames.length)
    (hsources : schema.outputSources.length = schema.outputTypeNames.length) :
    discoverOperation nodes component servicePath name
        (operationSpec (modelPath component servicePath [lit "operations"]) name description schema) =
      .ok (descriptionOf name description schema) := by
  have hdiscover := discoverOperation_published component servicePath name description hinputs hsources
  simp only [discoverOperation] at hdiscover
  simp only [discoverOperation, hmetadata, hdiscover]

theorem mirrorOperation_published (registry : Option TypeRegistry) {category : NodeSpec} (description : Str)
    {schema : OperationSchema} (hcategory : category.path = modelPath component servicePath [lit "operations"])
    (hinputs : schema.inputs.length = schema.inputTypeNames.length)
    (hsources : schema.outputSources.length = schema.outputTypeNames.length) :
    mirrorOperation registry
        ((category :: publishedSpecs component servicePath name description schema).foldl insertNode ∅) component
        servicePath name = some (RemoteOperation.make registry (descriptionOf name description schema)) := by
  have hoperation : operationPath component servicePath name =
      appendNodeSegment (modelPath component servicePath [lit "operations"]) name :=
    modelPath_append component servicePath [lit "operations"] name
  have hmethod : ((category :: publishedSpecs component servicePath name description schema).foldl insertNode ∅).find?
      (operationPath component servicePath name) =
        some (operationSpec (modelPath component servicePath [lit "operations"]) name description schema) := by
    rw [find?_foldl_insertNode, List.reverse_cons, publishedSpecs, List.reverse_append]
    simp [operationSpec, hoperation]
  have hdiscover := discoverOperation_of_metadata component servicePath name description
    (metadataNode_cons component servicePath name hcategory) hinputs hsources
  simp only [mirrorOperation, hmethod, Option.map_some, hdiscover]
  rfl

end Published

/-! ## The constructor -/

namespace RemoteOperation

variable {registry : TypeRegistry}

/-- A type that the client finds by its name, with a codec. -/
def Resolves (registry : TypeRegistry) (type : Nat) (name : Str) : Prop :=
  registry.type name = some type ∧ (registry.codecForTypeInfo type).isSome = true

theorem resolveTypes_eq_ok (what : Str) {types : List Nat} {names : List Str}
    (h : List.Forall₂ (Resolves registry) types names) : resolveTypes registry what names = .ok types := by
  induction h with
  | nil => rfl
  | cons hname _ ih =>
      obtain ⟨htype, hcodec⟩ := hname
      obtain ⟨codec, hcodec⟩ := Option.isSome_iff_exists.1 hcodec
      simp only [resolveTypes, htype, hcodec, ih, bind, Except.bind]

theorem assignSources_mutable (name : Str) {inputTypes : List Nat} (returnType : Option Nat) (sources : List Nat) :
    ∀ {types : List Nat} {mutableArguments : OrdSet Nat}, sources.length = types.length →
      (∀ e ∈ sources.zip types, inputTypes[e.1]? = some e.2) →
      sources.Nodup → (∀ i ∈ sources, mutableArguments.contains i = false) →
      assignSources name inputTypes ((sources.map Int.ofNat).zip types) returnType mutableArguments =
        .ok (returnType, mutableArguments.insertAll sources) := by
  induction sources with
  | nil =>
      intro types mutableArguments _ _ _ _
      rfl
  | cons i rest ih =>
      intro types mutableArguments hlength htypes hnodup hfresh
      cases types with
      | nil => cases hlength
      | cons type types =>
          rw [List.zip_cons_cons, List.forall_mem_cons] at htypes
          obtain ⟨htype, hrest⟩ := htypes
          obtain ⟨hnot, hnodup⟩ := List.nodup_cons.1 hnodup
          have hlt : i < inputTypes.length := (List.getElem?_eq_some_iff.1 htype).1
          have hneg : Int.ofNat i ≠ -1 := fun h => by cases h
          have hrange : 0 ≤ Int.ofNat i ∧ (Int.ofNat i).toNat < inputTypes.length := ⟨Int.natCast_nonneg i, hlt⟩
          have hinserted : ∀ j ∈ rest, OrdMap.contains (mutableArguments.insert i) j = false := by
            intro j hj
            have hne : j ≠ i := fun hji => hnot (hji ▸ hj)
            rw [OrdSet.contains_insert, hfresh j (List.mem_cons_of_mem _ hj), decide_eq_false hne, Bool.or_false]
          have hfirst : ¬ (inputTypes[(Int.ofNat i).toNat]? ≠ some type ∨
              mutableArguments.contains (Int.ofNat i).toNat = true) := by
            simp [htype, hfresh i List.mem_cons_self]
          rw [List.map_cons, List.zip_cons_cons, assignSources, if_neg hneg, if_pos hrange, if_neg hfirst]
          exact ih (Nat.succ.inj hlength) hrest hnodup hinserted

/-- The sources of a schema: the return value, if there is one, and the mutable arguments. -/
def sourcesOf (returned : Option Nat) (taken : List Nat) : List Int :=
  (if returned.isSome then [-1] else []) ++ taken.map Int.ofNat

theorem ofNat_mem_sourcesOf {returned : Option Nat} {taken : List Nat} {i : Nat} :
    Int.ofNat i ∈ sourcesOf returned taken ↔ i ∈ taken := by
  have hreturned : Int.ofNat i ∉ (if returned.isSome then [(-1 : Int)] else []) := by
    cases returned
    all_goals simp
  rw [sourcesOf, List.mem_append, List.mem_map, or_iff_right hreturned]
  constructor
  · rintro ⟨j, hj, hji⟩
    rwa [← Int.ofNat.inj hji]
  · exact fun hi => ⟨i, hi, rfl⟩

theorem assignSources_sourcesOf (name : Str) {inputTypes : List Nat} (returned : Option Nat) {taken types : List Nat}
    (hlength : taken.length = types.length) (htypes : ∀ e ∈ taken.zip types, inputTypes[e.1]? = some e.2)
    (hnodup : taken.Nodup) :
    assignSources name inputTypes ((sourcesOf returned taken).zip (returned.toList ++ types)) none ∅ =
      .ok (returned, OrdSet.insertAll ∅ taken) := by
  have hmutable : ∀ returnType, assignSources name inputTypes ((taken.map Int.ofNat).zip types) returnType ∅ =
      .ok (returnType, OrdSet.insertAll ∅ taken) := fun returnType =>
    assignSources_mutable name returnType taken hlength htypes hnodup fun _ _ => rfl
  cases returned with
  | none => exact hmutable none
  | some type => exact hmutable (some type)

/-! The texts of the arguments. -/

section Arguments

variable {description : RemoteOperationDescription} {types : List Nat}

/-- The arguments, as the constructor lists them. -/
def describedArguments (registry : TypeRegistry) (description : RemoteOperationDescription)
    (mutableArguments : OrdSet Nat) (types : List Nat) : List ArgumentDescription :=
  types.mapIdx fun index type => describeArgument registry description mutableArguments type index

theorem isMutableReference_described {type : Nat} (h : IsType (registry.getTypeName type)) (index : Nat)
    (mutableArguments : OrdSet Nat) :
    isMutableReference (describeArgument registry description mutableArguments type index).type =
      mutableArguments.contains index := by
  cases hmutable : mutableArguments.contains index with
  | false =>
      have hspells : Spells ([] ++ registry.getTypeName type ++ []) .value := .value h nofun nofun
      simpa [describeArgument, hmutable, Passing.readAsMutable] using isMutableReference_of_spells hspells
  | true =>
      have hspells : Spells ([] ++ registry.getTypeName type ++ lit " " ++ lit "&" ++ []) .reference :=
        .reference h nofun (by decide) nofun
      have hamp : lit " &" = lit " " ++ lit "&" := by decide
      simpa [describeArgument, hmutable, Passing.readAsMutable, hamp] using isMutableReference_of_spells hspells

/-- The arguments read as mutable references are the mutable arguments. -/
theorem mutableArguments_described {taken : List Nat} (htypes : ∀ t ∈ types, IsType (registry.getTypeName t))
    (hlt : ∀ i ∈ taken, i < types.length) (hsorted : taken.Pairwise (· < ·)) :
    Model.mutableArguments (describedArguments registry description (OrdSet.insertAll ∅ taken) types) = taken := by
  refine List.Pairwise.eq_of_mem_iff (List.pairwise_lt_range.filter _) hsorted fun i => ?_
  have hlength : (describedArguments registry description (OrdSet.insertAll ∅ taken) types).length = types.length :=
    List.length_mapIdx
  rw [Model.mutableArguments, List.mem_filter, List.mem_range, hlength]
  have hread : ∀ hi : i < types.length, isMutableReference (((describedArguments registry description
      (OrdSet.insertAll ∅ taken) types).map ArgumentDescription.type).getD i []) = decide (i ∈ taken) := by
    intro hi
    have hget : ((describedArguments registry description (OrdSet.insertAll ∅ taken) types).map
        ArgumentDescription.type).getD i [] =
        (describeArgument registry description (OrdSet.insertAll ∅ taken) types[i] i).type := by
      simp [describedArguments, List.getD, hi]
    rw [hget, isMutableReference_described (htypes _ (List.getElem_mem hi)), OrdSet.contains_insertAll]
    exact Bool.or_false _
  constructor
  · rintro ⟨hi, hmutable⟩
    rw [hread hi] at hmutable
    exact of_decide_eq_true hmutable
  · intro hi
    exact ⟨hlt i hi, (hread (hlt i hi)).trans (decide_eq_true hi)⟩

theorem argument_described {arguments : List ArgumentDescription} (mutableArguments : OrdSet Nat)
    (hnames : description.inputNames = (List.range types.length).map (argumentName arguments))
    (hdescriptions : description.inputDescriptions =
      (List.range types.length).map (argumentDescription arguments)) {i : Nat} (hi : i < types.length) :
    argumentName (describedArguments registry description mutableArguments types) i = argumentName arguments i ∧
      argumentDescription (describedArguments registry description mutableArguments types) i =
        argumentDescription arguments i := by
  have hne : argumentName arguments i ≠ [] := by
    have hdefault : lit "argument" ++ lit (toString (i + 1)) ≠ [] := by
      have hlit : lit "argument" ≠ [] := by decide
      simp [hlit]
    unfold argumentName
    split
    · split
      · assumption
      · exact hdefault
    · exact hdefault
  have hget : (describedArguments registry description mutableArguments types)[i]? =
      some (describeArgument registry description mutableArguments types[i] i) := by
    simp [describedArguments, hi]
  have hname : (describeArgument registry description mutableArguments types[i] i).name = argumentName arguments i := by
    simp [describeArgument, hnames, hi, hne]
  have htext : (describeArgument registry description mutableArguments types[i] i).description =
      argumentDescription arguments i := by
    simp [describeArgument, hdescriptions, List.getD, hi]
  have hread : argumentName (describedArguments registry description mutableArguments types) i =
      (describeArgument registry description mutableArguments types[i] i).name := by
    rw [argumentName, hget]
    exact if_pos (hname ▸ hne)
  constructor
  · rw [hread, hname]
  · rw [argumentDescription, hget]
    exact htext

end Arguments

end RemoteOperation

/-! ## Both ends -/

section Ends

variable {registry client : TypeRegistry}

/-- A type of the server and the type of the same name at the client. -/
def Twin (registry client : TypeRegistry) (t t' : Nat) : Prop :=
  ∃ codec, registry.codecForTypeInfo t = some codec ∧ client.codecForTypeInfo t' = some codec ∧
    client.type (registry.getTypeName t) = some t' ∧ client.getTypeName t' = registry.getTypeName t

/-- The client knows the types of the server, with the same codecs, and RTT names types without qualifiers. -/
structure Agrees (registry client : TypeRegistry) : Prop where
  twin : ∀ t codec, registry.codecForTypeInfo t = some codec → ∃ t', Twin registry client t t'
  unqualified : ∀ t codec, client.codecForTypeInfo t = some codec → IsType (client.getTypeName t)

theorem Twin.resolves {t t' : Nat} (h : Twin registry client t t') :
    RemoteOperation.Resolves client t' (registry.getTypeName t) := by
  obtain ⟨codec, -, hcodec, htype, -⟩ := h
  exact ⟨htype, by rw [hcodec]; rfl⟩

theorem Twin.eq_of_name {t u t' u' : Nat} (ht : Twin registry client t t') (hu : Twin registry client u u')
    (h : registry.getTypeName t = registry.getTypeName u) : t' = u' := by
  obtain ⟨_, -, -, ht, -⟩ := ht
  obtain ⟨_, -, -, hu, -⟩ := hu
  rw [h, hu, Option.some.injEq] at ht
  exact ht.symm

theorem types_of_has {types : List (Option Nat)} {described : List Described}
    (h : List.Forall₂ (Described.Has registry) types described) :
    ∃ ts : List Nat, types = ts.map some ∧ described.map Described.typeName = ts.map registry.getTypeName ∧
      ∀ t ∈ ts, ∃ codec, registry.codecForTypeInfo t = some codec := by
  induction h with
  | nil => exact ⟨[], rfl, rfl, nofun⟩
  | cons hd _ ih =>
      obtain ⟨t, codec, rfl, hcodec, -, hname, -⟩ := hd
      obtain ⟨ts, rfl, hnames, hcodecs⟩ := ih
      exact ⟨t :: ts, rfl, by simp [hname, hnames], List.forall_mem_cons.2 ⟨⟨codec, hcodec⟩, hcodecs⟩⟩

theorem Agrees.twins (h : Agrees registry client) {ts : List Nat}
    (hts : ∀ t ∈ ts, ∃ codec, registry.codecForTypeInfo t = some codec) :
    ∃ ts', List.Forall₂ (Twin registry client) ts ts' := by
  induction ts with
  | nil => exact ⟨[], .nil⟩
  | cons t rest ih =>
      obtain ⟨⟨codec, hcodec⟩, hrest⟩ := List.forall_mem_cons.1 hts
      obtain ⟨t', ht⟩ := h.twin t codec hcodec
      obtain ⟨rest', hrest'⟩ := ih hrest
      exact ⟨t' :: rest', .cons ht hrest'⟩

theorem resolves_twins {ts ts' : List Nat} (h : List.Forall₂ (Twin registry client) ts ts') :
    List.Forall₂ (RemoteOperation.Resolves client) ts' (ts.map registry.getTypeName) := by
  induction h with
  | nil => exact .nil
  | cons ht _ ih => exact .cons ht.resolves ih

theorem valueCodec_twin {t t' u : Nat} {codec : Codec} (h : Twin registry client t t')
    (hcodec : valueCodec registry (some t) = .ok (u, codec)) : u = t ∧ valueCodec client (some t') = .ok (t', codec) := by
  obtain ⟨common, hserver, hclient, -, -⟩ := h
  obtain ⟨ht, hregistered, hvalue⟩ := valueCodec_eq_ok hcodec
  obtain rfl := Option.some.inj ht
  obtain rfl := Option.some.inj (hserver.symm.trans hregistered)
  exact ⟨rfl, by simp [valueCodec, codecOf, hclient, hvalue]⟩

theorem describeInputs_twin {arguments arguments' : List ArgumentDescription} {ts ts' : List Nat}
    (h : List.Forall₂ (Twin registry client) ts ts') :
    ∀ {index : Nat} {inputs : List Described},
      (∀ i, index ≤ i → i < index + ts.length → argumentName arguments' i = argumentName arguments i ∧
        argumentDescription arguments' i = argumentDescription arguments i) →
      describeInputs registry arguments index (ts.map some) = .ok inputs →
      describeInputs client arguments' index (ts'.map some) = .ok inputs := by
  induction h with
  | nil => exact fun _ hinputs => hinputs
  | @cons t t' ts ts' ht _ ih =>
      intro index inputs hnames hinputs
      simp only [List.map_cons, describeInputs, bind, Except.bind] at hinputs
      split at hinputs
      case h_1 => cases hinputs
      case h_2 pair hpair =>
        obtain ⟨u, codec⟩ := pair
        obtain ⟨rfl, hclient⟩ := valueCodec_twin ht hpair
        simp only at hinputs
        split at hinputs
        case h_1 => cases hinputs
        case h_2 more hmore =>
          cases hinputs
          obtain ⟨_, -, -, -, hname⟩ := ht
          obtain ⟨hargument, hdescription⟩ := hnames index le_rfl (by simp)
          have hrest := ih (fun i hi hlt => hnames i (by omega) (by simp only [List.length_cons]; omega)) hmore
          simp only [List.map_cons, describeInputs, bind, Except.bind, hclient, hrest, hargument, hdescription, hname]

/-- The client describes the outputs as the server does, from the mutable arguments that are collected. -/
theorem describeOutputs_twin {description : Str} {arguments arguments' : List ArgumentDescription} {ts ts' : List Nat}
    (h : List.Forall₂ (Twin registry client) ts ts') :
    ∀ {result : Bool} {mutableArguments : List Nat} {outputs : List Described},
      (∀ i ∈ mutableArguments.take (ts.length - result.toNat), argumentName arguments' i = argumentName arguments i ∧
        argumentDescription arguments' i = argumentDescription arguments i) →
      describeOutputs registry description arguments result mutableArguments (ts.map some) = .ok outputs →
      describeOutputs client description arguments' result (mutableArguments.take (ts.length - result.toNat))
        (ts'.map some) = .ok outputs := by
  induction h with
  | nil => exact fun _ houtputs => houtputs
  | @cons t t' ts ts' ht _ ih =>
      intro result mutableArguments outputs hnames houtputs
      simp only [List.map_cons, describeOutputs, bind, Except.bind] at houtputs
      split at houtputs
      case h_1 => cases houtputs
      case h_2 pair hpair =>
        obtain ⟨u, codec⟩ := pair
        obtain ⟨rfl, hclient⟩ := valueCodec_twin ht hpair
        obtain ⟨_, -, -, -, hname⟩ := id ht
        cases result with
        | true =>
            simp only at houtputs
            split at houtputs
            case h_1 => cases houtputs
            case h_2 more hmore =>
              cases houtputs
              have hlength : (u :: ts).length - true.toNat = ts.length - false.toNat := by simp
              rw [hlength] at hnames ⊢
              simp only [List.map_cons, describeOutputs, bind, Except.bind, hclient, ih hnames hmore, hname]
        | false =>
            cases mutableArguments with
            | nil => cases houtputs
            | cons index mutableArguments =>
                simp only at houtputs
                split at houtputs
                case h_1 => cases houtputs
                case h_2 more hmore =>
                  cases houtputs
                  have htake : (index :: mutableArguments).take ((u :: ts).length - false.toNat) =
                      index :: mutableArguments.take (ts.length - false.toNat) := by simp
                  rw [htake] at hnames ⊢
                  obtain ⟨⟨hargument, hdescription⟩, hrest⟩ := List.forall_mem_cons.1 hnames
                  simp only [List.map_cons, describeOutputs, bind, Except.bind, hclient, ih hrest hmore, hargument,
                    hdescription, hname]

/-! ## Signatures -/

/-- An operation whose schema a client can mirror: RTT reports its return value as the first collected one, and each
mutable output has the type of its argument. -/
structure Mirrorable (registry : TypeRegistry) (operation : Operation) : Prop where
  supported : (describe registry operation).supported = true
  outputTypes : ∀ (k : Nat) (source : Int) (name : Str), (describe registry operation).outputSources[k]? = some source →
    source ≠ -1 → (describe registry operation).outputTypeNames[k]? = some name →
    (describe registry operation).inputTypeNames[source.toNat]? = some name
  returns : ∀ t codec, operation.returnType = some t → registry.codecForTypeInfo t = some codec →
    codec.hasValue = true → operation.collect.head? = some (some t)

/-- The signature of an operation: the types of its arguments, its return type and whether it is collected, and the
mutable arguments with the types that are collected for them. -/
structure Signature (registry : TypeRegistry) (operation : Operation) (ts : List Nat) (t : Nat) (returned : Option Nat)
    (taken cs : List Nat) : Prop where
  types : operation.types = ts.map some
  returnType : operation.returnType = some t
  collect : operation.collect = (returned.toList ++ cs).map some
  returns : returned = some t ∨ returned = none ∧ registry.getTypeName t = lit "Void"
  length : taken.length = cs.length
  sorted : taken.Pairwise (· < ·)
  mutableTypes : ∀ e ∈ taken.zip cs, (ts.map registry.getTypeName)[e.1]? = some (registry.getTypeName e.2)
  sources : (describe registry operation).outputSources = RemoteOperation.sourcesOf returned taken
  inputNames : (describe registry operation).inputTypeNames = ts.map registry.getTypeName
  outputNames : (describe registry operation).outputTypeNames = (returned.toList ++ cs).map registry.getTypeName
  codecs : ∀ u ∈ t :: ts ++ (returned.toList ++ cs), ∃ codec, registry.codecForTypeInfo u = some codec

theorem sorted_mutableArguments (arguments : List ArgumentDescription) :
    (mutableArguments arguments).Pairwise (· < ·) :=
  List.pairwise_lt_range.filter _

/-- The signature that a supported schema is made of, with the loops that make it. -/
theorem Mirrorable.signature {operation : Operation} (h : Mirrorable registry operation) :
    ∃ ts t returned taken cs arguments inputs outputs,
      Signature registry operation ts t returned taken cs ∧
      operation.argumentList = some arguments ∧
      describeInputs registry arguments 0 (ts.map some) = .ok inputs ∧
      describeReturn registry (some t) = .ok returned.isSome ∧
      describeOutputs registry operation.description arguments returned.isSome (mutableArguments arguments)
        ((returned.toList ++ cs).map some) = .ok outputs ∧
      taken = (mutableArguments arguments).take cs.length := by
  obtain ⟨arguments, inputs, hasReturnValue, outputs, harguments, hinputs, hreturn, houtputs, hschema⟩ :=
    describe_supported h.supported
  obtain ⟨ts, htypes, hinputNames, hcodecs⟩ := types_of_has (describeInputs_eq_ok _ hinputs).1
  obtain ⟨houtputsHave, hsources⟩ := describeOutputs_eq_ok _ houtputs
  obtain ⟨all, hcollect, houtputNames, hcollectCodecs⟩ := types_of_has houtputsHave
  obtain ⟨t, codec, hreturnType, hcodec, hvalue, hvoid⟩ := describeReturn_eq_ok hreturn
  -- the collected values behind the return value
  obtain ⟨returned, cs, hall, hisSome, hreturned⟩ : ∃ (returned : Option Nat) (cs : List Nat),
      all = returned.toList ++ cs ∧ returned.isSome = hasReturnValue ∧
      (returned = some t ∨ returned = none ∧ registry.getTypeName t = lit "Void") := by
    cases hasReturnValue with
    | false => exact ⟨none, all, rfl, rfl, .inr ⟨rfl, hvoid rfl⟩⟩
    | true =>
        have hhead := h.returns t codec hreturnType hcodec hvalue
        cases all with
        | nil =>
            rw [hcollect] at hhead
            cases hhead
        | cons u cs =>
            rw [hcollect] at hhead
            cases hhead
            exact ⟨some t, cs, rfl, rfl, .inl rfl⟩
  subst hall hisSome
  rw [htypes] at hinputs
  rw [hreturnType] at hreturn
  have hlength : ((mutableArguments arguments).take cs.length).length = cs.length := by
    have hcount := congrArg List.length hsources
    rw [List.length_map, ← houtputsHave.length_eq, hcollect] at hcount
    cases returned
    all_goals simp at hcount ⊢
    all_goals omega
  have hschemaSources : (describe registry operation).outputSources =
      RemoteOperation.sourcesOf returned ((mutableArguments arguments).take cs.length) := by
    rw [hschema]
    simp only [hsources, hcollect, RemoteOperation.sourcesOf]
    cases returned with
    | none => simp
    | some u => simp
  have hschemaInputs : (describe registry operation).inputTypeNames = ts.map registry.getTypeName := by
    rw [hschema, hinputNames]
  have hschemaOutputs : (describe registry operation).outputTypeNames =
      (returned.toList ++ cs).map registry.getTypeName := by
    rw [hschema, houtputNames]
  rw [hcollect] at houtputs
  refine ⟨ts, t, returned, _, cs, arguments, inputs, outputs,
    ⟨htypes, hreturnType, hcollect, hreturned, hlength, ?_, ?_, hschemaSources, hschemaInputs, hschemaOutputs, ?_⟩,
    harguments, hinputs, hreturn, houtputs, rfl⟩
  · exact (sorted_mutableArguments arguments).sublist (List.take_sublist _ _)
  · intro e he
    obtain ⟨k, hk⟩ := List.mem_iff_getElem?.1 he
    obtain ⟨htaken, hcs⟩ := List.getElem?_zip_eq_some.1 hk
    have hne : Int.ofNat e.1 ≠ -1 := fun hneg => by cases hneg
    have hk' : (returned.toList.length + k) - returned.toList.length = k := Nat.add_sub_cancel_left _ _
    have hsource : (describe registry operation).outputSources[returned.toList.length + k]? =
        some (Int.ofNat e.1) := by
      have hreturned : (if returned.isSome then [(-1 : Int)] else []).length = returned.toList.length := by
        cases returned <;> rfl
      rw [hschemaSources, RemoteOperation.sourcesOf, List.getElem?_append_right (by omega), hreturned, hk',
        List.getElem?_map, htaken, Option.map_some]
    have hname : (describe registry operation).outputTypeNames[returned.toList.length + k]? =
        some (registry.getTypeName e.2) := by
      rw [hschemaOutputs, List.getElem?_map, List.getElem?_append_right (by omega), hk', hcs, Option.map_some]
    have houtput := h.outputTypes _ _ _ hsource hne hname
    rwa [hschemaInputs] at houtput
  · intro u hu
    rw [List.mem_append, List.mem_cons] at hu
    rcases hu with (rfl | hu) | hu
    · exact ⟨codec, hcodec⟩
    · exact hcodecs u hu
    · exact hcollectCodecs u hu

theorem describeReturn_twin {t t' : Nat} {hasReturnValue : Bool} (h : Twin registry client t t')
    (hreturn : describeReturn registry (some t) = .ok hasReturnValue) :
    describeReturn client (some t') = .ok hasReturnValue := by
  obtain ⟨codec, hserver, hclient, -, hname⟩ := h
  simp only [describeReturn, codecOf, Option.bind_some, hserver, hclient, hname] at hreturn ⊢
  split
  case isTrue hunsupported =>
    rw [if_pos hunsupported] at hreturn
    cases hreturn
  case isFalse hsupported => rwa [if_neg hsupported] at hreturn

theorem descriptionOf_inputs {arguments : List ArgumentDescription} {ts : List Nat} {inputs : List Described}
    {schema : OperationSchema} (name description : Str)
    (hinputs : describeInputs registry arguments 0 (ts.map some) = .ok inputs)
    (hschema : schema.inputs = inputs.map Described.argument) :
    (descriptionOf name description schema).inputNames = (List.range ts.length).map (argumentName arguments) ∧
      (descriptionOf name description schema).inputDescriptions =
        (List.range ts.length).map (argumentDescription arguments) := by
  have hnames := (describeInputs_eq_ok _ hinputs).2
  rw [List.length_map, ← List.range_eq_range'] at hnames
  constructor
  · have hfst := congrArg (List.map Prod.fst) hnames
    simpa [descriptionOf, hschema, Function.comp_def] using hfst
  · have hsnd := congrArg (List.map Prod.snd) hnames
    simpa [descriptionOf, hschema, Function.comp_def] using hsnd

theorem mem_zip_of_getElem? {α β : Type} {xs : List α} {ys : List β} {k : Nat} {x : α} {y : β}
    (hx : xs[k]? = some x) (hy : ys[k]? = some y) : (x, y) ∈ xs.zip ys :=
  List.mem_iff_getElem?.2 ⟨k, List.getElem?_zip_eq_some.2 ⟨hx, hy⟩⟩

theorem Signature.clientTypes {operation : Operation} {ts : List Nat} {t : Nat} {returned : Option Nat}
    {taken cs ts' cs' : List Nat} (h : Signature registry operation ts t returned taken cs)
    (hts : List.Forall₂ (Twin registry client) ts ts') (hcs : List.Forall₂ (Twin registry client) cs cs') :
    ∀ e ∈ taken.zip cs', ts'[e.1]? = some e.2 := by
  intro e he
  obtain ⟨k, hk⟩ := List.mem_iff_getElem?.1 he
  obtain ⟨htaken, hc'⟩ := List.getElem?_zip_eq_some.1 hk
  obtain ⟨hlt, -⟩ := List.getElem?_eq_some_iff.1 hc'
  obtain ⟨c, hc⟩ : ∃ c, cs[k]? = some c := ⟨_, List.getElem?_eq_getElem (hcs.length_eq ▸ hlt)⟩
  have hname := h.mutableTypes _ (mem_zip_of_getElem? htaken hc)
  rw [List.getElem?_map, Option.map_eq_some_iff] at hname
  obtain ⟨u, hu, hname⟩ := hname
  obtain ⟨hi, -⟩ := List.getElem?_eq_some_iff.1 hu
  have hu' := List.getElem?_eq_getElem (hts.length_eq ▸ hi)
  rw [hu', Twin.eq_of_name (forall₂_getElem? hts hu hu') (forall₂_getElem? hcs hc hc') hname]

theorem Signature.lt {operation : Operation} {ts : List Nat} {t : Nat} {returned : Option Nat} {taken cs : List Nat}
    (h : Signature registry operation ts t returned taken cs) : ∀ i ∈ taken, i < ts.length := by
  intro i hi
  obtain ⟨k, hk⟩ := List.mem_iff_getElem?.1 hi
  obtain ⟨hlt, -⟩ := List.getElem?_eq_some_iff.1 hk
  obtain ⟨c, hc⟩ : ∃ c, cs[k]? = some c := ⟨_, List.getElem?_eq_getElem (h.length ▸ hlt)⟩
  have hname := h.mutableTypes _ (mem_zip_of_getElem? hk hc)
  simpa using (List.getElem?_eq_some_iff.1 hname).1

/-- What the constructor makes of the description of a signature. -/
theorem construct_signature {operation : Operation} {ts ts' cs cs' taken : List Nat} {t t' : Nat}
    {returned : Option Nat} (h : Signature registry operation ts t returned taken cs)
    (hts : List.Forall₂ (Twin registry client) ts ts') (ht : Twin registry client t t')
    (hcs : List.Forall₂ (Twin registry client) cs cs') (name : Str) :
    let description := descriptionOf name operation.description (describe registry operation)
    RemoteOperation.construct client description =
      .ok { description
            inputTypes := ts'
            outputTypes := (returned.map fun _ => t').toList ++ cs'
            returnType := t'
            mutableArguments := OrdSet.insertAll ∅ taken
            arguments := RemoteOperation.describedArguments client description (OrdSet.insertAll ∅ taken) ts' } := by
  intro description
  have hreturned : List.Forall₂ (Twin registry client) returned.toList (returned.map fun _ => t').toList := by
    obtain rfl | ⟨rfl, -⟩ := h.returns
    · exact .cons ht .nil
    · exact .nil
  have hinputs := RemoteOperation.resolveTypes_eq_ok (lit "input") (resolves_twins hts)
  have houtputs := RemoteOperation.resolveTypes_eq_ok (lit "output") (resolves_twins (List.rel_append hreturned hcs))
  have hsources : description.outputSources = RemoteOperation.sourcesOf (returned.map fun _ => t') taken := by
    refine h.sources.trans ?_
    simp [RemoteOperation.sourcesOf]
  have hlength : ((returned.map fun _ => t').toList ++ cs').length = description.outputSources.length := by
    rw [hsources, RemoteOperation.sourcesOf]
    cases returned
    all_goals simp [h.length, hcs.length_eq]
  have hassign := RemoteOperation.assignSources_sourcesOf name (returned.map fun _ => t')
    (h.length.trans hcs.length_eq) (h.clientTypes hts hcs) (h.sorted.imp Nat.ne_of_lt)
  have hvoid : (returned.map fun _ => t').or (client.type (lit "Void")) = some t' := by
    obtain rfl | ⟨rfl, hname⟩ := h.returns
    · rfl
    · obtain ⟨_, -, -, htype, -⟩ := ht
      exact hname ▸ htype
  have hinputNames : description.inputTypes = ts.map registry.getTypeName := h.inputNames
  have houtputNames : description.outputTypes = (returned.toList ++ cs).map registry.getTypeName := h.outputNames
  rw [← hsources] at hassign
  simp only [RemoteOperation.construct, hinputNames, hinputs, houtputNames, houtputs, bind, Except.bind, hlength,
    ne_eq, not_true_eq_false, ↓reduceIte, show description.name = name from rfl, hassign, hvoid]
  rfl

theorem lengths_of_supported {operation : Operation} (h : (describe registry operation).supported = true) :
    (describe registry operation).inputs.length = (describe registry operation).inputTypeNames.length ∧
      (describe registry operation).outputs.length = (describe registry operation).outputTypeNames.length ∧
      (describe registry operation).outputSources.length = (describe registry operation).outputTypeNames.length := by
  obtain ⟨arguments, inputs, hasReturnValue, outputs, -, -, -, -, hschema⟩ := describe_supported h
  rw [hschema]
  exact ⟨by simp only [List.length_map], by simp only [List.length_map], by simp only [List.length_map]⟩

/-- Two operations, each with the registry of its end, have the same signature and the same schema. -/
structure SameSignature (registry client : TypeRegistry) (operation remote : Operation) : Prop where
  arity : remote.types.length = operation.types.length
  types : remote.types.map (typeName client) = operation.types.map (typeName registry)
  returnType : typeName client remote.returnType = typeName registry operation.returnType
  collect : remote.collect.map (typeName client) = operation.collect.map (typeName registry)
  schema : describe client remote = describe registry operation

theorem SameSignature.refl (registry : TypeRegistry) (operation : Operation) :
    SameSignature registry registry operation operation := ⟨rfl, rfl, rfl, rfl, rfl⟩

theorem SameSignature.trans {middle : TypeRegistry} {operation operation' operation'' : Operation}
    (h : SameSignature registry middle operation operation') (h' : SameSignature middle client operation' operation'') :
    SameSignature registry client operation operation'' :=
  ⟨h'.arity.trans h.arity, h'.types.trans h.types, h'.returnType.trans h.returnType, h'.collect.trans h.collect,
    h'.schema.trans h.schema⟩

/-- A remote operation stands for an operation of a server: its mutable arguments are the sources of the schema. -/
structure Mirrors (registry client : TypeRegistry) (operation : Operation) (remote : RemoteOperation) : Prop where
  signature : SameSignature registry client operation remote.toInterface
  mutableArguments : ∀ i : Nat, remote.mutableArguments.contains i =
    decide (Int.ofNat i ∈ (describe registry operation).outputSources)

theorem map_typeName_twins {ts ts' : List Nat} (h : List.Forall₂ (Twin registry client) ts ts') :
    (ts'.map some).map (typeName client) = (ts.map some).map (typeName registry) := by
  induction h with
  | nil => rfl
  | cons ht _ ih =>
      obtain ⟨_, -, -, -, hname⟩ := ht
      rw [List.map_cons, List.map_cons, List.map_cons, List.map_cons, ih]
      exact congrArg (· :: _) hname

/-- The constructor's operation reports the signature again, and `describe` reads the same schema from it. -/
theorem describe_signature {operation : Operation} {ts ts' cs cs' taken : List Nat} {t t' : Nat}
    {returned : Option Nat} {arguments : List ArgumentDescription} {inputs outputs : List Described}
    (hc : Agrees registry client) (h : Signature registry operation ts t returned taken cs)
    (harguments : operation.argumentList = some arguments)
    (hinputs : describeInputs registry arguments 0 (ts.map some) = .ok inputs)
    (hreturn : describeReturn registry (some t) = .ok returned.isSome)
    (houtputs : describeOutputs registry operation.description arguments returned.isSome (mutableArguments arguments)
      ((returned.toList ++ cs).map some) = .ok outputs)
    (htaken : taken = (mutableArguments arguments).take cs.length)
    (hts : List.Forall₂ (Twin registry client) ts ts') (ht : Twin registry client t t')
    (hcs : List.Forall₂ (Twin registry client) (returned.toList ++ cs) cs') (name : Str) :
    let description := descriptionOf name operation.description (describe registry operation)
    describe client
      { description := operation.description
        argumentList := some
          (RemoteOperation.describedArguments client description (OrdSet.insertAll ∅ taken) ts')
        returnType := some t'
        types := ts'.map some
        collect := cs'.map some } = describe registry operation := by
  intro description
  have hserver := describe_eq harguments (h.types ▸ hinputs) (h.returnType ▸ hreturn) (h.collect ▸ houtputs)
  have hlength : ts'.length = ts.length := hts.length_eq.symm
  have htexts : description.inputNames = (List.range ts'.length).map (argumentName arguments) ∧
      description.inputDescriptions = (List.range ts'.length).map (argumentDescription arguments) := by
    rw [hlength]
    exact descriptionOf_inputs name operation.description hinputs (by rw [hserver])
  have hread : ∀ i, i < ts.length →
      argumentName (RemoteOperation.describedArguments client description (OrdSet.insertAll ∅ taken) ts') i =
        argumentName arguments i ∧
      argumentDescription (RemoteOperation.describedArguments client description (OrdSet.insertAll ∅ taken) ts') i =
        argumentDescription arguments i := fun i hi =>
    RemoteOperation.argument_described (OrdSet.insertAll ∅ taken) htexts.1 htexts.2 (hlength ▸ hi)
  have htypes : ∀ u ∈ ts', IsType (client.getTypeName u) := by
    intro u hu
    obtain ⟨k, hk⟩ := List.mem_iff_getElem?.1 hu
    obtain ⟨hlt, -⟩ := List.getElem?_eq_some_iff.1 hk
    obtain ⟨codec, -, hcodec, -⟩ := forall₂_getElem? hts (List.getElem?_eq_getElem (hlength ▸ hlt)) hk
    exact hc.unqualified u codec hcodec
  have hmutable : mutableArguments (RemoteOperation.describedArguments client description (OrdSet.insertAll ∅ taken)
      ts') = taken := RemoteOperation.mutableArguments_described htypes (hlength ▸ h.lt) h.sorted
  have hcount : (returned.toList ++ cs).length - returned.isSome.toNat = cs.length := by
    cases returned <;> simp
  have hclientOutputs := describeOutputs_twin hcs (fun i hi => hread i (h.lt i (by rwa [hcount, ← htaken] at hi)))
    houtputs
  rw [hcount, ← htaken] at hclientOutputs
  rw [hserver]
  exact describe_eq rfl (describeInputs_twin hts (fun i _ hi => hread i (by simpa using hi)) hinputs)
    (describeReturn_twin ht hreturn) (by rw [hmutable]; exact hclientOutputs)

theorem Mirrorable.make {operation : Operation} (h : Mirrorable registry operation) (hc : Agrees registry client)
    (name : Str) :
    ∃ remote, RemoteOperation.make (some client) (descriptionOf name operation.description
        (describe registry operation)) = .ok remote ∧
      Mirrors registry client operation remote ∧ Mirrorable client remote.toInterface := by
  obtain ⟨ts, t, returned, taken, cs, arguments, inputs, outputs, hsignature, harguments, hinputs, hreturn, houtputs,
    htaken⟩ := h.signature
  obtain ⟨⟨t', ht⟩, htwins⟩ : (∃ t', Twin registry client t t') ∧ ∀ u ∈ ts ++ cs, ∃ codec,
      registry.codecForTypeInfo u = some codec := by
    obtain ⟨codec, hcodec⟩ := hsignature.codecs t (by simp)
    refine ⟨hc.twin t codec hcodec, fun u hu => hsignature.codecs u ?_⟩
    rcases List.mem_append.1 hu with hu | hu
    · simp [hu]
    · simp [hu]
  obtain ⟨ts', hts⟩ := hc.twins fun u hu => htwins u (List.mem_append_left _ hu)
  obtain ⟨cs', hcs⟩ := hc.twins fun u hu => htwins u (List.mem_append_right _ hu)
  have hreturned : List.Forall₂ (Twin registry client) returned.toList (returned.map fun _ => t').toList := by
    obtain hsome | ⟨hnone, -⟩ := hsignature.returns
    · rw [hsome]
      exact .cons ht .nil
    · rw [hnone]
      exact .nil
  have hcollect := List.rel_append hreturned hcs
  have hschema := describe_signature hc hsignature harguments hinputs hreturn houtputs htaken hts ht hcollect name
  refine ⟨_, construct_signature hsignature hts ht hcs name, ⟨⟨?_, ?_, ?_, ?_, hschema⟩, ?_⟩, ?_, ?_, ?_⟩
  · simp [RemoteOperation.toInterface, hsignature.types, hts.length_eq]
  · rw [hsignature.types]
    exact map_typeName_twins hts
  · obtain ⟨_, -, -, -, hname⟩ := ht
    rw [hsignature.returnType]
    exact hname
  · rw [hsignature.collect]
    exact map_typeName_twins hcollect
  · intro i
    have hsource : Int.ofNat i ∈ (describe registry operation).outputSources ↔ i ∈ taken := by
      rw [hsignature.sources, RemoteOperation.ofNat_mem_sourcesOf]
    rw [decide_eq_decide.2 hsource]
    exact (OrdSet.contains_insertAll taken).trans (Bool.or_false _)
  · exact (congrArg OperationSchema.supported hschema).trans h.supported
  · have hrest := h.outputTypes
    rwa [← hschema] at hrest
  · intro u codec hu hcodec hvalue
    obtain ⟨v, codec', hv, hcodec', hsome, -⟩ := describeReturn_eq_ok (describeReturn_twin ht hreturn)
    obtain rfl : u = t' := (Option.some.inj hu).symm
    obtain rfl : u = v := Option.some.inj hv
    obtain rfl : codec = codec' := Option.some.inj (hcodec.symm.trans hcodec')
    obtain ⟨w, hw⟩ := Option.isSome_iff_exists.1 (hsome.symm.trans hvalue)
    simp [RemoteOperation.toInterface, hw]

/-! ## Publications -/

/-- An operation that a server publishes: a record of its service, and the nodes of its bundle. -/
structure Publication (registry : TypeRegistry) (operation : Operation) where
  component : Str
  services : Nat → Service
  record : ResourceRecord
  servicePath : List Str
  specs : List NodeSpec
  placed : Placed record
  kind : record.kind = .operation
  owner : record.ownerPath = ownerPath servicePath
  found : (services record.owner).getOperation record.name = some operation
  bundle : operationBundle component services registry record = .ok specs

/-- What a client makes of it. -/
def Publication.mirror {operation : Operation} (p : Publication registry operation) (client : TypeRegistry) :
    Option (Except Str RemoteOperation) :=
  mirrorOperation (some client) (p.specs.foldl insertNode ∅) p.component p.servicePath p.record.name

theorem Mirrorable.mirror_eq {operation : Operation} (h : Mirrorable registry operation)
    (p : Publication registry operation) (client : TypeRegistry) :
    p.mirror client = some (RemoteOperation.make (some client)
      (descriptionOf p.record.name operation.description (describe registry operation))) := by
  obtain ⟨found, hfound, -, hspecs⟩ := operationBundle_eq_ok p.component p.servicePath p.placed p.kind p.owner p.bundle
  obtain rfl := Option.some.inj (hfound.symm.trans p.found)
  obtain ⟨hinputs, -, hsources⟩ := lengths_of_supported h.supported
  have hcategory : (categorySpec p.component p.services p.record).path =
      modelPath p.component p.servicePath [lit "operations"] := by
    have hleaf : resourceCategory p.record.kind = lit "operations" := by rw [p.kind]; rfl
    rw [categorySpec, objectSpec, ownerNodePath_eq p.component p.servicePath p.owner, hleaf]
    exact (modelPath_append p.component p.servicePath [] (lit "operations")).symm
  rw [Publication.mirror, hspecs, mirrorOperation_published p.component p.servicePath p.record.name (some client)
    found.description hcategory hinputs hsources]

theorem Mirrorable.mirror {operation : Operation} (h : Mirrorable registry operation)
    (p : Publication registry operation) (hc : Agrees registry client) :
    ∃ remote, p.mirror client = some (.ok remote) ∧ Mirrors registry client operation remote ∧
      Mirrorable client remote.toInterface := by
  obtain ⟨remote, hmake, hremote⟩ := h.make hc p.record.name
  exact ⟨remote, by rw [h.mirror_eq p client, hmake], hremote⟩

/-- A client publishes what it has made of an operation. -/
def Republishes (a b : TypeRegistry × Operation) : Prop :=
  Agrees a.1 b.1 ∧ ∃ (p : Publication a.1 a.2) (remote : RemoteOperation),
    p.mirror b.1 = some (.ok remote) ∧ b.2 = remote.toInterface

/-- However often an operation is published again, it can be mirrored and has its signature. -/
theorem Mirrorable.republished {operation : Operation} (h : Mirrorable registry operation)
    {stage : TypeRegistry × Operation} (hstage : Relation.ReflTransGen Republishes (registry, operation) stage) :
    Mirrorable stage.1 stage.2 ∧ SameSignature registry stage.1 operation stage.2 := by
  induction hstage with
  | refl => exact ⟨h, .refl registry operation⟩
  | tail _ hstep ih =>
      obtain ⟨hbefore, hsame⟩ := ih
      obtain ⟨hagrees, p, remote, hmirror, hb⟩ := hstep
      obtain ⟨remote', hmirror', hmirrors, hafter⟩ := hbefore.mirror p hagrees
      obtain rfl : remote' = remote := Except.ok.inj (Option.some.inj (hmirror'.symm.trans hmirror))
      rw [hb]
      exact ⟨hafter, hsame.trans hmirrors.signature⟩

end Ends

end RttOpcua.Remote
