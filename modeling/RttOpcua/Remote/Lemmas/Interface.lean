import RttOpcua.Model.Escape
import RttOpcua.Model.Lemmas.Publish
import RttOpcua.Remote.Lemmas.Call
import RttOpcua.Remote.Lemmas.Staging

/-!
# Staged trees

What a staged tree has to be for a publication, and that staging makes it where the operations can be built.
-/

namespace RttOpcua.Remote

open RttOpcua.Lib RttOpcua.Model

/-! ## Operations that a client can build -/

section Operations

variable {registry client : TypeRegistry} {operation : Operation}

/-- What RTT collects for the mutable arguments: everything behind the return value, if that has a value. -/
def collectedArguments (registry : TypeRegistry) (operation : Operation) : List (Option Nat) :=
  operation.collect.drop ((codecOf registry operation.returnType).any Codec.hasValue).toNat

/-- The arguments that are read as mutable references have the types that RTT collects in their places. -/
def CollectsArguments (registry : TypeRegistry) (operation : Operation) : Prop :=
  ∀ arguments, operation.argumentList = some arguments → ∀ (k i : Nat) (type : Option Nat),
    (mutableArguments arguments)[k]? = some i → (collectedArguments registry operation)[k]? = some type →
    ∃ argument, operation.types[i]? = some argument ∧ typeName registry argument = typeName registry type

/-- RTT collects the return value first, if it has a value. -/
def CollectsReturn (registry : TypeRegistry) (operation : Operation) : Prop :=
  ∀ t codec, operation.returnType = some t → registry.codecForTypeInfo t = some codec → codec.hasValue = true →
    operation.collect.head? = some (some t)

theorem typeNames_of_has {types : List (Option Nat)} {described : List Described}
    (h : List.Forall₂ (Described.Has registry) types described) :
    described.map Described.typeName = types.map (typeName registry) := by
  obtain ⟨ts, rfl, hnames, -⟩ := types_of_has h
  rw [hnames, List.map_map]
  rfl

theorem schema_of_supported (h : (describe registry operation).supported = true) :
    ∃ arguments, operation.argumentList = some arguments ∧
      (describe registry operation).inputTypeNames = operation.types.map (typeName registry) ∧
      (describe registry operation).outputTypeNames = operation.collect.map (typeName registry) ∧
      (describe registry operation).outputSources =
        ((if (codecOf registry operation.returnType).any Codec.hasValue then [-1] else []) ++
          (mutableArguments arguments).map Int.ofNat).take operation.collect.length := by
  obtain ⟨arguments, inputs, hasReturnValue, outputs, harguments, hinputs, hreturn, houtputs, hschema⟩ :=
    describe_supported h
  obtain ⟨hhave, hsources⟩ := describeOutputs_eq_ok _ houtputs
  obtain ⟨t, codec, ht, hcodec, hvalue, -⟩ := describeReturn_eq_ok hreturn
  refine ⟨arguments, harguments, ?_, ?_, ?_⟩
  · rw [hschema, typeNames_of_has (describeInputs_eq_ok _ hinputs).1]
  · rw [hschema, typeNames_of_has hhave]
  · rw [hschema, hsources, ht, codecOf, Option.bind_some, hcodec, Option.any_some, hvalue]

theorem mirrorable_iff (h : (describe registry operation).supported = true) (hreturn : CollectsReturn registry operation) :
    Mirrorable registry operation ↔ CollectsArguments registry operation := by
  obtain ⟨arguments, harguments, hinputs, houtputs, hsources⟩ := schema_of_supported h
  constructor
  · intro hmirrorable arguments' harguments' k i type hk htype
    obtain rfl := Option.some.inj (harguments.symm.trans harguments')
    rw [collectedArguments, List.getElem?_drop] at htype
    have hlt : k + ((codecOf registry operation.returnType).any Codec.hasValue).toNat < operation.collect.length := by
      have := (List.getElem?_eq_some_iff.1 htype).1
      omega
    have hsource : (describe registry operation).outputSources[
        k + ((codecOf registry operation.returnType).any Codec.hasValue).toNat]? = some (Int.ofNat i) := by
      rw [hsources, List.getElem?_take_of_lt hlt]
      cases (codecOf registry operation.returnType).any Codec.hasValue
      all_goals simp [hk]
    have hname : (describe registry operation).outputTypeNames[
        k + ((codecOf registry operation.returnType).any Codec.hasValue).toNat]? = some (typeName registry type) := by
      rw [houtputs, List.getElem?_map, Nat.add_comm k, htype, Option.map_some]
    have hinput := hmirrorable.outputTypes _ _ _ hsource (fun hneg => by cases hneg) hname
    rw [hinputs, List.getElem?_map, Option.map_eq_some_iff] at hinput
    exact hinput
  · intro hcollects
    refine ⟨h, fun k source name hsource hne hname => ?_, hreturn⟩
    rw [houtputs, List.getElem?_map, Option.map_eq_some_iff] at hname
    obtain ⟨type, htype, rfl⟩ := hname
    have hlt := (List.getElem?_eq_some_iff.1 htype).1
    rw [hsources, List.getElem?_take_of_lt hlt] at hsource
    -- the place among the mutable arguments
    obtain ⟨j, i, hj, hi, hsource⟩ : ∃ j i,
        k = j + ((codecOf registry operation.returnType).any Codec.hasValue).toNat ∧
        (mutableArguments arguments)[j]? = some i ∧ source = Int.ofNat i := by
      cases hvalue : (codecOf registry operation.returnType).any Codec.hasValue with
      | false =>
          rw [hvalue] at hsource
          simp only [Bool.false_eq_true, if_false, List.nil_append, List.getElem?_map, Option.map_eq_some_iff] at hsource
          obtain ⟨i, hi, hsource⟩ := hsource
          exact ⟨k, i, rfl, hi, hsource.symm⟩
      | true =>
          rw [hvalue] at hsource
          cases k with
          | zero =>
              simp only [if_true, List.singleton_append, List.getElem?_cons_zero, Option.some.injEq] at hsource
              exact absurd hsource.symm hne
          | succ j =>
              simp only [if_true, List.singleton_append, List.getElem?_cons_succ, List.getElem?_map,
                Option.map_eq_some_iff] at hsource
              obtain ⟨i, hi, hsource⟩ := hsource
              exact ⟨j, i, rfl, hi, hsource.symm⟩
    have hcollected : (collectedArguments registry operation)[j]? = some type := by
      rw [collectedArguments, List.getElem?_drop, Nat.add_comm, ← hj]
      exact htype
    obtain ⟨argument, hargument, hsame⟩ := hcollects arguments harguments j i type hi hcollected
    rw [hsource, hinputs, List.getElem?_map]
    exact Option.map_eq_some_iff.2 ⟨argument, hargument, hsame⟩

theorem resolveTypes_type {what : Str} (names : List Str) : ∀ {types : List Nat},
    RemoteOperation.resolveTypes registry what names = .ok types →
    List.Forall₂ (fun name type => registry.type name = some type) names types := by
  induction names with
  | nil =>
      intro types h
      cases h
      exact .nil
  | cons name rest ih =>
      intro types h
      simp only [RemoteOperation.resolveTypes] at h
      split at h
      · cases h
      case h_2 type htype =>
        split at h
        · cases h
        cases hrest : RemoteOperation.resolveTypes registry what rest with
        | error => rw [hrest] at h; cases h
        | ok more =>
            rw [hrest] at h
            cases h
            exact .cons htype (ih hrest)

theorem construct_types {description : RemoteOperationDescription} {remote : RemoteOperation}
    (h : RemoteOperation.construct registry description = .ok remote) :
    List.Forall₂ (fun name type => registry.type name = some type) description.inputTypes remote.inputTypes ∧
      List.Forall₂ (fun name type => registry.type name = some type) description.outputTypes remote.outputTypes := by
  simp only [RemoteOperation.construct, bind, Except.bind] at h
  split at h
  · cases h
  split at h
  · cases h
  case h_2 inputTypes hinputs _ outputTypes houtputs =>
    split at h
    · cases h
    case isFalse =>
      split at h
      · cases h
      case h_2 found _ =>
        obtain ⟨returned, mutableArguments⟩ := found
        simp only at h
        split at h
        · cases h
        case h_2 =>
          cases h
          exact ⟨resolveTypes_type _ hinputs, resolveTypes_type _ houtputs⟩

/-- The sources of what the constructor accepts are arguments of the type of the output. -/
theorem collectsArguments_of_make (hagrees : Agrees registry client)
    (h : (describe registry operation).supported = true) (hreturn : CollectsReturn registry operation) {name : Str}
    {remote : RemoteOperation}
    (hmake : RemoteOperation.make (some client) (descriptionOf name operation.description
      (describe registry operation)) = .ok remote) : CollectsArguments registry operation := by
  rw [← mirrorable_iff h hreturn]
  refine ⟨h, fun k source output hsource hne hname => ?_, hreturn⟩
  obtain ⟨hinputs, houtputs⟩ := construct_types hmake
  obtain ⟨-, hcount, -, hsources⟩ := RemoteOperation.construct_eq_ok hmake
  -- the type of the output
  have hlt : k < remote.outputTypes.length := by
    rw [← hcount]
    exact (List.getElem?_eq_some_iff.1 hname).1
  obtain ⟨type, htype⟩ : ∃ type, remote.outputTypes[k]? = some type := ⟨_, List.getElem?_eq_getElem hlt⟩
  have houtput := forall₂_getElem? houtputs hname htype
  obtain ⟨hreturned, -⟩ | ⟨-, -, hinput, -⟩ := hsources _ (mem_zip_of_getElem? hsource htype)
  · exact absurd hreturned hne
  -- the argument at its source
  have hlt' : source.toNat < (describe registry operation).inputTypeNames.length := by
    have hlength := hinputs.length_eq
    rw [show (describe registry operation).inputTypeNames.length = remote.inputTypes.length from hlength]
    exact (List.getElem?_eq_some_iff.1 hinput).1
  obtain ⟨input, hinputName⟩ : ∃ input, (describe registry operation).inputTypeNames[source.toNat]? = some input :=
    ⟨_, List.getElem?_eq_getElem hlt'⟩
  have hresolved := forall₂_getElem? hinputs hinputName hinput
  -- one type has one name
  have hnames : ∀ {names : List Str} {types : List (Option Nat)} {described : List Described} {i : Nat} {n : Str},
      names = types.map (typeName registry) → List.Forall₂ (Described.Has registry) types described →
      names[i]? = some n → client.type n = some type → client.getTypeName type = n := by
    intro names types described i n hmap hhas hn hclient
    obtain ⟨ts, rfl, -, hcodecs⟩ := types_of_has hhas
    rw [hmap, List.map_map, List.getElem?_map, Option.map_eq_some_iff] at hn
    obtain ⟨t, ht, rfl⟩ := hn
    obtain ⟨codec, hcodec⟩ := hcodecs t (List.mem_of_getElem? ht)
    obtain ⟨t', -, -, -, htwin, hsame⟩ := hagrees.twin t codec hcodec
    obtain rfl : t' = type := Option.some.inj (htwin.symm.trans hclient)
    exact hsame
  obtain ⟨arguments, inputs, hasReturnValue, outputs, -, hdescribeInputs, -, hdescribeOutputs, hschema⟩ :=
    describe_supported h
  obtain ⟨_, -, hinputNames, houtputNames, -⟩ := schema_of_supported h
  have hin : client.getTypeName type = input :=
    hnames hinputNames (describeInputs_eq_ok _ hdescribeInputs).1 hinputName hresolved
  have hout : client.getTypeName type = output :=
    hnames houtputNames (describeOutputs_eq_ok _ hdescribeOutputs).1 hname houtput
  rw [hinputName, ← hin, hout]

end Operations

/-! ## Required operations -/

section Required

variable {c : Component} {registry : TypeRegistry} {mode : PublicationMode} {selectors : List Str}

theorem kRequiredRootOperations_eq : kRequiredRootOperations = kMandatoryOperations := rfl

theorem acceptsRequired_eq {operation : Operation} (h : (describe registry operation).supported = true)
    (name description type : Str) :
    acceptsMandatory (describe registry operation) type =
      acceptsRequired (descriptionOf name description (describe registry operation)) type := by
  obtain ⟨hinputs, houtputs, hsources⟩ := lengths_of_supported h
  have hempty : (describe registry operation).inputs.isEmpty = (describe registry operation).inputTypeNames.isEmpty := by
    rw [Bool.eq_iff_iff, List.isEmpty_iff, List.isEmpty_iff, ← List.length_eq_zero_iff, ← List.length_eq_zero_iff,
      hinputs]
  have hone : ∀ {α : Type} [DecidableEq α] (l : List α) (x : α), l = [x] ↔ l.length = 1 ∧ l.head? = some x := by
    intro α _ l x
    cases l with
    | nil => simp
    | cons y rest => cases rest <;> simp
  rw [Bool.eq_iff_iff, acceptsMandatory, acceptsRequired, hempty, houtputs]
  simp only [descriptionOf, Bool.and_eq_true, beq_iff_eq, hone]
  tauto

theorem operationBundle_mandatory {component : Str} {services : Nat → Service} {record : ResourceRecord}
    {specs : List NodeSpec} {operation : Operation} {type : Str}
    (h : operationBundle component services registry record = .ok specs)
    (hfound : (services record.owner).getOperation record.name = some operation)
    (hmandatory : mandatoryOutputType record = some type) : acceptsMandatory (describe registry operation) type = true := by
  simp only [operationBundle, hfound, hmandatory] at h
  split at h
  · cases h
  split at h
  · cases h
  split at h
  · cases h
  rename_i haccepts
  simpa using haccepts

theorem forM_eq_ok {α : Type} {check : α → Except Str Unit} {l : List α} (h : ∀ a ∈ l, check a = .ok ()) :
    l.forM check = .ok () := by
  induction l with
  | nil => rfl
  | cons a rest ih =>
      obtain ⟨ha, hrest⟩ := List.forall_mem_cons.1 h
      rw [List.forM_eq_forM, List.forM_cons, ha]
      exact ih hrest

theorem validateRequiredRootOperations_published (h : (snapshotComponent c registry mode selectors).diagnostics = [])
    (hname : ∀ record, Effective c mode selectors record → record.name ≠ [])
    {operations : List RemoteOperationDescription}
    (hread : Exactly c mode selectors [] .operation (fun _ => True) RemoteOperationDescription.name
      (DescribesOperation c registry) operations) : validateRequiredRootOperations operations = .ok () := by
  have hall : ∀ required ∈ kMandatoryOperations, validateRequired operations required = .ok () := by
    intro required hrequired
    have hpath := mandatory_effective h (List.mem_map_of_mem hrequired)
    obtain ⟨record, hfound, hrecordPath, hplaced, -⟩ := (complete_of_diagnostics h).shape hpath
    have hr : Effective c mode selectors record := ⟨hrecordPath ▸ hpath, hrecordPath ▸ hfound⟩
    have hsame : resourcePath record.ownerPath record.kind record.name = resourcePath [] .operation required.1 :=
      hplaced.symm.trans hrecordPath
    obtain ⟨howner, hkind⟩ := resourcePath_inj hsame
    -- the names of these operations have an escape of their own
    have hrecordName : record.name = required.1 := by
      have hsegments := congrArg segments hsame
      rw [segments_resourcePath, segments_resourcePath] at hsegments
      have hescape := (List.cons.inj (List.cons.inj (List.append_inj' hsegments rfl).2).2).1
      have hplain : ∀ required ∈ kMandatoryOperations, required.1 ≠ [] ∧ required.1 ≠ [0] := by decide
      rcases (escape_eq_iff _ _).1 hescape with heq | ⟨hnil, -⟩ | ⟨-, hnil⟩
      · exact heq
      · exact absurd hnil (hname record hr)
      · exact absurd hnil (hplain required hrequired).1
    have hat : EffectiveAt c mode selectors [] .operation record := ⟨hr, howner, hkind⟩
    obtain ⟨found, hfind⟩ : ∃ found, operations.find? (fun operation => operation.name = required.1) = some found := by
      obtain ⟨item, hitem, hitemName⟩ := List.mem_map.1 (hread.all record hat trivial)
      refine Option.isSome_iff_exists.1 (List.find?_isSome.2 ⟨item, hitem, ?_⟩)
      rw [hitemName, hrecordName, decide_eq_true rfl]
    have hfoundName : found.name = required.1 := by simpa using List.find?_some hfind
    obtain ⟨record', hat', -, hrecord', operation, hoperation, hsupported, rfl⟩ :=
      hread.stands found (List.mem_of_find?_eq_some hfind)
    obtain rfl : record' = record := hat'.eq hat (hrecord'.symm.trans (hfoundName.trans hrecordName.symm))
    have hbundle := hat'.bundle (complete_of_diagnostics h)
    rw [bundle, hkind] at hbundle
    have hmandatory : mandatoryOutputType record' = some required.2 := by
      have hfinds : ∀ required ∈ kMandatoryOperations,
          (kMandatoryOperations.find? fun m => m.1 = required.1).map Prod.snd = some required.2 := by decide
      rw [mandatoryOutputType, if_neg (by simp [hkind, howner]), hrecordName]
      exact hfinds required hrequired
    have haccepts := operationBundle_mandatory hbundle hoperation hmandatory
    rw [acceptsRequired_eq hsupported record'.name operation.description] at haccepts
    simp only [validateRequired, hfind, haccepts, if_true]
  exact forM_eq_ok hall

end Required

/-! ## Mirrored services -/

/-- `t` is what was staged for the service that lies at a path below `s`. -/
inductive StagedService.At : StagedService → List Str → StagedService → Prop
  | here {s : StagedService} : StagedService.At s [] s
  | child {s child t : StagedService} {path : List Str} : child ∈ s.children → StagedService.At child path t →
      StagedService.At s (child.name :: path) t

section Mirrors

variable (c : Component) (registry client : TypeRegistry) (mode : PublicationMode) (selectors : List Str)

/-- The published services, by the names on the way to them. -/
inductive ServiceAt : List Str → Prop
  | root : ServiceAt []
  | child {servicePath : List Str} {record : ResourceRecord} : ServiceAt servicePath →
      EffectiveAt c mode selectors servicePath .service record → ServiceAt (servicePath ++ [record.name])

/-- A remote operation that was made of the server's schema: it has its input types, its output types and its output
sources, and RTT sees the signature of the operation. -/
def MirrorsOperation (record : ResourceRecord) (remote : RemoteOperation) : Prop :=
  ∃ operation, (c.service record.owner).getOperation record.name = some operation ∧
    remote.description = descriptionOf record.name operation.description (describe registry operation) ∧
    RemoteOperation.make (some client) remote.description = .ok remote ∧ Mirrors registry client operation remote

/-- A property of the same type. -/
def MirrorsProperty (record : ResourceRecord) (staged : StagedProperty) : Prop :=
  ∃ property source type, (c.service record.owner).getProperty record.name = some property ∧
    property.dataSource = some source ∧ source.typeInfo = some type ∧ Twin registry client type staged.type ∧
    staged.description = property.description

/-- An attribute of the same type, which is assignable if the source is. -/
def MirrorsAttribute (record : ResourceRecord) (staged : StagedAttribute) : Prop :=
  ∃ value source type, (c.service record.owner).getValue record.name = some value ∧
    value.dataSource = some source ∧ source.typeInfo = some type ∧ Twin registry client type staged.type ∧
    staged.isAssignable = source.isAssignable

/-- A port of the same direction and type. -/
def MirrorsPort (record : ResourceRecord) (staged : StagedPort) : Prop :=
  ∃ port type, (c.service record.owner).getPort record.name = some port ∧ port.typeInfo = some type ∧
    Twin registry client type staged.type ∧ staged.direction = portDirection port ∧
    staged.description = port.description

def MirrorsService (record : ResourceRecord) (staged : StagedService) : Prop :=
  ∃ service, record.service = some service ∧ staged.description = (c.service service).doc

/-- What is staged for a service has exactly its published resources; output ports without a value node are missing. -/
structure MirrorsContents (servicePath : List Str) (staged : StagedService) : Prop where
  operations : Exactly c mode selectors servicePath .operation (fun _ => True) Prod.fst
    (fun record item => MirrorsOperation c registry client record item.2) staged.operations
  properties : Exactly c mode selectors servicePath .property (fun _ => True) StagedProperty.name
    (MirrorsProperty c registry client) staged.properties
  attributes : Exactly c mode selectors servicePath .attribute (fun _ => True) StagedAttribute.name
    (MirrorsAttribute c registry client) staged.attributes
  ports : Exactly c mode selectors servicePath .port (HasValueNode c) StagedPort.name (MirrorsPort c registry client)
    staged.ports
  children : Exactly c mode selectors servicePath .service (fun _ => True) StagedService.name (MirrorsService c)
    staged.children

/-- What is staged below a service mirrors the published services at every depth. -/
structure MirrorsTree (servicePath : List Str) (staged : StagedService) : Prop where
  services : ∀ path, (∃ s, staged.At path s) ↔ ServiceAt c mode selectors (servicePath ++ path)
  contents : ∀ path s, staged.At path s → MirrorsContents c registry client mode selectors (servicePath ++ path) s

end Mirrors

section Services

variable {c : Component} {registry client : TypeRegistry} {mode : PublicationMode} {selectors : List Str}
  {servicePath : List Str}

theorem StagedService.at_nil {s t : StagedService} : s.At [] t ↔ t = s := by
  constructor
  · intro h
    generalize hpath : ([] : List Str) = path at h
    cases h with
    | here => rfl
    | child => cases hpath
  · rintro rfl
    exact .here

theorem StagedService.at_cons {s t : StagedService} {name : Str} {path : List Str} :
    s.At (name :: path) t ↔ ∃ child ∈ s.children, child.name = name ∧ child.At path t := by
  constructor
  · intro h
    generalize hpath : name :: path = names at h
    cases h with
    | here => cases hpath
    | child hchild hat =>
        obtain ⟨rfl, rfl⟩ := List.cons.inj hpath
        exact ⟨_, hchild, rfl, hat⟩
  · rintro ⟨child, hchild, rfl, hat⟩
    exact .child hchild hat

theorem ServiceAt.record {name : Str} (h : ServiceAt c mode selectors (servicePath ++ [name])) :
    ServiceAt c mode selectors servicePath ∧
      ∃ record, EffectiveAt c mode selectors servicePath .service record ∧ record.name = name := by
  generalize hpath : servicePath ++ [name] = names at h
  cases h with
  | root => exact absurd hpath (by simp)
  | child hat hr =>
      obtain ⟨rfl, hname⟩ := List.append_inj' hpath rfl
      exact ⟨hat, _, hr, (List.cons.inj hname).1.symm⟩

theorem ServiceAt.of_append {path : List Str} (h : ServiceAt c mode selectors (servicePath ++ path)) :
    ServiceAt c mode selectors servicePath := by
  induction path using List.reverseRecOn with
  | nil => rwa [List.append_nil] at h
  | append_singleton path name ih =>
      rw [← List.append_assoc] at h
      exact ih h.record.1

/-- A walk takes two segments for each service. -/
theorem length_segments_of_walk {above : List Nat} {service : Nat} {owner legacy : Str}
    (h : Walk c above service owner legacy) : (segments owner).length = 2 * above.length := by
  induction h with
  | root => rfl
  | child _ _ _ _ ih =>
      rw [segments_resourcePath, List.length_append, ih]
      simp only [List.length_cons, List.length_nil]
      omega

/-- Discovery on the server has gone no deeper than staging goes. -/
theorem ServiceAt.length_le (h : Complete c registry mode selectors) (hs : ServiceAt c mode selectors servicePath) :
    servicePath.length ≤ kMaximumServiceDepth := by
  cases hs with
  | root => exact Nat.zero_le _
  | @child owner record _ hr =>
      have hfound := hr.found
      rw [find?_discoverComponent] at hfound
      obtain ⟨above, service, ownerPath', legacy, hwalk, -, hmem⟩ :=
        mem_componentOffers.1 (List.mem_of_find?_eq_some hfound)
      obtain ⟨-, howner, -, -, hservice⟩ := mem_ownRecords hmem
      have hbundle := hr.bundle h
      rw [bundle, hr.kind_eq] at hbundle
      obtain ⟨herror, -⟩ := serviceBundle_eq_ok hbundle
      have hfree : ¬ Blocked above service record.service := fun hblocked =>
        (childError_ne_nil record.service).2 hblocked ((hservice hr.kind_eq).2.symm.trans herror)
      have hdepth : ¬ kMaximumServiceDepth < above.length + 1 := fun hlt => hfree (.inr (.inr hlt))
      have hsegments := length_segments_of_walk hwalk
      rw [← howner, hr.owner, length_segments_ownerPath] at hsegments
      rw [List.length_append, List.length_cons, List.length_nil]
      omega

theorem Effective.service {record : ResourceRecord} (hr : Effective c mode selectors record) :
    ∃ servicePath, ServiceAt c mode selectors servicePath ∧ record.ownerPath = ownerPath servicePath := by
  have hlength : ∀ n (record : ResourceRecord), record.path.length = n → Effective c mode selectors record →
      ∃ servicePath, ServiceAt c mode selectors servicePath ∧ record.ownerPath = ownerPath servicePath := by
    intro n
    induction n using Nat.strong_induction_on with
    | _ n ih =>
        rintro record rfl hr
        by_cases howner : record.ownerPath = []
        · exact ⟨[], .root, howner⟩
        · obtain ⟨service, hfound, hkind⟩ :=
            ((discoverComponent_inv c).owner _ record hr.found).resolve_left howner
          obtain ⟨hpath, hplaced⟩ := record_path hfound
          have hservice : Effective c mode selectors service := by
            refine ⟨?_, by rw [hpath]; exact hfound⟩
            rw [hpath]
            exact OrdMap.mem_keys.2 (effective_closed (discoverComponent_inv c) mode _ record (OrdMap.mem_keys.1 hr.path)
              hr.found howner)
          have hlt : service.path.length < record.path.length := by
            rw [hpath, hr.placed]
            exact length_resourcePath _ _ _
          obtain ⟨servicePath, hat, hserviceOwner⟩ := ih _ hlt service rfl hservice
          refine ⟨servicePath ++ [service.name], .child hat ⟨hservice, hserviceOwner, hkind⟩, ?_⟩
          rw [ownerPath_append, ← hserviceOwner, ← hkind, ← hplaced, hpath]
  exact hlength _ record rfl hr

end Services

/-! ## Staging -/

/-- Both ends have the same types, and a type and its name have the same codec. -/
structure SameTypes (registry client : TypeRegistry) : Prop extends Agrees registry client where
  byName : ∀ type codec, client.codecForTypeInfo type = some codec →
    client.codecForTypeName (client.getTypeName type) = some codec

/-- RTT builds properties, attributes, aliases and ports of the types that have values. -/
structure TypeFactories.Build (factories : TypeFactories) (client : TypeRegistry) : Prop where
  buildProperty : ∀ type, (client.codecForTypeInfo type).any Codec.hasValue = true → factories.buildProperty type = true
  buildAttribute : ∀ type, (client.codecForTypeInfo type).any Codec.hasValue = true → factories.buildAttribute type = true
  buildAlias : ∀ type, (client.codecForTypeInfo type).any Codec.hasValue = true → factories.buildAlias type = true
  inputPort : ∀ type, (client.codecForTypeInfo type).any Codec.hasValue = true → factories.inputPort type = true
  outputPort : ∀ type, (client.codecForTypeInfo type).any Codec.hasValue = true → factories.outputPort type = true

section Stage

variable {c : Component} {registry client : TypeRegistry} {factories : TypeFactories} {mode : PublicationMode}
  {selectors servicePath : List Str} {store : RemoteStore} {record : ResourceRecord}

theorem SameTypes.codecForTypeName (h : SameTypes registry client) {type : Nat} {codec : Codec}
    (hcodec : registry.codecForTypeInfo type = some codec) :
    client.codecForTypeName (registry.getTypeName type) = some codec := by
  obtain ⟨type', common, hserver, hclient, -, hname⟩ := h.twin type codec hcodec
  obtain rfl := Option.some.inj (hserver.symm.trans hcodec)
  rw [← hname]
  exact h.byName type' common hclient

theorem Agrees.valueType (h : Agrees registry client) {type : Nat} {codec : Codec}
    (hcodec : registry.codecForTypeInfo type = some codec) (hvalue : codec.hasValue = true) :
    ∃ type', Twin registry client type type' ∧ valueType client (registry.getTypeName type) = some type' ∧
      (client.codecForTypeInfo type').any Codec.hasValue = true := by
  obtain ⟨type', htwin⟩ := h.twin type codec hcodec
  obtain ⟨common, hserver, hclient, htype, -⟩ := id htwin
  obtain rfl := Option.some.inj (hserver.symm.trans hcodec)
  have hany : (client.codecForTypeInfo type').any Codec.hasValue = true := by rw [hclient, Option.any_some, hvalue]
  exact ⟨type', htwin, by rw [Remote.valueType, htype, Option.filter_some, if_pos hany], hany⟩

theorem stageProperty_mirrors (hagrees : Agrees registry client) (hbuild : factories.Build client)
    (hassignable : ∀ property source, (c.service record.owner).getProperty record.name = some property →
      property.dataSource = some source → source.isAssignable = true) {description : RemoteValueDescription}
    (h : DescribesValue c registry .properties record description) :
    ∃ staged, stageProperty client factories description = .ok staged ∧ staged.name = record.name ∧
      MirrorsProperty c registry client record staged := by
  obtain ⟨source, text, type, codec, hfound, htype, hcodec, hvalue, rfl⟩ := h
  obtain ⟨property, hproperty, hpair⟩ := Option.map_eq_some_iff.1 hfound
  obtain ⟨hsource, rfl⟩ := Prod.mk.inj hpair
  obtain ⟨type', htwin, hvalueType, hany⟩ := hagrees.valueType hcodec hvalue
  have hwritable := hassignable property source hproperty hsource
  refine ⟨⟨record.name, property.description, type'⟩, ?_, rfl, property, source, type, hproperty, hsource, htype,
    htwin, rfl⟩
  simp only [stageProperty, hwritable, Bool.true_eq_false, if_false, makeRemoteDataSource, hvalueType, bind,
    Except.bind, hbuild.buildProperty type' hany, if_true]

theorem stageAttribute_mirrors (hagrees : Agrees registry client) (hbuild : factories.Build client)
    {description : RemoteValueDescription} (h : DescribesValue c registry .attributes record description) :
    ∃ staged, stageAttribute client factories description = .ok staged ∧ staged.name = record.name ∧
      MirrorsAttribute c registry client record staged := by
  obtain ⟨source, text, type, codec, hfound, htype, hcodec, hvalue, rfl⟩ := h
  obtain ⟨value, hvalueFound, hpair⟩ := Option.map_eq_some_iff.1 hfound
  obtain ⟨hsource, rfl⟩ := Prod.mk.inj hpair
  obtain ⟨type', htwin, hvalueType, hany⟩ := hagrees.valueType hcodec hvalue
  refine ⟨⟨record.name, type', source.isAssignable⟩, ?_, rfl, value, source, type, hvalueFound, hsource, htype, htwin,
    rfl⟩
  cases hwritable : source.isAssignable
  all_goals simp [stageAttribute, makeRemoteDataSource, hvalueType, bind, Except.bind, hbuild.buildAttribute type' hany,
    hbuild.buildAlias type' hany]

theorem stagePort_mirrors (hagrees : Agrees registry client) (hbuild : factories.Build client)
    {description : RemotePortDescription} (h : DescribesPort c registry record description) :
    ∃ staged, stagePort client factories description = .ok staged ∧ staged.name = record.name ∧
      MirrorsPort c registry client record staged := by
  obtain ⟨port, type, codec, hport, htype, hcodec, hvalue, rfl⟩ := h
  obtain ⟨type', htwin, hvalueType, hany⟩ := hagrees.valueType hcodec hvalue
  refine ⟨⟨record.name, port.description, type', portDirection port⟩, ?_, rfl, port, type, hport, htype, htwin, rfl, rfl⟩
  cases hdirection : portDirection port
  all_goals simp [stagePort, hvalueType, hbuild.inputPort type' hany, hbuild.outputPort type' hany]

theorem stageOperation_mirrors (hagrees : Agrees registry client)
    (hmirrorable : ∀ operation, (c.service record.owner).getOperation record.name = some operation →
      Mirrorable registry operation) {description : RemoteOperationDescription}
    (h : DescribesOperation c registry record description) :
    ∃ staged, (RemoteOperation.make (some client) description).map (fun built => (description.name, built)) =
        .ok staged ∧ staged.1 = record.name ∧ MirrorsOperation c registry client record staged.2 := by
  obtain ⟨operation, hfound, -, rfl⟩ := h
  obtain ⟨remote, hmake, hmirrors, -⟩ := (hmirrorable operation hfound).make hagrees record.name
  obtain ⟨hdescription, -⟩ := RemoteOperation.construct_eq_ok hmake
  refine ⟨(record.name, remote), by rw [hmake]; rfl, rfl, operation, hfound, hdescription, ?_, hmirrors⟩
  rw [hdescription]
  exact hmake

theorem mirrorsTree_of_children {staged : StagedService}
    (hcontents : MirrorsContents c registry client mode selectors servicePath staged)
    (hat : ServiceAt c mode selectors servicePath)
    (hchildren : ∀ child ∈ staged.children,
      MirrorsTree c registry client mode selectors (servicePath ++ [child.name]) child) :
    MirrorsTree c registry client mode selectors servicePath staged := by
  constructor
  · intro path
    cases path with
    | nil =>
        rw [List.append_nil]
        exact ⟨fun _ => hat, fun _ => ⟨staged, .here⟩⟩
    | cons name path =>
        rw [List.append_cons]
        constructor
        · rintro ⟨s, hs⟩
          obtain ⟨child, hchild, rfl, hbelow⟩ := StagedService.at_cons.1 hs
          exact ((hchildren child hchild).services path).1 ⟨s, hbelow⟩
        · intro hservice
          obtain ⟨-, record, hr, rfl⟩ := hservice.of_append.record
          obtain ⟨child, hchild, hname⟩ := List.mem_map.1 (hcontents.children.all record hr trivial)
          rw [← hname] at hservice ⊢
          obtain ⟨s, hs⟩ := ((hchildren child hchild).services path).2 hservice
          exact ⟨s, .child hchild hs⟩
  · intro path s hs
    cases path with
    | nil =>
        rw [StagedService.at_nil.1 hs, List.append_nil]
        exact hcontents
    | cons name path =>
        obtain ⟨child, hchild, rfl, hbelow⟩ := StagedService.at_cons.1 hs
        rw [List.append_cons]
        exact (hchildren child hchild).contents path s hbelow

theorem stageRemoteService_mirrors (h : Complete c registry mode selectors)
    (hstore : store.nodes = (snapshotComponent c registry mode selectors).nodes)
    (hname : ∀ record, Effective c mode selectors record → record.name ≠ [])
    (hassignable : ∀ record, Effective c mode selectors record → record.kind = .property → ∀ property source,
      (c.service record.owner).getProperty record.name = some property → property.dataSource = some source →
      source.isAssignable = true)
    (hmirrorable : ∀ record, Effective c mode selectors record → record.kind = .operation → ∀ operation,
      (c.service record.owner).getOperation record.name = some operation → Mirrorable registry operation)
    (hrequired : ∀ operations, Exactly c mode selectors [] .operation (fun _ => True) RemoteOperationDescription.name
      (DescribesOperation c registry) operations → validateRequiredRootOperations operations = .ok ())
    (htypes : SameTypes registry client) (hbuild : factories.Build client) (remaining : Nat) :
    ∀ (servicePath : List Str) (name description : Str), ServiceAt c mode selectors servicePath →
      remaining + servicePath.length = kMaximumServiceDepth + 1 →
      ∃ staged, stageRemoteService client factories store c.name remaining servicePath name description = .ok staged ∧
        staged.name = name ∧ staged.description = description ∧
        MirrorsTree c registry client mode selectors servicePath staged := by
  induction remaining with
  | zero =>
      intro servicePath name description hat hlength
      have hdepth := hat.length_le h
      omega
  | succ remaining ih =>
      intro servicePath name description hat hlength
      obtain ⟨operations, hoperations, hreadOperations⟩ := discoverOperations_exactly servicePath h hstore hname
      obtain ⟨properties, hproperties, hreadProperties⟩ := discoverValues_exactly servicePath h hstore hname .properties
      obtain ⟨attributes, hattributes, hreadAttributes⟩ := discoverValues_exactly servicePath h hstore hname .attributes
      obtain ⟨ports, hports, hreadPorts⟩ := discoverPorts_exactly servicePath h hstore hname fun _ _ => htypes.codecForTypeName
      obtain ⟨services, hservices, hreadServices⟩ := discoverServices_exactly servicePath h hstore hname
      obtain ⟨stagedOperations, hstagedOperations, hmirrorOperations⟩ := hreadOperations.mapM
        fun record item hr _ hitem => stageOperation_mirrors htypes.toAgrees
          (hmirrorable record hr.toEffective hr.kind_eq) hitem
      obtain ⟨stagedProperties, hstagedProperties, hmirrorProperties⟩ := hreadProperties.mapM
        fun record item hr _ hitem => stageProperty_mirrors htypes.toAgrees hbuild
          (hassignable record hr.toEffective hr.kind_eq) hitem
      obtain ⟨stagedAttributes, hstagedAttributes, hmirrorAttributes⟩ := hreadAttributes.mapM
        fun record item _ _ hitem => stageAttribute_mirrors htypes.toAgrees hbuild hitem
      obtain ⟨stagedPorts, hstagedPorts, hmirrorPorts⟩ := hreadPorts.mapM
        fun record item _ _ hitem => stagePort_mirrors htypes.toAgrees hbuild hitem
      -- the children, by induction
      have hchild : ∀ record item, EffectiveAt c mode selectors servicePath .service record → item.name = record.name →
          DescribesService c record item → ∃ child,
            stageRemoteService client factories store c.name remaining (servicePath ++ [item.name]) item.name
              item.description = .ok child ∧ child.name = record.name ∧
            (MirrorsService c record child ∧
              MirrorsTree c registry client mode selectors (servicePath ++ [child.name]) child) := by
        rintro record item hr - ⟨service, hservice, rfl⟩
        obtain ⟨child, hok, hchildName, hdescription, htree⟩ := ih (servicePath ++ [record.name]) record.name
          (c.service service).doc (.child hat hr)
          (by rw [List.length_append, List.length_cons, List.length_nil]; omega)
        exact ⟨child, hok, hchildName, ⟨service, hservice, hdescription⟩, hchildName ▸ htree⟩
      obtain ⟨children, hchildren, hmirrorChildren⟩ := hreadServices.mapM hchild
      refine ⟨{ name, description, operations := stagedOperations, properties := stagedProperties
                attributes := stagedAttributes, ports := stagedPorts, children }, ?_, rfl, rfl,
        mirrorsTree_of_children ⟨hmirrorOperations, hmirrorProperties, hmirrorAttributes, hmirrorPorts,
          hmirrorChildren.imp fun _ _ => And.left⟩ hat fun child hmem => ?_⟩
      · by_cases hroot : servicePath = []
        · subst hroot
          simp only [stageRemoteService, hoperations, hproperties, hattributes, hports, hservices, hstagedOperations,
            hstagedProperties, hstagedAttributes, hstagedPorts, hchildren, bind, Except.bind, if_true,
            hrequired operations hreadOperations]
        · simp only [stageRemoteService, hoperations, hproperties, hattributes, hports, hservices, hstagedOperations,
            hstagedProperties, hstagedAttributes, hstagedPorts, hchildren, bind, Except.bind, if_neg hroot]
      · obtain ⟨record, -, -, -, -, htree⟩ := hmirrorChildren.stands child hmem
        exact htree

end Stage

/-! ## Publication and staging -/

/-- A first publication that succeeds stores the nodes of a snapshot without diagnostics. -/
theorem stored_of_published {native : Native} {fuel : Nat} {options : ObjectModelOptions} {m : ObjectModelImpl}
    {server : ServerSpace} {c : Component} {mode : PublicationMode} {selectors : List Str} {a : Attempt}
    {registry : TypeRegistry} (hregistry : options.typeRegistry = some registry)
    (hnew : m.components.find? c.name = none)
    (hok : (publishComponentInternal native fuel options m server c mode selectors a).1.2.ok = true) :
    (snapshotComponent c registry mode selectors).diagnostics = [] ∧
      ((publishComponentInternal native fuel options m server c mode selectors a).1.1.components.find? c.name).map
        PublishedComponent.nodes = some (snapshotComponent c registry mode selectors).nodes := by
  rcases publish_cases native fuel options m server c mode selectors a with ⟨hfailed, -⟩ | ⟨-, -, hmatch⟩ | ⟨-, p, hp⟩
  · rw [hok] at hfailed
    cases hfailed
  · obtain ⟨-, p, hp, -⟩ := hmatch
    rw [hnew] at hp
    cases hp
  · obtain ⟨registry', hregistry', -, hnodes, hdiagnostics⟩ := hp.snapshot
    obtain rfl := Option.some.inj (hregistry.symm.trans hregistry')
    have hcontains : m.components.contains c.name = false := by rw [OrdMap.contains, hnew, Option.isSome_none]
    rw [hp.components, OrdMap.find?_emplace, if_pos ⟨rfl, by simp [hcontains]⟩, Option.map_some, hnodes]
    exact ⟨hdiagnostics, rfl⟩

section Publish

variable (native : Native) (fuel : Nat) (options : ObjectModelOptions) (m : ObjectModelImpl) (server : ServerSpace)
  (c : Component) (mode : PublicationMode) (selectors : List Str) (a : Attempt) (registry client : TypeRegistry)
  (factories : TypeFactories) (store : RemoteStore)

/-- A first publication that succeeds, a server that returns what was written, and a client with the same types. Names
are not empty, and RTT's interfaces are as RTT makes them. -/
structure Mirroring : Prop where
  typeRegistry : options.typeRegistry = some registry
  new : m.components.find? c.name = none
  published : (publishComponentInternal native fuel options m server c mode selectors a).1.2.ok = true
  stored : ((publishComponentInternal native fuel options m server c mode selectors a).1.1.components.find?
    c.name).map PublishedComponent.nodes = some store.nodes
  names : ∀ record, Effective c mode selectors record → record.name ≠ []
  assignable : ∀ record, Effective c mode selectors record → record.kind = .property → ∀ property source,
    (c.service record.owner).getProperty record.name = some property → property.dataSource = some source →
    source.isAssignable = true
  returns : ∀ record, Effective c mode selectors record → record.kind = .operation → ∀ operation,
    (c.service record.owner).getOperation record.name = some operation → CollectsReturn registry operation
  types : SameTypes registry client
  build : factories.Build client

variable {native fuel options m server c mode selectors a registry client factories store}

/-- The server has the nodes of a snapshot without diagnostics. -/
theorem Mirroring.snapshot
    (h : Mirroring native fuel options m server c mode selectors a registry client factories store) :
    (snapshotComponent c registry mode selectors).diagnostics = [] ∧
      store.nodes = (snapshotComponent c registry mode selectors).nodes := by
  obtain ⟨hdiagnostics, hstored⟩ := stored_of_published h.typeRegistry h.new h.published
  exact ⟨hdiagnostics, Option.some.inj (h.stored.symm.trans hstored)⟩

/-- Staging succeeds and mirrors the publication exactly if all published operations can be built. -/
theorem Mirroring.staged_iff
    (h : Mirroring native fuel options m server c mode selectors a registry client factories store) :
    (∃ tree, stageComponent client factories store c.name = .ok tree ∧
        MirrorsTree c registry client mode selectors [] tree) ↔
      ∀ record, Effective c mode selectors record → record.kind = .operation → ∀ operation,
        (c.service record.owner).getOperation record.name = some operation → CollectsArguments registry operation := by
  obtain ⟨hdiagnostics, hstore⟩ := h.snapshot
  have hcomplete := complete_of_diagnostics hdiagnostics
  -- a published operation is supported
  have hsupported : ∀ record, Effective c mode selectors record → record.kind = .operation → ∀ operation,
      (c.service record.owner).getOperation record.name = some operation →
      (describe registry operation).supported = true := by
    intro record hr hkind operation hfound
    have hbundle := hr.bundle hcomplete
    rw [bundle, hkind] at hbundle
    obtain ⟨servicePath, -, howner⟩ := hr.service
    obtain ⟨operation', hfound', hsupported, -⟩ := operationBundle_eq_ok c.name servicePath hr.placed hkind howner hbundle
    obtain rfl := Option.some.inj (hfound.symm.trans hfound')
    exact hsupported
  constructor
  · rintro ⟨tree, -, htree⟩ record hr hkind operation hfound
    obtain ⟨servicePath, hat, howner⟩ := hr.service
    obtain ⟨staged, hstaged⟩ := (htree.services servicePath).2 hat
    have hcontents := (htree.contents servicePath staged hstaged).operations
    obtain ⟨item, hitem, hitemName⟩ := List.mem_map.1 (hcontents.all record ⟨hr, howner, hkind⟩ trivial)
    obtain ⟨record', hr', -, hname', operation', hfound', hdescription, hmake, -⟩ := hcontents.stands item hitem
    obtain rfl : record' = record := hr'.eq ⟨hr, howner, hkind⟩ (hname'.symm.trans hitemName)
    obtain rfl := Option.some.inj (hfound.symm.trans hfound')
    rw [hdescription] at hmake
    exact collectsArguments_of_make h.types.toAgrees (hsupported record' hr hkind operation hfound)
      (h.returns record' hr hkind operation hfound) hmake
  · intro hcollects
    have hmirrorable : ∀ record, Effective c mode selectors record → record.kind = .operation → ∀ operation,
        (c.service record.owner).getOperation record.name = some operation → Mirrorable registry operation :=
      fun record hr hkind operation hfound =>
        (mirrorable_iff (hsupported record hr hkind operation hfound) (h.returns record hr hkind operation hfound)).2
          (hcollects record hr hkind operation hfound)
    have hroot : store.nodes.find? (modelPath c.name [] []) = some (rootSpec c) := by
      rw [hstore]
      exact hcomplete.find?_iff.2 ⟨List.mem_cons_self, rfl⟩
    obtain ⟨tree, hok, -, -, htree⟩ := stageRemoteService_mirrors hcomplete hstore h.names h.assignable hmirrorable
      (fun _ => validateRequiredRootOperations_published hdiagnostics h.names) h.types h.build
      (kMaximumServiceDepth + 1) [] [] (rootSpec c).description .root rfl
    refine ⟨tree, ?_, htree⟩
    simp only [stageComponent, readServiceDescription, hroot, bind, Except.bind]
    exact hok

end Publish

end RttOpcua.Remote
