import RttOpcua.Remote.Lemmas.Call
import RttOpcua.Remote.Lemmas.Mirror

/-!
# Remote operations
-/

namespace RttOpcua.Remote

open RttOpcua.Lib RttOpcua.Model RttOpcua.Values

/-! ## Paths -/

/-- The server grows the path of a node from owner to owner and never escapes again what it has; the client escapes all
names at once. Both have the same paths for a service, a category, a resource and its metadata. -/
theorem server_path_eq_modelPath (component : Str) (servicePath : List Str) (kind : ResourceKind) (name leaf : Str) :
    (if ownerPath servicePath = [] then componentPath component
      else resourceNodePath (componentPath component) (ownerPath servicePath)) = modelPath component servicePath [] ∧
    resourceNodePath (componentPath component)
        (if ownerPath servicePath = [] then resourceCategory kind
          else ownerPath servicePath ++ slash :: resourceCategory kind) =
      modelPath component servicePath [resourceCategory kind] ∧
    resourceNodePath (componentPath component) (resourcePath (ownerPath servicePath) kind name) =
      modelPath component servicePath [resourceCategory kind, name] ∧
    appendNodeSegment (resourceNodePath (componentPath component) (resourcePath (ownerPath servicePath) kind name)) leaf =
      modelPath component servicePath [resourceCategory kind, name, leaf] := by
  let record : ResourceRecord :=
    { kind, path := resourcePath (ownerPath servicePath) kind name, ownerPath := ownerPath servicePath, legacyPath := [],
      name, owner := 0, discoveryError := [] }
  have hplaced : Placed record := rfl
  have howner : ownerNodePath component record = modelPath component servicePath [] :=
    ownerNodePath_eq component servicePath rfl
  have hcategory : categoryNodePath component record = modelPath component servicePath [resourceCategory kind] :=
    categoryNodePath_eq_modelPath rfl
  exact ⟨howner, hcategory, recordNodePath_eq_modelPath hplaced rfl, leafPath_eq_modelPath hplaced rfl leaf⟩

/-! ## Mirrored schemas -/

/-- Publishing an operation and mirroring it, any number of times, keeps its signature and its schema, and each
publication is accepted by the next client. -/
theorem mirroring_preserves_schema (registry : TypeRegistry) (operation : Operation)
    (h : Mirrorable registry operation) (stage : TypeRegistry × Operation)
    (hstage : Relation.ReflTransGen Republishes (registry, operation) stage) :
    (describe stage.1 stage.2).supported = true ∧ describe stage.1 stage.2 = describe registry operation ∧
      ∀ (p : Publication stage.1 stage.2) (client : TypeRegistry), Agrees stage.1 client →
        ∃ remote, p.mirror client = some (.ok remote) ∧ Mirrors registry client operation remote := by
  obtain ⟨hstageMirrorable, hsame⟩ := h.republished hstage
  refine ⟨hstageMirrorable.supported, hsame.schema, fun p client hclient => ?_⟩
  obtain ⟨remote, hmirror, hmirrors, -⟩ := hstageMirrorable.mirror p hclient
  refine ⟨remote, hmirror, hsame.trans hmirrors.signature, ?_⟩
  rw [← hsame.schema]
  exact hmirrors.mutableArguments

/-- The types `Bool` and `Double`, and `Void` without values. -/
def sampleTypes : TypeRegistry where
  getTypeName type := if type = 0 then lit "Bool" else if type = 1 then lit "Double" else lit "Void"
  type name :=
    if name = lit "Bool" then some 0 else if name = lit "Double" then some 1
    else if name = lit "Void" then some 2 else none
  codecForTypeInfo type := if type < 3 then some ⟨type < 2, type + 1, -1⟩ else none
  codecForTypeName _ := none

/-- `void f(Double, Bool &)`, with an argument that has no name. -/
def sampleOperation : Operation where
  description := lit "sample"
  argumentList := some [⟨[], [], lit "Double"⟩, ⟨lit "done", lit "whether it is done", lit "Bool &"⟩]
  returnType := some 2
  types := [some 1, some 0]
  collect := [some 0]

def sampleService : Service := { operationNames := [lit "f"], getOperation := fun _ => some sampleOperation }

def sampleRecord : ResourceRecord :=
  { kind := .operation, path := resourcePath [] .operation (lit "f"), ownerPath := [], legacyPath := lit "f",
    name := lit "f", owner := 0, discoveryError := [] }

theorem sampleOperation_mirrorable : Mirrorable sampleTypes sampleOperation where
  supported := by decide +kernel
  outputTypes k source name := by
    have hsources : (describe sampleTypes sampleOperation).outputSources = [1] := by decide +kernel
    have houtputs : (describe sampleTypes sampleOperation).outputTypeNames = [lit "Bool"] := by decide +kernel
    have hinputs : (describe sampleTypes sampleOperation).inputTypeNames = [lit "Double", lit "Bool"] := by
      decide +kernel
    rw [hsources, houtputs, hinputs]
    intro hsource _ hname
    cases k with
    | zero =>
        cases hsource
        cases hname
        rfl
    | succ k => cases hsource
  returns t codec ht hcodec hvalue := by
    cases ht
    cases hcodec
    cases hvalue

theorem sampleTypes_agrees : Agrees sampleTypes sampleTypes := by
  have hcodec : ∀ t codec, sampleTypes.codecForTypeInfo t = some codec → t = 0 ∨ t = 1 ∨ t = 2 := by
    intro t codec h
    simp only [sampleTypes] at h
    split at h
    · omega
    · cases h
  refine ⟨fun t codec h => ⟨t, codec, h, h, ?_, rfl⟩, fun t codec h => ?_⟩
  · obtain rfl | rfl | rfl := hcodec t codec h
    all_goals decide
  · obtain rfl | rfl | rfl := hcodec t codec h
    all_goals exact ⟨by decide, fun c hc => by cases hc; decide, fun c hc => by cases hc; decide, by decide⟩

theorem mirroring_preserves_schema_void : ∃ (p : Publication sampleTypes sampleOperation) (remote : RemoteOperation),
    p.mirror sampleTypes = some (.ok remote) ∧ Mirrors sampleTypes sampleTypes sampleOperation remote := by
  obtain ⟨specs, hspecs⟩ : ∃ specs, operationBundle (lit "component") (fun _ => sampleService) sampleTypes sampleRecord =
      .ok specs := operationBundle_isOk _ rfl rfl sampleOperation_mirrorable.supported (by decide)
  let p : Publication sampleTypes sampleOperation :=
    { component := lit "component", services := fun _ => sampleService, record := sampleRecord, servicePath := [], specs
      placed := rfl, kind := rfl, owner := rfl, found := rfl, bundle := hspecs }
  obtain ⟨-, -, hmirror⟩ := mirroring_preserves_schema sampleTypes sampleOperation sampleOperation_mirrorable
    (sampleTypes, sampleOperation) .refl
  obtain ⟨remote, hremote⟩ := hmirror p sampleTypes sampleTypes_agrees
  exact ⟨p, remote, hremote⟩

/-! ## Results of calls -/

/-- A result is applied alike by a call and by a collect: they report success together, they set the same values in their
destinations, and these are the values of the outputs before the first one that does not decode. What a collect has
reported stays, and nothing more is set. -/
theorem results_applied_alike {V X : Type} (registry : ValueRegistry V X) (description : RemoteOperationDescription)
    (operation : RemoteOperation)
    (hmake : RemoteOperation.make (some registry.toTypeRegistry) description = .ok operation)
    (arguments : List (Option Source)) (slot : Nat) (action : RemoteCallAction X)
    (haction : RemoteOperation.produce registry operation arguments slot = .ok action) (result : RemoteCallResult X)
    (destinations : List (Option Source)) (collect : RemoteCollectDataSource X)
    (hcollect : RemoteOperation.produceCollect registry operation (.ok (some (.returned (some result)))) destinations =
      .ok collect) (before memory : Memory V)
    (hprepared : (action.readArguments registry before).prepared.isSome = true) (asks : List (Bool × Bool))
    (hwaits : ∃ ask ∈ asks, ask.1 = true ∨ ask.2 = true) :
    let called := (action.readArguments registry before).execute registry result memory
    let collected := collect.gets registry asks memory
    let targets := description.outputSources.map (callDestination arguments action.returnValue)
    let values := decoded registry operation result
    -- both report the same
    ((called.2 = true ↔ collected.1.status = .SendSuccess) ∧
      (called.2 = false ↔ collected.1.status = .SendFailure)) ∧
    -- both set the same values, and store them where the destinations take what is set
    (memory.Stores (targets.zip values) called.1 ∧ memory.Stores (destinations.zip values) collected.2 ∧
      ∀ (k : Nat) (v : V), values[k]? = some v → ∃ name type x,
        (outputsOf operation result)[k]? = some (name, type, x) ∧ decodeOutput registry name type x = some v) ∧
    -- one for every output on success
    (called.2 = true → values.length = result.outputs.length ∧ values.length = operation.outputTypes.length ∧
      (∀ target ∈ targets, target.isSome = true) ∧ ∀ destination ∈ destinations, destination.isSome = true) ∧
    -- up to the first that does not decode on failure
    (called.2 = false → (¬ Accepted operation result ∧ values = []) ∨ ∃ name type x,
      (outputsOf operation result)[values.length]? = some (name, type, x) ∧
        decodeOutput registry name type x = none) ∧
    -- and nothing afterwards
    ∀ (other : RemoteCollectDataSource X) (m : Memory V) (first more : List (Bool × Bool)),
      (other.gets registry first m).1.status = .SendSuccess ∨ (other.gets registry first m).1.status = .SendFailure →
      other.gets registry (first ++ more) m = other.gets registry first m := by
  intro called collected targets values
  have hconstruct : RemoteOperation.construct registry.toTypeRegistry description = .ok operation := hmake
  obtain ⟨-, -, -, -, htargets⟩ := RemoteOperation.produce_eq_ok hconstruct haction
  obtain ⟨invocation, hinvocation, hcollected, hdestinations⟩ :=
    RemoteOperation.produceCollect_eq_ok hconstruct hcollect
  cases hinvocation
  have hexecute : called = (memory.setAll (targets.zip values), decide (Decodes registry operation result)) :=
    execute_eq hconstruct haction hprepared
  have hgets : collected =
      ({ collect with status := if Decodes registry operation result then .SendSuccess else .SendFailure },
        memory.setAll (destinations.zip values)) := by
    simp only [collected]
    rw [hcollected]
    exact gets_eq hconstruct hdestinations memory asks hwaits
  have hsuccess : called.2 = true ↔ Decodes registry operation result := by simp [hexecute]
  have hfailure : called.2 = false ↔ ¬ Decodes registry operation result := by simp [hexecute]
  refine ⟨⟨?_, ?_⟩, ⟨?_, ?_, ?_⟩, fun hcall => ?_, fun hcall => ?_, ?_⟩
  · rw [hsuccess, hgets]
    by_cases h : Decodes registry operation result
    all_goals simp [h]
  · rw [hfailure, hgets]
    by_cases h : Decodes registry operation result
    all_goals simp [h]
  · rw [hexecute]
    exact memory.stores_setAll _
  · rw [hgets]
    exact memory.stores_setAll _
  · intro k v hk
    exact decoded_getElem? hk
  · have hdecodes := hsuccess.1 hcall
    have ⟨haccepted, hall⟩ := hdecodes
    exact ⟨hall.trans haccepted.2.symm, hall, isSome_of_decodes htargets hdecodes,
      isSome_of_decodes hdestinations hdecodes⟩
  · exact decoded_failure hconstruct (hfailure.1 hcall)
  · intro other m first more hfinal
    rw [gets_append, gets_of_final hfinal]

/-- Values of `bool` and `int`. -/
abbrev SampleValue : Type := Bool ⊕ Int

instance : Native SampleValue Bool where
  put := .inl
  get := Sum.getLeft?
  get_put _ := rfl
  dataType := 1

instance : Native SampleValue Int where
  put := .inr
  get := Sum.getRight?
  get_put _ := rfl
  dataType := 6

def sampleCodec (type : Nat) : Option (TypeCodec SampleValue (Variant SampleValue)) :=
  match type with
  | 0 => some (ScalarTypeCodec (ScalarType.plain Bool) 0 1)
  | 1 => some (ScalarTypeCodec (ScalarType.plain Int) 1 6)
  | _ => none

def sampleTypeName : Nat → Str
  | 0 => lit "Bool"
  | 1 => lit "Int32"
  | n + 2 => lit "Void" ++ List.replicate n 39

def sampleType (name : Str) : Option Nat :=
  if name = lit "Bool" then some 0 else if name = lit "Int32" then some 1 else none

theorem sampleTypeName_inj (t u : Nat) (h : sampleTypeName t = sampleTypeName u) : t = u := by
  have hne : ∀ n, sampleTypeName 0 ≠ sampleTypeName (n + 2) ∧ sampleTypeName 1 ≠ sampleTypeName (n + 2) := by
    intro n
    have hhead : (sampleTypeName (n + 2)).head? = some 86 := rfl
    constructor
    all_goals
      intro heq
      rw [← heq] at hhead
      exact absurd hhead (by decide)
  match t, u with
  | 0, 0 => rfl
  | 1, 1 => rfl
  | 0, 1 => exact absurd h (by decide)
  | 1, 0 => exact absurd h (by decide)
  | 0, n + 2 => exact absurd h (hne n).1
  | 1, n + 2 => exact absurd h (hne n).2
  | n + 2, 0 => exact absurd h.symm (hne n).1
  | n + 2, 1 => exact absurd h.symm (hne n).2
  | n + 2, m + 2 =>
      have hlength := congrArg List.length h
      simp only [sampleTypeName, List.length_append, List.length_replicate] at hlength
      omega

theorem sampleCodec_name {name : Str} {codec : TypeCodec SampleValue (Variant SampleValue)}
    (h : (sampleType name).bind sampleCodec = some codec) : sampleTypeName codec.typeInfo ≠ lit "Void" := by
  obtain ⟨t, -, ht⟩ := Option.bind_eq_some_iff.1 h
  match t with
  | 0 => cases ht; decide
  | 1 => cases ht; decide
  | _ + 2 => cases ht

def sampleRegistry : ValueRegistry SampleValue (Variant SampleValue) where
  getTypeName := sampleTypeName
  type := sampleType
  buildValue _ := true
  buildActionAlias _ := true
  codecForTypeInfo := sampleCodec
  codecForTypeName name := (sampleType name).bind sampleCodec
  getTypeName_inj := sampleTypeName_inj
  void _ _ h hvoid := absurd hvoid (sampleCodec_name h)

/-- `bool f(int &)`. -/
def sampleDescription : RemoteOperationDescription where
  name := lit "f"
  description := []
  inputTypes := [lit "Int32"]
  inputNames := [lit "x"]
  inputDescriptions := [[]]
  outputTypes := [lit "Bool", lit "Int32"]
  outputSources := [-1, 0]

/-- The operation of the sample. -/
def sampleRemote : RemoteOperation where
  description := sampleDescription
  inputTypes := [1]
  outputTypes := [0, 1]
  returnType := 0
  mutableArguments := OrdSet.insertAll ∅ [0]
  arguments := [⟨lit "x", [], lit "Int32 &"⟩]

/-- An `int` and a `bool`, and what they hold. -/
def sampleInt : Source := ⟨0, 1, true⟩

def sampleBool : Source := ⟨1, 0, true⟩

def sampleMemory : Memory SampleValue where
  value id := if id = 0 then .inr 7 else .inl false

def sampleAction : RemoteCallAction (Variant SampleValue) where
  arguments := [some sampleInt]
  outputTypes := sampleDescription.outputTypes
  outputSources := sampleDescription.outputSources
  returnValue := some ⟨2, 0, true⟩

def sampleCollect (result : RemoteCallResult (Variant SampleValue)) :
    RemoteCollectDataSource (Variant SampleValue) where
  invocation := some (.returned (some result))
  destinations := [some sampleBool, some sampleInt]
  outputTypes := sampleDescription.outputTypes

/-- A result with an output for the `bool`, and `second` for the `int`. -/
def sampleResult (second : Variant SampleValue) : RemoteCallResult (Variant SampleValue) where
  success := true
  outputs := [.of true, second]

theorem sample_made : RemoteOperation.make (some sampleRegistry.toTypeRegistry) sampleDescription = .ok sampleRemote ∧
    RemoteOperation.produce sampleRegistry sampleRemote [some sampleInt] 2 = .ok sampleAction ∧
    (sampleAction.readArguments sampleRegistry sampleMemory).prepared.isSome = true := by
  refine ⟨?_, ?_, ?_⟩
  · rfl
  · rfl
  · decide +kernel

theorem results_applied_alike_success :
    let called := (sampleAction.readArguments sampleRegistry sampleMemory).execute sampleRegistry
      (sampleResult (.of (5 : Int))) sampleMemory
    let collected := (sampleCollect (sampleResult (.of (5 : Int)))).gets sampleRegistry [(false, false), (true, false)]
      sampleMemory
    called.2 = true ∧ collected.1.status = .SendSuccess ∧
      called.1.assigned = [(2, .inl true), (0, .inr 5)] ∧ collected.2.assigned = [(1, .inl true), (0, .inr 5)] := by
  intro called collected
  obtain ⟨hmake, haction, hprepared⟩ := sample_made
  obtain ⟨⟨hreport, -⟩, -⟩ := results_applied_alike sampleRegistry sampleDescription sampleRemote hmake [some sampleInt] 2
    sampleAction haction (sampleResult (.of (5 : Int))) [some sampleBool, some sampleInt]
    (sampleCollect (sampleResult (.of (5 : Int)))) rfl sampleMemory sampleMemory hprepared
    [(false, false), (true, false)] ⟨_, List.mem_cons_of_mem _ List.mem_cons_self, .inl rfl⟩
  have hcalled : called.2 = true := by decide +kernel
  exact ⟨hcalled, hreport.1 hcalled, by decide +kernel, by decide +kernel⟩

/-- The second output has the wrong type: the call and the collect fail, and the first is already stored. -/
theorem failed_result_applied_in_part :
    RemoteOperation.make (some sampleRegistry.toTypeRegistry) sampleDescription = .ok sampleRemote ∧
      RemoteOperation.produce sampleRegistry sampleRemote [some sampleInt] 2 = .ok sampleAction ∧
      RemoteOperation.produceCollect sampleRegistry sampleRemote
        (.ok (some (.returned (some (sampleResult (.of false)))))) [some sampleBool, some sampleInt] =
          .ok (sampleCollect (sampleResult (.of false))) ∧
      ((sampleAction.readArguments sampleRegistry sampleMemory).execute sampleRegistry (sampleResult (.of false))
        sampleMemory).2 = false ∧
      ((sampleAction.readArguments sampleRegistry sampleMemory).execute sampleRegistry (sampleResult (.of false))
        sampleMemory).1.assigned = [(2, .inl true)] ∧
      ((sampleCollect (sampleResult (.of false))).get sampleRegistry true true sampleMemory).1.status = .SendFailure ∧
      sampleMemory.value sampleBool.id = .inl false ∧
      ((sampleCollect (sampleResult (.of false))).get sampleRegistry true true sampleMemory).2.value sampleBool.id =
        .inl true :=
  ⟨sample_made.1, sample_made.2.1, rfl, by decide +kernel, by decide +kernel, by decide +kernel, by decide +kernel,
    by decide +kernel⟩

end RttOpcua.Remote
