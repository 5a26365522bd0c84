import RttOpcua.Model.Plan

/-!
# Snapshots

`OperationDispatcher::describe` (`src/operation_dispatcher.cpp`), the node specifications and the bundles of
`src/object_model.cpp`, and `snapshotComponent`. What a specification's `create` adds to the address space
is its content here. Fingerprints are left out: nothing reads them.
-/

namespace RttOpcua.Model

open RttOpcua.Lib

/-! ## Operation schemas -/

/-- `opcua::Argument`. -/
structure Argument where
  name : Str
  description : Str
  dataType : Nat
  valueRank : Int
  deriving DecidableEq, Repr

structure OperationSchema where
  supported : Bool := false
  unsupportedTypeName : Str := []
  unsupportedReason : Str := []
  inputs : List Argument := []
  outputs : List Argument := []
  inputTypeNames : List Str := []
  outputTypeNames : List Str := []
  outputSources : List Int := []
  deriving DecidableEq, Repr

def isSpace (c : UInt8) : Bool := 9 ≤ c && c ≤ 13 || c == 32

def isMutableReference (type : Str) : Bool :=
  let type := (type.reverse.dropWhile isSpace).reverse
  if type.getLast? ≠ some 38 then false else !(lit "const ").isPrefixOf (type.dropWhile isSpace)

def argumentName (arguments : List ArgumentDescription) (index : Nat) : Str :=
  match arguments[index]? with
  | some a => if a.name ≠ [] then a.name else lit "argument" ++ lit (toString (index + 1))
  | none => lit "argument" ++ lit (toString (index + 1))

def argumentDescription (arguments : List ArgumentDescription) (index : Nat) : Str :=
  match arguments[index]? with
  | some a => a.description
  | none => []

section Describe

variable (registry : TypeRegistry)

def typeName (type : Option Nat) : Str := type.elim (lit "<unknown>") registry.getTypeName

def unsupportedSchema (type : Option Nat) (reason : Str) : OperationSchema where
  unsupportedTypeName := typeName registry type
  unsupportedReason := reason

/-- The reasons of `unsupportedValueSchema` and `unsupportedValueReason`. -/
def unsupportedValueReason (type : Option Nat) (codec : Option Codec) : Str :=
  if type = none then lit "has no RTT type information"
  else if codec = none then lit "has no registered OPC UA protocol"
  else lit "does not support OPC UA values"

def codecOf (type : Option Nat) : Option Codec := type.bind registry.codecForTypeInfo

/-- The type and the codec of a value, or why it is unsupported. -/
def valueCodec (type : Option Nat) : Except OperationSchema (Nat × Codec) :=
  match type, codecOf registry type with
  | some t, some codec =>
      if codec.hasValue then .ok (t, codec)
      else .error (unsupportedSchema registry type (unsupportedValueReason type (some codec)))
  | _, codec => .error (unsupportedSchema registry type (unsupportedValueReason type codec))

/-- An input or an output: the argument, the name of its type, and for an output its source. -/
structure Described where
  argument : Argument
  typeName : Str
  source : Int := 0
  deriving DecidableEq, Repr

/-- The loop over the inputs. -/
def describeInputs (arguments : List ArgumentDescription) :
    Nat → List (Option Nat) → Except OperationSchema (List Described)
  | _, [] => .ok []
  | index, type :: rest => do
      let (t, codec) ← valueCodec registry type
      let more ← describeInputs arguments (index + 1) rest
      .ok (⟨⟨argumentName arguments index, argumentDescription arguments index, codec.dataType, codec.valueRank⟩,
        registry.getTypeName t, 0⟩ :: more)

/-- The loop over the outputs; `result` while the return value is still to come, then the remaining mutable
arguments in order. -/
def describeOutputs (description : Str) (arguments : List ArgumentDescription) :
    Bool → List Nat → List (Option Nat) → Except OperationSchema (List Described)
  | _, _, [] => .ok []
  | result, mutableArguments, type :: rest => do
      let (t, codec) ← valueCodec registry type
      match result, mutableArguments with
      | true, _ =>
          let more ← describeOutputs description arguments false mutableArguments rest
          .ok (⟨⟨lit "result", description, codec.dataType, codec.valueRank⟩, registry.getTypeName t, -1⟩ :: more)
      | false, index :: mutableArguments =>
          let more ← describeOutputs description arguments false mutableArguments rest
          .ok (⟨⟨argumentName arguments index, argumentDescription arguments index, codec.dataType,
            codec.valueRank⟩, registry.getTypeName t, index⟩ :: more)
      | false, [] => .error (unsupportedSchema registry (some t) (lit "has unsupported mutable output metadata"))

/-- Whether the return value is an output. -/
def describeReturn (type : Option Nat) : Except OperationSchema Bool :=
  match type, codecOf registry type with
  | some t, some codec =>
      if codec.hasValue = false ∧ registry.getTypeName t ≠ lit "Void" then
        .error (unsupportedSchema registry type (unsupportedValueReason type (some codec)))
      else .ok codec.hasValue
  | _, codec => .error (unsupportedSchema registry type (unsupportedValueReason type codec))

/-- The indexes of the arguments whose type is spelled as a mutable reference. -/
def mutableArguments (arguments : List ArgumentDescription) : List Nat :=
  (List.range arguments.length).filter fun index =>
    isMutableReference ((arguments.map ArgumentDescription.type).getD index [])

def describe (operation : Operation) : OperationSchema :=
  match operation.argumentList with
  | none => unsupportedSchema registry none (lit "could not be described for OPC UA publication")
  | some arguments =>
      let schema : Except OperationSchema OperationSchema := do
        let inputs ← describeInputs registry arguments 0 operation.types
        let hasReturnValue ← describeReturn registry operation.returnType
        let outputs ← describeOutputs registry operation.description arguments hasReturnValue
          (mutableArguments arguments) operation.collect
        .ok { supported := true
              inputs := inputs.map Described.argument
              outputs := outputs.map Described.argument
              inputTypeNames := inputs.map Described.typeName
              outputTypeNames := outputs.map Described.typeName
              outputSources := outputs.map Described.source }
      match schema with
      | .ok schema => schema
      | .error schema => schema

end Describe

/-! ## Node specifications -/

inductive PortDirection where
  | input
  | output
  deriving DecidableEq, Repr

inductive NodeKind where
  | object
  | variable
  | method
  deriving DecidableEq, Repr

/-- What a node holds. -/
inductive NodeContent where
  | object
  | staticString (value : Str) (property : Bool)
  | portDirection (direction : PortDirection)
  | stringArray (values : List Str)
  | int32Array (values : List Int)
  | dataSource (source : DataSource) (codec : Codec) (writable : Bool)
  | inputPortValue (codec : Codec)
  | outputPortValue (codec : Codec)
  | method (schema : OperationSchema)
  deriving DecidableEq, Repr

def NodeContent.kind : NodeContent → NodeKind
  | .object => .object
  | .method _ => .method
  | _ => .variable

structure NodeSpec where
  path : Str
  parentPath : Str
  browseName : Str
  description : Str
  content : NodeContent
  deriving DecidableEq, Repr

abbrev NodeMap := OrdMap Str NodeSpec

namespace NodeSpec

def kind (spec : NodeSpec) : NodeKind := spec.content.kind

/-- The schema of a method. -/
def schema (spec : NodeSpec) : OperationSchema :=
  match spec.content with
  | .method schema => schema
  | _ => {}

def expectsInputArguments (spec : NodeSpec) : Bool := !spec.schema.inputs.isEmpty

def expectsOutputArguments (spec : NodeSpec) : Bool := !spec.schema.outputs.isEmpty

end NodeSpec

def objectSpec (path parentPath browseName description : Str) : NodeSpec :=
  ⟨path, parentPath, browseName, description, .object⟩

def staticStringSpec (path parentPath browseName description value : Str) (property : Bool) : NodeSpec :=
  ⟨path, parentPath, browseName, description, .staticString value property⟩

def portDirectionSpec (portPath : Str) (direction : PortDirection) : NodeSpec :=
  ⟨appendNodeSegment portPath (lit "direction"), portPath, lit "direction", lit "RTT port direction.",
    .portDirection direction⟩

/-- `staticArrayPropertySpec`, for strings and for integers. -/
def staticArrayPropertySpec (operationPath leaf description : Str) (content : NodeContent) : NodeSpec :=
  ⟨appendNodeSegment operationPath leaf, operationPath, leaf, description, content⟩

def dataSourceSpec (parentPath name description : Str) (source : DataSource) (codec : Codec) : NodeSpec :=
  ⟨appendNodeSegment parentPath name, parentPath, name, description, .dataSource source codec source.isAssignable⟩

def inputPortValueSpec (portPath : Str) (codec : Codec) : NodeSpec :=
  ⟨appendNodeSegment portPath (lit "value"), portPath, lit "value",
    lit "Write one sample to the RTT input port.", .inputPortValue codec⟩

def outputPortValueSpec (portPath : Str) (codec : Codec) : NodeSpec :=
  ⟨appendNodeSegment portPath (lit "value"), portPath, lit "value", lit "Current RTT output-port value.",
    .outputPortValue codec⟩

def operationSpec (parentPath name description : Str) (schema : OperationSchema) : NodeSpec :=
  ⟨appendNodeSegment parentPath name, parentPath, name, description, .method schema⟩

def insertNode (nodes : NodeMap) (spec : NodeSpec) : NodeMap := nodes.insertOrAssign spec.path spec

/-! ## Bundles -/

structure UnsupportedResource where
  component : Str
  path : Str
  kind : Str
  typeName : Str
  reason : Str
  deriving DecidableEq, Repr, Ord

/-- A bundle that fails leaves a diagnostic, and an entry for the unsupported resource. -/
structure BundleFailure where
  diagnostic : PublicationDiagnostic
  unsupported : Option UnsupportedResource
  deriving DecidableEq, Repr

abbrev Bundle := Except BundleFailure (List NodeSpec)

/-- `appendMappingFailure`. -/
def mappingFailure (record : ResourceRecord) (u : UnsupportedResource) : BundleFailure where
  diagnostic :=
    { kind := .unsupportedResource
      component := u.component
      resourcePath := record.path
      reason := u.kind ++ lit " uses RTT type '" ++ u.typeName ++ lit "' which " ++ u.reason }
  unsupported := some u

/-- `appendDiscoveryFailure`. -/
def discoveryFailure (component : Str) (record : ResourceRecord) (reason : Str) : BundleFailure :=
  mappingFailure record
    { component
      path := record.legacyPath
      kind := resourceKindName record.kind
      typeName := if record.kind = .service then lit "RTT::Service" else lit "<unknown>"
      reason }

/-- `appendMandatorySchemaFailure`. -/
def mandatorySchemaFailure (component : Str) (record : ResourceRecord) (reason : Str)
    (unsupported : Option UnsupportedResource) : BundleFailure :=
  ⟨{ kind := .mandatoryResource, component, resourcePath := record.path, reason }, unsupported⟩

/-- The output type that the mandatory operations of the root service must have. -/
def mandatoryOutputType (record : ResourceRecord) : Option Str :=
  if record.kind ≠ .operation ∨ record.ownerPath ≠ [] then none
  else (kMandatoryOperations.find? fun m => m.1 = record.name).map Prod.snd

/-- The schema that a mandatory operation must have. -/
def acceptsMandatory (schema : OperationSchema) (type : Str) : Bool :=
  schema.inputs.isEmpty && schema.inputTypeNames.isEmpty && schema.outputs.length == 1 &&
    schema.outputTypeNames == [type] && schema.outputSources == [-1]

section Bundles

variable (component : Str) (services : Nat → Service) (registry : TypeRegistry)

def ownerNodePath (record : ResourceRecord) : Str :=
  if record.ownerPath = [] then componentPath component
  else resourceNodePath (componentPath component) record.ownerPath

/-- `appendCategoryNode`. -/
def categorySpec (record : ResourceRecord) : NodeSpec :=
  objectSpec (appendNodeSegment (ownerNodePath component record) (resourceCategory record.kind))
    (ownerNodePath component record) (categoryBrowseName record.kind) (services record.owner).doc

def categoryNodePath (record : ResourceRecord) : Str :=
  resourceNodePath (componentPath component)
    (if record.ownerPath = [] then resourceCategory record.kind
      else record.ownerPath ++ slash :: resourceCategory record.kind)

def recordNodePath (record : ResourceRecord) : Str := resourceNodePath (componentPath component) record.path

/-- The metadata of an operation; empty lists have no node. -/
def operationMetadata (operationPath : Str) (schema : OperationSchema) : List NodeSpec :=
  (if schema.inputTypeNames = [] then [] else
    [staticArrayPropertySpec operationPath (lit "rttInputTypes") (lit "Canonical RTT input argument types.")
      (.stringArray schema.inputTypeNames)]) ++
  (if schema.outputTypeNames = [] then [] else
    [staticArrayPropertySpec operationPath (lit "rttOutputTypes") (lit "Canonical RTT output argument types.")
      (.stringArray schema.outputTypeNames),
     staticArrayPropertySpec operationPath (lit "rttOutputSources")
      (lit "Return value (-1) or mutable input index for each output.") (.int32Array schema.outputSources)])

def operationBundle (record : ResourceRecord) : Bundle :=
  let mandatory := mandatoryOutputType record
  let unavailable (reason : Str) : BundleFailure :=
    if mandatory.isSome then
      mandatorySchemaFailure component record (lit "mandatory RTT proxy operation is unavailable") none
    else discoveryFailure component record reason
  if record.discoveryError ≠ [] then .error (unavailable record.discoveryError)
  else
    match (services record.owner).getOperation record.name with
    | none => .error (unavailable (lit "RTT operation became unavailable during mapping"))
    | some operation =>
        let schema := describe registry operation
        if schema.supported = false then
          let u : UnsupportedResource :=
            { component
              path := record.legacyPath
              kind := lit "operation"
              typeName := if schema.unsupportedTypeName = [] then lit "<unknown>" else schema.unsupportedTypeName
              reason :=
                if schema.unsupportedReason = [] then lit "is not supported by OPC UA" else schema.unsupportedReason }
          if mandatory.isSome then
            .error (mandatorySchemaFailure component record
              (lit "mandatory RTT proxy operation has an unsupported schema") (some u))
          else .error (mappingFailure record u)
        else if mandatory.any (fun type => !acceptsMandatory schema type) then
          .error (mandatorySchemaFailure component record
            (lit "mandatory RTT proxy operation has an incompatible input/output schema") none)
        else
          .ok (categorySpec component services record ::
            operationMetadata (recordNodePath component record) schema ++
            [operationSpec (categoryNodePath component record) record.name operation.description schema])

/-- `appendUnsupported` for a value of unsupported type. -/
def unsupportedValue (record : ResourceRecord) (kind : Str) (type : Option Nat) : BundleFailure :=
  mappingFailure record
    { component
      path := record.legacyPath
      kind
      typeName := typeName registry type
      reason := unsupportedValueReason type (codecOf registry type) }

/-- `appendConfigurationBundle`, from the data source and the description of a property or an attribute. -/
def configurationBundle (record : ResourceRecord) (found : Option (Option DataSource × Str)) : Bundle :=
  if record.discoveryError ≠ [] then .error (discoveryFailure component record record.discoveryError)
  else
    match found with
    | none =>
        .error (discoveryFailure component record
          (lit "RTT " ++ resourceKindName record.kind ++ lit " became unavailable during mapping"))
    | some (source, description) =>
        match source, (source.bind DataSource.typeInfo), codecOf registry (source.bind DataSource.typeInfo) with
        | some source, some type, some codec =>
            if codec.hasValue then
              .ok [categorySpec component services record,
                dataSourceSpec (categoryNodePath component record) record.name description source codec,
                staticStringSpec (appendNodeSegment (recordNodePath component record) (lit "rttType"))
                  (recordNodePath component record) (lit "rttType") (lit "Canonical RTT value type.")
                  (registry.getTypeName type) true]
            else .error (unsupportedValue component registry record (resourceKindName record.kind) (some type))
        | source, _, _ =>
            .error (unsupportedValue component registry record (resourceKindName record.kind)
              (source.bind DataSource.typeInfo))

def propertyBundle (record : ResourceRecord) : Bundle :=
  configurationBundle component services registry record
    (((services record.owner).getProperty record.name).map fun p => (p.dataSource, p.description))

def attributeBundle (record : ResourceRecord) : Bundle :=
  configurationBundle component services registry record
    (((services record.owner).getValue record.name).map fun p => (p.dataSource, []))

/-- The value node: every input port has one, and an output port that keeps its last written value. -/
def portValueSpecs (port : Port) (portPath : Str) (codec : Codec) : List NodeSpec :=
  if port.isInput then [inputPortValueSpec portPath codec]
  else if port.keepsLastWrittenValue then [outputPortValueSpec portPath codec]
  else []

def portBundle (record : ResourceRecord) : Bundle :=
  if record.discoveryError ≠ [] then .error (discoveryFailure component record record.discoveryError)
  else
    match (services record.owner).getPort record.name with
    | none => .error (discoveryFailure component record (lit "RTT port became unavailable during mapping"))
    | some port =>
        if port.isInput = port.isOutput then
          .error (mappingFailure record
            { component
              path := record.legacyPath
              kind := lit "port"
              typeName := typeName registry port.typeInfo
              reason :=
                if port.isInput then lit "matches both RTT input and output interfaces"
                else lit "matches neither RTT input nor output interface" })
        else
          let unsupported : BundleFailure :=
            unsupportedValue component registry record
              (if port.isInput then lit "input port" else lit "output port") port.typeInfo
          match port.typeInfo, codecOf registry port.typeInfo with
          | some type, some codec =>
              if codec.hasValue then
                let portPath := recordNodePath component record
                .ok ([categorySpec component services record,
                  objectSpec portPath (categoryNodePath component record) record.name port.description,
                  staticStringSpec (appendNodeSegment portPath (lit "type")) portPath (lit "type")
                    (lit "Canonical RTT port type.") (registry.getTypeName type) false,
                  portDirectionSpec portPath (if port.isInput then .input else .output),
                  staticStringSpec (appendNodeSegment portPath (lit "description")) portPath (lit "description")
                    (lit "RTT port description.") port.description false] ++
                  portValueSpecs port portPath codec)
              else .error unsupported
          | _, _ => .error unsupported

def serviceBundle (record : ResourceRecord) : Bundle :=
  if record.discoveryError ≠ [] then .error (discoveryFailure component record record.discoveryError)
  else
    match record.service with
    | none => .error (discoveryFailure component record (lit "RTT service became unavailable during mapping"))
    | some service =>
        .ok [categorySpec component services record,
          objectSpec (recordNodePath component record) (categoryNodePath component record) record.name
            (services service).doc]

def bundle (record : ResourceRecord) : Bundle :=
  match record.kind with
  | .operation => operationBundle component services registry record
  | .property => propertyBundle component services registry record
  | .attribute => attributeBundle component services registry record
  | .port => portBundle component services registry record
  | .service => serviceBundle component services record

end Bundles

/-! ## `snapshotComponent` -/

structure ComponentSnapshot where
  nodes : NodeMap
  effectiveResources : OrdSet Str
  unsupported : List UnsupportedResource := []
  diagnostics : List PublicationDiagnostic

/-- A failed bundle adds its diagnostic, the others add their nodes. -/
def appendBundle (snapshot : ComponentSnapshot) : Bundle → ComponentSnapshot
  | .ok specs => { snapshot with nodes := specs.foldl insertNode snapshot.nodes }
  | .error failure =>
      { snapshot with
        diagnostics := snapshot.diagnostics ++ [failure.diagnostic]
        unsupported := snapshot.unsupported ++ failure.unsupported.toList }

def appendResource (c : Component) (registry : TypeRegistry) (inventory : ComponentInventory)
    (snapshot : ComponentSnapshot) (path : Str) : ComponentSnapshot :=
  match inventory.resources.find? path with
  | some record => appendBundle snapshot (bundle c.name c.service registry record)
  | none => snapshot

/-- `provides()` never is null; the root's doc is read without a test. -/
def rootSpec (c : Component) : NodeSpec :=
  objectSpec (componentPath c.name) componentsPath c.name (c.root.elim [] fun root => (c.service root).doc)

def snapshotComponent (c : Component) (registry : TypeRegistry) (mode : PublicationMode) (selectors : List Str) :
    ComponentSnapshot :=
  let inventory := discoverComponent c
  let plan := buildPublicationPlan mode inventory c.name selectors
  let snapshot := plan.effectiveResources.keys.foldl (appendResource c registry inventory)
    { nodes := insertNode ∅ (rootSpec c)
      effectiveResources := plan.effectiveResources
      diagnostics := plan.diagnostics }
  { snapshot with
    unsupported := sortUnique snapshot.unsupported
    diagnostics := sortUnique snapshot.diagnostics }

end RttOpcua.Model
