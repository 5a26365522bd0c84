import RttOpcua.Basic
import RttOpcua.Lib.Kahn

/-!
# The datatype registry

`registerDataTypeProvider` and `freezeDataTypeRegistry` (`src/datatype_registry.cpp`). Each call holds the mutex of
the registry from its first to its last access, so a run is a sequence of calls.

`F` stands for the `std::function`s that materialize datatypes: the registry only looks at whether there is one.
-/

namespace RttOpcua.Types

open RttOpcua.Lib

/-! ## Providers -/

structure LogicalDataTypeId where
  namespaceUri : Str
  typeNodeId : Str
  binaryEncodingNodeId : Str
  deriving DecidableEq, Repr

/-- `structure` is a keyword. -/
inductive CustomDataTypeKind where
  | struct
  | enumeration
  | unionType
  deriving DecidableEq, Repr

structure CustomDataTypeDefinition (F : Type) where
  name : Str
  id : LogicalDataTypeId
  kind : CustomDataTypeKind := .struct
  schemaFingerprint : Str
  materialize : Option F

structure DataTypeProvider (F : Type) where
  name : Str
  namespaceUri : Str
  dependencies : List Str
  dataTypes : List (CustomDataTypeDefinition F)

structure RegistryState (F : Type) where
  providers : OrdMap Str (DataTypeProvider F) := ∅
  providerOrder : List Str := []
  frozen : Bool := false

variable {F : Type}

/-! ## Registration -/

def containsNul (value : Str) : Bool := value.contains 0

def validText (value : Str) : Bool := !value.isEmpty && !containsNul value

def sameDefinition (lhs rhs : CustomDataTypeDefinition F) : Bool :=
  lhs.name = rhs.name && lhs.id = rhs.id && lhs.kind = rhs.kind && lhs.schemaFingerprint = rhs.schemaFingerprint &&
    lhs.materialize.isSome = rhs.materialize.isSome

def sameProvider (lhs rhs : DataTypeProvider F) : Bool :=
  lhs.name = rhs.name && lhs.namespaceUri = rhs.namespaceUri && lhs.dependencies = rhs.dependencies &&
    lhs.dataTypes.length = rhs.dataTypes.length &&
    (lhs.dataTypes.zip rhs.dataTypes).all fun d => sameDefinition d.1 d.2

/-- `std::sort` of texts. -/
def sort (texts : List Str) : List Str := texts.mergeSort fun a b => (compare a b).isLE

/-- `std::adjacent_find`: two neighbours are equal. -/
def adjacentFind : List Str → Bool
  | a :: b :: rest => a = b || adjacentFind (b :: rest)
  | _ => false

/-- The two `LogicalNodeId`s of a definition. -/
def CustomDataTypeDefinition.nodeIds (d : CustomDataTypeDefinition F) : List (Str × Str) :=
  [(d.id.namespaceUri, d.id.typeNodeId), (d.id.namespaceUri, d.id.binaryEncodingNodeId)]

def DataTypeProvider.nodeIds (p : DataTypeProvider F) : List (Str × Str) :=
  p.dataTypes.flatMap CustomDataTypeDefinition.nodeIds

/-- `occupied` of `validateAndNormalize`, as a list. -/
def RegistryState.occupied (s : RegistryState F) : List (Str × Str) :=
  s.providers.entries.flatMap fun e => e.2.nodeIds

/-- The loop over the definitions: the first error. -/
def validateDefinitions (provider : DataTypeProvider F) :
    List (CustomDataTypeDefinition F) → List (Str × Str) → Option Str
  | [], _ => none
  | d :: rest, occupied =>
      if !validText d.name || !validText d.schemaFingerprint || !validText d.id.namespaceUri ||
          !validText d.id.typeNodeId || !validText d.id.binaryEncodingNodeId || d.materialize.isNone then
        some (lit "invalid OPC UA datatype provider: invalid datatype definition in '" ++ provider.name ++ lit "'")
      else if d.id.namespaceUri ≠ provider.namespaceUri then
        some (lit "invalid OPC UA datatype provider: datatype namespace does not match provider '" ++ provider.name ++
          lit "'")
      else
        let typeId := (d.id.namespaceUri, d.id.typeNodeId)
        let encodingId := (d.id.namespaceUri, d.id.binaryEncodingNodeId)
        if typeId = encodingId ∨ typeId ∈ occupied ∨ encodingId ∈ typeId :: occupied then
          some (lit "conflicting OPC UA datatype provider: NodeId collision in '" ++ provider.name ++ lit "'")
        else validateDefinitions provider rest (encodingId :: typeId :: occupied)

/-- The provider with its dependencies sorted, or an error. -/
def validateAndNormalize (provider : DataTypeProvider F) (s : RegistryState F) : Except Str (DataTypeProvider F) :=
  if !validText provider.name || !validText provider.namespaceUri || provider.dataTypes.isEmpty then
    .error (lit "invalid OPC UA datatype provider: name, namespace URI, and datatype list must be nonempty")
  else if provider.dependencies.any fun d => !validText d || d = provider.name then
    .error (lit "invalid OPC UA datatype provider: invalid dependency for '" ++ provider.name ++ lit "'")
  else
    let provider := { provider with dependencies := sort provider.dependencies }
    if adjacentFind provider.dependencies then
      .error (lit "invalid OPC UA datatype provider: duplicate dependency for '" ++ provider.name ++ lit "'")
    else
      match validateDefinitions provider provider.dataTypes s.occupied with
      | some message => .error message
      | none => .ok provider

/-- What comes after the test whether the provider is known already. -/
def registerNew (s : RegistryState F) (provider : DataTypeProvider F) : RegistryState F × Except Str Unit :=
  if s.frozen then
    (s, .error (lit "late OPC UA datatype provider registration: '" ++ provider.name ++ lit "'"))
  else if s.providers.contains provider.name then
    (s, .error (lit "conflicting OPC UA datatype provider: '" ++ provider.name ++ lit "'"))
  else
    match validateAndNormalize provider s with
    | .error message => (s, .error message)
    | .ok provider => ({ s with providers := s.providers.emplace provider.name provider }, .ok ())

def registerDataTypeProvider (s : RegistryState F) (provider : DataTypeProvider F) :
    RegistryState F × Except Str Unit :=
  let provider := { provider with dependencies := sort provider.dependencies }
  match s.providers.find? provider.name with
  | some existing => if sameProvider existing provider then (s, .ok ()) else registerNew s provider
  | none => registerNew s provider

/-! ## The freeze -/

/-- The dependencies of each provider. -/
def RegistryState.graph (s : RegistryState F) : OrdMap Str (List Str) := s.providers.map DataTypeProvider.dependencies

/-- The first provider with a dependency that is not registered. -/
def RegistryState.missing (s : RegistryState F) : Option (Str × Str) :=
  s.providers.entries.findSome? fun e =>
    (e.2.dependencies.find? fun d => !s.providers.contains d).map fun d => (e.1, d)

def computeProviderOrder (s : RegistryState F) : Except Str (List Str) :=
  match s.missing with
  | some (name, dependency) =>
      .error (lit "missing OPC UA datatype provider dependency: provider '" ++ name ++ lit "' requires '" ++
        dependency ++ lit "'")
  | none =>
      let k := Kahn.result s.graph
      if k.order.length ≠ s.providers.size then
        .error (lit "cyclic OPC UA datatype provider dependency:" ++
          (k.indegree.entries.filter fun e => e.2 ≠ 0).flatMap fun e => lit " " ++ e.1)
      else .ok k.order

def freezeDataTypeRegistry (s : RegistryState F) : RegistryState F × Except Str (List Str) :=
  if s.frozen then (s, .ok s.providerOrder)
  else
    match computeProviderOrder s with
    | .error message => (s, .error message)
    | .ok order => ({ s with providerOrder := order, frozen := true }, .ok order)

/-- `detail::frozenDataTypeProviders`. -/
def frozenDataTypeProviders (s : RegistryState F) : RegistryState F × Except Str (List (DataTypeProvider F)) :=
  match freezeDataTypeRegistry s with
  | (s', .error message) => (s', .error message)
  | (s', .ok _) => (s', .ok (s'.providerOrder.filterMap s'.providers.find?))

/-! ## Runs -/

inductive Call (F : Type) where
  | register (provider : DataTypeProvider F)
  | freeze

def call (s : RegistryState F) : Call F → RegistryState F
  | .register provider => (registerDataTypeProvider s provider).1
  | .freeze => (freezeDataTypeRegistry s).1

def run (s : RegistryState F) (calls : List (Call F)) : RegistryState F := calls.foldl call s

end RttOpcua.Types
