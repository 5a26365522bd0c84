import Mathlib.Algebra.GroupWithZero.Nat
import RttOpcua.Types.Registry

/-!
# The types of an endpoint

`EndpointTypeRegistry` (`src/endpoint_type_registry.cpp`): the datatypes of the frozen registry with the namespace
indexes of one endpoint, and a codec for each RTT type that has an OPC UA protocol.

Code that is not the repository's is a parameter: the functions that materialize datatypes, the repository of RTT
types and the `bind` of its protocols. Each call of one may behave differently, so they also get the number of the
call.
-/

namespace RttOpcua.Types

open RttOpcua.Lib

/-! ## Datatypes -/

/-- `operator<=>` of `LogicalDataTypeId`. -/
instance : Ord LogicalDataTypeId :=
  ⟨compareLex (compareOn LogicalDataTypeId.namespaceUri)
    (compareLex (compareOn LogicalDataTypeId.typeNodeId) (compareOn LogicalDataTypeId.binaryEncodingNodeId))⟩

instance : Std.TransOrd LogicalDataTypeId :=
  inferInstanceAs (Std.TransCmp (compareLex (compareOn LogicalDataTypeId.namespaceUri)
    (compareLex (compareOn LogicalDataTypeId.typeNodeId) (compareOn LogicalDataTypeId.binaryEncodingNodeId))))

instance : Std.LawfulEqOrd LogicalDataTypeId where
  eq_of_compare {x y} h := by
    obtain ⟨n, t, b⟩ := x
    obtain ⟨n', t', b'⟩ := y
    change (compare n n').then ((compare t t').then (compare b b')) = .eq at h
    simp only [Ordering.then_eq_eq, Std.LawfulEqOrd.compare_eq_iff_eq] at h
    simp only [LogicalDataTypeId.mk.injEq]
    exact h

inductive Identifier where
  | numeric (n : Nat)
  | string (s : Str)
  | other (n : Nat)
  deriving DecidableEq, Repr

structure NodeId where
  namespaceIndex : Nat
  identifier : Identifier
  deriving DecidableEq, Repr

/-- The `UA_DATATYPEKIND`s that the registry tells apart. -/
inductive TypeKind where
  | struct
  | optStruct
  | enum
  | union
  | other (n : Nat)
  deriving DecidableEq, Repr

/-- What the registry asks of an `opcua::DataType`. -/
structure DataType where
  typeId : NodeId
  binaryEncodingId : NodeId
  typeKind : TypeKind
  deriving DecidableEq, Repr

def kindMatches : CustomDataTypeKind → TypeKind → Bool
  | .struct, .struct => true
  | .struct, .optStruct => true
  | .enumeration, .enum => true
  | .unionType, .union => true
  | _, _ => false

/-! ## The vector of datatypes -/

/-- A pointer into `custom_data_types_`. -/
structure Handle where
  buffer : Nat
  index : Nat
  deriving DecidableEq, Repr

/-- `custom_data_types_`: its elements move to another buffer when it grows past its capacity. -/
structure CustomDataTypes where
  items : List DataType := []
  capacity : Nat := 0
  buffer : Nat := 0

namespace CustomDataTypes

variable (v : CustomDataTypes)

def reserve (n : Nat) : CustomDataTypes := if v.capacity < n then { v with capacity := n, buffer := v.buffer + 1 } else v

def pushBack (t : DataType) : CustomDataTypes :=
  if v.items.length < v.capacity then { v with items := v.items ++ [t] }
  else { items := v.items ++ [t], capacity := max 1 (2 * v.capacity), buffer := v.buffer + 1 }

/-- What a handle points to, if it does not dangle. -/
def read (h : Handle) : Option DataType := if h.buffer = v.buffer then v.items[h.index]? else none

end CustomDataTypes

/-! ## Binding the datatypes -/

/-- `DataTypeFactoryContext::State`. -/
structure FactoryState where
  namespaceIndexes : OrdMap Str Nat
  dataTypes : OrdMap LogicalDataTypeId Handle := ∅

/-- `DataTypeFactoryContext::dataType`. -/
def FactoryState.dataType (s : FactoryState) (id : LogicalDataTypeId) : Option Handle := s.dataTypes.find? id

structure DataTypeNode where
  name : Str
  kind : CustomDataTypeKind
  dataTypeIndex : Nat
  deriving DecidableEq, Repr

/-- The members of `EndpointTypeRegistry` that the first loop of `bind` fills. -/
structure EndpointTypes where
  customDataTypes : CustomDataTypes := {}
  customDataTypeIndexes : OrdMap LogicalDataTypeId Nat := ∅
  dataTypeNodes : List DataTypeNode := []
  factoryState : FactoryState

variable {F : Type}

/-- What the functions that materialize datatypes do: the number of the call, the function, what it sees. An
exception has a message or none. -/
abbrev Materialize (F : Type) := Nat → F → FactoryState → Except (Option Str) DataType

namespace EndpointTypes

variable (e : EndpointTypes)

def dataType (id : LogicalDataTypeId) : Option DataType :=
  (e.customDataTypeIndexes.find? id).bind fun i => e.customDataTypes.items[i]?

/-- `namespace_indexes_` is what the factory state has a copy of. -/
def namespaceIndex (namespaceUri : Str) : Option Nat := e.factoryState.namespaceIndexes.find? namespaceUri

/-- The ids that a definition must have at the endpoint. -/
def expected (d : CustomDataTypeDefinition F) (index : Nat) : NodeId × NodeId :=
  (⟨index, .string d.id.typeNodeId⟩, ⟨index, .string d.id.binaryEncodingNodeId⟩)

def store (d : CustomDataTypeDefinition F) (t : DataType) : EndpointTypes :=
  let customDataTypes := e.customDataTypes.pushBack t
  let index := customDataTypes.items.length - 1
  { customDataTypes
    customDataTypeIndexes := e.customDataTypeIndexes.emplace d.id index
    dataTypeNodes := e.dataTypeNodes ++ [⟨d.name, d.kind, index⟩]
    factoryState := { e.factoryState with
      dataTypes := e.factoryState.dataTypes.emplace d.id ⟨customDataTypes.buffer, index⟩ } }

/-- One round of the loop over the definitions. -/
def bindDefinition (materialize : Materialize F) (d : CustomDataTypeDefinition F) : Except Str EndpointTypes :=
  match d.materialize with
  | none => .error (lit "unable to materialize OPC UA datatype '" ++ d.name ++ lit "': bad_function_call")
  | some f =>
      match materialize e.customDataTypes.items.length f e.factoryState with
      | .error what =>
          .error (lit "unable to materialize OPC UA datatype '" ++ d.name ++ lit "': " ++
            what.getD (lit "unknown exception"))
      | .ok t =>
          match e.namespaceIndex d.id.namespaceUri with
          | none => .error (lit "map::at")
          | some index =>
              if (t.typeId, t.binaryEncodingId) ≠ expected d index ∨ kindMatches d.kind t.typeKind = false then
                .error (lit "materialized OPC UA datatype does not match '" ++ d.name ++ lit "'")
              else .ok (e.store d t)

def bindDefinitions (materialize : Materialize F) :
    List (CustomDataTypeDefinition F) → EndpointTypes → Except Str EndpointTypes
  | [], e => .ok e
  | d :: rest, e =>
      match e.bindDefinition materialize d with
      | .error message => .error message
      | .ok e' => bindDefinitions materialize rest e'

/-- What is there when the loop begins. -/
def reserved (namespaceIndexes : OrdMap Str Nat) (providers : List (DataTypeProvider F)) : EndpointTypes where
  customDataTypes := ({} : CustomDataTypes).reserve (providers.map fun p => p.dataTypes.length).sum
  factoryState := { namespaceIndexes }

/-- The datatypes of `bind`. -/
def bind (materialize : Materialize F) (namespaceIndexes : OrdMap Str Nat) (providers : List (DataTypeProvider F)) :
    Except Str EndpointTypes :=
  match providers.find? fun p => !namespaceIndexes.contains p.namespaceUri with
  | some p => .error (lit "missing OPC UA endpoint namespace URI: '" ++ p.namespaceUri ++ lit "'")
  | none =>
      bindDefinitions materialize (providers.flatMap DataTypeProvider.dataTypes) (reserved namespaceIndexes providers)

end EndpointTypes

/-! ## Namespaces -/

/-- The loop over the namespace table: no URI and no index twice. -/
def readNamespaces : List (Str × Nat) → OrdMap Str Nat → List Nat → Option (OrdMap Str Nat)
  | [], table, _ => some table
  | (uri, index) :: rest, table, indexes =>
      if uri.isEmpty ∨ containsNul uri = true ∨ table.contains uri = true ∨ index ∈ indexes then none
      else readNamespaces rest (table.emplace uri index) (index :: indexes)

def namespaceZero : Str := lit "http://opcfoundation.org/UA/"

/-- The tests of `create` before `bind`. -/
def acceptNamespaces (namespaces : List (Str × Nat)) : Except Str (OrdMap Str Nat) :=
  match readNamespaces namespaces ∅ [] with
  | none => .error (lit "invalid OPC UA endpoint namespace table")
  | some table =>
      if table.find? namespaceZero = some 0 then .ok table
      else .error (lit "invalid OPC UA endpoint namespace zero")

/-! ## Codecs -/

/-- `DataTypeReference`. -/
inductive DataTypeReference where
  | builtin (id : NodeId)
  | logical (id : LogicalDataTypeId)
  deriving DecidableEq, Repr

structure TypeProtocol where
  dataType : DataTypeReference
  registrationFingerprint : Str
  deriving DecidableEq, Repr

/-- What a `TypeInfo` may hold under the id of the transport: another transport may have taken it. -/
inductive Transporter where
  | typeProtocol (p : TypeProtocol)
  | foreign
  deriving DecidableEq, Repr

/-- The repository of RTT types: several names may be of one `TypeInfo`. `T` stands for `TypeInfo *`. -/
structure TypeRepository (T : Type) where
  names : List Str
  nodup : names.Nodup
  type : Str → Option T
  protocol : T → Option Transporter

/-- A `UA_DataType *`: a builtin type of the stack, or an element of `custom_data_types_`. -/
inductive NativeType where
  | builtin (id : NodeId)
  | custom (h : Handle)
  deriving DecidableEq, Repr

/-- `codecs_` and `codecs_by_name_`. Codecs are numbered in the order in which they are made. -/
structure Codecs (T : Type) where
  codecs : T → Option Nat := fun _ => none
  codecsByName : OrdMap Str Nat := ∅
  made : Nat := 0

/-- Code that the codecs come from: the types that the stack knows, and what the `bind` of a protocol returns (for
the number of the call, the type and its id): the id of the codec, if there is one, and `bind_error`. -/
structure CodecSource (T : Type) where
  knows : NodeId → Bool
  bind : Nat → T → NodeId → NativeType → Option NodeId × Str

section Codecs

variable {T : Type} [DecidableEq T]

def resolve (source : CodecSource T) (e : EndpointTypes) (name : Str) :
    DataTypeReference → Except Str (NodeId × NativeType)
  | .builtin id =>
      if id.namespaceIndex ≠ 0 then
        .error (lit "nonzero namespace in builtin OPC UA protocol for RTT type '" ++ name ++ lit "'")
      else if source.knows id then .ok (id, .builtin id)
      else .error (lit "unresolved OPC UA datatype for RTT type '" ++ name ++ lit "'")
  | .logical id =>
      match e.customDataTypeIndexes.find? id, e.dataType id with
      | some i, some t => .ok (t.typeId, .custom ⟨e.customDataTypes.buffer, i⟩)
      | _, _ => .error (lit "unresolved OPC UA datatype for RTT type '" ++ name ++ lit "'")

namespace Codecs

/-- The two `emplace` calls. A codec that `codecs_` does not take is destroyed. -/
def add (c : Codecs T) (t : T) (name : Str) : Codecs T where
  codecs := if (c.codecs t).isSome then c.codecs else Function.update c.codecs t (some c.made)
  codecsByName := c.codecsByName.emplace name c.made
  made := c.made + 1

/-- One round of the loop over the names. -/
def bindName (repository : TypeRepository T) (source : CodecSource T) (e : EndpointTypes) (c : Codecs T) (name : Str) :
    Except Str (Codecs T) :=
  match repository.type name with
  | none => .ok c
  | some t =>
      match repository.protocol t with
      | none => .ok c
      | some .foreign => .error (lit "invalid OPC UA type protocol for RTT type '" ++ name ++ lit "'")
      | some (.typeProtocol p) =>
          match resolve source e name p.dataType with
          | .error message => .error message
          | .ok (id, native) =>
              let (codec, bindError) := source.bind c.made t id native
              if codec ≠ some id then
                .error (lit "unable to bind OPC UA codec for RTT type '" ++ name ++ lit "': " ++ bindError)
              else .ok (c.add t name)

def bindNames (repository : TypeRepository T) (source : CodecSource T) (e : EndpointTypes) :
    List Str → Codecs T → Except Str (Codecs T)
  | [], c => .ok c
  | name :: rest, c =>
      match bindName repository source e c name with
      | .error message => .error message
      | .ok c' => bindNames repository source e rest c'

variable (c : Codecs T)

omit [DecidableEq T] in
def codecForTypeInfo (t : Option T) : Option Nat := t.bind c.codecs

omit [DecidableEq T] in
def codecForTypeName (name : Str) : Option Nat := c.codecsByName.find? name

end Codecs

/-! ## `create` -/

structure EndpointTypeRegistry (T : Type) where
  types : EndpointTypes
  codecs : Codecs T

/-- `EndpointTypeRegistry::create`. It freezes the registry of datatypes. -/
def EndpointTypeRegistry.create (s : RegistryState F) (namespaces : List (Str × Nat)) (materialize : Materialize F)
    (repository : TypeRepository T) (source : CodecSource T) : RegistryState F × Except Str (EndpointTypeRegistry T) :=
  match acceptNamespaces namespaces with
  | .error message => (s, .error message)
  | .ok table =>
      match frozenDataTypeProviders s with
      | (s', .error message) => (s', .error message)
      | (s', .ok providers) =>
          (s', do
            let types ← EndpointTypes.bind materialize table providers
            let codecs ← Codecs.bindNames repository source types repository.names {}
            return { types, codecs })

end Codecs

end RttOpcua.Types
