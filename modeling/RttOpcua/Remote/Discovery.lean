import RttOpcua.Lib.Unique
import RttOpcua.Model.Transaction
import RttOpcua.Remote.Session

/-!
# Discovery

`discoverOperations`, `discoverValues`, `discoverPorts`, `discoverServices` and `readServiceDescription` of
`src/client_session.cpp`, on a connected session: it has its type registry. The server returns what its nodes hold, and
all its nodes are local.
-/

namespace RttOpcua.Remote

open RttOpcua.Lib RttOpcua.Model

/-! ## The server -/

/-- What a server has of a component: the nodes, and in some order the children of a folder, by their class. -/
structure RemoteStore where
  nodes : NodeMap
  browse : Str → NodeKind → List NodeSpec
  browse_perm : ∀ folder kind, (browse folder kind).Perm ((nodes.entries.map Prod.snd).filter fun spec =>
    decide (spec.parentPath = folder ∧ spec.reference = .hasComponent ∧ spec.kind = kind))

/-- The attributes of a variable. All variables can be read. -/
structure VariableAttributes where
  dataType : Nat
  valueRank : Int
  writable : Bool
  deriving DecidableEq, Repr

/-- `String` and `Int32` are the datatypes 12 and 6; rank 1 is an array. -/
def variableAttributes : NodeContent → Option VariableAttributes
  | .staticString _ _ => some ⟨12, -1, false⟩
  | .portDirection _ => some ⟨6, -1, false⟩
  | .stringArray _ => some ⟨12, 1, false⟩
  | .int32Array _ => some ⟨6, 1, false⟩
  | .dataSource _ codec writable => some ⟨codec.dataType, codec.valueRank, writable⟩
  | .inputPortValue codec => some ⟨codec.dataType, codec.valueRank, true⟩
  | .outputPortValue codec => some ⟨codec.dataType, codec.valueRank, false⟩
  | .object => none
  | .method _ => none

def badNodeIdUnknown : Str := lit ": BadNodeIdUnknown"

/-- `readStringValue`; `discoverValues` does the same in place. -/
def readStringValue (label : Str) : Option NodeSpec → Except Str Str
  | none => .error (lit "failed to read " ++ label ++ badNodeIdUnknown)
  | some spec =>
      match spec.content with
      | .staticString value _ => .ok value
      | _ => .error (lit "invalid " ++ label ++ lit ": ")

def readPortDirection (name : Str) : Option NodeSpec → Except Str PortDirection
  | none => .error (lit "failed to read RTT port direction metadata" ++ badNodeIdUnknown)
  | some spec =>
      match spec.content with
      | .portDirection direction => .ok direction
      | _ =>
          .error (lit "remote port '" ++ name ++ lit "' has invalid direction metadata: expected scalar Int32")

/-! ## Folders -/

/-- The loop over the references of a folder, which passes over nodes without a name. `read` may pass over others. -/
def readReferences {D : Type} (read : NodeSpec → Except Str (Option D)) : List NodeSpec → Except Str (List D)
  | [] => .ok []
  | reference :: rest =>
      if reference.browseName = [] then readReferences read rest
      else do
        let description ← read reference
        let more ← readReferences read rest
        .ok (description.toList ++ more)

/-- `std::adjacent_find` finds a pair. -/
def hasAdjacentDuplicate : List Str → Bool
  | a :: b :: rest => a = b || hasAdjacentDuplicate (b :: rest)
  | _ => false

/-- What the four functions have in common; `what` is in the message about duplicates. -/
def discoverFolder {D : Type} (store : RemoteStore) (folder : Str) (kind : NodeKind) (what : Str) (name : D → Str)
    (read : NodeSpec → Except Str (Option D)) : Except Str (List D) :=
  if store.nodes.contains folder = false then .ok []
  else do
    let found ← readReferences read (store.browse folder kind)
    let sorted := found.insertionSort fun a b => AtMost (name a) (name b)
    if hasAdjacentDuplicate (sorted.map name) then
      .error (lit "remote component exposes duplicate " ++ what ++ lit " names")
    else .ok sorted

section Discover

variable (store : RemoteStore) (component : Str) (servicePath : List Str)

def discoverOperations : Except Str (List RemoteOperationDescription) :=
  if store.nodes.contains (componentPath component) = false then
    .error (lit "remote RTT component '" ++ component ++ lit "' was not found" ++ badNodeIdUnknown)
  else
    discoverFolder store (modelPath component servicePath [lit "operations"]) .method (lit "operation")
      RemoteOperationDescription.name fun method =>
        (discoverOperation store.nodes component servicePath method.browseName method).map some

inductive RemoteValueCategory where
  | properties
  | attributes
  deriving DecidableEq, Repr

def categorySegment : RemoteValueCategory → Str
  | .properties => lit "properties"
  | .attributes => lit "attributes"

structure RemoteValueDescription where
  name : Str
  description : Str
  typeName : Str
  writable : Bool
  deriving DecidableEq, Repr

/-- The body of the loop of `discoverValues`. -/
def discoverValue (category : RemoteValueCategory) (node : NodeSpec) : Except Str RemoteValueDescription := do
  let name := node.browseName
  let typeName ← readStringValue (lit "RTT type metadata for '" ++ name ++ lit "'")
    (store.nodes.find? (modelPath component servicePath [categorySegment category, name, lit "rttType"]))
  match variableAttributes node.content with
  | none =>
      .error (lit "failed to read access level for remote " ++ categorySegment category ++ lit " '" ++ name ++ lit "'")
  | some attributes =>
      .ok { name, description := node.description, typeName, writable := attributes.writable }

def discoverValues (category : RemoteValueCategory) : Except Str (List RemoteValueDescription) :=
  discoverFolder store (modelPath component servicePath [categorySegment category]) .variable
    (categorySegment category) RemoteValueDescription.name fun node =>
      (discoverValue store component servicePath category node).map some

structure RemoteServiceDescription where
  name : Str
  description : Str
  deriving DecidableEq, Repr

def discoverServices : Except Str (List RemoteServiceDescription) :=
  discoverFolder store (modelPath component servicePath [lit "services"]) .object (lit "service")
    RemoteServiceDescription.name fun object =>
      .ok (if object.browseName = lit "this" then none else some ⟨object.browseName, object.description⟩)

def readServiceDescription : Except Str Str :=
  match store.nodes.find? (modelPath component servicePath []) with
  | none => .error (lit "failed to read remote RTT service description" ++ badNodeIdUnknown)
  | some spec => .ok spec.description

structure RemotePortDescription where
  name : Str
  description : Str
  typeName : Str
  direction : PortDirection
  deriving DecidableEq, Repr

/-- Whether the port has its value. -/
def validatePortValue (registry : TypeRegistry) (port : RemotePortDescription) (value : Option NodeSpec) :
    Except Str Bool :=
  let unsupported : Str :=
    lit "remote port '" ++ port.name ++ lit "' uses unsupported RTT type '" ++ port.typeName ++ lit "'"
  match registry.codecForTypeName port.typeName with
  | none => .error unsupported
  | some codec =>
      if codec.hasValue = false then .error unsupported
      else
        match value with
        | none => .ok false
        | some spec =>
            match variableAttributes spec.content with
            | none => .error (lit "failed to read value metadata for remote port '" ++ port.name ++ lit "'")
            | some attributes =>
                if attributes.dataType = codec.dataType ∧ attributes.valueRank = codec.valueRank ∧
                    attributes.writable = decide (port.direction = .input) then .ok true
                else .error (lit "remote port '" ++ port.name ++ lit "' exposes an incompatible value Variable")

/-- The body of the loop of `discoverPorts`. An output port without its value is passed over. -/
def discoverPort (registry : TypeRegistry) (object : NodeSpec) : Except Str (Option RemotePortDescription) := do
  let name := object.browseName
  let typeName ← readStringValue (lit "RTT port type metadata")
    (store.nodes.find? (modelPath component servicePath [lit "ports", name, lit "type"]))
  let direction ← readPortDirection name
    (store.nodes.find? (modelPath component servicePath [lit "ports", name, lit "direction"]))
  let port : RemotePortDescription := { name, description := object.description, typeName, direction }
  let hasValue ← validatePortValue registry port
    (store.nodes.find? (modelPath component servicePath [lit "ports", name, lit "value"]))
  if hasValue then .ok (some port)
  else
    match direction with
    | .input => .error (lit "remote port '" ++ name ++ lit "' does not expose its value Variable")
    | .output => .ok none

def discoverPorts (registry : TypeRegistry) : Except Str (List RemotePortDescription) :=
  discoverFolder store (modelPath component servicePath [lit "ports"]) .object (lit "port") RemotePortDescription.name
    (discoverPort store component servicePath registry)

end Discover

end RttOpcua.Remote
