import RttOpcua.Remote.Discovery
import RttOpcua.Remote.Operation

/-!
# Staging a remote interface

`stageRemoteService` of `src/task_context_proxy.cpp`: what a proxy makes of the services of a component before it
installs any of it.
-/

namespace RttOpcua.Remote

open RttOpcua.Lib RttOpcua.Model

/-! ## Staged services -/

structure StagedProperty where
  name : Str
  description : Str
  type : Nat

/-- `isAssignable` tells an attribute from an alias. -/
structure StagedAttribute where
  name : Str
  type : Nat
  isAssignable : Bool

structure StagedPort where
  name : Str
  description : Str
  type : Nat
  direction : PortDirection

structure StagedService where
  name : Str
  description : Str
  operations : List (Str × RemoteOperation)
  properties : List StagedProperty
  attributes : List StagedAttribute
  ports : List StagedPort
  children : List StagedService

/-! ## Required operations -/

def kRequiredRootOperations : List (Str × Str) :=
  [(lit "getTaskState", lit "TaskState"), (lit "getTargetState", lit "TaskState"),
    (lit "isConfigured", lit "Bool"), (lit "isActive", lit "Bool"), (lit "isRunning", lit "Bool"),
    (lit "inFatalError", lit "Bool"), (lit "inException", lit "Bool"), (lit "inRunTimeError", lit "Bool")]

/-- The condition on a required operation that was found. -/
def acceptsRequired (found : RemoteOperationDescription) (outputType : Str) : Bool :=
  found.inputTypes.isEmpty && found.outputTypes.length == 1 && found.outputTypes.head? == some outputType &&
    found.outputSources.length == 1 && found.outputSources.head? == some (-1)

def validateRequired (operations : List RemoteOperationDescription) (required : Str × Str) : Except Str Unit :=
  match operations.find? fun operation => operation.name = required.1 with
  | none => .error (lit "remote RTT root operation '" ++ required.1 ++ lit "' is required")
  | some found =>
      if acceptsRequired found required.2 then .ok ()
      else
        .error (lit "remote RTT root operation '" ++ required.1 ++
          lit "' must have no inputs and one return output of RTT type '" ++ required.2 ++ lit "'")

def validateRequiredRootOperations (operations : List RemoteOperationDescription) : Except Str Unit :=
  kRequiredRootOperations.forM (validateRequired operations)

/-! ## Staging -/

/-- Which types RTT builds properties, attributes and aliases of, on the source that it gets, and ports. -/
structure TypeFactories where
  buildProperty : Nat → Bool
  buildAttribute : Nat → Bool
  buildAlias : Nat → Bool
  inputPort : Nat → Bool
  outputPort : Nat → Bool

section Stage

variable (registry : TypeRegistry) (factories : TypeFactories)

/-- The type with a codec for its values, if there is one. -/
def valueType (typeName : Str) : Option Nat :=
  (registry.type typeName).filter fun type => (registry.codecForTypeInfo type).any Codec.hasValue

/-- The type of the data source; a codec with values always makes one. -/
def makeRemoteDataSource (description : RemoteValueDescription) : Except Str Nat :=
  match valueType registry description.typeName with
  | none =>
      .error (lit "remote value '" ++ description.name ++ lit "' uses unsupported RTT type '" ++ description.typeName ++
        lit "'")
  | some type => .ok type

def stageProperty (description : RemoteValueDescription) : Except Str StagedProperty :=
  if description.writable = false then
    .error (lit "remote property '" ++ description.name ++ lit "' is not writable for the current OPC UA user")
  else do
    let type ← makeRemoteDataSource registry description
    if factories.buildProperty type then .ok ⟨description.name, description.description, type⟩
    else .error (lit "failed to construct remote property '" ++ description.name ++ lit "'")

def stageAttribute (description : RemoteValueDescription) : Except Str StagedAttribute := do
  let type ← makeRemoteDataSource registry description
  let built := if description.writable then factories.buildAttribute type else factories.buildAlias type
  if built then .ok ⟨description.name, type, description.writable⟩
  else .error (lit "failed to construct remote attribute '" ++ description.name ++ lit "'")

/-- `RemotePortAdapter::create`. -/
def stagePort (description : RemotePortDescription) : Except Str StagedPort :=
  match valueType registry description.typeName with
  | none =>
      .error (lit "remote port '" ++ description.name ++ lit "' uses unsupported RTT type '" ++ description.typeName ++
        lit "'")
  | some type =>
      let built := match description.direction with
        | .input => factories.inputPort type
        | .output => factories.outputPort type
      if built then .ok ⟨description.name, description.description, type, description.direction⟩
      else .error (lit "failed to construct remote RTT port '" ++ description.name ++ lit "'")

variable (store : RemoteStore) (component : Str)

/-- `stageRemoteService`; `remaining` is `kMaximumServiceDepth + 1` less the length of the path. -/
def stageRemoteService : Nat → List Str → Str → Str → Except Str StagedService
  | 0, _, _, _ => .error (lit "remote RTT service hierarchy exceeds the supported depth")
  | remaining + 1, servicePath, name, description => do
      let operations ← discoverOperations store component servicePath
      if servicePath = [] then validateRequiredRootOperations operations
      let properties ← discoverValues store component servicePath .properties
      let attributes ← discoverValues store component servicePath .attributes
      let ports ← discoverPorts store component servicePath registry
      let services ← discoverServices store component servicePath
      let operations ← operations.mapM fun operation =>
        (RemoteOperation.make (some registry) operation).map fun built => (operation.name, built)
      let properties ← properties.mapM (stageProperty registry factories)
      let attributes ← attributes.mapM (stageAttribute registry factories)
      let ports ← ports.mapM (stagePort registry factories)
      let children ← services.mapM fun service =>
        stageRemoteService remaining (servicePath ++ [service.name]) service.name service.description
      .ok { name, description, operations, properties, attributes, ports, children }

/-- The part of `synchronize` that stages the interface of a component. -/
def stageComponent : Except Str StagedService := do
  let description ← readServiceDescription store component []
  stageRemoteService registry factories store component (kMaximumServiceDepth + 1) [] [] description

end Stage

end RttOpcua.Remote
