import RttOpcua.Remote.Session

/-!
# Remote operations

`RemoteOperation` of `src/remote_operation.cpp`: what its constructor checks, and what RTT asks of it.
-/

namespace RttOpcua.Remote

open RttOpcua.Lib RttOpcua.Model

structure RemoteOperation where
  description : RemoteOperationDescription
  inputTypes : List Nat
  outputTypes : List Nat
  returnType : Nat
  mutableArguments : OrdSet Nat
  arguments : List ArgumentDescription

namespace RemoteOperation

section Constructor

variable (registry : TypeRegistry)

/-- The two loops over the type names; `what` is `input` or `output`. -/
def resolveTypes (what : Str) : List Str → Except Str (List Nat)
  | [] => .ok []
  | name :: rest =>
      let unsupported : Str := lit "unsupported remote RTT " ++ what ++ lit " type '" ++ name ++ lit "'"
      match registry.type name with
      | none => .error unsupported
      | some type =>
          match registry.codecForTypeInfo type with
          | none => .error unsupported
          | some _ => do
              let types ← resolveTypes what rest
              .ok (type :: types)

/-- The loop over the outputs, with the return type and the mutable arguments that it has found so far. -/
def assignSources (name : Str) (inputTypes : List Nat) :
    List (Int × Nat) → Option Nat → OrdSet Nat → Except Str (Option Nat × OrdSet Nat)
  | [], returnType, mutableArguments => .ok (returnType, mutableArguments)
  | (source, type) :: rest, returnType, mutableArguments =>
      if source = -1 then
        if returnType.isSome then .error (lit "multiple return values for remote RTT operation '" ++ name ++ lit "'")
        else assignSources name inputTypes rest (some type) mutableArguments
      else if 0 ≤ source ∧ source.toNat < inputTypes.length then
        if inputTypes[source.toNat]? ≠ some type ∨ mutableArguments.contains source.toNat then
          .error (lit "inconsistent mutable output for remote RTT operation '" ++ name ++ lit "'")
        else assignSources name inputTypes rest returnType (mutableArguments.insert source.toNat)
      else .error (lit "invalid output source for remote RTT operation '" ++ name ++ lit "'")

/-- An argument of the list that RTT gets. -/
def describeArgument (description : RemoteOperationDescription) (mutableArguments : OrdSet Nat) (type index : Nat) :
    ArgumentDescription where
  name :=
    match description.inputNames[index]? with
    | some name => if name ≠ [] then name else lit "argument" ++ lit (toString (index + 1))
    | none => lit "argument" ++ lit (toString (index + 1))
  description := description.inputDescriptions.getD index []
  type := registry.getTypeName type ++ if mutableArguments.contains index then lit " &" else []

/-- The constructor, with the registry of the session. -/
def construct (description : RemoteOperationDescription) : Except Str RemoteOperation := do
  let inputTypes ← resolveTypes registry (lit "input") description.inputTypes
  let outputTypes ← resolveTypes registry (lit "output") description.outputTypes
  if outputTypes.length ≠ description.outputSources.length then
    .error (lit "inconsistent output metadata for remote RTT operation '" ++ description.name ++ lit "'")
  else
    let (returnType, mutableArguments) ←
      assignSources description.name inputTypes (description.outputSources.zip outputTypes) none ∅
    match returnType.or (registry.type (lit "Void")) with
    | none => .error (lit "RTT Void type is not registered")
    | some returnType =>
        .ok { description, inputTypes, outputTypes, returnType, mutableArguments
              arguments := inputTypes.mapIdx fun index type =>
                describeArgument registry description mutableArguments type index }

end Constructor

/-- The constructor. -/
def make (registry : Option TypeRegistry) (description : RemoteOperationDescription) : Except Str RemoteOperation :=
  match registry with
  | none => .error (lit "OPC UA client type registry is unavailable")
  | some registry => construct registry description

/-- `RemoteOperation` as an `OperationInterfacePart`. -/
def toInterface (operation : RemoteOperation) : Operation where
  description := operation.description.description
  argumentList := some operation.arguments
  returnType := some operation.returnType
  types := operation.inputTypes.map some
  collect := operation.outputTypes.map some

end RemoteOperation

/-- What the session makes of the operation `name`, if the server has its method: the description of the loop over the
methods, and from it the operation that `stageRemoteService` adds. -/
def mirrorOperation (registry : Option TypeRegistry) (nodes : NodeMap) (component : Str) (servicePath : List Str)
    (name : Str) : Option (Except Str RemoteOperation) :=
  (nodes.find? (operationPath component servicePath name)).map fun method => do
    let description ← discoverOperation nodes component servicePath name method
    RemoteOperation.make registry description

end RttOpcua.Remote
