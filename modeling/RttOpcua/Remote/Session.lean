import RttOpcua.Model.Snapshot

/-!
# What a client reads of an operation

The body of the loop in `ClientSession::discoverOperations` (`src/client_session.cpp`). The server returns what the
nodes hold: the metadata arrays, and the arguments of the method, which the method node has if there are any. Messages
leave out what an exception of the client library says.
-/

namespace RttOpcua.Remote

open RttOpcua.Lib RttOpcua.Model

structure RemoteOperationDescription where
  name : Str
  description : Str
  inputTypes : List Str
  inputNames : List Str
  inputDescriptions : List Str
  outputTypes : List Str
  outputSources : List Int
  deriving DecidableEq, Repr

section Discover

variable (nodes : NodeMap) (component : Str) (servicePath : List Str) (name : Str)

def operationPath : Str := modelPath component servicePath [lit "operations", name]

/-- The node that holds an array of the metadata. -/
def metadataNode (leaf : Str) : Option NodeSpec :=
  nodes.find? (modelPath component servicePath [lit "operations", name, leaf])

def invalidMetadata : Str := lit "invalid RTT method metadata: "

/-- `readOptionalArray`, for strings. -/
def readStrings : Option NodeSpec → Except Str (List Str)
  | none => .ok []
  | some spec =>
      match spec.content with
      | .stringArray values => .ok values
      | _ => .error invalidMetadata

/-- `readOptionalArray`, for integers. -/
def readIntegers : Option NodeSpec → Except Str (List Int)
  | none => .ok []
  | some spec =>
      match spec.content with
      | .int32Array values => .ok values
      | _ => .error invalidMetadata

/-- One operation, from the node of its method. -/
def discoverOperation (method : NodeSpec) : Except Str RemoteOperationDescription := do
  let inputTypes ← readStrings (metadataNode nodes component servicePath name (lit "rttInputTypes"))
  let outputTypes ← readStrings (metadataNode nodes component servicePath name (lit "rttOutputTypes"))
  let outputSources ← readIntegers (metadataNode nodes component servicePath name (lit "rttOutputSources"))
  if outputTypes.length ≠ outputSources.length then
    .error (lit "remote operation '" ++ name ++ lit "' has inconsistent RTT output metadata")
  else
    let inputNames := method.schema.inputs.map Argument.name
    let inputDescriptions := method.schema.inputs.map Argument.description
    if (inputNames ≠ [] ∨ inputDescriptions ≠ []) ∧
        (inputNames.length ≠ inputTypes.length ∨ inputDescriptions.length ≠ inputTypes.length) then
      .error (lit "remote operation '" ++ name ++ lit "' has inconsistent RTT input metadata")
    else
      .ok { name, description := method.description, inputTypes, inputNames, inputDescriptions, outputTypes,
            outputSources }

end Discover

end RttOpcua.Remote
