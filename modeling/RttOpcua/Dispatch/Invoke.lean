import RttOpcua.Model.Snapshot
import RttOpcua.Values.Codec

/-!
# Invocations

`OperationDispatcher::invoke` of `src/operation_dispatcher.cpp`, as a function of what RTT does: whether the caller has a
send data source, and how the operation ends. Threads, leases and the reaper are in `Lease`.
-/

namespace RttOpcua.Dispatch

open RttOpcua.Lib RttOpcua.Model RttOpcua.Values

inductive StatusCode where
  | Good
  | BadNotConnected
  | BadConfigurationError
  | BadInvalidArgument
  | BadInternalError
  | BadNotSupported
  | BadTimeout
  | BadResourceUnavailable
  | BadUnexpectedError
  deriving DecidableEq, Repr

/-- How an operation ends that RTT runs: with its return value, if there is one, and the values that its arguments have
then; without success; with an exception; or not before the deadline. -/
inductive Completion (V : Type) where
  | returned (result : Option V) (arguments : List V)
  | failed
  | threw
  | late
  deriving DecidableEq, Repr

/-- An operation with what RTT runs for it. A collect yields the return value and then the arguments `references`. -/
structure Callable (V : Type) where
  operation : Operation
  references : List Nat
  body : List V → Completion V

/-- A data source with the value that it holds. -/
structure Value (V : Type) where
  typeInfo : Nat
  value : V
  deriving DecidableEq, Repr

/-- What `invoke` returns and writes to the outputs, from the first on, and whether the operation was started. -/
structure Invocation (X : Type) where
  status : StatusCode
  outputs : List X := []
  started : Bool := false
  deriving DecidableEq, Repr

section Invoke

variable {V X : Type} (registry : ValueRegistry V X)

/-! ## Inputs and outputs -/

/-- The loop over the inputs: `makeDataSource` of the codec of each type. -/
def makeInputs : List (Option Nat) → List X → Option (List (Value V))
  | type :: types, x :: inputs => do
      let codec ← type.bind registry.codecForTypeInfo
      let value ← codec.fromVariant x
      let rest ← makeInputs types inputs
      some (⟨codec.typeInfo, value⟩ :: rest)
  | _, _ => some []

/-- The loop of `encodeOutputs`. -/
def encodeValues : List (Value V) → StatusCode × List X
  | [] => (.Good, [])
  | value :: rest =>
      match registry.codecForTypeInfo value.typeInfo with
      | none => (.BadInternalError, [])
      | some codec =>
          match if codec.typeInfo = value.typeInfo then codec.toVariant value.value else none with
          | none => (.BadInternalError, [])
          | some x =>
              let (status, outputs) := encodeValues rest
              (status, x :: outputs)

def encodeOutputs (values : List (Value V)) (outputs : Nat) : StatusCode × List X :=
  if values.length ≠ outputs then (.BadInternalError, []) else encodeValues registry values

/-- The end of an invocation; `values` are those of the data sources that the outputs are read from. -/
def complete (completion : Completion V) (values : Option V → List V → List (Value V)) (outputs : Nat) :
    Invocation X :=
  match completion with
  | .returned result arguments =>
      let (status, outputs) := encodeOutputs registry (values result arguments) outputs
      { status, outputs, started := true }
  | .failed => { status := .BadResourceUnavailable, started := true }
  | .threw => { status := .BadUnexpectedError, started := true }
  | .late => { status := .BadTimeout, started := true }

/-! ## Calls -/

variable (fresh : Nat → V) (callable : Callable V)

/-- A data source of `collected_values`: a new one for the return value, or that of an argument. -/
inductive Collected where
  | returnValue (typeInfo : Nat)
  | argument (index : Nat)
  deriving DecidableEq, Repr

/-- The loop over the sources of the schema, each with the collected type at its place. -/
def collectSources (arity : Nat) : List (Int × Option Nat) → Option (List Collected)
  | [] => some []
  | (source, type) :: rest =>
      if source = -1 then do
        let t ← type
        if registry.buildValue t then
          let more ← collectSources arity rest
          some (.returnValue t :: more)
        else none
      else if 0 ≤ source ∧ source.toNat < arity then do
        let more ← collectSources arity rest
        some (.argument source.toNat :: more)
      else none

/-- What a data source holds after the call, which leaves the final values in those of the arguments. -/
def Collected.after (inputs : List (Value V)) (result : Option V) (arguments : List V) : Collected → Value V
  | .returnValue t => ⟨t, result.getD (fresh t)⟩
  | .argument i =>
      match inputs[i]? with
      | some input => ⟨input.typeInfo, arguments.getD i input.value⟩
      | none => ⟨0, fresh 0⟩

/-- Without a send data source. -/
def invokeCall (inputs : List (Value V)) (outputs : Nat) : Invocation X :=
  let schema := describe registry.toTypeRegistry callable.operation
  if ¬ schema.supported ∨ schema.outputSources.length ≠ outputs then { status := .BadNotSupported }
  else
    match collectSources registry inputs.length (schema.outputSources.zip callable.operation.collect) with
    | none => { status := .BadNotSupported }
    | some collected =>
        complete registry (callable.body (inputs.map Value.value))
          (fun result arguments => collected.map (Collected.after fresh inputs result arguments)) outputs

/-! ## Sends -/

/-- The loop over the collected types: each builds a value. -/
def buildValues : List (Option Nat) → Option (List Nat)
  | [] => some []
  | type :: rest => do
      let t ← type
      if registry.buildValue t then
        let more ← buildValues rest
        some (t :: more)
      else none

/-- What a collect stores in new data sources: the return value and the final values of the references. -/
def collectInto (references : List Nat) (result : Option V) (arguments : List V) (types : List Nat) : List (Value V) :=
  types.mapIdx fun k t =>
    ⟨t, ((result.toList ++ references.filterMap fun i => arguments[i]?)[k]?).getD (fresh t)⟩

/-- With a send data source. The operation has been started when the values are built. -/
def invokeSend (inputs : List (Value V)) (outputs : Nat) : Invocation X :=
  match buildValues registry callable.operation.collect with
  | none => { status := .BadNotSupported, started := true }
  | some types =>
      complete registry (callable.body (inputs.map Value.value))
        (fun result arguments => collectInto fresh callable.references result arguments types) outputs

/-! ## Invocations -/

/-- `invoke`; `sends` is whether the caller has a send data source, `leased` whether a lease was acquired. The check of
the caller throws if an argument has not the type of the operation. -/
def invoke (sends leased : Bool) (timeout : Int) (inputs : List X) (outputs : Nat) : Invocation X :=
  if ¬ leased then { status := .BadNotConnected }
  else if timeout ≤ 0 then { status := .BadConfigurationError }
  else if inputs.length ≠ callable.operation.types.length ∨ outputs ≠ callable.operation.collect.length then
    { status := .BadInvalidArgument }
  else
    match makeInputs registry callable.operation.types inputs with
    | none => { status := .BadInvalidArgument }
    | some values =>
        if values.map (fun value => some value.typeInfo) ≠ callable.operation.types then
          { status := .BadUnexpectedError }
        else if sends then invokeSend registry fresh callable values outputs
        else invokeCall registry fresh callable values outputs

end Invoke

end RttOpcua.Dispatch
