import RttOpcua.Remote.Operation
import RttOpcua.Values.Codec

/-!
# Calls of remote operations

`RemoteCallAction` and `RemoteCollectDataSource` of `src/remote_operation.cpp`, and the functions of `RemoteOperation`
that make them. What the session returns for a call is an input.
-/

namespace RttOpcua.Remote

open RttOpcua.Lib RttOpcua.Model RttOpcua.Values

/-! ## Data sources -/

/-- A data source, by its identity. -/
structure Source where
  id : Nat
  typeInfo : Nat
  isAssignable : Bool
  deriving DecidableEq, Repr

/-- What the data sources hold (`value()` after `evaluate()`), and everything that was set in them, in order. A writable
proxy drops what is set when its writer fails: `drops` has the data source and the number of the set. -/
structure Memory (V : Type) where
  value : Nat → V
  assigned : List (Nat × V) := []
  drops : Nat → Nat → Bool := fun _ _ => false

/-- `set`, which does not tell whether it takes effect. -/
def Memory.set {V : Type} (memory : Memory V) (id : Nat) (v : V) : Memory V where
  value := if memory.drops id memory.assigned.length then memory.value else Function.update memory.value id v
  assigned := memory.assigned ++ [(id, v)]
  drops := memory.drops

structure RemoteCallResult (X : Type) where
  success : Bool := false
  outputs : List X := []
  deriving DecidableEq, Repr

section Assign

variable {V X : Type} (registry : ValueRegistry V X)

/-- `TypeCodec::assignVariant`: true after `set`, whether that takes effect or not. -/
def assignVariant (codec : TypeCodec V X) (x : X) (destination : Option Source) (memory : Memory V) :
    Memory V × Bool :=
  match destination with
  | none => (memory, false)
  | some destination =>
      if destination.typeInfo = codec.typeInfo ∧ destination.isAssignable then
        match codec.fromVariant x with
        | none => (memory, false)
        | some v => (memory.set destination.id v, true)
      else (memory, false)

/-- The loop of `assignCallOutputs` and that of `RemoteCollectDataSource::get`: the name of a type, an output and its
destination at a time. -/
def assignOutputs : List (Str × X × Option Source) → Memory V → Memory V × Bool
  | [], memory => (memory, true)
  | (name, x, destination) :: rest, memory =>
      match registry.codecForTypeName name with
      | none => (memory, false)
      | some codec =>
          match assignVariant codec x destination memory with
          | (memory, true) => assignOutputs rest memory
          | (memory, false) => (memory, false)

/-- The destination of an output of a call. -/
def callDestination (arguments : List (Option Source)) (returnValue : Option Source) (source : Int) : Option Source :=
  if source = -1 then returnValue
  else if 0 ≤ source ∧ source.toNat < arguments.length then (arguments[source.toNat]?).join
  else none

def assignCallOutputs (result : RemoteCallResult X) (outputTypes : List Str) (outputSources : List Int)
    (arguments : List (Option Source)) (returnValue : Option Source) (memory : Memory V) : Memory V × Bool :=
  if ¬ result.success ∨ result.outputs.length ≠ outputTypes.length ∨ outputTypes.length ≠ outputSources.length then
    (memory, false)
  else
    assignOutputs registry
      (outputTypes.zip (result.outputs.zip (outputSources.map (callDestination arguments returnValue)))) memory

/-- `codecForDataSource`. -/
def codecForDataSource (source : Option Source) : Option (TypeCodec V X) :=
  source.bind fun source => registry.codecForTypeInfo source.typeInfo

/-- `encodeArguments`; what it throws is `none`. -/
def encodeArguments (memory : Memory V) : List (Option Source) → Option (List X)
  | [] => some []
  | argument :: rest => do
      let source ← argument
      let codec ← codecForDataSource registry argument
      let x ← if source.typeInfo = codec.typeInfo then codec.toVariant (memory.value source.id) else none
      let more ← encodeArguments memory rest
      some (x :: more)

end Assign

/-! ## Actions -/

/-- `prepared` has the inputs after a `readArguments` that succeeded. -/
structure RemoteCallAction (X : Type) where
  arguments : List (Option Source)
  outputTypes : List Str
  outputSources : List Int
  returnValue : Option Source
  prepared : Option (List X) := none

namespace RemoteCallAction

variable {V X : Type} (registry : ValueRegistry V X) (action : RemoteCallAction X)

def readArguments (memory : Memory V) : RemoteCallAction X :=
  { action with prepared := encodeArguments registry memory action.arguments }

/-- `execute`, where the session returns `result` for the inputs. -/
def execute (result : RemoteCallResult X) (memory : Memory V) : Memory V × Bool :=
  if action.prepared.isNone then (memory, false)
  else
    assignCallOutputs registry result action.outputTypes action.outputSources action.arguments action.returnValue memory

end RemoteCallAction

inductive SendStatus where
  | SendFailure
  | SendNotReady
  | SendSuccess
  deriving DecidableEq, Repr

/-- What the future of an invocation gives in the end: what the thread threw, or its result. -/
inductive Outcome (X : Type) where
  | threw
  | returned (result : Option (RemoteCallResult X))
  deriving DecidableEq, Repr

/-- `invocation` is `none` without a handle or with a future that is not valid. -/
structure RemoteCollectDataSource (X : Type) where
  invocation : Option (Outcome X)
  destinations : List (Option Source)
  outputTypes : List Str
  status : SendStatus := .SendNotReady

namespace RemoteCollectDataSource

variable {V X : Type} (registry : ValueRegistry V X)

/-- `get`, which finds the future ready or not. A blocking one waits for it. -/
def get (collect : RemoteCollectDataSource X) (blocking ready : Bool) (memory : Memory V) :
    RemoteCollectDataSource X × Memory V :=
  if collect.status = .SendSuccess ∨ collect.status = .SendFailure then (collect, memory)
  else
    match collect.invocation with
    | none => ({ collect with status := .SendFailure }, memory)
    | some outcome =>
        if ¬ blocking ∧ ¬ ready then ({ collect with status := .SendNotReady }, memory)
        else
          match outcome with
          | .threw => ({ collect with status := .SendFailure }, memory)
          | .returned none => ({ collect with status := .SendFailure }, memory)
          | .returned (some result) =>
              if ¬ result.success ∨ result.outputs.length ≠ collect.destinations.length ∨
                  collect.destinations.length ≠ collect.outputTypes.length then
                ({ collect with status := .SendFailure }, memory)
              else
                match assignOutputs registry (collect.outputTypes.zip (result.outputs.zip collect.destinations))
                    memory with
                | (memory, true) => ({ collect with status := .SendSuccess }, memory)
                | (memory, false) => ({ collect with status := .SendFailure }, memory)

/-- One `get` after another, each blocking or not, and with the future ready or not. -/
def gets : List (Bool × Bool) → RemoteCollectDataSource X → Memory V → RemoteCollectDataSource X × Memory V
  | [], collect, memory => (collect, memory)
  | (blocking, ready) :: rest, collect, memory =>
      let (collect, memory) := get registry collect blocking ready memory
      gets rest collect memory

end RemoteCollectDataSource

/-! ## What RTT gets -/

/-- The exceptions of RTT. -/
inductive ProduceError where
  | wrongNumberOfArgs (wanted received : Nat)
  | wrongTypesOfArgs (index : Nat) (expected received : Str)
  | nonLvalueArgs (index : Nat) (received : Str)
  | runtimeError (what : Str)
  deriving DecidableEq, Repr

namespace RemoteOperation

variable {V X : Type} (registry : ValueRegistry V X) (operation : RemoteOperation)

def sourceTypeName (source : Option Source) : Str :=
  source.elim (lit "null") fun source => registry.getTypeName source.typeInfo

/-- The loop of `validateArguments` over the arguments and their types. -/
def validateArgumentTypes : Nat → List (Option Source × Nat) → Except ProduceError Unit
  | _, [] => .ok ()
  | index, (argument, type) :: rest =>
      let received := sourceTypeName registry argument
      let expected := registry.getTypeName type
      if argument.isNone ∨ received ≠ expected ∨ (codecForDataSource registry argument).isNone then
        .error (.wrongTypesOfArgs (index + 1) expected received)
      else if operation.mutableArguments.contains index ∧ argument.any (fun a => !a.isAssignable) then
        .error (.nonLvalueArgs (index + 1) received)
      else validateArgumentTypes (index + 1) rest

def validateArguments (arguments : List (Option Source)) : Except ProduceError Unit :=
  if arguments.length ≠ operation.inputTypes.length then
    .error (.wrongNumberOfArgs operation.inputTypes.length arguments.length)
  else validateArgumentTypes registry operation 0 (arguments.zip operation.inputTypes)

/-- The loop of `validateDestinations` over the destinations and their types. -/
def validateDestinations : Nat → List (Option Source × Nat) → Except ProduceError Unit
  | _, [] => .ok ()
  | index, (destination, type) :: rest =>
      let received := sourceTypeName registry destination
      let expected := registry.getTypeName type
      if destination.isNone ∨ destination.any (fun d => !d.isAssignable) ∨ received ≠ expected then
        .error (.wrongTypesOfArgs (index + 1) expected received)
      else validateDestinations (index + 1) rest

/-- `produce`, up to the data source that runs the action. `slot` is the identity of a new data source. -/
def produce (arguments : List (Option Source)) (slot : Nat) : Except ProduceError (RemoteCallAction X) := do
  validateArguments registry operation arguments
  let action (returnValue : Option Source) : RemoteCallAction X :=
    { arguments, outputTypes := operation.description.outputTypes, outputSources := operation.description.outputSources
      returnValue }
  if registry.getTypeName operation.returnType = lit "Void" then .ok (action none)
  else if ¬ registry.buildValue operation.returnType then
    .error (.runtimeError (lit "failed to allocate remote RTT return value"))
  else if ¬ registry.buildActionAlias operation.returnType then
    .error (.runtimeError (lit "failed to build remote RTT call data source"))
  else .ok (action (some { id := slot, typeInfo := operation.returnType, isAssignable := true }))

/-- `produceCollect`. The first argument is the handle; `none` is one of another type, with the name of that type. -/
def produceCollect (handle : Except Str (Option (Outcome X))) (destinations : List (Option Source)) :
    Except ProduceError (RemoteCollectDataSource X) := do
  if destinations.length ≠ operation.outputTypes.length then
    .error (.wrongNumberOfArgs (operation.outputTypes.length + 1) (destinations.length + 1))
  else
    match handle with
    | .error received => .error (.wrongTypesOfArgs 0 (lit "OPC UA remote send handle") received)
    | .ok invocation => do
        validateDestinations registry 0 (destinations.zip operation.outputTypes)
        .ok { invocation, destinations, outputTypes := operation.description.outputTypes }

end RemoteOperation

end RttOpcua.Remote
