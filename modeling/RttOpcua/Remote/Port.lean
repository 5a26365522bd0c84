import RttOpcua.Remote.Access

/-!
# Samples of ports

The values of port nodes on the server (`src/port_bridge.cpp` and two classes of `src/object_model.cpp`), and
`RemotePortAdapter` of `src/remote_port.cpp`, which carries samples between them and a mirrored port. The codec is given
by its methods, the ports of RTT by what they answer.
-/

namespace RttOpcua.Remote

open RttOpcua.Lib RttOpcua.Model RttOpcua.Values

/-! ## Ports of RTT -/

/-- What RTT answers to the write of a sample. An exception has a text if it is a `std::exception`, and the sample may
have come in before it. -/
inductive PortWrite where
  | WriteSuccess
  | WriteFailure
  | NotConnected
  | threw (arrives : Bool) (what : Option Str)
  deriving DecidableEq, Repr

/-- Whether the sample comes in. -/
def PortWrite.arrives : PortWrite → Bool
  | .WriteSuccess => true
  | .threw arrives _ => arrives
  | _ => false

/-- What a mirrored input port has for the pump: no connection, no value to read into, nothing new, a sample, or an
exception. -/
inductive LocalRead (T : Type) where
  | notConnected
  | noValue
  | noData
  | newData (sample : T)
  | threw (what : Option Str)
  deriving DecidableEq, Repr

/-! ## The server -/

/-- The status codes of the values of ports. -/
inductive PortStatus where
  | Good
  | BadIndexRangeInvalid
  | BadTypeMismatch
  | BadNotConnected
  | BadWaitingForInitialData
  | BadResourceUnavailable
  | BadUnexpectedError
  | BadNotWritable
  deriving DecidableEq, Repr

/-- The codes as the session tells them apart. -/
def PortStatus.code : PortStatus → Proxy.StatusCode
  | .BadTypeMismatch => .typeMismatch
  | .BadNotConnected => .notConnected
  | .BadWaitingForInitialData => .waitingForInitialData
  | .BadIndexRangeInvalid => .other 0x80360000
  | .BadResourceUnavailable => .other 0x80040000
  | .BadUnexpectedError => .other 0x80010000
  | .BadNotWritable => .other 0x803B0000
  | .Good => .other 0

section Server

variable {T X : Type}

/-- `PortBridge`: whether its peer is an output port with a type, and the codec of the type. -/
structure PortBridge (T X : Type) where
  output : Bool
  codec : Option (Methods T X)

/-- `write`: the status, and the sample that comes in at the port of the component. -/
def PortBridge.write (bridge : PortBridge T X) (encoded : X) (answer : PortWrite) : PortStatus × Option T :=
  if ¬ bridge.output then (.BadNotConnected, none)
  else
    match bridge.codec.bind fun codec => codec.makeDataSource encoded with
    | none => (.BadTypeMismatch, none)
    | some sample =>
        let status : PortStatus := match answer with
          | .WriteSuccess => .Good
          | .NotConnected => .BadNotConnected
          | .WriteFailure => .BadResourceUnavailable
          | .threw _ _ => .BadUnexpectedError
        (status, if answer.arrives then some sample else none)

structure InputPortValueDataSource (T X : Type) where
  bridge : Option (PortBridge T X)
  lastValue : Option X := none

namespace InputPortValueDataSource

variable (node : InputPortValueDataSource T X)

def read (range lease : Bool) : Except PortStatus X :=
  if range then .error .BadIndexRangeInvalid
  else if ¬ lease ∨ node.bridge.isNone then .error .BadNotConnected
  else
    match node.lastValue with
    | none => .error .BadWaitingForInitialData
    | some value => .ok value

/-- `write`, with the sample that comes in. -/
def write (range : Bool) (value : Option X) (lease : Bool) (answer : PortWrite) :
    InputPortValueDataSource T X × PortStatus × Option T :=
  if range then (node, .BadIndexRangeInvalid, none)
  else
    match value with
    | none => (node, .BadTypeMismatch, none)
    | some value =>
        match lease, node.bridge with
        | true, some bridge =>
            let written := bridge.write value answer
            (if written.1 = .Good then { node with lastValue := some value } else node, written)
        | _, _ => (node, .BadNotConnected, none)

end InputPortValueDataSource

/-- `OutputPortValueDataSource`, without the port. -/
structure OutputPortValueDataSource (T X : Type) where
  codec : Option (Methods T X)

/-- `read`, when `port` is what the port has written last; a port that is null is none. -/
def OutputPortValueDataSource.read (node : OutputPortValueDataSource T X) (range lease : Bool)
    (port : Option (Option T)) : Except PortStatus X :=
  if range then .error .BadIndexRangeInvalid
  else if ¬ lease ∨ port.isNone then .error .BadNotConnected
  else
    match node.codec with
    | none => .error .BadTypeMismatch
    | some codec =>
        match codec.portValue port with
        | .value encoded => .ok encoded
        | .waitingForInitialData => .error .BadWaitingForInitialData
        | .error => .error .BadTypeMismatch

/-- What a client gets of a read or a write that the server answers so. -/
def PortStatus.respond (statusName : PortStatus → Str) {A : Type} (served : Except PortStatus A) (isConnected : Bool) :
    Response A :=
  match served with
  | .ok a => .good a
  | .error status => .bad status.code (statusName status) isConnected

end Server

/-! ## The client -/

/-- `RemotePortAdapter`, without its session and its port. -/
structure RemotePortAdapter (T X : Type) where
  description : Proxy.PortDescription
  pendingInputSource : Option T := none
  pendingInput : Option X := none
  pendingOutput : Option T := none
  lastError : Str := []
  deriving DecidableEq, Repr

namespace RemotePortAdapter

variable {T X σ : Type} (x : RemotePortAdapter T X) (codec : Methods T X)

def setError (error : Str) : RemotePortAdapter T X := { x with lastError := error }

def clearError : RemotePortAdapter T X := { x with lastError := [] }

/-- What `pump` says of an exception. -/
def pumpError (what : Option Str) : Str :=
  match what with
  | some what => lit "remote port '" ++ x.description.name ++ lit "' pump failed: " ++ what
  | none => lit "remote port '" ++ x.description.name ++ lit "' pump failed with an unknown error"

def hasPendingState : Bool :=
  x.pendingInputSource.isSome || x.pendingInput.isSome || x.pendingOutput.isSome

def hasSameIdentity (y : RemotePortAdapter T X) : Bool := x.description = y.description

/-- `transferPendingStateTo`: both adapters afterwards, if they are of one port. The error moves along. -/
def transferPendingStateTo (y : RemotePortAdapter T X) : Option (RemotePortAdapter T X × RemotePortAdapter T X) :=
  if ¬ x.hasSameIdentity y then none
  else some
    ({ x with
        pendingInputSource := y.pendingInputSource
        pendingInput := y.pendingInput
        pendingOutput := y.pendingOutput
        lastError := [] },
      { y with
        pendingInputSource := x.pendingInputSource
        pendingInput := x.pendingInput
        pendingOutput := x.pendingOutput
        lastError := x.lastError })

/-- The adapter that `synchronize` makes for the port takes over what is pending. -/
def replaced : RemotePortAdapter T X :=
  match x.transferPendingStateTo { description := x.description } with
  | none => x
  | some (_, replacement) => replacement

def discardPendingState : RemotePortAdapter T X := { description := x.description }

/-! ### Input ports -/

/-- A new sample is read if none is pending; whether the pump goes on. -/
def takeInput (input : LocalRead T) : RemotePortAdapter T X × Bool :=
  if x.pendingInputSource.isSome ∨ x.pendingInput.isSome then (x, true)
  else
    match input with
    | .newData sample => ({ x with pendingInputSource := some sample }, true)
    | .threw what => (x.setError (x.pumpError what), false)
    | _ => (x, false)

def encodeInput : RemotePortAdapter T X × Bool :=
  if x.pendingInput.isSome then (x, true)
  else
    match codec.toVariant x.pendingInputSource with
    | none =>
        (x.setError (lit "failed to encode pending sample for remote input port '" ++ x.description.name ++ lit "'"),
          false)
    | some encoded => ({ x with pendingInput := some encoded, pendingInputSource := none }, true)

def sendInput (session : ClientSession) (wire : X → σ → Response Unit × σ) (far : σ) :
    RemotePortAdapter T X × ClientSession × σ :=
  match x.pendingInput with
  | none => (x, session, far)
  | some encoded =>
      match session.writePortValue (wire encoded) far with
      | (.value _, session, far) => ({ x with pendingInput := none, lastError := [] }, session, far)
      | (_, session, far) => (x.setError session.lastError, session, far)

/-- What `pumpInput` does before its request; whether there is one. -/
def prepareInput (input : LocalRead T) : RemotePortAdapter T X × Bool :=
  match x.takeInput input with
  | (x, false) => (x, false)
  | (x, true) => x.encodeInput codec

def pumpInput (input : LocalRead T) (session : ClientSession) (wire : X → σ → Response Unit × σ) (far : σ) :
    RemotePortAdapter T X × ClientSession × σ :=
  match x.prepareInput codec input with
  | (x, false) => (x, session, far)
  | (x, true) => x.sendInput session wire far

/-! ### Output ports -/

/-- The pending sample goes to the mirrored port: the adapter, and the sample that comes in there. -/
def writeOutput (answer : PortWrite) : RemotePortAdapter T X × Option T :=
  let failed (status : Str) : Str :=
    lit "local mirror for remote output port '" ++ x.description.name ++ lit "' returned " ++ status
  let after := match answer with
    | .WriteSuccess => { x with pendingOutput := none, lastError := [] }
    | .NotConnected => x.setError (failed (lit "NotConnected"))
    | .WriteFailure => x.setError (failed (lit "WriteFailure"))
    | .threw _ what => x.setError (x.pumpError what)
  (after, if answer.arrives then x.pendingOutput else none)

/-- What `pumpOutput` does before it writes; whether there is a sample to write. -/
def fetchOutput (session : ClientSession) (wire : σ → Response X × σ) (far : σ) :
    (RemotePortAdapter T X × Bool) × ClientSession × σ :=
  if x.pendingOutput.isSome then ((x, true), session, far)
  else
    match session.readPortValue wire far with
    | (.waiting, session, far) => ((x.clearError, false), session, far)
    | (.failed error, session, far) => ((x.setError error, false), session, far)
    | (.value encoded, session, far) =>
        match codec.makeDataSource encoded with
        | none =>
            ((x.setError (lit "failed to decode sample from remote output port '" ++ x.description.name ++ lit "'"),
              false), session, far)
        | some sample => (({ x with pendingOutput := some sample }, true), session, far)

/-- `pumpOutput`, with the sample that comes in at the mirrored port. -/
def pumpOutput (connected : Bool) (answer : PortWrite) (session : ClientSession) (wire : σ → Response X × σ) (far : σ) :
    (RemotePortAdapter T X × Option T) × ClientSession × σ :=
  if ¬ connected then ((x, none), session, far)
  else
    match x.fetchOutput codec session wire far with
    | ((x, false), session, far) => ((x, none), session, far)
    | ((x, true), session, far) => (x.writeOutput answer, session, far)

end RemotePortAdapter

end RttOpcua.Remote
