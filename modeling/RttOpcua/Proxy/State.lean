import RttOpcua.Basic
import RttOpcua.Lib.Threads

/-!
# The proxy: data

`TaskContextProxy` (`src/task_context_proxy.cpp`), the flags and the requests of its `ClientSession`
(`src/client_session.cpp`), and its port adapters (`src/remote_port.cpp`).

Any number of application threads call the proxy and its mirrored interface; one more thread pumps
the ports. Thread `app 0` runs `create`, and the others call the proxy once `create` has returned it.
Adapters are indexed by the order of creation, samples by the order in which they are first read.
-/

namespace RttOpcua.Proxy

inductive Thread where
  | app (n : Nat)
  | pump
  deriving DecidableEq, Repr

inductive ProxyConnectionState where
  | disconnected
  | connecting
  | connected
  | stale
  deriving DecidableEq, Repr

inductive PortDirection where
  | input
  | output
  deriving DecidableEq, Repr

/-- The identity of a `RemotePortDescription`. -/
structure PortDescription where
  name : Str
  typeName : Str
  servicePath : List Str
  direction : PortDirection
  deriving DecidableEq, Repr

/-- `RemotePortAdapter`: its description and the samples that are not delivered yet. -/
structure RemotePortAdapter where
  description : PortDescription := ⟨[], [], [], .input⟩
  pendingInputSource : Option Nat := none
  pendingInput : Option Nat := none
  pendingOutput : Option Nat := none
  deriving DecidableEq, Repr

namespace RemotePortAdapter

variable (x y : RemotePortAdapter)

def hasPendingState : Bool :=
  x.pendingInputSource.isSome || x.pendingInput.isSome || x.pendingOutput.isSome

def hasSameIdentity : Bool :=
  x.description.name = y.description.name && x.description.typeName = y.description.typeName &&
    x.description.servicePath = y.description.servicePath && x.description.direction = y.description.direction

/-- What tells the ports of a server apart: `discoverServices` and `discoverPorts` reject duplicate names. -/
def key : List Str × Str := (x.description.servicePath, x.description.name)

def discardPendingState : RemotePortAdapter :=
  { x with pendingInputSource := none, pendingInput := none, pendingOutput := none }

/-- The swaps of `transferPendingStateTo`: `x` with the pending state of `y`. -/
def withPendingStateOf : RemotePortAdapter :=
  { x with pendingInputSource := y.pendingInputSource, pendingInput := y.pendingInput, pendingOutput := y.pendingOutput }

end RemotePortAdapter

/-! ## Requests -/

/-- The requests of `ClientSession` on behalf of the mirrored interface. -/
inductive Request where
  | readValue
  | writeValue
  | readPortValue
  | writePortValue
  | call
  | callOperation
  deriving DecidableEq, Repr

/-- The bad `StatusCode`s that the session tells apart. -/
inductive StatusCode where
  | nodeIdInvalid
  | nodeIdUnknown
  | notFound
  | methodInvalid
  | sessionIdInvalid
  | sessionClosed
  | sessionNotActivated
  | secureChannelIdInvalid
  | secureChannelClosed
  | secureChannelTokenUnknown
  | connectionRejected
  | connectionClosed
  | serverNotConnected
  | notConnected
  | communicationError
  | timeout
  | typeMismatch
  | invalidArgument
  | waitingForInitialData
  | other (code : Nat)
  deriving DecidableEq, Repr

def invalidatesInterface : StatusCode → Bool
  | .waitingForInitialData => false
  | .other _ => false
  | _ => true

/-- What comes of a request on the wire: a good status, a bad one and whether the client still is
connected, or a `std::exception`. -/
inductive Reply where
  | good
  | bad (status : StatusCode) (isConnected : Bool)
  | threw
  deriving DecidableEq, Repr

/-- What a request returns. `waiting` is a port that has no data yet. -/
inductive Answer where
  | ok
  | waiting
  | failed
  deriving DecidableEq, Repr

namespace Request

/-- `callOperation` is the only request that does not look at `interface_access_enabled_`. -/
def requiresInterfaceAccess : Request → Bool
  | .callOperation => false
  | _ => true

/-- When a request calls `invalidateInterfaceLocked`. -/
def invalidates : Request → Reply → Bool
  | _, .good => false
  | _, .threw => true
  | .readPortValue, .bad status isConnected =>
      status ≠ .waitingForInitialData &&
        (status ≠ .notConnected && invalidatesInterface status || !isConnected)
  | .writePortValue, .bad status isConnected =>
      status ≠ .notConnected && invalidatesInterface status || !isConnected
  | _, .bad status isConnected => invalidatesInterface status || !isConnected

def answer : Request → Reply → Answer
  | _, .good => .ok
  | .readPortValue, .bad .waitingForInitialData _ => .waiting
  | _, _ => .failed

end Request

/-- The two flags at the start of a call: where a request looks at `interface_access_enabled_`, and
where a lifecycle call looks at `interface_ready`. -/
structure Start where
  ready : Bool := false
  access : Bool := false
  deriving DecidableEq, Repr

/-! ## Shared state -/

/-- The members that the threads share. `mirror` is the staging that the RTT services mirror. `enabled`,
`shut` and `invalidated` are history: access was enabled and no control call has begun to disable it
since; it was disabled for good under `mutex_`; an invalidation has completed and no `synchronize` has
enabled access since. -/
structure Shared where
  created : Bool := false
  synchronizeMutex : Option Thread := none
  interfaceReady : Bool := false
  interfaceStale : Bool := false
  mirror : Option Nat := none
  nextMirror : Nat := 0
  mutex : Option Thread := none
  interfaceAccessEnabled : Bool := false
  state : ProxyConnectionState := .disconnected
  client : Bool := false
  portAdapters : List Nat := []
  portsPaused : Bool := true
  portsPumping : Bool := false
  stopRequested : Bool := false
  pumpGone : Bool := false
  adapter : Nat → RemotePortAdapter := fun _ => {}
  nextAdapter : Nat := 0
  nextSample : Nat := 0
  enabled : Bool := false
  shut : Bool := false
  invalidated : Bool := false

/-! ## Program points -/

/-- A request of `ClientSession`: take `mutex_`, look at the access flag and at the state, send, treat the
reply. `disable` and `stale` are the two stores of `invalidateInterfaceLocked`. -/
inductive RequestPc where
  | lock (start : Start)
  | access
  | state (start : Start)
  | send (start : Start)
  | reply
  | disable
  | stale
  | unlock (r : Answer)
  deriving DecidableEq, Repr

/-- `markInterfaceStale`. The two `disable` points are the stores of `setInterfaceAccessEnabled(false)`,
before and under `mutex_`. -/
inductive StalePc where
  | mark
  | disable
  | disableLocked
  | pause
  | pauseWait
  | adapters
  | discard (rest : List Nat)
  deriving DecidableEq, Repr

/-- `ClientSession::connect`. -/
inductive ConnectPc where
  | lock
  | start
  | dial
  | unlock (ok : Bool)
  deriving DecidableEq, Repr

/-- A discovery request of `ClientSession`. -/
inductive DiscoverPc where
  | lock
  | state
  | send
  | reply
  | unlock (ok : Bool)
  deriving DecidableEq, Repr

/-- What `stageRemoteService` has built: its number and its port adapters. -/
structure Staged where
  mirror : Nat
  ports : List Nat
  deriving DecidableEq, Repr

/-- `TaskContextProxy::synchronize`; `entry` is `entry_session_state`, `restore` is
`can_restore_existing_interface`. -/
inductive SyncPc where
  | lock
  | context
  | disable
  | disableLocked
  | pause
  | pauseWait
  | entry
  | test (entry : ProxyConnectionState)
  | mark (pc : StalePc) (entry : ProxyConnectionState)
  | restorable (entry : ProxyConnectionState)
  | connect (pc : ConnectPc) (restore : Bool)
  | stage (restore : Bool)
  | discover (pc : DiscoverPc) (restore : Bool)
  | canReplace (staged : Staged) (restore : Bool)
  | connected
  | enable
  | unready (staged : Staged)
  | install (staged : Staged)
  | replace (staged : Staged)
  | ready
  | enableFresh
  | fresh
  | fail (pc : StalePc)
  | resume (r : Bool)
  | unlock (r : Bool)
  deriving DecidableEq, Repr

/-- `invokeOperation`, `invokeVoidOperation` and `invokeTaskStateOperation`. -/
inductive LifecyclePc where
  | lock
  | ready
  | stale (start : Start)
  | call (pc : RequestPc)
  | result
  | mark (pc : StalePc)
  | unlock
  deriving DecidableEq, Repr

/-- `RemotePortAdapter::pump`. -/
inductive AdapterPc where
  | input
  | encode
  | write (pc : RequestPc)
  | output
  | read (pc : RequestPc)
  | decode
  | deliver
  deriving DecidableEq, Repr

/-- `pumpPorts`. -/
inductive PumpPc where
  | wait
  | next (rest : List Nat)
  | pump (pc : AdapterPc) (x : Nat) (rest : List Nat)
  | interval
  | gone
  deriving DecidableEq, Repr

/-- Where a thread is. `creating`: this `synchronize` is the one of `create`. `gone`: `create` has failed
and the proxy is destroyed. -/
inductive Pc where
  | idle
  | create (pc : ConnectPc)
  | sync (pc : SyncPc) (creating : Bool)
  | lifecycle (pc : LifecyclePc)
  | request (k : Request) (pc : RequestPc)
  | stop
  | join
  | pump (pc : PumpPc)
  | gone
  deriving DecidableEq, Repr

/-- The session request that a thread is in, outside `synchronize`. -/
def Pc.inRequest : Pc → Option (Request × RequestPc)
  | .lifecycle (.call pc) => some (.callOperation, pc)
  | .request k pc => some (k, pc)
  | .pump (.pump (.write pc) _ _) => some (.writePortValue, pc)
  | .pump (.pump (.read pc) _ _) => some (.readPortValue, pc)
  | _ => none

/-- The thread is about to put a request on the wire; how the call started. -/
def Pc.sending (l : Pc) : Option Start :=
  match l.inRequest with
  | some (_, .send start) => some start
  | _ => none

/-- The thread is between the two stores of `invalidateInterfaceLocked`. -/
def Pc.invalidating (l : Pc) : Bool :=
  match l.inRequest with
  | some (_, .stale) => true
  | _ => false

/-- The `markInterfaceStale` that a thread is in. -/
def Pc.inStale : Pc → Option StalePc
  | .sync (.mark pc _) _ => some pc
  | .sync (.fail pc) _ => some pc
  | .lifecycle (.mark pc) => some pc
  | _ => none

/-- The next step completes `invalidateInterfaceLocked` or `markInterfaceStale`. -/
def Pc.completesInvalidation (l : Pc) : Bool :=
  l.invalidating || l.inStale == some (.discard [])

/-- The next step is the first store of `markInterfaceFresh`. -/
def Pc.refreshes : Pc → Bool
  | .sync .enableFresh _ => true
  | _ => false

/-- A `synchronize` that has reached `markInterfaceFresh`. -/
def Pc.succeeds : Pc → Bool
  | .sync .fresh _ => true
  | .sync (.resume true) _ => true
  | .sync (.unlock true) _ => true
  | _ => false

end RttOpcua.Proxy
