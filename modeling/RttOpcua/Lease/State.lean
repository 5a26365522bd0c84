import Mathlib.Algebra.Group.Nat.Defs
import RttOpcua.Lib.Threads

/-!
# Component leases: data

`ComponentState` and `ComponentLease` of `src/component_state.hpp`, the retained invocations and the
reaper of `OperationDispatcher` (`src/operation_dispatcher.cpp`), and the part of `ObjectModelImpl`
(`src/object_model.cpp`) that creates states and shuts them down.

Worker threads serve reads, writes and invocations and call `publishComponent`, `beginShutdown` and
`shutdown`; one more thread is the reaper. Objects on the heap are indexed by the order of creation.
-/

namespace RttOpcua.Lease

inductive Thread where
  | worker (n : Nat)
  | reaper
  deriving DecidableEq, Repr

/-- `ComponentState`; `component` names the RTT component that it points to. `admission_closed` is one
flag that the states of a model share. -/
structure ComponentState where
  component : Option Nat := none
  isActive : Bool := false
  users : Nat := 0
  deriving DecidableEq, Repr

/-- A `PendingInvocation`: its lease, the operation it waits for, and who refers to it (the local
pointer of `retainPending`, and the list of retained invocations or the pass that erases it). -/
structure PendingInvocation where
  lease : Option Nat := none
  operation : Nat := 0
  isLocal : Bool := false
  listed : Bool := false
  deriving DecidableEq, Repr

/-- `RTT::SendStatus`. -/
inductive SendStatus where
  | collectFailure
  | sendFailure
  | sendNotReady
  | sendSuccess
  deriving DecidableEq, Repr

/-- What `collectIfDone` of a handle does. A future that is not ready counts as `sendNotReady`. -/
inductive Collected where
  | status (s : SendStatus)
  | threw
  deriving DecidableEq, Repr

def Collected.done : Collected → Bool
  | .status .sendNotReady => false
  | _ => true

/-- An operation that an `invoke` started, on the component of a state. `finished`: its handle was seen
to be done, or its future to be ready. -/
structure Operation where
  state : Nat := 0
  finished : Bool := false
  deriving DecidableEq, Repr

/-- `std::once_flag`. -/
inductive Once where
  | idle
  | running (t : Thread)
  | done
  deriving DecidableEq, Repr

/-- The members that the threads share. `committed`, `swapped`, `drained` and `returned` are history:
the states that were ever committed to `components`, and how far `shutdown` came. -/
structure Shared where
  admissionClosed : Bool := false
  state : Nat → ComponentState := fun _ => {}
  nextState : Nat := 0
  commandMutex : Option Thread := none
  components : List Nat := []
  abandoned : List Nat := []
  shutdownOnce : Once := .idle
  mutex : Option Thread := none
  invocations : List Nat := []
  draining : Bool := false
  stopRequested : Bool := false
  reaperGone : Bool := false
  pending : Nat → PendingInvocation := fun _ => {}
  nextPending : Nat := 0
  operation : Nat → Operation := fun _ => {}
  nextOperation : Nat := 0
  committed : List Nat := []
  swapped : Bool := false
  drained : Bool := false
  returned : Bool := false

/-! ## Program points -/

/-- How `invoke` started the operation: through a send handle, or by a call in `std::async`. -/
inductive Started where
  | send
  | async
  deriving DecidableEq, Repr

/-- `reapOnce`: ask each invocation, erase those that are done. -/
inductive ReapPc where
  | scan (rest done : List Nat)
  | erase (done : List Nat)
  deriving DecidableEq, Repr

/-- `OperationDispatcher::Impl::drain`. -/
inductive DrainPc where
  | mark
  | join
  | lock
  | reap (pc : ReapPc)
  | test
  deriving DecidableEq, Repr

/-- `ObjectModelImpl::publishComponentInternal`, as far as it makes and closes a state. -/
inductive PublishPc where
  | lock (component : Nat)
  | check (component : Nat)
  | work (x : Nat)
  | deactivate (x : Nat)
  | await (x : Nat)
  | abandon (x : Nat)
  | unlock
  deriving DecidableEq, Repr

/-- `ObjectModelImpl::shutdown`. -/
inductive ShutdownPc where
  | close
  | once
  | swap
  | drain (pc : DrainPc) (closing : List Nat)
  | deactivate (closing : List Nat)
  | await (x : Nat) (closing : List Nat)
  | leave
  deriving DecidableEq, Repr

/-- `OperationDispatcher::Impl::runReaper`. -/
inductive ReaperPc where
  | asleep
  | awake
  | reap (pc : ReapPc)
  | gone
  deriving DecidableEq, Repr

/-- Where a thread is. `x` is the state of the lease on its stack, `o` the operation in progress, `p` the
pending invocation that a local pointer refers to. -/
inductive Pc where
  | idle
  | access (x : Nat)
  | build (x : Nat)
  | outputs (x o n : Nat)
  | check (x o : Nat)
  | ready (x o : Nat)
  | wait (k : Started) (x o : Nat)
  | late (k : Started) (x o : Nat)
  | retain (k : Started) (x o : Nat)
  | waitHere (k : Started) (x o : Nat)
  | leave (x : Nat)
  | push (p : Nat)
  | waitPending (p : Nat)
  | keep (p : Nat)
  | publish (pc : PublishPc)
  | beginShutdown
  | shutdown (pc : ShutdownPc)
  | reaper (pc : ReaperPc)
  deriving DecidableEq, Repr

/-- The state that the `ComponentLease` on the stack holds. -/
def Pc.lease : Pc → Option Nat
  | .access x => some x
  | .build x => some x
  | .outputs x _ _ => some x
  | .check x _ => some x
  | .ready x _ => some x
  | .wait _ x _ => some x
  | .late _ x _ => some x
  | .retain _ x _ => some x
  | .waitHere _ x _ => some x
  | .leave x => some x
  | _ => none

/-- The operation that an `invoke` has started and not seen finished. -/
def Pc.operation : Pc → Option Nat
  | .outputs _ o _ => some o
  | .check _ o => some o
  | .ready _ o => some o
  | .wait _ _ o => some o
  | .late _ _ o => some o
  | .retain _ _ o => some o
  | .waitHere _ _ o => some o
  | _ => none

/-- Where a lease can be: on the stack of a thread, or in a pending invocation. -/
inductive Place where
  | stack (t : Thread)
  | pending (p : Nat)
  deriving DecidableEq, Repr

/-- The valid lease at a place. -/
def leaseAt (c : Lib.Config Thread Shared Pc) : Place → Option Nat
  | .stack t => (c.frame t).lease
  | .pending p => (c.shared.pending p).lease

end RttOpcua.Lease
