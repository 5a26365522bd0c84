import RttOpcua.Basic

/-!
# The server: data

`Server::Impl` of `src/server.cpp`: its members, the queued tasks, and where each thread is in the
code. Application threads and the server threads (one for each run that `start` begins) share the
members; a thread's frame says which call it is in and at which statement.

Names of program points follow the statements of the source. A section of a mutex that touches only
what the mutex protects, with at most one atomic access, is one point; everything another thread can
see in between is a point of its own.
-/

namespace RttOpcua.Server

/-- `std::thread::id`: an application thread, or the server thread of the `r`-th run. An id names one
thread for ever: `run` clears `server_thread_id` before its thread ends, so a reused id is never
compared with it. -/
inductive Tid where
  | app (n : Nat)
  | run (r : Nat)
  deriving DecidableEq, Repr

/-- `ServerState`. -/
inductive ServerState where
  | stopped
  | starting
  | running
  | stopping
  | failed
  deriving DecidableEq, Repr

/-- The states that `requestStop` turns into `stopping`. -/
@[grind]
def ServerState.up : ServerState → Bool
  | .running => true
  | .starting => true
  | _ => false

/-- `QueuedTaskState`. -/
inductive QueuedTaskState where
  | queued
  | running
  | cancelled
  deriving DecidableEq, Repr

/-- `Completion`; the condition variable has no state of its own. -/
structure Completion where
  mutex : Option Tid := none
  done : Bool := false
  error : Str := []
  deriving DecidableEq, Repr

/-- `QueuedTask`. The callback is user code; `post` leaves the completion null. -/
structure QueuedTask where
  completion : Option Completion := none
  state : QueuedTaskState := .queued
  deriving DecidableEq, Repr

/-- An exception in flight: a `std::exception` with its `what()`, or anything else. -/
inductive Exception where
  | std (what : Str)
  | other
  deriving DecidableEq, Repr

/-- How a callback ends. -/
inductive Outcome where
  | returned
  | threw (e : Exception)
  deriving DecidableEq, Repr

/-- `exceptionMessage`. -/
def exceptionMessage : Outcome → Str
  | .returned => []
  | .threw (.std what) => what
  | .threw .other => lit "unknown server task exception"

/-- The end of the inline path of `invoke`: after the task has returned, and in its handler. -/
def inlineResult : Outcome → Bool × Str
  | .returned => (true, [])
  | .threw e => (false, exceptionMessage (.threw e))

/-- The end of the queued path, from the error of the completion. -/
def queuedResult (error : Str) : Bool × Str := (error.isEmpty, error)

/-! ## History

What has become of every task and of every run so far. The actions write it and never read it. -/

/-- Which thread can still reach a task. -/
inductive Owner where
  | queue
  | held (t : Tid)
  | current (t : Tid)
  | gone
  deriving DecidableEq, Repr

/-- What an `invoke` call returned: the timeout of a queued task, or the result with its error. -/
inductive InvokeReturn where
  | timedOut
  | completed (ok : Bool) (error : Str)
  deriving DecidableEq, Repr

@[grind]
def InvokeReturn.of (result : Bool × Str) : InvokeReturn := .completed result.1 result.2

/-- The result of `invoke`. -/
def InvokeReturn.ok : InvokeReturn → Bool
  | .timedOut => false
  | .completed ok _ => ok

/-- The history of a task: the run that was the newest when it was accepted, how often its callback
began and ended, in which run and how, and what its `invoke` returned. -/
structure TaskHistory where
  owner : Owner := .gone
  accepted : Nat := 0
  begun : Nat := 0
  ended : Nat := 0
  executedBy : Option Nat := none
  outcome : Option Outcome := none
  returned : Option InvokeReturn := none
  deriving DecidableEq, Repr

/-- The history of a run: how often it entered `running`, whether it was asked to stop (and before it
had entered `running`), whether its startup timed out, and what the `start` that began it returned. -/
structure RunHistory where
  entered : Nat := 0
  asked : Bool := false
  askedEarly : Bool := false
  timedOut : Bool := false
  returned : Option Bool := none
  deriving DecidableEq, Repr

/-! ## The members -/

/-- The members of `Server::Impl`. `nativeServer` and `typeRegistry` name the run that made them. The
heap of queued tasks is `task`, indexed by the order of creation. -/
structure Shared where
  currentState : ServerState := .stopped
  stopRequested : Bool := false
  currentError : Str := []
  transitionMutex : Option Tid := none
  lifecycleMutex : Option Tid := none
  serverThread : Option Nat := none
  serverThreadId : Option Nat := none
  typeRegistry : Option Nat := none
  nativeServer : Option Nat := none
  tasks : List Nat := []
  task : Nat → QueuedTask := fun _ => {}
  nextTask : Nat := 0
  runs : Nat := 0
  exited : Nat → Bool := fun _ => false
  taskHistory : Nat → TaskHistory := fun _ => {}
  runHistory : Nat → RunHistory := fun _ => {}

/-- The thread of run `r` exists: it was created and has not ended. -/
@[grind]
def Shared.Alive (s : Shared) (r : Nat) : Prop := r < s.runs ∧ s.exited r = false

/-! ## Program points -/

/-- `Server::Impl::start`. After the thread is created the points carry its run. -/
inductive StartPc where
  | lockTransition
  | validate
  | setFailure
  | lockLifecycle
  | check
  | joinStale (r : Nat)
  | relock
  | reset
  | clear
  | spawn
  | test (r : Nat)
  | wait (r : Nat)
  | deadline (r : Nat)
  | expireState (r : Nat)
  | expireFlag (r : Nat)
  | result (r : Nat)
  | joinFailed (r : Nat) (handle : Nat)
  | copyError (run : Option Nat) (ok : Bool)
  | leave (run : Option Nat) (ok : Bool) (error : Str)
  deriving DecidableEq, Repr

/-- `Server::Impl::requestStop`. -/
inductive RequestStopPc where
  | lock
  | flag
  | load
  | store
  | unlock
  deriving DecidableEq, Repr

/-- `Server::Impl::stop`, which calls `requestStop` and `failPendingTasks`. -/
inductive StopPc where
  | lockTransition
  | request (pc : RequestStopPc)
  | lockLifecycle
  | check
  | flag (before : ServerState)
  | store
  | self
  | join (r : Nat)
  | failPending
  | complete (pending : List Nat)
  | storeStopped
  | leave
  deriving DecidableEq, Repr

/-- `Server::Impl::enqueue`. -/
inductive PostPc where
  | load
  | push
  deriving DecidableEq, Repr

/-- `Server::Impl::invoke`. -/
inductive InvokePc where
  | check
  | thread
  | push
  | wait (q : Nat)
  | cancel (q : Nat)
  | waitDone (q : Nat)
  deriving DecidableEq, Repr

/-- A call of the interface in progress. A `Task` is user code that may be empty: only whether it can
be called is data. -/
inductive Call where
  | start (pc : StartPc)
  | requestStop (pc : RequestStopPc)
  | stop (pc : StopPc)
  | post (callable : Bool) (pc : PostPc)
  | invoke (callable : Bool) (timeout : Int) (pc : InvokePc)
  deriving DecidableEq, Repr

/-- The two `drainTasks` of `run`: in the loop, and after it. -/
inductive Phase where
  | loop
  | final
  deriving DecidableEq, Repr

/-- The two ends of `run`: the normal one, and the handler of an exception with its message. -/
inductive Exit where
  | normal
  | failed (why : Str)
  deriving DecidableEq, Repr

/-- The error that `failPendingTasks` gives to the tasks it completes. -/
def Exit.error : Exit → Str
  | .normal => lit "OPC UA server stopped"
  | .failed _ => lit "OPC UA server failed"

/-- `Server::Impl::run` with `drainTasks` and `failPendingTasks`. User code runs at `callback` and at
`iterate` (callbacks of the native server); `inline` are the tasks of the `invoke` calls that this
user code has made and that run their callback on the spot, innermost first. -/
inductive RunPc where
  | unborn
  | setup
  | publishRegistry
  | firstIterate
  | readyLock
  | readyCheck
  | readyStore
  | readyUnlock
  | loopTest
  | drain (ph : Phase)
  | exec (ph : Phase) (pending : List Nat)
  | callback (ph : Phase) (q : Nat) (pending : List Nat) (inline : List Nat)
  | finish (ph : Phase) (q : Nat) (pending : List Nat) (error : Str)
  | iterate (inline : List Nat)
  | nativeStop
  | nativeReset
  | registryReset
  | failReset (why : Str)
  | failRegistry (why : Str)
  | failPending (exit : Exit)
  | completeAll (exit : Exit) (pending : List Nat)
  | storeStopped
  | setFailure (why : Str)
  | clearId
  | exited
  deriving DecidableEq, Repr

/-- The tasks that user code of the server thread runs inline. -/
def RunPc.inline : RunPc → Option (List Nat)
  | .callback _ _ _ inl => some inl
  | .iterate inl => some inl
  | _ => none

/-- The same point with another list of inline tasks. -/
def RunPc.setInline (inl : List Nat) : RunPc → RunPc
  | .callback ph q pending _ => .callback ph q pending inl
  | .iterate _ => .iterate inl
  | pc => pc

/-- A thread's frame: the call it is in, and for a server thread the point of `run`. Application
threads stay at `unborn`. -/
structure Frame where
  pc : RunPc := .unborn
  call : Option Call := none
  deriving DecidableEq, Repr

end RttOpcua.Server
