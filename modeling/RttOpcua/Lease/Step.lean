import RttOpcua.Lease.State

/-!
# Component leases: actions

One atomic action for each program point. A section of a mutex is one action where nothing in it can
wait; `deactivate` is two, because its wait gives the mutex back.
-/

namespace RttOpcua.Lease

open RttOpcua.Lib

/-- The calls of the model: a read or a write of a value, `OperationDispatcher::invoke`, and the
interface of `ObjectModelImpl`. -/
inductive Api where
  | access (x : Nat)
  | invoke (x : Nat)
  | publish (component : Nat)
  | beginShutdown
  | shutdown
  deriving DecidableEq, Repr

/-- What the code does not decide: which call comes next, whether a step returns early or throws,
whether the deadline has passed, how the operation is started and with how many outputs, and what its
handle says. -/
inductive Choice where
  | go
  | call (api : Api)
  | early
  | raise
  | deadline
  | send (outputs : Nat)
  | async
  | collected (r : Collected)
  deriving DecidableEq, Repr

namespace Shared

variable (s : Shared)

def modifyState (x : Nat) (f : ComponentState → ComponentState) : Shared :=
  { s with state := Function.update s.state x (f (s.state x)) }

def modifyPending (p : Nat) (f : PendingInvocation → PendingInvocation) : Shared :=
  { s with pending := Function.update s.pending p (f (s.pending p)) }

/-- The test of `ComponentLease`'s constructor. -/
def grants (x : Nat) : Bool :=
  !s.admissionClosed && (s.state x).isActive && (s.state x).component.isSome

/-- `++users`. -/
def acquire (x : Nat) : Shared := s.modifyState x fun k => { k with users := k.users + 1 }

/-- `ComponentLease::release`. `users` is a `std::size_t`: below zero it wraps. -/
def release (x : Nat) : Shared :=
  s.modifyState x fun k => { k with users := if k.users = 0 then 2 ^ 64 - 1 else k.users - 1 }

/-- The last reference to a pending invocation is gone: its lease is released. -/
def destroyPending (p : Nat) : Shared :=
  match (s.pending p).lease with
  | some x => (s.release x).modifyPending p fun k => { k with lease := none }
  | none => s

/-- The local pointer of `retainPending` goes out of scope. -/
def dropLocal (p : Nat) : Shared :=
  let s' := s.modifyPending p fun k => { k with isLocal := false }
  if (s.pending p).listed then s' else s'.destroyPending p

/-- An erased element of `invocations` is destroyed. -/
def dropListed (p : Nat) : Shared :=
  let s' := s.modifyPending p fun k => { k with listed := false }
  if (s.pending p).isLocal then s' else s'.destroyPending p

/-- The operation starts. -/
def startOperation (x : Nat) : Shared :=
  { s with
    operation := Function.update s.operation s.nextOperation { state := x }
    nextOperation := s.nextOperation + 1 }

/-- What a handle or a future says is taken down. -/
def collect (o : Nat) (r : Collected) : Shared :=
  if r.done then
    { s with operation := Function.update s.operation o { s.operation o with finished := true } }
  else s

end Shared

/-! ## `reapOnce` -/

/-- The pass holds `mutex`; it ends in `none`. -/
def reapAction (a : Choice) (s : Shared) : ReapPc → Option (Shared × Option ReapPc)
  | .scan (p :: rest) done =>
      match a with
      | .collected r =>
          some (s.collect (s.pending p).operation r, some (.scan rest (if r.done then done ++ [p] else done)))
      | _ => none
  | .scan [] done =>
      some ({ s with invocations := s.invocations.filter fun p => p ∉ done }, some (.erase done))
  | .erase (p :: done) => some (s.dropListed p, some (.erase done))
  | .erase [] => some (s, none)

/-! ## Reads, writes and invocations -/

/-- The `ComponentLease` of a read, a write or an invocation. -/
def enterAction (s : Shared) (x : Nat) (pc : Pc) : Shared × Pc :=
  if s.grants x then (s.acquire x, pc) else (s, .idle)

def invokeAction (a : Choice) (s : Shared) : Pc → Option (Shared × Pc)
  | .access x => some (s.release x, .idle)
  | .build x =>
      match a with
      | .send n => some (s.startOperation x, .outputs x s.nextOperation n)
      | .async => some (s.startOperation x, .wait .async x s.nextOperation)
      | _ => some (s, .leave x)
  -- After `caller.send()`: a value for each output, then `check` and `ready` of the handle.
  | .outputs x o n =>
      match a, n with
      | .early, _ => some (s, .leave x)
      | .raise, _ => some (s, .leave x)
      | _, n + 1 => some (s, .outputs x o n)
      | _, 0 => some (s, .check x o)
  | .check x o =>
      match a with
      | .raise => some (s, .leave x)
      | _ => some (s, .ready x o)
  | .ready x o =>
      match a with
      | .early => some (s, .leave x)
      | .raise => some (s, .leave x)
      | _ => some (s, .wait .send x o)
  | .wait k x o =>
      match a with
      | .collected r => some (s.collect o r, if r.done then .leave x else .late k x o)
      | _ => none
  | .late k x o => some (s, if a = .deadline then .retain k x o else .wait k x o)
  | .retain k x o =>
      match a with
      | .raise => some (s, .waitHere k x o)
      | _ =>
          some ({ s with
              pending := Function.update s.pending s.nextPending { lease := some x, operation := o, isLocal := true }
              nextPending := s.nextPending + 1 }, .push s.nextPending)
  | .waitHere k x o =>
      match a with
      | .collected r => some (s.collect o r, if r.done then .leave x else .waitHere k x o)
      | _ => none
  | .leave x => some (s.release x, .idle)
  | .push p =>
      if s.mutex ≠ none then none
      else if s.draining ∨ a = .raise then some (s, .waitPending p)
      else
        some (({ s with invocations := s.invocations ++ [p] } : Shared).modifyPending p
          fun k => { k with listed := true }, .keep p)
  | .waitPending p =>
      match a with
      | .collected r =>
          some (s.collect (s.pending p).operation r, if r.done then .keep p else .waitPending p)
      | _ => none
  | .keep p => some (s.dropLocal p, .idle)
  | _ => none

/-! ## `publishComponentInternal` -/

def publishAction (t : Thread) (a : Choice) (s : Shared) : PublishPc → Option (Shared × Option PublishPc)
  | .lock component =>
      if s.commandMutex = none then some ({ s with commandMutex := some t }, some (.check component)) else none
  | .check component =>
      if s.admissionClosed ∨ a = .early then some (s, some .unlock)
      else
        some ({ s with
            state := Function.update s.state s.nextState { component := some component, isActive := true }
            nextState := s.nextState + 1 }, some (.work s.nextState))
  | .work x =>
      match a with
      | .go =>
          some ({ s with components := s.components ++ [x], committed := s.committed ++ [x] }, some .unlock)
      | _ => some (s, some (.deactivate x))
  | .deactivate x => some (s.modifyState x fun k => { k with isActive := false }, some (.await x))
  | .await x =>
      if (s.state x).users = 0 then
        some (s.modifyState x fun k => { k with component := none }, some (.abandon x))
      else none
  | .abandon x =>
      some (if a = .early then { s with abandoned := s.abandoned ++ [x] } else s, some .unlock)
  | .unlock => some ({ s with commandMutex := none }, none)

/-! ## `drain` and `shutdown` -/

def drainAction (t : Thread) (a : Choice) (s : Shared) : DrainPc → Option (Shared × Option DrainPc)
  | .mark =>
      if s.mutex = none then some ({ s with draining := true, stopRequested := true }, some .join) else none
  | .join => if s.reaperGone then some (s, some .lock) else none
  | .lock => if s.mutex = none then some ({ s with mutex := some t }, some (.reap (.scan s.invocations []))) else none
  | .reap pc =>
      (reapAction a s pc).map fun
        | (s', some pc') => (s', some (.reap pc'))
        | (s', none) => (s', some .test)
  | .test =>
      if s.invocations = [] then some ({ s with mutex := none, drained := true }, none)
      else some ({ s with mutex := none }, some .lock)

def shutdownAction (t : Thread) (a : Choice) (s : Shared) : ShutdownPc → Option (Shared × Option ShutdownPc)
  | .close => some ({ s with admissionClosed := true }, some .once)
  | .once =>
      match s.shutdownOnce with
      | .idle => some ({ s with shutdownOnce := .running t }, some .swap)
      | .running _ => none
      | .done => some (s, some .leave)
  | .swap =>
      if s.commandMutex = none then
        some ({ s with components := [], abandoned := [], swapped := true },
          some (.drain .mark (s.components ++ s.abandoned)))
      else none
  | .drain pc closing =>
      (drainAction t a s pc).map fun
        | (s', some pc') => (s', some (.drain pc' closing))
        | (s', none) => (s', some (.deactivate closing))
  | .deactivate (x :: closing) =>
      some (s.modifyState x fun k => { k with isActive := false }, some (.await x closing))
  | .deactivate [] => some ({ s with shutdownOnce := .done }, some .leave)
  | .await x closing =>
      if (s.state x).users = 0 then
        some (s.modifyState x fun k => { k with component := none }, some (.deactivate closing))
      else none
  | .leave => some ({ s with returned := true }, none)

/-! ## The reaper -/

def reaperAction (a : Choice) (s : Shared) : ReaperPc → Option (Shared × ReaperPc)
  | .asleep => if s.mutex = none then some ({ s with mutex := some .reaper }, .awake) else none
  | .awake =>
      if s.stopRequested ∨ a = .raise then some ({ s with mutex := none, reaperGone := true }, .gone)
      else if s.invocations = [] then some ({ s with mutex := none }, .asleep)
      else some (s, .reap (.scan s.invocations []))
  | .reap pc =>
      (reapAction a s pc).map fun
        | (s', some pc') => (s', .reap pc')
        | (s', none) => ({ s' with mutex := none }, .asleep)
  | .gone => none

/-! ## Threads -/

def threadAction (t : Thread) (a : Choice) (s : Shared) : Pc → Option (Shared × Pc)
  | .idle =>
      match a with
      | .call (.access x) => some (enterAction s x (.access x))
      | .call (.invoke x) => some (enterAction s x (.build x))
      | .call (.publish component) => some (s, .publish (.lock component))
      | .call .beginShutdown => some (s, .beginShutdown)
      | .call .shutdown => some (s, .shutdown .close)
      | _ => none
  | .publish pc => (publishAction t a s pc).map fun r => (r.1, r.2.elim .idle .publish)
  | .beginShutdown => some ({ s with admissionClosed := true }, .idle)
  | .shutdown pc => (shutdownAction t a s pc).map fun r => (r.1, r.2.elim .idle .shutdown)
  | .reaper pc => (reaperAction a s pc).map fun r => (r.1, .reaper r.2)
  | pc => invokeAction a s pc

/-- The threads of one `ObjectModel`. -/
def program : Threads Thread Shared Pc Choice where
  shared₀ := {}
  frame₀
    | .worker _ => .idle
    | .reaper => .reaper .asleep
  action := threadAction

/-! ## Inversion -/

/-- The action of a thread is an action of the function it is in. -/
inductive ThreadStep (t : Thread) (a : Choice) (s : Shared) : Pc → Shared → Pc → Prop where
  | enter {x pc s' l'} : pc = .access x ∨ pc = .build x → enterAction s x pc = (s', l') →
      ThreadStep t a s .idle s' l'
  | enterPublish {component} : ThreadStep t a s .idle s (.publish (.lock component))
  | enterBeginShutdown : ThreadStep t a s .idle s .beginShutdown
  | enterShutdown : ThreadStep t a s .idle s (.shutdown .close)
  | publish {pc pc' s'} : publishAction t a s pc = some (s', pc') →
      ThreadStep t a s (.publish pc) s' (pc'.elim .idle .publish)
  | beginShutdown : ThreadStep t a s .beginShutdown { s with admissionClosed := true } .idle
  | shutdown {pc pc' s'} : shutdownAction t a s pc = some (s', pc') →
      ThreadStep t a s (.shutdown pc) s' (pc'.elim .idle .shutdown)
  | reaper {pc pc' s'} : reaperAction a s pc = some (s', pc') → ThreadStep t a s (.reaper pc) s' (.reaper pc')
  | invoke {l s' l'} : invokeAction a s l = some (s', l') → ThreadStep t a s l s' l'

section Inversion

variable {t : Thread} {a : Choice} {s s' : Shared} {l l' : Pc}

theorem threadStep (h : threadAction t a s l = some (s', l')) : ThreadStep t a s l s' l' := by
  cases l
  case idle =>
    simp only [threadAction] at h
    split at h
    all_goals simp only [Option.some.injEq, Prod.mk.injEq, reduceCtorEq] at h
    · exact .enter (.inl rfl) h
    · exact .enter (.inr rfl) h
    all_goals obtain ⟨rfl, rfl⟩ := h
    · exact .enterPublish
    · exact .enterBeginShutdown
    · exact .enterShutdown
  case publish pc | shutdown pc | reaper pc =>
    simp only [threadAction, Option.map_eq_some_iff, Prod.mk.injEq] at h
    obtain ⟨⟨s₁, pc'⟩, hp, rfl, rfl⟩ := h
    constructor; exact hp
  case beginShutdown =>
    simp only [threadAction, Option.some.injEq, Prod.mk.injEq] at h
    obtain ⟨rfl, rfl⟩ := h
    exact .beginShutdown
  all_goals simp only [threadAction] at h
  all_goals exact .invoke h

/-- Where `shutdown` goes on after a step of `drain`. -/
def afterDrain (closing : List Nat) : Option DrainPc → ShutdownPc
  | some pc => .drain pc closing
  | none => .deactivate closing

end Inversion

end RttOpcua.Lease
