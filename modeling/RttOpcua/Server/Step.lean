import RttOpcua.Lib.Threads
import RttOpcua.Server.State

/-!
# The server: actions

One atomic action of a thread for each program point of `State.lean`. A point that waits (for a mutex,
for a thread to end, for a completion) has no action until it may go on. The memory is sequentially
consistent, as the default order of `std::atomic` makes it.
-/

namespace RttOpcua.Server

open RttOpcua.Lib

/-- A call of the interface. -/
inductive Api where
  | start
  | requestStop
  | stop
  | post (callable : Bool)
  | invoke (callable : Bool) (timeout : Int)
  deriving DecidableEq, Repr

def Api.enter : Api → Call
  | .start => .start .lockTransition
  | .requestStop => .requestStop .lock
  | .stop => .stop .lockTransition
  | .post callable => .post callable .load
  | .invoke callable timeout => .invoke callable timeout .check

/-- What the code does not decide: whether a timed wait ends by its deadline, whether the native
server throws, how a callback ends, and which call user code makes next. -/
inductive Choice where
  | go
  | deadline
  | raise (e : Exception)
  | finish (o : Outcome)
  | call (api : Api)
  deriving DecidableEq, Repr

/-! ## Changes of the members -/

namespace Shared

variable (s : Shared)

def modifyTask (q : Nat) (f : QueuedTask → QueuedTask) : Shared :=
  { s with task := Function.update s.task q (f (s.task q)) }

def recordTask (q : Nat) (f : TaskHistory → TaskHistory) : Shared :=
  { s with taskHistory := Function.update s.taskHistory q (f (s.taskHistory q)) }

def recordRun (r : Nat) (f : RunHistory → RunHistory) : Shared :=
  { s with runHistory := Function.update s.runHistory r (f (s.runHistory r)) }

/-- The newest run was asked to stop: `stop_requested` is stored while the state is up. -/
def recordAsked : Shared :=
  match s.currentState.up, s.runs with
  | true, r + 1 =>
      s.recordRun r fun h => { h with asked := true, askedEarly := h.askedEarly || h.entered == 0 }
  | _, _ => s

/-- `tasks.push_back` of a new task. -/
def push (completion : Option Completion) : Shared :=
  { s with
    tasks := s.tasks ++ [s.nextTask]
    task := Function.update s.task s.nextTask { completion := completion }
    nextTask := s.nextTask + 1
    taskHistory := Function.update s.taskHistory s.nextTask
      { owner := .queue, accepted := s.runs - 1 } }

/-- `pending.swap(tasks)` into the empty local queue of thread `t`. -/
def takeTasks (t : Tid) : Shared :=
  { s with
    tasks := []
    taskHistory := fun q =>
      if q ∈ s.tasks then { s.taskHistory q with owner := .held t } else s.taskHistory q }

/-- A callback that `invoke` runs on the spot, on the server thread of run `r`. -/
def beginInline (r : Nat) : Shared :=
  { s with
    task := Function.update s.task s.nextTask { state := .running }
    nextTask := s.nextTask + 1
    taskHistory := Function.update s.taskHistory s.nextTask
      { owner := .current (.run r), accepted := s.runs - 1, begun := 1, executedBy := some r } }

/-- `complete`: a null completion is skipped. Its mutex is held by an `invoke` that cancels. -/
def complete (q : Nat) (error : Str) : Option Shared :=
  match (s.task q).completion with
  | none => some (s.recordTask q fun h => { h with owner := .gone })
  | some c =>
      if c.mutex = none then
        some ((s.modifyTask q fun k => { k with completion := some { c with error, done := true } }).recordTask q
          fun h => { h with owner := .gone })
      else none

/-- The locked part of `setFailure`. -/
def setFailure (error : Str) : Shared :=
  { s with
    currentError := if error.isEmpty then lit "OPC UA server failed" else error
    currentState := .failed }

end Shared

/-! ## `start` -/

/-- `validation` is the result of `validateServerOptions` for the options of this server. -/
def startAction (validation : Option Str) (t : Tid) (a : Choice) (s : Shared) :
    StartPc → Option (Shared × Option StartPc)
  | .lockTransition =>
      if s.transitionMutex = none then some ({ s with transitionMutex := some t }, some .validate) else none
  | .validate => some (s, some (if validation.isSome then .setFailure else .lockLifecycle))
  | .setFailure =>
      if s.lifecycleMutex = none then
        some (s.setFailure (validation.getD []), some (.copyError none false))
      else none
  | .lockLifecycle =>
      if s.lifecycleMutex = none then some ({ s with lifecycleMutex := some t }, some .check) else none
  | .check =>
      if s.currentState = .running then
        some ({ s with lifecycleMutex := none }, some (.leave none true []))
      else
        match s.serverThread with
        | some r => some ({ s with serverThread := none, lifecycleMutex := none }, some (.joinStale r))
        | none => some (s, some .reset)
  | .joinStale r => if s.exited r then some (s, some .relock) else none
  | .relock =>
      if s.lifecycleMutex = none then some ({ s with lifecycleMutex := some t }, some .reset) else none
  | .reset => some ({ s with stopRequested := false }, some .clear)
  | .clear => some ({ s with currentError := [], currentState := .starting }, some .spawn)
  | .spawn => some ({ s with serverThread := some s.runs, runs := s.runs + 1 }, some (.test s.runs))
  -- `wait_for` with a predicate: test it under the mutex, wait without it, test again after the deadline.
  | .test r =>
      if s.currentState = .starting then some ({ s with lifecycleMutex := none }, some (.wait r))
      else some (s, some (.result r))
  | .wait r =>
      if s.lifecycleMutex = none then
        some ({ s with lifecycleMutex := some t }, some (if a = .deadline then .deadline r else .test r))
      else none
  | .deadline r =>
      some (s, some (if s.currentState = .starting then .expireState r else .result r))
  | .expireState r =>
      some (({ s with
          currentError := lit "OPC UA server startup timed out"
          currentState := .failed } : Shared).recordRun r fun h => { h with timedOut := true },
        some (.expireFlag r))
  | .expireFlag r => some ({ s with stopRequested := true }, some (.result r))
  | .result r =>
      if s.currentState = .running then
        some ({ s with lifecycleMutex := none }, some (.copyError (some r) true))
      else
        match s.serverThread with
        | some h => some ({ s with serverThread := none, lifecycleMutex := none }, some (.joinFailed r h))
        | none => some ({ s with lifecycleMutex := none }, some (.copyError (some r) false))
  | .joinFailed r h => if s.exited h then some (s, some (.copyError (some r) false)) else none
  | .copyError run ok =>
      if s.lifecycleMutex = none then some (s, some (.leave run ok s.currentError)) else none
  | .leave run ok _ =>
      let s := { s with transitionMutex := none }
      some ((match run with
        | some r => s.recordRun r fun h => { h with returned := some ok }
        | none => s), none)

/-! ## `requestStop` and `stop` -/

def requestStopAction (t : Tid) (s : Shared) : RequestStopPc → Option (Shared × Option RequestStopPc)
  | .lock =>
      if s.lifecycleMutex = none then some ({ s with lifecycleMutex := some t }, some .flag) else none
  | .flag => some ({ s.recordAsked with stopRequested := true }, some .load)
  | .load => some (s, some (if s.currentState.up then .store else .unlock))
  | .store => some ({ s with currentState := .stopping }, some .unlock)
  | .unlock => some ({ s with lifecycleMutex := none }, none)

def stopAction (t : Tid) (s : Shared) : StopPc → Option (Shared × Option StopPc)
  | .lockTransition =>
      if s.transitionMutex = none then
        some ({ s with transitionMutex := some t }, some (.request .lock))
      else none
  | .request pc =>
      (requestStopAction t s pc).map fun
        | (s', some pc') => (s', some (.request pc'))
        | (s', none) => (s', some .lockLifecycle)
  | .lockLifecycle =>
      if s.lifecycleMutex = none then some ({ s with lifecycleMutex := some t }, some .check) else none
  | .check =>
      if s.currentState = .stopped ∧ s.serverThread = none then
        some ({ s with lifecycleMutex := none }, some .leave)
      else some (s, some (.flag s.currentState))
  | .flag before => some ({ s with stopRequested := true }, some (if before.up then .store else .self))
  | .store => some ({ s with currentState := .stopping }, some .self)
  | .self =>
      -- `get_id() == server_thread_id`: the call comes from a callback of the server thread.
      if s.serverThreadId.map Tid.run = some t then some ({ s with lifecycleMutex := none }, some .leave)
      else
        match s.serverThread with
        | some r => some ({ s with serverThread := none, lifecycleMutex := none }, some (.join r))
        | none => some ({ s with lifecycleMutex := none }, some .failPending)
  | .join r => if s.exited r then some (s, some .failPending) else none
  | .failPending => some (s.takeTasks t, some (.complete s.tasks))
  | .complete [] => some (s, some .storeStopped)
  | .complete (q :: pending) =>
      (s.complete q (lit "OPC UA server stopped")).map fun s' => (s', some (.complete pending))
  | .storeStopped => some ({ s with currentState := .stopped }, some .leave)
  | .leave => some ({ s with transitionMutex := none }, none)

/-! ## `post` and `invoke` -/

/-- The second test and the push are one section of `tasks_mutex`. -/
def postAction (callable : Bool) (s : Shared) : PostPc → Option (Shared × Option PostPc)
  | .load => some (s, if callable ∧ s.currentState = .running then some .push else none)
  | .push => some (if s.currentState = .running then s.push none else s, none)

/-- `invoke`, but for the inline path that `.thread` may take (`frameAction`). -/
def invokeAction (callable : Bool) (timeout : Int) (t : Tid) (a : Choice) (s : Shared) :
    InvokePc → Option (Shared × Option InvokePc)
  | .check => some (s, if callable ∧ 0 < timeout then some .thread else none)
  | .thread => if s.lifecycleMutex = none then some (s, some .push) else none
  | .push =>
      if s.currentState = .running then some (s.push (some {}), some (.wait s.nextTask)) else some (s, none)
  | .wait q =>
      match (s.task q).completion with
      | none => none
      | some c =>
          if c.done then
            some (s.recordTask q fun h => { h with returned := some (.of (queuedResult c.error)) }, none)
          else if a = .deadline ∧ c.mutex = none then
            -- The deadline passed and the predicate is false: the completion's mutex stays locked.
            some (s.modifyTask q fun k => { k with completion := some { c with mutex := some t } },
              some (.cancel q))
          else none
  | .cancel q =>
      let unlocked := s.modifyTask q fun k =>
        { k with completion := k.completion.map fun c => { c with mutex := none } }
      if (s.task q).state = .queued then
        some ((unlocked.modifyTask q fun k => { k with state := .cancelled }).recordTask q
          fun h => { h with returned := some .timedOut }, none)
      else some (unlocked, some (.waitDone q))
  | .waitDone q =>
      match (s.task q).completion with
      | none => none
      | some c =>
          if c.done then
            some (s.recordTask q fun h => { h with returned := some (.of (queuedResult c.error)) }, none)
          else none

/-! ## `run` -/

/-- A callback of the server thread ends. -/
def Shared.endCallback (s : Shared) (q : Nat) (o : Outcome) : Shared :=
  s.recordTask q fun h => { h with ended := h.ended + 1, outcome := some o }

/-- An inline callback ends, and its `invoke` returns with it. -/
def Shared.endInline (s : Shared) (q : Nat) (o : Outcome) : Shared :=
  s.recordTask q fun h =>
    { h with
      ended := h.ended + 1, outcome := some o, owner := .gone,
      returned := some (.of (inlineResult o)) }

def runAction (r : Nat) (a : Choice) (s : Shared) : RunPc → Option (Shared × RunPc)
  | .unborn =>
      if r < s.runs ∧ s.lifecycleMutex = none then some ({ s with serverThreadId := some r }, .setup) else none
  | .setup =>
      match a with
      | .raise e => some (s, .failReset (exceptionMessage (.threw e)))
      | _ => some ({ s with nativeServer := some r }, .publishRegistry)
  | .publishRegistry =>
      if s.lifecycleMutex = none then some ({ s with typeRegistry := some r }, .firstIterate) else none
  | .firstIterate =>
      match a with
      | .raise e => some (s, .failReset (exceptionMessage (.threw e)))
      | _ => some (s, .readyLock)
  | .readyLock =>
      if s.lifecycleMutex = none then some ({ s with lifecycleMutex := some (.run r) }, .readyCheck) else none
  | .readyCheck => some (s, if s.stopRequested then .readyUnlock else .readyStore)
  | .readyStore =>
      some (({ s with currentState := .running } : Shared).recordRun r
        fun h => { h with entered := h.entered + 1 }, .readyUnlock)
  | .readyUnlock => some ({ s with lifecycleMutex := none }, .loopTest)
  | .loopTest => some (s, .drain (if s.stopRequested then .final else .loop))
  | .drain ph => some (s.takeTasks (.run r), .exec ph s.tasks)
  | .exec .loop [] => some (s, .iterate [])
  | .exec .final [] => some (s, .nativeStop)
  | .exec ph (q :: pending) =>
      let taken := s.recordTask q fun h => { h with owner := .current (.run r) }
      if (s.task q).state = .queued then
        some ((taken.modifyTask q fun k => { k with state := .running }).recordTask q
          fun h => { h with begun := h.begun + 1, executedBy := some r }, .callback ph q pending [])
      else some (taken, .finish ph q pending (lit "OPC UA server task cancelled"))
  | .callback ph q pending inl =>
      match a, inl with
      | .finish o, [] => some (s.endCallback q o, .finish ph q pending (exceptionMessage o))
      | .finish o, i :: inl => some (s.endInline i o, .callback ph q pending inl)
      | _, _ => none
  | .finish ph q pending error => (s.complete q error).map fun s' => (s', .exec ph pending)
  | .iterate inl =>
      match a, inl with
      | .finish o, i :: inl => some (s.endInline i o, .iterate inl)
      | .raise e, [] => some (s, .failReset (exceptionMessage (.threw e)))
      | .go, [] => some (s, .loopTest)
      | _, _ => none
  | .nativeStop =>
      match a with
      | .raise e => some (s, .failReset (exceptionMessage (.threw e)))
      | _ => some (s, .nativeReset)
  | .nativeReset => some ({ s with nativeServer := none }, .registryReset)
  | .registryReset =>
      if s.lifecycleMutex = none then some ({ s with typeRegistry := none }, .failPending .normal) else none
  | .failReset why => some ({ s with nativeServer := none }, .failRegistry why)
  | .failRegistry why =>
      if s.lifecycleMutex = none then some ({ s with typeRegistry := none }, .failPending (.failed why))
      else none
  | .failPending exit => some (s.takeTasks (.run r), .completeAll exit s.tasks)
  | .completeAll exit (q :: pending) =>
      (s.complete q exit.error).map fun s' => (s', .completeAll exit pending)
  | .completeAll .normal [] => some (s, .storeStopped)
  | .completeAll (.failed why) [] => some (s, .setFailure why)
  | .storeStopped => some ({ s with currentState := .stopped }, .clearId)
  | .setFailure why => if s.lifecycleMutex = none then some (s.setFailure why, .clearId) else none
  | .clearId =>
      if s.lifecycleMutex = none then
        some ({ s with serverThreadId := none, exited := Function.update s.exited r true }, .exited)
      else none
  | .exited => none

/-! ## Threads -/

/-- An action of a call in progress. `invoke` on the server thread runs the callback on the spot. -/
def callAction (validation : Option Str) (t : Tid) (a : Choice) (s : Shared) (pc : RunPc) :
    Call → Option (Shared × Frame)
  | .start p => (startAction validation t a s p).map fun r => (r.1, ⟨pc, r.2.map .start⟩)
  | .requestStop p => (requestStopAction t s p).map fun r => (r.1, ⟨pc, r.2.map .requestStop⟩)
  | .stop p => (stopAction t s p).map fun r => (r.1, ⟨pc, r.2.map .stop⟩)
  | .post callable p => (postAction callable s p).map fun r => (r.1, ⟨pc, r.2.map (.post callable)⟩)
  | .invoke callable timeout .thread =>
      match t, pc.inline with
      | .run r, some inl =>
          if s.lifecycleMutex = none ∧ s.serverThreadId = some r ∧ s.nativeServer.isSome then
            some (s.beginInline r, ⟨pc.setInline (s.nextTask :: inl), none⟩)
          else
            (invokeAction callable timeout t a s .thread).map fun r =>
              (r.1, ⟨pc, r.2.map (.invoke callable timeout)⟩)
      | _, _ =>
          (invokeAction callable timeout t a s .thread).map fun r =>
            (r.1, ⟨pc, r.2.map (.invoke callable timeout)⟩)
  | .invoke callable timeout p =>
      (invokeAction callable timeout t a s p).map fun r => (r.1, ⟨pc, r.2.map (.invoke callable timeout)⟩)

/-- User code runs on application threads, and on a server thread inside a callback. -/
def userCode : Tid → RunPc → Bool
  | .app _, _ => true
  | .run _, pc => pc.inline.isSome

def frameAction (validation : Option Str) (t : Tid) (a : Choice) (s : Shared) (f : Frame) :
    Option (Shared × Frame) :=
  match f.call, a, t with
  | some c, _, _ => callAction validation t a s f.pc c
  | none, .call api, _ => if userCode t f.pc then some (s, { f with call := some api.enter }) else none
  | none, _, .run r => (runAction r a s f.pc).map fun x => (x.1, ⟨x.2, none⟩)
  | none, _, .app _ => none

/-- The threads of one `Server` whose options validate to `validation`. -/
def program (validation : Option Str) : Threads Tid Shared Frame Choice where
  shared₀ := {}
  frame₀ _ := {}
  action := frameAction validation

/-! ## Inversion -/

section Inversion

variable {validation : Option Str} {t : Tid} {a : Choice} {s s' : Shared} {pc : RunPc} {f f' : Frame}

/-- What a thread can do: go on with its call, enter one from user code, or take a step of `run`. -/
theorem frameAction_cases (h : frameAction validation t a s f = some (s', f')) :
    (∃ c, f.call = some c ∧ callAction validation t a s f.pc c = some (s', f')) ∨
    (∃ api : Api, f.call = none ∧ a = .call api ∧ userCode t f.pc = true ∧ s' = s ∧
      f' = ⟨f.pc, some api.enter⟩) ∨
    (∃ r p', f.call = none ∧ t = .run r ∧ runAction r a s f.pc = some (s', p') ∧ f' = ⟨p', none⟩) := by
  obtain ⟨pc, _ | c⟩ := f
  · cases a with
    | call api =>
        simp only [frameAction, Option.ite_none_right_eq_some, Option.some.injEq, Prod.mk.injEq] at h
        obtain ⟨hu, rfl, rfl⟩ := h
        exact .inr (.inl ⟨api, rfl, rfl, hu, rfl, rfl⟩)
    | _ =>
        cases t with
        | app n => cases h
        | run r =>
            simp only [frameAction, Option.map_eq_some_iff, Prod.mk.injEq] at h
            obtain ⟨⟨s₁, p'⟩, hp, rfl, rfl⟩ := h
            exact .inr (.inr ⟨r, p', rfl, rfl, hp, rfl⟩)
  · exact .inl ⟨c, rfl, h⟩

theorem invoke_cases {callable : Bool} {timeout : Int} {p : InvokePc}
    (h : callAction validation t a s pc (.invoke callable timeout p) = some (s', f')) :
    (∃ p', invokeAction callable timeout t a s p = some (s', p') ∧
      f' = ⟨pc, p'.map (.invoke callable timeout)⟩) ∨
    (∃ r inl, t = .run r ∧ p = .thread ∧ pc.inline = some inl ∧ s.lifecycleMutex = none ∧
      s.serverThreadId = some r ∧ s.nativeServer.isSome ∧
      s' = s.beginInline r ∧ f' = ⟨pc.setInline (s.nextTask :: inl), none⟩) := by
  have plain : (invokeAction callable timeout t a s p).map
      (fun r => (r.1, (⟨pc, r.2.map (.invoke callable timeout)⟩ : Frame))) = some (s', f') →
      ∃ p', invokeAction callable timeout t a s p = some (s', p') ∧
        f' = ⟨pc, p'.map (.invoke callable timeout)⟩ := by
    intro h
    simp only [Option.map_eq_some_iff, Prod.mk.injEq] at h
    obtain ⟨⟨s₁, p'⟩, hp, rfl, rfl⟩ := h
    exact ⟨p', hp, rfl⟩
  cases p
  case thread =>
    simp only [callAction] at h
    repeat' split at h
    · next r inl hinl hthread =>
      simp only [Option.some.injEq, Prod.mk.injEq] at h
      obtain ⟨rfl, rfl⟩ := h
      exact .inr ⟨r, inl, rfl, rfl, hinl, hthread.1, hthread.2.1, hthread.2.2, rfl, rfl⟩
    · exact .inl (plain h)
    · exact .inl (plain h)
  all_goals exact .inl (plain h)

/-- An action of a call is an action of its function; only `invoke` may leave it to run the callback
on the spot. -/
inductive CallStep (validation : Option Str) (t : Tid) (a : Choice) (s : Shared) (pc : RunPc) :
    Call → Shared → Frame → Prop where
  | start {p p' s'} : startAction validation t a s p = some (s', p') →
      CallStep validation t a s pc (.start p) s' ⟨pc, p'.map .start⟩
  | requestStop {p p' s'} : requestStopAction t s p = some (s', p') →
      CallStep validation t a s pc (.requestStop p) s' ⟨pc, p'.map .requestStop⟩
  | stop {p p' s'} : stopAction t s p = some (s', p') →
      CallStep validation t a s pc (.stop p) s' ⟨pc, p'.map .stop⟩
  | post {callable p p' s'} : postAction callable s p = some (s', p') →
      CallStep validation t a s pc (.post callable p) s' ⟨pc, p'.map (.post callable)⟩
  | invoke {callable timeout p p' s'} : invokeAction callable timeout t a s p = some (s', p') →
      CallStep validation t a s pc (.invoke callable timeout p) s' ⟨pc, p'.map (.invoke callable timeout)⟩
  | inline {callable timeout r inl} : t = .run r → pc.inline = some inl → s.lifecycleMutex = none →
      s.serverThreadId = some r → s.nativeServer.isSome = true →
      CallStep validation t a s pc (.invoke callable timeout .thread) (s.beginInline r)
        ⟨pc.setInline (s.nextTask :: inl), none⟩

theorem callStep {c : Call} (h : callAction validation t a s pc c = some (s', f')) :
    CallStep validation t a s pc c s' f' := by
  cases c with
  | start p | requestStop p | stop p | post callable p =>
      simp only [callAction, Option.map_eq_some_iff, Prod.mk.injEq] at h
      obtain ⟨⟨s₁, p'⟩, hp, rfl, rfl⟩ := h
      constructor; exact hp
  | invoke callable timeout p =>
      obtain ⟨p', hp, rfl⟩ | ⟨r, inl, ht, rfl, hinl, hl, hid, hn, rfl, rfl⟩ := invoke_cases h
      · exact .invoke hp
      · exact .inline ht hinl hl hid hn

end Inversion

end RttOpcua.Server
