import RttOpcua.Server.Step

/-!
# Actions by rules

What one action of a call or of `run` does, with one rule for each branch.
-/

namespace RttOpcua.Server

open RttOpcua.Lib

section Rules

variable (validation : Option Str) (t : Tid) (a : Choice) (s : Shared)

/-! ## `complete` -/

inductive CompleteStep (q : Nat) (error : Str) : Shared → Prop
  | none : (s.task q).completion = none →
      CompleteStep q error
        { s with taskHistory := Function.update s.taskHistory q { s.taskHistory q with owner := .gone } }
  | some {c} : (s.task q).completion = some c → c.mutex = none →
      CompleteStep q error
        { s with
          task := Function.update s.task q { s.task q with completion := some { c with error, done := true } }
          taskHistory := Function.update s.taskHistory q { s.taskHistory q with owner := .gone } }

/-! ## `start` -/

inductive StartStep : StartPc → Shared → Option StartPc → Prop
  | lockTransition : s.transitionMutex = none →
      StartStep .lockTransition { s with transitionMutex := some t } (some .validate)
  | invalid : validation.isSome = true → StartStep .validate s (some .setFailure)
  | valid : validation.isSome = false → StartStep .validate s (some .lockLifecycle)
  | setFailure : s.lifecycleMutex = none →
      StartStep .setFailure
        { s with
          currentError :=
            if (validation.getD []).isEmpty then lit "OPC UA server failed" else validation.getD []
          currentState := .failed }
        (some (.copyError none false))
  | lockLifecycle : s.lifecycleMutex = none →
      StartStep .lockLifecycle { s with lifecycleMutex := some t } (some .check)
  | running : s.currentState = .running →
      StartStep .check { s with lifecycleMutex := none } (some (.leave none true []))
  | stale {r} : s.currentState ≠ .running → s.serverThread = some r →
      StartStep .check { s with serverThread := none, lifecycleMutex := none } (some (.joinStale r))
  | noThread : s.currentState ≠ .running → s.serverThread = none → StartStep .check s (some .reset)
  | joinStale {r} : s.exited r = true → StartStep (.joinStale r) s (some .relock)
  | relock : s.lifecycleMutex = none → StartStep .relock { s with lifecycleMutex := some t } (some .reset)
  | reset : StartStep .reset { s with stopRequested := false } (some .clear)
  | clear : StartStep .clear { s with currentError := [], currentState := .starting } (some .spawn)
  | spawn : StartStep .spawn { s with serverThread := some s.runs, runs := s.runs + 1 } (some (.test s.runs))
  | sleep {r} : s.currentState = .starting →
      StartStep (.test r) { s with lifecycleMutex := none } (some (.wait r))
  | ready {r} : s.currentState ≠ .starting → StartStep (.test r) s (some (.result r))
  | timeout {r} : s.lifecycleMutex = none → a = .deadline →
      StartStep (.wait r) { s with lifecycleMutex := some t } (some (.deadline r))
  | wake {r} : s.lifecycleMutex = none → a ≠ .deadline →
      StartStep (.wait r) { s with lifecycleMutex := some t } (some (.test r))
  | late {r} : s.currentState = .starting → StartStep (.deadline r) s (some (.expireState r))
  | inTime {r} : s.currentState ≠ .starting → StartStep (.deadline r) s (some (.result r))
  | expireState {r} :
      StartStep (.expireState r)
        { s with
          currentError := lit "OPC UA server startup timed out"
          currentState := .failed
          runHistory := Function.update s.runHistory r { s.runHistory r with timedOut := true } }
        (some (.expireFlag r))
  | expireFlag {r} : StartStep (.expireFlag r) { s with stopRequested := true } (some (.result r))
  | success {r} : s.currentState = .running →
      StartStep (.result r) { s with lifecycleMutex := none } (some (.copyError (some r) true))
  | failure {r h} : s.currentState ≠ .running → s.serverThread = some h →
      StartStep (.result r) { s with serverThread := none, lifecycleMutex := none } (some (.joinFailed r h))
  | noFailed {r} : s.currentState ≠ .running → s.serverThread = none →
      StartStep (.result r) { s with lifecycleMutex := none } (some (.copyError (some r) false))
  | joinFailed {r h} : s.exited h = true → StartStep (.joinFailed r h) s (some (.copyError (some r) false))
  | copyError {run ok} : s.lifecycleMutex = none →
      StartStep (.copyError run ok) s (some (.leave run ok s.currentError))
  | leave {ok error} : StartStep (.leave none ok error) { s with transitionMutex := none } none
  | leaveRun {r ok error} :
      StartStep (.leave (some r) ok error)
        { s with
          transitionMutex := none
          runHistory := Function.update s.runHistory r { s.runHistory r with returned := some ok } }
        none

/-! ## `requestStop` and `stop` -/

inductive RequestStopStep : RequestStopPc → Shared → Option RequestStopPc → Prop
  | lock : s.lifecycleMutex = none → RequestStopStep .lock { s with lifecycleMutex := some t } (some .flag)
  | ask {r} : s.currentState.up = true → s.runs = r + 1 →
      RequestStopStep .flag
        { s with
          stopRequested := true
          runHistory := Function.update s.runHistory r
            { s.runHistory r with
              asked := true, askedEarly := (s.runHistory r).askedEarly || (s.runHistory r).entered == 0 } }
        (some .load)
  | flag : s.currentState.up = false ∨ s.runs = 0 →
      RequestStopStep .flag { s with stopRequested := true } (some .load)
  | up : s.currentState.up = true → RequestStopStep .load s (some .store)
  | down : s.currentState.up = false → RequestStopStep .load s (some .unlock)
  | store : RequestStopStep .store { s with currentState := .stopping } (some .unlock)
  | unlock : RequestStopStep .unlock { s with lifecycleMutex := none } none

inductive StopStep : StopPc → Shared → Option StopPc → Prop
  | lockTransition : s.transitionMutex = none →
      StopStep .lockTransition { s with transitionMutex := some t } (some (.request .lock))
  | request {pc pc' s'} : requestStopAction t s pc = some (s', some pc') →
      StopStep (.request pc) s' (some (.request pc'))
  | requested {pc s'} : requestStopAction t s pc = some (s', none) → StopStep (.request pc) s' (some .lockLifecycle)
  | lockLifecycle : s.lifecycleMutex = none →
      StopStep .lockLifecycle { s with lifecycleMutex := some t } (some .check)
  | stopped : s.currentState = .stopped → s.serverThread = none →
      StopStep .check { s with lifecycleMutex := none } (some .leave)
  | check : ¬ (s.currentState = .stopped ∧ s.serverThread = none) →
      StopStep .check s (some (.flag s.currentState))
  | flagUp {before} : before.up = true → StopStep (.flag before) { s with stopRequested := true } (some .store)
  | flagDown {before} : before.up = false → StopStep (.flag before) { s with stopRequested := true } (some .self)
  | store : StopStep .store { s with currentState := .stopping } (some .self)
  | fromCallback : s.serverThreadId.map Tid.run = some t →
      StopStep .self { s with lifecycleMutex := none } (some .leave)
  | thread {r} : s.serverThreadId.map Tid.run ≠ some t → s.serverThread = some r →
      StopStep .self { s with serverThread := none, lifecycleMutex := none } (some (.join r))
  | noThread : s.serverThreadId.map Tid.run ≠ some t → s.serverThread = none →
      StopStep .self { s with lifecycleMutex := none } (some .failPending)
  | join {r} : s.exited r = true → StopStep (.join r) s (some .failPending)
  | failPending : StopStep .failPending (s.takeTasks t) (some (.complete s.tasks))
  | completed : StopStep (.complete []) s (some .storeStopped)
  | complete {q pending s'} : s.complete q (lit "OPC UA server stopped") = some s' →
      StopStep (.complete (q :: pending)) s' (some (.complete pending))
  | storeStopped : StopStep .storeStopped { s with currentState := .stopped } (some .leave)
  | leave : StopStep .leave { s with transitionMutex := none } none

/-! ## `post` and `invoke` -/

inductive PostStep (callable : Bool) : PostPc → Shared → Option PostPc → Prop
  | load : callable = true → s.currentState = .running → PostStep callable .load s (some .push)
  | reject : ¬ (callable = true ∧ s.currentState = .running) → PostStep callable .load s none
  | push : s.currentState = .running → PostStep callable .push (s.push none) none
  | late : s.currentState ≠ .running → PostStep callable .push s none

inductive InvokeStep (callable : Bool) (timeout : Int) : InvokePc → Shared → Option InvokePc → Prop
  | check : callable = true → 0 < timeout → InvokeStep callable timeout .check s (some .thread)
  | reject : ¬ (callable = true ∧ 0 < timeout) → InvokeStep callable timeout .check s none
  | thread : s.lifecycleMutex = none → InvokeStep callable timeout .thread s (some .push)
  | push : s.currentState = .running →
      InvokeStep callable timeout .push (s.push (some {})) (some (.wait s.nextTask))
  | late : s.currentState ≠ .running → InvokeStep callable timeout .push s none
  | done {q c} : (s.task q).completion = some c → c.done = true →
      InvokeStep callable timeout (.wait q)
        { s with
          taskHistory := Function.update s.taskHistory q
            { s.taskHistory q with returned := some (.of (queuedResult c.error)) } }
        none
  | timeout {q c} : (s.task q).completion = some c → c.done = false → a = .deadline → c.mutex = none →
      InvokeStep callable timeout (.wait q)
        { s with
          task := Function.update s.task q { s.task q with completion := some { c with mutex := some t } } }
        (some (.cancel q))
  | cancel {q} : (s.task q).state = .queued →
      InvokeStep callable timeout (.cancel q)
        { s with
          task := Function.update s.task q
            { s.task q with
              state := .cancelled
              completion := (s.task q).completion.map fun c => { c with mutex := none } }
          taskHistory := Function.update s.taskHistory q { s.taskHistory q with returned := some .timedOut } }
        none
  | begun {q} : (s.task q).state ≠ .queued →
      InvokeStep callable timeout (.cancel q)
        { s with
          task := Function.update s.task q
            { s.task q with completion := (s.task q).completion.map fun c => { c with mutex := none } } }
        (some (.waitDone q))
  | waitDone {q c} : (s.task q).completion = some c → c.done = true →
      InvokeStep callable timeout (.waitDone q)
        { s with
          taskHistory := Function.update s.taskHistory q
            { s.taskHistory q with returned := some (.of (queuedResult c.error)) } }
        none

/-! ## `run` -/

inductive RunStep (r : Nat) : RunPc → Shared → RunPc → Prop
  | unborn : r < s.runs → s.lifecycleMutex = none →
      RunStep r .unborn { s with serverThreadId := some r } .setup
  | setupThrows {e} : a = .raise e → RunStep r .setup s (.failReset (exceptionMessage (.threw e)))
  | setup : (∀ e, a ≠ .raise e) → RunStep r .setup { s with nativeServer := some r } .publishRegistry
  | publishRegistry : s.lifecycleMutex = none →
      RunStep r .publishRegistry { s with typeRegistry := some r } .firstIterate
  | firstThrows {e} : a = .raise e → RunStep r .firstIterate s (.failReset (exceptionMessage (.threw e)))
  | firstIterate : (∀ e, a ≠ .raise e) → RunStep r .firstIterate s .readyLock
  | readyLock : s.lifecycleMutex = none →
      RunStep r .readyLock { s with lifecycleMutex := some (.run r) } .readyCheck
  | readyAsked : s.stopRequested = true → RunStep r .readyCheck s .readyUnlock
  | readyCheck : s.stopRequested = false → RunStep r .readyCheck s .readyStore
  | readyStore :
      RunStep r .readyStore
        { s with
          currentState := .running
          runHistory := Function.update s.runHistory r
            { s.runHistory r with entered := (s.runHistory r).entered + 1 } }
        .readyUnlock
  | readyUnlock : RunStep r .readyUnlock { s with lifecycleMutex := none } .loopTest
  | loopEnds : s.stopRequested = true → RunStep r .loopTest s (.drain .final)
  | loopTest : s.stopRequested = false → RunStep r .loopTest s (.drain .loop)
  | drain {ph} : RunStep r (.drain ph) (s.takeTasks (.run r)) (.exec ph s.tasks)
  | execLoop : RunStep r (.exec .loop []) s (.iterate [])
  | execFinal : RunStep r (.exec .final []) s .nativeStop
  | exec {ph q pending} : (s.task q).state = .queued →
      RunStep r (.exec ph (q :: pending))
        { s with
          task := Function.update s.task q { s.task q with state := .running }
          taskHistory := Function.update s.taskHistory q
            { s.taskHistory q with
              owner := .current (.run r), begun := (s.taskHistory q).begun + 1, executedBy := some r } }
        (.callback ph q pending [])
  | execCancelled {ph q pending} : (s.task q).state ≠ .queued →
      RunStep r (.exec ph (q :: pending))
        { s with
          taskHistory := Function.update s.taskHistory q { s.taskHistory q with owner := .current (.run r) } }
        (.finish ph q pending (lit "OPC UA server task cancelled"))
  | callback {ph q pending o} : a = .finish o →
      RunStep r (.callback ph q pending [])
        { s with
          taskHistory := Function.update s.taskHistory q
            { s.taskHistory q with ended := (s.taskHistory q).ended + 1, outcome := some o } }
        (.finish ph q pending (exceptionMessage o))
  | callbackInline {ph q pending i inl o} : a = .finish o →
      RunStep r (.callback ph q pending (i :: inl))
        { s with
          taskHistory := Function.update s.taskHistory i
            { s.taskHistory i with
              ended := (s.taskHistory i).ended + 1, outcome := some o, owner := .gone
              returned := some (.of (inlineResult o)) } }
        (.callback ph q pending inl)
  | finish {ph q pending error s'} : s.complete q error = some s' →
      RunStep r (.finish ph q pending error) s' (.exec ph pending)
  | iterateInline {i inl o} : a = .finish o →
      RunStep r (.iterate (i :: inl))
        { s with
          taskHistory := Function.update s.taskHistory i
            { s.taskHistory i with
              ended := (s.taskHistory i).ended + 1, outcome := some o, owner := .gone
              returned := some (.of (inlineResult o)) } }
        (.iterate inl)
  | iterateThrows {e} : a = .raise e → RunStep r (.iterate []) s (.failReset (exceptionMessage (.threw e)))
  | iterate : a = .go → RunStep r (.iterate []) s .loopTest
  | stopThrows {e} : a = .raise e → RunStep r .nativeStop s (.failReset (exceptionMessage (.threw e)))
  | nativeStop : (∀ e, a ≠ .raise e) → RunStep r .nativeStop s .nativeReset
  | nativeReset : RunStep r .nativeReset { s with nativeServer := none } .registryReset
  | registryReset : s.lifecycleMutex = none →
      RunStep r .registryReset { s with typeRegistry := none } (.failPending .normal)
  | failReset {why} : RunStep r (.failReset why) { s with nativeServer := none } (.failRegistry why)
  | failRegistry {why} : s.lifecycleMutex = none →
      RunStep r (.failRegistry why) { s with typeRegistry := none } (.failPending (.failed why))
  | failPending {exit} : RunStep r (.failPending exit) (s.takeTasks (.run r)) (.completeAll exit s.tasks)
  | completeAll {exit q pending s'} : s.complete q exit.error = some s' →
      RunStep r (.completeAll exit (q :: pending)) s' (.completeAll exit pending)
  | completed : RunStep r (.completeAll .normal []) s .storeStopped
  | completedFailed {why} : RunStep r (.completeAll (.failed why) []) s (.setFailure why)
  | storeStopped : RunStep r .storeStopped { s with currentState := .stopped } .clearId
  | setFailure {why : Str} : s.lifecycleMutex = none →
      RunStep r (.setFailure why)
        { s with
          currentError := if why.isEmpty then lit "OPC UA server failed" else why
          currentState := .failed }
        .clearId
  | clearId : s.lifecycleMutex = none →
      RunStep r .clearId { s with serverThreadId := none, exited := Function.update s.exited r true } .exited

variable {validation t a s} {s' : Shared}

theorem complete_step {q : Nat} {error : Str} (h : s.complete q error = some s') : CompleteStep s q error s' := by
  simp only [Shared.complete] at h
  split at h
  case h_1 hcompletion =>
    obtain rfl := Option.some.inj h
    exact .none hcompletion
  case h_2 c hcompletion =>
    split at h
    case isTrue hmutex =>
      obtain rfl := Option.some.inj h
      exact .some hcompletion hmutex
    case isFalse => cases h

theorem startAction_step {p : StartPc} {p' : Option StartPc} (h : startAction validation t a s p = some (s', p')) :
    StartStep validation t a s p s' p' := by
  cases p
  case leave run ok error =>
    simp only [startAction, Option.some.injEq, Prod.mk.injEq] at h
    obtain ⟨rfl, rfl⟩ := h
    cases run with
    | none => exact .leave
    | some r => exact .leaveRun
  all_goals simp only [startAction] at h
  all_goals repeat' split at h
  all_goals simp only [Option.some.injEq, Prod.mk.injEq, reduceCtorEq] at h
  all_goals obtain ⟨rfl, rfl⟩ := h
  all_goals constructor
  all_goals simp_all

theorem requestStopAction_step {p : RequestStopPc} {p' : Option RequestStopPc}
    (h : requestStopAction t s p = some (s', p')) : RequestStopStep t s p s' p' := by
  cases p
  case flag =>
    simp only [requestStopAction, Option.some.injEq, Prod.mk.injEq] at h
    obtain ⟨rfl, rfl⟩ := h
    cases hup : s.currentState.up with
    | false =>
        rw [Shared.recordAsked, hup]
        exact .flag (.inl hup)
    | true =>
        cases hruns : s.runs with
        | zero =>
            rw [Shared.recordAsked, hup, hruns]
            exact .flag (.inr hruns)
        | succ r =>
            rw [Shared.recordAsked, hup, hruns]
            exact .ask hup hruns
  all_goals simp only [requestStopAction] at h
  all_goals repeat' split at h
  all_goals simp only [Option.some.injEq, Prod.mk.injEq, reduceCtorEq] at h
  all_goals obtain ⟨rfl, rfl⟩ := h
  all_goals constructor
  all_goals simp_all

theorem stopAction_step {p : StopPc} {p' : Option StopPc} (h : stopAction t s p = some (s', p')) :
    StopStep t s p s' p' := by
  cases p
  case request pc =>
    simp only [stopAction, Option.map_eq_some_iff] at h
    obtain ⟨⟨s₁, q⟩, hr, h⟩ := h
    cases q
    all_goals
      simp only [Prod.mk.injEq] at h
      obtain ⟨rfl, rfl⟩ := h
    · exact .requested hr
    · exact .request hr
  case complete pending =>
    cases pending with
    | nil =>
        simp only [stopAction, Option.some.injEq, Prod.mk.injEq] at h
        obtain ⟨rfl, rfl⟩ := h
        exact .completed
    | cons q pending =>
        simp only [stopAction, Option.map_eq_some_iff, Prod.mk.injEq] at h
        obtain ⟨s₁, hc, rfl, rfl⟩ := h
        exact .complete hc
  all_goals simp only [stopAction] at h
  all_goals repeat' split at h
  all_goals simp only [Option.some.injEq, Prod.mk.injEq, reduceCtorEq] at h
  all_goals obtain ⟨rfl, rfl⟩ := h
  all_goals constructor
  all_goals simp_all

theorem postAction_step {callable : Bool} {p : PostPc} {p' : Option PostPc}
    (h : postAction callable s p = some (s', p')) : PostStep s callable p s' p' := by
  cases p
  all_goals simp only [postAction, Option.some.injEq, Prod.mk.injEq] at h
  all_goals obtain ⟨rfl, rfl⟩ := h
  all_goals split
  · exact .load (by simp_all) (by simp_all)
  · exact .reject ‹_›
  · exact .push ‹_›
  · exact .late ‹_›

theorem invokeAction_step {callable : Bool} {timeout : Int} {p : InvokePc} {p' : Option InvokePc}
    (h : invokeAction callable timeout t a s p = some (s', p')) : InvokeStep t a s callable timeout p s' p' := by
  cases p
  case cancel q =>
    simp only [invokeAction] at h
    split at h
    all_goals
      simp only [Option.some.injEq, Prod.mk.injEq] at h
      obtain ⟨rfl, rfl⟩ := h
    · have hstep : InvokeStep t a s callable timeout (.cancel q) _ none := .cancel ‹_›
      simpa [Shared.modifyTask, Shared.recordTask] using hstep
    · exact .begun ‹_›
  all_goals simp only [invokeAction] at h
  all_goals repeat' split at h
  all_goals simp only [Option.some.injEq, Prod.mk.injEq, reduceCtorEq] at h
  all_goals obtain ⟨rfl, rfl⟩ := h
  all_goals constructor
  all_goals simp_all

theorem runAction_step {r : Nat} {p p' : RunPc} (h : runAction r a s p = some (s', p')) :
    RunStep a s r p s' p' := by
  cases p
  case exec ph pending =>
    cases pending with
    | nil =>
        cases ph
        all_goals
          simp only [runAction, Option.some.injEq, Prod.mk.injEq] at h
          obtain ⟨rfl, rfl⟩ := h
        · exact .execLoop
        · exact .execFinal
    | cons q pending =>
        simp only [runAction] at h
        split at h
        all_goals
          simp only [Option.some.injEq, Prod.mk.injEq] at h
          obtain ⟨rfl, rfl⟩ := h
        · have hstep : RunStep a s r (.exec ph (q :: pending)) _ (.callback ph q pending []) := .exec ‹_›
          simpa [Shared.modifyTask, Shared.recordTask] using hstep
        · exact .execCancelled ‹_›
  case finish ph q pending error =>
    simp only [runAction, Option.map_eq_some_iff, Prod.mk.injEq] at h
    obtain ⟨s₁, hc, rfl, rfl⟩ := h
    exact .finish hc
  case completeAll exit pending =>
    cases pending with
    | nil =>
        cases exit
        all_goals
          simp only [runAction, Option.some.injEq, Prod.mk.injEq] at h
          obtain ⟨rfl, rfl⟩ := h
        · exact .completed
        · exact .completedFailed
    | cons q pending =>
        simp only [runAction, Option.map_eq_some_iff, Prod.mk.injEq] at h
        obtain ⟨s₁, hc, rfl, rfl⟩ := h
        exact .completeAll hc
  all_goals simp only [runAction] at h
  all_goals repeat' split at h
  all_goals simp only [Option.some.injEq, Prod.mk.injEq, reduceCtorEq] at h
  all_goals obtain ⟨rfl, rfl⟩ := h
  all_goals constructor
  all_goals simp_all

end Rules

end RttOpcua.Server
