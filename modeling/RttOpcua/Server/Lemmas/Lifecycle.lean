import RttOpcua.Server.Lemmas.Rules

/-!
# The lifecycle outline

Who may have a live server thread, and what the two lifecycle mutexes protect. The handle of a live
thread is in `server_thread`, or in a local of the call that holds `transition_mutex`; so at most the
newest run is alive, and `stop_requested` is cleared only when no run is.
-/

namespace RttOpcua.Server

open RttOpcua.Lib

/-! ## The outline -/

namespace Shared

variable (s : Shared)

/-- A live thread is the one in `server_thread`. -/
@[grind]
def Covered : Prop := ∀ r, s.Alive r → s.serverThread = some r

/-- The handle was taken out of `server_thread`: at most run `r` is alive. -/
@[grind]
def Taken (r : Nat) : Prop := s.serverThread = none ∧ ∀ r', s.Alive r' → r' = r

@[grind]
def Nobody : Prop := s.serverThread = none ∧ ∀ r, ¬ s.Alive r

/-- Run `r` is the newest one and its handle is in `server_thread`. -/
@[grind]
def Newest (r : Nat) : Prop := r + 1 = s.runs ∧ s.serverThread = some r

@[grind]
def FlagOk : Prop := s.currentState = .running → s.stopRequested = false

/-- The `start` that began run `r` has neither timed out nor returned. -/
@[grind]
def InStart (r : Nat) : Prop := (s.runHistory r).timedOut = false ∧ (s.runHistory r).returned = none

/-- What a `start` that began run `r` and returns `true` has seen. -/
@[grind]
def Started (run : Option Nat) (ok : Bool) : Prop :=
  ∀ r, run = some r → r < s.runs ∧
    (ok = true → 0 < (s.runHistory r).entered ∧ (s.runHistory r).timedOut = false)

end Shared

@[grind cases]
structure LifecycleInv (s : Shared) : Prop where
  handle : s.transitionMutex = none → s.Covered
  newest : ∀ r, s.Alive r → r + 1 = s.runs
  flag : s.lifecycleMutex = none → s.FlagOk
  running : s.currentState = .running →
    0 < s.runs ∧ ∀ r, r + 1 = s.runs → 0 < (s.runHistory r).entered ∧ s.exited r = false
  asked : ∀ r, s.Alive r → (s.runHistory r).asked = true → s.stopRequested = true
  early : ∀ r, (s.runHistory r).askedEarly = true →
    (s.runHistory r).asked = true ∧ (s.runHistory r).entered = 0
  fresh : ∀ r, s.runs ≤ r → s.runHistory r = {} ∧ s.exited r = false
  returned : ∀ r, (s.runHistory r).returned = some true →
    0 < (s.runHistory r).entered ∧ (s.runHistory r).timedOut = false

/-- What holds at the points of `start` after `transition_mutex` is taken. -/
def startFacts (t : Tid) (s : Shared) : StartPc → Prop
  | .lockTransition => True
  | .validate | .setFailure | .lockLifecycle => s.Covered
  | .check => s.lifecycleMutex = some t ∧ s.Covered ∧ s.FlagOk
  | .joinStale r => s.Taken r
  | .relock => s.Nobody
  | .reset => s.lifecycleMutex = some t ∧ s.Nobody
  | .clear => s.lifecycleMutex = some t ∧ s.Nobody ∧ s.stopRequested = false
  | .spawn => s.lifecycleMutex = some t ∧ s.Nobody ∧ s.stopRequested = false ∧ s.currentState ≠ .running
  | .test r | .deadline r => s.lifecycleMutex = some t ∧ s.Newest r ∧ s.FlagOk ∧ s.InStart r
  | .wait r => s.Newest r ∧ s.InStart r
  | .expireState r => s.lifecycleMutex = some t ∧ s.Newest r ∧ s.InStart r
  | .expireFlag r => s.lifecycleMutex = some t ∧ s.Newest r ∧ s.currentState ≠ .running
  | .result r =>
      s.lifecycleMutex = some t ∧ s.Newest r ∧ s.FlagOk ∧
        ((s.runHistory r).timedOut = true → s.currentState ≠ .running)
  | .joinFailed r h => h = r ∧ r < s.runs ∧ s.Taken r
  | .copyError run ok => s.Covered ∧ s.Started run ok
  | .leave run ok _ => s.Covered ∧ s.Started run ok

def requestStopFacts (t : Tid) (s : Shared) : RequestStopPc → Prop
  | .lock => True
  | .flag | .load | .store => s.lifecycleMutex = some t
  | .unlock => s.lifecycleMutex = some t ∧ s.currentState ≠ .running

def stopFacts (t : Tid) (s : Shared) : StopPc → Prop
  | .lockTransition => True
  | .request pc => s.Covered ∧ requestStopFacts t s pc
  | .lockLifecycle | .leave => s.Covered
  | .check => s.lifecycleMutex = some t ∧ s.Covered ∧ s.FlagOk
  | .flag before =>
      s.lifecycleMutex = some t ∧ s.Covered ∧ (s.currentState = before ∨ s.currentState = .stopped)
  | .store => s.lifecycleMutex = some t ∧ s.Covered
  | .self => s.lifecycleMutex = some t ∧ s.Covered ∧ s.currentState ≠ .running
  | .join r => s.Taken r
  | .failPending | .complete _ | .storeStopped => s.Nobody

/-- The calls that hold `transition_mutex`. -/
@[grind]
def Call.inTransition : Call → Bool
  | .start .lockTransition => false
  | .start _ => true
  | .stop .lockTransition => false
  | .stop _ => true
  | _ => false

def callFacts (t : Tid) (s : Shared) : Call → Prop
  | .start pc => startFacts t s pc
  | .requestStop pc => requestStopFacts t s pc
  | .stop pc => stopFacts t s pc
  | _ => True

/-- The points of `run` between its first and its last section. -/
def RunPc.live : RunPc → Bool
  | .unborn => false
  | .exited => false
  | _ => true

/-- The points inside the section that enters `running`. -/
def RunPc.inReady : RunPc → Bool
  | .readyCheck => true
  | .readyStore => true
  | .readyUnlock => true
  | _ => false

/-- The points after the loop saw `stop_requested`, up to the section that drops the registry. -/
def RunPc.leaving : RunPc → Bool
  | .drain .final => true
  | .exec .final _ => true
  | .callback .final _ _ _ => true
  | .finish .final _ _ _ => true
  | .nativeStop => true
  | .nativeReset => true
  | .registryReset => true
  | _ => false

/-- The points where a run is sure to have left `running`. -/
def RunPc.left : RunPc → Bool
  | .failPending .normal => true
  | .completeAll .normal _ => true
  | .storeStopped => true
  | .clearId => true
  | _ => false

/-- What holds at the points of `run`. -/
def threadFacts (s : Shared) : Tid → RunPc → Prop
  | .app _, _ => True
  | .run r, pc =>
      (pc = .unborn → s.exited r = false) ∧ (pc = .exited → s.exited r = true) ∧
      (pc.live = true → s.Alive r ∧ s.serverThreadId = some r) ∧
      (pc.inReady = true → s.lifecycleMutex = some (.run r) ∧ s.FlagOk) ∧
      (pc = .readyStore → s.stopRequested = false) ∧ (pc.leaving = true → s.stopRequested = true) ∧
      (pc.left = true → s.currentState ≠ .running)

def lifecycleAssertion (t : Tid) (f : Frame) (s : Shared) : Prop :=
  threadFacts s t f.pc ∧
    ∀ c, f.call = some c → userCode t f.pc = true ∧
      (c.inTransition = true → s.transitionMutex = some t) ∧ callFacts t s c

/-- What only run `r` itself may change while it is alive. -/
@[grind]
def RunKept (r : Nat) (s s' : Shared) : Prop :=
  s'.exited r = s.exited r ∧ (s'.runHistory r).entered = (s.runHistory r).entered ∧
  ((s.runHistory r).asked = true → (s'.runHistory r).asked = true) ∧ (s.Alive r →
    s'.serverThreadId = s.serverThreadId ∧ (s.stopRequested = true → s'.stopRequested = true) ∧
    (s.currentState ≠ .running → s'.currentState ≠ .running))

@[grind cases]
structure LifecycleRely (u : Tid) (s s' : Shared) : Prop where
  transition : s.transitionMutex = some u → s'.transitionMutex = some u ∧
    s'.serverThread = s.serverThread ∧ s'.runs = s.runs ∧
    ∀ r, (s'.runHistory r).timedOut = (s.runHistory r).timedOut ∧
      (s'.runHistory r).returned = (s.runHistory r).returned
  lifecycle : s.lifecycleMutex = some u → s'.lifecycleMutex = some u ∧
    s'.stopRequested = s.stopRequested ∧
    (s'.currentState = s.currentState ∨ s'.currentState = .stopped)
  exited : ∀ r, s.exited r = true → s'.exited r = true
  runs : s.runs ≤ s'.runs
  entered : ∀ r, (s.runHistory r).entered ≤ (s'.runHistory r).entered
  own : ∀ r, u = .run r → RunKept r s s'

/-- Nobody else creates a server thread under `transition_mutex`. -/
@[grind →]
theorem LifecycleRely.alive {u : Tid} {s s' : Shared} {r : Nat} (h : LifecycleRely u s s')
    (ht : s.transitionMutex = some u) (ha : s'.Alive r) : s.Alive r := by
  obtain ⟨hlt, hex⟩ := ha
  refine ⟨(h.transition ht).2.2.1 ▸ hlt, ?_⟩
  cases he : s.exited r with
  | false => rfl
  | true => exact absurd (h.exited r he) (by simp [hex])

def lifecycle : Threads.Outline Tid Shared Frame := ⟨LifecycleInv, lifecycleAssertion, LifecycleRely⟩

/-! ## Actions that leave the lifecycle alone -/

/-- The members that the outline talks about are the same. -/
structure SameLifecycle (s s' : Shared) : Prop where
  currentState : s'.currentState = s.currentState
  stopRequested : s'.stopRequested = s.stopRequested
  transitionMutex : s'.transitionMutex = s.transitionMutex
  lifecycleMutex : s'.lifecycleMutex = s.lifecycleMutex
  serverThread : s'.serverThread = s.serverThread
  serverThreadId : s'.serverThreadId = s.serverThreadId
  runs : s'.runs = s.runs
  exited : s'.exited = s.exited
  runHistory : s'.runHistory = s.runHistory

namespace SameLifecycle

variable {s s' : Shared}

theorem refl (s : Shared) : SameLifecycle s s := ⟨rfl, rfl, rfl, rfl, rfl, rfl, rfl, rfl, rfl⟩

theorem inv (e : SameLifecycle s s') (h : LifecycleInv s) : LifecycleInv s' := by
  cases s; cases s'
  obtain ⟨rfl, rfl, rfl, rfl, rfl, rfl, rfl, rfl, rfl⟩ := e
  exact ⟨h.1, h.2, h.3, h.4, h.5, h.6, h.7, h.8⟩

theorem threadFacts (e : SameLifecycle s s') {t : Tid} {pc : RunPc} (h : threadFacts s t pc) :
    threadFacts s' t pc := by
  cases s; cases s'
  obtain ⟨rfl, rfl, rfl, rfl, rfl, rfl, rfl, rfl, rfl⟩ := e
  exact h

theorem rely (e : SameLifecycle s s') (u : Tid) : LifecycleRely u s s' := by
  cases s; cases s'
  obtain ⟨rfl, rfl, rfl, rfl, rfl, rfl, rfl, rfl, rfl⟩ := e
  constructor <;> grind -ring -linarith

theorem of_beginInline (s : Shared) (r : Nat) : SameLifecycle s (s.beginInline r) :=
  ⟨rfl, rfl, rfl, rfl, rfl, rfl, rfl, rfl, rfl⟩

theorem of_takeTasks (s : Shared) (t : Tid) : SameLifecycle s (s.takeTasks t) :=
  ⟨rfl, rfl, rfl, rfl, rfl, rfl, rfl, rfl, rfl⟩

theorem of_complete {q : Nat} {error : Str} (h : s.complete q error = some s') : SameLifecycle s s' := by
  replace h := complete_step h
  cases h
  all_goals exact ⟨rfl, rfl, rfl, rfl, rfl, rfl, rfl, rfl, rfl⟩

theorem of_postAction {callable : Bool} {p : PostPc} {p' : Option PostPc}
    (h : postAction callable s p = some (s', p')) : SameLifecycle s s' := by
  replace h := postAction_step h
  cases h
  all_goals exact ⟨rfl, rfl, rfl, rfl, rfl, rfl, rfl, rfl, rfl⟩

theorem of_invokeAction {callable : Bool} {timeout : Int} {t : Tid} {a : Choice} {p : InvokePc}
    {p' : Option InvokePc} (h : invokeAction callable timeout t a s p = some (s', p')) :
    SameLifecycle s s' := by
  replace h := invokeAction_step h
  cases h
  all_goals exact ⟨rfl, rfl, rfl, rfl, rfl, rfl, rfl, rfl, rfl⟩

/-- The points of `run` that leave the lifecycle alone. -/
def quiet : RunPc → Bool
  | .unborn => false
  | .readyLock => false
  | .readyStore => false
  | .readyUnlock => false
  | .storeStopped => false
  | .setFailure _ => false
  | .clearId => false
  | _ => true

theorem of_runAction {r : Nat} {a : Choice} {p p' : RunPc} (hq : quiet p = true)
    (h : runAction r a s p = some (s', p')) : SameLifecycle s s' := by
  replace h := runAction_step h
  cases h
  case finish hc => exact of_complete hc
  case completeAll hc => exact of_complete hc
  all_goals simp only [quiet, reduceCtorEq] at hq
  all_goals exact ⟨rfl, rfl, rfl, rfl, rfl, rfl, rfl, rfl, rfl⟩

end SameLifecycle

/-! ## `start` -/

section Start

variable {validation : Option Str} {t : Tid} {a : Choice} {s s' : Shared} {p : StartPc} {p' : Option StartPc}

theorem start_own (hi : LifecycleInv s)
    (ht : (Call.start p).inTransition = true → s.transitionMutex = some t) (hf : startFacts t s p)
    (h : startAction validation t a s p = some (s', p')) :
    LifecycleInv s' ∧ ∀ q, p' = some q →
      ((Call.start q).inTransition = true → s'.transitionMutex = some t) ∧ startFacts t s' q := by
  replace h := startAction_step h
  cases h
  all_goals simp only [Call.inTransition, startFacts, Option.some.injEq, forall_eq', true_implies] at ht hf ⊢
  all_goals refine ⟨⟨?_, ?_, ?_, ?_, ?_, ?_, ?_, ?_⟩, ?_⟩
  all_goals grind -ring -linarith

theorem start_kept (r : Nat) (hi : LifecycleInv s) (hf : startFacts t s p)
    (h : startAction validation t a s p = some (s', p')) : RunKept r s s' := by
  replace h := startAction_step h
  cases h
  all_goals simp only [startFacts] at hf
  all_goals grind -ring -linarith

theorem start_runs (h : startAction validation t a s p = some (s', p')) : s.runs ≤ s'.runs := by
  replace h := startAction_step h
  cases h
  all_goals simp

theorem start_rely {u : Tid} (hu : u ≠ t) (hi : LifecycleInv s)
    (ht : (Call.start p).inTransition = true → s.transitionMutex = some t) (hf : startFacts t s p)
    (h : startAction validation t a s p = some (s', p')) : LifecycleRely u s s' := by
  have hk := fun r => start_kept r hi hf h
  replace h := startAction_step h
  cases h
  all_goals simp only [Call.inTransition, startFacts, true_implies] at ht hf
  all_goals refine ⟨?_, ?_, ?_, ?_, ?_, fun r _ => hk r⟩
  all_goals grind -ring -linarith

theorem start_stable (hr : LifecycleRely t s s')
    (ht : (Call.start p).inTransition = true → s.transitionMutex = some t) (hf : startFacts t s p) :
    startFacts t s' p := by
  cases p
  all_goals simp only [Call.inTransition, startFacts, true_implies] at ht hf ⊢
  all_goals grind -ring -linarith

end Start

/-! ## `requestStop` -/

section RequestStop

variable {t : Tid} {s s' : Shared} {p : RequestStopPc} {p' : Option RequestStopPc}

theorem requestStop_own (hi : LifecycleInv s) (hf : requestStopFacts t s p)
    (h : requestStopAction t s p = some (s', p')) :
    LifecycleInv s' ∧ ∀ q, p' = some q → requestStopFacts t s' q := by
  replace h := requestStopAction_step h
  cases h
  all_goals simp only [requestStopFacts] at hf
  all_goals refine ⟨⟨?_, ?_, ?_, ?_, ?_, ?_, ?_, ?_⟩, ?_⟩
  all_goals grind -ring -linarith [requestStopFacts]

theorem requestStop_kept (r : Nat) (h : requestStopAction t s p = some (s', p')) : RunKept r s s' := by
  replace h := requestStopAction_step h
  cases h
  all_goals grind -ring -linarith

theorem requestStop_rely {u : Tid} (hu : u ≠ t) (hi : LifecycleInv s) (hf : requestStopFacts t s p)
    (h : requestStopAction t s p = some (s', p')) : LifecycleRely u s s' := by
  have hk := fun r => requestStop_kept r h
  replace h := requestStopAction_step h
  cases h
  all_goals simp only [requestStopFacts] at hf
  all_goals refine ⟨?_, ?_, ?_, ?_, ?_, fun r _ => hk r⟩
  all_goals grind -ring -linarith

theorem requestStop_frame (h : requestStopAction t s p = some (s', p')) :
    s'.transitionMutex = s.transitionMutex ∧ s'.serverThread = s.serverThread ∧ s'.runs = s.runs ∧
      s'.exited = s.exited := by
  replace h := requestStopAction_step h
  cases h
  all_goals exact ⟨rfl, rfl, rfl, rfl⟩

theorem requestStop_stable (hr : LifecycleRely t s s') (hf : requestStopFacts t s p) :
    requestStopFacts t s' p := by
  cases p
  all_goals simp only [requestStopFacts] at hf ⊢
  all_goals grind -ring -linarith

end RequestStop

/-! ## `stop` -/

section Stop

variable {t : Tid} {s s' : Shared} {p : StopPc} {p' : Option StopPc}

theorem stop_stable (hr : LifecycleRely t s s')
    (ht : (Call.stop p).inTransition = true → s.transitionMutex = some t) (hf : stopFacts t s p) :
    stopFacts t s' p := by
  cases p
  all_goals simp only [Call.inTransition, stopFacts, true_implies] at ht hf ⊢
  all_goals grind -ring -linarith [requestStop_stable]

theorem stop_own (hi : LifecycleInv s)
    (ht : (Call.stop p).inTransition = true → s.transitionMutex = some t) (hf : stopFacts t s p)
    (h : stopAction t s p = some (s', p')) :
    LifecycleInv s' ∧ ∀ q, p' = some q →
      ((Call.stop q).inTransition = true → s'.transitionMutex = some t) ∧ stopFacts t s' q := by
  replace h := stopAction_step h
  cases h
  case request pc pc' hq =>
    obtain ⟨hinv, hown⟩ := requestStop_own hi hf.2 hq
    obtain ⟨htm, hth, hruns, hex⟩ := requestStop_frame hq
    refine ⟨hinv, ?_⟩
    simp only [Call.inTransition, stopFacts, Option.some.injEq, forall_eq', true_implies] at ht hf ⊢
    grind -ring -linarith
  case requested pc hq =>
    obtain ⟨hinv, -⟩ := requestStop_own hi hf.2 hq
    obtain ⟨htm, hth, hruns, hex⟩ := requestStop_frame hq
    refine ⟨hinv, ?_⟩
    simp only [Call.inTransition, stopFacts, Option.some.injEq, forall_eq', true_implies] at ht hf ⊢
    grind -ring -linarith
  case complete q pending hq =>
    have e := SameLifecycle.of_complete hq
    have hn : s'.Nobody := stop_stable (p := .complete (q :: pending)) (e.rely t) ht hf
    refine ⟨e.inv hi, ?_⟩
    rintro q ⟨⟩
    exact ⟨fun _ => e.transitionMutex.trans (ht rfl), hn⟩
  case failPending =>
    have e := SameLifecycle.of_takeTasks s t
    have hn : (s.takeTasks t).Nobody := stop_stable (p := .failPending) (e.rely t) ht hf
    refine ⟨e.inv hi, ?_⟩
    rintro q ⟨⟩
    exact ⟨fun _ => e.transitionMutex.trans (ht rfl), hn⟩
  all_goals simp only [Call.inTransition, stopFacts] at ht hf
  all_goals refine ⟨⟨?_, ?_, ?_, ?_, ?_, ?_, ?_, ?_⟩, ?_⟩
  all_goals grind -ring -linarith [stopFacts, requestStopFacts]

theorem stop_kept (r : Nat) (h : stopAction t s p = some (s', p')) : RunKept r s s' := by
  replace h := stopAction_step h
  cases h
  case request hq => exact requestStop_kept r hq
  case requested hq => exact requestStop_kept r hq
  case complete hq => exact ((SameLifecycle.of_complete hq).rely (.run r)).own r rfl
  case failPending => exact ((SameLifecycle.of_takeTasks s t).rely (.run r)).own r rfl
  all_goals grind -ring -linarith

theorem stop_runs (h : stopAction t s p = some (s', p')) : s'.runs = s.runs := by
  replace h := stopAction_step h
  cases h
  case request hq => exact (requestStop_frame hq).2.2.1
  case requested hq => exact (requestStop_frame hq).2.2.1
  case complete hq => exact (SameLifecycle.of_complete hq).runs
  all_goals rfl

theorem stop_rely {u : Tid} (hu : u ≠ t) (hi : LifecycleInv s)
    (ht : (Call.stop p).inTransition = true → s.transitionMutex = some t) (hf : stopFacts t s p)
    (h : stopAction t s p = some (s', p')) : LifecycleRely u s s' := by
  have hk := fun r => stop_kept r h
  replace h := stopAction_step h
  cases h
  case request hq => exact requestStop_rely hu hi hf.2 hq
  case requested hq => exact requestStop_rely hu hi hf.2 hq
  case complete hq => exact (SameLifecycle.of_complete hq).rely u
  case failPending => exact (SameLifecycle.of_takeTasks s t).rely u
  all_goals simp only [Call.inTransition, stopFacts, true_implies] at ht hf
  all_goals refine ⟨?_, ?_, ?_, ?_, ?_, fun r _ => hk r⟩
  all_goals grind -ring -linarith

end Stop

/-! ## `run` -/

section Run

variable {r : Nat} {a : Choice} {s s' : Shared} {p p' : RunPc}

/-- A point that leaves the lifecycle alone leads to a point whose facts hold already. -/
theorem run_quiet (hi : LifecycleInv s) (hq : SameLifecycle.quiet p = true)
    (hf : threadFacts s (.run r) p) (h : runAction r a s p = some (s', p')) :
    threadFacts s (.run r) p' := by
  replace h := runAction_step h
  cases h
  all_goals simp only [SameLifecycle.quiet, reduceCtorEq] at hq
  all_goals simp only [threadFacts, RunPc.live, RunPc.inReady, RunPc.leaving, RunPc.left, reduceCtorEq,
    false_implies, true_implies, true_and, and_true] at hf ⊢
  all_goals grind -ring -linarith

/-- The remaining points: the sections that register the thread, enter and leave `running`, and end it. -/
theorem run_loud (hi : LifecycleInv s) (hq : SameLifecycle.quiet p = false)
    (hf : threadFacts s (.run r) p) (h : runAction r a s p = some (s', p')) :
    LifecycleInv s' ∧ threadFacts s' (.run r) p' ∧ ∀ u, u ≠ .run r → LifecycleRely u s s' := by
  replace h := runAction_step h
  cases h
  all_goals simp only [SameLifecycle.quiet, reduceCtorEq] at hq
  all_goals simp only [threadFacts, RunPc.live, RunPc.inReady, RunPc.leaving, RunPc.left, reduceCtorEq,
    false_implies, true_implies, true_and, and_true] at hf ⊢
  all_goals refine ⟨⟨?_, ?_, ?_, ?_, ?_, ?_, ?_, ?_⟩, ?_, fun u hu => ⟨?_, ?_, ?_, ?_, ?_, ?_⟩⟩
  all_goals grind -ring -linarith

theorem run_step (hi : LifecycleInv s) (hf : threadFacts s (.run r) p)
    (h : runAction r a s p = some (s', p')) :
    LifecycleInv s' ∧ threadFacts s' (.run r) p' ∧ ∀ u, u ≠ .run r → LifecycleRely u s s' := by
  cases hq : SameLifecycle.quiet p with
  | false => exact run_loud hi hq hf h
  | true =>
      have e := SameLifecycle.of_runAction hq h
      exact ⟨e.inv hi, e.threadFacts (run_quiet hi hq hf h), fun u _ => e.rely u⟩

theorem thread_stable {t : Tid} (hr : LifecycleRely t s s') (hf : threadFacts s t p) :
    threadFacts s' t p := by
  cases t with
  | app n => trivial
  | run r =>
      cases p
      all_goals simp only [threadFacts, RunPc.live, RunPc.inReady, RunPc.leaving, RunPc.left, reduceCtorEq,
        false_implies, true_implies, true_and, and_true] at hf ⊢
      all_goals grind -ring -linarith

end Run

/-! ## The outline is valid -/

section Valid

variable {validation : Option Str} {t : Tid} {a : Choice} {s s' : Shared} {pc : RunPc} {c : Call} {f f' : Frame}

theorem call_kept (r : Nat) (hi : LifecycleInv s) (hf : callFacts t s c)
    (h : callAction validation t a s pc c = some (s', f')) : RunKept r s s' := by
  cases callStep h with
  | start hp => exact start_kept r hi hf hp
  | requestStop hp => exact requestStop_kept r hp
  | stop hp => exact stop_kept r hp
  | post hp => exact ((SameLifecycle.of_postAction hp).rely (.run r)).own r rfl
  | invoke hp => exact ((SameLifecycle.of_invokeAction hp).rely (.run r)).own r rfl
  | inline => exact ((SameLifecycle.of_beginInline s _).rely (.run r)).own r rfl

/-- User code of a server thread keeps the facts of `run` at its point. -/
theorem thread_self (hu : userCode t pc = true) (hk : ∀ r, RunKept r s s') (hruns : s.runs ≤ s'.runs)
    (hf : threadFacts s t pc) : threadFacts s' t pc := by
  cases t with
  | app n => trivial
  | run r =>
      have hk := hk r
      cases pc
      all_goals simp only [userCode, RunPc.inline, Option.isSome, reduceCtorEq] at hu
      all_goals simp only [threadFacts, RunPc.live, RunPc.inReady, RunPc.leaving, RunPc.left, reduceCtorEq,
        false_implies, true_implies, true_and, and_true] at hf ⊢
      all_goals grind -ring -linarith

/-- The frame of a call that goes on with `q` or returns. -/
theorem assertion_call {q : Option Call} (hu : userCode t pc = true) (ht : threadFacts s t pc)
    (hq : ∀ c, q = some c → (c.inTransition = true → s.transitionMutex = some t) ∧ callFacts t s c) :
    lifecycleAssertion t ⟨pc, q⟩ s :=
  ⟨ht, fun c hc => ⟨hu, hq c hc⟩⟩

theorem same_call {q : Option Call} (e : SameLifecycle s s') (hi : LifecycleInv s)
    (hu : userCode t pc = true) (ht : threadFacts s t pc)
    (hq : ∀ c, q = some c → c.inTransition = false ∧ ∀ s, callFacts t s c) :
    LifecycleInv s' ∧ lifecycleAssertion t ⟨pc, q⟩ s' ∧ ∀ u, u ≠ t → LifecycleRely u s s' := by
  refine ⟨e.inv hi, assertion_call hu (e.threadFacts ht) fun c hc => ?_, fun u _ => e.rely u⟩
  obtain ⟨hn, hf⟩ := hq c hc
  exact ⟨fun h => absurd h (by simp [hn]), hf s'⟩

theorem threadFacts_setInline {inl : List Nat} (hu : userCode t pc = true) (ht : threadFacts s t pc) :
    threadFacts s t (pc.setInline inl) := by
  cases t with
  | app n => trivial
  | run r =>
      cases pc
      all_goals simp only [userCode, RunPc.inline, Option.isSome, reduceCtorEq] at hu
      all_goals simp only [threadFacts, RunPc.setInline, RunPc.live, RunPc.inReady, RunPc.left, reduceCtorEq] at ht ⊢
      · cases ‹Phase› <;> exact ht
      · exact ht

theorem call_step (hi : LifecycleInv s) (hu : userCode t pc = true) (ht : threadFacts s t pc)
    (hc : c.inTransition = true → s.transitionMutex = some t) (hf : callFacts t s c)
    (h : callAction validation t a s pc c = some (s', f')) :
    LifecycleInv s' ∧ lifecycleAssertion t f' s' ∧ ∀ u, u ≠ t → LifecycleRely u s s' := by
  have hkept := fun r => call_kept r hi hf h
  cases callStep h with
  | start hp =>
      obtain ⟨hinv, hown⟩ := start_own hi hc hf hp
      have hself := thread_self hu hkept (start_runs hp) ht
      refine ⟨hinv, assertion_call hu hself fun c hq => ?_, fun u hu => start_rely hu hi hc hf hp⟩
      obtain ⟨q, hp', rfl⟩ := Option.map_eq_some_iff.mp hq
      exact hown q hp'
  | requestStop hp =>
      obtain ⟨hinv, hown⟩ := requestStop_own hi hf hp
      have hself := thread_self hu hkept (Nat.le_of_eq (requestStop_frame hp).2.2.1.symm) ht
      refine ⟨hinv, assertion_call hu hself fun c hq => ?_, fun u hu => requestStop_rely hu hi hf hp⟩
      obtain ⟨q, hp', rfl⟩ := Option.map_eq_some_iff.mp hq
      exact ⟨nofun, hown q hp'⟩
  | stop hp =>
      obtain ⟨hinv, hown⟩ := stop_own hi hc hf hp
      have hself := thread_self hu hkept (Nat.le_of_eq (stop_runs hp).symm) ht
      refine ⟨hinv, assertion_call hu hself fun c hq => ?_, fun u hu => stop_rely hu hi hc hf hp⟩
      obtain ⟨q, hp', rfl⟩ := Option.map_eq_some_iff.mp hq
      exact hown q hp'
  | post hp =>
      refine same_call (.of_postAction hp) hi hu ht fun c hc => ?_
      obtain ⟨q, -, rfl⟩ := Option.map_eq_some_iff.mp hc
      exact ⟨rfl, fun _ => True.intro⟩
  | invoke hp =>
      refine same_call (.of_invokeAction hp) hi hu ht fun c hc => ?_
      obtain ⟨q, -, rfl⟩ := Option.map_eq_some_iff.mp hc
      exact ⟨rfl, fun _ => True.intro⟩
  | inline =>
      have e := SameLifecycle.of_beginInline s ‹_›
      exact ⟨e.inv hi, ⟨e.threadFacts (threadFacts_setInline hu ht), nofun⟩, fun u _ => e.rely u⟩

/-- Every reachable state meets the lifecycle outline. -/
theorem lifecycle_valid : lifecycle.Valid (program validation) .trivial where
  step {t a s f s' f'} _ _ hi hf h := by
    obtain ⟨ht, hcall⟩ := hf
    obtain ⟨c, hc, h⟩ | ⟨api, -, -, hu, rfl, rfl⟩ | ⟨r, p', -, rfl, hp, rfl⟩ := frameAction_cases h
    · obtain ⟨hu, htr, hcf⟩ := hcall c hc
      exact call_step hi hu ht htr hcf h
    · refine ⟨hi, assertion_call hu ht ?_, fun u _ => (SameLifecycle.refl _).rely u⟩
      rintro c ⟨⟩
      cases api <;> exact ⟨nofun, True.intro⟩
    · obtain ⟨hinv, hown, hrely⟩ := run_step hi ht hp
      exact ⟨hinv, ⟨hown, nofun⟩, hrely⟩
  stable {t f s s'} _ _ _ hf hr := by
    obtain ⟨ht, hcall⟩ := hf
    refine ⟨thread_stable hr ht, fun c hc => ?_⟩
    obtain ⟨hu, htr, hcf⟩ := hcall c hc
    refine ⟨hu, fun h => (hr.transition (htr h)).1, ?_⟩
    cases c with
    | start p => exact start_stable hr htr hcf
    | requestStop p => exact requestStop_stable hr hcf
    | stop p => exact stop_stable hr htr hcf
    | post callable p => trivial
    | invoke callable timeout p => trivial

theorem lifecycle_initial : lifecycle.Holds (program validation).initial := by
  refine ⟨by constructor <;> simp [Threads.initial, program, Shared.Covered, Shared.Alive, Shared.FlagOk], ?_⟩
  intro t
  refine ⟨?_, nofun⟩
  cases t <;> simp [Threads.initial, program, threadFacts, RunPc.live, RunPc.inReady, RunPc.leaving, RunPc.left]

theorem lifecycle_reachable {c : Config Tid Shared Frame} (h : (program validation).Reachable c) :
    lifecycle.Holds c :=
  lifecycle_valid.reachable (fun c _ => Threads.Outline.holds_trivial c) lifecycle_initial h

end Valid

end RttOpcua.Server
