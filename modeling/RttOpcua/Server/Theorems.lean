import RttOpcua.Server.Lemmas.Apart
import RttOpcua.Server.Lemmas.Origin
import RttOpcua.Server.Lemmas.Report

/-!
# The server: theorems

What holds in every state that some interleaving of the threads of a `Server` reaches.
-/

namespace RttOpcua.Server

open RttOpcua.Lib Threads

variable {validation : Option Str} {c c' : Config Tid Shared Frame}

/-! ## Schedules -/

/-- `n` actions of one thread, with nothing left to decide. -/
def go (t : Tid) (n : Nat) : List (Tid × Choice) := List.replicate n (t, .go)

/-- The first `start`, up to its wait for the new thread. -/
def starting : List (Tid × Choice) := (.app 0, .call .start) :: go (.app 0) 8

/-- The first `start`, which returns `true` with run 0 in its loop. -/
def started : List (Tid × Choice) := starting ++ go (.run 0) 8 ++ go (.app 0) 5

/-- Run 0 inside the callback of a posted task. -/
def inCallback : List (Tid × Choice) :=
  started ++ (.app 1, .call (.post true)) :: go (.app 1) 2 ++ go (.run 0) 3

/-! ## The task queue -/

section Tasks

variable {t : Tid} {a : Choice} {q : Nat}

theorem settled_step (hc : taskOutline.Holds c) (h : (program validation).next c t a = some c')
    (hq : q < c.shared.nextTask) (hs : c.shared.Settled q) :
    q < c'.shared.nextTask ∧ c'.shared.Settled q ∧
      (c'.shared.taskHistory q).begun = (c.shared.taskHistory q).begun := by
  obtain ⟨s', f', hf, rfl⟩ := next_eq_some.mp h
  obtain ⟨-, -, hrely⟩ := tasks_valid.step trivial trivial hc.1 (hc.2 t) hf
  -- Any thread but the one that acts will do as the observer.
  obtain ⟨u, hu⟩ : ∃ u, u ≠ t := by
    cases t with
    | app n => exact ⟨.run 0, nofun⟩
    | run r => exact ⟨.app 0, nofun⟩
  have hr : TaskRely u c.shared s' := hrely u hu
  exact ⟨Nat.lt_of_lt_of_le hq hr.nextTask, hr.settled q hq hs⟩

theorem settled_steps (h : (program validation).Reachable c) (hsteps : (program validation).Steps c c')
    (hq : q < c.shared.nextTask) (hs : c.shared.Settled q) :
    c'.shared.Settled q ∧ (c'.shared.taskHistory q).begun = (c.shared.taskHistory q).begun := by
  have all := steps_preserve (Q := fun d => q < d.shared.nextTask ∧ d.shared.Settled q ∧
    (d.shared.taskHistory q).begun = (c.shared.taskHistory q).begun) ?_ h hsteps ⟨hq, hs, rfl⟩
  · exact all.2
  · intro d t a d' hd hQ hn
    obtain ⟨hq', hs', hb⟩ := settled_step (tasks_reachable hd) hn hQ.1 hQ.2.1
    exact ⟨hq', hs', hb.trans hQ.2.2⟩

/-- The callback of a settled task is not in progress. -/
theorem ended_of_settled {s : Shared} (hi : TaskInv s) (hs : s.Settled q) :
    (s.taskHistory q).ended = (s.taskHistory q).begun := by
  have hbegun := hi.begun q
  have hin := hi.inProgress q
  obtain ⟨hle, -⟩ := hi.once q
  obtain hs | hs := hs
  · have : (s.taskHistory q).begun = 0 := by
      by_contra hne
      simp [hs] at hbegun
      exact hne hbegun
    omega
  · by_contra hne
    obtain ⟨t, ht⟩ := hin hne
    simp [hs] at ht

/-- The task queue: a callback begins at most once; after its `invoke` has returned it neither begins
nor is in progress; and if `invoke` timed out while the task was queued, it never began. -/
theorem no_callback_after_return (h : (program validation).Reachable c) (q : Nat) :
    (c.shared.taskHistory q).begun ≤ 1 ∧
    ((c.shared.taskHistory q).returned.isSome = true → ∀ c', (program validation).Steps c c' →
      (c'.shared.taskHistory q).begun = (c.shared.taskHistory q).begun ∧
      (c'.shared.taskHistory q).ended = (c'.shared.taskHistory q).begun) ∧
    ((c.shared.taskHistory q).returned = some .timedOut → ∀ c', (program validation).Steps c c' →
      (c'.shared.taskHistory q).begun = 0) := by
  have hi : TaskInv c.shared := (tasks_reachable h).1
  have hlt : (c.shared.taskHistory q).returned.isSome = true → q < c.shared.nextTask := by
    intro hret
    by_contra hge
    simp [hi.fresh q (by omega)] at hret
  refine ⟨(hi.once q).2, fun hret c' hsteps => ?_, fun hret c' hsteps => ?_⟩
  · obtain ⟨hs, hb⟩ := settled_steps h hsteps (hlt hret) (hi.returned q hret)
    exact ⟨hb, ended_of_settled (tasks_reachable (h.trans hsteps)).1 hs⟩
  · have hcancelled := hi.timedOut q hret
    obtain ⟨-, hb⟩ := settled_steps h hsteps (hlt (by simp [hret])) (.inl hcancelled)
    by_contra hne
    simp [hi.begun q (hb ▸ hne)] at hcancelled

/-- An `invoke` times out before the loop reaches its task. -/
def timesOut : List (Tid × Choice) :=
  started ++ (.app 1, .call (.invoke true 5)) :: go (.app 1) 3 ++ [(.app 1, .deadline), (.app 1, .go)]

theorem no_callback_after_return_timesOut : ∃ c, (program none).Reachable c ∧
    (c.shared.taskHistory 0).returned = some .timedOut ∧ c.shared.tasks = [0] ∧
    ∀ c', (program none).Steps c c' → (c'.shared.taskHistory 0).begun = 0 := by
  obtain ⟨c, hc, hQ⟩ := reachable_of_exec (P := program none) timesOut
    (fun c => (c.shared.taskHistory 0).returned == some .timedOut && c.shared.tasks == [0]) (by decide)
  simp only [Bool.and_eq_true, beq_iff_eq] at hQ
  exact ⟨c, hc, hQ.1, hQ.2, (no_callback_after_return hc 0).2.2 hQ.1⟩

/-- In runs that accept no task between the failure handler's `failPendingTasks` and its `setFailure`,
a task is executed by the run that accepted it, if at all. -/
theorem executed_by_accepting_run {r : Nat}
    (h : (program validation).Reach (fun c t a => acceptsSafely c t a = true) c)
    (hq : (c.shared.taskHistory q).executedBy = some r) : (c.shared.taskHistory q).accepted = r :=
  (tasksOfRun_reach h).executed q r hq

theorem executed_by_accepting_run_posted : ∃ c,
    (program none).Reach (fun c t a => acceptsSafely c t a = true) c ∧
    (c.shared.taskHistory 0).executedBy = some 0 ∧ (c.shared.taskHistory 0).accepted = 0 := by
  obtain ⟨c, hc, hQ⟩ := reach_of_exec (P := program none) acceptsSafely inCallback
    (fun c => (c.shared.taskHistory 0).executedBy == some 0) (by decide)
  simp only [beq_iff_eq] at hQ
  exact ⟨c, hc, hQ, executed_by_accepting_run hc hQ⟩

/-- The native server throws, the handler clears the queue, a task is posted (the state is still
`running`), and the next `start` begins a run that executes it. -/
theorem executed_by_later_run : ∃ c, (program none).Reachable c ∧
    (c.shared.taskHistory 0).accepted = 0 ∧ (c.shared.taskHistory 0).executedBy = some 1 := by
  obtain ⟨c, hc, hQ⟩ := reachable_of_exec (P := program none)
    (started ++ go (.run 0) 3 ++ (.run 0, .raise .other) :: go (.run 0) 4 ++
      (.app 1, .call (.post true)) :: go (.app 1) 2 ++ go (.run 0) 2 ++
      (.app 0, .call .start) :: go (.app 0) 10 ++ go (.run 1) 8 ++ go (.run 1) 3)
    (fun c => (c.shared.taskHistory 0).accepted == 0 && (c.shared.taskHistory 0).executedBy == some 1)
    (by decide)
  simp only [Bool.and_eq_true, beq_iff_eq] at hQ
  exact ⟨c, hc, hQ.1, hQ.2⟩

end Tasks

/-! ## What an `invoke` returns -/

section Invoke

variable {q : Nat}

/-- A completion tells its waiter that the callback returned, unless the callback threw an exception without text. -/
theorem queuedResult_ok {outcome : Option Outcome} {error : Str} (h : Reports outcome error) :
    ((queuedResult error).1 = true ↔ outcome = some .returned) ↔ outcome ≠ some (.threw (.std [])) := by
  cases outcome with
  | none => simpa [queuedResult, Reports] using h
  | some o =>
      obtain rfl : error = exceptionMessage o := h
      cases o with
      | returned => simp [queuedResult, exceptionMessage]
      | threw e =>
          cases e with
          | std what => simp [queuedResult, exceptionMessage]
          | other => simp [queuedResult, exceptionMessage, lit]

theorem inlineResult_ok (o : Outcome) : (inlineResult o).1 = true ↔ o = .returned := by
  cases o <;> simp [inlineResult]

theorem same_result_iff (o : Outcome) :
    InvokeReturn.of (inlineResult o) = .of (queuedResult (exceptionMessage o)) ↔ o ≠ .threw (.std []) := by
  cases o with
  | returned => simp [inlineResult, queuedResult, exceptionMessage]
  | threw e =>
      cases e with
      | std what => simp [inlineResult, queuedResult, exceptionMessage, InvokeReturn.of]
      | other => simp [inlineResult, queuedResult, exceptionMessage, InvokeReturn.of, lit]

/-- What an `invoke` has returned: it gave up on a task that never ran, or it is the result of one of the two paths. -/
theorem returned_cases {result : InvokeReturn} (h : (program validation).Reachable c)
    (hr : (c.shared.taskHistory q).returned = some result) :
    (result = .timedOut ∧ (c.shared.taskHistory q).outcome = none) ∨
      ∃ pair, result = .of pair ∧
        Returned (c.shared.task q).completion.isSome (c.shared.taskHistory q).outcome pair := by
  have hi : TaskInv c.shared := (tasks_reachable h).1
  have hrep : ReportInv c.shared := (report_reachable h).1
  cases result with
  | timedOut =>
      left
      refine ⟨rfl, hrep.outcome_none hi ?_⟩
      by_contra hne
      have hrunning := hi.begun q hne
      rw [hi.timedOut q hr] at hrunning
      cases hrunning
  | completed ok error =>
      right
      exact ⟨(ok, error), rfl, (hrep.returned q ok error hr).2⟩

/-- The result of an `invoke` is that of the callback, unless the callback ran from the queue and threw an exception
without text; and two calls, one on each path, whose callbacks end the same way return the same but for that case. -/
theorem invoke_reports (h : (program validation).Reachable c) :
    (∀ q result, (c.shared.taskHistory q).returned = some result →
      ((result.ok = true ↔ (c.shared.taskHistory q).outcome = some .returned) ↔
        ¬ ((c.shared.task q).completion.isSome = true ∧
          (c.shared.taskHistory q).outcome = some (.threw (.std []))))) ∧
    (∀ q q' o result result', (c.shared.task q).completion = none →
      (c.shared.task q').completion.isSome = true →
      (c.shared.taskHistory q).outcome = some o → (c.shared.taskHistory q').outcome = some o →
      (c.shared.taskHistory q).returned = some result → (c.shared.taskHistory q').returned = some result' →
      (result = result' ↔ o ≠ .threw (.std []))) := by
  refine ⟨fun q result hr => ?_, fun q q' o result result' hinl hqueue ho ho' hr hr' => ?_⟩
  · rcases returned_cases h hr with ⟨rfl, hnone⟩ | ⟨pair, rfl, hpair⟩
    · simp [InvokeReturn.ok, hnone]
    · cases hq : (c.shared.task q).completion.isSome with
      | true =>
          rw [hq] at hpair
          obtain ⟨error, hrep, rfl⟩ := hpair
          simpa [InvokeReturn.ok, InvokeReturn.of] using queuedResult_ok hrep
      | false =>
          rw [hq] at hpair
          obtain ⟨o, ho, rfl⟩ := hpair
          simpa [InvokeReturn.ok, InvokeReturn.of, ho] using inlineResult_ok o
  · rcases returned_cases h hr with ⟨-, hnone⟩ | ⟨pair, rfl, hpair⟩
    · rw [ho] at hnone
      cases hnone
    rcases returned_cases h hr' with ⟨-, hnone⟩ | ⟨pair', rfl, hpair'⟩
    · rw [ho'] at hnone
      cases hnone
    rw [hinl, ho] at hpair
    rw [hqueue, ho'] at hpair'
    obtain ⟨_, ⟨⟩, rfl⟩ := hpair
    obtain ⟨error, hrep, rfl⟩ := hpair'
    obtain rfl : error = exceptionMessage o := hrep
    exact same_result_iff o

/-- Run 0 in the callback of a task that application 1 waits for. -/
def invoking : List (Tid × Choice) :=
  started ++ (.app 1, .call (.invoke true 5)) :: go (.app 1) 3 ++ go (.run 0) 3

/-- The callback ends, and the `invoke` that waits for it returns. -/
def ending (o : Outcome) : List (Tid × Choice) :=
  invoking ++ [(.run 0, .finish o), (.run 0, .go), (.app 1, .go)]

theorem invoke_reports_returned : ∃ c, (program none).Reachable c ∧
    (c.shared.taskHistory 0).returned = some (.completed true []) ∧
    (c.shared.taskHistory 0).outcome = some .returned := by
  obtain ⟨c, hc, hQ⟩ := reachable_of_exec (P := program none) (ending .returned)
    (fun c => (c.shared.taskHistory 0).returned == some (.completed true []) &&
      (c.shared.taskHistory 0).outcome != some (.threw (.std []))) (by decide)
  simp only [Bool.and_eq_true, beq_iff_eq, bne_iff_ne] at hQ
  exact ⟨c, hc, hQ.1, (((invoke_reports hc).1 0 _ hQ.1).mpr fun hmute => hQ.2 hmute.2).mp rfl⟩

/-- A queued callback that throws an exception without text: `invoke` returns `true`. -/
theorem mute_exception_succeeds : ∃ c, (program none).Reachable c ∧
    (c.shared.taskHistory 0).outcome = some (.threw (.std [])) ∧
    ∃ result, (c.shared.taskHistory 0).returned = some result ∧ result.ok = true := by
  obtain ⟨c, hc, hQ⟩ := reachable_of_exec (P := program none) (ending (.threw (.std [])))
    (fun c => (c.shared.taskHistory 0).outcome == some (.threw (.std [])) &&
      (c.shared.taskHistory 0).returned == some (.completed true [])) (by decide)
  simp only [Bool.and_eq_true, beq_iff_eq] at hQ
  exact ⟨c, hc, hQ.1, _, hQ.2, rfl⟩

end Invoke

/-! ## The lifecycle -/

section Lifecycle

variable {r : Nat} {t : Tid} {a : Choice}

/-- An action keeps what only run `r` may change, or it is an action of run `r` itself. -/
theorem kept_or_run (hc : lifecycle.Holds c) (h : (program validation).next c t a = some c') :
    RunKept r c.shared c'.shared ∨
      ∃ p', t = .run r ∧ runAction r a c.shared (c.frame t).pc = some (c'.shared, p') := by
  obtain ⟨s', f', hf, rfl⟩ := next_eq_some.mp h
  obtain ⟨ht, hcall⟩ := hc.2 t
  obtain ⟨k, hk, h⟩ | ⟨api, -, -, -, rfl, -⟩ | ⟨r', p', -, rfl, hp, -⟩ := frameAction_cases hf
  · exact .inl (call_kept r hc.1 (hcall k hk).2.2 h)
  · exact .inl (((SameLifecycle.refl _).rely (.run r)).own r rfl)
  · by_cases he : r' = r
    · subst he; exact .inr ⟨p', rfl, hp⟩
    · obtain ⟨-, -, hrely⟩ := run_step hc.1 ht hp
      exact .inl ((hrely (.run r) (by simpa using Ne.symm he)).own r rfl)

theorem asked_step (hc : lifecycle.Holds c) (h : (program validation).next c t a = some c')
    (hasked : (c.shared.runHistory r).asked = true) :
    (c'.shared.runHistory r).asked = true ∧
      (c'.shared.runHistory r).entered = (c.shared.runHistory r).entered := by
  obtain ⟨-, he, ha, -⟩ | ⟨p', rfl, hp⟩ := kept_or_run (r := r) hc h
  · exact ⟨ha hasked, he⟩
  · have hinv : LifecycleInv c.shared := hc.1
    have hf := (hc.2 (.run r)).1
    generalize (c.frame (.run r)).pc = p at hp hf
    generalize c'.shared = s' at hp ⊢
    cases hq : SameLifecycle.quiet p with
    | true =>
        rw [(SameLifecycle.of_runAction hq hp).runHistory]
        exact ⟨hasked, rfl⟩
    | false =>
        replace hp := runAction_step hp
        cases hp
        all_goals simp only [SameLifecycle.quiet, reduceCtorEq] at hq
        all_goals simp only [threadFacts, RunPc.live, reduceCtorEq, false_implies, true_implies] at hf
        all_goals grind -ring -linarith

theorem flag_step (hc : lifecycle.Holds c) (h : (program validation).next c t a = some c')
    (halive : c.shared.Alive r) (hflag : c.shared.stopRequested = true) :
    c'.shared.stopRequested = true := by
  obtain ⟨-, -, -, hk⟩ | ⟨p', rfl, hp⟩ := kept_or_run (r := r) hc h
  · exact (hk halive).2.1 hflag
  · generalize (c.frame (.run r)).pc = p at hp
    generalize c'.shared = s' at hp ⊢
    cases hq : SameLifecycle.quiet p with
    | true => exact (SameLifecycle.of_runAction hq hp).stopRequested.trans hflag
    | false =>
        replace hp := runAction_step hp
        cases hp
        all_goals simp only [SameLifecycle.quiet, reduceCtorEq] at hq
        all_goals exact hflag

/-- The server lifecycle: at most one server thread exists; `stop_requested` is cleared only when none
does; under `lifecycle_mutex` a server that is running was not asked to stop; a run that was asked to
stop never enters `running` again; and a `start` whose run was asked to stop before it reached
`running`, or timed out, returns `false`. -/
theorem server_lifecycle (h : (program validation).Reachable c) :
    (∀ r₁ r₂, c.shared.Alive r₁ → c.shared.Alive r₂ → r₁ = r₂) ∧
    (∀ t a c', (program validation).next c t a = some c' → c.shared.stopRequested = true →
      c'.shared.stopRequested = false → ∀ r, ¬ c.shared.Alive r) ∧
    (c.shared.lifecycleMutex = none → c.shared.currentState = .running →
      c.shared.stopRequested = false) ∧
    (∀ r c', (c.shared.runHistory r).asked = true → (program validation).Steps c c' →
      (c'.shared.runHistory r).entered = (c.shared.runHistory r).entered) ∧
    (∀ r b, (c.shared.runHistory r).returned = some b →
      (c.shared.runHistory r).askedEarly = true ∨ (c.shared.runHistory r).timedOut = true → b = false) := by
  have hc := lifecycle_reachable h
  refine ⟨?_, ?_, hc.1.flag, ?_, ?_⟩
  · intro r₁ r₂ h₁ h₂
    have e₁ := hc.1.newest r₁ h₁
    have e₂ := hc.1.newest r₂ h₂
    omega
  · intro t a c' hn hs hs' r halive
    simp [flag_step hc hn halive hs] at hs'
  · intro r c' hasked hsteps
    have both := steps_preserve (Q := fun d => (d.shared.runHistory r).asked = true ∧
      (d.shared.runHistory r).entered = (c.shared.runHistory r).entered) ?_ h hsteps ⟨hasked, rfl⟩
    · exact both.2
    · intro d t a d' hd hQ hn
      obtain ⟨ha, he⟩ := asked_step (lifecycle_reachable hd) hn hQ.1
      exact ⟨ha, he.trans hQ.2⟩
  · intro r b hret hwhy
    cases b with
    | false => rfl
    | true =>
        obtain ⟨he, ht⟩ := hc.1.returned r hret
        obtain hwhy | hwhy := hwhy
        · have := (hc.1.early r hwhy).2; omega
        · simp [ht] at hwhy

/-- `requestStop` falls between the creation of the thread and its `running`. -/
theorem server_lifecycle_stopped_early : ∃ c, (program none).Reachable c ∧
    (c.shared.runHistory 0).askedEarly = true ∧ (c.shared.runHistory 0).returned = some false ∧
    ∀ b, (c.shared.runHistory 0).returned = some b → b = false := by
  obtain ⟨c, hc, hQ⟩ := reachable_of_exec (P := program none)
    (starting ++ (.app 1, .call .requestStop) :: go (.app 1) 5 ++ go (.run 0) 7 ++
      go (.app 0) 3 ++ go (.run 0) 10 ++ go (.app 0) 3)
    (fun c => (c.shared.runHistory 0).askedEarly && (c.shared.runHistory 0).returned == some false)
    (by decide)
  simp only [Bool.and_eq_true, beq_iff_eq] at hQ
  obtain ⟨-, -, -, -, hret⟩ := server_lifecycle hc
  exact ⟨c, hc, hQ.1, hQ.2, fun b hb => hret 0 b hb (.inl hQ.1)⟩

end Lifecycle

/-! ## Waiting for the server thread -/

section Deadlock

/-- The run whose thread a frame waits to join. -/
def Frame.joins (f : Frame) : Option Nat :=
  match f.call with
  | some (.start (.joinStale r)) => some r
  | some (.start (.joinFailed _ r)) => some r
  | some (.stop (.join r)) => some r
  | _ => none

/-- The frame waits for `transition_mutex`. -/
def Frame.waitsTransition (f : Frame) : Bool :=
  match f.call with
  | some (.start .lockTransition) => true
  | some (.stop .lockTransition) => true
  | _ => false

/-- No thread that holds `transition_mutex` waits for a server thread that waits for the mutex, and no
server thread waits for itself. -/
def NoDeadlock (c : Config Tid Shared Frame) : Prop :=
  (∀ t r, (c.frame t).joins = some r → ∀ r', (c.frame (.run r')).waitsTransition = false) ∧
  ∀ r, (c.frame (.run r)).joins ≠ some r

/-- In runs whose callers keep the lifecycle calls of callbacks apart, `start` and `stop` never deadlock with the server
thread. -/
theorem no_deadlock_of_callersApart (h : (program validation).Reach CallersApart c) : NoDeadlock c := by
  have hc := lifecycle_reachable h.reachable
  have hapart : Apart c := by
    refine reach_preserves (fun d t a d' hd hQ hok hn => apart_step (lifecycle_reachable hd) hQ hok hn) ?_ h
    constructor <;> simp [initial, program]
  have hnot : ∀ r r', (c.frame (.run r)).joins ≠ some r' := by
    intro r r' hj
    have hpoint := hapart.point r
    unfold Frame.joins at hj
    split at hj
    case h_4 => cases hj
    all_goals
      rename_i hk
      have := hpoint _ hk
      simp [Call.inCallback, StartPc.finds, StopPc.joins] at this
  refine ⟨fun t r hj r' => ?_, fun r => hnot r r⟩
  by_contra hw
  rw [Bool.not_eq_false] at hw
  have ht : t ≠ .run r' := by
    rintro rfl
    exact hnot r' r hj
  -- the call that waits clashes with the one that joins
  have hclashes := hapart.clashes r' t
  unfold Frame.waitsTransition at hw
  unfold Frame.joins at hj
  split at hw
  case h_3 => cases hw
  case h_1 hk | h_2 hk =>
    split at hj
    case h_4 => cases hj
    case h_1 hk' | h_2 hk' | h_3 hk' => cases hclashes _ _ ht hk hk'

/-- The same for a run of the threads `ts`, where the others are idle. -/
def callersApart (ts : List Tid) (c : Config Tid Shared Frame) (t : Tid) (a : Choice) : Bool :=
  ts.contains t &&
    match a with
    | .call api =>
        (!(t.isServer && api == .start) || c.shared.currentState == .running) &&
          ts.all fun u => u == t || (c.frame u).call.all (api.apart t u)
    | _ => true

theorem reach_callersApart {ts : List Tid}
    (h : (program validation).Reach (fun c t a => callersApart ts c t a = true) c) :
    (program validation).Reach CallersApart c := by
  suffices hboth : (∀ u, u ∉ ts → (c.frame u).call = none) ∧ (program validation).Reach CallersApart c from hboth.2
  refine ReachFrom.preserves (Q := fun d => (∀ u, u ∉ ts → (d.frame u).call = none) ∧
    (program validation).Reach CallersApart d) (fun d t a d' hd hok hn => ?_) h ⟨fun _ _ => rfl, .refl⟩
  obtain ⟨hidle, hreach⟩ := hd
  simp only [callersApart, Bool.and_eq_true, List.contains_eq_mem, decide_eq_true_eq] at hok
  obtain ⟨ht, hcall⟩ := hok
  refine ⟨fun u hu => ?_, .step hreach (fun api ha => ?_) hn⟩
  · obtain ⟨s', f', -, rfl⟩ := next_eq_some.mp hn
    have hne : u ≠ t := fun heq => hu (heq ▸ ht)
    simpa [Function.update_of_ne hne] using hidle u hu
  · subst ha
    simp only [Bool.and_eq_true, Bool.or_eq_true, List.all_eq_true, beq_iff_eq, Bool.not_eq_true'] at hcall
    obtain ⟨hstart, hothers⟩ := hcall
    refine ⟨fun hserver hapi => hstart.resolve_left (by simp [hserver, hapi]), fun u hu k hk => ?_⟩
    by_cases hmem : u ∈ ts
    · have hall := (hothers u hmem).resolve_left hu
      rwa [hk] at hall
    · rw [hidle u hmem] at hk
      cases hk

/-- A callback stops the server it runs on, while nobody else does. -/
theorem no_deadlock_of_callersApart_selfStop : ∃ c, (program none).Reach CallersApart c ∧
    (c.frame (.run 0)).waitsTransition = true ∧ NoDeadlock c := by
  obtain ⟨c, hc, hw⟩ := reach_of_exec (P := program none) (callersApart [.app 0, .app 1, .run 0])
    (inCallback ++ [(.run 0, .call .stop)]) (fun c => (c.frame (.run 0)).waitsTransition) (by decide)
  exact ⟨c, reach_callersApart hc, hw, no_deadlock_of_callersApart (reach_callersApart hc)⟩

/-- `stop` is called from another thread and from a callback: the first holds `transition_mutex` and
joins the second, which waits for it. And a callback that calls `start` after `requestStop` takes its
own handle and joins itself. -/
theorem deadlock_reachable :
    (∃ c, (program none).Reachable c ∧ (c.frame (.app 0)).joins = some 0 ∧
      c.shared.transitionMutex = some (.app 0) ∧ (c.frame (.run 0)).waitsTransition = true ∧
      ¬ NoDeadlock c) ∧
    ∃ c, (program none).Reachable c ∧ (c.frame (.run 0)).joins = some 0 ∧ ¬ NoDeadlock c := by
  constructor
  · obtain ⟨c, hc, hQ⟩ := reachable_of_exec (P := program none)
      (inCallback ++ (.app 0, .call .stop) :: go (.app 0) 10 ++ [(.run 0, .call .stop)])
      (fun c => (c.frame (.app 0)).joins == some 0 && c.shared.transitionMutex == some (.app 0) &&
        (c.frame (.run 0)).waitsTransition) (by decide)
    simp only [Bool.and_eq_true, beq_iff_eq] at hQ
    refine ⟨c, hc, hQ.1.1, hQ.1.2, hQ.2, fun h => ?_⟩
    simp [h.1 (.app 0) 0 hQ.1.1 0] at hQ
  · obtain ⟨c, hc, hQ⟩ := reachable_of_exec (P := program none)
      (inCallback ++ (.app 0, .call .requestStop) :: go (.app 0) 5 ++
        (.run 0, .call .start) :: go (.run 0) 4)
      (fun c => (c.frame (.run 0)).joins == some 0) (by decide)
    simp only [beq_iff_eq] at hQ
    exact ⟨c, hc, hQ, fun h => h.2 0 hQ⟩

end Deadlock

end RttOpcua.Server
