import RttOpcua.Lib.Executor
import RttOpcua.Server.Theorems

/-!
# The server is a FIFO executor

`post` and `invoke` push tasks from any thread, `drainTasks` swaps the queue out and runs what it took, `invoke`
cancels, and `failPendingTasks` empties the queue from the server thread or from `stop`. Whatever the order of these
actions, over any number of runs, the queue is one FIFO executor: a task waits in `tasks` or in the local queue that
`drainTasks` works on, and what `drainTasks` took is served before what came later.
-/

namespace RttOpcua.Server

open RttOpcua.Lib

/-! ## The queue -/

/-- The tasks that `drainTasks` took and has not come to yet. -/
def RunPc.drained : RunPc → List Nat
  | .exec _ pending => pending
  | .callback _ _ pending _ => pending
  | .finish _ _ pending _ => pending
  | _ => []

/-- The queued task whose callback is in progress. -/
def RunPc.current : RunPc → Option Nat
  | .callback _ q _ _ => some q
  | _ => none

/-- Where the server thread is. -/
def serverPc (c : Config Tid Shared Frame) : RunPc :=
  match c.shared.serverThreadId with
  | some r => (c.frame (.run r)).pc
  | none => .exited

/-- The tasks that still wait, next one first, when the server thread is at `pc`. -/
def Shared.waiting (s : Shared) (pc : RunPc) : List Nat :=
  (pc.drained ++ s.tasks).filter fun q => (s.task q).state = .queued

def Shared.queue (s : Shared) (pc : RunPc) : Executor.State Nat := ⟨s.waiting pc, pc.current⟩

/-- The executor that the server is. -/
def queue (c : Config Tid Shared Frame) : Executor.State Nat := c.shared.queue (serverPc c)

/-! ## What happens to queued tasks -/

/-- `failPendingTasks` withdraws what is still queued. -/
def Shared.withdrawAll (s : Shared) : List (Executor.Event Nat) :=
  (s.tasks.filter fun q => (s.task q).state = .queued).map .withdrawn

def callEvents (s : Shared) (pc : RunPc) : Call → List (Executor.Event Nat)
  | .post _ .push | .invoke _ _ .push => if s.currentState = .running then [.accepted s.nextTask] else []
  | .invoke _ _ (.cancel q) => if q ∈ s.waiting pc then [.withdrawn q] else []
  | .stop .failPending => s.withdrawAll
  | _ => []

def runEvents (s : Shared) : Choice → RunPc → List (Executor.Event Nat)
  | _, .exec _ (q :: _) => if (s.task q).state = .queued then [.begun q] else []
  | .finish _, .callback _ q _ [] => [.ended q]
  | _, .failPending _ => s.withdrawAll
  | _, _ => []

/-- The events of the executor in one action of the server: a push is accepted, the callback of a queued task begins
and ends, and a cancelled task or one that `failPendingTasks` takes is withdrawn. -/
def taskEvents (c : Config Tid Shared Frame) (t : Tid) (a : Choice) : List (Executor.Event Nat) :=
  match (c.frame t).call, a, t with
  | some k, _, _ => callEvents c.shared (serverPc c) k
  | none, .call _, _ => []
  | none, a, .run _ => runEvents c.shared a (c.frame t).pc
  | none, _, .app _ => []

/-! ## Simulation -/

/-- The tasks of the queue are distinct and not fresh. -/
structure Queued (s : Shared) (pc : RunPc) : Prop where
  nodup : (pc.drained ++ s.tasks).Nodup
  bound : ∀ q ∈ pc.drained ++ s.tasks, q < s.nextTask

section Simulation

variable {validation : Option Str} {t : Tid} {a : Choice} {s s' : Shared} {pc pc' : RunPc}

theorem drained_sublist (pc : RunPc) : pc.drained.Sublist pc.pending := by
  cases pc <;> simp [RunPc.drained, RunPc.pending]

theorem Queued.of_owners (hi : TaskInv s) (hn : pc.drained.Nodup)
    (hd : ∀ q ∈ pc.drained, ∃ u, (s.taskHistory q).owner = .held u) : Queued s pc := by
  have old : ∀ q, (s.taskHistory q).owner ≠ .gone → q < s.nextTask := by
    intro q ho
    by_contra hq
    exact ho (by rw [hi.fresh q (by omega)])
  constructor
  · refine List.nodup_append.mpr ⟨hn, hi.nodup, fun q hq q' hq' he => ?_⟩
    obtain ⟨u, hu⟩ := hd q hq
    have hqueue := hi.queued q' hq'
    simp [he ▸ hu] at hqueue
  · intro q hq
    obtain hq | hq := List.mem_append.mp hq
    · obtain ⟨u, hu⟩ := hd q hq
      exact old q (by simp [hu])
    · exact old q (by simp [hi.queued q hq])

theorem queued_at {c : Config Tid Shared Frame} (hc : taskOutline.Holds c) (r : Nat) :
    Queued c.shared (c.frame (.run r)).pc := by
  have hsub : ((c.frame (.run r)).pc.drained).Sublist (c.frame (.run r)).pending :=
    (drained_sublist _).trans (List.sublist_append_left _ _)
  have hf := hc.2 (.run r)
  exact .of_owners hc.1 (hf.pendingNodup.sublist hsub) fun q hq => ⟨_, hf.pending q (hsub.subset hq)⟩

theorem queued_of_holds {c : Config Tid Shared Frame} (hc : taskOutline.Holds c) : Queued c.shared (serverPc c) := by
  unfold serverPc
  split
  · next r _ => exact queued_at hc r
  · exact .of_owners hc.1 .nil (by simp [RunPc.drained])

/-- The queue depends on the lists and on the states of the tasks in them. -/
theorem queue_congr (hl : pc'.drained ++ s'.tasks = pc.drained ++ s.tasks)
    (hs : ∀ q ∈ pc.drained ++ s.tasks, (s'.task q).state = (s.task q).state) (hcur : pc'.current = pc.current) :
    s'.queue pc' = s.queue pc := by
  simp only [Shared.queue, Shared.waiting, hl, hcur, Executor.State.mk.injEq, and_true]
  exact List.filter_congr fun q hq => by rw [hs q hq]

theorem queue_stays (h : s'.queue pc' = s.queue pc) : Executor.Steps (s.queue pc) [] (s'.queue pc') := by
  rw [h]
  exact .nil _

/-- `complete` leaves the states of the tasks as they are. -/
theorem complete_state {q : Nat} {error : Str} (h : s.complete q error = some s') :
    s'.tasks = s.tasks ∧ ∀ q', (s'.task q').state = (s.task q').state := by
  replace h := complete_step h
  cases h with
  | none => exact ⟨rfl, fun _ => rfl⟩
  | some hk hm =>
      refine ⟨rfl, fun q' => ?_⟩
      by_cases hq : q' = q
      · subst hq; simp
      · simp [hq]

theorem queue_same (e : SameTasks s s') : s'.queue pc = s.queue pc := by
  refine queue_congr ?_ (fun q _ => ?_) rfl
  · rw [e.tasks]
  · rw [e.task]

/-- A task whose state changes from `queued` leaves the queue, and no other does. -/
theorem waiting_update {q : Nat} {k : QueuedTask} (hn : (pc.drained ++ s.tasks).Nodup) (hk : k.state ≠ .queued)
    (hs : s'.tasks = s.tasks) (hu : s'.task = Function.update s.task q k) :
    s'.waiting pc = (s.waiting pc).erase q := by
  have hsplit : s'.waiting pc = (s.waiting pc).filter fun x => x != q := by
    simp only [Shared.waiting, hs, hu, List.filter_filter]
    refine List.filter_congr fun x _ => ?_
    by_cases hx : x = q
    · subst hx; simp [hk]
    · simp [hx]
  have hnodup : (s.waiting pc).Nodup := hn.filter _
  rw [hsplit, hnodup.erase_eq_filter]

/-- Every task of the queue is withdrawn at once. -/
theorem withdrawAll_steps (hd : pc.drained = []) (hd' : pc'.drained = []) (hcur : pc'.current = pc.current) (u : Tid) :
    Executor.Steps (s.queue pc) s.withdrawAll ((s.takeTasks u).queue pc') := by
  have hw : s.queue pc = ⟨s.tasks.filter fun q => (s.task q).state = .queued, pc.current⟩ := by
    simp [Shared.queue, Shared.waiting, hd]
  have hw' : (s.takeTasks u).queue pc' = ⟨[], pc.current⟩ := by
    simp [Shared.queue, Shared.waiting, hd', hcur, Shared.takeTasks]
  rw [hw, hw']
  exact .withdrawAll _ _

theorem push_steps (hq : Queued s pc) (k : Option Completion) :
    Executor.Steps (s.queue pc) [.accepted s.nextTask] ((s.push k).queue pc) := by
  have hw : (s.push k).queue pc = ⟨s.waiting pc ++ [s.nextTask], pc.current⟩ := by
    simp only [Shared.queue, Shared.waiting, Shared.push, Executor.State.mk.injEq, and_true]
    rw [← List.append_assoc, List.filter_append]
    congr 1
    · refine List.filter_congr fun q hq' => ?_
      have hlt := hq.bound q hq'
      simp [Nat.ne_of_lt hlt]
    · simp
  rw [hw]
  exact .single (.accept _ _ _)

/-- The task at the front begins, if it is queued. -/
theorem begin_steps {q : Nat} {rest : List Nat} (hs : (s.task q).state = .queued) (hw : pc.drained = q :: rest)
    (hw' : pc'.drained = rest) (hcur : pc.current = none) (hcur' : pc'.current = some q)
    (hn : (pc.drained ++ s.tasks).Nodup) (ht : s'.tasks = s.tasks) {k : QueuedTask}
    (hu : s'.task = Function.update s.task q k) : Executor.Steps (s.queue pc) [.begun q] (s'.queue pc') := by
  rw [hw, List.cons_append, List.nodup_cons] at hn
  have hfront : s.queue pc = ⟨q :: (rest ++ s.tasks).filter (fun x => (s.task x).state = .queued), none⟩ := by
    simp [Shared.queue, Shared.waiting, hw, hcur, hs]
  have hback : s'.queue pc' = ⟨(rest ++ s.tasks).filter (fun x => (s.task x).state = .queued), some q⟩ := by
    simp only [Shared.queue, Shared.waiting, hw', hcur', ht, hu, Executor.State.mk.injEq, and_true]
    refine List.filter_congr fun x hx => ?_
    have hne : x ≠ q := fun he => hn.1 (he ▸ hx)
    simp [hne]
  rw [hfront, hback]
  exact .single (.begin _ _)

/-- `invoke` cancels a task: it leaves the queue if it is still there. -/
theorem cancel_steps {q : Nat} {k : QueuedTask} (hq : Queued s pc) (hk : k.state ≠ .queued) (ht : s'.tasks = s.tasks)
    (hu : s'.task = Function.update s.task q k) :
    Executor.Steps (s.queue pc) (if q ∈ s.waiting pc then [.withdrawn q] else []) (s'.queue pc) := by
  have hw : s'.waiting pc = (s.waiting pc).erase q := waiting_update hq.nodup hk ht hu
  by_cases hmem : q ∈ s.waiting pc
  · obtain ⟨w₁, w₂, hnot, hsplit, herase⟩ := List.exists_erase_eq hmem
    simp only [hmem, ↓reduceIte, Shared.queue, hw, herase]
    rw [hsplit]
    exact .single (.withdraw _ _ _ _)
  · simp only [hmem, ↓reduceIte, Shared.queue, hw, List.erase_of_not_mem hmem]
    exact .nil _

/-- A call of any thread acts on the queue as an executor does; `stop` empties it when no run is alive. -/
theorem call_queue {k : Call} {f' : Frame} {spc : RunPc} (hq : Queued s spc)
    (hidle : k = .stop .failPending → spc.drained = []) (h : CallStep validation t a s pc k s' f') :
    Executor.Steps (s.queue spc) (callEvents s spc k) (s'.queue spc) := by
  cases h with
  | start h => exact queue_stays (queue_same (.of_startAction h))
  | requestStop h => exact queue_stays (queue_same (.of_requestStopAction h))
  | stop h =>
      replace h := stopAction_step h
      cases h
      case failPending => exact withdrawAll_steps (hidle rfl) (hidle rfl) rfl t
      case complete q pending hc =>
        obtain ⟨ht, hs⟩ := complete_state hc
        exact queue_stays (queue_congr (by rw [ht]) (fun q' _ => hs q') rfl)
      case request hr | requested hr => exact queue_stays (queue_same (.of_requestStopAction hr))
      all_goals exact queue_stays (queue_same ⟨rfl, rfl, rfl, rfl⟩)
  | post h =>
      replace h := postAction_step h
      cases h
      case push hrun =>
        simp only [callEvents, hrun, ↓reduceIte]
        exact push_steps hq none
      case late hrun =>
        simp only [callEvents, hrun, ↓reduceIte]
        exact queue_stays rfl
      all_goals exact queue_stays rfl
  | invoke h =>
      replace h := invokeAction_step h
      cases h
      case push hrun =>
        simp only [callEvents, hrun, ↓reduceIte]
        exact push_steps hq (some {})
      case late hrun =>
        simp only [callEvents, hrun, ↓reduceIte]
        exact queue_stays rfl
      case cancel q hs => exact cancel_steps hq (by simp) rfl rfl
      case begun q hs =>
        have hnot : q ∉ s.waiting spc := by simp [Shared.waiting, hs]
        simp only [callEvents, hnot, ↓reduceIte]
        refine queue_stays (queue_congr rfl (fun q' _ => ?_) rfl)
        by_cases he : q' = q
        · subst he; simp
        · simp [he]
      case timeout q c hk hd ha hm =>
        refine queue_stays (queue_congr rfl (fun q' _ => ?_) rfl)
        by_cases he : q' = q
        · subst he; simp
        · simp [he]
      all_goals exact queue_stays rfl
  | inline =>
      refine queue_stays (queue_congr rfl (fun q hmem => ?_) rfl)
      have hlt := hq.bound q hmem
      simp [Shared.beginInline, Nat.ne_of_lt hlt]

/-- A step of `run` acts on the queue as an executor does. -/
theorem run_queue {r : Nat} (hq : Queued s pc) (h : RunStep a s r pc s' pc') :
    Executor.Steps (s.queue pc) (runEvents s a pc) (s'.queue pc') := by
  cases h
  case drain ph => exact queue_stays (queue_congr (by simp [RunPc.drained, Shared.takeTasks]) (fun _ _ => rfl) rfl)
  case exec ph q pending hs =>
    simp only [runEvents, hs, ↓reduceIte]
    exact begin_steps hs rfl rfl rfl rfl hq.nodup rfl rfl
  case execCancelled ph q pending hs =>
    simp only [runEvents, hs, ↓reduceIte]
    refine queue_stays ?_
    simp [Shared.queue, Shared.waiting, RunPc.drained, RunPc.current, hs]
  case callback ph q pending o ha =>
    subst ha
    exact .single (.finish q _)
  case callbackInline ph q pending i inl o ha =>
    subst ha
    exact queue_stays rfl
  case finish ph q pending error hc =>
    obtain ⟨ht, hs⟩ := complete_state hc
    exact queue_stays (queue_congr (by rw [ht]; rfl) (fun q' _ => hs q') rfl)
  case failPending exit => exact withdrawAll_steps rfl rfl rfl _
  case completeAll exit q pending hc =>
    obtain ⟨ht, hs⟩ := complete_state hc
    exact queue_stays (queue_congr (by rw [ht]; rfl) (fun q' _ => hs q') rfl)
  all_goals exact queue_stays rfl

/-! ## Where the server thread is -/

/-- A call leaves the server thread where it is, but for the callbacks it runs on the spot. -/
theorem serverThreadId_call {k : Call} {f' : Frame} (h : CallStep validation t a s pc k s' f') :
    s'.serverThreadId = s.serverThreadId ∧ f'.pc.drained = pc.drained ∧ f'.pc.current = pc.current := by
  cases h with
  | start h => replace h := startAction_step h; cases h <;> exact ⟨rfl, rfl, rfl⟩
  | requestStop h => replace h := requestStopAction_step h; cases h <;> exact ⟨rfl, rfl, rfl⟩
  | stop h =>
      replace h := stopAction_step h
      cases h
      case request hr | requested hr => replace hr := requestStopAction_step hr; cases hr <;> exact ⟨rfl, rfl, rfl⟩
      case complete hc => replace hc := complete_step hc; cases hc <;> exact ⟨rfl, rfl, rfl⟩
      all_goals exact ⟨rfl, rfl, rfl⟩
  | post h => replace h := postAction_step h; cases h <;> exact ⟨rfl, rfl, rfl⟩
  | invoke h => replace h := invokeAction_step h; cases h <;> exact ⟨rfl, rfl, rfl⟩
  | inline => cases pc <;> exact ⟨rfl, rfl, rfl⟩

/-- `serverThreadId` changes where `run` begins and where it ends. -/
theorem serverThreadId_run {r : Nat} (h : RunStep a s r pc s' pc') :
    (pc = .unborn ∧ s'.serverThreadId = some r) ∨ (pc = .clearId ∧ pc' = .exited ∧ s'.serverThreadId = none) ∨
      (pc.live = true ∧ s'.serverThreadId = s.serverThreadId) := by
  cases h
  case unborn => exact .inl ⟨rfl, rfl⟩
  case clearId => exact .inr (.inl ⟨rfl, rfl, rfl⟩)
  case finish hc | completeAll hc => replace hc := complete_step hc; cases hc <;> exact .inr (.inr ⟨rfl, rfl⟩)
  all_goals exact .inr (.inr ⟨rfl, rfl⟩)

theorem idle_of_not_live (h : pc.live = false) : pc.drained = [] ∧ pc.current = none := by
  cases pc <;> simp_all [RunPc.live, RunPc.drained, RunPc.current]

variable {c c' : Config Tid Shared Frame}

/-- `drainTasks` is idle if no run is alive. -/
theorem idle_of_nobody (hc : lifecycle.Holds c) (h : ∀ r, ¬ c.shared.Alive r) :
    (serverPc c).drained = [] ∧ (serverPc c).current = none := by
  refine idle_of_not_live ?_
  unfold serverPc
  split
  · next r _ =>
    by_contra hlive
    have hfacts := (hc.2 (.run r)).1
    exact h r (hfacts.2.2.1 (by simpa using hlive)).1
  · rfl

/-- The queue is where the server thread is that takes a step of `run`. -/
theorem queue_run {r : Nat} (hc : lifecycle.Holds c) (h : RunStep a c.shared r (c.frame (.run r)).pc s' pc') :
    queue c = c.shared.queue (c.frame (.run r)).pc := by
  have hfacts := (hc.2 (.run r)).1
  have here : (c.frame (.run r)).pc.live = true → queue c = c.shared.queue (c.frame (.run r)).pc := by
    intro hlive
    simp only [queue, serverPc, (hfacts.2.2.1 hlive).2]
  cases hlive : (c.frame (.run r)).pc.live with
  | true => exact here hlive
  | false =>
      -- The run is not born yet: it is the newest, so no other run is alive.
      have hidle : (serverPc c).drained = [] ∧ (serverPc c).current = none := by
        refine idle_of_not_live ?_
        unfold serverPc
        split
        · next r' _ =>
          by_contra hlive'
          have halive' := (((hc.2 (.run r')).1).2.2.1 (by simpa using hlive')).1
          obtain ⟨hpc, -⟩ | ⟨hpc, -⟩ | ⟨hpc, -⟩ := serverThreadId_run h
          · rw [hpc] at h
            have hbefore : r < c.shared.runs := by cases h; assumption
            have halive : c.shared.Alive r := ⟨hbefore, hfacts.1 hpc⟩
            have hsame : r' = r := by
              have := hc.1.newest r halive
              have := hc.1.newest r' halive'
              omega
            exact hlive' (hsame ▸ hlive)
          · simp [hpc, RunPc.live] at hlive
          · simp [hpc] at hlive
        · rfl
      have hidle' := idle_of_not_live hlive
      simp [queue, Shared.queue, Shared.waiting, hidle, hidle']

/-- After its step the queue is where the server thread is now. -/
theorem queue_run_after {r : Nat} {p : RunPc} {frame : Tid → Frame} (hid : p.live = true → s.serverThreadId = some r)
    (h : RunStep a s r p s' pc') :
    queue ⟨s', Function.update frame (.run r) ⟨pc', none⟩⟩ = s'.queue pc' := by
  obtain ⟨-, hs⟩ | ⟨-, rfl, hs⟩ | ⟨hlive, hs⟩ := serverThreadId_run h
  · simp [queue, serverPc, hs]
  · simp [queue, serverPc, hs]
  · simp [queue, serverPc, hs, hid hlive]

/-- A call moves neither the server thread nor what it has drained. -/
theorem queue_call_after {f' : Frame} (hid : s'.serverThreadId = c.shared.serverThreadId)
    (hd : f'.pc.drained = (c.frame t).pc.drained) (hcur : f'.pc.current = (c.frame t).pc.current) :
    queue ⟨s', Function.update c.frame t f'⟩ = s'.queue (serverPc c) := by
  have hpc : (serverPc ⟨s', Function.update c.frame t f'⟩).drained = (serverPc c).drained ∧
      (serverPc ⟨s', Function.update c.frame t f'⟩).current = (serverPc c).current := by
    simp only [serverPc, hid]
    cases c.shared.serverThreadId with
    | none => exact ⟨rfl, rfl⟩
    | some r =>
        by_cases ht : Tid.run r = t
        · subst ht; simpa using ⟨hd, hcur⟩
        · simp [ht]
  simp [queue, Shared.queue, Shared.waiting, hpc]

/-- One action of any thread is what its events do to the executor. -/
theorem queue_step (hl : lifecycle.Holds c) (ht : taskOutline.Holds c)
    (h : (program validation).next c t a = some c') :
    Executor.Steps (queue c) (taskEvents c t a) (queue c') := by
  obtain ⟨s', f', hact, rfl⟩ := Threads.next_eq_some.mp h
  obtain ⟨k, hk, hcall⟩ | ⟨api, hk, rfl, -, rfl, rfl⟩ | ⟨r, p', hk, rfl, hrun, rfl⟩ := frameAction_cases hact
  · replace hcall := callStep hcall
    obtain ⟨hid, hd, hcur⟩ := serverThreadId_call hcall
    have hidle : k = .stop .failPending → (serverPc c).drained = [] := by
      rintro rfl
      have hnobody : c.shared.Nobody := ((hl.2 t).2 _ hk).2.2
      exact (idle_of_nobody hl hnobody.2).1
    simp only [taskEvents, hk]
    rw [queue_call_after hid hd hcur]
    exact call_queue (queued_of_holds ht) hidle hcall
  · have hafter : queue ⟨c.shared, Function.update c.frame t ⟨(c.frame t).pc, some api.enter⟩⟩ = queue c :=
      queue_call_after rfl rfl rfl
    simp only [taskEvents, hk, hafter]
    exact .nil _
  · replace hrun := runAction_step hrun
    have hid := (hl.2 (.run r)).1.2.2.1
    have hevents : taskEvents c (.run r) a = runEvents c.shared a (c.frame (.run r)).pc := by
      cases a with
      | call api =>
          simp only [program] at hact
          unfold frameAction at hact
          simp [hk] at hact
      | _ => simp only [taskEvents, hk]
    rw [queue_run hl hrun, queue_run_after (fun hlive => (hid hlive).2) hrun, hevents]
    exact run_queue (queued_at ht r) hrun

end Simulation

/-- The server is a FIFO executor. Over every run and every order of the threads' actions, the queued tasks are a
history of an executor: callbacks begin in the order in which their tasks were accepted, the next one when the one
before it has ended, and every accepted task waits, has begun or was withdrawn. -/
theorem server_runs_fifo {validation : Option Str} {es : List (Executor.Event Nat)} {c : Config Tid Shared Frame}
    (h : (program validation).Trace Threads.Always taskEvents es c) :
    Executor.Run es (queue c) ∧
    (Executor.begun es ++ (queue c).waiting).Sublist (Executor.accepted es) ∧
    Executor.begun es = Executor.ended es ++ (queue c).running.toList ∧
    (Executor.accepted es).Perm (Executor.begun es ++ Executor.withdrawn es ++ (queue c).waiting) := by
  have hrun : Executor.Run es (queue c) := by
    refine Threads.TraceFrom.preserves (Q := fun es d => Executor.Run es (queue d)) (.nil _) ?_ h
    intro es d t a d' hd hQ _ hn
    exact hQ.append (queue_step (lifecycle_reachable hd) (tasks_reachable hd) hn)
  exact ⟨hrun, by simpa using hrun.begun_sublist, by simpa using hrun.one_at_a_time, by simpa using hrun.conserved⟩

/-- A task is posted while the callback of another one runs. -/
theorem server_runs_fifo_posted : ∃ es c, (program none).Trace Threads.Always taskEvents es c ∧
    queue c = ⟨[1], some 0⟩ ∧ Executor.begun es = Executor.ended es ++ [0] ∧ 1 ∈ Executor.accepted es := by
  obtain ⟨c, hc, hQ⟩ := Threads.reachable_of_exec (P := program none)
    (inCallback ++ (.app 2, .call (.post true)) :: go (.app 2) 2) (fun c => queue c == ⟨[1], some 0⟩) (by decide)
  rw [beq_iff_eq] at hQ
  obtain ⟨es, ht⟩ := hc.trace taskEvents
  obtain ⟨-, -, hbegun, haccepted⟩ := server_runs_fifo ht
  simp only [hQ, Option.toList_some] at hbegun haccepted
  exact ⟨es, c, ht, hQ, hbegun, haccepted.symm.subset (by simp)⟩

end RttOpcua.Server
