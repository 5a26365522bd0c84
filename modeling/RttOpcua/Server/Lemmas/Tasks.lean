import RttOpcua.Server.Lemmas.Rules

/-!
# The task outline

Who may still reach a queued task. Its owner is the queue, the local queue of the thread that swapped
it out, the callback in progress, or nobody; only the owner begins, ends or completes it, and an
`invoke` returns only after it cancelled the task or nobody owns it.
-/

namespace RttOpcua.Server

open RttOpcua.Lib

/-! ## The outline -/

@[grind cases]
structure TaskInv (s : Shared) : Prop where
  nodup : s.tasks.Nodup
  queued : ∀ q ∈ s.tasks, (s.taskHistory q).owner = .queue
  fresh : ∀ q, s.nextTask ≤ q → s.taskHistory q = {}
  once : ∀ q, (s.taskHistory q).ended ≤ (s.taskHistory q).begun ∧ (s.taskHistory q).begun ≤ 1
  begun : ∀ q, (s.taskHistory q).begun ≠ 0 → (s.task q).state = .running
  inProgress : ∀ q, (s.taskHistory q).ended ≠ (s.taskHistory q).begun →
    ∃ t, (s.taskHistory q).owner = .current t
  done : ∀ q k, (s.task q).completion = some k → k.done = true → (s.taskHistory q).owner = .gone
  returned : ∀ q, (s.taskHistory q).returned.isSome →
    (s.task q).state = .cancelled ∨ (s.taskHistory q).owner = .gone
  timedOut : ∀ q, (s.taskHistory q).returned = some .timedOut → (s.task q).state = .cancelled

/-- The local queue of `drainTasks` or `failPendingTasks` in `run`. -/
def RunPc.pending : RunPc → List Nat
  | .exec _ pending => pending
  | .callback _ _ pending _ => pending
  | .finish _ _ pending _ => pending
  | .completeAll _ pending => pending
  | _ => []

/-- The callbacks in progress on a server thread, innermost first. -/
def RunPc.running : RunPc → List Nat
  | .callback _ q _ inline => inline ++ [q]
  | .iterate inline => inline
  | _ => []

/-- The task whose completion is due. -/
def RunPc.finishing : RunPc → Option Nat
  | .finish _ q _ _ => some q
  | _ => none

/-- The local queue of `failPendingTasks` in `stop`. -/
def Call.pending : Call → List Nat
  | .stop (.complete pending) => pending
  | _ => []

/-- The task an `invoke` waits for. -/
def Call.awaits : Call → Option Nat
  | .invoke _ _ (.wait q) => some q
  | .invoke _ _ (.cancel q) => some q
  | .invoke _ _ (.waitDone q) => some q
  | _ => none

def Frame.pending (f : Frame) : List Nat := f.pc.pending ++ f.call.elim [] Call.pending

@[grind cases]
structure TaskFacts (t : Tid) (f : Frame) (s : Shared) : Prop where
  pendingNodup : f.pending.Nodup
  pending : ∀ q ∈ f.pending, (s.taskHistory q).owner = .held t
  runningNodup : f.pc.running.Nodup
  running : ∀ q ∈ f.pc.running, (s.taskHistory q).owner = .current t ∧
    (s.taskHistory q).begun = 1 ∧ (s.taskHistory q).ended = 0
  finishing : ∀ q, f.pc.finishing = some q → (s.taskHistory q).owner = .current t ∧
    (s.taskHistory q).begun = (s.taskHistory q).ended
  awaits : ∀ k, f.call = some k → ∀ q, k.awaits = some q → q < s.nextTask

/-- The callback of the task will not begin any more. -/
@[grind]
def Shared.Settled (s : Shared) (q : Nat) : Prop :=
  (s.task q).state = .cancelled ∨ (s.taskHistory q).owner = .gone

/-- Nobody else touches the tasks that `u` holds or runs, and nobody begins a settled one. -/
@[grind cases]
structure TaskRely (u : Tid) (s s' : Shared) : Prop where
  nextTask : s.nextTask ≤ s'.nextTask
  owned : ∀ q, (s.taskHistory q).owner = .held u ∨ (s.taskHistory q).owner = .current u →
    (s'.taskHistory q).owner = (s.taskHistory q).owner ∧ (s'.taskHistory q).begun = (s.taskHistory q).begun ∧
    (s'.taskHistory q).ended = (s.taskHistory q).ended
  settled : ∀ q, q < s.nextTask → s.Settled q →
    s'.Settled q ∧ (s'.taskHistory q).begun = (s.taskHistory q).begun

def taskOutline : Threads.Outline Tid Shared Frame := ⟨TaskInv, TaskFacts, TaskRely⟩

theorem taskFacts_stable {t : Tid} {f : Frame} {s s' : Shared} (h : TaskFacts t f s)
    (hr : TaskRely t s s') : TaskFacts t f s' := by
  constructor
  all_goals grind -ring -linarith

/-! ## Operations -/

section Operations

variable {t u : Tid} {s s' : Shared} {q : Nat}

theorem push_inv (k : Option Completion) (hk : ∀ c, k = some c → c.done = false) (hi : TaskInv s) :
    TaskInv (s.push k) := by
  constructor
  all_goals simp only [Shared.push]
  all_goals grind -ring -linarith

theorem push_rely (k : Option Completion) (hi : TaskInv s) : TaskRely u s (s.push k) := by
  constructor
  all_goals simp only [Shared.push]
  all_goals grind -ring -linarith

theorem takeTasks_inv (hi : TaskInv s) : TaskInv (s.takeTasks t) := by
  constructor
  all_goals simp only [Shared.takeTasks]
  all_goals grind -ring -linarith

theorem takeTasks_rely (hi : TaskInv s) : TaskRely u s (s.takeTasks t) := by
  constructor
  all_goals simp only [Shared.takeTasks]
  all_goals grind -ring -linarith

theorem beginInline_inv (r : Nat) (hi : TaskInv s) : TaskInv (s.beginInline r) := by
  constructor
  all_goals simp only [Shared.beginInline]
  all_goals grind -ring -linarith

theorem beginInline_rely (r : Nat) (hi : TaskInv s) : TaskRely u s (s.beginInline r) := by
  constructor
  all_goals simp only [Shared.beginInline]
  all_goals grind -ring -linarith

theorem complete_inv {error : Str} (hi : TaskInv s)
    (ho : (s.taskHistory q).owner = .held t ∨ (s.taskHistory q).owner = .current t)
    (hb : (s.taskHistory q).begun = (s.taskHistory q).ended) (h : s.complete q error = some s') :
    TaskInv s' := by
  replace h := complete_step h
  cases h
  all_goals constructor
  all_goals grind -ring -linarith

theorem complete_rely {error : Str} (hu : u ≠ t)
    (ho : (s.taskHistory q).owner = .held t ∨ (s.taskHistory q).owner = .current t)
    (h : s.complete q error = some s') : TaskRely u s s' := by
  replace h := complete_step h
  cases h
  all_goals constructor
  all_goals grind -ring -linarith

/-- `complete` touches one task. -/
theorem complete_frame {error : Str} (h : s.complete q error = some s') :
    s'.nextTask = s.nextTask ∧ ∀ q', q' ≠ q → s'.taskHistory q' = s.taskHistory q' := by
  replace h := complete_step h
  cases h
  all_goals refine ⟨rfl, ?_⟩
  all_goals grind -ring -linarith

end Operations

/-! ## Calls -/

/-- The members that the outline talks about are the same. -/
structure SameTasks (s s' : Shared) : Prop where
  tasks : s'.tasks = s.tasks
  task : s'.task = s.task
  nextTask : s'.nextTask = s.nextTask
  taskHistory : s'.taskHistory = s.taskHistory

namespace SameTasks

variable {s s' : Shared}

theorem inv (e : SameTasks s s') (h : TaskInv s) : TaskInv s' := by
  cases s; cases s'
  obtain ⟨rfl, rfl, rfl, rfl⟩ := e
  exact ⟨h.1, h.2, h.3, h.4, h.5, h.6, h.7, h.8, h.9⟩

theorem facts {t : Tid} {f : Frame} (e : SameTasks s s') (h : TaskFacts t f s) : TaskFacts t f s' := by
  cases s; cases s'
  obtain ⟨rfl, rfl, rfl, rfl⟩ := e
  exact ⟨h.1, h.2, h.3, h.4, h.5, h.6⟩

theorem rely (e : SameTasks s s') (u : Tid) : TaskRely u s s' := by
  cases s; cases s'
  obtain ⟨rfl, rfl, rfl, rfl⟩ := e
  exact ⟨Nat.le_refl _, fun _ _ => ⟨rfl, rfl, rfl⟩, fun _ _ h => ⟨h, rfl⟩⟩

theorem of_startAction {validation : Option Str} {t : Tid} {a : Choice} {p : StartPc} {p' : Option StartPc}
    (h : startAction validation t a s p = some (s', p')) : SameTasks s s' := by
  replace h := startAction_step h
  cases h
  all_goals exact ⟨rfl, rfl, rfl, rfl⟩

theorem of_requestStopAction {t : Tid} {p : RequestStopPc} {p' : Option RequestStopPc}
    (h : requestStopAction t s p = some (s', p')) : SameTasks s s' := by
  replace h := requestStopAction_step h
  cases h
  all_goals exact ⟨rfl, rfl, rfl, rfl⟩

end SameTasks

section Calls

variable {t : Tid} {a : Choice} {s s' : Shared} {pc : RunPc}

/-- The facts of a frame, with the call it is in left out. -/
theorem TaskFacts.setCall {k : Option Call} {k' : Option Call} (h : TaskFacts t ⟨pc, k⟩ s)
    (hp : (k'.elim [] Call.pending).Sublist (k.elim [] Call.pending))
    (ha : ∀ c, k' = some c → ∀ q, c.awaits = some q → q < s.nextTask) : TaskFacts t ⟨pc, k'⟩ s where
  pendingNodup := h.pendingNodup.sublist (hp.append_left _)
  pending q hq := h.pending q ((hp.append_left _).subset hq)
  runningNodup := h.runningNodup
  running := h.running
  finishing := h.finishing
  awaits := ha

theorem stop_tasks {p : StopPc} {p' : Option StopPc} (hi : TaskInv s) (hf : TaskFacts t ⟨pc, some (.stop p)⟩ s)
    (h : stopAction t s p = some (s', p')) :
    TaskInv s' ∧ TaskFacts t ⟨pc, p'.map .stop⟩ s' ∧ ∀ u, u ≠ t → TaskRely u s s' := by
  -- Every point but the two of `failPendingTasks` leaves the tasks alone.
  have quiet : SameTasks s s' → (p'.map Call.stop).elim [] Call.pending = [] →
      TaskInv s' ∧ TaskFacts t ⟨pc, p'.map .stop⟩ s' ∧ ∀ u, u ≠ t → TaskRely u s s' := by
    intro e hp
    refine ⟨e.inv hi, e.facts (hf.setCall (by rw [hp]; exact List.nil_sublist _) ?_), fun u _ => e.rely u⟩
    intro c hc q hq
    obtain ⟨p', -, rfl⟩ := Option.map_eq_some_iff.mp hc
    cases hq
  replace h := stopAction_step h
  cases h
  case request hq => exact quiet (.of_requestStopAction hq) rfl
  case requested hq => exact quiet (.of_requestStopAction hq) rfl
  case failPending =>
    refine ⟨takeTasks_inv hi, ?_, fun u _ => takeTasks_rely hi⟩
    constructor
    all_goals simp only [Shared.takeTasks, Frame.pending, Option.map_some, Option.elim, Call.pending]
    all_goals grind -ring -linarith [Frame.pending, Call.awaits, List.nodup_append]
  case complete q pending hc =>
    have ho : (s.taskHistory q).owner = .held t := hf.pending q (by simp [Frame.pending, Call.pending])
    have hb : (s.taskHistory q).begun = (s.taskHistory q).ended := by grind -ring -linarith
    refine ⟨complete_inv hi (.inl ho) hb hc, ?_, fun u hu => complete_rely hu (.inl ho) hc⟩
    obtain ⟨hnext, hframe⟩ := complete_frame hc
    have hnodup := hf.pendingNodup
    simp only [Frame.pending, Option.elim, Call.pending] at hnodup
    constructor
    all_goals simp only [Frame.pending, Option.map_some, Option.elim, Call.pending]
    all_goals grind -ring -linarith [Frame.pending, Call.awaits, Call.pending, List.nodup_append]
  all_goals exact quiet ⟨rfl, rfl, rfl, rfl⟩ rfl

theorem post_tasks {callable : Bool} {p : PostPc} {p' : Option PostPc} (hi : TaskInv s)
    (hf : TaskFacts t ⟨pc, some (.post callable p)⟩ s) (h : postAction callable s p = some (s', p')) :
    TaskInv s' ∧ TaskFacts t ⟨pc, p'.map (.post callable)⟩ s' ∧ ∀ u, u ≠ t → TaskRely u s s' := by
  have hf' : TaskFacts t ⟨pc, p'.map (.post callable)⟩ s := by
    refine hf.setCall ?_ ?_
    · cases p' <;> simp [Call.pending]
    · intro c hc q hq
      obtain ⟨p', -, rfl⟩ := Option.map_eq_some_iff.mp hc
      cases hq
  have e : SameTasks s s := ⟨rfl, rfl, rfl, rfl⟩
  replace h := postAction_step h
  cases h
  case push => exact ⟨push_inv none nofun hi, taskFacts_stable hf' (push_rely none hi), fun u _ => push_rely none hi⟩
  all_goals exact ⟨hi, hf', fun u _ => e.rely u⟩

theorem invoke_tasks {callable : Bool} {timeout : Int} {p : InvokePc} {p' : Option InvokePc} (hi : TaskInv s)
    (hf : TaskFacts t ⟨pc, some (.invoke callable timeout p)⟩ s)
    (h : invokeAction callable timeout t a s p = some (s', p')) :
    TaskInv s' ∧ (∀ q, (p'.map (Call.invoke callable timeout)).bind Call.awaits = some q → q < s'.nextTask) ∧
      ∀ u, TaskRely u s s' := by
  have hq : ∀ q, (Call.invoke callable timeout p).awaits = some q → q < s.nextTask := hf.awaits _ rfl
  clear hf
  replace h := invokeAction_step h
  cases h
  case push =>
    refine ⟨push_inv (some {}) (fun c hc => by cases hc; rfl) hi, fun q hq => ?_, fun u => push_rely (some {}) hi⟩
    obtain rfl := Option.some.inj hq
    exact Nat.lt_succ_self _
  all_goals simp only [Call.awaits, Option.some.injEq, forall_eq', reduceCtorEq] at hq
  all_goals refine ⟨⟨?_, ?_, ?_, ?_, ?_, ?_, ?_, ?_, ?_⟩, ?_, fun u => ⟨?_, ?_, ?_⟩⟩
  all_goals grind -ring -linarith [Call.awaits, Option.map_eq_some_iff]

end Calls

/-! ## `run` -/

section Run

variable {r : Nat} {a : Choice} {s s' : Shared} {p p' : RunPc}

theorem exec_tasks {ph : Phase} {pending : List Nat} (hi : TaskInv s)
    (hf : TaskFacts (.run r) ⟨.exec ph pending, none⟩ s) (h : runAction r a s (.exec ph pending) = some (s', p')) :
    TaskInv s' ∧ TaskFacts (.run r) ⟨p', none⟩ s' ∧ ∀ u, u ≠ .run r → TaskRely u s s' := by
  obtain ⟨hnodup, hheld, -, -, -, -⟩ := hf
  simp only [Frame.pending, RunPc.pending, Option.elim, List.append_nil] at hnodup hheld
  replace h := runAction_step h
  cases h
  case execLoop | execFinal =>
    have e : SameTasks s s := ⟨rfl, rfl, rfl, rfl⟩
    refine ⟨hi, ?_, fun u _ => e.rely u⟩
    constructor <;> simp [Frame.pending, RunPc.pending, RunPc.running, RunPc.finishing]
  all_goals refine ⟨⟨?_, ?_, ?_, ?_, ?_, ?_, ?_, ?_, ?_⟩, ⟨?_, ?_, ?_, ?_, ?_, ?_⟩, fun u hu => ⟨?_, ?_, ?_⟩⟩
  all_goals simp only [Frame.pending, RunPc.pending, RunPc.running, RunPc.finishing, Option.elim, List.append_nil,
    List.nil_append]
  all_goals grind -ring -linarith

theorem callback_tasks {ph : Phase} {q : Nat} {pending inl : List Nat} (hi : TaskInv s)
    (hf : TaskFacts (.run r) ⟨.callback ph q pending inl, none⟩ s)
    (h : runAction r a s (.callback ph q pending inl) = some (s', p')) :
    TaskInv s' ∧ TaskFacts (.run r) ⟨p', none⟩ s' ∧ ∀ u, u ≠ .run r → TaskRely u s s' := by
  obtain ⟨hnodup, hheld, hrun, hrunning, -, -⟩ := hf
  simp only [Frame.pending, RunPc.pending, RunPc.running, Option.elim, List.append_nil] at hnodup hheld hrun hrunning
  replace h := runAction_step h
  cases h
  all_goals refine ⟨⟨?_, ?_, ?_, ?_, ?_, ?_, ?_, ?_, ?_⟩, ⟨?_, ?_, ?_, ?_, ?_, ?_⟩, fun u hu => ⟨?_, ?_, ?_⟩⟩
  all_goals simp only [Frame.pending, RunPc.pending, RunPc.running, RunPc.finishing, Option.elim, List.append_nil]
  all_goals grind -ring -linarith

theorem iterate_tasks {inl : List Nat} (hi : TaskInv s) (hf : TaskFacts (.run r) ⟨.iterate inl, none⟩ s)
    (h : runAction r a s (.iterate inl) = some (s', p')) :
    TaskInv s' ∧ TaskFacts (.run r) ⟨p', none⟩ s' ∧ ∀ u, u ≠ .run r → TaskRely u s s' := by
  obtain ⟨-, -, hrun, hrunning, -, -⟩ := hf
  simp only [RunPc.running] at hrun hrunning
  replace h := runAction_step h
  cases h
  all_goals refine ⟨⟨?_, ?_, ?_, ?_, ?_, ?_, ?_, ?_, ?_⟩, ⟨?_, ?_, ?_, ?_, ?_, ?_⟩, fun u hu => ⟨?_, ?_, ?_⟩⟩
  all_goals grind -ring -linarith [Frame.pending, RunPc.pending, RunPc.running, RunPc.finishing]

theorem takeTasks_facts (hi : TaskInv s) (hp : p'.pending = s.tasks) (hrun : p'.running = [])
    (hfin : p'.finishing = none) : TaskFacts (.run r) ⟨p', none⟩ (s.takeTasks (.run r)) := by
  constructor
  all_goals simp only [Frame.pending, Option.elim, List.append_nil, hp, hrun, hfin, Shared.takeTasks]
  all_goals grind -ring -linarith

/-- A step that completes the head of a local queue, or the task whose callback ended. -/
theorem complete_tasks {q : Nat} {pending : List Nat} {error : Str} (hi : TaskInv s)
    (ho : (s.taskHistory q).owner = .held (.run r) ∨ (s.taskHistory q).owner = .current (.run r))
    (hb : (s.taskHistory q).begun = (s.taskHistory q).ended) (hnodup : (q :: pending).Nodup)
    (hheld : ∀ q ∈ pending, (s.taskHistory q).owner = .held (.run r)) (hp : p'.pending = pending)
    (hrun : p'.running = []) (hfin : p'.finishing = none) (h : s.complete q error = some s') :
    TaskInv s' ∧ TaskFacts (.run r) ⟨p', none⟩ s' ∧ ∀ u, u ≠ .run r → TaskRely u s s' := by
  refine ⟨complete_inv hi ho hb h, ?_, fun u hu => complete_rely hu ho h⟩
  obtain ⟨-, hframe⟩ := complete_frame h
  constructor
  all_goals simp only [Frame.pending, Option.elim, List.append_nil, hp, hrun, hfin]
  all_goals grind -ring -linarith

/-- The points of `run` that touch tasks. -/
def RunPc.tasky : RunPc → Bool
  | .drain _ => true
  | .exec _ _ => true
  | .callback _ _ _ _ => true
  | .finish _ _ _ _ => true
  | .iterate _ => true
  | .failPending _ => true
  | .completeAll _ _ => true
  | _ => false

theorem quiet_tasks (hp : p.tasky = false) (h : runAction r a s p = some (s', p')) :
    SameTasks s s' ∧ p'.pending = [] ∧ p'.running = [] ∧ p'.finishing = none := by
  replace h := runAction_step h
  cases h
  all_goals simp only [RunPc.tasky, reduceCtorEq] at hp
  all_goals exact ⟨⟨rfl, rfl, rfl, rfl⟩, rfl, rfl, rfl⟩

theorem run_tasks (hi : TaskInv s) (hf : TaskFacts (.run r) ⟨p, none⟩ s)
    (h : runAction r a s p = some (s', p')) :
    TaskInv s' ∧ TaskFacts (.run r) ⟨p', none⟩ s' ∧ ∀ u, u ≠ .run r → TaskRely u s s' := by
  cases ht : p.tasky with
  | false =>
      obtain ⟨e, hpend, hrun, hfin⟩ := quiet_tasks ht h
      refine ⟨e.inv hi, ?_, fun u _ => e.rely u⟩
      constructor <;> simp [Frame.pending, hpend, hrun, hfin]
  | true =>
      cases p with
      | exec ph pending => exact exec_tasks hi hf h
      | callback ph q pending inl => exact callback_tasks hi hf h
      | iterate inl => exact iterate_tasks hi hf h
      | drain ph =>
          cases runAction_step h
          exact ⟨takeTasks_inv hi, takeTasks_facts hi rfl rfl rfl, fun u _ => takeTasks_rely hi⟩
      | failPending exit =>
          cases runAction_step h
          exact ⟨takeTasks_inv hi, takeTasks_facts hi rfl rfl rfl, fun u _ => takeTasks_rely hi⟩
      | finish ph q pending error =>
          cases runAction_step h with
          | finish hc =>
              obtain ⟨ho, hb⟩ := hf.finishing q rfl
              have hnodup := hf.pendingNodup
              have hheld := hf.pending
              simp only [Frame.pending, RunPc.pending, Option.elim, List.append_nil] at hnodup hheld
              have hq : q ∉ pending := fun hq => by simp [hheld q hq] at ho
              exact complete_tasks hi (.inr ho) hb (List.nodup_cons.mpr ⟨hq, hnodup⟩) hheld rfl rfl rfl hc
      | completeAll exit pending =>
          have hnodup := hf.pendingNodup
          have hheld := hf.pending
          simp only [Frame.pending, RunPc.pending, Option.elim, List.append_nil] at hnodup hheld
          replace h := runAction_step h
          cases h
          case completed | completedFailed =>
            have e : SameTasks s s := ⟨rfl, rfl, rfl, rfl⟩
            refine ⟨hi, ?_, fun u _ => e.rely u⟩
            constructor <;> simp [Frame.pending, RunPc.pending, RunPc.running, RunPc.finishing]
          case completeAll q pending hc =>
            have ho := hheld q List.mem_cons_self
            have hb : (s.taskHistory q).begun = (s.taskHistory q).ended := by grind -ring -linarith
            refine complete_tasks hi (.inl ho) hb hnodup ?_ rfl rfl rfl hc
            exact fun q' hq' => hheld q' (List.mem_cons_of_mem q hq')
      | _ => cases ht

end Run

/-! ## The outline is valid -/

section Valid

variable {validation : Option Str} {t : Tid} {a : Choice} {s s' : Shared} {pc : RunPc} {f' : Frame} {c : Call}

/-- A call that leaves the tasks alone and has no local queue. -/
theorem same_tasks {k : Call} {k' : Option Call} (e : SameTasks s s') (hi : TaskInv s)
    (hf : TaskFacts t ⟨pc, some k⟩ s) (hp : k'.elim [] Call.pending = []) (ha : k'.bind Call.awaits = none) :
    TaskInv s' ∧ TaskFacts t ⟨pc, k'⟩ s' ∧ ∀ u, u ≠ t → TaskRely u s s' := by
  refine ⟨e.inv hi, e.facts (hf.setCall (by rw [hp]; exact List.nil_sublist _) ?_), fun u _ => e.rely u⟩
  rintro c rfl q hq
  simp [hq] at ha

theorem inline_facts {r : Nat} {inl : List Nat} {k : Option Call} (hi : TaskInv s)
    (hf : TaskFacts (.run r) ⟨pc, k⟩ s) (hinl : pc.inline = some inl) :
    TaskFacts (.run r) ⟨pc.setInline (s.nextTask :: inl), none⟩ (s.beginInline r) := by
  replace hf : TaskFacts (.run r) ⟨pc, none⟩ s := hf.setCall (List.nil_sublist _) nofun
  have hstable := taskFacts_stable hf (beginInline_rely r hi)
  cases pc
  all_goals simp only [RunPc.inline, reduceCtorEq, Option.some.injEq] at hinl
  all_goals subst hinl
  all_goals obtain ⟨h₁, h₂, h₃, h₄, -, -⟩ := hf
  all_goals refine ⟨hstable.1, hstable.2, ?_, ?_, nofun, nofun⟩
  all_goals simp only [RunPc.setInline, RunPc.running, Shared.beginInline] at h₃ h₄ ⊢
  all_goals grind -ring -linarith

theorem call_tasks (hi : TaskInv s) (hf : TaskFacts t ⟨pc, some c⟩ s)
    (h : callAction validation t a s pc c = some (s', f')) :
    TaskInv s' ∧ TaskFacts t f' s' ∧ ∀ u, u ≠ t → TaskRely u s s' := by
  cases callStep h with
  | @start p p' s' hp =>
      exact same_tasks (.of_startAction hp) hi hf (by cases p' <;> rfl) (by cases p' <;> rfl)
  | @requestStop p p' s' hp =>
      exact same_tasks (.of_requestStopAction hp) hi hf (by cases p' <;> rfl) (by cases p' <;> rfl)
  | stop hp => exact stop_tasks hi hf hp
  | post hp => exact post_tasks hi hf hp
  | @invoke callable timeout p p' s' hp =>
      obtain ⟨hinv, ha, hr⟩ := invoke_tasks hi hf hp
      refine ⟨hinv, ?_, fun u _ => hr u⟩
      have hnone : TaskFacts t ⟨pc, none⟩ s := hf.setCall (List.nil_sublist _) nofun
      refine (taskFacts_stable hnone (hr t)).setCall ?_ ?_
      · cases p' <;> exact List.nil_sublist _
      · intro c hc q hq
        exact ha q (by simp [hc, hq])
  | inline ht hinl =>
      subst ht
      exact ⟨beginInline_inv _ hi, inline_facts hi hf hinl, fun u _ => beginInline_rely _ hi⟩

/-- Every action meets the task outline. -/
theorem tasks_valid : taskOutline.Valid (program validation) .trivial where
  step {t a s f s' f'} _ _ hi hf h := by
    obtain ⟨pc, call⟩ := f
    obtain ⟨c, rfl, h⟩ | ⟨api, rfl, -, -, rfl, rfl⟩ | ⟨r, p', rfl, rfl, hp, rfl⟩ := frameAction_cases h
    · exact call_tasks hi hf h
    · have e : SameTasks s' s' := ⟨rfl, rfl, rfl, rfl⟩
      refine ⟨hi, TaskFacts.setCall hf ?_ ?_, fun u _ => e.rely u⟩
      · cases api <;> exact List.nil_sublist _
      · rintro c ⟨⟩ q hq
        cases api <;> cases hq
    · exact run_tasks hi hf hp
  stable _ _ _ hf hr := taskFacts_stable hf hr

theorem tasks_initial : taskOutline.Holds (program validation).initial := by
  refine ⟨?_, fun t => ?_⟩
  · constructor <;> simp [Threads.initial, program]
  · constructor <;> simp [Threads.initial, program, Frame.pending, RunPc.pending, RunPc.running, RunPc.finishing]

theorem tasks_reachable {c : Config Tid Shared Frame} (h : (program validation).Reachable c) :
    taskOutline.Holds c :=
  tasks_valid.reachable (fun c _ => Threads.Outline.holds_trivial c) tasks_initial h

end Valid

end RttOpcua.Server
