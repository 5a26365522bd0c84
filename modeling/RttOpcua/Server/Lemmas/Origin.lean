import RttOpcua.Server.Lemmas.Lifecycle
import RttOpcua.Server.Lemmas.Tasks

/-!
# Tasks and the runs that accepted them

A run clears the queue before it ends, and a new one begins only after that. So a task that is queued
belongs to the newest run, as long as nothing is queued behind the back of a run that has cleared the
queue: `run` clears it in its failure handler before `setFailure` leaves `running`.
-/

namespace RttOpcua.Server

open RttOpcua.Lib

/-- The queue was cleared by the `failPendingTasks` of `run`. -/
def RunPc.cleared : RunPc → Bool
  | .completeAll _ _ => true
  | .storeStopped => true
  | .setFailure _ => true
  | .clearId => true
  | .exited => true
  | _ => false

/-- The queue was cleared by the failure handler, and `setFailure` is still due. -/
def RunPc.failing : RunPc → Bool
  | .completeAll (.failed _) _ => true
  | .setFailure _ => true
  | _ => false

/-- The section of `tasks_mutex` that accepts a task. -/
def Call.accepts : Call → Bool
  | .post _ .push => true
  | .invoke _ _ .push => true
  | _ => false

/-- No task is accepted between the failure handler's `failPendingTasks` and its `setFailure`. -/
def acceptsSafely (c : Config Tid Shared Frame) (t : Tid) (_ : Choice) : Bool :=
  match (c.frame t).call with
  | some k => !(k.accepts && c.shared.currentState == .running &&
      (c.frame (.run (c.shared.runs - 1))).pc.failing)
  | none => true

structure TasksOfRun (c : Config Tid Shared Frame) : Prop where
  queued : ∀ q ∈ c.shared.tasks, (c.shared.taskHistory q).accepted + 1 = c.shared.runs
  cleared : ∀ r, r + 1 = c.shared.runs → (c.frame (.run r)).pc.cleared = true → c.shared.tasks = []
  noRun : c.shared.runs = 0 → c.shared.tasks = []
  pending : ∀ r, ∀ q ∈ (c.frame (.run r)).pc.pending, (c.shared.taskHistory q).accepted = r
  executed : ∀ q r, (c.shared.taskHistory q).executedBy = some r → (c.shared.taskHistory q).accepted = r

/-! ## What an action does to the queue -/

/-- The queue is the same or empty, and no task is accepted or begun. -/
structure Kept (s s' : Shared) : Prop where
  tasks : s'.tasks = s.tasks ∨ s'.tasks = []
  accepted : ∀ q, (s'.taskHistory q).accepted = (s.taskHistory q).accepted
  executedBy : ∀ q, (s'.taskHistory q).executedBy = (s.taskHistory q).executedBy

section Actions

variable {validation : Option Str} {t : Tid} {a : Choice} {s s' : Shared} {pc : RunPc} {k : Call} {f' : Frame}

theorem SameTasks.kept (e : SameTasks s s') : Kept s s' := by
  cases s; cases s'
  obtain ⟨rfl, rfl, rfl, rfl⟩ := e
  exact ⟨.inl rfl, fun _ => rfl, fun _ => rfl⟩

theorem Kept.takeTasks : Kept s (s.takeTasks t) := by
  refine ⟨.inr rfl, fun q => ?_, fun q => ?_⟩
  all_goals simp only [Shared.takeTasks]
  all_goals split <;> rfl

/-- One history changes, in neither of the two fields. -/
theorem Kept.update {q : Nat} {h : TaskHistory} (ht : s'.tasks = s.tasks)
    (hh : s'.taskHistory = Function.update s.taskHistory q h)
    (ha : h.accepted = (s.taskHistory q).accepted) (he : h.executedBy = (s.taskHistory q).executedBy) :
    Kept s s' := by
  refine ⟨.inl ht, fun q' => ?_, fun q' => ?_⟩
  all_goals rw [hh]
  all_goals by_cases hq : q' = q
  all_goals simp [hq, ha, he]

theorem Kept.complete {q : Nat} {error : Str} (h : s.complete q error = some s') : Kept s s' := by
  replace h := complete_step h
  cases h
  all_goals exact .update rfl rfl rfl rfl

theorem stop_kept_tasks {p : StopPc} {p' : Option StopPc} (h : stopAction t s p = some (s', p')) : Kept s s' := by
  replace h := stopAction_step h
  cases h
  case request hq => exact (SameTasks.of_requestStopAction hq).kept
  case requested hq => exact (SameTasks.of_requestStopAction hq).kept
  case complete hq => exact .complete hq
  case failPending => exact .takeTasks
  all_goals exact SameTasks.kept ⟨rfl, rfl, rfl, rfl⟩

theorem invoke_kept_tasks {callable : Bool} {timeout : Int} {p : InvokePc} {p' : Option InvokePc}
    (h : invokeAction callable timeout t a s p = some (s', p')) :
    Kept s s' ∨ p = .push ∧ s.currentState = .running ∧ s' = s.push (some {}) := by
  replace h := invokeAction_step h
  cases h
  case push hrun => exact .inr ⟨rfl, hrun, rfl⟩
  all_goals left
  all_goals first
    | exact ⟨.inl rfl, fun _ => rfl, fun _ => rfl⟩
    | exact .update rfl rfl rfl rfl

/-- What a call does to the queue and to the number of runs. -/
theorem call_origin (h : callAction validation t a s pc k = some (s', f')) :
    (f'.pc = pc ∧ Kept s s' ∧ (s'.runs = s.runs ∨ k = .start .spawn ∧ s'.runs = s.runs + 1)) ∨
    (f'.pc = pc ∧ k.accepts = true ∧ s.currentState = .running ∧ ∃ completion, s' = s.push completion) ∨
    (∃ r inl, t = .run r ∧ pc.inline = some inl ∧ s' = s.beginInline r ∧ f'.pc = pc.setInline (s.nextTask :: inl)) := by
  cases callStep h with
  | @start p p' s' hp =>
      refine .inl ⟨rfl, (SameTasks.of_startAction hp).kept, ?_⟩
      replace hp := startAction_step hp
      cases hp
      all_goals simp
  | requestStop hp =>
      exact .inl ⟨rfl, (SameTasks.of_requestStopAction hp).kept, .inl (requestStop_frame hp).2.2.1⟩
  | stop hp => exact .inl ⟨rfl, stop_kept_tasks hp, .inl (stop_runs hp)⟩
  | @post callable p p' s' hp =>
      replace hp := postAction_step hp
      cases hp
      case push hrun => exact .inr (.inl ⟨rfl, rfl, hrun, none, rfl⟩)
      all_goals exact .inl ⟨rfl, SameTasks.kept ⟨rfl, rfl, rfl, rfl⟩, .inl rfl⟩
  | invoke hp =>
      obtain hk | ⟨rfl, hrun, rfl⟩ := invoke_kept_tasks hp
      · exact .inl ⟨rfl, hk, .inl (SameLifecycle.of_invokeAction hp).runs⟩
      · exact .inr (.inl ⟨rfl, rfl, hrun, some {}, rfl⟩)
  | inline ht hinl => exact .inr (.inr ⟨_, _, ht, hinl, rfl, rfl⟩)

/-- What a step of run `r` does to the queue and to its local queue. -/
structure RunOrigin (r : Nat) (s s' : Shared) (p p' : RunPc) : Prop where
  runs : s'.runs = s.runs
  tasks : s'.tasks = s.tasks ∨ s'.tasks = []
  accepted : ∀ q, (s'.taskHistory q).accepted = (s.taskHistory q).accepted
  executedBy : ∀ q, (s'.taskHistory q).executedBy = (s.taskHistory q).executedBy ∨
    (s'.taskHistory q).executedBy = some r ∧ q ∈ p.pending
  pending : ∀ q ∈ p'.pending, q ∈ p.pending ∨ q ∈ s.tasks ∧ p.live = true
  cleared : p'.cleared = true → s'.tasks = [] ∨ p.cleared = true

theorem RunOrigin.of_kept {r : Nat} {p p' : RunPc} (hr : s'.runs = s.runs) (hk : Kept s s')
    (hp : ∀ q ∈ p'.pending, q ∈ p.pending) (hc : p'.cleared = true → p.cleared = true) :
    RunOrigin r s s' p p' :=
  ⟨hr, hk.tasks, hk.accepted, fun q => .inl (hk.executedBy q), fun q hq => .inl (hp q hq), fun h => .inr (hc h)⟩

theorem run_origin {r : Nat} {p p' : RunPc} (h : runAction r a s p = some (s', p')) : RunOrigin r s s' p p' := by
  replace h := runAction_step h
  cases h
  case drain ph =>
    have hk : Kept s (s.takeTasks (.run r)) := .takeTasks
    exact ⟨rfl, hk.tasks, hk.accepted, fun q => .inl (hk.executedBy q), fun q hq => .inr ⟨hq, rfl⟩,
      fun hc => by cases hc⟩
  case failPending exit =>
    have hk : Kept s (s.takeTasks (.run r)) := .takeTasks
    exact ⟨rfl, hk.tasks, hk.accepted, fun q => .inl (hk.executedBy q), fun q hq => .inr ⟨hq, rfl⟩, fun _ => .inl rfl⟩
  case exec ph q pending hqueued =>
    refine ⟨rfl, .inl rfl, fun q' => ?_, fun q' => ?_, fun q' hq' => .inl ?_, fun hc => by cases hc⟩
    · grind -ring -linarith
    · simp only [RunPc.pending]
      grind -ring -linarith
    · exact List.mem_cons_of_mem q hq'
  case execCancelled ph q pending hqueued =>
    exact .of_kept rfl (.update rfl rfl rfl rfl) (fun q' hq' => List.mem_cons_of_mem q hq') fun hc => by cases hc
  case callback | callbackInline =>
    exact .of_kept rfl (.update rfl rfl rfl rfl) (fun _ hq => hq) fun hc => by cases hc
  case iterateInline => exact .of_kept rfl (.update rfl rfl rfl rfl) (fun q hq => by cases hq) fun hc => by cases hc
  case finish hc =>
    exact .of_kept (SameLifecycle.of_complete hc).runs (.complete hc) (fun _ hq => hq) fun hc => by cases hc
  case completeAll exit q pending hc =>
    exact .of_kept (SameLifecycle.of_complete hc).runs (.complete hc) (fun q' hq' => List.mem_cons_of_mem q hq')
      fun _ => rfl
  -- the others have no local queue
  all_goals refine .of_kept rfl (SameTasks.kept ⟨rfl, rfl, rfl, rfl⟩) (fun q hq => by cases hq) fun hc => ?_
  all_goals first | rfl | cases hc

end Actions

/-! ## Whole states -/

section States

variable {validation : Option Str} {t : Tid} {a : Choice} {c c' : Config Tid Shared Frame} {s' : Shared}
  {k : Call} {f' : Frame} {r : Nat}

theorem pc_of_exited (hc : lifecycle.Holds c) (h : c.shared.exited r = true) :
    (c.frame (.run r)).pc = .exited := by
  obtain ⟨hunborn, -, hlive, -⟩ := (hc.2 (.run r)).1
  generalize (c.frame (.run r)).pc = p at hunborn hlive
  cases p
  case unborn => simp [h] at hunborn
  case exited => rfl
  all_goals simp [RunPc.live, Shared.Alive, h] at hlive

/-- While the server is running, the newest run has cleared the queue only in its failure handler. -/
theorem failing_of_cleared (hc : lifecycle.Holds c) (hr : r + 1 = c.shared.runs)
    (hrun : c.shared.currentState = .running) (hp : (c.frame (.run r)).pc.cleared = true) :
    (c.frame (.run r)).pc.failing = true := by
  have hinv : LifecycleInv c.shared := hc.1
  have hex := ((hinv.running hrun).2 r hr).2
  obtain ⟨-, hexited, -, -, -, -, hleft⟩ := (hc.2 (.run r)).1
  generalize (c.frame (.run r)).pc = p at hexited hleft hp ⊢
  cases p
  case completeAll exit pending =>
    cases exit with
    | normal => simp [RunPc.left, hrun] at hleft
    | failed why => rfl
  all_goals simp_all [RunPc.cleared, RunPc.left, RunPc.failing]

/-- The frames of the runs look the same to `TasksOfRun`. -/
def SameFrames (c c' : Config Tid Shared Frame) : Prop :=
  ∀ r, (c'.frame (.run r)).pc.pending = (c.frame (.run r)).pc.pending ∧
    (c'.frame (.run r)).pc.cleared = (c.frame (.run r)).pc.cleared

theorem SameFrames.update (h : f'.pc.pending = (c.frame t).pc.pending ∧ f'.pc.cleared = (c.frame t).pc.cleared) :
    SameFrames c ⟨s', Function.update c.frame t f'⟩ := by
  intro r
  by_cases ht : t = .run r
  · subst ht; simpa using h
  · simp [Ne.symm ht]

theorem TasksOfRun.kept (h : TasksOfRun c) (hf : SameFrames c c') (hk : Kept c.shared c'.shared)
    (hr : c'.shared.runs = c.shared.runs) : TasksOfRun c' where
  queued q hq := by
    obtain ht | ht := hk.tasks
    · rw [hk.accepted, hr]; exact h.queued q (ht ▸ hq)
    · simp [ht] at hq
  cleared r hr' hc := by
    obtain ht | ht := hk.tasks
    · rw [ht]; exact h.cleared r (hr ▸ hr') ((hf r).2 ▸ hc)
    · exact ht
  noRun hr' := by
    obtain ht | ht := hk.tasks
    · rw [ht]; exact h.noRun (hr ▸ hr')
    · exact ht
  pending r q hq := by rw [hk.accepted]; exact h.pending r q ((hf r).1 ▸ hq)
  executed q r hq := by rw [hk.accepted]; exact h.executed q r (hk.executedBy q ▸ hq)

/-- A new run finds the queue empty. -/
theorem TasksOfRun.spawn (hc : lifecycle.Holds c) (h : TasksOfRun c) (hn : c.shared.Nobody)
    (hf : SameFrames c c') (hk : Kept c.shared c'.shared) : TasksOfRun c' := by
  have hempty : c.shared.tasks = [] := by
    cases hruns : c.shared.runs with
    | zero => exact h.noRun hruns
    | succ r =>
        have hex : c.shared.exited r = true := by
          by_contra hne
          exact hn.2 r ⟨by omega, by simpa using hne⟩
        exact h.cleared r hruns.symm (by simp [pc_of_exited hc hex, RunPc.cleared])
  have hempty' : c'.shared.tasks = [] := by
    obtain ht | ht := hk.tasks
    · rw [ht]; exact hempty
    · exact ht
  refine ⟨by simp [hempty'], fun _ _ _ => hempty', fun _ => hempty', fun r q hq => ?_, fun q r hq => ?_⟩
  · rw [hk.accepted]; exact h.pending r q ((hf r).1 ▸ hq)
  · rw [hk.accepted]; exact h.executed q r (hk.executedBy q ▸ hq)

/-- A task is made at `nextTask`, which nobody holds yet. -/
theorem TasksOfRun.made (ht : taskOutline.Holds c) (h : TasksOfRun c) (hf : SameFrames c c') {n : TaskHistory}
    (hh : c'.shared.taskHistory = Function.update c.shared.taskHistory c.shared.nextTask n)
    (hr : c'.shared.runs = c.shared.runs) (hn : n.accepted + 1 = c.shared.runs)
    (hby : ∀ r, n.executedBy = some r → n.accepted = r)
    (htasks : c'.shared.tasks = c.shared.tasks ∨
      c'.shared.tasks = c.shared.tasks ++ [c.shared.nextTask] ∧
        ∀ r, r + 1 = c.shared.runs → (c.frame (.run r)).pc.cleared = false) : TasksOfRun c' := by
  have hi : TaskInv c.shared := ht.1
  have hfresh : (c.shared.taskHistory c.shared.nextTask).owner = .gone := by simp [hi.fresh _ (Nat.le_refl _)]
  have hold : ∀ q, (c.shared.taskHistory q).owner ≠ .gone →
      (c'.shared.taskHistory q).accepted = (c.shared.taskHistory q).accepted := by
    intro q hq
    have hne : q ≠ c.shared.nextTask := fun he => hq (he ▸ hfresh)
    simp [hh, hne]
  constructor
  · intro q hq
    have hq' : q ∈ c.shared.tasks ∨ q = c.shared.nextTask := by
      obtain ht | ⟨ht, -⟩ := htasks
      · exact .inl (ht ▸ hq)
      · simpa [ht] using hq
    obtain hq' | rfl := hq'
    · rw [hold q (by simp [hi.queued q hq']), hr]; exact h.queued q hq'
    · simpa [hh, hr] using hn
  · intro r hr' hc
    obtain ht | ⟨-, hnot⟩ := htasks
    · rw [ht]; exact h.cleared r (hr ▸ hr') ((hf r).2 ▸ hc)
    · simp [(hf r).2, hnot r (hr ▸ hr')] at hc
  · intro hz; omega
  · intro r q hq
    have hq' := (hf r).1 ▸ hq
    have hfacts : TaskFacts (.run r) (c.frame (.run r)) c.shared := ht.2 (.run r)
    rw [hold q (by simp [hfacts.pending q (List.mem_append_left _ hq')])]
    exact h.pending r q hq'
  · intro q r hq
    by_cases hne : q = c.shared.nextTask
    · subst hne
      simp only [hh, Function.update_self] at hq ⊢
      exact hby r hq
    · simp only [hh, Function.update_of_ne hne] at hq ⊢
      exact h.executed q r hq

theorem TasksOfRun.run {p' : RunPc} (hc : lifecycle.Holds c) (h : TasksOfRun c)
    (hp : runAction r a c.shared (c.frame (.run r)).pc = some (s', p')) :
    TasksOfRun ⟨s', Function.update c.frame (.run r) ⟨p', none⟩⟩ := by
  have hinv : LifecycleInv c.shared := hc.1
  have ho := run_origin hp
  have hother : ∀ r', r' ≠ r → Function.update c.frame (.run r) ⟨p', none⟩ (.run r') = c.frame (.run r') := by
    intro r' hne
    simp [hne]
  constructor
  · intro q hq
    obtain ht | ht := ho.tasks
    · simp only [ho.accepted, ho.runs]; exact h.queued q (ht ▸ hq)
    · simp [ht] at hq
  · intro r' hr' hcl
    have hkeep : (c.frame (.run r')).pc.cleared = true → s'.tasks = [] := by
      intro hcl
      obtain ht | ht := ho.tasks
      · rw [ht]; exact h.cleared r' (ho.runs ▸ hr') hcl
      · exact ht
    by_cases hne : r' = r
    · subst hne
      obtain ht | hcl := ho.cleared (by simpa using hcl)
      · exact ht
      · exact hkeep hcl
    · simp only [hother r' hne] at hcl
      exact hkeep hcl
  · intro hz
    obtain ht | ht := ho.tasks
    · rw [ht]; exact h.noRun (ho.runs ▸ hz)
    · exact ht
  · intro r' q hq
    simp only [ho.accepted]
    by_cases hne : r' = r
    · subst hne
      obtain hq | ⟨hq, hlive⟩ := ho.pending q (by simpa using hq)
      · exact h.pending r' q hq
      · -- Only the newest run is alive, and it takes the tasks that were accepted for it.
        have halive := ((hc.2 (.run r')).1.2.2.1 hlive).1
        have := hinv.newest r' halive
        have := h.queued q hq
        omega
    · simp only [hother r' hne] at hq
      exact h.pending r' q hq
  · intro q r' hq
    simp only [ho.accepted]
    obtain he | ⟨he, hmem⟩ := ho.executedBy q
    · exact h.executed q r' (he ▸ hq)
    · obtain rfl := Option.some.inj (he.symm.trans hq)
      exact h.pending r q hmem

theorem tasksOfRun_step (hc : lifecycle.Holds c) (ht : taskOutline.Holds c) (h : TasksOfRun c)
    (hok : acceptsSafely c t a = true) (hn : (program validation).next c t a = some c') : TasksOfRun c' := by
  obtain ⟨s', f', hf, rfl⟩ := Threads.next_eq_some.mp hn
  have hinv : LifecycleInv c.shared := hc.1
  obtain ⟨k, hk, hs⟩ | ⟨api, -, -, -, rfl, rfl⟩ | ⟨r, p', -, rfl, hp, rfl⟩ := frameAction_cases hf
  · obtain ⟨hu, -, hfacts⟩ := (hc.2 t).2 k hk
    obtain ⟨hpc, hkept, hr | ⟨rfl, -⟩⟩ | ⟨hpc, hacc, hrun, completion, rfl⟩ |
      ⟨r, inl, rfl, hinl, rfl, hpc⟩ := call_origin hs
    · exact h.kept (.update (by simp [hpc])) hkept hr
    · exact h.spawn hc hfacts.2.1 (.update (by simp [hpc])) hkept
    · have hpos := (hinv.running hrun).1
      refine h.made ht (.update (by simp [hpc])) rfl rfl (n := { owner := .queue, accepted := c.shared.runs - 1 })
        (by simp only; omega) nofun (.inr ⟨rfl, fun r hr => ?_⟩)
      by_contra hcl
      have hfail := failing_of_cleared hc hr hrun (by simpa using hcl)
      have hr' : c.shared.runs - 1 = r := by omega
      simp [acceptsSafely, hk, hacc, hrun, hr', hfail] at hok
    · have halive : c.shared.Alive r := by
        have hlive := (hc.2 (.run r)).1.2.2.1
        cases hpcr : (c.frame (.run r)).pc
        all_goals simp only [hpcr, RunPc.inline, reduceCtorEq] at hinl
        all_goals simp only [hpcr, RunPc.live, true_implies] at hlive
        all_goals exact hlive.1
      have hnew := hinv.newest r halive
      refine h.made ht (.update ?_) rfl rfl
        (n := { owner := .current (.run r), accepted := c.shared.runs - 1, begun := 1, executedBy := some r })
        (by simp only; omega) ?_ (.inl rfl)
      · rw [hpc]
        cases hpcr : (c.frame (.run r)).pc
        all_goals exact ⟨rfl, rfl⟩
      · rintro r' ⟨⟩
        simp only; omega
  · exact h.kept (.update ⟨rfl, rfl⟩) (SameTasks.kept ⟨rfl, rfl, rfl, rfl⟩) rfl
  · exact h.run hc hp

theorem tasksOfRun_reach (h : (program validation).Reach (fun c t a => acceptsSafely c t a = true) c) :
    TasksOfRun c := by
  refine Threads.reach_preserves (fun d t a d' hd hQ hok hn =>
    tasksOfRun_step (lifecycle_reachable hd) (tasks_reachable hd) hQ hok hn) ?_ h
  constructor <;> simp [Threads.initial, program, RunPc.pending]

end States

end RttOpcua.Server
