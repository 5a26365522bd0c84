import RttOpcua.Server.Lemmas.Tasks

/-!
# What an `invoke` reports

The queued path carries the end of a callback as a text, in the completion. The text fits the outcome of the callback
from the end of the callback on; for a task that never ran it is not empty.
-/

namespace RttOpcua.Server

open RttOpcua.Lib

/-! ## The outline -/

/-- The error of a completion fits what became of the callback. -/
def Reports (outcome : Option Outcome) (error : Str) : Prop :=
  match outcome with
  | some o => error = exceptionMessage o
  | none => error ≠ []

/-- The result of an `invoke` fits what became of the callback, on either path. -/
def Returned (queued : Bool) (outcome : Option Outcome) (result : Bool × Str) : Prop :=
  match queued with
  | true => ∃ error, Reports outcome error ∧ result = queuedResult error
  | false => ∃ o, outcome = some o ∧ result = inlineResult o

@[grind cases]
structure ReportInv (s : Shared) : Prop where
  outcome : ∀ q, (s.taskHistory q).outcome.isSome ↔ (s.taskHistory q).ended ≠ 0
  unbegun : ∀ q, (s.taskHistory q).owner = .queue ∨ (∃ t, (s.taskHistory q).owner = .held t) →
    (s.taskHistory q).begun = 0
  done : ∀ q k, (s.task q).completion = some k → k.done = true → Reports (s.taskHistory q).outcome k.error
  returned : ∀ q ok error, (s.taskHistory q).returned = some (.completed ok error) →
    (s.taskHistory q).owner = .gone ∧ Returned (s.task q).completion.isSome (s.taskHistory q).outcome (ok, error)

/-- The error that waits for its completion. -/
def RunPc.error : RunPc → Option (Nat × Str)
  | .finish _ q _ error => some (q, error)
  | _ => none

@[grind cases]
structure ReportFacts (t : Tid) (f : Frame) (s : Shared) : Prop where
  error : ∀ q error, f.pc.error = some (q, error) → (s.taskHistory q).owner = .current t ∧ Reports (s.taskHistory q).outcome error
  inline : ∀ inl, f.pc.inline = some inl → ∀ q ∈ inl,
    (s.taskHistory q).owner = .current t ∧ (s.task q).completion = none

/-- Nobody else ends the tasks that `u` runs, or gives them a completion. -/
@[grind cases]
structure ReportRely (u : Tid) (s s' : Shared) : Prop where
  current : ∀ q, (s.taskHistory q).owner = .current u →
    (s'.taskHistory q).owner = .current u ∧ (s'.taskHistory q).outcome = (s.taskHistory q).outcome ∧
      ((s.task q).completion = none → (s'.task q).completion = none)

def reportOutline : Threads.Outline Tid Shared Frame := ⟨ReportInv, ReportFacts, ReportRely⟩

theorem reportFacts_stable {t : Tid} {f : Frame} {s s' : Shared} (h : ReportFacts t f s)
    (hr : ReportRely t s s') : ReportFacts t f s' := by
  constructor
  all_goals grind -ring -linarith

/-! ## Operations -/

section Operations

variable {t : Tid} {s s' : Shared} {q : Nat}

theorem push_report (k : Option Completion) (hk : ∀ c, k = some c → c.done = false) (hi : TaskInv s)
    (h : ReportInv s) : ReportInv (s.push k) ∧ ∀ u, ReportRely u s (s.push k) := by
  refine ⟨⟨?_, ?_, ?_, ?_⟩, fun u => ⟨?_⟩⟩
  all_goals simp only [Shared.push]
  all_goals grind -ring -linarith

theorem takeTasks_report (hi : TaskInv s) (h : ReportInv s) :
    ReportInv (s.takeTasks t) ∧ ∀ u, ReportRely u s (s.takeTasks t) := by
  refine ⟨⟨?_, ?_, ?_, ?_⟩, fun u => ⟨?_⟩⟩
  all_goals simp only [Shared.takeTasks]
  all_goals grind -ring -linarith

theorem beginInline_report (r : Nat) (hi : TaskInv s) (h : ReportInv s) :
    ReportInv (s.beginInline r) ∧ ∀ u, ReportRely u s (s.beginInline r) := by
  refine ⟨⟨?_, ?_, ?_, ?_⟩, fun u => ⟨?_⟩⟩
  all_goals simp only [Shared.beginInline]
  all_goals grind -ring -linarith

theorem complete_report {error : Str} (hi : TaskInv s) (h : ReportInv s)
    (he : Reports (s.taskHistory q).outcome error) (hc : s.complete q error = some s') :
    ReportInv s' ∧ ∀ u, (s.taskHistory q).owner ≠ .current u → ReportRely u s s' := by
  replace hc := complete_step hc
  cases hc
  all_goals refine ⟨⟨?_, ?_, ?_, ?_⟩, fun u hu => ⟨?_⟩⟩
  all_goals grind -ring -linarith

end Operations

/-! ## Actions -/

theorem Exit.error_ne_nil (exit : Exit) : exit.error ≠ [] := by
  cases exit with
  | normal => decide
  | failed why =>
      have htext : lit "OPC UA server failed" ≠ [] := by decide
      exact htext

/-- A callback that has not begun has no outcome. -/
theorem ReportInv.outcome_none {s : Shared} (h : ReportInv s) (hi : TaskInv s) {q : Nat}
    (hb : (s.taskHistory q).begun = 0) : (s.taskHistory q).outcome = none := by
  rw [← Option.not_isSome_iff_eq_none, h.outcome q]
  have hle := (hi.once q).1
  omega

/-- So any text but the empty one may complete its task. -/
theorem ReportInv.reports {s : Shared} (h : ReportInv s) (hi : TaskInv s) {q : Nat} {error : Str}
    (hb : (s.taskHistory q).begun = 0) (he : error ≠ []) : Reports (s.taskHistory q).outcome error := by
  rw [h.outcome_none hi hb]
  exact he

namespace SameTasks

variable {s s' : Shared}

theorem report (e : SameTasks s s') (h : ReportInv s) : ReportInv s' ∧ ∀ u, ReportRely u s s' := by
  cases s; cases s'
  obtain ⟨rfl, rfl, rfl, rfl⟩ := e
  exact ⟨⟨h.1, h.2, h.3, h.4⟩, fun u => ⟨fun q ho => ⟨ho, rfl, id⟩⟩⟩

end SameTasks

section Actions

variable {t : Tid} {a : Choice} {s s' : Shared} {pc : RunPc}

theorem stop_report {p : StopPc} {p' : Option StopPc} (hi : TaskInv s) (hf : TaskFacts t ⟨pc, some (.stop p)⟩ s)
    (hr : ReportInv s) (h : stopAction t s p = some (s', p')) : ReportInv s' ∧ ∀ u, ReportRely u s s' := by
  have quiet : SameTasks s s' → ReportInv s' ∧ ∀ u, ReportRely u s s' := fun e => e.report hr
  replace h := stopAction_step h
  cases h
  case request hq => exact quiet (.of_requestStopAction hq)
  case requested hq => exact quiet (.of_requestStopAction hq)
  case failPending => exact takeTasks_report hi hr
  case complete q pending hc =>
    have ho : (s.taskHistory q).owner = .held t := hf.pending q (by simp [Frame.pending, Call.pending])
    have he := hr.reports hi (hr.unbegun q (.inr ⟨t, ho⟩)) (Exit.error_ne_nil .normal)
    obtain ⟨hinv, hrely⟩ := complete_report hi hr he hc
    exact ⟨hinv, fun u => hrely u (by rw [ho]; intro hu; cases hu)⟩
  all_goals exact quiet ⟨rfl, rfl, rfl, rfl⟩

theorem invoke_report {callable : Bool} {timeout : Int} {p : InvokePc} {p' : Option InvokePc} (hi : TaskInv s)
    (hr : ReportInv s) (h : invokeAction callable timeout t a s p = some (s', p')) :
    ReportInv s' ∧ ∀ u, ReportRely u s s' := by
  replace h := invokeAction_step h
  cases h
  case push => exact push_report (some {}) (fun c hc => by cases hc; rfl) hi hr
  case check | reject | thread | late => exact SameTasks.report ⟨rfl, rfl, rfl, rfl⟩ hr
  all_goals refine ⟨⟨?_, ?_, ?_, ?_⟩, fun u => ⟨?_⟩⟩
  all_goals grind -ring -linarith [Returned, Option.map_eq_some_iff]

section Run

variable {r : Nat} {p p' : RunPc}

/-- A point with no callback in progress and no error that waits. -/
theorem reportFacts_plain (hrun : p'.running = []) (hfin : p'.finishing = none) :
    ReportFacts (.run r) ⟨p', none⟩ s' := by
  refine ⟨fun q error h => ?_, fun inl h q hq => ?_⟩
  all_goals cases p'
  all_goals simp_all [RunPc.error, RunPc.finishing, RunPc.inline, RunPc.running]

theorem exec_report {ph : Phase} {pending : List Nat} (hi : TaskInv s)
    (hf : TaskFacts (.run r) ⟨.exec ph pending, none⟩ s) (hr : ReportInv s)
    (h : runAction r a s (.exec ph pending) = some (s', p')) :
    ReportInv s' ∧ ReportFacts (.run r) ⟨p', none⟩ s' ∧ ∀ u, u ≠ .run r → ReportRely u s s' := by
  replace h := runAction_step h
  cases h
  case execLoop | execFinal =>
    obtain ⟨hinv, hrely⟩ := SameTasks.report ⟨rfl, rfl, rfl, rfl⟩ hr
    exact ⟨hinv, reportFacts_plain rfl rfl, fun u _ => hrely u⟩
  case exec q pending hqueued =>
    have ho : (s.taskHistory q).owner = .held (.run r) := hf.pending q (by simp [Frame.pending, RunPc.pending])
    have hb := hr.unbegun q (.inr ⟨_, ho⟩)
    refine ⟨⟨?_, ?_, ?_, ?_⟩, ⟨?_, ?_⟩, fun u hu => ⟨?_⟩⟩
    all_goals simp only [RunPc.error, RunPc.inline]
    all_goals grind -ring -linarith
  case execCancelled q pending hqueued =>
    have ho : (s.taskHistory q).owner = .held (.run r) := hf.pending q (by simp [Frame.pending, RunPc.pending])
    have hb := hr.unbegun q (.inr ⟨_, ho⟩)
    have he : Reports (s.taskHistory q).outcome (lit "OPC UA server task cancelled") := hr.reports hi hb (by decide)
    refine ⟨⟨?_, ?_, ?_, ?_⟩, ⟨?_, ?_⟩, fun u hu => ⟨?_⟩⟩
    all_goals simp only [RunPc.error, RunPc.inline]
    all_goals grind -ring -linarith

theorem callback_report {ph : Phase} {q : Nat} {pending inl : List Nat} (hi : TaskInv s)
    (hf : TaskFacts (.run r) ⟨.callback ph q pending inl, none⟩ s) (hr : ReportInv s)
    (hrf : ReportFacts (.run r) ⟨.callback ph q pending inl, none⟩ s)
    (h : runAction r a s (.callback ph q pending inl) = some (s', p')) :
    ReportInv s' ∧ ReportFacts (.run r) ⟨p', none⟩ s' ∧ ∀ u, u ≠ .run r → ReportRely u s s' := by
  obtain ⟨-, -, hrun, hrunning, -, -⟩ := hf
  simp only [RunPc.running] at hrun hrunning
  have hinline := hrf.inline inl rfl
  replace h := runAction_step h
  cases h
  all_goals refine ⟨⟨?_, ?_, ?_, ?_⟩, ⟨?_, ?_⟩, fun u hu => ⟨?_⟩⟩
  all_goals simp only [RunPc.error, RunPc.inline]
  all_goals grind -ring -linarith [Reports, Returned]

theorem iterate_report {inl : List Nat} (hi : TaskInv s) (hf : TaskFacts (.run r) ⟨.iterate inl, none⟩ s)
    (hr : ReportInv s) (hrf : ReportFacts (.run r) ⟨.iterate inl, none⟩ s)
    (h : runAction r a s (.iterate inl) = some (s', p')) :
    ReportInv s' ∧ ReportFacts (.run r) ⟨p', none⟩ s' ∧ ∀ u, u ≠ .run r → ReportRely u s s' := by
  obtain ⟨-, -, hrun, hrunning, -, -⟩ := hf
  simp only [RunPc.running] at hrun hrunning
  have hinline := hrf.inline inl rfl
  replace h := runAction_step h
  cases h
  all_goals refine ⟨⟨?_, ?_, ?_, ?_⟩, ⟨?_, ?_⟩, fun u hu => ⟨?_⟩⟩
  all_goals grind -ring -linarith [RunPc.error, RunPc.inline, Reports, Returned]

theorem run_report (hi : TaskInv s) (hf : TaskFacts (.run r) ⟨p, none⟩ s) (hr : ReportInv s)
    (hrf : ReportFacts (.run r) ⟨p, none⟩ s) (h : runAction r a s p = some (s', p')) :
    ReportInv s' ∧ ReportFacts (.run r) ⟨p', none⟩ s' ∧ ∀ u, u ≠ .run r → ReportRely u s s' := by
  cases ht : p.tasky with
  | false =>
      obtain ⟨e, -, hrun, hfin⟩ := quiet_tasks ht h
      exact ⟨(e.report hr).1, reportFacts_plain hrun hfin, fun u _ => (e.report hr).2 u⟩
  | true =>
      cases p with
      | exec ph pending => exact exec_report hi hf hr h
      | callback ph q pending inl => exact callback_report hi hf hr hrf h
      | iterate inl => exact iterate_report hi hf hr hrf h
      | drain ph =>
          cases runAction_step h
          exact ⟨(takeTasks_report hi hr).1, reportFacts_plain rfl rfl, fun u _ => (takeTasks_report hi hr).2 u⟩
      | failPending exit =>
          cases runAction_step h
          exact ⟨(takeTasks_report hi hr).1, reportFacts_plain rfl rfl, fun u _ => (takeTasks_report hi hr).2 u⟩
      | finish ph q pending error =>
          cases runAction_step h with
          | finish hc =>
              obtain ⟨ho, he⟩ := hrf.error q error rfl
              obtain ⟨hinv, hrely⟩ := complete_report hi hr he hc
              exact ⟨hinv, reportFacts_plain rfl rfl, fun u hu => hrely u (by simpa [ho] using hu.symm)⟩
      | completeAll exit pending =>
          replace h := runAction_step h
          cases h
          case completed | completedFailed =>
            have e : SameTasks s s := ⟨rfl, rfl, rfl, rfl⟩
            exact ⟨hr, reportFacts_plain rfl rfl, fun u _ => (e.report hr).2 u⟩
          case completeAll q pending hc =>
            have ho : (s.taskHistory q).owner = .held (.run r) := hf.pending q (by simp [Frame.pending, RunPc.pending])
            have he := hr.reports hi (hr.unbegun q (.inr ⟨_, ho⟩)) exit.error_ne_nil
            obtain ⟨hinv, hrely⟩ := complete_report hi hr he hc
            exact ⟨hinv, reportFacts_plain rfl rfl, fun u _ => hrely u (by rw [ho]; intro hu; cases hu)⟩
      | _ => cases ht

end Run

end Actions

/-! ## The outline is valid -/

section Valid

variable {validation : Option Str} {t : Tid} {a : Choice} {s s' : Shared} {pc : RunPc} {f' : Frame} {c : Call}

/-- The facts do not look at the call. -/
theorem ReportFacts.setCall {k k' : Option Call} (h : ReportFacts t ⟨pc, k⟩ s) : ReportFacts t ⟨pc, k'⟩ s :=
  ⟨h.error, h.inline⟩

theorem call_report (hi : TaskInv s) (hf : TaskFacts t ⟨pc, some c⟩ s) (hr : ReportInv s)
    (hrf : ReportFacts t ⟨pc, some c⟩ s) (h : callAction validation t a s pc c = some (s', f')) :
    ReportInv s' ∧ ReportFacts t f' s' ∧ ∀ u, u ≠ t → ReportRely u s s' := by
  have plain : ∀ {s' : Shared} {k' : Option Call}, ReportInv s' ∧ (∀ u, ReportRely u s s') →
      ReportInv s' ∧ ReportFacts t ⟨pc, k'⟩ s' ∧ ∀ u, u ≠ t → ReportRely u s s' := fun h =>
    ⟨h.1, (reportFacts_stable hrf (h.2 t)).setCall, fun u _ => h.2 u⟩
  cases callStep h with
  | start hp => exact plain ((SameTasks.of_startAction hp).report hr)
  | requestStop hp => exact plain ((SameTasks.of_requestStopAction hp).report hr)
  | stop hp => exact plain (stop_report hi hf hr hp)
  | @post callable p p' s' hp =>
      replace hp := postAction_step hp
      cases hp
      case push => exact plain (push_report none (fun k hk => by cases hk) hi hr)
      all_goals exact plain (SameTasks.report ⟨rfl, rfl, rfl, rfl⟩ hr)
  | invoke hp => exact plain (invoke_report hi hr hp)
  | @inline callable timeout r inl ht hinl hl hid hn =>
      subst ht
      obtain ⟨hinv, hrely⟩ := beginInline_report r hi hr
      refine ⟨hinv, ?_, fun u _ => hrely u⟩
      have hstable := reportFacts_stable hrf (hrely (.run r))
      cases pc
      all_goals simp only [RunPc.inline, reduceCtorEq, Option.some.injEq] at hinl
      all_goals subst hinl
      all_goals refine ⟨fun q error he => (by cases he), fun inl hinl q hq => ?_⟩
      all_goals cases hinl
      all_goals rcases List.mem_cons.1 hq with rfl | hq
      all_goals first | exact hstable.inline _ rfl q hq | simp [Shared.beginInline]

/-- Every action meets the outline. -/
theorem report_valid : reportOutline.Valid (program validation) taskOutline where
  step {t a s f s' f'} hi hf hr hrf h := by
    obtain ⟨pc, call⟩ := f
    obtain ⟨c, rfl, h⟩ | ⟨api, rfl, -, -, rfl, rfl⟩ | ⟨r, p', rfl, rfl, hp, rfl⟩ := frameAction_cases h
    · exact call_report hi hf hr hrf h
    · have e : SameTasks s' s' := ⟨rfl, rfl, rfl, rfl⟩
      exact ⟨hr, ReportFacts.setCall hrf, fun u _ => (e.report hr).2 u⟩
    · exact run_report hi hf hr hrf hp
  stable _ _ _ hrf hr := reportFacts_stable hrf hr

theorem report_initial : reportOutline.Holds (program validation).initial := by
  refine ⟨?_, fun t => ?_⟩
  · constructor <;> simp [Threads.initial, program]
  · constructor <;> simp [Threads.initial, program, RunPc.error, RunPc.inline]

theorem report_reachable {c : Config Tid Shared Frame} (h : (program validation).Reachable c) :
    reportOutline.Holds c :=
  report_valid.reachable (fun _ h => tasks_reachable h) report_initial h

end Valid

end RttOpcua.Server
