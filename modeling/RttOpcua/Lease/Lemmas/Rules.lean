import RttOpcua.Lease.Step

/-!
# Actions by rules

What one action of a function of the leases does, with one rule for each branch. A rule of a function that calls another
has the action of the callee.
-/

namespace RttOpcua.Lease

open RttOpcua.Lib

section Rules

variable (t : Thread) (a : Choice) (s : Shared)

/-! ## `reapOnce` -/

inductive ReapStep : ReapPc → Shared → Option ReapPc → Prop
  | ask {p rest done r} : a = .collected r →
      ReapStep (.scan (p :: rest) done) (s.collect (s.pending p).operation r)
        (some (.scan rest (if r.done then done ++ [p] else done)))
  | remove {done} :
      ReapStep (.scan [] done) { s with invocations := s.invocations.filter fun p => p ∉ done } (some (.erase done))
  | erase {p done} : ReapStep (.erase (p :: done)) (s.dropListed p) (some (.erase done))
  | erased : ReapStep (.erase []) s none

/-! ## Reads, writes and invocations -/

inductive EnterStep (x : Nat) (pc : Pc) : Shared → Pc → Prop
  | granted : s.grants x = true → EnterStep x pc (s.acquire x) pc
  | refused : s.grants x = false → EnterStep x pc s .idle

inductive InvokeStep : Pc → Shared → Pc → Prop
  | access {x} : InvokeStep (.access x) (s.release x) .idle
  | send {x n} : a = .send n → InvokeStep (.build x) (s.startOperation x) (.outputs x s.nextOperation n)
  | async {x} : a = .async → InvokeStep (.build x) (s.startOperation x) (.wait .async x s.nextOperation)
  | notStarted {x} : (∀ n, a ≠ .send n) → a ≠ .async → InvokeStep (.build x) s (.leave x)
  | noOutput {x o n} : a = .early ∨ a = .raise → InvokeStep (.outputs x o n) s (.leave x)
  | output {x o n} : a ≠ .early → a ≠ .raise → InvokeStep (.outputs x o (n + 1)) s (.outputs x o n)
  | outputs {x o} : a ≠ .early → a ≠ .raise → InvokeStep (.outputs x o 0) s (.check x o)
  | checkThrows {x o} : a = .raise → InvokeStep (.check x o) s (.leave x)
  | check {x o} : a ≠ .raise → InvokeStep (.check x o) s (.ready x o)
  | notReady {x o} : a = .early ∨ a = .raise → InvokeStep (.ready x o) s (.leave x)
  | ready {x o} : a ≠ .early → a ≠ .raise → InvokeStep (.ready x o) s (.wait .send x o)
  | wait {k x o r} : a = .collected r →
      InvokeStep (.wait k x o) (s.collect o r) (if r.done then .leave x else .late k x o)
  | late {k x o} : a = .deadline → InvokeStep (.late k x o) s (.retain k x o)
  | inTime {k x o} : a ≠ .deadline → InvokeStep (.late k x o) s (.wait k x o)
  | retainThrows {k x o} : a = .raise → InvokeStep (.retain k x o) s (.waitHere k x o)
  | retain {k x o} : a ≠ .raise →
      InvokeStep (.retain k x o)
        { s with
          pending := Function.update s.pending s.nextPending { lease := some x, operation := o, isLocal := true }
          nextPending := s.nextPending + 1 }
        (.push s.nextPending)
  | waitHere {k x o r} : a = .collected r →
      InvokeStep (.waitHere k x o) (s.collect o r) (if r.done then .leave x else .waitHere k x o)
  | leave {x} : InvokeStep (.leave x) (s.release x) .idle
  | notPushed {p} : s.mutex = none → s.draining = true ∨ a = .raise → InvokeStep (.push p) s (.waitPending p)
  | push {p} : s.mutex = none → ¬ (s.draining = true ∨ a = .raise) →
      InvokeStep (.push p)
        (({ s with invocations := s.invocations ++ [p] } : Shared).modifyPending p fun k => { k with listed := true })
        (.keep p)
  | waitPending {p r} : a = .collected r →
      InvokeStep (.waitPending p) (s.collect (s.pending p).operation r) (if r.done then .keep p else .waitPending p)
  | keep {p} : InvokeStep (.keep p) (s.dropLocal p) .idle

/-! ## `publishComponentInternal` -/

inductive PublishStep : PublishPc → Shared → Option PublishPc → Prop
  | lock {component} : s.commandMutex = none →
      PublishStep (.lock component) { s with commandMutex := some t } (some (.check component))
  | refused {component} : s.admissionClosed = true ∨ a = .early → PublishStep (.check component) s (some .unlock)
  | check {component} : ¬ (s.admissionClosed = true ∨ a = .early) →
      PublishStep (.check component)
        { s with
          state := Function.update s.state s.nextState { component := some component, isActive := true }
          nextState := s.nextState + 1 }
        (some (.work s.nextState))
  | commit {x} : a = .go →
      PublishStep (.work x) { s with components := s.components ++ [x], committed := s.committed ++ [x] } (some .unlock)
  | fail {x} : a ≠ .go → PublishStep (.work x) s (some (.deactivate x))
  | deactivate {x} :
      PublishStep (.deactivate x) (s.modifyState x fun k => { k with isActive := false }) (some (.await x))
  | await {x} : (s.state x).users = 0 →
      PublishStep (.await x) (s.modifyState x fun k => { k with component := none }) (some (.abandon x))
  | abandon {x} : a = .early → PublishStep (.abandon x) { s with abandoned := s.abandoned ++ [x] } (some .unlock)
  | removed {x} : a ≠ .early → PublishStep (.abandon x) s (some .unlock)
  | unlock : PublishStep .unlock { s with commandMutex := none } none

/-! ## `drain` and `shutdown` -/

inductive DrainStep : DrainPc → Shared → Option DrainPc → Prop
  | mark : s.mutex = none → DrainStep .mark { s with draining := true, stopRequested := true } (some .join)
  | join : s.reaperGone = true → DrainStep .join s (some .lock)
  | lock : s.mutex = none → DrainStep .lock { s with mutex := some t } (some (.reap (.scan s.invocations [])))
  | reap {pc r s'} : reapAction a s pc = some (s', r) → DrainStep (.reap pc) s' (some (r.elim .test .reap))
  | drained : s.invocations = [] → DrainStep .test { s with mutex := none, drained := true } none
  | again : s.invocations ≠ [] → DrainStep .test { s with mutex := none } (some .lock)

inductive ShutdownStep : ShutdownPc → Shared → Option ShutdownPc → Prop
  | close : ShutdownStep .close { s with admissionClosed := true } (some .once)
  | once : s.shutdownOnce = .idle → ShutdownStep .once { s with shutdownOnce := .running t } (some .swap)
  | done : s.shutdownOnce = .done → ShutdownStep .once s (some .leave)
  | swap : s.commandMutex = none →
      ShutdownStep .swap { s with components := [], abandoned := [], swapped := true }
        (some (.drain .mark (s.components ++ s.abandoned)))
  | drain {pc closing d s'} : drainAction t a s pc = some (s', d) →
      ShutdownStep (.drain pc closing) s' (some (afterDrain closing d))
  | deactivate {x closing} :
      ShutdownStep (.deactivate (x :: closing)) (s.modifyState x fun k => { k with isActive := false })
        (some (.await x closing))
  | closed : ShutdownStep (.deactivate []) { s with shutdownOnce := .done } (some .leave)
  | await {x closing} : (s.state x).users = 0 →
      ShutdownStep (.await x closing) (s.modifyState x fun k => { k with component := none }) (some (.deactivate closing))
  | leave : ShutdownStep .leave { s with returned := true } none

/-! ## The reaper -/

inductive ReaperStep : ReaperPc → Shared → ReaperPc → Prop
  | wake : s.mutex = none → ReaperStep .asleep { s with mutex := some .reaper } .awake
  | stop : s.stopRequested = true ∨ a = .raise → ReaperStep .awake { s with mutex := none, reaperGone := true } .gone
  | idle : ¬ (s.stopRequested = true ∨ a = .raise) → s.invocations = [] →
      ReaperStep .awake { s with mutex := none } .asleep
  | pass : ¬ (s.stopRequested = true ∨ a = .raise) → s.invocations ≠ [] →
      ReaperStep .awake s (.reap (.scan s.invocations []))
  | reap {pc pc' s'} : reapAction a s pc = some (s', some pc') → ReaperStep (.reap pc) s' (.reap pc')
  | reaped {pc s'} : reapAction a s pc = some (s', none) → ReaperStep (.reap pc) { s' with mutex := none } .asleep

/-! ## The actions follow the rules -/

variable {t a s} {s' : Shared} {l l' : Pc}

theorem reapAction_step {pc : ReapPc} {r : Option ReapPc} (h : reapAction a s pc = some (s', r)) :
    ReapStep a s pc s' r := by
  unfold reapAction at h
  split at h
  · split at h
    · simp only [Option.some.injEq, Prod.mk.injEq] at h
      obtain ⟨rfl, rfl⟩ := h
      exact .ask rfl
    · cases h
  all_goals simp only [Option.some.injEq, Prod.mk.injEq] at h
  all_goals obtain ⟨rfl, rfl⟩ := h
  · exact .remove
  · exact .erase
  · exact .erased

theorem enterAction_step {x : Nat} {pc : Pc} (h : enterAction s x pc = (s', l')) : EnterStep s x pc s' l' := by
  unfold enterAction at h
  split at h
  all_goals simp only [Prod.mk.injEq] at h
  all_goals obtain ⟨rfl, rfl⟩ := h
  · exact .granted ‹_›
  · exact .refused (Bool.eq_false_iff.mpr ‹_›)

theorem invokeAction_step (h : invokeAction a s l = some (s', l')) : InvokeStep a s l s' l' := by
  cases l
  case outputs x o n =>
    simp only [invokeAction] at h
    split at h
    all_goals simp only [Option.some.injEq, Prod.mk.injEq] at h
    all_goals obtain ⟨rfl, rfl⟩ := h
    · exact .noOutput (.inl rfl)
    · exact .noOutput (.inr rfl)
    · exact .output ‹_› ‹_›
    · exact .outputs ‹_› ‹_›
  case ready x o =>
    simp only [invokeAction] at h
    split at h
    all_goals simp only [Option.some.injEq, Prod.mk.injEq] at h
    all_goals obtain ⟨rfl, rfl⟩ := h
    · exact .notReady (.inl rfl)
    · exact .notReady (.inr rfl)
    · exact .ready ‹_› ‹_›
  case late k x o =>
    simp only [invokeAction, Option.some.injEq, Prod.mk.injEq] at h
    obtain ⟨rfl, rfl⟩ := h
    split
    · exact .late ‹_›
    · exact .inTime ‹_›
  case wait k x o | waitHere k x o | waitPending p =>
    simp only [invokeAction] at h
    split at h
    · simp only [Option.some.injEq, Prod.mk.injEq] at h
      obtain ⟨rfl, rfl⟩ := h
      constructor; rfl
    · cases h
  all_goals simp only [invokeAction] at h
  all_goals repeat' split at h
  all_goals simp only [Option.some.injEq, Prod.mk.injEq, reduceCtorEq] at h
  all_goals obtain ⟨rfl, rfl⟩ := h
  all_goals constructor
  all_goals simp_all

theorem publishAction_step {pc : PublishPc} {r : Option PublishPc} (h : publishAction t a s pc = some (s', r)) :
    PublishStep t a s pc s' r := by
  cases pc
  case abandon x =>
    simp only [publishAction, Option.some.injEq, Prod.mk.injEq] at h
    obtain ⟨rfl, rfl⟩ := h
    split
    · exact .abandon ‹_›
    · exact .removed ‹_›
  all_goals simp only [publishAction] at h
  all_goals repeat' split at h
  all_goals simp only [Option.some.injEq, Prod.mk.injEq, reduceCtorEq] at h
  all_goals obtain ⟨rfl, rfl⟩ := h
  all_goals constructor
  all_goals first | assumption | rfl

theorem drainAction_step {pc : DrainPc} {d : Option DrainPc} (h : drainAction t a s pc = some (s', d)) :
    DrainStep t a s pc s' d := by
  cases pc
  case reap pc =>
    simp only [drainAction, Option.map_eq_some_iff] at h
    obtain ⟨⟨s₁, r⟩, hr, h⟩ := h
    cases r
    all_goals simp only [Prod.mk.injEq] at h
    all_goals obtain ⟨rfl, rfl⟩ := h
    · exact .reap hr
    · exact .reap hr
  all_goals simp only [drainAction] at h
  all_goals split at h
  all_goals simp only [Option.some.injEq, Prod.mk.injEq, reduceCtorEq] at h
  all_goals obtain ⟨rfl, rfl⟩ := h
  all_goals constructor
  all_goals assumption

theorem shutdownAction_step {pc : ShutdownPc} {r : Option ShutdownPc} (h : shutdownAction t a s pc = some (s', r)) :
    ShutdownStep t a s pc s' r := by
  cases pc
  case drain pc closing =>
    simp only [shutdownAction, Option.map_eq_some_iff] at h
    obtain ⟨⟨s₁, d⟩, hd, h⟩ := h
    cases d
    all_goals simp only [Prod.mk.injEq] at h
    all_goals obtain ⟨rfl, rfl⟩ := h
    · exact .drain hd
    · exact .drain hd
  case deactivate closing =>
    cases closing
    all_goals simp only [shutdownAction, Option.some.injEq, Prod.mk.injEq] at h
    all_goals obtain ⟨rfl, rfl⟩ := h
    · exact .closed
    · exact .deactivate
  all_goals simp only [shutdownAction] at h
  all_goals try split at h
  all_goals simp only [Option.some.injEq, Prod.mk.injEq, reduceCtorEq] at h
  all_goals obtain ⟨rfl, rfl⟩ := h
  all_goals constructor
  all_goals assumption

theorem reaperAction_step {pc pc' : ReaperPc} (h : reaperAction a s pc = some (s', pc')) : ReaperStep a s pc s' pc' := by
  cases pc
  case reap pc =>
    simp only [reaperAction, Option.map_eq_some_iff] at h
    obtain ⟨⟨s₁, r⟩, hr, h⟩ := h
    cases r
    all_goals simp only [Prod.mk.injEq] at h
    all_goals obtain ⟨rfl, rfl⟩ := h
    · exact .reaped hr
    · exact .reap hr
  all_goals simp only [reaperAction] at h
  all_goals repeat' split at h
  all_goals simp only [Option.some.injEq, Prod.mk.injEq, reduceCtorEq] at h
  all_goals obtain ⟨rfl, rfl⟩ := h
  all_goals constructor
  all_goals assumption

end Rules

end RttOpcua.Lease
