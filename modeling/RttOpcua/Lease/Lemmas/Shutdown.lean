import RttOpcua.Lease.Lemmas.Count

/-!
# The shutdown outline

Every state that was ever committed is in `components` until `shutdown` swaps it out, then in the list
that `shutdown` closes, until its component pointer is null. After the swap nothing is committed, since
admission was closed before it and a publication holds `command_mutex` from its test to its commit.
-/

namespace RttOpcua.Lease

open RttOpcua.Lib

namespace Shared

variable (s : Shared)

/-- Every committed state is in `closing` or has its pointer cleared. -/
@[grind]
def Closing (closing : List Nat) : Prop :=
  ∀ x ∈ s.committed, x ∈ closing ∨ (s.state x).component = none

end Shared

@[grind cases]
structure ShutdownInv (s : Shared) : Prop where
  drained : s.drained = true → s.invocations = [] ∧ s.draining = true
  swapped : s.swapped = true → s.admissionClosed = true
  components : s.swapped = false → ∀ x ∈ s.committed, x ∈ s.components
  idle : s.shutdownOnce = .idle → s.swapped = false
  done : s.shutdownOnce = .done → s.swapped = true ∧ s.Closing []
  returned : s.returned = true → s.shutdownOnce = .done
  committed : ∀ x ∈ s.committed, x < s.nextState

def publishFacts (t : Thread) (s : Shared) : PublishPc → Prop
  | .lock _ => True
  | .work x => s.commandMutex = some t ∧ s.swapped = false ∧ x < s.nextState
  | _ => s.commandMutex = some t

def drainFacts (s : Shared) : DrainPc → Prop
  | .mark => True
  | _ => s.draining = true

def shutdownFacts (t : Thread) (s : Shared) : ShutdownPc → Prop
  | .close => True
  | .once => s.admissionClosed = true
  | .swap => s.admissionClosed = true ∧ s.shutdownOnce = .running t ∧ s.swapped = false
  | .drain pc closing =>
      s.shutdownOnce = .running t ∧ s.swapped = true ∧ s.Closing closing ∧ drainFacts s pc
  | .deactivate closing => s.shutdownOnce = .running t ∧ s.swapped = true ∧ s.Closing closing
  | .await x closing => s.shutdownOnce = .running t ∧ s.swapped = true ∧ s.Closing (x :: closing)
  | .leave => s.shutdownOnce = .done

def shutdownAssertion (t : Thread) (l : Pc) (s : Shared) : Prop :=
  match l with
  | .publish pc => publishFacts t s pc
  | .shutdown pc => shutdownFacts t s pc
  | _ => True

@[grind cases]
structure ShutdownRely (u : Thread) (s s' : Shared) : Prop where
  command : s.commandMutex = some u → s'.commandMutex = some u ∧ s'.swapped = s.swapped
  once : s.shutdownOnce = .running u → s'.shutdownOnce = .running u ∧ s'.swapped = s.swapped
  done : s.shutdownOnce = .done → s'.shutdownOnce = .done
  committed : s.swapped = true → s'.committed = s.committed
  admissionClosed : s.admissionClosed = true → s'.admissionClosed = true
  draining : s.draining = true → s'.draining = true
  drained : s.drained = true → s'.drained = true
  nextState : s.nextState ≤ s'.nextState
  cleared : ∀ x, x < s.nextState → (s.state x).component = none → (s'.state x).component = none

def shutdownOutline : Threads.Outline Thread Shared Pc := ⟨ShutdownInv, shutdownAssertion, ShutdownRely⟩

section Stable

variable {t : Thread} {s s' : Shared}

theorem publish_stable {pc : PublishPc} (hr : ShutdownRely t s s') (hf : publishFacts t s pc) :
    publishFacts t s' pc := by
  cases pc
  all_goals simp only [publishFacts] at hf ⊢
  all_goals grind -ring -linarith

theorem shutdown_stable {pc : ShutdownPc} (hi : ShutdownInv s) (hr : ShutdownRely t s s')
    (hf : shutdownFacts t s pc) : shutdownFacts t s' pc := by
  cases pc
  case drain dpc closing =>
    cases dpc
    all_goals simp only [shutdownFacts, drainFacts] at hf ⊢
    all_goals grind -ring -linarith
  all_goals simp only [shutdownFacts] at hf ⊢
  all_goals grind -ring -linarith

end Stable

/-! ## Actions that leave the outline alone -/

/-- The members that the outline talks about are the same, but for pointers and retained invocations. -/
@[grind cases]
structure SameShutdown (s s' : Shared) : Prop where
  admissionClosed : s'.admissionClosed = s.admissionClosed
  nextState : s'.nextState = s.nextState
  commandMutex : s'.commandMutex = s.commandMutex
  components : s'.components = s.components
  shutdownOnce : s'.shutdownOnce = s.shutdownOnce
  draining : s'.draining = s.draining
  committed : s'.committed = s.committed
  swapped : s'.swapped = s.swapped
  drained : s'.drained = s.drained
  returned : s'.returned = s.returned
  invocations : s.invocations = [] → s.draining = true → s'.invocations = []

namespace SameShutdown

variable {t : Thread} {a : Choice} {s s' : Shared} {l l' : Pc}

theorem inv (e : SameShutdown s s') (hp : PointerStep s s') (h : ShutdownInv s) : ShutdownInv s' := by
  constructor
  all_goals grind -ring -linarith

theorem rely (e : SameShutdown s s') (hp : PointerStep s s') (u : Thread) : ShutdownRely u s s' := by
  constructor
  all_goals grind -ring -linarith

theorem of_destroyPending (p : Nat) : SameShutdown s (s.destroyPending p) := by
  unfold Shared.destroyPending
  split
  all_goals exact ⟨rfl, rfl, rfl, rfl, rfl, rfl, rfl, rfl, rfl, rfl, fun h _ => h⟩

theorem of_dropListed (p : Nat) : SameShutdown s (s.dropListed p) := by
  unfold Shared.dropListed
  split
  · exact ⟨rfl, rfl, rfl, rfl, rfl, rfl, rfl, rfl, rfl, rfl, fun h _ => h⟩
  · have e := of_destroyPending (s := s.modifyPending p fun k => { k with listed := false }) p
    exact ⟨e.1, e.2, e.3, e.4, e.5, e.6, e.7, e.8, e.9, e.10, e.11⟩

theorem of_dropLocal (p : Nat) : SameShutdown s (s.dropLocal p) := by
  unfold Shared.dropLocal
  split
  · exact ⟨rfl, rfl, rfl, rfl, rfl, rfl, rfl, rfl, rfl, rfl, fun h _ => h⟩
  · have e := of_destroyPending (s := s.modifyPending p fun k => { k with isLocal := false }) p
    exact ⟨e.1, e.2, e.3, e.4, e.5, e.6, e.7, e.8, e.9, e.10, e.11⟩

theorem of_collect (o : Nat) (r : Collected) : SameShutdown s (s.collect o r) := by
  unfold Shared.collect
  split
  all_goals exact ⟨rfl, rfl, rfl, rfl, rfl, rfl, rfl, rfl, rfl, rfl, fun h _ => h⟩

theorem of_reapAction {pc : ReapPc} {pc' : Option ReapPc} (h : reapAction a s pc = some (s', pc')) :
    SameShutdown s s' := by
  replace h := reapAction_step h
  cases h
  case ask => exact of_collect _ _
  case remove =>
    exact ⟨rfl, rfl, rfl, rfl, rfl, rfl, rfl, rfl, rfl, rfl, fun h _ => by simp [h]⟩
  case erase p done => exact of_dropListed p
  case erased => exact ⟨rfl, rfl, rfl, rfl, rfl, rfl, rfl, rfl, rfl, rfl, fun h _ => h⟩

theorem of_reaperAction {pc pc' : ReaperPc} (h : reaperAction a s pc = some (s', pc')) : SameShutdown s s' := by
  replace h := reaperAction_step h
  cases h
  case reap rpc pc' hr => exact of_reapAction hr
  case reaped rpc s₁ hr =>
    have e := of_reapAction hr
    exact ⟨e.1, e.2, e.3, e.4, e.5, e.6, e.7, e.8, e.9, e.10, e.11⟩
  all_goals exact ⟨rfl, rfl, rfl, rfl, rfl, rfl, rfl, rfl, rfl, rfl, fun h _ => h⟩

theorem of_invokeAction (h : invokeAction a s l = some (s', l')) : SameShutdown s s' := by
  replace h := invokeAction_step h
  cases h
  case wait | waitHere | waitPending => exact of_collect _ _
  case push p _ hd =>
    refine ⟨rfl, rfl, rfl, rfl, rfl, rfl, rfl, rfl, rfl, rfl, fun _ h => ?_⟩
    exact absurd (.inl h) hd
  case keep p => exact of_dropLocal p
  all_goals exact ⟨rfl, rfl, rfl, rfl, rfl, rfl, rfl, rfl, rfl, rfl, fun h _ => h⟩

end SameShutdown

/-! ## The outline is valid -/

section Valid

variable {t : Thread} {a : Choice} {s s' : Shared}

theorem publish_step {pc : PublishPc} {pc' : Option PublishPc} (hi : ShutdownInv s) (hf : publishFacts t s pc)
    (h : publishAction t a s pc = some (s', pc')) :
    ShutdownInv s' ∧ (∀ q, pc' = some q → publishFacts t s' q) ∧ ∀ u, u ≠ t → ShutdownRely u s s' := by
  have hp := PointerStep.of_publishAction h
  replace h := publishAction_step h
  cases h
  all_goals try simp only [Shared.modifyState]
  all_goals simp only [publishFacts, Option.some.injEq, forall_eq'] at hf ⊢
  all_goals refine ⟨⟨?_, ?_, ?_, ?_, ?_, ?_, ?_⟩, ?_, fun u hu => ⟨?_, ?_, ?_, ?_, ?_, ?_, ?_, ?_, ?_⟩⟩
  -- what the step leaves alone
  all_goals first
    | exact fun hx => hx
    | exact fun hx => ⟨hx, rfl⟩
    | exact fun _ => rfl
    | exact Nat.le_refl _
    | exact fun _ _ hx => hx
    | grind -ring -linarith

theorem drain_step {pc : DrainPc} {d : Option DrainPc} {closing : List Nat} (hi : ShutdownInv s)
    (hf : shutdownFacts t s (.drain pc closing)) (h : drainAction t a s pc = some (s', d)) :
    ShutdownInv s' ∧ shutdownFacts t s' (afterDrain closing d) ∧ ∀ u, u ≠ t → ShutdownRely u s s' := by
  replace h := drainAction_step h
  cases h
  case reap rpc r hr =>
    have e := SameShutdown.of_reapAction hr
    have hp := PointerStep.of_reapAction hr
    refine ⟨e.inv hp hi, ?_, fun u _ => e.rely hp u⟩
    have hf' := shutdown_stable hi (e.rely hp t) hf
    cases r <;> exact hf'
  all_goals simp only [shutdownFacts, drainFacts, afterDrain] at hf ⊢
  all_goals refine ⟨⟨?_, ?_, ?_, ?_, ?_, ?_, ?_⟩, ?_, fun u hu => ⟨?_, ?_, ?_, ?_, ?_, ?_, ?_, ?_, ?_⟩⟩
  all_goals grind -ring -linarith

theorem shutdown_step {pc : ShutdownPc} {pc' : Option ShutdownPc} (hi : ShutdownInv s)
    (hf : shutdownFacts t s pc) (h : shutdownAction t a s pc = some (s', pc')) :
    ShutdownInv s' ∧ (∀ q, pc' = some q → shutdownFacts t s' q) ∧ ∀ u, u ≠ t → ShutdownRely u s s' := by
  have hp := PointerStep.of_shutdownAction h
  replace h := shutdownAction_step h
  cases h
  case drain pc closing d hd =>
    obtain ⟨hinv, hown, hrely⟩ := drain_step hi hf hd
    refine ⟨hinv, ?_, hrely⟩
    rintro q ⟨⟩
    exact hown
  all_goals try simp only [Shared.modifyState]
  all_goals simp only [shutdownFacts, drainFacts, Option.some.injEq, forall_eq'] at hf ⊢
  all_goals refine ⟨⟨?_, ?_, ?_, ?_, ?_, ?_, ?_⟩, ?_, fun u hu => ⟨?_, ?_, ?_, ?_, ?_, ?_, ?_, ?_, ?_⟩⟩
  all_goals grind -ring -linarith

/-- A frame without facts. -/
theorem quiet_step {l' : Pc} (e : SameShutdown s s') (hp : PointerStep s s') (hi : ShutdownInv s)
    (hl : ∀ s, shutdownAssertion t l' s) :
    ShutdownInv s' ∧ shutdownAssertion t l' s' ∧ ∀ u, u ≠ t → ShutdownRely u s s' :=
  ⟨e.inv hp hi, hl s', fun u _ => e.rely hp u⟩

theorem invoke_free {l l' : Pc} (h : invokeAction a s l = some (s', l')) (s₁ : Shared) :
    shutdownAssertion t l' s₁ := by
  replace h := invokeAction_step h
  cases h
  case wait r _ | waitHere r _ | waitPending r _ => split <;> trivial
  all_goals trivial

theorem enter_free {x : Nat} {pc l' : Pc} (hpc : pc = .access x ∨ pc = .build x)
    (h : enterAction s x pc = (s', l')) : SameShutdown s s' ∧ ∀ s₁, shutdownAssertion t l' s₁ := by
  replace h := enterAction_step h
  cases h
  all_goals refine ⟨⟨rfl, rfl, rfl, rfl, rfl, rfl, rfl, rfl, rfl, rfl, fun h _ => h⟩, fun s₁ => ?_⟩
  · obtain rfl | rfl := hpc <;> trivial
  · trivial

theorem shutdown_valid : shutdownOutline.Valid program .trivial where
  step {t a s l s' l'} _ _ hi hf h := by
    have hp := PointerStep.of_threadAction h
    cases threadStep h with
    | enter hpc he =>
        obtain ⟨e, hl⟩ := enter_free (t := t) hpc he
        exact quiet_step e hp hi hl
    | @publish pc pc' s' hp =>
        obtain ⟨hinv, hown, hrely⟩ := publish_step hi hf hp
        refine ⟨hinv, ?_, hrely⟩
        cases pc' with
        | none => trivial
        | some q => exact hown q rfl
    | @shutdown pc pc' s' hp =>
        obtain ⟨hinv, hown, hrely⟩ := shutdown_step hi hf hp
        refine ⟨hinv, ?_, hrely⟩
        cases pc' with
        | none => trivial
        | some q => exact hown q rfl
    | reaper hr =>
        have e := SameShutdown.of_reaperAction hr
        exact ⟨e.inv hp hi, True.intro, fun u _ => e.rely hp u⟩
    | invoke hr => exact quiet_step (.of_invokeAction hr) hp hi (invoke_free hr)
    | beginShutdown =>
        refine ⟨⟨hi.1, fun _ => rfl, hi.3, hi.4, hi.5, hi.6, hi.7⟩, True.intro, fun u _ => ?_⟩
        constructor <;> simp
    | _ =>
        have e : SameShutdown s s := ⟨rfl, rfl, rfl, rfl, rfl, rfl, rfl, rfl, rfl, rfl, fun h _ => h⟩
        exact ⟨e.inv hp hi, True.intro, fun u _ => e.rely hp u⟩
  stable {t l s s'} _ _ hi hf hr := by
    cases l
    case publish pc => exact publish_stable hr hf
    case shutdown pc => exact shutdown_stable hi hr hf
    all_goals trivial

theorem shutdown_reachable {c : Config Thread Shared Pc} (h : program.Reachable c) : shutdownOutline.Holds c := by
  refine shutdown_valid.reachable (fun c _ => Threads.Outline.holds_trivial c) ⟨?_, fun t => ?_⟩ h
  · constructor <;> simp [Threads.initial, program, Shared.Closing]
  · cases t <;> trivial

end Valid

end RttOpcua.Lease
