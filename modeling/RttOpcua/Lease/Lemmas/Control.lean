import RttOpcua.Lease.Lemmas.Shutdown

/-!
# The control outline

Who holds `mutex`, `command_mutex` and the `std::once_flag` of `shutdown`, and how far the reaper and the drain have come.
The reaper ends because it was asked to, in runs in which its own waits do not throw.
-/

namespace RttOpcua.Lease

open RttOpcua.Lib

/-! ## Locks -/

def DrainPc.holds : DrainPc → Bool
  | .reap _ => true
  | .test => true
  | _ => false

def ShutdownPc.holds : ShutdownPc → Bool
  | .drain pc _ => pc.holds
  | _ => false

def ReaperPc.holds : ReaperPc → Bool
  | .awake => true
  | .reap _ => true
  | _ => false

/-- The thread holds the `mutex` of the dispatcher. -/
def Pc.holdsMutex : Pc → Bool
  | .shutdown pc => pc.holds
  | .reaper pc => pc.holds
  | _ => false

def PublishPc.holds : PublishPc → Bool
  | .lock _ => false
  | _ => true

def Pc.holdsCommandMutex : Pc → Bool
  | .publish pc => pc.holds
  | _ => false

def ShutdownPc.runs : ShutdownPc → Bool
  | .close => false
  | .once => false
  | .leave => false
  | _ => true

/-- The thread is the one that the `std::once_flag` has let through. -/
def Pc.runsShutdown : Pc → Bool
  | .shutdown pc => pc.runs
  | _ => false

def Pc.isReaper : Pc → Bool
  | .reaper _ => true
  | _ => false

/-! ## Invariant and assertions -/

@[grind cases]
structure ControlInv (s : Shared) : Prop where
  stop : s.stopRequested = true → s.swapped = true
  gone : s.reaperGone = true → s.stopRequested = true
  done : s.shutdownOnce = .done → s.drained = true

/-- A pass holds `mutex`, so that what it has asked stays in the list. -/
def reapListed (s : Shared) : ReapPc → Prop
  | .scan rest done => (∀ p ∈ rest, p ∈ s.invocations) ∧ ∀ p ∈ done, p ∈ s.invocations
  | .erase _ => True

def publishControl (s : Shared) : PublishPc → Prop
  | .work _ => s.swapped = false
  | .deactivate _ => s.swapped = false
  | .await _ => s.swapped = false
  | _ => True

def drainControl (s : Shared) : DrainPc → Prop
  | .mark => s.stopRequested = false
  | .reap pc => s.stopRequested = true ∧ reapListed s pc
  | _ => s.stopRequested = true

def shutdownControl (s : Shared) : ShutdownPc → Prop
  | .swap => s.stopRequested = false
  | .drain pc _ => drainControl s pc
  | .deactivate _ => s.drained = true
  | .await _ _ => s.drained = true
  | _ => True

def reaperControl (s : Shared) : ReaperPc → Prop
  | .reap pc => reapListed s pc
  | .gone => s.reaperGone = true
  | _ => True

def pointControl (s : Shared) : Pc → Prop
  | .publish pc => publishControl s pc
  | .shutdown pc => shutdownControl s pc
  | .reaper pc => reaperControl s pc
  | _ => True

@[grind cases]
structure ControlFacts (t : Thread) (l : Pc) (s : Shared) : Prop where
  reaper : t = .reaper ↔ l.isReaper = true
  mutex : s.mutex = some t ↔ l.holdsMutex = true
  command : s.commandMutex = some t ↔ l.holdsCommandMutex = true
  once : s.shutdownOnce = .running t ↔ l.runsShutdown = true
  point : pointControl s l

/-- What thread `u` relies on. -/
@[grind cases]
structure ControlRely (u : Thread) (s s' : Shared) : Prop where
  mutex : s'.mutex = some u ↔ s.mutex = some u
  command : s'.commandMutex = some u ↔ s.commandMutex = some u
  once : s'.shutdownOnce = .running u ↔ s.shutdownOnce = .running u
  listed : s.mutex = some u → s'.invocations = s.invocations
  swapped : s.commandMutex = some u → s'.swapped = s.swapped
  stop : s.shutdownOnce = .running u → s'.stopRequested = s.stopRequested
  stopped : s.stopRequested = true → s'.stopRequested = true
  drained : s.drained = true → s'.drained = true
  gone : s.reaperGone = true → s'.reaperGone = true

def controlOutline : Threads.Outline Thread Shared Pc := ⟨ControlInv, ControlFacts, ControlRely⟩

section Stable

variable {t : Thread} {s s' : Shared} {l : Pc}

theorem reapListed_stable {pc : ReapPc} (h : s'.invocations = s.invocations) (hf : reapListed s pc) :
    reapListed s' pc := by
  cases pc
  all_goals simp_all [reapListed]

theorem control_stable (hr : ControlRely t s s') (hf : ControlFacts t l s) : ControlFacts t l s' := by
  refine ⟨hf.reaper, hr.mutex.trans hf.mutex, hr.command.trans hf.command, hr.once.trans hf.once, ?_⟩
  have hpoint := hf.point
  cases l
  case publish pc =>
    have hswapped : pc.holds = true → s'.swapped = s.swapped := fun h => hr.swapped (hf.command.mpr h)
    cases pc
    case work | deactivate | await => exact (hswapped rfl).trans hpoint
    all_goals trivial
  case shutdown pc =>
    have hstop : pc.runs = true → s'.stopRequested = s.stopRequested := fun h => hr.stop (hf.once.mpr h)
    cases pc
    case swap => exact (hstop rfl).trans hpoint
    case deactivate | await => exact hr.drained hpoint
    case drain pc closing =>
      cases pc
      case mark => exact (hstop rfl).trans hpoint
      case reap pc => exact ⟨hr.stopped hpoint.1, reapListed_stable (hr.listed (hf.mutex.mpr rfl)) hpoint.2⟩
      all_goals exact hr.stopped hpoint
    all_goals trivial
  case reaper pc =>
    cases pc
    case reap pc => exact reapListed_stable (hr.listed (hf.mutex.mpr rfl)) hpoint
    case gone => exact hr.gone hpoint
    all_goals trivial
  all_goals trivial

end Stable

/-! ## Actions that leave the locks alone -/

/-- The members that the outline talks about are the same, but for the retained invocations. -/
@[grind cases]
structure SameLocks (s s' : Shared) : Prop where
  mutex : s'.mutex = s.mutex
  commandMutex : s'.commandMutex = s.commandMutex
  shutdownOnce : s'.shutdownOnce = s.shutdownOnce
  swapped : s'.swapped = s.swapped
  stopRequested : s'.stopRequested = s.stopRequested
  drained : s'.drained = s.drained
  reaperGone : s'.reaperGone = s.reaperGone

namespace SameLocks

variable {t : Thread} {a : Choice} {s s' : Shared}

theorem refl (s : Shared) : SameLocks s s := ⟨rfl, rfl, rfl, rfl, rfl, rfl, rfl⟩

theorem inv (e : SameLocks s s') (hi : ControlInv s) : ControlInv s' := by
  constructor
  all_goals grind -ring -linarith

theorem rely {u : Thread} (e : SameLocks s s') (hlisted : s.mutex = some u → s'.invocations = s.invocations) :
    ControlRely u s s' := by
  constructor
  all_goals grind -ring -linarith

theorem of_destroyPending (p : Nat) : SameLocks s (s.destroyPending p) := by
  unfold Shared.destroyPending
  split
  all_goals exact ⟨rfl, rfl, rfl, rfl, rfl, rfl, rfl⟩

theorem invocations_destroyPending (p : Nat) : (s.destroyPending p).invocations = s.invocations := by
  unfold Shared.destroyPending
  split
  all_goals rfl

theorem of_dropListed (p : Nat) : SameLocks s (s.dropListed p) ∧ (s.dropListed p).invocations = s.invocations := by
  unfold Shared.dropListed
  split
  · exact ⟨⟨rfl, rfl, rfl, rfl, rfl, rfl, rfl⟩, rfl⟩
  · have e := of_destroyPending (s := s.modifyPending p fun k => { k with listed := false }) p
    exact ⟨⟨e.1, e.2, e.3, e.4, e.5, e.6, e.7⟩, invocations_destroyPending p⟩

theorem of_dropLocal (p : Nat) : SameLocks s (s.dropLocal p) ∧ (s.dropLocal p).invocations = s.invocations := by
  unfold Shared.dropLocal
  split
  · exact ⟨⟨rfl, rfl, rfl, rfl, rfl, rfl, rfl⟩, rfl⟩
  · have e := of_destroyPending (s := s.modifyPending p fun k => { k with isLocal := false }) p
    exact ⟨⟨e.1, e.2, e.3, e.4, e.5, e.6, e.7⟩, invocations_destroyPending p⟩

theorem of_collect (o : Nat) (r : Collected) :
    SameLocks s (s.collect o r) ∧ (s.collect o r).invocations = s.invocations := by
  unfold Shared.collect
  split
  all_goals exact ⟨⟨rfl, rfl, rfl, rfl, rfl, rfl, rfl⟩, rfl⟩

/-- Only the holder of `mutex` removes invocations. -/
theorem of_reapAction {pc : ReapPc} {r : Option ReapPc} (h : reapAction a s pc = some (s', r)) : SameLocks s s' := by
  replace h := reapAction_step h
  cases h
  case ask => exact (of_collect _ _).1
  case remove => exact ⟨rfl, rfl, rfl, rfl, rfl, rfl, rfl⟩
  case erase p done => exact (of_dropListed p).1
  case erased => exact refl s

/-- An invocation is pushed only while nobody holds `mutex`. -/
theorem of_invokeAction {l l' : Pc} (h : invokeAction a s l = some (s', l')) :
    SameLocks s s' ∧ (s.mutex ≠ none → s'.invocations = s.invocations) := by
  replace h := invokeAction_step h
  cases h
  case wait | waitHere | waitPending =>
    obtain ⟨e, hinv⟩ := of_collect (s := s) _ _
    exact ⟨e, fun _ => hinv⟩
  case push p hfree hd => exact ⟨⟨rfl, rfl, rfl, rfl, rfl, rfl, rfl⟩, fun h => absurd hfree h⟩
  case keep p =>
    obtain ⟨e, hinv⟩ := of_dropLocal (s := s) p
    exact ⟨e, fun _ => hinv⟩
  all_goals exact ⟨⟨rfl, rfl, rfl, rfl, rfl, rfl, rfl⟩, fun _ => rfl⟩

end SameLocks

/-! ## The outline is valid -/

section Valid

variable {t : Thread} {a : Choice} {s s' : Shared}

theorem reap_listed {pc : ReapPc} {r : Option ReapPc} (hf : reapListed s pc) (h : reapAction a s pc = some (s', r)) :
    ∀ pc', r = some pc' → reapListed s' pc' := by
  replace h := reapAction_step h
  cases h
  case ask p rest done r ha =>
    rintro pc' ⟨⟩
    have hinv : (s.collect (s.pending p).operation r).invocations = s.invocations := (SameLocks.of_collect _ _).2
    obtain ⟨hrest, hdone⟩ := hf
    refine ⟨fun q hq => hinv ▸ hrest q (by simp [hq]), fun q hq => ?_⟩
    rw [hinv]
    split at hq
    · rcases List.mem_append.mp hq with hq | hq
      · exact hdone q hq
      · rw [List.mem_singleton.mp hq]
        exact hrest p (by simp)
    · exact hdone q hq
  case remove | erase =>
    rintro pc' ⟨⟩
    trivial
  case erased =>
    rintro pc' ⟨⟩

theorem publish_control {pc : PublishPc} {pc' : Option PublishPc} (hi : ControlInv s) (hb : ShutdownInv s)
    (hbf : publishFacts t s pc) (hf : ControlFacts t (.publish pc) s) (h : publishAction t a s pc = some (s', pc')) :
    ControlInv s' ∧ ControlFacts t (pc'.elim .idle .publish) s' ∧ ∀ u, u ≠ t → ControlRely u s s' := by
  obtain ⟨hreaper, hmutex, hcommand, honce, hpoint⟩ := hf
  replace h := publishAction_step h
  cases h
  all_goals refine ⟨⟨?_, ?_, ?_⟩, ⟨?_, ?_, ?_, ?_, ?_⟩, fun u hu => ⟨?_, ?_, ?_, ?_, ?_, ?_, ?_, ?_, ?_⟩⟩
  all_goals simp_all [Shared.modifyState, Pc.isReaper, Pc.holdsMutex, Pc.holdsCommandMutex, PublishPc.holds, Pc.runsShutdown,
    pointControl, publishControl, publishFacts]
  all_goals grind -ring -linarith

theorem drain_control {pc : DrainPc} {d : Option DrainPc} {closing : List Nat} (hi : ControlInv s)
    (hbf : shutdownFacts t s (.drain pc closing)) (hf : ControlFacts t (.shutdown (.drain pc closing)) s)
    (h : drainAction t a s pc = some (s', d)) :
    ControlInv s' ∧ ControlFacts t (.shutdown (afterDrain closing d)) s' ∧ ∀ u, u ≠ t → ControlRely u s s' := by
  obtain ⟨hreaper, hmutex, hcommand, honce, hpoint⟩ := hf
  replace h := drainAction_step h
  cases h
  case reap rpc r hr =>
    have e := SameLocks.of_reapAction hr
    have hown : s.mutex = some t := hmutex.mpr rfl
    have hlisted := reap_listed hpoint.2 hr
    refine ⟨e.inv hi, ?_, fun u hu => e.rely fun hmu => absurd (Option.some.inj (hmu.symm.trans hown)) hu⟩
    refine ⟨hreaper, ?_, e.commandMutex ▸ hcommand, e.shutdownOnce ▸ honce, ?_⟩
    · rw [e.mutex, hown]
      cases r
      all_goals simp [afterDrain, Pc.holdsMutex, ShutdownPc.holds, DrainPc.holds]
    · cases r with
      | none => exact e.stopRequested.trans hpoint.1
      | some rpc' => exact ⟨e.stopRequested.trans hpoint.1, hlisted rpc' rfl⟩
  all_goals refine ⟨⟨?_, ?_, ?_⟩, ⟨?_, ?_, ?_, ?_, ?_⟩, fun u hu => ⟨?_, ?_, ?_, ?_, ?_, ?_, ?_, ?_, ?_⟩⟩
  all_goals simp_all [afterDrain, Pc.isReaper, Pc.holdsMutex, ShutdownPc.holds, DrainPc.holds, Pc.holdsCommandMutex,
    Pc.runsShutdown, ShutdownPc.runs, pointControl, shutdownControl, drainControl, reapListed, shutdownFacts]
  all_goals grind -ring -linarith

theorem shutdown_control {pc : ShutdownPc} {pc' : Option ShutdownPc} (hi : ControlInv s) (hb : ShutdownInv s)
    (hbf : shutdownFacts t s pc) (hf : ControlFacts t (.shutdown pc) s) (h : shutdownAction t a s pc = some (s', pc')) :
    ControlInv s' ∧ ControlFacts t (pc'.elim .idle .shutdown) s' ∧ ∀ u, u ≠ t → ControlRely u s s' := by
  replace h := shutdownAction_step h
  cases h
  case drain dpc closing d hd => exact drain_control hi hbf hf hd
  all_goals obtain ⟨hreaper, hmutex, hcommand, honce, hpoint⟩ := hf
  all_goals refine ⟨⟨?_, ?_, ?_⟩, ⟨?_, ?_, ?_, ?_, ?_⟩, fun u hu => ⟨?_, ?_, ?_, ?_, ?_, ?_, ?_, ?_, ?_⟩⟩
  all_goals simp_all [Shared.modifyState, Pc.isReaper, Pc.holdsMutex, ShutdownPc.holds, DrainPc.holds, Pc.holdsCommandMutex,
    Pc.runsShutdown, ShutdownPc.runs, pointControl, shutdownControl, drainControl, shutdownFacts]
  all_goals grind -ring -linarith

theorem reaper_control {pc pc' : ReaperPc} (hi : ControlInv s) (hf : ControlFacts t (.reaper pc) s)
    (hwaits : ¬ (pc = .awake ∧ a = .raise)) (h : reaperAction a s pc = some (s', pc')) :
    ControlInv s' ∧ ControlFacts t (.reaper pc') s' ∧ ∀ u, u ≠ t → ControlRely u s s' := by
  obtain ⟨hreaper, hmutex, hcommand, honce, hpoint⟩ := hf
  have ht : t = .reaper := hreaper.mpr rfl
  subst ht
  replace h := reaperAction_step h
  cases h
  case reap rpc rpc' hr =>
    have e := SameLocks.of_reapAction hr
    have hown : s.mutex = some .reaper := hmutex.mpr rfl
    refine ⟨e.inv hi, ?_, fun u hu => e.rely fun hmu => absurd (Option.some.inj (hmu.symm.trans hown)) hu⟩
    refine ⟨hreaper, ?_, e.commandMutex ▸ hcommand, e.shutdownOnce ▸ honce, reap_listed hpoint hr rpc' rfl⟩
    rw [e.mutex, hown]
    simp [Pc.holdsMutex, ReaperPc.holds]
  case reaped rpc s₁ hr =>
    have e := SameLocks.of_reapAction hr
    have hown : s.mutex = some .reaper := hmutex.mpr rfl
    obtain ⟨hstop, hgone, hdone⟩ := e.inv hi
    refine ⟨⟨hstop, hgone, hdone⟩, ⟨hreaper, ?_, e.commandMutex ▸ hcommand, e.shutdownOnce ▸ honce, trivial⟩, ?_⟩
    · simp [Pc.holdsMutex, ReaperPc.holds]
    · intro u hu
      have hr := e.rely (u := u) fun hmu => absurd (Option.some.inj (hmu.symm.trans hown)) hu
      refine ⟨?_, hr.command, hr.once, fun hmu => hr.listed hmu, hr.swapped, hr.stop, hr.stopped, hr.drained, hr.gone⟩
      simp [hown, hu.symm]
  all_goals refine ⟨⟨?_, ?_, ?_⟩, ⟨?_, ?_, ?_, ?_, ?_⟩, fun u hu => ⟨?_, ?_, ?_, ?_, ?_, ?_, ?_, ?_, ?_⟩⟩
  all_goals simp_all [Pc.isReaper, Pc.holdsMutex, ReaperPc.holds, Pc.holdsCommandMutex, Pc.runsShutdown, pointControl,
    reaperControl, reapListed]
  all_goals grind -ring -linarith

/-- A frame of a read, a write or an invocation, or an idle one. -/
def Pc.serves : Pc → Bool
  | .publish _ => false
  | .beginShutdown => false
  | .shutdown _ => false
  | .reaper _ => false
  | _ => true

theorem serves_facts {l : Pc} (hl : l.serves = true) : l.isReaper = false ∧ l.holdsMutex = false ∧
    l.holdsCommandMutex = false ∧ l.runsShutdown = false ∧ pointControl s l := by
  cases l
  case publish | beginShutdown | shutdown | reaper => cases hl
  all_goals exact ⟨rfl, rfl, rfl, rfl, trivial⟩

/-- Between two such frames no lock changes hands. -/
theorem serve_control {l l' : Pc} (hl : l.serves = true) (hl' : l'.serves = true) (hi : ControlInv s)
    (hf : ControlFacts t l s) (e : SameLocks s s') (hlisted : s.mutex ≠ none → s'.invocations = s.invocations) :
    ControlInv s' ∧ ControlFacts t l' s' ∧ ∀ u, u ≠ t → ControlRely u s s' := by
  obtain ⟨hreaper, hmutex, hcommand, honce, -⟩ := hf
  obtain ⟨h₁, h₂, h₃, h₄, -⟩ := serves_facts (s := s) hl
  obtain ⟨h₁', h₂', h₃', h₄', hpoint⟩ := serves_facts (s := s') hl'
  refine ⟨e.inv hi, ⟨?_, ?_, ?_, ?_, hpoint⟩, fun u _ => e.rely fun hmu => hlisted (by simp [hmu])⟩
  · rw [hreaper, h₁, h₁']
  · rw [e.mutex, hmutex, h₂, h₂']
  · rw [e.commandMutex, hcommand, h₃, h₃']
  · rw [e.shutdownOnce, honce, h₄, h₄']

theorem invoke_serves {l l' : Pc} (h : invokeAction a s l = some (s', l')) : l.serves = true ∧ l'.serves = true := by
  replace h := invokeAction_step h
  cases h
  case wait r _ | waitHere r _ | waitPending r _ =>
    refine ⟨rfl, ?_⟩
    split
    all_goals rfl
  all_goals exact ⟨rfl, rfl⟩

theorem thread_control {l l' : Pc} (hi : ControlInv s) (hb : ShutdownInv s) (hbf : shutdownAssertion t l s)
    (hf : ControlFacts t l s) (hwaits : ¬ (l = .reaper .awake ∧ a = .raise)) (h : threadAction t a s l = some (s', l')) :
    ControlInv s' ∧ ControlFacts t l' s' ∧ ∀ u, u ≠ t → ControlRely u s s' := by
  cases threadStep h
  case enter hpc he =>
    replace he := enterAction_step he
    cases he
    case granted =>
      refine serve_control rfl ?_ hi hf ⟨rfl, rfl, rfl, rfl, rfl, rfl, rfl⟩ fun _ => rfl
      rcases hpc with rfl | rfl
      all_goals rfl
    case refused => exact serve_control rfl rfl hi hf (SameLocks.refl s) fun _ => rfl
  case enterPublish | enterBeginShutdown | enterShutdown =>
    obtain ⟨hreaper, hmutex, hcommand, honce, -⟩ := hf
    exact ⟨hi, ⟨hreaper, hmutex, hcommand, honce, trivial⟩, fun u _ => (SameLocks.refl s).rely fun _ => rfl⟩
  case publish pc pc' hp => exact publish_control hi hb hbf hf hp
  case beginShutdown =>
    obtain ⟨hstop, hgone, hdone⟩ := hi
    obtain ⟨hreaper, hmutex, hcommand, honce, -⟩ := hf
    refine ⟨⟨hstop, hgone, hdone⟩, ⟨hreaper, hmutex, hcommand, honce, trivial⟩, fun u _ => ?_⟩
    exact SameLocks.rely ⟨rfl, rfl, rfl, rfl, rfl, rfl, rfl⟩ fun _ => rfl
  case shutdown pc pc' hp => exact shutdown_control hi hb hbf hf hp
  case reaper pc pc' hp => exact reaper_control hi hf (fun hpc => hwaits ⟨congrArg Pc.reaper hpc.1, hpc.2⟩) hp
  case invoke hp =>
    obtain ⟨hl, hl'⟩ := invoke_serves hp
    obtain ⟨e, hlisted⟩ := SameLocks.of_invokeAction hp
    exact serve_control hl hl' hi hf e hlisted

/-- The waits of the reaper do not throw. -/
def Waits (_ : Thread) (a : Choice) (l : Pc) : Prop := ¬ (l = .reaper .awake ∧ a = .raise)

theorem control_valid : controlOutline.ValidOn program shutdownOutline Waits where
  step := by
    intro i a s l s' l' hb hbf hi hf hw h
    exact thread_control hi hb hbf hf hw h
  stable := by
    intro j l s s' _ _ _ hf hr
    exact control_stable hr hf

/-- Reachable by runs in which the waits of the reaper do not throw. -/
abbrev Reached : Config Thread Shared Pc → Prop := program.Reach fun c t a => Waits t a (c.frame t)

theorem control_reached {c : Config Thread Shared Pc} (h : Reached c) : controlOutline.Holds c := by
  refine control_valid.reach (fun c hc => shutdown_reachable hc) ⟨?_, fun t => ?_⟩ h
  · constructor
    all_goals simp [Threads.initial, program]
  · cases t
    all_goals constructor
    all_goals simp [Threads.initial, program, Pc.isReaper, Pc.holdsMutex, ReaperPc.holds, Pc.holdsCommandMutex,
      Pc.runsShutdown, pointControl, reaperControl]

end Valid

end RttOpcua.Lease
