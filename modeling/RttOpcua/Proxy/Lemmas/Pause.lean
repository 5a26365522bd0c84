import RttOpcua.Proxy.Lemmas.Ports

/-!
# The pause outline

`ports_paused` belongs to the holder of `synchronize_mutex`, `ports_pumping` to the pump, which starts a pass only
while the former is not set. So a control call that has waited for the pump is alone with the adapters until it resumes
the pump, whatever fails on the way.
-/

namespace RttOpcua.Proxy

open RttOpcua.Lib

/-! ## Program points -/

/-- The pump is in a pass over the adapters. -/
def PumpPc.inPass : PumpPc → Bool
  | .next _ => true
  | .pump _ _ _ => true
  | _ => false

def Pc.inPass : Pc → Bool
  | .pump pc => pc.inPass
  | _ => false

/-- The `pump()` of an adapter is running. -/
def Pc.pumps : Pc → Bool
  | .pump (.pump _ _ _) => true
  | _ => false

/-- The next step is the return of `pausePortPump`. -/
def Pc.pauses (l : Pc) : Bool :=
  match l with
  | .sync .pauseWait _ => true
  | _ => l.inStale == some .pauseWait

/-- The next step is `resumePortPump`. -/
def Pc.resumes : Pc → Bool
  | .sync (.resume _) _ => true
  | _ => false

/-- The next step is in `hasPendingState`, `transferPendingStateTo` or `discardPendingState`. -/
def Pc.touchesPending (l : Pc) : Bool :=
  match l with
  | .sync (.canReplace _ _) _ => true
  | .sync (.replace _) _ => true
  | _ =>
      match l.inStale with
      | some (.discard _) => true
      | _ => false

theorem inPass_of_pumps {l : Pc} (h : l.pumps = true) : l.inPass = true := by
  unfold Pc.pumps at h
  split at h
  · rfl
  · cases h

/-! ## Assertions -/

def stalePaused (s : Shared) : StalePc → Prop
  | .mark | .disable | .disableLocked | .pause => True
  | .pauseWait => s.portsPaused = true
  | .adapters | .discard _ => s.Paused

/-- Nested pauses and what comes after the first one find the pump paused. -/
def syncPaused (s : Shared) : SyncPc → Prop
  | .lock | .context | .disable | .disableLocked | .pause | .unlock _ => True
  | .pauseWait => s.portsPaused = true
  | _ => s.Paused

def lifecyclePaused (s : Shared) : LifecyclePc → Prop
  | .mark pc => stalePaused s pc
  | _ => True

def PauseFacts (t : Thread) (l : Pc) (s : Shared) : Prop :=
  match l with
  | .sync pc _ => t ≠ .pump ∧ syncPaused s pc
  | .lifecycle pc => t ≠ .pump ∧ lifecyclePaused s pc
  | .pump pc => t = .pump ∧ s.portsPumping = pc.inPass
  | _ => t ≠ .pump

/-- What thread `u` relies on. -/
@[grind cases]
structure PauseRely (u : Thread) (s s' : Shared) : Prop where
  control : s.synchronizeMutex = some u → s'.portsPaused = s.portsPaused ∧ (s.Paused → s'.portsPumping = false)
  pump : u = .pump → s'.portsPumping = s.portsPumping

def pauseOutline : Threads.Outline Thread Shared Pc := ⟨fun _ => True, PauseFacts, PauseRely⟩

/-! ## Stability -/

section Stable

variable {t : Thread} {s s' : Shared} {l : Pc}

theorem paused_stable (hr : PauseRely t s s') (hm : s.synchronizeMutex = some t) (h : s.Paused) : s'.Paused := by
  obtain ⟨hpaused, hpumping⟩ := hr.control hm
  exact ⟨hpaused.trans h.1, hpumping h⟩

theorem stalePaused_stable {pc : StalePc} (hr : PauseRely t s s') (hm : s.synchronizeMutex = some t)
    (hf : stalePaused s pc) : stalePaused s' pc := by
  cases pc
  case pauseWait => exact (hr.control hm).1.trans hf
  case adapters | discard rest => exact paused_stable hr hm hf
  all_goals trivial

theorem syncPaused_stable {pc : SyncPc} (hr : PauseRely t s s') (hm : s.synchronizeMutex = some t ↔ pc.holds = true)
    (hf : syncPaused s pc) : syncPaused s' pc := by
  cases pc
  case lock | context | disable | disableLocked | pause | unlock => trivial
  case pauseWait => exact (hr.control (hm.mpr rfl)).1.trans hf
  all_goals exact paused_stable hr (hm.mpr rfl) hf

theorem pauseFacts_stable (hb : AccessFacts t l s) (hr : PauseRely t s s') (hf : PauseFacts t l s) :
    PauseFacts t l s' := by
  cases l
  case sync pc creating => exact ⟨hf.1, syncPaused_stable hr hb.synchronizeMutex hf.2⟩
  case lifecycle pc =>
    refine ⟨hf.1, ?_⟩
    cases pc
    case mark pc => exact stalePaused_stable hr (hb.synchronizeMutex.mpr rfl) hf.2
    all_goals trivial
  case pump pc => exact ⟨hf.1, (hr.pump hf.1).trans hf.2⟩
  all_goals exact hf

/-- Other threads than the pump leave `ports_pumping` alone, and `ports_paused` without `synchronize_mutex`. -/
theorem pauseRely_of_control (hpumping : s'.portsPumping = s.portsPumping)
    (hpaused : s.synchronizeMutex = some t ∨ s'.portsPaused = s.portsPaused) {u : Thread} (hu : u ≠ t) :
    PauseRely u s s' := by
  refine ⟨fun hown => ?_, fun _ => hpumping⟩
  rcases hpaused with hmine | hsame
  · rw [hmine] at hown
    exact absurd (Option.some.inj hown).symm hu
  · exact ⟨hsame, fun hp => hpumping.trans hp.2⟩

end Stable

/-! ## Actions -/

section Actions

variable {t : Thread} {a : Choice} {s s' : Shared}

theorem stalePaused_of_paused (h : s.Paused) (pc : StalePc) : stalePaused s pc := by
  cases pc
  case pauseWait => exact h.1
  case adapters | discard rest => exact h
  all_goals trivial

/-- `markInterfaceStale` ends with the pump paused. -/
theorem stale_pause {pc : StalePc} {r : Option StalePc} (hf : stalePaused s pc) (h : staleAction a s pc = some (s', r)) :
    r.elim s'.Paused (stalePaused s') ∧ (s.Paused → s'.Paused) ∧ s'.portsPumping = s.portsPumping := by
  replace h := staleAction_step h
  cases h
  case pause => exact ⟨rfl, fun hp => ⟨rfl, hp.2⟩, rfl⟩
  case pauseWait hidle => exact ⟨⟨hf, hidle⟩, fun hp => hp, rfl⟩
  case mark | disable | disableLocked => exact ⟨trivial, fun hp => hp, rfl⟩
  all_goals exact ⟨hf, fun hp => hp, rfl⟩

theorem sync_pause {pc pc' : SyncPc} (hf : syncPaused s pc) (h : syncAction t a s pc = some (s', .inl pc')) :
    syncPaused s' pc' ∧ s'.portsPumping = s.portsPumping ∧ (pc = .lock → s'.portsPaused = s.portsPaused) ∧
      (s.Paused → (∀ r, pc = .resume r → s.interfaceStale = true) → s'.Paused) := by
  replace h := syncAction_step h
  cases h
  case mark pc entry r hp | fail pc r hp =>
    have hstale := stalePaused_of_paused hf pc
    obtain ⟨-, hpaused, hpumping⟩ := stale_pause hstale hp
    refine ⟨?_, hpumping, fun hpc => (by cases hpc), fun hp _ => hpaused hp⟩
    cases r
    · exact hpaused hf
    · exact hpaused hf
  case connect pc restore r hp =>
    have e := SamePorts.of_connect hp
    have hpaused : s'.Paused := ⟨e.portsPaused.trans hf.1, e.portsPumping.trans hf.2⟩
    refine ⟨?_, e.portsPumping, fun hpc => (by cases hpc), fun _ _ => hpaused⟩
    obtain pc' | ok := r
    · exact hpaused
    · cases ok
      · exact hpaused
      · exact hpaused
  case discover pc restore r hp =>
    have e := SamePorts.of_discover hp
    have hpaused : s'.Paused := ⟨e.portsPaused.trans hf.1, e.portsPumping.trans hf.2⟩
    refine ⟨?_, e.portsPumping, fun hpc => (by cases hpc), fun _ _ => hpaused⟩
    obtain pc' | ok := r
    · exact hpaused
    · cases ok
      · exact hpaused
      · exact hpaused
  case staged restore ports ha hports =>
    have e : SameButAdapters s (s.stagePorts ports) := (stagePorts_spec ports s).2.2.2.2.2
    have hpaused : (s.stagePorts ports).Paused := ⟨e.portsPaused.trans hf.1, e.portsPumping.trans hf.2⟩
    exact ⟨hpaused, e.portsPumping, fun hpc => (by cases hpc), fun _ _ => hpaused⟩
  case replace staged =>
    have e := (replacePortAdapters_same staged.ports s).1
    have hpaused : (s.replacePortAdapters staged.ports).Paused := ⟨e.portsPaused.trans hf.1, e.portsPumping.trans hf.2⟩
    exact ⟨hpaused, e.portsPumping, fun hpc => (by cases hpc), fun _ _ => hpaused⟩
  all_goals simp only [syncPaused] at hf ⊢
  all_goals grind -ring -linarith

theorem lifecycle_pause {pc : LifecyclePc} {r : Option LifecyclePc} (hf : lifecyclePaused s pc)
    (h : lifecycleAction t a s pc = some (s', r)) :
    r.elim True (lifecyclePaused s') ∧ s'.portsPumping = s.portsPumping ∧
      (pc = .lock → s'.portsPaused = s.portsPaused) ∧ (s.Paused → s'.Paused) := by
  replace h := lifecycleAction_step h
  cases h
  case call pc r hp =>
    have e := SamePorts.of_request hp
    refine ⟨?_, e.portsPumping, fun hpc => (by cases hpc), fun hp => ⟨e.portsPaused.trans hp.1, e.portsPumping.trans hp.2⟩⟩
    obtain pc' | answer := r
    · trivial
    · simp only [Sum.elim_inr, Option.elim_some]
      split
      · trivial
      · trivial
  case mark pc r hp =>
    obtain ⟨hf', hpaused, hpumping⟩ := stale_pause hf hp
    refine ⟨?_, hpumping, fun hpc => (by cases hpc), hpaused⟩
    cases r
    · trivial
    · exact hf'
  all_goals refine ⟨?_, rfl, fun _ => rfl, fun hp => hp⟩
  all_goals simp only [Option.elim_none, Option.elim_some]
  all_goals trivial

theorem adapter_pause {pc : AdapterPc} {r : Option AdapterPc} {x : Nat} (h : adapterAction t a s x pc = some (s', r)) :
    s'.portsPumping = s.portsPumping ∧ s'.portsPaused = s.portsPaused := by
  replace h := adapterAction_step h
  cases h
  case write pc pc' hp | read pc pc' hp =>
    have e := SamePorts.of_request hp
    exact ⟨e.portsPumping, e.portsPaused⟩
  case written pc s₁ hp =>
    have e := SamePorts.of_request hp
    exact ⟨e.portsPumping, e.portsPaused⟩
  case wasRead pc hp =>
    have e := SamePorts.of_request hp
    exact ⟨e.portsPumping, e.portsPaused⟩
  case notWritten pc answer _ hp | notRead pc answer _ hp =>
    have e := SamePorts.of_request hp
    exact ⟨e.portsPumping, e.portsPaused⟩
  all_goals exact ⟨rfl, rfl⟩

/-- The pump starts a pass only while it is not paused. -/
theorem pump_pause {pc pc' : PumpPc} (hf : s.portsPumping = pc.inPass) (h : pumpAction t a s pc = some (s', pc')) :
    s'.portsPumping = pc'.inPass ∧ s'.portsPaused = s.portsPaused ∧ (s.Paused → s'.portsPumping = false) := by
  replace h := pumpAction_step h
  cases h
  case pump pc x rest r hp =>
    obtain ⟨hpumping, hpaused⟩ := adapter_pause hp
    refine ⟨?_, hpaused, fun hp => hpumping.trans hp.2⟩
    cases r
    · exact hpumping.trans hf
    · exact hpumping.trans hf
  case stop | stopPass | endPass => exact ⟨rfl, rfl, fun _ => rfl⟩
  case wait hstop hrunning => exact ⟨rfl, rfl, fun hp => absurd hp.1 (by simp [hrunning])⟩
  case next | interval => exact ⟨hf, rfl, fun hp => hp.2⟩

end Actions

/-! ## The outline -/

theorem pause_step {t : Thread} {a : Choice} {s s' : Shared} {l l' : Pc} (hb : AccessFacts t l s)
    (hf : PauseFacts t l s) (h : threadAction t a s l = some (s', l')) :
    PauseFacts t l' s' ∧ ∀ u, u ≠ t → PauseRely u s s' := by
  have hown := hb.synchronizeMutex
  cases threadStep h
  case enterSync | enterLifecycle => exact ⟨⟨hf, trivial⟩, fun u hu => pauseRely_of_control rfl (.inr rfl) hu⟩
  case enterRequest | enterStop | join => exact ⟨hf, fun u hu => pauseRely_of_control rfl (.inr rfl) hu⟩
  case stop =>
    refine ⟨hf, fun u hu => pauseRely_of_control ?_ (.inr ?_) hu⟩
    · rfl
    · rfl
  case create pc r ha =>
    have e := SamePorts.of_connect ha
    refine ⟨?_, fun u hu => pauseRely_of_control e.portsPumping (.inr e.portsPaused) hu⟩
    obtain pc' | ok := r
    · exact hf
    · cases ok
      · exact hf
      · exact ⟨hf, trivial⟩
  case request k pc r ha =>
    have e := SamePorts.of_request ha
    refine ⟨?_, fun u hu => pauseRely_of_control e.portsPumping (.inr e.portsPaused) hu⟩
    obtain pc' | answer := r
    · exact hf
    · exact hf
  case sync pc pc' creating ha =>
    obtain ⟨hf', hpumping, hlock, -⟩ := sync_pause hf.2 ha
    refine ⟨⟨hf.1, hf'⟩, fun u hu => pauseRely_of_control hpumping ?_ hu⟩
    by_cases hpc : pc = .lock
    · exact .inr (hlock hpc)
    · refine .inl (hown.mpr ?_)
      cases pc
      case lock => exact absurd rfl hpc
      all_goals rfl
  case syncReturn r creating =>
    refine ⟨?_, fun u hu => pauseRely_of_control ?_ (.inr ?_) hu⟩
    · split
      · exact hf.1
      · exact hf.1
    · rfl
    · rfl
  case lifecycle pc pc' ha =>
    obtain ⟨hf', hpumping, hlock, -⟩ := lifecycle_pause hf.2 ha
    refine ⟨?_, fun u hu => pauseRely_of_control hpumping ?_ hu⟩
    · cases pc'
      · exact hf.1
      · exact ⟨hf.1, hf'⟩
    · by_cases hpc : pc = .lock
      · exact .inr (hlock hpc)
      · refine .inl (hown.mpr ?_)
        cases pc
        case lock => exact absurd rfl hpc
        all_goals rfl
  case pump pc pc' ha =>
    obtain ⟨rfl, hf⟩ := hf
    obtain ⟨hf', hpaused, hpumping⟩ := pump_pause hf ha
    exact ⟨⟨rfl, hf'⟩, fun u hu => ⟨fun _ => ⟨hpaused, hpumping⟩, fun hpump => absurd hpump hu⟩⟩

theorem pause_valid : pauseOutline.Valid program accessOutline where
  step := by
    intro i a s l s' l' _ hb _ hf h
    exact ⟨trivial, pause_step hb hf h⟩
  stable := by
    intro j l s s' _ hb _ hf hr
    exact pauseFacts_stable hb hr hf

theorem pause_reachable {c : Config Thread Shared Pc} (h : program.Reachable c) : pauseOutline.Holds c := by
  refine pause_valid.reachable (fun _ => access_reachable) ⟨trivial, fun t => ?_⟩ h
  match t with
  | .app 0 => exact fun h => by cases h
  | .app (n + 1) => exact fun h => by cases h
  | .pump => exact ⟨rfl, rfl⟩

/-! ## Pauses -/

section Pauses

variable {t : Thread} {a : Choice} {s s' : Shared} {l l' : Pc} {c : Config Thread Shared Pc}

/-- While `ports_pumping` is not set, no thread is in a pass. -/
theorem inPass_of_paused (hc : pauseOutline.Holds c) (hp : c.shared.Paused) (u : Thread) : (c.frame u).inPass = false := by
  have hf : PauseFacts u (c.frame u) c.shared := hc.2 u
  generalize c.frame u = l at hf
  cases l
  case pump pc => exact hf.2.symm.trans hp.2
  all_goals rfl

theorem paused_of_touchesPending (hf : PauseFacts t l s) (h : l.touchesPending = true) : s.Paused := by
  cases l
  case sync pc creating =>
    cases pc
    case canReplace | replace | mark | fail => exact hf.2
    all_goals simp [Pc.touchesPending, Pc.inStale] at h
  case lifecycle pc =>
    cases pc
    case mark pc =>
      cases pc
      case discard rest => exact hf.2
      all_goals simp [Pc.touchesPending, Pc.inStale] at h
    all_goals simp [Pc.touchesPending, Pc.inStale] at h
  all_goals simp [Pc.touchesPending, Pc.inStale] at h

theorem paused_of_resumes (hf : PauseFacts t l s) (h : l.resumes = true) : s.Paused := by
  cases l
  case sync pc creating =>
    cases pc
    case resume r => exact hf.2
    all_goals simp [Pc.resumes] at h
  all_goals simp [Pc.resumes] at h

/-- `pausePortPump` returns with the pump paused. -/
theorem paused_of_pauses (hf : PauseFacts t l s) (h : l.pauses = true) (ha : threadAction t a s l = some (s', l')) :
    s'.Paused := by
  cases threadStep ha
  case sync pc pc' creating hp =>
    cases pc
    case pauseWait =>
      have hnext := (sync_pause hf.2 hp).1
      replace hp := syncAction_step hp
      cases hp
      exact hnext
    case mark pc entry | fail pc =>
      exact (sync_pause hf.2 hp).2.2.2 hf.2 fun r hr => by cases hr
    all_goals simp [Pc.pauses, Pc.inStale] at h
  case lifecycle pc pc' hp =>
    replace hp := lifecycleAction_step hp
    cases hp
    case mark pc r hp =>
      cases pc
      case pauseWait =>
        have hstale : stalePaused s .pauseWait := hf.2
        have hnext := (stale_pause hstale hp).1
        replace hp := staleAction_step hp
        cases hp
        exact hnext
      all_goals simp [Pc.pauses, Pc.inStale] at h
    all_goals simp [Pc.pauses, Pc.inStale] at h
  all_goals simp [Pc.pauses, Pc.inStale] at h

/-- Only a resume of an interface that is not stale ends a pause. -/
theorem paused_step (hf : PauseFacts t l s) (hp : s.Paused) (hresume : l.resumes = true → s.interfaceStale = true)
    (ha : threadAction t a s l = some (s', l')) : s'.Paused := by
  cases threadStep ha
  case create pc r hp' =>
    have e := SamePorts.of_connect hp'
    exact ⟨e.portsPaused.trans hp.1, e.portsPumping.trans hp.2⟩
  case request k pc r hp' =>
    have e := SamePorts.of_request hp'
    exact ⟨e.portsPaused.trans hp.1, e.portsPumping.trans hp.2⟩
  case sync pc pc' creating hp' =>
    refine (sync_pause hf.2 hp').2.2.2 hp fun r hr => hresume ?_
    rw [hr]
    rfl
  case lifecycle pc pc' hp' => exact (lifecycle_pause hf.2 hp').2.2.2 hp
  case pump pc pc' hp' =>
    obtain ⟨-, hpaused, hpumping⟩ := pump_pause hf.2 hp'
    exact ⟨hpaused.trans hp.1, hpumping hp⟩
  all_goals exact hp

end Pauses

end RttOpcua.Proxy
