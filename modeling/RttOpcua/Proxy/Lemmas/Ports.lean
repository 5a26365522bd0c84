import RttOpcua.Proxy.Lemmas.Access
import Mathlib.Data.List.Nodup

/-!
# The ports outline

The pump moves samples only while `ports_pumping`, and a control call touches the adapters only after
`pausePortPump`. So the pending samples of a stale interface stay discarded, and those of a fresh one stay
with their adapters until the control call replaces these.
-/

namespace RttOpcua.Proxy

open RttOpcua.Lib

/-! ## Invariant and assertions -/

namespace RemotePortAdapter

/-- A sample is pending in one of its stages at most, and in a stage of the adapter's direction. -/
@[grind]
def Single (x : RemotePortAdapter) : Prop :=
  match x.description.direction with
  | .input => x.pendingOutput = none ∧ (x.pendingInputSource = none ∨ x.pendingInput = none)
  | .output => x.pendingInputSource = none ∧ x.pendingInput = none

end RemotePortAdapter

namespace Shared

variable (s : Shared)

def NoPending : Prop := ∀ x ∈ s.portAdapters, (s.adapter x).hasPendingState = false

@[grind]
def Paused : Prop := s.portsPaused = true ∧ s.portsPumping = false

/-- No control call is changing the interface. -/
@[grind]
def Rest : Prop :=
  (s.interfaceStale = true → s.Paused ∧ s.NoPending) ∧
  (s.interfaceReady = false → s.interfaceStale = true ∨ s.portAdapters = [])

/-- The new adapters of a synchronization are not in use yet. -/
@[grind]
def Spare (staged : Staged) : Prop :=
  (∀ y ∈ staged.ports, y < s.nextAdapter ∧ y ∉ s.portAdapters) ∧
  (staged.ports.map fun y => (s.adapter y).key).Nodup

end Shared

@[grind cases]
structure PortInv (s : Shared) : Prop where
  known : ∀ x ∈ s.portAdapters, x < s.nextAdapter
  unused : ∀ x, x ∉ s.portAdapters → (s.adapter x).hasPendingState = false
  keys : (s.portAdapters.map fun x => (s.adapter x).key).Nodup
  single : ∀ x, (s.adapter x).Single
  rest : s.synchronizeMutex = none → s.Rest

def stalePorts (s : Shared) : StalePc → Prop
  | .mark | .disable | .disableLocked | .pause => True
  | .pauseWait => s.portsPaused = true
  | .adapters => s.Paused
  | .discard rest => s.Paused ∧ ∀ x ∈ s.portAdapters, x ∉ rest → (s.adapter x).hasPendingState = false

def syncPorts (s : Shared) : SyncPc → Prop
  | .lock => True
  | .context | .disable | .disableLocked | .pause => s.Rest
  | .pauseWait => s.Rest ∧ s.portsPaused = true
  | .mark pc _ => s.Paused ∧ stalePorts s pc
  | .canReplace staged _ => s.Rest ∧ s.Paused ∧ s.Spare staged
  | .unready staged => s.Rest ∧ s.Paused ∧ s.Spare staged ∧ s.canReplacePortAdapters staged.ports = true
  | .install staged | .replace staged => s.Paused ∧ s.Spare staged ∧ s.canReplacePortAdapters staged.ports = true
  | .ready | .enableFresh | .fresh => s.Paused
  | .fail pc => s.Paused ∧ stalePorts s pc
  | .unlock _ => s.Rest
  | _ => s.Rest ∧ s.Paused

def lifecyclePorts (s : Shared) : LifecyclePc → Prop
  | .lock => True
  | .mark pc => stalePorts s pc
  | _ => s.Rest

def adapterPorts (x : RemotePortAdapter) : AdapterPc → Prop
  | .input => x.description.direction = .input
  | .encode => x.description.direction = .input ∧ x.pendingInputSource.isSome = true ∧ x.pendingInput = none
  | .write _ => x.description.direction = .input ∧ x.pendingInput.isSome = true
  | .output => x.description.direction = .output
  | .read _ | .decode => x.description.direction = .output ∧ x.pendingOutput = none
  | .deliver => x.description.direction = .output ∧ x.pendingOutput.isSome = true

def pumpPorts (s : Shared) : PumpPc → Prop
  | .next rest => s.portsPumping = true ∧ ∀ x ∈ rest, x ∈ s.portAdapters
  | .pump pc x rest => s.portsPumping = true ∧ (∀ y ∈ x :: rest, y ∈ s.portAdapters) ∧ adapterPorts (s.adapter x) pc
  | _ => s.portsPumping = false

/-- The pump is a thread of its own. -/
def PortFacts (t : Thread) (l : Pc) (s : Shared) : Prop :=
  match l with
  | .sync pc _ => t ≠ .pump ∧ syncPorts s pc
  | .lifecycle pc => t ≠ .pump ∧ lifecyclePorts s pc
  | .pump pc => t = .pump ∧ pumpPorts s pc
  | _ => t ≠ .pump

/-- What thread `u` relies on. -/
@[grind cases]
structure PortRely (u : Thread) (s s' : Shared) : Prop where
  control : s.synchronizeMutex = some u →
    s'.interfaceReady = s.interfaceReady ∧ s'.interfaceStale = s.interfaceStale ∧
    s'.portAdapters = s.portAdapters ∧ s'.nextAdapter = s.nextAdapter ∧ s'.portsPaused = s.portsPaused ∧
    (s.Paused → s'.portsPumping = false ∧ s'.adapter = s.adapter)
  pump : u = .pump → s'.portsPumping = s.portsPumping ∧
    (s.portsPumping = true → s'.adapter = s.adapter ∧ s'.portAdapters = s.portAdapters)

def portOutline : Threads.Outline Thread Shared Pc := ⟨PortInv, PortFacts, PortRely⟩

/-- The copy of the adapters in `discardPendingPortState` does not throw. -/
def Copies (_ : Thread) (a : Choice) (l : Pc) : Prop := l.inStale = some .adapters → a ≠ .raise

/-! ## Stability -/

section Stable

variable {t : Thread} {s s' : Shared}

theorem stalePorts_stable {pc : StalePc} (hr : PortRely t s s') (hm : s.synchronizeMutex = some t)
    (hf : stalePorts s pc) : stalePorts s' pc := by
  have hc := hr.control hm
  cases pc
  all_goals simp only [stalePorts] at hf ⊢
  all_goals grind -ring -linarith

theorem rest_stable (hr : PortRely t s s') (hm : s.synchronizeMutex = some t) (h : s.Rest) : s'.Rest := by
  have hc := hr.control hm
  unfold Shared.Rest Shared.NoPending at *
  grind -ring -linarith

theorem spare_stable (hr : PortRely t s s') (hm : s.synchronizeMutex = some t) (hp : s.Paused) {staged : Staged}
    (h : s.Spare staged) : s'.Spare staged := by
  have hc := hr.control hm
  unfold Shared.Spare at *
  grind -ring -linarith

theorem canReplace_stable (hr : PortRely t s s') (hm : s.synchronizeMutex = some t) (hp : s.Paused)
    (ports : List Nat) : s'.canReplacePortAdapters ports = s.canReplacePortAdapters ports := by
  have hc := hr.control hm
  unfold Shared.canReplacePortAdapters
  grind -ring -linarith

theorem syncPorts_stable {pc : SyncPc} (hr : PortRely t s s')
    (hm : s.synchronizeMutex = some t ↔ pc.holds = true) (hf : syncPorts s pc) : syncPorts s' pc := by
  by_cases hl : pc = .lock
  · subst hl; trivial
  have hown : s.synchronizeMutex = some t := by
    refine hm.mpr ?_
    cases pc
    all_goals simp_all [SyncPc.holds]
  have hc := hr.control hown
  have hrest := rest_stable hr hown
  have hpaused : s.Paused → s'.Paused := by
    unfold Shared.Paused at *
    grind -ring -linarith
  cases pc
  case mark pc entry | fail pc => exact ⟨hpaused hf.1, stalePorts_stable hr hown hf.2⟩
  case canReplace staged restore => exact ⟨hrest hf.1, hpaused hf.2.1, spare_stable hr hown hf.2.1 hf.2.2⟩
  case unready staged =>
    obtain ⟨h, hp, hs, hcan⟩ := hf
    exact ⟨hrest h, hpaused hp, spare_stable hr hown hp hs, by rw [canReplace_stable hr hown hp]; exact hcan⟩
  case install staged | replace staged =>
    obtain ⟨hp, hs, hcan⟩ := hf
    exact ⟨hpaused hp, spare_stable hr hown hp hs, by rw [canReplace_stable hr hown hp]; exact hcan⟩
  all_goals simp only [syncPorts] at hf ⊢
  all_goals grind -ring -linarith

theorem portFacts_stable {l : Pc} (hb : AccessFacts t l s) (hr : PortRely t s s') (hf : PortFacts t l s) :
    PortFacts t l s' := by
  cases l
  case sync pc creating => exact ⟨hf.1, syncPorts_stable hr hb.synchronizeMutex hf.2⟩
  case lifecycle pc =>
    refine ⟨hf.1, ?_⟩
    have hs := hb.synchronizeMutex
    simp only [Pc.holdsSynchronizeMutex] at hs
    cases pc
    case lock => trivial
    case mark pc => exact stalePorts_stable hr (by simpa [LifecyclePc.holds] using hs) hf.2
    all_goals exact rest_stable hr (by simpa [LifecyclePc.holds] using hs) hf.2
  case pump pc =>
    obtain ⟨ht, hf⟩ := hf
    have hp := hr.pump ht
    refine ⟨ht, ?_⟩
    cases pc
    all_goals simp only [pumpPorts] at hf ⊢
    all_goals grind -ring -linarith
  all_goals exact hf

end Stable

/-! ## Replacing the adapters -/

section Replace

variable {s : Shared}

theorem key_of_hasSameIdentity {x y : RemotePortAdapter} (h : x.hasSameIdentity y = true) : x.key = y.key := by
  simp only [RemotePortAdapter.hasSameIdentity, Bool.and_eq_true, decide_eq_true_eq] at h
  simp only [RemotePortAdapter.key, h.1.1.1, h.1.2]

theorem hasSameIdentity_congr {x y x' y' : RemotePortAdapter} (hx : x'.description = x.description)
    (hy : y'.description = y.description) : x'.hasSameIdentity y' = x.hasSameIdentity y := by
  simp only [RemotePortAdapter.hasSameIdentity, hx, hy]

theorem key_congr {x x' : RemotePortAdapter} (hx : x'.description = x.description) : x'.key = x.key := by
  simp only [RemotePortAdapter.key, hx]

/-- The new adapter that takes the samples of `x`. -/
def Shared.successor (s : Shared) (new : List Nat) (x : Nat) : Option Nat :=
  new.find? fun y => (s.adapter x).hasSameIdentity (s.adapter y)

/-- The old adapter whose samples `y` takes. -/
def Shared.predecessor (s : Shared) (old : List Nat) (y : Nat) : Option Nat :=
  old.find? fun x => (s.adapter x).hasSameIdentity (s.adapter y)

theorem transferPendingState_eq (x : Nat) (new : List Nat) :
    s.transferPendingState x new =
      match s.successor new x with
      | some y => { s with
          adapter := Function.update (Function.update s.adapter x ((s.adapter x).withPendingStateOf (s.adapter y)))
            y ((s.adapter y).withPendingStateOf (s.adapter x)) }
      | none => s := by
  induction new with
  | nil => rfl
  | cons y rest ih =>
      simp only [Shared.transferPendingState, Shared.successor, List.find?_cons]
      split
      · rename_i h
        simp [h]
      · rename_i h
        simp only [h]
        exact ih

/-- What the loop over the old adapters `xs` does to each adapter. -/
structure Transferred (r r' : Shared) (new xs : List Nat) : Prop where
  description : ∀ z, (r'.adapter z).description = (r.adapter z).description
  fresh : ∀ z ∈ new, r'.adapter z =
    (r.predecessor xs z).elim (r.adapter z) fun x => (r.adapter z).withPendingStateOf (r.adapter x)
  old : ∀ x ∈ xs, r'.adapter x =
    (r.successor new x).elim (r.adapter x) fun y => (r.adapter x).withPendingStateOf (r.adapter y)
  other : ∀ z, z ∉ new → z ∉ xs → r'.adapter z = r.adapter z

theorem foldl_transfer (new xs : List Nat) :
    ∀ r : Shared, (∀ x ∈ xs, x ∉ new) → (xs.map fun x => (r.adapter x).key).Nodup →
      (new.map fun y => (r.adapter y).key).Nodup →
      Transferred r (xs.foldl (fun r x => r.transferPendingState x new) r) new xs := by
  induction xs with
  | nil => exact fun r _ _ _ => ⟨fun _ => rfl, fun _ _ => rfl, nofun, fun _ _ _ => rfl⟩
  | cons x rest ih =>
      intro r hdisjoint hxs hnew
      obtain ⟨hxkey, hrestkeys⟩ := List.nodup_cons.1 hxs
      have hxrest : x ∉ rest := fun h => hxkey (List.mem_map_of_mem h)
      have hnewkey : ∀ y ∈ new, ∀ z ∈ new, (r.adapter y).key = (r.adapter z).key → y = z :=
        fun y hy z hz h => List.inj_on_of_nodup_map hnew hy hz h
      simp only [List.foldl_cons]
      cases hsucc : r.successor new x with
      | none =>
          have hfirst : r.transferPendingState x new = r := by rw [transferPendingState_eq, hsucc]
          have hno : ∀ y ∈ new, (r.adapter x).hasSameIdentity (r.adapter y) = false := by
            intro y hy
            simpa using List.find?_eq_none.1 hsucc y hy
          rw [hfirst]
          have h := ih r (fun z hz => hdisjoint z (List.mem_cons_of_mem _ hz)) hrestkeys hnew
          refine ⟨h.description, fun z hz => ?_, fun z hz => ?_, fun z hz hz' => ?_⟩
          · rw [h.fresh z hz]
            simp [Shared.predecessor, hno z hz]
          · rcases List.mem_cons.1 hz with rfl | hz
            · rw [h.other z (hdisjoint z (by simp)) hxrest, hsucc]
              rfl
            · exact h.old z hz
          · exact h.other z hz fun hmem => hz' (List.mem_cons_of_mem _ hmem)
      | some y =>
          have hy : y ∈ new := List.mem_of_find?_eq_some hsucc
          have hsame : (r.adapter x).hasSameIdentity (r.adapter y) = true := by
            simpa using List.find?_some hsucc
          have hxy : x ≠ y := fun h => hdisjoint x (by simp) (h ▸ hy)
          rw [transferPendingState_eq, hsucc]
          simp only
          generalize hr₁ : ({ r with
            adapter := Function.update (Function.update r.adapter x ((r.adapter x).withPendingStateOf (r.adapter y)))
              y ((r.adapter y).withPendingStateOf (r.adapter x)) } : Shared) = r₁
          have hax : r₁.adapter x = (r.adapter x).withPendingStateOf (r.adapter y) := by
            simp [← hr₁, hxy]
          have hay : r₁.adapter y = (r.adapter y).withPendingStateOf (r.adapter x) := by
            simp [← hr₁]
          have hother : ∀ z, z ≠ x → z ≠ y → r₁.adapter z = r.adapter z := by
            intro z hzx hzy
            simp [← hr₁, hzx, hzy]
          have hdesc : ∀ z, (r₁.adapter z).description = (r.adapter z).description := by
            intro z
            by_cases hzx : z = x
            · rw [hzx, hax]; rfl
            · by_cases hzy : z = y
              · rw [hzy, hay]; rfl
              · rw [hother z hzx hzy]
          have hkeys : ∀ l : List Nat, (l.map fun z => (r₁.adapter z).key) = l.map fun z => (r.adapter z).key :=
            fun l => List.map_congr_left fun z _ => key_congr (hdesc z)
          have h := ih r₁ (fun z hz => hdisjoint z (List.mem_cons_of_mem _ hz)) (by rw [hkeys]; exact hrestkeys)
            (by rw [hkeys]; exact hnew)
          have hpred : ∀ z, r₁.predecessor rest z = r.predecessor rest z := by
            intro z
            simp only [Shared.predecessor, hasSameIdentity_congr (hdesc _) (hdesc z)]
          have hsuccs : ∀ z, r₁.successor new z = r.successor new z := by
            intro z
            simp only [Shared.successor, hasSameIdentity_congr (hdesc z) (hdesc _)]
          refine ⟨fun z => (h.description z).trans (hdesc z), fun z hz => ?_, fun z hz => ?_, fun z hz hz' => ?_⟩
          · rw [h.fresh z hz, hpred]
            by_cases hzy : z = y
            · subst hzy
              -- no later adapter has the identity of `x`
              have hnone : r.predecessor rest z = none := by
                refine List.find?_eq_none.2 fun x' hx' hid => hxkey ?_
                have hkey := (key_of_hasSameIdentity hsame).trans (key_of_hasSameIdentity hid).symm
                exact List.mem_map.2 ⟨x', hx', hkey.symm⟩
              rw [hnone]
              simp [Shared.predecessor, hsame, hay]
            · have hnot : (r.adapter x).hasSameIdentity (r.adapter z) = false := by
                rw [Bool.eq_false_iff]
                intro hid
                exact hzy (hnewkey z hz y hy
                  ((key_of_hasSameIdentity hid).symm.trans (key_of_hasSameIdentity hsame)))
              have hzx : z ≠ x := fun heq => hdisjoint x (by simp) (heq ▸ hz)
              have hcons : r.predecessor (x :: rest) z = r.predecessor rest z := by
                simp [Shared.predecessor, hnot]
              rw [hcons, hother z hzx hzy]
              cases hp : r.predecessor rest z with
              | none => rfl
              | some x' =>
                  have hx' : x' ∈ rest := List.mem_of_find?_eq_some hp
                  have hx'x : x' ≠ x := fun heq => hxrest (heq ▸ hx')
                  have hx'y : x' ≠ y := fun heq => hdisjoint x' (List.mem_cons_of_mem _ hx') (heq ▸ hy)
                  simp only [Option.elim_some, hother x' hx'x hx'y]
          · rcases List.mem_cons.1 hz with rfl | hz
            · rw [h.other z (hdisjoint z (by simp)) hxrest, hax, hsucc]
              rfl
            · have hzx : z ≠ x := fun heq => hxrest (heq ▸ hz)
              have hzy : z ≠ y := fun heq => hdisjoint z (List.mem_cons_of_mem _ hz) (heq ▸ hy)
              rw [h.old z hz, hsuccs, hother z hzx hzy]
              cases hs : r.successor new z with
              | none => rfl
              | some y' =>
                  have hid : (r.adapter z).hasSameIdentity (r.adapter y') = true := by
                    simpa using List.find?_some hs
                  have hy'y : y' ≠ y := by
                    rintro rfl
                    have hkey := (key_of_hasSameIdentity hid).trans (key_of_hasSameIdentity hsame).symm
                    exact hxkey (List.mem_map.2 ⟨z, hz, hkey⟩)
                  have hy'x : y' ≠ x := fun heq => hdisjoint x (by simp) (heq ▸ List.mem_of_find?_eq_some hs)
                  simp only [Option.elim_some, hother y' hy'x hy'y]
          · have hzx : z ≠ x := fun heq => hz' (heq ▸ List.mem_cons_self)
            have hzy : z ≠ y := fun heq => hz (heq ▸ hy)
            rw [h.other z hz fun hmem => hz' (List.mem_cons_of_mem _ hmem), hother z hzx hzy]

theorem replace_transferred {new : List Nat} (hdisjoint : ∀ y ∈ new, y ∉ s.portAdapters)
    (hold : (s.portAdapters.map fun x => (s.adapter x).key).Nodup)
    (hnew : (new.map fun y => (s.adapter y).key).Nodup) :
    Transferred s (s.replacePortAdapters new) new s.portAdapters :=
  let h := foldl_transfer new s.portAdapters s (fun x hx hy => hdisjoint x hy hx) hold hnew
  ⟨h.description, h.fresh, h.old, h.other⟩

end Replace

/-! ## Actions that leave the ports alone -/

@[grind cases]
structure SamePorts (s s' : Shared) : Prop where
  synchronizeMutex : s'.synchronizeMutex = s.synchronizeMutex
  interfaceReady : s'.interfaceReady = s.interfaceReady
  interfaceStale : s'.interfaceStale = s.interfaceStale
  portAdapters : s'.portAdapters = s.portAdapters
  nextAdapter : s'.nextAdapter = s.nextAdapter
  adapter : s'.adapter = s.adapter
  portsPaused : s'.portsPaused = s.portsPaused
  portsPumping : s'.portsPumping = s.portsPumping

section Same

variable {t : Thread} {a : Choice} {s s' : Shared}

theorem SamePorts.refl (s : Shared) : SamePorts s s := ⟨rfl, rfl, rfl, rfl, rfl, rfl, rfl, rfl⟩

theorem SamePorts.rest (e : SamePorts s s') (h : s.Rest) : s'.Rest := by
  unfold Shared.Rest Shared.NoPending Shared.Paused at *
  grind -ring -linarith

theorem SamePorts.inv (e : SamePorts s s') (h : PortInv s) : PortInv s' := by
  obtain ⟨hknown, hunused, hkeys, hsingle, hrest⟩ := h
  refine ⟨by grind -ring -linarith, by grind -ring -linarith, ?_, fun x => ?_, fun hm => e.rest (hrest (e.synchronizeMutex ▸ hm))⟩
  · rw [e.portAdapters, e.adapter]
    exact hkeys
  · rw [e.adapter]
    exact hsingle x

theorem SamePorts.rely (e : SamePorts s s') (u : Thread) : PortRely u s s' := by
  constructor
  all_goals grind -ring -linarith

theorem PortRely.trans {s₁ : Shared} {u : Thread} (h : PortRely u s s₁) (h' : PortRely u s₁ s')
    (hm : s₁.synchronizeMutex = s.synchronizeMutex) (hu : u ≠ .pump) : PortRely u s s' := by
  refine ⟨fun hown => ?_, fun hpump => absurd hpump hu⟩
  have h₁ := h.control hown
  have h₂ := h'.control (hm.trans hown)
  unfold Shared.Paused at *
  grind -ring -linarith

theorem SamePorts.of_request {k : Request} {pc : RequestPc} {r : RequestPc ⊕ Answer}
    (h : requestAction t k a s pc = some (s', r)) : SamePorts s s' := by
  replace h := requestAction_step h
  cases h
  all_goals exact ⟨rfl, rfl, rfl, rfl, rfl, rfl, rfl, rfl⟩

theorem SamePorts.of_connect {pc : ConnectPc} {r : ConnectPc ⊕ Bool}
    (h : connectAction t a s pc = some (s', r)) : SamePorts s s' := by
  replace h := connectAction_step h
  cases h
  all_goals exact ⟨rfl, rfl, rfl, rfl, rfl, rfl, rfl, rfl⟩

theorem SamePorts.of_discover {pc : DiscoverPc} {r : DiscoverPc ⊕ Bool}
    (h : discoverAction t a s pc = some (s', r)) : SamePorts s s' := by
  replace h := discoverAction_step h
  cases h
  all_goals exact ⟨rfl, rfl, rfl, rfl, rfl, rfl, rfl, rfl⟩

end Same

/-! ## Actions of a control call -/

/-- Adapters may have come or changed, and nothing else has. -/
structure SameButAdapters (s s' : Shared) : Prop where
  synchronizeMutex : s'.synchronizeMutex = s.synchronizeMutex
  interfaceReady : s'.interfaceReady = s.interfaceReady
  interfaceStale : s'.interfaceStale = s.interfaceStale
  mirror : s'.mirror = s.mirror
  portsPaused : s'.portsPaused = s.portsPaused
  portsPumping : s'.portsPumping = s.portsPumping
  nextSample : s'.nextSample = s.nextSample

theorem SameButAdapters.refl (s : Shared) : SameButAdapters s s := ⟨rfl, rfl, rfl, rfl, rfl, rfl, rfl⟩

theorem SameButAdapters.trans {s s₁ s' : Shared} (e : SameButAdapters s s₁) (e' : SameButAdapters s₁ s') :
    SameButAdapters s s' :=
  ⟨e'.1.trans e.1, e'.2.trans e.2, e'.3.trans e.3, e'.4.trans e.4, e'.5.trans e.5, e'.6.trans e.6, e'.7.trans e.7⟩

/-- The loop over the old adapters. -/
theorem foldl_same (new xs : List Nat) : ∀ r : Shared,
    SameButAdapters r (xs.foldl (fun r x => r.transferPendingState x new) r) ∧
      (xs.foldl (fun r x => r.transferPendingState x new) r).nextAdapter = r.nextAdapter := by
  induction xs with
  | nil => exact fun r => ⟨.refl r, rfl⟩
  | cons x rest ih =>
      intro r
      have hone : SameButAdapters r (r.transferPendingState x new) ∧
          (r.transferPendingState x new).nextAdapter = r.nextAdapter := by
        rw [transferPendingState_eq]
        split
        · exact ⟨⟨rfl, rfl, rfl, rfl, rfl, rfl, rfl⟩, rfl⟩
        · exact ⟨.refl r, rfl⟩
      exact ⟨hone.1.trans (ih _).1, (ih _).2.trans hone.2⟩

theorem replacePortAdapters_same (new : List Nat) (s : Shared) : SameButAdapters s (s.replacePortAdapters new) ∧
    (s.replacePortAdapters new).nextAdapter = s.nextAdapter :=
  let h := foldl_same new s.portAdapters s
  ⟨⟨h.1.1, h.1.2, h.1.3, h.1.4, h.1.5, h.1.6, h.1.7⟩, h.2⟩

section Control

variable {t : Thread} {a : Choice} {s s' : Shared}

theorem single_discard {x : RemotePortAdapter} : x.discardPendingState.Single := by
  cases hx : x.description.direction <;>
    simp [RemotePortAdapter.Single, RemotePortAdapter.discardPendingState, hx]

theorem hasPendingState_discard (x : RemotePortAdapter) : x.discardPendingState.hasPendingState = false := rfl

/-- Discarding the samples of one adapter while the pump is paused. -/
theorem discard_step (hi : PortInv s) (hm : s.synchronizeMutex = some t) (hp : s.Paused) (x : Nat) :
    PortInv (s.modifyAdapter x RemotePortAdapter.discardPendingState) ∧
      ∀ u, u ≠ t → PortRely u s (s.modifyAdapter x RemotePortAdapter.discardPendingState) := by
  have hdesc : ∀ z, ((s.modifyAdapter x RemotePortAdapter.discardPendingState).adapter z).description =
      (s.adapter z).description := by
    intro z
    by_cases hz : z = x
    · simp [Shared.modifyAdapter, hz, RemotePortAdapter.discardPendingState]
    · simp [Shared.modifyAdapter, hz]
  refine ⟨⟨hi.known, fun z hz => ?_, ?_, fun z => ?_, fun hfree => ?_⟩, fun u hu => ⟨?_, ?_⟩⟩
  · by_cases hzx : z = x
    · simp [Shared.modifyAdapter, hzx, hasPendingState_discard]
    · simpa [Shared.modifyAdapter, hzx] using hi.unused z hz
  · have hkeys := hi.keys
    simp only [key_congr (hdesc _)]
    exact hkeys
  · by_cases hzx : z = x
    · simpa [Shared.modifyAdapter, hzx] using single_discard
    · simpa [Shared.modifyAdapter, hzx] using hi.single z
  · simp only [Shared.modifyAdapter, hm, reduceCtorEq] at hfree
  · intro hu'
    rw [hm] at hu'
    exact absurd (Option.some.inj hu').symm hu
  · intro _
    refine ⟨rfl, fun hpump => ?_⟩
    rw [hp.2] at hpump
    cases hpump

/-- `markInterfaceStale` ends with the pump paused and no sample pending. -/
theorem stale_ports {pc : StalePc} {r : Option StalePc} (hi : PortInv s) (hm : s.synchronizeMutex = some t)
    (hf : stalePorts s pc) (hk : pc = .adapters → a ≠ .raise) (h : staleAction a s pc = some (s', r)) :
    PortInv s' ∧ r.elim (s'.Paused ∧ s'.NoPending) (stalePorts s') ∧ (s.Paused → s'.Paused) ∧
      ∀ u, u ≠ t → PortRely u s s' := by
  replace h := staleAction_step h
  cases h
  case discarded =>
    obtain ⟨hp, hdone⟩ := hf
    have e : SamePorts s { s with invalidated := true } := ⟨rfl, rfl, rfl, rfl, rfl, rfl, rfl, rfl⟩
    exact ⟨e.inv hi, ⟨hp, fun x hx => hdone x hx (by simp)⟩, fun h => h, fun u _ => e.rely u⟩
  case discard x rest =>
    obtain ⟨hp, hdone⟩ := hf
    obtain ⟨hi', hr⟩ := discard_step hi hm hp x
    refine ⟨hi', ⟨hp, fun z hz hz' => ?_⟩, fun h => h, hr⟩
    by_cases hzx : z = x
    · simp [Shared.modifyAdapter, hzx, hasPendingState_discard]
    · simpa [Shared.modifyAdapter, hzx] using hdone z hz (by simp [hzx, hz'])
  case throws hraise => exact absurd hraise (hk rfl)
  case adapters =>
    exact ⟨hi, ⟨hf, fun x hx hnot => absurd hx hnot⟩, fun h => h, fun u _ => (SamePorts.refl s).rely u⟩
  all_goals simp only [stalePorts, Option.elim_some] at hf ⊢
  all_goals obtain ⟨hknown, hunused, hkeys, hsingle, hrest⟩ := hi
  all_goals refine ⟨⟨hknown, hunused, hkeys, hsingle, ?_⟩, ?_, ?_, fun u hu => ⟨?_, ?_⟩⟩
  all_goals grind -ring -linarith

theorem stagePorts_spec (ports : List PortDescription) :
    ∀ s : Shared, (s.stagePorts ports).nextAdapter = s.nextAdapter + ports.length ∧
      (s.stagePorts ports).portAdapters = s.portAdapters ∧
      (∀ x, x < s.nextAdapter → (s.stagePorts ports).adapter x = s.adapter x) ∧
      (∀ x, x ≥ s.nextAdapter + ports.length → (s.stagePorts ports).adapter x = s.adapter x) ∧
      (∀ i d, ports[i]? = some d → (s.stagePorts ports).adapter (s.nextAdapter + i) = { description := d }) ∧
      SameButAdapters s (s.stagePorts ports) := by
  induction ports with
  | nil => exact fun s => ⟨rfl, rfl, fun _ _ => rfl, fun _ _ => rfl, by simp, .refl s⟩
  | cons d rest ih =>
      intro s
      obtain ⟨hnext, hports, hbelow, habove, hnew, hsame⟩ := ih (s.stagePort d)
      have hcons : s.stagePorts (d :: rest) = (s.stagePort d).stagePorts rest := rfl
      have hone : (s.stagePort d).nextAdapter = s.nextAdapter + 1 := rfl
      rw [hcons]
      refine ⟨?_, hports, fun x hx => ?_, fun x hx => ?_, fun i d' hd' => ?_, ?_⟩
      · rw [hnext, hone, List.length_cons]
        omega
      · rw [hbelow x (by omega)]
        simp [Shared.stagePort, Nat.ne_of_lt hx]
      · simp only [List.length_cons] at hx
        rw [habove x (by omega)]
        have hne : x ≠ s.nextAdapter := by omega
        simp [Shared.stagePort, hne]
      · cases i with
        | zero =>
            simp only [List.getElem?_cons_zero, Option.some.injEq] at hd'
            rw [Nat.add_zero, hbelow s.nextAdapter (by omega), hd']
            simp [Shared.stagePort]
        | succ i =>
            have hnext' := hnew i d' (by simpa using hd')
            rw [hone] at hnext'
            rw [← hnext']
            congr 1
            omega
      · exact ⟨hsame.1, hsame.2, hsame.3, hsame.4, hsame.5, hsame.6, hsame.7⟩

/-- Discovered ports get adapters of their own. -/
theorem stage_ports (hi : PortInv s) (hm : s.synchronizeMutex = some t) (hp : s.Paused) (hr : s.Rest)
    {ports : List PortDescription} (hports : (ports.map fun d => (d.servicePath, d.name)).Nodup) :
    let s' : Shared := { s.stagePorts ports with nextMirror := s.nextMirror + 1 }
    let staged : Staged := ⟨s.nextMirror, (List.range ports.length).map (s.nextAdapter + ·)⟩
    PortInv s' ∧ s'.Rest ∧ s'.Paused ∧ s'.Spare staged ∧ ∀ u, u ≠ t → PortRely u s s' := by
  intro s' staged
  obtain ⟨hnext, hadapters, hbelow, habove, hnew, hmutex, hready, hstale, -, hpaused, hpumping, -⟩ := stagePorts_spec ports s
  have hold : ∀ x ∈ s.portAdapters, s'.adapter x = s.adapter x := fun x hx => hbelow x (hi.known x hx)
  have hfresh : ∀ i, (hlt : i < ports.length) → s'.adapter (s.nextAdapter + i) = { description := ports[i] } :=
    fun i hlt => hnew i _ (List.getElem?_eq_getElem hlt)
  have hcase : ∀ x, x < s.nextAdapter ∨ s.nextAdapter + ports.length ≤ x ∨
      ∃ i, i < ports.length ∧ x = s.nextAdapter + i := by
    intro x
    by_cases hx : x < s.nextAdapter
    · exact .inl hx
    · by_cases hx' : s.nextAdapter + ports.length ≤ x
      · exact .inr (.inl hx')
      · exact .inr (.inr ⟨x - s.nextAdapter, by omega, by omega⟩)
  have hmap : (staged.ports.map fun y => (s'.adapter y).key) = ports.map fun d => (d.servicePath, d.name) := by
    refine List.ext_getElem (by simp [staged]) fun i hi₁ hi₂ => ?_
    have hlt : i < ports.length := by simpa using hi₂
    simp only [staged, List.map_map, List.getElem_map, List.getElem_range, Function.comp_apply, hfresh i hlt,
      RemotePortAdapter.key]
  refine ⟨⟨fun x hx => ?_, fun x hx => ?_, ?_, fun x => ?_, fun hfree => ?_⟩, ⟨fun hs => ⟨⟨?_, ?_⟩, ?_⟩, fun hs => ?_⟩,
    ⟨?_, ?_⟩, ⟨fun y hy => ?_, ?_⟩, fun u hu => ⟨fun hu' => ?_, fun _ => ⟨hpumping, fun hpump => ?_⟩⟩⟩
  · have := hi.known x (hadapters ▸ hx)
    have hlen : s'.nextAdapter = s.nextAdapter + ports.length := hnext
    omega
  · have hx' : x ∉ s.portAdapters := hadapters ▸ hx
    rcases hcase x with hlt | hge | ⟨i, hlt, rfl⟩
    · rw [hbelow x hlt]
      exact hi.unused x hx'
    · rw [habove x hge]
      exact hi.unused x hx'
    · rw [hfresh i hlt]
      rfl
  · rw [show s'.portAdapters = s.portAdapters from hadapters,
      List.map_congr_left fun x hx => congrArg RemotePortAdapter.key (hold x hx)]
    exact hi.keys
  · rcases hcase x with hlt | hge | ⟨i, hlt, rfl⟩
    · rw [hbelow x hlt]
      exact hi.single x
    · rw [habove x hge]
      exact hi.single x
    · rw [hfresh i hlt]
      cases hd : ports[i].direction <;> simp [RemotePortAdapter.Single, hd]
  · rw [show s'.synchronizeMutex = s.synchronizeMutex from hmutex, hm] at hfree
    cases hfree
  · exact hpaused.trans hp.1
  · exact hpumping.trans hp.2
  · intro x hx
    have hx' : x ∈ s.portAdapters := hadapters ▸ hx
    rw [hold x hx']
    exact (hr.1 (hstale ▸ hs)).2 x hx'
  · rw [show s'.interfaceStale = s.interfaceStale from hstale, show s'.portAdapters = s.portAdapters from hadapters]
    exact hr.2 (hready ▸ hs)
  · exact hpaused.trans hp.1
  · exact hpumping.trans hp.2
  · obtain ⟨i, hlt, rfl⟩ := by simpa [staged] using hy
    have hlen : s'.nextAdapter = s.nextAdapter + ports.length := hnext
    refine ⟨by omega, fun hmem => ?_⟩
    have := hi.known _ (hadapters ▸ hmem)
    omega
  · rw [hmap]
    exact hports
  · rw [hm] at hu'
    exact absurd (Option.some.inj hu').symm hu
  · rw [hp.2] at hpump
    cases hpump

/-- The new adapters have the samples of the old ones. -/
theorem replace_ports (hi : PortInv s) (hm : s.synchronizeMutex = some t) (hp : s.Paused) {staged : Staged}
    (hs : s.Spare staged) (hcan : s.canReplacePortAdapters staged.ports = true) :
    PortInv (s.replacePortAdapters staged.ports) ∧ (s.replacePortAdapters staged.ports).Paused ∧
      ∀ u, u ≠ t → PortRely u s (s.replacePortAdapters staged.ports) := by
  have h := replace_transferred (fun y hy => (hs.1 y hy).2) hi.keys hs.2
  obtain ⟨⟨hmutex, hready, -, -, hpaused, hpumping, -⟩, hnext⟩ := replacePortAdapters_same staged.ports s
  have hunusedNew : ∀ y ∈ staged.ports, (s.adapter y).hasPendingState = false := fun y hy => hi.unused y (hs.1 y hy).2
  refine ⟨⟨fun y hy => ?_, fun x hx => ?_, ?_, fun x => ?_, fun hfree => ?_⟩, ⟨hpaused.trans hp.1, hpumping.trans hp.2⟩,
    fun u hu => ⟨fun hu' => ?_, fun _ => ⟨hpumping, fun hpump => ?_⟩⟩⟩
  · exact lt_of_lt_of_eq (hs.1 y hy).1 hnext.symm
  · by_cases hold : x ∈ s.portAdapters
    · rw [h.old x hold]
      cases hsucc : s.successor staged.ports x with
      | none =>
          -- an adapter without a successor had nothing pending
          have hx' := (List.all_eq_true.1 hcan) x hold
          simp only [Bool.or_eq_true, Bool.not_eq_eq_eq_not, Bool.not_true, List.any_eq_true] at hx'
          rcases hx' with hno | ⟨y, hy, hid⟩
          · exact hno
          · exact absurd hid (by simpa using List.find?_eq_none.1 hsucc y hy)
      | some y => exact hunusedNew y (List.mem_of_find?_eq_some hsucc)
    · rw [h.other x hx hold]
      exact hi.unused x hold
  · simp only [key_congr (h.description _)]
    exact hs.2
  · by_cases hnew : x ∈ staged.ports
    · rw [h.fresh x hnew]
      cases hpred : s.predecessor s.portAdapters x with
      | none => exact hi.single x
      | some z =>
          have hid : (s.adapter z).hasSameIdentity (s.adapter x) = true := by simpa using List.find?_some hpred
          have hdir : (s.adapter z).description.direction = (s.adapter x).description.direction := by
            simp only [RemotePortAdapter.hasSameIdentity, Bool.and_eq_true, decide_eq_true_eq] at hid
            exact hid.2
          have hz := hi.single z
          unfold RemotePortAdapter.Single at hz ⊢
          simpa [RemotePortAdapter.withPendingStateOf, hdir] using hz
    · by_cases hold : x ∈ s.portAdapters
      · rw [h.old x hold]
        cases hsucc : s.successor staged.ports x with
        | none => exact hi.single x
        | some y =>
            have hno := hunusedNew y (List.mem_of_find?_eq_some hsucc)
            simp only [RemotePortAdapter.hasPendingState, Bool.or_eq_false_iff, Option.isSome_eq_false_iff,
              Option.isNone_iff_eq_none] at hno
            cases hd : (s.adapter x).description.direction <;>
              simp [RemotePortAdapter.Single, RemotePortAdapter.withPendingStateOf, hd, hno]
      · rw [h.other x hnew hold]
        exact hi.single x
  · rw [show (s.replacePortAdapters staged.ports).synchronizeMutex = s.synchronizeMutex from hmutex, hm] at hfree
    cases hfree
  · rw [hm] at hu'
    exact absurd (Option.some.inj hu').symm hu
  · rw [hp.2] at hpump
    cases hpump

theorem sync_ports {pc pc' : SyncPc} (hb : AccessInv s) (hbf : syncFacts s pc) (hi : PortInv s)
    (hm : s.synchronizeMutex = some t ↔ pc.holds = true) (hf : syncPorts s pc)
    (hk : ∀ spc, (pc = .fail spc ∨ ∃ entry, pc = .mark spc entry) → spc = .adapters → a ≠ .raise)
    (h : syncAction t a s pc = some (s', .inl pc')) :
    PortInv s' ∧ syncPorts s' pc' ∧ ∀ u, u ≠ t → PortRely u s s' := by
  replace h := syncAction_step h
  cases h
  case mark pc entry r hp =>
    have hown : s.synchronizeMutex = some t := hm.mpr rfl
    obtain ⟨hi', hf', hp', hr⟩ := stale_ports hi hown hf.2 (hk pc (.inr ⟨entry, rfl⟩)) hp
    simp only [syncFacts] at hbf
    have hstale := (stale_step hb hown hbf.2.2 hp).2.1
    cases r
    · simp only [Option.elim_none] at hf' hstale ⊢
      exact ⟨hi', ⟨⟨fun _ => hf', fun _ => .inl hstale.1⟩, hf'.1⟩, hr⟩
    · exact ⟨hi', ⟨hp' hf.1, hf'⟩, hr⟩
  case fail pc r hp =>
    have hown : s.synchronizeMutex = some t := hm.mpr rfl
    obtain ⟨hi', hf', hp', hr⟩ := stale_ports hi hown hf.2 (hk pc (.inl rfl)) hp
    simp only [syncFacts] at hbf
    have hstale := (stale_step hb hown hbf.2 hp).2.1
    cases r
    · simp only [Option.elim_none] at hf' hstale ⊢
      exact ⟨hi', ⟨⟨fun _ => hf', fun _ => .inl hstale.1⟩, hf'.1⟩, hr⟩
    · exact ⟨hi', ⟨hp' hf.1, hf'⟩, hr⟩
  case connect pc restore r hp =>
    have e := SamePorts.of_connect hp
    have hpaused : s'.Paused := ⟨e.portsPaused.trans hf.2.1, e.portsPumping.trans hf.2.2⟩
    refine ⟨e.inv hi, ?_, fun u _ => e.rely u⟩
    obtain pc' | ok := r
    · exact ⟨e.rest hf.1, hpaused⟩
    · cases ok
      · exact ⟨hpaused, trivial⟩
      · exact ⟨e.rest hf.1, hpaused⟩
  case discover pc restore r hp =>
    have e := SamePorts.of_discover hp
    have hpaused : s'.Paused := ⟨e.portsPaused.trans hf.2.1, e.portsPumping.trans hf.2.2⟩
    refine ⟨e.inv hi, ?_, fun u _ => e.rely u⟩
    obtain pc' | ok := r
    · exact ⟨e.rest hf.1, hpaused⟩
    · cases ok
      · exact ⟨hpaused, trivial⟩
      · exact ⟨e.rest hf.1, hpaused⟩
  case staged restore ports ha hports =>
    obtain ⟨hi', hrest, hpaused, hspare, hr⟩ := stage_ports hi (hm.mpr rfl) hf.2 hf.1 hports
    exact ⟨hi', ⟨hrest, hpaused, hspare⟩, hr⟩
  case stage => exact ⟨hi, ⟨hf.1, hf.2⟩, fun u _ => (SamePorts.refl s).rely u⟩
  case duplicate | stageFails => exact ⟨hi, ⟨hf.2, trivial⟩, fun u _ => (SamePorts.refl s).rely u⟩
  case replace staged => exact replace_ports hi (hm.mpr rfl) hf.1 hf.2.1 hf.2.2
  all_goals obtain ⟨hknown, hunused, hkeys, hsingle, hrest⟩ := hi
  all_goals simp only [syncPorts, stalePorts, syncFacts, SyncPc.holds] at hf hbf hm ⊢
  all_goals refine ⟨⟨hknown, hunused, hkeys, hsingle, ?_⟩, ?_, fun u hu => ⟨?_, ?_⟩⟩
  all_goals simp only [Shared.Rest, Shared.NoPending, Shared.Spare, Shared.Paused, Shared.canReplacePortAdapters] at *
  all_goals grind -ring -linarith

theorem lifecycle_ports {pc : LifecyclePc} {r : Option LifecyclePc} (hb : AccessInv s) (hbf : lifecycleFacts s pc)
    (hi : PortInv s) (hm : s.synchronizeMutex = some t ↔ pc.holds = true) (hf : lifecyclePorts s pc)
    (hk : ∀ spc, pc = .mark spc → spc = .adapters → a ≠ .raise) (h : lifecycleAction t a s pc = some (s', r)) :
    PortInv s' ∧ r.elim True (lifecyclePorts s') ∧ ∀ u, u ≠ t → PortRely u s s' := by
  replace h := lifecycleAction_step h
  cases h
  case call pc r hp =>
    have e := SamePorts.of_request hp
    refine ⟨e.inv hi, ?_, fun u _ => e.rely u⟩
    obtain pc' | answer := r
    · exact e.rest hf
    · simp only [Sum.elim_inr, Option.elim_some]
      split
      · exact e.rest hf
      · trivial
  case mark pc r hp =>
    have hown : s.synchronizeMutex = some t := hm.mpr rfl
    obtain ⟨hi', hf', hp', hr⟩ := stale_ports hi hown hf (hk pc rfl) hp
    have hstale := (stale_step hb hown hbf hp).2.1
    cases r
    · simp only [Option.elim_none, Option.elim_some] at hf' hstale ⊢
      exact ⟨hi', ⟨fun _ => hf', fun _ => .inl hstale.1⟩, hr⟩
    · exact ⟨hi', hf', hr⟩
  all_goals simp only [Option.elim_none, Option.elim_some]
  all_goals obtain ⟨hknown, hunused, hkeys, hsingle, hrest⟩ := hi
  all_goals simp only [lifecyclePorts, stalePorts, LifecyclePc.holds] at hf hm ⊢
  all_goals refine ⟨⟨hknown, hunused, hkeys, hsingle, ?_⟩, ?_, fun u hu => ⟨?_, ?_⟩⟩
  all_goals simp only [Shared.Rest, Shared.NoPending, Shared.Paused] at *
  all_goals grind -ring -linarith

end Control

/-! ## The port pump -/

section Pump

variable {a : Choice} {s s' : Shared}

/-- A change of one adapter in use, while the pump is in its pass. -/
theorem modify_ports (hi : PortInv s) (hpump : s.portsPumping = true) {x : Nat} (hx : x ∈ s.portAdapters) (n : Nat)
    {f : RemotePortAdapter → RemotePortAdapter} (hs' : s' = { s with nextSample := n }.modifyAdapter x f)
    (hdesc : (f (s.adapter x)).description = (s.adapter x).description) (hsingle : (f (s.adapter x)).Single) :
    PortInv s' ∧ ∀ u, u ≠ .pump → PortRely u s s' := by
  subst hs'
  have hdesc' : ∀ z, (({ s with nextSample := n }.modifyAdapter x f).adapter z).description =
      (s.adapter z).description := by
    intro z
    by_cases hz : z = x
    · simp [Shared.modifyAdapter, hz, hdesc]
    · simp [Shared.modifyAdapter, hz]
  refine ⟨⟨hi.known, fun z hz => ?_, ?_, fun z => ?_, fun hfree => ⟨fun hs => ?_, (hi.rest hfree).2⟩⟩,
    fun u hu => ⟨fun hu' => ⟨rfl, rfl, rfl, rfl, rfl, fun hp => ?_⟩, fun hu' => absurd hu' hu⟩⟩
  · have hzx : z ≠ x := fun h => hz (h ▸ hx)
    simpa [Shared.modifyAdapter, hzx] using hi.unused z hz
  · simp only [key_congr (hdesc' _)]
    exact hi.keys
  · by_cases hzx : z = x
    · simpa [Shared.modifyAdapter, hzx] using hsingle
    · simpa [Shared.modifyAdapter, hzx] using hi.single z
  · have hp := ((hi.rest hfree).1 hs).1.2
    rw [hpump] at hp
    cases hp
  · rw [hp.2] at hpump
    cases hpump

theorem adapter_ports {pc : AdapterPc} {r : Option AdapterPc} {x : Nat} (hi : PortInv s)
    (hpump : s.portsPumping = true) (hx : x ∈ s.portAdapters) (hf : adapterPorts (s.adapter x) pc)
    (h : adapterAction .pump a s x pc = some (s', r)) :
    PortInv s' ∧ s'.portsPumping = true ∧ s'.portAdapters = s.portAdapters ∧
      r.elim True (adapterPorts (s'.adapter x)) ∧ ∀ u, u ≠ .pump → PortRely u s s' := by
  have hx' := hi.single x
  replace h := adapterAction_step h
  cases h
  case write pc pc' hp | read pc pc' hp =>
    have e := SamePorts.of_request hp
    refine ⟨e.inv hi, e.portsPumping.trans hpump, e.portAdapters, ?_, fun u _ => e.rely u⟩
    simp only [Option.elim_some, e.adapter]
    exact hf
  case written pc s₁ hp =>
    have e := SamePorts.of_request hp
    have hsingle : ({ s.adapter x with pendingInput := none } : RemotePortAdapter).Single := by
      simp only [RemotePortAdapter.Single, hf.1] at hx' ⊢
      exact ⟨hx'.1, .inr trivial⟩
    have hstep := modify_ports (e.inv hi) (e.portsPumping.trans hpump) (e.portAdapters ▸ hx) s₁.nextSample
      (f := fun k => { k with pendingInput := none }) rfl rfl (e.adapter ▸ hsingle)
    refine ⟨hstep.1, e.portsPumping.trans hpump, e.portAdapters, trivial, fun u hu => ?_⟩
    exact (e.rely u).trans (hstep.2 u hu) e.synchronizeMutex hu
  case notWritten pc answer hanswer hp | notRead pc answer hanswer hp =>
    have e := SamePorts.of_request hp
    exact ⟨e.inv hi, e.portsPumping.trans hpump, e.portAdapters, trivial, fun u _ => e.rely u⟩
  case wasRead pc hp =>
    have e := SamePorts.of_request hp
    refine ⟨e.inv hi, e.portsPumping.trans hpump, e.portAdapters, ?_, fun u _ => e.rely u⟩
    simp only [Option.elim_some, e.adapter]
    exact hf
  all_goals simp only [adapterPorts, RemotePortAdapter.Single] at hf hx'
  all_goals first
    | refine ⟨hi, hpump, rfl, ?_, fun u _ => (SamePorts.refl s).rely u⟩
    | refine ⟨(modify_ports hi hpump hx s.nextSample rfl rfl ?_).1, hpump, rfl, ?_,
        (modify_ports hi hpump hx s.nextSample rfl rfl ?_).2⟩
    | refine ⟨(modify_ports hi hpump hx (s.nextSample + 1) rfl rfl ?_).1, hpump, rfl, ?_,
        (modify_ports hi hpump hx (s.nextSample + 1) rfl rfl ?_).2⟩
  all_goals simp only [Option.elim_none, Option.elim_some, adapterPorts, RemotePortAdapter.Single,
    Shared.modifyAdapter, Function.update_self]
  all_goals simp_all

theorem pump_ports {pc pc' : PumpPc} (hi : PortInv s) (hf : pumpPorts s pc)
    (h : pumpAction .pump a s pc = some (s', pc')) :
    PortInv s' ∧ pumpPorts s' pc' ∧ ∀ u, u ≠ .pump → PortRely u s s' := by
  replace h := pumpAction_step h
  cases h
  case pump pc x rest r hp =>
    obtain ⟨hpump, hmem, hx⟩ := hf
    obtain ⟨hi', hpump', hports, hx', hr⟩ := adapter_ports hi hpump (hmem x (by simp)) hx hp
    refine ⟨hi', ?_, hr⟩
    cases r
    · exact ⟨hpump', fun y hy => hports ▸ hmem y (List.mem_cons_of_mem _ hy)⟩
    · exact ⟨hpump', fun y hy => hports ▸ hmem y hy, hx'⟩
  all_goals obtain ⟨hknown, hunused, hkeys, hsingle, hrest⟩ := hi
  all_goals refine ⟨⟨hknown, hunused, hkeys, hsingle, ?_⟩, ?_, fun u hu => ⟨?_, ?_⟩⟩
  all_goals simp only [pumpPorts, RemotePortAdapter.pump] at hf ⊢
  all_goals simp only [Shared.Rest, Shared.NoPending, Shared.Paused] at *
  all_goals grind -ring -linarith [adapterPorts]

end Pump

/-! ## The outline -/

theorem port_step {t : Thread} {a : Choice} {s s' : Shared} {l l' : Pc} (hb : AccessInv s) (hbf : AccessFacts t l s)
    (hi : PortInv s) (hf : PortFacts t l s) (hk : Copies t a l) (h : threadAction t a s l = some (s', l')) :
    PortInv s' ∧ PortFacts t l' s' ∧ ∀ u, u ≠ t → PortRely u s s' := by
  obtain ⟨hm, hs, hp⟩ := hbf
  cases threadStep h
  case enterSync hc | enterLifecycle hc | enterRequest hc =>
    exact ⟨hi, by first | exact ⟨hf, trivial⟩ | exact hf, fun u _ => (SamePorts.refl s).rely u⟩
  case enterStop | join => exact ⟨hi, hf, fun u _ => (SamePorts.refl s).rely u⟩
  case stop =>
    have e : SamePorts s { s with stopRequested := true } := ⟨rfl, rfl, rfl, rfl, rfl, rfl, rfl, rfl⟩
    exact ⟨e.inv hi, hf, fun u _ => e.rely u⟩
  case create pc r ha =>
    have e := SamePorts.of_connect ha
    refine ⟨e.inv hi, ?_, fun u _ => e.rely u⟩
    obtain pc' | ok := r
    · exact hf
    · cases ok
      · exact hf
      · exact ⟨hf, trivial⟩
  case request k pc r ha =>
    have e := SamePorts.of_request ha
    refine ⟨e.inv hi, ?_, fun u _ => e.rely u⟩
    obtain pc' | answer := r
    · exact hf
    · exact hf
  case sync pc pc' creating ha =>
    have hbf : syncFacts s pc := by
      cases creating
      all_goals simp only [pointFacts] at hp
      all_goals grind -ring -linarith
    obtain ⟨hi', hf', hr⟩ := sync_ports hb hbf hi hs hf.2 (by
      rintro spc (rfl | ⟨entry, rfl⟩) rfl
      · exact hk rfl
      · exact hk rfl) ha
    exact ⟨hi', ⟨hf.1, hf'⟩, hr⟩
  case syncReturn r creating =>
    have hown : s.synchronizeMutex = some t := hs.mpr rfl
    obtain ⟨ht, hrest⟩ := hf
    refine ⟨⟨hi.known, hi.unused, hi.keys, hi.single, fun _ => hrest⟩, ?_, fun u hu => ⟨fun hu' => ?_, fun _ => ⟨rfl, fun _ => ⟨rfl, rfl⟩⟩⟩⟩
    · split
      · exact ht
      · exact ht
    · rw [hown] at hu'
      exact absurd (Option.some.inj hu').symm hu
  case lifecycle pc pc' ha =>
    obtain ⟨hi', hf', hr⟩ := lifecycle_ports hb hp.2 hi hs hf.2 (by
      rintro spc rfl rfl
      exact hk rfl) ha
    refine ⟨hi', ?_, hr⟩
    cases pc'
    · exact hf.1
    · exact ⟨hf.1, hf'⟩
  case pump pc pc' ha =>
    obtain ⟨rfl, hf⟩ := hf
    obtain ⟨hi', hf', hr⟩ := pump_ports hi hf ha
    exact ⟨hi', ⟨rfl, hf'⟩, hr⟩

theorem port_valid : portOutline.ValidOn program accessOutline Copies where
  step := port_step
  stable := fun _ hbf _ hf hr => portFacts_stable hbf hr hf

/-- Reachable by runs in which no copy of the adapters throws. -/
abbrev Reached : Config Thread Shared Pc → Prop := program.Reach fun c t a => Copies t a (c.frame t)

theorem port_reached {c : Config Thread Shared Pc} (h : Reached c) : portOutline.Holds c := by
  refine port_valid.reach (fun _ => access_reachable) ?_ h
  refine ⟨⟨nofun, fun _ _ => rfl, List.nodup_nil, fun _ => ⟨rfl, .inl rfl⟩, fun _ => ⟨nofun, fun _ => .inr rfl⟩⟩,
    fun t => ?_⟩
  match t with
  | .app 0 => exact nofun
  | .app (n + 1) => exact nofun
  | .pump => exact ⟨rfl, rfl⟩

end RttOpcua.Proxy
