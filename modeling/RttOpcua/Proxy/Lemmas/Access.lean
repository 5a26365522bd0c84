import RttOpcua.Proxy.Lemmas.Rules

/-!
# The access outline

Who may change what: `interface_ready`, `interface_stale` and the access flag towards `true` belong to
the holder of `synchronize_mutex`; the session state belongs to the holder of `mutex_`; and a request
that has seen the access flag keeps `mutex_`, so that no control call gets past its locked store while
the request is under way.
-/

namespace RttOpcua.Proxy

open RttOpcua.Lib

/-! ## Locks -/

def RequestPc.holds : RequestPc → Bool
  | .lock _ => false
  | _ => true

def ConnectPc.holds : ConnectPc → Bool
  | .lock => false
  | _ => true

def DiscoverPc.holds : DiscoverPc → Bool
  | .lock => false
  | _ => true

def SyncPc.holdsMutex : SyncPc → Bool
  | .connect pc _ => pc.holds
  | .discover pc _ => pc.holds
  | _ => false

def LifecyclePc.holdsMutex : LifecyclePc → Bool
  | .call pc => pc.holds
  | _ => false

def PumpPc.holdsMutex : PumpPc → Bool
  | .pump (.write pc) _ _ => pc.holds
  | .pump (.read pc) _ _ => pc.holds
  | _ => false

/-- The thread holds the `mutex_` of the session. -/
def Pc.holdsMutex : Pc → Bool
  | .create pc => pc.holds
  | .sync pc _ => pc.holdsMutex
  | .lifecycle pc => pc.holdsMutex
  | .request _ pc => pc.holds
  | .pump pc => pc.holdsMutex
  | _ => false

def SyncPc.holds : SyncPc → Bool
  | .lock => false
  | _ => true

def LifecyclePc.holds : LifecyclePc → Bool
  | .lock => false
  | _ => true

def Pc.holdsSynchronizeMutex : Pc → Bool
  | .sync pc _ => pc.holds
  | .lifecycle pc => pc.holds
  | _ => false

/-! ## Invariant and assertions -/

namespace Shared

variable (s : Shared)

/-- No request is between the two stores of `invalidateInterfaceLocked`: what was enabled still is, as
long as the session is connected. -/
@[grind]
def Granted : Prop := s.enabled = true → s.state = .connected → s.interfaceAccessEnabled = true

/-- No control call is changing the flags. -/
@[grind]
def Settled : Prop :=
  (s.enabled = true → s.interfaceReady = true ∧ s.interfaceStale = false) ∧
  (s.interfaceReady = true → s.interfaceStale = false → s.state = .connected → s.enabled = true)

/-- A control call has disabled access, and no request is under way. -/
@[grind]
def Closed : Prop := s.enabled = false ∧ s.shut = true

end Shared

@[grind cases]
structure AccessInv (s : Shared) : Prop where
  access : s.interfaceAccessEnabled = true →
    s.enabled = true ∧ s.interfaceReady = true ∧ s.state = .connected
  shut : s.shut = true → s.interfaceAccessEnabled = false
  granted : s.mutex = none → s.Granted
  settled : s.synchronizeMutex = none → s.Settled
  invalidated : s.invalidated = true → s.shut = true ∧
    (s.interfaceStale = true ∨ s.interfaceReady = true ∧ s.state ≠ .connected)

@[simp, grind =]
theorem requires_callOperation : Request.callOperation.requiresInterfaceAccess = false := rfl

@[simp, grind =]
theorem requires_writePortValue : Request.writePortValue.requiresInterfaceAccess = true := rfl

@[simp, grind =]
theorem requires_readPortValue : Request.readPortValue.requiresInterfaceAccess = true := rfl

/-- A request has passed the test of the access flag. -/
@[grind]
def Passed (k : Request) (s : Shared) : Prop :=
  s.interfaceReady = true ∧ (k.requiresInterfaceAccess = true → s.shut = false)

/-- How a request has started. `callOperation` does not read the access flag, but nobody enables access
while its lifecycle call holds `synchronize_mutex`. -/
@[grind]
def Started (k : Request) (start : Start) (s : Shared) : Prop :=
  start.ready = true ∧ (s.interfaceAccessEnabled = true → start.access = true) ∧
  (k.requiresInterfaceAccess = true → start.access = true)

def requestFacts (k : Request) (s : Shared) : RequestPc → Prop
  | .lock start => k.requiresInterfaceAccess = false → Started k start s
  | .access => s.Granted ∧ k.requiresInterfaceAccess = true
  | .state start => s.Granted ∧ Passed k s ∧ Started k start s
  | .send start => s.Granted ∧ Passed k s ∧ Started k start s ∧ s.state = .connected
  | .reply => s.Granted ∧ Passed k s
  | .disable => s.Granted ∧ Passed k s
  | .stale => s.interfaceAccessEnabled = false ∧ Passed k s
  | .unlock _ => s.Granted

def staleFacts (s : Shared) : StalePc → Prop
  | .mark => True
  | .disable => s.interfaceStale = true
  | .disableLocked => s.interfaceStale = true ∧ s.enabled = false
  | _ => s.interfaceStale = true ∧ s.Closed

/-- While staging: whether the old interface can be restored, and nothing else can be. -/
@[grind]
def Restorable (restore : Bool) (s : Shared) : Prop :=
  (restore = true → s.interfaceReady = true ∧ s.interfaceStale = false) ∧
  (restore = false → s.interfaceReady = true → s.interfaceStale = true) ∧
  (s.invalidated = true → s.interfaceStale = true)

def discoverFacts (s : Shared) : DiscoverPc → Prop
  | .unlock false => True
  | _ => s.state = .connected

def connectFacts (s : Shared) : ConnectPc → Prop
  | .unlock true => s.state = .connected
  | _ => True

def syncFacts (s : Shared) : SyncPc → Prop
  | .lock => True
  | .context => s.Settled
  | .disable => s.Settled
  | .disableLocked => s.enabled = false
  | .pause => s.Closed
  | .pauseWait => s.Closed
  | .entry => s.Closed
  | .test entry => s.Closed ∧ s.state = entry
  | .mark pc entry => s.Closed ∧ s.state = entry ∧ staleFacts s pc
  | .restorable entry =>
      s.Closed ∧ s.state = entry ∧ (entry ≠ .connected → s.interfaceReady = true → s.interfaceStale = true)
  | .connect pc restore =>
      s.Closed ∧ restore = false ∧ (s.interfaceReady = true → s.interfaceStale = true) ∧ connectFacts s pc
  | .stage restore => s.Closed ∧ Restorable restore s ∧ s.state = .connected
  | .discover pc restore => s.Closed ∧ Restorable restore s ∧ discoverFacts s pc
  | .canReplace _ restore => s.Closed ∧ Restorable restore s ∧ s.state = .connected
  | .connected => s.Closed ∧ Restorable true s ∧ s.state = .connected
  | .enable => s.Closed ∧ Restorable true s ∧ s.state = .connected
  | .unready _ =>
      s.Closed ∧ s.state = .connected ∧ (s.invalidated = true → s.interfaceStale = true)
  | .install _ | .replace _ | .ready =>
      s.Closed ∧ s.state = .connected ∧ (s.invalidated = true → s.interfaceStale = true)
  | .enableFresh => s.Closed ∧ s.state = .connected ∧ s.interfaceReady = true
  -- From here on requests are let through, and may invalidate the interface again.
  | .fresh => s.enabled = true ∧ s.interfaceReady = true ∧ (s.invalidated = true → s.state ≠ .connected)
  | .fail pc => s.Closed ∧ staleFacts s pc
  | .resume _ => s.Settled
  | .unlock _ => s.Settled

def lifecycleFacts (s : Shared) : LifecyclePc → Prop
  | .lock => True
  | .ready => s.Settled
  | .stale start => s.Settled ∧ s.interfaceReady = true ∧ Started .callOperation start s
  | .call pc => s.Settled ∧ s.interfaceReady = true ∧ s.interfaceStale = false ∧
      requestFacts .callOperation s pc
  | .result => s.Settled
  | .mark pc => staleFacts s pc
  | .unlock => s.Settled

def pumpFacts (s : Shared) : PumpPc → Prop
  | .pump (.write pc) _ _ => requestFacts .writePortValue s pc
  | .pump (.read pc) _ _ => requestFacts .readPortValue s pc
  | _ => True

/-- What a thread knows at each program point. Before `create` has returned, only its thread calls the
proxy. -/
def pointFacts (t : Thread) (s : Shared) : Pc → Prop
  | .create pc => t = .app 0 ∧ s.created = false ∧ s.synchronizeMutex = none ∧ s.interfaceReady = false ∧
      connectFacts s pc
  | .sync pc true => t = .app 0 ∧ s.created = false ∧ syncFacts s pc
  | .sync pc false => s.created = true ∧ syncFacts s pc
  | .lifecycle pc => s.created = true ∧ lifecycleFacts s pc
  | .request k pc => k.requiresInterfaceAccess = true ∧ requestFacts k s pc
  | .pump pc => pumpFacts s pc
  | _ => True

@[grind cases]
structure AccessFacts (t : Thread) (l : Pc) (s : Shared) : Prop where
  mutex : s.mutex = some t ↔ l.holdsMutex = true
  synchronizeMutex : s.synchronizeMutex = some t ↔ l.holdsSynchronizeMutex = true
  point : pointFacts t s l

/-- What thread `u` relies on. -/
@[grind cases]
structure AccessRely (u : Thread) (s s' : Shared) : Prop where
  mutex : s'.mutex = some u ↔ s.mutex = some u
  synchronizeMutex : s'.synchronizeMutex = some u ↔ s.synchronizeMutex = some u
  session : s.mutex = some u →
    s'.state = s.state ∧ (s'.interfaceAccessEnabled = true → s.interfaceAccessEnabled = true) ∧
    (s'.enabled = true → s.enabled = true ∧ s'.interfaceAccessEnabled = s.interfaceAccessEnabled) ∧
    (s.shut = false → s'.shut = false ∧ s'.interfaceReady = s.interfaceReady)
  control : s.synchronizeMutex = some u →
    s'.interfaceReady = s.interfaceReady ∧ s'.interfaceStale = s.interfaceStale ∧ s'.enabled = s.enabled ∧
    (s'.interfaceAccessEnabled = true → s.interfaceAccessEnabled = true) ∧
    (s'.state = .connected → s.state = .connected) ∧
    (s'.invalidated = true → s.invalidated = true ∨ s'.state ≠ .connected) ∧
    (s.shut = true → s'.shut = true ∧ s'.state = s.state ∧ s'.invalidated = s.invalidated)
  create : u = .app 0 → s.created = false → s'.created = false ∧
    (s.synchronizeMutex = none → s'.synchronizeMutex = none ∧ s'.interfaceReady = s.interfaceReady)
  created : s.created = true → s'.created = true

def accessOutline : Threads.Outline Thread Shared Pc := ⟨AccessInv, AccessFacts, AccessRely⟩

/-! ## Stability -/

section Stable

variable {t : Thread} {s s' : Shared}

theorem requestFacts_stable {k : Request} {pc : RequestPc} (hr : AccessRely t s s')
    (hm : s.mutex = some t ↔ pc.holds = true)
    (hk : k.requiresInterfaceAccess = true ∨ s.synchronizeMutex = some t) (hf : requestFacts k s pc) :
    requestFacts k s' pc := by
  cases pc
  all_goals simp only [requestFacts, RequestPc.holds] at hf hm ⊢
  all_goals grind -ring -linarith

theorem staleFacts_stable {pc : StalePc} (hr : AccessRely t s s') (hm : s.synchronizeMutex = some t)
    (hf : staleFacts s pc) : staleFacts s' pc := by
  cases pc
  all_goals simp only [staleFacts] at hf ⊢
  all_goals grind -ring -linarith

theorem syncFacts_stable {pc : SyncPc} (hr : AccessRely t s s')
    (hm : s.synchronizeMutex = some t ↔ pc.holds = true) (hf : syncFacts s pc) : syncFacts s' pc := by
  cases pc
  case mark pc entry | fail pc =>
    simp only [syncFacts, SyncPc.holds] at hf hm ⊢
    have hstale : staleFacts s pc → staleFacts s' pc := staleFacts_stable hr (by simpa using hm)
    grind -ring -linarith
  case connect pc restore =>
    cases pc
    all_goals simp only [syncFacts, SyncPc.holds, connectFacts] at hf hm ⊢
    all_goals grind -ring -linarith
  case discover pc restore =>
    cases pc
    all_goals simp only [syncFacts, SyncPc.holds, discoverFacts] at hf hm ⊢
    all_goals grind -ring -linarith
  all_goals simp only [syncFacts, SyncPc.holds] at hf hm ⊢
  all_goals grind -ring -linarith

theorem lifecycleFacts_stable {pc : LifecyclePc} (hr : AccessRely t s s')
    (hm : s.mutex = some t ↔ pc.holdsMutex = true) (hs : s.synchronizeMutex = some t ↔ pc.holds = true)
    (hf : lifecycleFacts s pc) : lifecycleFacts s' pc := by
  cases pc
  case call pc =>
    simp only [lifecycleFacts, LifecyclePc.holds, LifecyclePc.holdsMutex] at hf hm hs ⊢
    have := requestFacts_stable (k := .callOperation) hr hm (.inr (by simpa using hs)) hf.2.2.2
    grind -ring -linarith
  case mark pc =>
    simp only [lifecycleFacts, LifecyclePc.holds] at hf hs ⊢
    exact staleFacts_stable hr (by simpa using hs) hf
  all_goals simp only [lifecycleFacts, LifecyclePc.holds] at hf hs ⊢
  all_goals grind -ring -linarith

theorem accessFacts_stable {l : Pc} (hr : AccessRely t s s') (hf : AccessFacts t l s) : AccessFacts t l s' := by
  obtain ⟨hm, hs, hp⟩ := hf
  refine ⟨hr.mutex.trans hm, hr.synchronizeMutex.trans hs, ?_⟩
  cases l
  case create pc =>
    cases pc
    all_goals simp only [pointFacts, connectFacts, Pc.holdsMutex, ConnectPc.holds] at hp hm ⊢
    all_goals grind -ring -linarith
  case sync pc creating =>
    simp only [Pc.holdsSynchronizeMutex] at hs
    have hsync : syncFacts s pc → syncFacts s' pc := syncFacts_stable hr hs
    cases creating
    all_goals simp only [pointFacts] at hp ⊢
    all_goals grind -ring -linarith
  case lifecycle pc =>
    simp only [pointFacts] at hp ⊢
    exact ⟨hr.created hp.1, lifecycleFacts_stable hr hm hs hp.2⟩
  case request k pc =>
    simp only [pointFacts] at hp ⊢
    exact ⟨hp.1, requestFacts_stable hr hm (.inl hp.1) hp.2⟩
  case pump pc =>
    simp only [pointFacts, pumpFacts] at hp ⊢
    split at hp
    · exact requestFacts_stable hr hm (.inl rfl) hp
    · exact requestFacts_stable hr hm (.inl rfl) hp
    · trivial
  all_goals trivial

end Stable

/-! ## Actions of the session -/

/-- The members that the outline talks about are the same. -/
@[grind cases]
structure SameAccess (s s' : Shared) : Prop where
  created : s'.created = s.created
  synchronizeMutex : s'.synchronizeMutex = s.synchronizeMutex
  interfaceReady : s'.interfaceReady = s.interfaceReady
  interfaceStale : s'.interfaceStale = s.interfaceStale
  mutex : s'.mutex = s.mutex
  interfaceAccessEnabled : s'.interfaceAccessEnabled = s.interfaceAccessEnabled
  state : s'.state = s.state
  enabled : s'.enabled = s.enabled
  shut : s'.shut = s.shut
  invalidated : s'.invalidated = s.invalidated

/-- The members that belong to the holder of `synchronize_mutex` are the same. -/
@[grind cases]
structure SameControl (s s' : Shared) : Prop where
  created : s'.created = s.created
  synchronizeMutex : s'.synchronizeMutex = s.synchronizeMutex
  interfaceReady : s'.interfaceReady = s.interfaceReady
  interfaceStale : s'.interfaceStale = s.interfaceStale
  enabled : s'.enabled = s.enabled

section Session

variable {t : Thread} {a : Choice} {s s' : Shared}

theorem SameAccess.refl (s : Shared) : SameAccess s s := ⟨rfl, rfl, rfl, rfl, rfl, rfl, rfl, rfl, rfl, rfl⟩

theorem SameAccess.trans {s₁ : Shared} (e : SameAccess s s₁) (e' : SameAccess s₁ s') : SameAccess s s' := by
  constructor
  all_goals grind -ring -linarith

theorem SameAccess.inv (e : SameAccess s s') (h : AccessInv s) : AccessInv s' := by
  constructor
  all_goals grind -ring -linarith

theorem SameAccess.rely (e : SameAccess s s') (u : Thread) : AccessRely u s s' := by
  constructor
  all_goals grind -ring -linarith

theorem AccessRely.congr {s₁ : Shared} {u : Thread} (h : AccessRely u s s₁) (e : SameAccess s₁ s') :
    AccessRely u s s' := by
  constructor
  all_goals grind -ring -linarith

theorem request_step {k : Request} {pc : RequestPc} {r : RequestPc ⊕ Answer} (hi : AccessInv s)
    (hm : s.mutex = some t ↔ pc.holds = true)
    (hk : k.requiresInterfaceAccess = true ∨ s.synchronizeMutex = some t) (hf : requestFacts k s pc)
    (hr : s.interfaceReady = true ∨ k.requiresInterfaceAccess = true)
    (h : requestAction t k a s pc = some (s', r)) :
    AccessInv s' ∧ r.elim (requestFacts k s') (fun _ => True) ∧
      (s'.mutex = some t ↔ r.elim RequestPc.holds (fun _ => false) = true) ∧
      SameControl s s' ∧ (s'.state = .connected → s.state = .connected) ∧ ∀ u, u ≠ t → AccessRely u s s' := by
  replace h := requestAction_step h
  cases h
  all_goals simp only [requestFacts, RequestPc.holds, Sum.elim_inl, Sum.elim_inr] at hf hm ⊢
  all_goals refine ⟨⟨?_, ?_, ?_, ?_, ?_⟩, ?_, ?_, ⟨?_, ?_, ?_, ?_, ?_⟩, ?_, fun u hu => ⟨?_, ?_, ?_, ?_, ?_, ?_⟩⟩
  all_goals grind -ring -linarith

/-- `connect` runs where access is disabled and the old interface, if there is one, is stale. -/
theorem connect_step {pc : ConnectPc} {r : ConnectPc ⊕ Bool} (hi : AccessInv s)
    (hm : s.mutex = some t ↔ pc.holds = true) (hs : s.synchronizeMutex = none ∨ s.synchronizeMutex = some t)
    (he : s.enabled = false) (hstale : s.interfaceReady = true → s.interfaceStale = true)
    (hf : connectFacts s pc) (h : connectAction t a s pc = some (s', r)) :
    AccessInv s' ∧ r.elim (connectFacts s') (fun ok => ok = true → s'.state = .connected) ∧
      (s'.mutex = some t ↔ r.elim ConnectPc.holds (fun _ => false) = true) ∧
      SameControl s s' ∧ s'.shut = s.shut ∧ s'.invalidated = s.invalidated ∧ ∀ u, u ≠ t → AccessRely u s s' := by
  replace h := connectAction_step h
  cases h
  all_goals simp only [connectFacts, ConnectPc.holds, Sum.elim_inl, Sum.elim_inr] at hf hm ⊢
  all_goals refine ⟨⟨?_, ?_, ?_, ?_, ?_⟩, ?_, ?_, ⟨?_, ?_, ?_, ?_, ?_⟩, ?_, ?_, fun u hu => ⟨?_, ?_, ?_, ?_, ?_, ?_⟩⟩
  all_goals grind -ring -linarith

theorem discover_step {pc : DiscoverPc} {r : DiscoverPc ⊕ Bool} (hi : AccessInv s)
    (hm : s.mutex = some t ↔ pc.holds = true) (hs : s.synchronizeMutex = some t) (hc : s.Closed)
    (hstale : s.invalidated = true → s.interfaceStale = true)
    (hf : discoverFacts s pc) (h : discoverAction t a s pc = some (s', r)) :
    AccessInv s' ∧ r.elim (discoverFacts s') (fun ok => ok = true → s'.state = .connected) ∧
      (s'.mutex = some t ↔ r.elim DiscoverPc.holds (fun _ => false) = true) ∧
      SameControl s s' ∧ s'.shut = s.shut ∧ s'.invalidated = s.invalidated ∧ ∀ u, u ≠ t → AccessRely u s s' := by
  replace h := discoverAction_step h
  cases h
  all_goals simp only [discoverFacts, DiscoverPc.holds, Sum.elim_inl, Sum.elim_inr] at hf hm ⊢
  all_goals refine ⟨⟨?_, ?_, ?_, ?_, ?_⟩, ?_, ?_, ⟨?_, ?_, ?_, ?_, ?_⟩, ?_, ?_, fun u hu => ⟨?_, ?_, ?_, ?_, ?_, ?_⟩⟩
  all_goals grind -ring -linarith

/-! ## `markInterfaceStale` and the calls that hold `synchronize_mutex` -/

theorem stale_step {pc : StalePc} {r : Option StalePc} (hi : AccessInv s) (hs : s.synchronizeMutex = some t)
    (hf : staleFacts s pc) (h : staleAction a s pc = some (s', r)) :
    AccessInv s' ∧ r.elim (s'.interfaceStale = true ∧ s'.Closed) (staleFacts s') ∧ (s.Closed → s'.Closed) ∧
      s'.mutex = s.mutex ∧ s'.synchronizeMutex = some t ∧ s'.created = s.created ∧ s'.state = s.state ∧
      ∀ u, u ≠ t → AccessRely u s s' := by
  replace h := staleAction_step h
  cases h
  all_goals simp only [staleFacts, Option.elim_none, Option.elim_some, Shared.modifyAdapter] at hf ⊢
  all_goals refine ⟨⟨?_, ?_, ?_, ?_, ?_⟩, ?_, ?_, ?_, ?_, ?_, ?_, fun u hu => ⟨?_, ?_, ?_, ?_, ?_, ?_⟩⟩
  all_goals grind -ring -linarith

theorem SameAccess.of_stagePorts (ports : List PortDescription) : SameAccess s (s.stagePorts ports) := by
  unfold Shared.stagePorts
  induction ports generalizing s with
  | nil => exact .refl s
  | cons d rest ih =>
      simp only [List.foldl_cons]
      have e : SameAccess s (s.stagePort d) := ⟨rfl, rfl, rfl, rfl, rfl, rfl, rfl, rfl, rfl, rfl⟩
      exact e.trans ih

theorem SameAccess.of_transferPendingState (x : Nat) (ys : List Nat) :
    SameAccess s (s.transferPendingState x ys) := by
  induction ys with
  | nil => exact .refl s
  | cons y rest ih =>
      simp only [Shared.transferPendingState]
      split
      · exact ⟨rfl, rfl, rfl, rfl, rfl, rfl, rfl, rfl, rfl, rfl⟩
      · exact ih

theorem SameAccess.of_replacePortAdapters (ys : List Nat) : SameAccess s (s.replacePortAdapters ys) := by
  have hfold (xs : List Nat) (r : Shared) :
      SameAccess r (xs.foldl (fun r x => r.transferPendingState x ys) r) := by
    induction xs generalizing r with
    | nil => exact .refl r
    | cons x rest ih => exact (of_transferPendingState x ys).trans (ih _)
  exact (hfold s.portAdapters s).trans ⟨rfl, rfl, rfl, rfl, rfl, rfl, rfl, rfl, rfl, rfl⟩

theorem sync_step {pc pc' : SyncPc} (hi : AccessInv s) (hm : s.mutex = some t ↔ pc.holdsMutex = true)
    (hs : s.synchronizeMutex = some t ↔ pc.holds = true) (hf : syncFacts s pc)
    (hcr : s.created = true ∨ t = .app 0) (h : syncAction t a s pc = some (s', .inl pc')) :
    AccessInv s' ∧ syncFacts s' pc' ∧ (s'.mutex = some t ↔ pc'.holdsMutex = true) ∧
      (s'.synchronizeMutex = some t ↔ pc'.holds = true) ∧ s'.created = s.created ∧
      ∀ u, u ≠ t → AccessRely u s s' := by
  replace h := syncAction_step h
  cases h
  case mark pc entry r hp | fail pc r hp =>
    simp only [syncFacts, SyncPc.holds, SyncPc.holdsMutex] at hf hm hs
    obtain ⟨hi', hf', hc, hmu, hsy, hcr', hst, hr⟩ := stale_step hi (by simpa using hs) (by grind -ring -linarith) hp
    cases r
    all_goals simp only [Option.elim_none, Option.elim_some] at hf' ⊢
    all_goals simp only [syncFacts, SyncPc.holds, SyncPc.holdsMutex] at ⊢
    all_goals grind -ring -linarith
  case connect pc restore r hp =>
    simp only [syncFacts, SyncPc.holds, SyncPc.holdsMutex] at hf hm hs
    obtain ⟨hi', hf', hmu, hsame, hsh, hinv, hr⟩ :=
      connect_step hi hm (.inr (by simpa using hs)) hf.1.1 hf.2.2.1 hf.2.2.2 hp
    obtain pc' | ok := r
    · simp only [Sum.elim_inl] at hf' hmu ⊢
      simp only [syncFacts, SyncPc.holds, SyncPc.holdsMutex]
      grind -ring -linarith
    · cases ok
      all_goals simp only [Sum.elim_inr] at hf' hmu ⊢
      all_goals simp only [syncFacts, staleFacts, SyncPc.holds, SyncPc.holdsMutex]
      all_goals grind -ring -linarith
  case discover pc restore r hp =>
    simp only [syncFacts, SyncPc.holds, SyncPc.holdsMutex] at hf hm hs
    obtain ⟨hi', hf', hmu, hsame, hsh, hinv, hr⟩ :=
      discover_step hi hm (by simpa using hs) hf.1 hf.2.1.2.2 hf.2.2 hp
    obtain pc' | ok := r
    · simp only [Sum.elim_inl] at hf' hmu ⊢
      simp only [syncFacts, SyncPc.holds, SyncPc.holdsMutex]
      grind -ring -linarith
    · cases ok
      all_goals simp only [Sum.elim_inr] at hf' hmu ⊢
      all_goals simp only [syncFacts, staleFacts, SyncPc.holds, SyncPc.holdsMutex]
      all_goals grind -ring -linarith
  case staged restore ports ha hports =>
    have e : SameAccess s { s.stagePorts ports with nextMirror := s.nextMirror + 1 } :=
      (SameAccess.of_stagePorts ports).trans ⟨rfl, rfl, rfl, rfl, rfl, rfl, rfl, rfl, rfl, rfl⟩
    have := e.inv hi
    have := e.rely
    simp only [syncFacts, SyncPc.holds, SyncPc.holdsMutex] at hf hm hs ⊢
    grind -ring -linarith
  case replace staged =>
    have e : SameAccess s (s.replacePortAdapters staged.ports) := .of_replacePortAdapters _
    have := e.inv hi
    have := e.rely
    simp only [syncFacts, SyncPc.holds, SyncPc.holdsMutex] at hf hm hs ⊢
    grind -ring -linarith
  all_goals simp only [syncFacts, staleFacts, connectFacts, discoverFacts, SyncPc.holds, SyncPc.holdsMutex, ConnectPc.holds,
    DiscoverPc.holds] at hf hm hs ⊢
  all_goals refine ⟨⟨?_, ?_, ?_, ?_, ?_⟩, ?_, ?_, ?_, ?_, fun u hu => ⟨?_, ?_, ?_, ?_, ?_, ?_⟩⟩
  all_goals grind -ring -linarith

theorem lifecycle_step {pc : LifecyclePc} {r : Option LifecyclePc} (hi : AccessInv s)
    (hm : s.mutex = some t ↔ pc.holdsMutex = true) (hs : s.synchronizeMutex = some t ↔ pc.holds = true)
    (hf : lifecycleFacts s pc) (hcr : s.created = true) (h : lifecycleAction t a s pc = some (s', r)) :
    AccessInv s' ∧ r.elim True (lifecycleFacts s') ∧ (s'.mutex = some t ↔ r.elim false LifecyclePc.holdsMutex = true) ∧
      (s'.synchronizeMutex = some t ↔ r.elim false LifecyclePc.holds = true) ∧ s'.created = true ∧
      ∀ u, u ≠ t → AccessRely u s s' := by
  replace h := lifecycleAction_step h
  cases h
  case call pc r hp =>
    simp only [lifecycleFacts, LifecyclePc.holds, LifecyclePc.holdsMutex] at hf hm hs
    obtain ⟨hi', hf', hmu, hsame, hst, hr⟩ :=
      request_step hi hm (.inr (by simpa using hs)) hf.2.2.2 (.inl hf.2.1) hp
    obtain pc' | answer := r
    · simp only [Sum.elim_inl, Option.elim_some] at hf' hmu ⊢
      simp only [lifecycleFacts, LifecyclePc.holds, LifecyclePc.holdsMutex]
      grind -ring -linarith
    · simp only [Sum.elim_inr, Option.elim_some] at hf' hmu ⊢
      split
      all_goals simp only [lifecycleFacts, staleFacts, LifecyclePc.holds, LifecyclePc.holdsMutex]
      all_goals grind -ring -linarith
  case mark pc r hp =>
    simp only [lifecycleFacts, LifecyclePc.holds, LifecyclePc.holdsMutex] at hf hm hs
    obtain ⟨hi', hf', hc, hmu, hsy, hcr', hst, hr⟩ := stale_step hi (by simpa using hs) hf hp
    cases r
    all_goals simp only [Option.elim_none, Option.elim_some] at hf' ⊢
    all_goals simp only [lifecycleFacts, LifecyclePc.holds, LifecyclePc.holdsMutex]
    all_goals grind -ring -linarith
  all_goals simp only [Option.elim_none, Option.elim_some]
  all_goals simp only [lifecycleFacts, requestFacts, staleFacts, LifecyclePc.holds, LifecyclePc.holdsMutex, RequestPc.holds] at hf hm hs ⊢
  all_goals refine ⟨⟨?_, ?_, ?_, ?_, ?_⟩, ?_, ?_, ?_, ?_, fun u hu => ⟨?_, ?_, ?_, ?_, ?_, ?_⟩⟩
  all_goals grind -ring -linarith

/-! ## The port pump -/

/-- The action of `pump` is one of the request it is in, or leaves the flags alone. -/
theorem adapter_step {pc : AdapterPc} {r : Option AdapterPc} {x : Nat} {rest : List Nat} (hi : AccessInv s)
    (hm : s.mutex = some t ↔ (PumpPc.pump pc x rest).holdsMutex = true) (hf : pumpFacts s (.pump pc x rest))
    (h : adapterAction t a s x pc = some (s', r)) :
    AccessInv s' ∧ r.elim True (fun pc' => pumpFacts s' (.pump pc' x rest)) ∧
      (s'.mutex = some t ↔ r.elim false (fun pc' => (PumpPc.pump pc' x rest).holdsMutex) = true) ∧
      SameControl s s' ∧ ∀ u, u ≠ t → AccessRely u s s' := by
  replace h := adapterAction_step h
  cases h
  case write hp | read hp =>
    simp only [pumpFacts, PumpPc.holdsMutex] at hf hm
    obtain ⟨hi', hf', hmu, hsame, hst, hr⟩ := request_step hi hm (.inl rfl) hf (.inr rfl) hp
    exact ⟨hi', hf', hmu, hsame, hr⟩
  case written s₁ hp =>
    simp only [pumpFacts, PumpPc.holdsMutex] at hf hm
    obtain ⟨hi', -, hmu, hsame, -, hr⟩ := request_step hi hm (.inl rfl) hf (.inr rfl) hp
    have e : SameAccess s₁ (s₁.modifyAdapter x fun k => { k with pendingInput := none }) :=
      ⟨rfl, rfl, rfl, rfl, rfl, rfl, rfl, rfl, rfl, rfl⟩
    refine ⟨e.inv hi', trivial, ?_, ⟨?_, ?_, ?_, ?_, ?_⟩, fun u hu => (hr u hu).congr e⟩
    all_goals grind -ring -linarith
  case notWritten hp | notRead hp =>
    simp only [pumpFacts, PumpPc.holdsMutex] at hf hm
    obtain ⟨hi', -, hmu, hsame, -, hr⟩ := request_step hi hm (.inl rfl) hf (.inr rfl) hp
    exact ⟨hi', trivial, hmu, hsame, hr⟩
  case wasRead hp =>
    simp only [pumpFacts, PumpPc.holdsMutex] at hf hm
    obtain ⟨hi', -, hmu, hsame, -, hr⟩ := request_step hi hm (.inl rfl) hf (.inr rfl) hp
    exact ⟨hi', trivial, hmu, hsame, hr⟩
  all_goals simp only [pumpFacts, PumpPc.holdsMutex, requestFacts, RequestPc.holds, Option.elim_none, Option.elim_some, Shared.modifyAdapter] at hf hm ⊢
  all_goals refine ⟨⟨?_, ?_, ?_, ?_, ?_⟩, ?_, ?_, ⟨?_, ?_, ?_, ?_, ?_⟩, fun u hu => ⟨?_, ?_, ?_, ?_, ?_, ?_⟩⟩
  all_goals grind -ring -linarith

theorem pump_step {pc pc' : PumpPc} (hi : AccessInv s) (hm : s.mutex = some t ↔ pc.holdsMutex = true)
    (hf : pumpFacts s pc) (h : pumpAction t a s pc = some (s', pc')) :
    AccessInv s' ∧ pumpFacts s' pc' ∧ (s'.mutex = some t ↔ pc'.holdsMutex = true) ∧ SameControl s s' ∧
      ∀ u, u ≠ t → AccessRely u s s' := by
  replace h := pumpAction_step h
  cases h
  case pump pc x rest r hp =>
    have hstep := adapter_step hi hm hf hp
    cases r
    all_goals exact hstep
  all_goals simp only [RemotePortAdapter.pump, pumpFacts, PumpPc.holdsMutex] at hf hm ⊢
  all_goals refine ⟨⟨?_, ?_, ?_, ?_, ?_⟩, ?_, ?_, ⟨?_, ?_, ?_, ?_, ?_⟩, fun u hu => ⟨?_, ?_, ?_, ?_, ?_, ?_⟩⟩
  all_goals grind -ring -linarith

end Session

/-! ## The outline -/

theorem access_step {t : Thread} {a : Choice} {s s' : Shared} {l l' : Pc} (hi : AccessInv s)
    (hf : AccessFacts t l s) (h : threadAction t a s l = some (s', l')) :
    AccessInv s' ∧ AccessFacts t l' s' ∧ ∀ u, u ≠ t → AccessRely u s s' := by
  obtain ⟨hm, hs, hp⟩ := hf
  cases threadStep h
  case enterSync hc | enterLifecycle hc | enterRequest hc =>
    refine ⟨hi, ⟨hm, hs, ?_⟩, fun u _ => (SameAccess.refl s).rely u⟩
    simp [pointFacts, syncFacts, lifecycleFacts, requestFacts, hc]
  case enterStop | join => exact ⟨hi, ⟨hm, hs, trivial⟩, fun u _ => (SameAccess.refl s).rely u⟩
  case stop =>
    have e : SameAccess s { s with stopRequested := true } := ⟨rfl, rfl, rfl, rfl, rfl, rfl, rfl, rfl, rfl, rfl⟩
    exact ⟨e.inv hi, ⟨hm, hs, trivial⟩, fun u _ => e.rely u⟩
  case create pc r ha =>
    simp only [pointFacts, Pc.holdsMutex, Pc.holdsSynchronizeMutex] at hm hs hp
    have hset := hi.settled hp.2.2.1
    obtain ⟨hi', hf', hmu, hsame, hsh, hinv, hr⟩ :=
      connect_step hi hm (.inl hp.2.2.1) (by grind -ring -linarith) (by grind -ring -linarith) hp.2.2.2.2 ha
    have hsy : s'.synchronizeMutex = some t ↔ false = true := by rw [hsame.synchronizeMutex]; exact hs
    refine ⟨hi', ?_, hr⟩
    obtain pc' | ok := r
    · exact ⟨hmu, hsy, by simp only [Sum.elim_inl, pointFacts] at hf' ⊢; grind -ring -linarith⟩
    · cases ok
      · exact ⟨hmu, hsy, trivial⟩
      · refine ⟨hmu, hsy, ?_⟩
        simp only [Sum.elim_inr, if_true, pointFacts, syncFacts]
        grind -ring -linarith
  case sync pc pc' creating ha =>
    have hcr : s.created = true ∨ t = .app 0 := by
      cases creating
      all_goals simp only [pointFacts] at hp
      all_goals grind -ring -linarith
    have hsf : syncFacts s pc := by
      cases creating
      all_goals simp only [pointFacts] at hp
      all_goals grind -ring -linarith
    obtain ⟨hi', hf', hmu, hsy, hcr', hr⟩ := sync_step hi hm hs hsf hcr ha
    refine ⟨hi', ⟨hmu, hsy, ?_⟩, hr⟩
    cases creating
    all_goals simp only [pointFacts] at hp ⊢
    all_goals grind -ring -linarith
  case syncReturn r creating =>
    have hcr : s.created = true ∧ creating = false ∨ t = .app 0 ∧ creating = true := by
      cases creating
      all_goals simp only [pointFacts] at hp
      all_goals grind -ring -linarith
    have hset : s.Settled := by
      cases creating
      all_goals simp only [pointFacts, syncFacts] at hp
      all_goals grind -ring -linarith
    simp only [Pc.holdsMutex, SyncPc.holdsMutex, Pc.holdsSynchronizeMutex, SyncPc.holds] at hm hs
    refine ⟨⟨?_, ?_, ?_, ?_, ?_⟩, ?facts, fun u hu => ⟨?_, ?_, ?_, ?_, ?_, ?_⟩⟩
    case facts =>
      split
      all_goals exact ⟨hm, by simp [Pc.holdsSynchronizeMutex], trivial⟩
    all_goals grind -ring -linarith
  case lifecycle pc pc' ha =>
    simp only [pointFacts] at hp
    obtain ⟨hi', hf', hmu, hsy, hcr', hr⟩ := lifecycle_step hi hm hs hp.2 hp.1 ha
    refine ⟨hi', ?_, hr⟩
    cases pc'
    · exact ⟨hmu, hsy, trivial⟩
    · exact ⟨hmu, hsy, hcr', hf'⟩
  case request k pc r ha =>
    simp only [pointFacts] at hp
    obtain ⟨hi', hf', hmu, hsame, hst, hr⟩ := request_step hi hm (.inl hp.1) hp.2 (.inr hp.1) ha
    have hsy : s'.synchronizeMutex = some t ↔ false = true := by rw [hsame.synchronizeMutex]; exact hs
    refine ⟨hi', ?_, hr⟩
    obtain pc' | answer := r
    · exact ⟨hmu, hsy, hp.1, hf'⟩
    · exact ⟨hmu, hsy, trivial⟩
  case pump pc pc' ha =>
    obtain ⟨hi', hf', hmu, hsame, hr⟩ := pump_step hi hm hp ha
    have hsy : s'.synchronizeMutex = some t ↔ false = true := by rw [hsame.synchronizeMutex]; exact hs
    exact ⟨hi', ⟨hmu, hsy, hf'⟩, hr⟩

theorem access_valid : accessOutline.Valid program .trivial where
  step := by
    intro i a s l s' l' _ _ hi hf h
    exact access_step hi hf h
  stable := by
    intro j l s s' _ _ _ hf hr
    exact accessFacts_stable hr hf

theorem access_reachable {c : Config Thread Shared Pc} (h : program.Reachable c) : accessOutline.Holds c := by
  refine access_valid.reachable (fun c _ => Threads.Outline.holds_trivial c) ?_ h
  refine ⟨⟨nofun, nofun, fun _ => nofun, fun _ => ⟨nofun, nofun⟩, nofun⟩, fun t => ?_⟩
  match t with
  | .app 0 => exact ⟨by decide, by decide, rfl, rfl, rfl, rfl, trivial⟩
  | .app (n + 1) => exact ⟨⟨nofun, nofun⟩, ⟨nofun, nofun⟩, trivial⟩
  | .pump => exact ⟨by decide, by decide, trivial⟩

/-! ## Requests under way -/

section UnderWay

variable {t : Thread} {s : Shared} {l : Pc}

theorem inRequest_facts {k : Request} {pc : RequestPc} (hf : AccessFacts t l s)
    (hl : l.inRequest = some (k, pc)) :
    requestFacts k s pc ∧ (k.requiresInterfaceAccess = true ∨
      s.Settled ∧ s.interfaceReady = true ∧ s.interfaceStale = false) := by
  obtain ⟨-, -, hp⟩ := hf
  unfold Pc.inRequest at hl
  split at hl
  all_goals simp only [Option.some.injEq, Prod.mk.injEq, reduceCtorEq] at hl
  all_goals obtain ⟨rfl, rfl⟩ := hl
  all_goals simp only [pointFacts, lifecycleFacts, pumpFacts] at hp
  all_goals grind -ring -linarith

/-- The holder of `mutex_`, if it does not hold `synchronize_mutex`, is `create` or in a request. -/
theorem inRequest_of_mutex (hf : AccessFacts t l s) (hm : s.mutex = some t) (hsy : l.holdsSynchronizeMutex = false) :
    s.interfaceReady = false ∨ ∃ k pc, l.inRequest = some (k, pc) ∧ pc.holds = true := by
  have hmu : l.holdsMutex = true := hf.mutex.mp hm
  have hp := hf.point
  clear hf
  cases l
  case create pc => exact .inl hp.2.2.2.1
  case sync pc creating =>
    cases pc
    all_goals simp_all [Pc.holdsMutex, Pc.holdsSynchronizeMutex, SyncPc.holdsMutex, SyncPc.holds]
  case lifecycle pc =>
    cases pc
    all_goals simp_all [Pc.holdsMutex, Pc.holdsSynchronizeMutex, LifecyclePc.holdsMutex, LifecyclePc.holds]
  case request k pc => exact .inr ⟨k, pc, rfl, hmu⟩
  case pump pc =>
    simp only [Pc.holdsMutex, PumpPc.holdsMutex] at hmu
    split at hmu
    · exact .inr ⟨_, _, rfl, hmu⟩
    · exact .inr ⟨_, _, rfl, hmu⟩
    · simp at hmu
  all_goals simp [Pc.holdsMutex] at hmu

/-- What was enabled is granted, unless a request is between the two stores of an invalidation. -/
theorem granted_or_invalidating {c : Config Thread Shared Pc} (hc : accessOutline.Holds c) (hset : c.shared.Settled)
    (hs : ∀ u, c.shared.mutex = some u → (c.frame u).holdsSynchronizeMutex = false) :
    c.shared.Granted ∨ ∃ u, c.shared.mutex = some u ∧ (c.frame u).invalidating = true := by
  have hinv : AccessInv c.shared := hc.1
  cases hm : c.shared.mutex with
  | none => exact .inl (hinv.granted hm)
  | some u =>
      have hf : AccessFacts u (c.frame u) c.shared := hc.2 u
      obtain hready | ⟨k, pc, hreq, hpc⟩ := inRequest_of_mutex hf hm (hs u hm)
      · left
        grind -ring -linarith
      · have hr := (inRequest_facts hf hreq).1
        cases pc
        case lock => simp [RequestPc.holds] at hpc
        case stale => exact .inr ⟨u, rfl, by simp [Pc.invalidating, hreq]⟩
        all_goals simp only [requestFacts] at hr
        all_goals exact .inl (by grind -ring -linarith)

/-- A request that is about to be sent: the session is connected, the interface was ready and access
enabled when the call started, and no invalidation has completed. -/
theorem sending_facts {start : Start} (hi : AccessInv s) (hf : AccessFacts t l s) (hl : l.sending = some start) :
    s.state = .connected ∧ start.ready = true ∧ start.access = true ∧ s.invalidated = false := by
  unfold Pc.sending at hl
  split at hl
  · rename_i k start' hreq
    obtain rfl := Option.some.inj hl
    obtain ⟨hr, hk⟩ := inRequest_facts hf hreq
    simp only [requestFacts] at hr
    grind -ring -linarith
  · simp at hl

end UnderWay

/-! ## Invalidations -/

section Invalidated

variable {t : Thread} {a : Choice} {s s' : Shared} {l l' : Pc}

theorem connect_invalidated {pc : ConnectPc} {r : ConnectPc ⊕ Bool} (h : connectAction t a s pc = some (s', r)) :
    s'.invalidated = s.invalidated := by
  replace h := connectAction_step h
  cases h
  all_goals grind -ring -linarith

theorem discover_invalidated {pc : DiscoverPc} {r : DiscoverPc ⊕ Bool}
    (h : discoverAction t a s pc = some (s', r)) : s'.invalidated = s.invalidated := by
  replace h := discoverAction_step h
  cases h
  all_goals grind -ring -linarith

theorem request_invalidated {k : Request} {pc : RequestPc} {r : RequestPc ⊕ Answer}
    (h : requestAction t k a s pc = some (s', r)) (hs : pc = .stale ∨ s.invalidated = true) :
    s'.invalidated = true := by
  replace h := requestAction_step h
  cases h
  all_goals grind -ring -linarith

theorem stale_invalidated {pc : StalePc} {r : Option StalePc} (h : staleAction a s pc = some (s', r))
    (hs : pc = .discard [] ∨ s.invalidated = true) : s'.invalidated = true := by
  replace h := staleAction_step h
  cases h
  all_goals grind -ring -linarith [Shared.modifyAdapter]

/-- A thread that is in a request takes a step of it, and an adapter may put its sample away. -/
theorem thread_request {k : Request} {pc : RequestPc} (h : threadAction t a s l = some (s', l'))
    (hl : l.inRequest = some (k, pc)) : ∃ s₁ r, requestAction t k a s pc = some (s₁, r) ∧ SameAccess s₁ s' := by
  unfold Pc.inRequest at hl
  split at hl
  all_goals simp only [Option.some.injEq, Prod.mk.injEq, reduceCtorEq] at hl
  all_goals obtain ⟨rfl, rfl⟩ := hl
  case h_1 pc | h_2 k pc =>
    simp only [threadAction, lifecycleAction, Option.map_map, Option.map_eq_some_iff, Prod.mk.injEq] at h
    obtain ⟨⟨s₁, r⟩, hp, rfl, -⟩ := h
    exact ⟨s₁, r, hp, .refl s₁⟩
  all_goals simp only [threadAction, pumpAction, adapterAction, Option.map_map, Option.map_eq_some_iff] at h
  all_goals obtain ⟨⟨s₁, r⟩, hp, h⟩ := h
  all_goals refine ⟨s₁, r, hp, ?_⟩
  all_goals simp only [Function.comp_apply] at h
  all_goals repeat' split at h
  all_goals simp only [Prod.mk.injEq] at h
  all_goals obtain ⟨rfl, -⟩ := h
  all_goals rename_i heq
  all_goals cases heq
  all_goals exact ⟨rfl, rfl, rfl, rfl, rfl, rfl, rfl, rfl, rfl, rfl⟩

/-- A thread that is in `markInterfaceStale` takes a step of it. -/
theorem thread_stale {pc : StalePc} (h : threadAction t a s l = some (s', l')) (hl : l.inStale = some pc) :
    ∃ r, staleAction a s pc = some (s', r) := by
  unfold Pc.inStale at hl
  split at hl
  all_goals simp only [Option.some.injEq, reduceCtorEq] at hl
  all_goals subst hl
  all_goals simp only [threadAction, syncAction, lifecycleAction, Option.map_map, Option.map_eq_some_iff,
    Function.comp_apply, Prod.mk.injEq] at h
  all_goals obtain ⟨⟨s₁, r⟩, hp, rfl, -⟩ := h
  all_goals exact ⟨r, hp⟩

/-- Nothing else changes whether an invalidation has completed. -/
theorem thread_invalidated (h : threadAction t a s l = some (s', l')) (hreq : l.inRequest = none)
    (hst : l.inStale = none) (hl : l.refreshes = false) : s'.invalidated = s.invalidated := by
  cases threadStep h
  case create ha => exact connect_invalidated ha
  case sync pc pc' creating ha =>
    replace ha := syncAction_step ha
    cases ha
    case mark | fail => simp [Pc.inStale] at hst
    case enableFresh => simp [Pc.refreshes] at hl
    case connect hp => exact connect_invalidated hp
    case discover hp => exact discover_invalidated hp
    case staged ports _ _ => exact (SameAccess.of_stagePorts ports).invalidated
    case replace staged => exact (SameAccess.of_replacePortAdapters staged.ports).invalidated
    all_goals rfl
  case lifecycle pc pc' ha =>
    replace ha := lifecycleAction_step ha
    cases ha
    case call => simp [Pc.inRequest] at hreq
    case mark => simp [Pc.inStale] at hst
    all_goals rfl
  case request => simp [Pc.inRequest] at hreq
  case pump pc pc' ha =>
    replace ha := pumpAction_step ha
    cases ha
    case pump hp =>
      replace hp := adapterAction_step hp
      cases hp
      case write | written | notWritten | read | wasRead | notRead => simp [Pc.inRequest] at hreq
      all_goals rfl
    all_goals rfl
  all_goals rfl

theorem refreshes_of_completes (h : l.completesInvalidation = true) : l.refreshes = false := by
  unfold Pc.refreshes
  split
  · simp [Pc.completesInvalidation, Pc.invalidating, Pc.inRequest, Pc.inStale] at h
  · rfl

theorem inStale_of_inRequest {r : Request × RequestPc} (h : l.inRequest = some r) : l.inStale = none := by
  unfold Pc.inRequest at h
  split at h
  all_goals simp_all [Pc.inStale]

/-- An invalidation lasts until `markInterfaceFresh`. -/
theorem invalidated_step (h : threadAction t a s l = some (s', l')) (hl : l.refreshes = false)
    (hs : l.completesInvalidation = true ∨ s.invalidated = true) : s'.invalidated = true := by
  cases hreq : l.inRequest with
  | some kpc =>
      obtain ⟨k, pc⟩ := kpc
      obtain ⟨s₁, r, hp, e⟩ := thread_request h hreq
      rw [e.invalidated]
      refine request_invalidated hp ?_
      simp only [Pc.completesInvalidation, Pc.invalidating, hreq, inStale_of_inRequest hreq] at hs
      cases pc
      all_goals simp_all
  | none =>
      cases hst : l.inStale with
      | some pc =>
          obtain ⟨r, hp⟩ := thread_stale h hst
          exact stale_invalidated hp (by simpa [Pc.completesInvalidation, Pc.invalidating, hreq, hst] using hs)
      | none =>
          rw [thread_invalidated h hreq hst hl]
          simpa [Pc.completesInvalidation, Pc.invalidating, hreq, hst] using hs

end Invalidated

end RttOpcua.Proxy
