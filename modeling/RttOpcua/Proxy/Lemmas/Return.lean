import RttOpcua.Lib.Progress
import RttOpcua.Proxy.Lemmas.Pause

/-!
# How far a call is from its return

The points at which a thread waits for another one, and how many actions its call takes at most when it does not have to
wait.
-/

namespace RttOpcua.Proxy

open RttOpcua.Lib Threads

/-! ## Points that wait -/

/-- The next step takes `synchronize_mutex`. -/
def Pc.waitsSynchronizeMutex : Pc → Bool
  | .sync .lock _ => true
  | .lifecycle .lock => true
  | _ => false

/-- The call has returned, or the proxy is destroyed. The pump makes no calls. -/
def Pc.atRest : Pc → Bool
  | .idle => true
  | .gone => true
  | .pump _ => true
  | _ => false

def SyncPc.stages : SyncPc → Bool
  | .stage _ => true
  | _ => false

/-- The next step goes on with the staging, by another discovery request or by its end. -/
def Pc.stages : Pc → Bool
  | .sync pc _ => pc.stages
  | _ => false

/-- Of `n` discovery requests a step leaves `n'`. -/
def Spends (stages : Bool) (a : Choice) (n n' : Nat) : Prop := if stages = true ∧ a = .go then n = n' + 1 else n' = n

theorem waits_of_holdsMutex {l : Pc} (h : l.holdsMutex = true) : l.waitsSynchronizeMutex = false ∧ l.pauses = false := by
  cases l
  case sync pc creating | lifecycle pc =>
    cases pc
    all_goals first | cases h | exact ⟨rfl, rfl⟩
  all_goals exact ⟨rfl, rfl⟩

theorem holdsSynchronizeMutex_of_waits {l : Pc} (h : l.waitsSynchronizeMutex = true) :
    l.holdsSynchronizeMutex = false := by
  cases l
  case sync pc creating | lifecycle pc =>
    cases pc
    case lock => rfl
    all_goals cases h
  all_goals cases h

theorem free_of_atRest {l : Pc} (hpump : ∀ pc, l ≠ .pump pc) (h : l.atRest = true ∨ l = .join) :
    l.holdsMutex = false ∧ l.holdsSynchronizeMutex = false := by
  cases l
  case idle | gone | join => exact ⟨rfl, rfl⟩
  case pump pc => exact absurd rfl (hpump pc)
  all_goals rcases h with h | h
  all_goals cases h

/-! ## Actions left -/

def RequestPc.left : RequestPc → Nat
  | .lock _ => 8
  | .access => 7
  | .state _ => 6
  | .send _ => 5
  | .reply => 4
  | .disable => 3
  | .stale => 2
  | .unlock _ => 1

def ConnectPc.left : ConnectPc → Nat
  | .lock => 4
  | .start => 3
  | .dial => 2
  | .unlock _ => 1

def DiscoverPc.left : DiscoverPc → Nat
  | .lock => 5
  | .state => 4
  | .send => 3
  | .reply => 2
  | .unlock _ => 1

/-- With `p` adapters to discard. -/
def StalePc.left (p : Nat) : StalePc → Nat
  | .mark => p + 8
  | .disable => p + 7
  | .disableLocked => p + 6
  | .pause => p + 5
  | .pauseWait => p + 4
  | .adapters => p + 3
  | .discard rest => rest.length + 1

/-- With `n` discovery requests to come. -/
def SyncPc.left (p n : Nat) : SyncPc → Nat
  | .lock => 2 * p + 6 * n + 40
  | .context => 2 * p + 6 * n + 39
  | .disable => 2 * p + 6 * n + 38
  | .disableLocked => 2 * p + 6 * n + 37
  | .pause => 2 * p + 6 * n + 36
  | .pauseWait => 2 * p + 6 * n + 35
  | .entry => 2 * p + 6 * n + 34
  | .test _ => 2 * p + 6 * n + 33
  | .mark pc _ => pc.left p + p + 6 * n + 24
  | .restorable _ => p + 6 * n + 23
  | .connect pc _ => pc.left + p + 6 * n + 18
  | .stage _ => p + 6 * n + 18
  | .discover pc _ => pc.left + p + 6 * n + 18
  | .canReplace _ _ => p + 17
  | .connected => 4
  | .enable => 3
  | .unready _ => p + 16
  | .install _ => p + 15
  | .replace _ => 6
  | .ready => 5
  | .enableFresh => 4
  | .fresh => 3
  | .fail pc => pc.left p + 2
  | .resume _ => 2
  | .unlock _ => 1

def LifecyclePc.left (p : Nat) : LifecyclePc → Nat
  | .lock => p + 22
  | .ready => p + 21
  | .stale _ => p + 20
  | .call pc => pc.left + p + 11
  | .result => p + 10
  | .mark pc => pc.left p + 1
  | .unlock => 1

def AdapterPc.left : AdapterPc → Nat
  | .input => 10
  | .encode => 9
  | .write pc => pc.left
  | .output => 12
  | .read pc => pc.left + 2
  | .decode => 2
  | .deliver => 1

/-- Until the next pass. -/
def PumpPc.left : PumpPc → Nat
  | .wait => 0
  | .next rest => 14 * rest.length + 2
  | .pump pc _ rest => pc.left + 14 * rest.length + 2
  | .interval => 1
  | .gone => 0

def Pc.left (p n : Nat) : Pc → Nat
  | .create pc => pc.left + 2 * p + 6 * n + 40
  | .sync pc _ => pc.left p n
  | .lifecycle pc => pc.left p
  | .request _ pc => pc.left
  | .stop => 2
  | .join => 1
  | .pump pc => pc.left
  | _ => 0

section Actions

variable {t : Thread} {a : Choice} {s s' : Shared} {l l' : Pc} {n n' : Nat}

theorem request_left {k : Request} {pc : RequestPc} {r : RequestPc ⊕ Answer}
    (h : requestAction t k a s pc = some (s', r)) :
    r.elim RequestPc.left (fun _ => 0) < pc.left ∧ s'.portAdapters = s.portAdapters := by
  cases requestAction_step h
  all_goals exact ⟨by simp [RequestPc.left], rfl⟩

theorem connect_left {pc : ConnectPc} {r : ConnectPc ⊕ Bool} (h : connectAction t a s pc = some (s', r)) :
    r.elim ConnectPc.left (fun _ => 0) < pc.left ∧ s'.portAdapters = s.portAdapters := by
  cases connectAction_step h
  all_goals exact ⟨by simp [ConnectPc.left], rfl⟩

theorem discover_left {pc : DiscoverPc} {r : DiscoverPc ⊕ Bool} (h : discoverAction t a s pc = some (s', r)) :
    r.elim DiscoverPc.left (fun _ => 0) < pc.left ∧ s'.portAdapters = s.portAdapters := by
  cases discoverAction_step h
  all_goals exact ⟨by simp [DiscoverPc.left], rfl⟩

theorem stale_left {pc : StalePc} {r : Option StalePc} (h : staleAction a s pc = some (s', r)) :
    r.elim 0 (StalePc.left s.portAdapters.length) < pc.left s.portAdapters.length ∧
      s'.portAdapters = s.portAdapters := by
  cases staleAction_step h
  all_goals exact ⟨by simp [StalePc.left], rfl⟩

theorem sync_left {pc : SyncPc} {r : SyncPc ⊕ Bool} (hn : Spends pc.stages a n n')
    (h : syncAction t a s pc = some (s', r)) :
    r.elim (SyncPc.left s'.portAdapters.length n') (fun _ => 0) < pc.left s.portAdapters.length n := by
  cases syncAction_step h
  case mark pc entry r hp | fail pc r hp =>
    obtain ⟨hless, hports⟩ := stale_left hp
    obtain rfl : n' = n := hn
    rw [hports]
    cases r
    all_goals simp [SyncPc.left] at hless ⊢
    all_goals omega
  case connect pc restore r hp =>
    obtain ⟨hless, hports⟩ := connect_left hp
    obtain rfl : n' = n := hn
    rw [hports]
    cases r
    case inl pc' =>
      simp [SyncPc.left] at hless ⊢
      omega
    case inr ok =>
      cases ok
      all_goals simp [SyncPc.left, StalePc.left] at hless ⊢
      all_goals omega
  case discover pc restore r hp =>
    obtain ⟨hless, hports⟩ := discover_left hp
    obtain rfl : n' = n := hn
    rw [hports]
    cases r
    case inl pc' =>
      simp [SyncPc.left] at hless ⊢
      omega
    case inr ok =>
      cases ok
      all_goals simp [SyncPc.left, StalePc.left] at hless ⊢
      all_goals omega
  case stage restore ha =>
    obtain rfl : n = n' + 1 := by simpa [Spends, SyncPc.stages, ha] using hn
    simp [SyncPc.left, DiscoverPc.left]
    omega
  case staged restore ports ha hnodup =>
    obtain rfl : n' = n := by simpa [Spends, SyncPc.stages, ha] using hn
    have hports : (s.stagePorts ports).portAdapters = s.portAdapters := (stagePorts_spec ports s).2.1
    simp only [SyncPc.left, Sum.elim_inl, hports]
    omega
  all_goals simp [SyncPc.left, StalePc.left, ConnectPc.left]
  all_goals grind [Spends, SyncPc.stages]

theorem lifecycle_left {pc : LifecyclePc} {r : Option LifecyclePc} (h : lifecycleAction t a s pc = some (s', r)) :
    r.elim 0 (LifecyclePc.left s'.portAdapters.length) < pc.left s.portAdapters.length := by
  cases lifecycleAction_step h
  case call pc r hp =>
    obtain ⟨hless, hports⟩ := request_left hp
    rw [hports]
    cases r
    case inl pc' =>
      simp [LifecyclePc.left] at hless ⊢
      omega
    case inr answer =>
      cases answer
      all_goals simp [LifecyclePc.left, StalePc.left] at hless ⊢
      all_goals omega
  case mark pc r hp =>
    obtain ⟨hless, hports⟩ := stale_left hp
    rw [hports]
    cases r
    all_goals simp [LifecyclePc.left] at hless ⊢
    all_goals omega
  case start =>
    simp [LifecyclePc.left, RequestPc.left]
    omega
  all_goals simp [LifecyclePc.left, StalePc.left]

theorem adapter_left {x : Nat} {pc : AdapterPc} {r : Option AdapterPc} (h : adapterAction t a s x pc = some (s', r)) :
    r.elim 0 AdapterPc.left < pc.left := by
  cases adapterAction_step h
  case write hp | written hp | notWritten hp | read hp | wasRead hp | notRead hp =>
    obtain ⟨hless, -⟩ := request_left hp
    simp [AdapterPc.left] at hless ⊢
    all_goals omega
  all_goals simp [AdapterPc.left, RequestPc.left]

theorem pump_left {pc pc' : PumpPc} (hwait : pc ≠ .wait) (h : pumpAction t a s pc = some (s', pc')) :
    pc'.left < pc.left := by
  cases pumpAction_step h
  case stop | wait => exact absurd rfl hwait
  case next x rest hstop =>
    have hbegin : (s.adapter x).pump.left ≤ 12 := by
      unfold RemotePortAdapter.pump
      split
      all_goals simp [AdapterPc.left]
    simp [PumpPc.left]
    omega
  case pump pc x rest r hp =>
    have hless := adapter_left hp
    cases r
    all_goals simp [PumpPc.left] at hless ⊢
    all_goals omega
  all_goals simp [PumpPc.left]

/-- Every action brings a call closer to its return. -/
theorem thread_left (hidle : l ≠ .idle) (hwait : l ≠ .pump .wait) (hn : Spends l.stages a n n')
    (h : threadAction t a s l = some (s', l')) :
    l'.left s'.portAdapters.length n' < l.left s.portAdapters.length n := by
  cases threadStep h
  case enterSync | enterLifecycle | enterRequest | enterStop => exact absurd rfl hidle
  case create pc r hp =>
    obtain ⟨hless, hports⟩ := connect_left hp
    obtain rfl : n' = n := hn
    rw [hports]
    cases r
    case inl pc' =>
      simp [Pc.left] at hless ⊢
      omega
    case inr ok =>
      cases ok
      all_goals simp [Pc.left, SyncPc.left] at hless ⊢
      all_goals omega
  case sync pc pc' creating hp => exact sync_left hn hp
  case syncReturn r creating =>
    cases r
    all_goals cases creating
    all_goals simp [Pc.left, SyncPc.left]
  case lifecycle pc r hp =>
    have hless := lifecycle_left hp
    cases r
    all_goals exact hless
  case request k pc r hp =>
    have hless := (request_left hp).1
    cases r
    all_goals exact hless
  case pump pc pc' hp => exact pump_left (fun hpc => hwait (congrArg Pc.pump hpc)) hp
  all_goals simp [Pc.left]

/-! ## Actions that are enabled -/

theorem request_enabled {k : Request} (pc : RequestPc) (hm : pc.holds = false → s.mutex = none) :
    ∃ r, requestAction t k (.reply .good) s pc = some r := by
  cases pc
  case lock start => simp [requestAction, hm rfl]
  all_goals simp only [requestAction]
  all_goals repeat' split
  all_goals exact ⟨_, rfl⟩

theorem connect_enabled (pc : ConnectPc) (hm : pc.holds = false → s.mutex = none) :
    ∃ r, connectAction t a s pc = some r := by
  cases pc
  case lock => simp [connectAction, hm rfl]
  all_goals simp only [connectAction]
  all_goals repeat' split
  all_goals exact ⟨_, rfl⟩

theorem discover_enabled (pc : DiscoverPc) (hm : pc.holds = false → s.mutex = none) :
    ∃ r, discoverAction t a s pc = some r := by
  cases pc
  case lock => simp [discoverAction, hm rfl]
  all_goals simp only [discoverAction]
  all_goals repeat' split
  all_goals exact ⟨_, rfl⟩

theorem stale_enabled (pc : StalePc) (hm : s.mutex = none) (hp : pc = .pauseWait → s.portsPumping = false) :
    ∃ r, staleAction a s pc = some r := by
  cases pc
  case disableLocked => simp [staleAction, hm]
  case pauseWait => simp [staleAction, hp rfl]
  case discard rest =>
    cases rest
    all_goals simp [staleAction]
  all_goals simp [staleAction]

theorem lifecycle_enabled (pc : LifecyclePc) (hm : pc.holdsMutex = false → s.mutex = none)
    (hs : pc = .lock → s.synchronizeMutex = none) (hp : (Pc.lifecycle pc).pauses = true → s.portsPumping = false) :
    ∃ r, lifecycleAction t (.reply .good) s pc = some r := by
  cases pc
  case lock => simp [lifecycleAction, hs rfl]
  case call pc =>
    obtain ⟨r, hr⟩ := request_enabled (t := t) (k := .callOperation) pc hm
    simp [lifecycleAction, hr]
  case mark pc =>
    obtain ⟨r, hr⟩ := stale_enabled (a := .reply .good) pc (hm rfl) fun hpc =>
      hp (by simp [hpc, Pc.pauses, Pc.inStale])
    simp [lifecycleAction, hr]
  all_goals simp [lifecycleAction]

theorem adapter_enabled {x : Nat} {rest : List Nat} {pc : AdapterPc}
    (hm : (PumpPc.pump pc x rest).holdsMutex = false → s.mutex = none) :
    ∃ r, adapterAction t (.reply .good) s x pc = some r := by
  cases pc
  case write pc =>
    obtain ⟨r, hr⟩ := request_enabled (t := t) (k := .writePortValue) pc hm
    simp [adapterAction, hr]
  case read pc =>
    obtain ⟨r, hr⟩ := request_enabled (t := t) (k := .readPortValue) pc hm
    simp [adapterAction, hr]
  all_goals simp only [adapterAction]
  all_goals repeat' split
  all_goals exact ⟨_, rfl⟩

/-- A pass never waits but for the `mutex_` of the session. -/
theorem pump_enabled {pc : PumpPc} (hm : pc.holdsMutex = false → s.mutex = none) (hpass : pc.inPass = true) :
    ∃ r, pumpAction t (.reply .good) s pc = some r := by
  cases pc
  case next rest =>
    cases rest
    case nil => simp [pumpAction]
    case cons x rest =>
      simp only [pumpAction]
      split
      all_goals exact ⟨_, rfl⟩
  case pump pc x rest =>
    obtain ⟨r, hr⟩ := adapter_enabled (t := t) hm
    simp [pumpAction, hr]
  all_goals cases hpass

theorem sync_enabled (pc : SyncPc) {creating : Bool} (hm : pc.holdsMutex = false → s.mutex = none)
    (hs : pc = .lock → s.synchronizeMutex = none) (hp : (Pc.sync pc creating).pauses = true → s.portsPumping = false) :
    ∃ r, syncAction t a s pc = some r := by
  cases pc
  case lock => simp [syncAction, hs rfl]
  case disableLocked | enable | enableFresh => simp [syncAction, hm rfl]
  case pauseWait => simp [syncAction, hp rfl]
  case mark pc entry | fail pc =>
    obtain ⟨r, hr⟩ := stale_enabled (a := a) pc (hm rfl) fun hpc => hp (by simp [hpc, Pc.pauses, Pc.inStale])
    simp [syncAction, hr]
  case connect pc restore =>
    obtain ⟨r, hr⟩ := connect_enabled (t := t) (a := a) pc hm
    simp [syncAction, hr]
  case discover pc restore =>
    obtain ⟨r, hr⟩ := discover_enabled (t := t) (a := a) pc hm
    simp [syncAction, hr]
  all_goals simp only [syncAction]
  all_goals repeat' split
  all_goals exact ⟨_, rfl⟩

/-- A call that does not have to wait goes on, whatever the state of the session and the ports. -/
theorem thread_enabled (hrest : l.atRest = false) (hjoin : l ≠ .join) (hm : l.holdsMutex = false → s.mutex = none)
    (hs : l.waitsSynchronizeMutex = true → s.synchronizeMutex = none) (hp : l.pauses = true → s.portsPumping = false) :
    ∃ r, threadAction t (.reply .good) s l = some r := by
  cases l
  case create pc =>
    obtain ⟨r, hr⟩ := connect_enabled (t := t) (a := .reply .good) pc hm
    simp [threadAction, hr]
  case sync pc creating =>
    obtain ⟨r, hr⟩ := sync_enabled (t := t) (a := .reply .good) pc hm
      (fun hpc => hs (by simp [hpc, Pc.waitsSynchronizeMutex])) hp
    simp [threadAction, hr]
  case lifecycle pc =>
    obtain ⟨r, hr⟩ := lifecycle_enabled (t := t) pc hm
      (fun hpc => hs (by simp [hpc, Pc.waitsSynchronizeMutex])) hp
    simp [threadAction, hr]
  case request k pc =>
    obtain ⟨r, hr⟩ := request_enabled (t := t) (k := k) pc hm
    simp [threadAction, hr]
  case stop => simp [threadAction]
  case join => exact absurd rfl hjoin
  all_goals cases hrest

end Actions

/-! ## The end of the pump -/

/-- What was stopped stays so. -/
structure KeepsStop (s s' : Shared) : Prop where
  stopRequested : s'.stopRequested = s.stopRequested ∨ s'.stopRequested = true
  pumpGone : s'.pumpGone = s.pumpGone ∨ s'.pumpGone = true

theorem KeepsStop.of_eq {s s' : Shared} (hstop : s'.stopRequested = s.stopRequested) (hgone : s'.pumpGone = s.pumpGone) :
    KeepsStop s s' := ⟨.inl hstop, .inl hgone⟩

section Stop

variable {t : Thread} {a : Choice} {s s' : Shared} {l l' : Pc}

theorem request_stop {k : Request} {pc : RequestPc} {r : RequestPc ⊕ Answer}
    (h : requestAction t k a s pc = some (s', r)) : KeepsStop s s' := by
  cases requestAction_step h
  all_goals exact .of_eq rfl rfl

theorem stale_stop {pc : StalePc} {r : Option StalePc} (h : staleAction a s pc = some (s', r)) : KeepsStop s s' := by
  cases staleAction_step h
  all_goals exact .of_eq rfl rfl

theorem stagePorts_stop (ports : List PortDescription) : KeepsStop s (s.stagePorts ports) := by
  unfold Shared.stagePorts
  induction ports generalizing s with
  | nil => exact .of_eq rfl rfl
  | cons d ports ih =>
      obtain ⟨hstop, hgone⟩ := ih (s := s.stagePort d)
      exact ⟨hstop, hgone⟩

theorem transferPendingState_stop (x : Nat) (ys : List Nat) :
    (s.transferPendingState x ys).stopRequested = s.stopRequested ∧
      (s.transferPendingState x ys).pumpGone = s.pumpGone := by
  induction ys with
  | nil => exact ⟨rfl, rfl⟩
  | cons y ys ih =>
      unfold Shared.transferPendingState
      split
      · exact ⟨rfl, rfl⟩
      · exact ih

theorem replacePortAdapters_stop (ports : List Nat) : KeepsStop s (s.replacePortAdapters ports) := by
  have hfold : ∀ (xs : List Nat) (s : Shared),
      (xs.foldl (fun r x => r.transferPendingState x ports) s).stopRequested = s.stopRequested ∧
        (xs.foldl (fun r x => r.transferPendingState x ports) s).pumpGone = s.pumpGone := by
    intro xs
    induction xs with
    | nil => exact fun s => ⟨rfl, rfl⟩
    | cons x xs ih =>
        intro s
        obtain ⟨hstop, hgone⟩ := ih (s.transferPendingState x ports)
        obtain ⟨hstop', hgone'⟩ := transferPendingState_stop (s := s) x ports
        exact ⟨hstop.trans hstop', hgone.trans hgone'⟩
  exact .of_eq (hfold s.portAdapters s).1 (hfold s.portAdapters s).2

theorem sync_stop {pc : SyncPc} {r : SyncPc ⊕ Bool} (h : syncAction t a s pc = some (s', r)) : KeepsStop s s' := by
  cases syncAction_step h
  case mark hp | fail hp => exact stale_stop hp
  case connect hp =>
    cases connectAction_step hp
    all_goals exact .of_eq rfl rfl
  case discover hp =>
    cases discoverAction_step hp
    all_goals exact .of_eq rfl rfl
  case staged restore ports ha hnodup =>
    have hports : KeepsStop s (s.stagePorts ports) := stagePorts_stop ports
    exact ⟨hports.1, hports.2⟩
  case replace staged => exact replacePortAdapters_stop staged.ports
  all_goals exact .of_eq rfl rfl

theorem lifecycle_stop {pc : LifecyclePc} {r : Option LifecyclePc} (h : lifecycleAction t a s pc = some (s', r)) :
    KeepsStop s s' := by
  cases lifecycleAction_step h
  case call hp => exact request_stop hp
  case mark hp => exact stale_stop hp
  all_goals exact .of_eq rfl rfl

theorem pump_stop {pc pc' : PumpPc} (h : pumpAction t a s pc = some (s', pc')) :
    KeepsStop s s' ∧ (pc' = .gone → s'.pumpGone = true) := by
  cases pumpAction_step h
  case stop => exact ⟨⟨.inl rfl, .inr rfl⟩, fun _ => rfl⟩
  case pump pc x rest r hp =>
    refine ⟨?_, fun hpc => ?_⟩
    · replace hp := adapterAction_step hp
      cases hp
      case write hp | written hp | notWritten hp | read hp | wasRead hp | notRead hp =>
        have hkeeps := request_stop hp
        exact ⟨hkeeps.1, hkeeps.2⟩
      all_goals exact .of_eq rfl rfl
    · cases r
      all_goals cases hpc
  all_goals exact ⟨.of_eq rfl rfl, nofun⟩

/-- A thread waits for the end of the pump after it has asked for it, and a pump that has ended has said so. -/
def StopFacts (l : Pc) (s : Shared) : Prop :=
  (l = .join → s.stopRequested = true) ∧ (l = .pump .gone → s.pumpGone = true)

theorem StopFacts.keep (hf : StopFacts l s) (hkeeps : KeepsStop s s') : StopFacts l s' := by
  refine ⟨fun hl => ?_, fun hl => ?_⟩
  · rcases hkeeps.stopRequested with heq | h
    · rw [heq, hf.1 hl]
    · exact h
  · rcases hkeeps.pumpGone with heq | h
    · rw [heq, hf.2 hl]
    · exact h

theorem thread_stop (h : threadAction t a s l = some (s', l')) : KeepsStop s s' ∧ StopFacts l' s' := by
  cases threadStep h
  case enterSync | enterLifecycle | enterRequest | enterStop | join => exact ⟨.of_eq rfl rfl, nofun, nofun⟩
  case stop => exact ⟨⟨.inr rfl, .inl rfl⟩, fun _ => rfl, nofun⟩
  case create pc r hp =>
    refine ⟨?_, ?_⟩
    · cases connectAction_step hp
      all_goals exact .of_eq rfl rfl
    · cases r with
      | inl pc' => exact ⟨nofun, nofun⟩
      | inr ok =>
          cases ok
          all_goals exact ⟨nofun, nofun⟩
  case sync pc pc' creating hp => exact ⟨sync_stop hp, nofun, nofun⟩
  case syncReturn r creating =>
    refine ⟨.of_eq rfl rfl, ?_⟩
    split
    all_goals exact ⟨nofun, nofun⟩
  case lifecycle pc r hp =>
    refine ⟨lifecycle_stop hp, ?_⟩
    cases r
    all_goals exact ⟨nofun, nofun⟩
  case request k pc r hp =>
    refine ⟨request_stop hp, ?_⟩
    cases r
    all_goals exact ⟨nofun, nofun⟩
  case pump pc pc' hp =>
    obtain ⟨hkeeps, hgone⟩ := pump_stop hp
    exact ⟨hkeeps, nofun, fun hl => hgone (Pc.pump.inj hl)⟩

end Stop

theorem stop_reachable {c : Config Thread Shared Pc} (h : program.Reachable c) (t : Thread) :
    StopFacts (c.frame t) c.shared := by
  refine ReachFrom.preserves (Q := fun d => ∀ t, StopFacts (d.frame t) d.shared) ?_ h ?_ t
  · intro d u a d' hd _ hn v
    obtain ⟨s', l', ha, rfl⟩ := next_eq_some.mp hn
    obtain ⟨hkeeps, hfacts⟩ := thread_stop ha
    by_cases hvu : v = u
    · subst hvu
      simpa using hfacts
    · simpa [hvu] using (hd v).keep hkeeps
  · intro u
    cases u with
    | app n =>
        cases n
        all_goals exact ⟨nofun, nofun⟩
    | pump => exact ⟨nofun, nofun⟩

end RttOpcua.Proxy
