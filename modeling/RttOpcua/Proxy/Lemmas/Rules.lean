import RttOpcua.Proxy.Step

/-!
# Actions by rules

What one action of a function of the proxy does, with one rule for each branch. A rule of a function that calls another
has the action of the callee.
-/

namespace RttOpcua.Proxy

open RttOpcua.Lib

section Rules

variable (t : Thread) (a : Choice) (s : Shared)

/-! ## Requests -/

inductive RequestStep (k : Request) : RequestPc → Shared → RequestPc ⊕ Answer → Prop
  | lockAccess {start} : s.mutex = none → k.requiresInterfaceAccess = true →
      RequestStep k (.lock start) { s with mutex := some t } (.inl .access)
  | lock {start} : s.mutex = none → k.requiresInterfaceAccess = false →
      RequestStep k (.lock start) { s with mutex := some t } (.inl (.state start))
  | access : s.interfaceAccessEnabled = true →
      RequestStep k .access s (.inl (.state ⟨s.interfaceReady, s.interfaceAccessEnabled⟩))
  | noAccess : s.interfaceAccessEnabled = false → RequestStep k .access s (.inl (.unlock .failed))
  | state {start} : s.client = true → s.state = .connected → RequestStep k (.state start) s (.inl (.send start))
  | notConnected {start} : ¬ (s.client = true ∧ s.state = .connected) →
      RequestStep k (.state start) s (.inl (.unlock .failed))
  | send {start} : RequestStep k (.send start) s (.inl .reply)
  | invalid {r} : a = .reply r → k.invalidates r = true → RequestStep k .reply s (.inl .disable)
  | reply {r} : a = .reply r → k.invalidates r = false → RequestStep k .reply s (.inl (.unlock (k.answer r)))
  | disable : RequestStep k .disable { s with interfaceAccessEnabled := false } (.inl .stale)
  | stale : RequestStep k .stale { s with state := .stale, shut := true, invalidated := true } (.inl (.unlock .failed))
  | unlock {r} : RequestStep k (.unlock r) { s with mutex := none } (.inr r)

inductive ConnectStep : ConnectPc → Shared → ConnectPc ⊕ Bool → Prop
  | lock : s.mutex = none → ConnectStep .lock { s with mutex := some t } (.inl .start)
  | start : ConnectStep .start { s with state := .connecting, client := false } (.inl .dial)
  | dial : a = .go → ConnectStep .dial { s with state := .connected, client := true } (.inl (.unlock true))
  | dialFails : a ≠ .go → ConnectStep .dial { s with state := .disconnected, client := false } (.inl (.unlock false))
  | unlock {ok} : ConnectStep (.unlock ok) { s with mutex := none } (.inr ok)

inductive DiscoverStep : DiscoverPc → Shared → DiscoverPc ⊕ Bool → Prop
  | lock : s.mutex = none → DiscoverStep .lock { s with mutex := some t } (.inl .state)
  | state : s.client = true → s.state = .connected → DiscoverStep .state s (.inl .send)
  | notConnected : ¬ (s.client = true ∧ s.state = .connected) → DiscoverStep .state s (.inl (.unlock false))
  | send : DiscoverStep .send s (.inl .reply)
  | reply : a = .go → DiscoverStep .reply s (.inl (.unlock true))
  | throws : a = .raise → DiscoverStep .reply { s with state := .stale } (.inl (.unlock false))
  | fails : a ≠ .go → a ≠ .raise → DiscoverStep .reply s (.inl (.unlock false))
  | unlock {ok} : DiscoverStep (.unlock ok) { s with mutex := none } (.inr ok)

/-! ## `markInterfaceStale` -/

inductive StaleStep : StalePc → Shared → Option StalePc → Prop
  | mark : StaleStep .mark { s with interfaceStale := true } (some .disable)
  | disable : StaleStep .disable { s with interfaceAccessEnabled := false, enabled := false } (some .disableLocked)
  | disableLocked : s.mutex = none →
      StaleStep .disableLocked { s with interfaceAccessEnabled := false, shut := true } (some .pause)
  | pause : StaleStep .pause { s with portsPaused := true } (some .pauseWait)
  | pauseWait : s.portsPumping = false → StaleStep .pauseWait s (some .adapters)
  | throws : a = .raise → StaleStep .adapters s (some (.discard []))
  | adapters : a ≠ .raise → StaleStep .adapters s (some (.discard s.portAdapters))
  | discard {x rest} :
      StaleStep (.discard (x :: rest)) (s.modifyAdapter x RemotePortAdapter.discardPendingState) (some (.discard rest))
  | discarded : StaleStep (.discard []) { s with invalidated := true } none

/-! ## `synchronize` -/

inductive SyncStep : SyncPc → Shared → SyncPc ⊕ Bool → Prop
  | lock : s.synchronizeMutex = none → SyncStep .lock { s with synchronizeMutex := some t } (.inl .context)
  | throws : a = .raise → SyncStep .context s (.inl (.unlock false))
  | context : a ≠ .raise → SyncStep .context s (.inl .disable)
  | disable : SyncStep .disable { s with interfaceAccessEnabled := false, enabled := false } (.inl .disableLocked)
  | disableLocked : s.mutex = none →
      SyncStep .disableLocked { s with interfaceAccessEnabled := false, shut := true } (.inl .pause)
  | pause : SyncStep .pause { s with portsPaused := true } (.inl .pauseWait)
  | pauseWait : s.portsPumping = false → SyncStep .pauseWait s (.inl .entry)
  | entry : SyncStep .entry s (.inl (.test s.state))
  | testMark {entry} : s.interfaceReady = true → entry ≠ .connected → s.interfaceStale = false →
      SyncStep (.test entry) s (.inl (.mark .mark entry))
  | test {entry} : ¬ (s.interfaceReady = true ∧ entry ≠ .connected ∧ s.interfaceStale = false) →
      SyncStep (.test entry) s (.inl (.restorable entry))
  | mark {pc entry r s'} : staleAction a s pc = some (s', r) →
      SyncStep (.mark pc entry) s' (.inl (r.elim (.restorable entry) fun pc' => .mark pc' entry))
  | reconnect {entry} : entry ≠ .connected →
      SyncStep (.restorable entry) s
        (.inl (.connect .lock (s.interfaceReady && !s.interfaceStale && entry = .connected)))
  | restorable {entry} : entry = .connected →
      SyncStep (.restorable entry) s (.inl (.stage (s.interfaceReady && !s.interfaceStale && entry = .connected)))
  | connect {pc restore r s'} : connectAction t a s pc = some (s', r) →
      SyncStep (.connect pc restore) s'
        (.inl (r.elim (fun pc' => .connect pc' restore) fun ok => if ok then .stage restore else .fail .mark))
  | stage {restore} : a = .go → SyncStep (.stage restore) s (.inl (.discover .lock restore))
  | staged {restore ports} : a = .staged ports → (ports.map fun d => (d.servicePath, d.name)).Nodup →
      SyncStep (.stage restore) { s.stagePorts ports with nextMirror := s.nextMirror + 1 }
        (.inl (.canReplace ⟨s.nextMirror, (List.range ports.length).map (s.nextAdapter + ·)⟩ restore))
  | duplicate {restore ports} : a = .staged ports → ¬ (ports.map fun d => (d.servicePath, d.name)).Nodup →
      SyncStep (.stage restore) s (.inl (.fail .mark))
  | stageFails {restore} : a ≠ .go → (∀ ports, a ≠ .staged ports) → SyncStep (.stage restore) s (.inl (.fail .mark))
  | discover {pc restore r s'} : discoverAction t a s pc = some (s', r) →
      SyncStep (.discover pc restore) s'
        (.inl (r.elim (fun pc' => .discover pc' restore) fun ok => if ok then .stage restore else .fail .mark))
  | canReplace {staged restore} : s.canReplacePortAdapters staged.ports = true →
      SyncStep (.canReplace staged restore) s (.inl (.unready staged))
  | restore {staged} : s.canReplacePortAdapters staged.ports = false →
      SyncStep (.canReplace staged true) s (.inl .connected)
  | keep {staged} : s.canReplacePortAdapters staged.ports = false →
      SyncStep (.canReplace staged false) s (.inl (.resume false))
  | connected : s.state = .connected → SyncStep .connected s (.inl .enable)
  | lost : s.state ≠ .connected → SyncStep .connected s (.inl (.resume false))
  | enable : s.mutex = none →
      SyncStep .enable { s with interfaceAccessEnabled := true, enabled := true, shut := false } (.inl (.resume false))
  | unready {staged} : SyncStep (.unready staged) { s with interfaceReady := false } (.inl (.install staged))
  | install {staged} : a = .go →
      SyncStep (.install staged) { s with mirror := some staged.mirror } (.inl (.replace staged))
  | installFails {staged} : a ≠ .go → SyncStep (.install staged) { s with mirror := none } (.inl (.fail .mark))
  | replace {staged} : SyncStep (.replace staged) (s.replacePortAdapters staged.ports) (.inl .ready)
  | ready : SyncStep .ready { s with interfaceReady := true } (.inl .enableFresh)
  | enableFresh : s.mutex = none →
      SyncStep .enableFresh
        { s with interfaceAccessEnabled := true, enabled := true, shut := false, invalidated := false } (.inl .fresh)
  | fresh : SyncStep .fresh { s with interfaceStale := false } (.inl (.resume true))
  | fail {pc r s'} : staleAction a s pc = some (s', r) → SyncStep (.fail pc) s' (.inl (r.elim (.resume false) .fail))
  | stayPaused {r} : s.interfaceStale = true → SyncStep (.resume r) s (.inl (.unlock r))
  | resume {r} : s.interfaceStale = false → SyncStep (.resume r) { s with portsPaused := false } (.inl (.unlock r))
  | unlock {r} : SyncStep (.unlock r) { s with synchronizeMutex := none } (.inr r)

/-! ## Lifecycle calls -/

inductive LifecycleStep : LifecyclePc → Shared → Option LifecyclePc → Prop
  | lock : s.synchronizeMutex = none → LifecycleStep .lock { s with synchronizeMutex := some t } (some .ready)
  | ready : s.interfaceReady = true →
      LifecycleStep .ready s (some (.stale ⟨s.interfaceReady, s.interfaceAccessEnabled⟩))
  | notReady : s.interfaceReady = false → LifecycleStep .ready s (some .unlock)
  | stale {start} : s.interfaceStale = true → LifecycleStep (.stale start) s (some .unlock)
  | start {start} : s.interfaceStale = false → LifecycleStep (.stale start) s (some (.call (.lock start)))
  | call {pc r s'} : requestAction t .callOperation a s pc = some (s', r) →
      LifecycleStep (.call pc) s'
        (some (r.elim .call fun answer => if answer = .ok then .result else .mark .mark))
  | result : a = .go → LifecycleStep .result s (some .unlock)
  | invalidResult : a ≠ .go → LifecycleStep .result s (some (.mark .mark))
  | mark {pc r s'} : staleAction a s pc = some (s', r) → LifecycleStep (.mark pc) s' (some (r.elim .unlock .mark))
  | unlock : LifecycleStep .unlock { s with synchronizeMutex := none } none

/-! ## The port pump -/

inductive AdapterStep (x : Nat) : AdapterPc → Shared → Option AdapterPc → Prop
  | retryInput : (s.adapter x).pendingInput.isSome = true → AdapterStep x .input s (some (.write (.lock {})))
  | retryEncode : (s.adapter x).pendingInput = none → (s.adapter x).pendingInputSource.isSome = true →
      AdapterStep x .input s (some .encode)
  | input : (s.adapter x).pendingInput = none → (s.adapter x).pendingInputSource = none → a = .go →
      AdapterStep x .input
        ({ s with nextSample := s.nextSample + 1 }.modifyAdapter x
          fun k => { k with pendingInputSource := some s.nextSample })
        (some .encode)
  | noInput : (s.adapter x).pendingInput = none → (s.adapter x).pendingInputSource = none → a ≠ .go →
      AdapterStep x .input s none
  | encode : a = .go →
      AdapterStep x .encode
        (s.modifyAdapter x fun k => { k with pendingInput := k.pendingInputSource, pendingInputSource := none })
        (some (.write (.lock {})))
  | encodeFails : a ≠ .go → AdapterStep x .encode s none
  | write {pc pc' s'} : requestAction t .writePortValue a s pc = some (s', .inl pc') →
      AdapterStep x (.write pc) s' (some (.write pc'))
  | written {pc s'} : requestAction t .writePortValue a s pc = some (s', .inr .ok) →
      AdapterStep x (.write pc) (s'.modifyAdapter x fun k => { k with pendingInput := none }) none
  | notWritten {pc answer s'} : answer ≠ .ok → requestAction t .writePortValue a s pc = some (s', .inr answer) →
      AdapterStep x (.write pc) s' none
  | noOutput : a ≠ .go → AdapterStep x .output s none
  | retryOutput : a = .go → (s.adapter x).pendingOutput.isSome = true → AdapterStep x .output s (some .deliver)
  | output : a = .go → (s.adapter x).pendingOutput = none → AdapterStep x .output s (some (.read (.lock {})))
  | read {pc pc' s'} : requestAction t .readPortValue a s pc = some (s', .inl pc') →
      AdapterStep x (.read pc) s' (some (.read pc'))
  | wasRead {pc s'} : requestAction t .readPortValue a s pc = some (s', .inr .ok) →
      AdapterStep x (.read pc) s' (some .decode)
  | notRead {pc answer s'} : answer ≠ .ok → requestAction t .readPortValue a s pc = some (s', .inr answer) →
      AdapterStep x (.read pc) s' none
  | decode : a = .go →
      AdapterStep x .decode
        ({ s with nextSample := s.nextSample + 1 }.modifyAdapter x fun k => { k with pendingOutput := some s.nextSample })
        (some .deliver)
  | decodeFails : a ≠ .go → AdapterStep x .decode s none
  | deliver : a = .go → AdapterStep x .deliver (s.modifyAdapter x fun k => { k with pendingOutput := none }) none
  | deliverFails : a ≠ .go → AdapterStep x .deliver s none

inductive PumpStep : PumpPc → Shared → PumpPc → Prop
  | stop : s.stopRequested = true → PumpStep .wait { s with portsPumping := false, pumpGone := true } .gone
  | wait : s.stopRequested = false → s.portsPaused = false →
      PumpStep .wait { s with portsPumping := true } (.next s.portAdapters)
  | stopPass {x rest} : s.stopRequested = true →
      PumpStep (.next (x :: rest)) { s with portsPumping := false } .interval
  | next {x rest} : s.stopRequested = false → PumpStep (.next (x :: rest)) s (.pump (s.adapter x).pump x rest)
  | endPass : PumpStep (.next []) { s with portsPumping := false } .interval
  | pump {pc x rest r s'} : adapterAction t a s x pc = some (s', r) →
      PumpStep (.pump pc x rest) s' (r.elim (.next rest) fun pc' => .pump pc' x rest)
  | interval : PumpStep .interval s .wait

/-! ## The actions follow the rules -/

variable {t a s} {s' : Shared}

theorem requestAction_step {k : Request} {pc : RequestPc} {r : RequestPc ⊕ Answer}
    (h : requestAction t k a s pc = some (s', r)) : RequestStep t a s k pc s' r := by
  cases pc
  case reply =>
    simp only [requestAction] at h
    split at h
    case h_1 answer =>
      simp only [Option.some.injEq, Prod.mk.injEq] at h
      obtain ⟨rfl, rfl⟩ := h
      cases hinvalid : k.invalidates answer
      · exact .reply rfl hinvalid
      · exact .invalid rfl hinvalid
    case h_2 => cases h
  all_goals simp only [requestAction] at h
  all_goals repeat' split at h
  all_goals simp only [Option.some.injEq, Prod.mk.injEq, reduceCtorEq] at h
  all_goals obtain ⟨rfl, rfl⟩ := h
  all_goals constructor
  all_goals simp_all

theorem connectAction_step {pc : ConnectPc} {r : ConnectPc ⊕ Bool} (h : connectAction t a s pc = some (s', r)) :
    ConnectStep t a s pc s' r := by
  cases pc
  all_goals simp only [connectAction] at h
  all_goals repeat' split at h
  all_goals simp only [Option.some.injEq, Prod.mk.injEq, reduceCtorEq] at h
  all_goals obtain ⟨rfl, rfl⟩ := h
  all_goals constructor
  all_goals simp_all

theorem discoverAction_step {pc : DiscoverPc} {r : DiscoverPc ⊕ Bool} (h : discoverAction t a s pc = some (s', r)) :
    DiscoverStep t a s pc s' r := by
  cases pc
  case reply =>
    simp only [discoverAction] at h
    split at h
    all_goals simp only [Option.some.injEq, Prod.mk.injEq] at h
    all_goals obtain ⟨rfl, rfl⟩ := h
    · exact .reply rfl
    · exact .throws rfl
    · exact .fails ‹_› ‹_›
  all_goals simp only [discoverAction] at h
  all_goals repeat' split at h
  all_goals simp only [Option.some.injEq, Prod.mk.injEq, reduceCtorEq] at h
  all_goals obtain ⟨rfl, rfl⟩ := h
  all_goals constructor
  all_goals simp_all

theorem staleAction_step {pc : StalePc} {r : Option StalePc} (h : staleAction a s pc = some (s', r)) :
    StaleStep a s pc s' r := by
  cases pc
  case discard rest =>
    cases rest
    all_goals simp only [staleAction, Option.some.injEq, Prod.mk.injEq] at h
    all_goals obtain ⟨rfl, rfl⟩ := h
    · exact .discarded
    · exact .discard
  all_goals simp only [staleAction] at h
  all_goals repeat' split at h
  all_goals simp only [Option.some.injEq, Prod.mk.injEq, reduceCtorEq] at h
  all_goals obtain ⟨rfl, rfl⟩ := h
  all_goals constructor
  all_goals simp_all

theorem syncAction_step {pc : SyncPc} {r : SyncPc ⊕ Bool} (h : syncAction t a s pc = some (s', r)) :
    SyncStep t a s pc s' r := by
  cases pc
  case mark pc entry | connect pc restore | discover pc restore | fail pc =>
    simp only [syncAction, Option.map_eq_some_iff, Prod.mk.injEq] at h
    obtain ⟨⟨s₁, r⟩, hp, rfl, rfl⟩ := h
    constructor
    exact hp
  case canReplace staged restore =>
    simp only [syncAction, Option.some.injEq, Prod.mk.injEq] at h
    obtain ⟨rfl, rfl⟩ := h
    cases hcan : s.canReplacePortAdapters staged.ports
    · cases restore
      · exact .keep hcan
      · exact .restore hcan
    · exact .canReplace hcan
  case stage restore =>
    simp only [syncAction] at h
    split at h
    case h_2 ports =>
      split at h
      all_goals simp only [Option.some.injEq, Prod.mk.injEq] at h
      all_goals obtain ⟨rfl, rfl⟩ := h
      · exact .staged rfl ‹_›
      · exact .duplicate rfl ‹_›
    all_goals simp only [Option.some.injEq, Prod.mk.injEq] at h
    all_goals obtain ⟨rfl, rfl⟩ := h
    · exact .stage rfl
    · exact .stageFails ‹_› ‹_›
  all_goals simp only [syncAction] at h
  all_goals repeat' split at h
  all_goals simp only [Option.some.injEq, Prod.mk.injEq, reduceCtorEq] at h
  all_goals obtain ⟨rfl, rfl⟩ := h
  all_goals constructor
  all_goals simp_all

theorem lifecycleAction_step {pc : LifecyclePc} {r : Option LifecyclePc} (h : lifecycleAction t a s pc = some (s', r)) :
    LifecycleStep t a s pc s' r := by
  cases pc
  case call pc | mark pc =>
    simp only [lifecycleAction, Option.map_eq_some_iff, Prod.mk.injEq] at h
    obtain ⟨⟨s₁, r⟩, hp, rfl, rfl⟩ := h
    constructor
    exact hp
  all_goals simp only [lifecycleAction] at h
  all_goals repeat' split at h
  all_goals simp only [Option.some.injEq, Prod.mk.injEq, reduceCtorEq] at h
  all_goals obtain ⟨rfl, rfl⟩ := h
  all_goals constructor
  all_goals simp_all

theorem adapterAction_step {x : Nat} {pc : AdapterPc} {r : Option AdapterPc}
    (h : adapterAction t a s x pc = some (s', r)) : AdapterStep t a s x pc s' r := by
  cases pc
  case write pc =>
    simp only [adapterAction, Option.map_eq_some_iff] at h
    obtain ⟨⟨s₁, pc' | answer⟩, hp, h⟩ := h
    · simp only [Prod.mk.injEq] at h
      obtain ⟨rfl, rfl⟩ := h
      exact .write hp
    · cases answer
      all_goals simp only [Prod.mk.injEq] at h
      all_goals obtain ⟨rfl, rfl⟩ := h
      all_goals first | exact .written hp | exact .notWritten (by simp) hp
  case read pc =>
    simp only [adapterAction, Option.map_eq_some_iff] at h
    obtain ⟨⟨s₁, pc' | answer⟩, hp, h⟩ := h
    · simp only [Prod.mk.injEq] at h
      obtain ⟨rfl, rfl⟩ := h
      exact .read hp
    · cases answer
      all_goals simp only [Prod.mk.injEq] at h
      all_goals obtain ⟨rfl, rfl⟩ := h
      all_goals first | exact .wasRead hp | exact .notRead (by simp) hp
  all_goals simp only [adapterAction] at h
  all_goals repeat' split at h
  all_goals simp only [Option.some.injEq, Prod.mk.injEq] at h
  all_goals obtain ⟨rfl, rfl⟩ := h
  all_goals constructor
  all_goals simp_all

theorem pumpAction_step {pc pc' : PumpPc} (h : pumpAction t a s pc = some (s', pc')) : PumpStep t a s pc s' pc' := by
  cases pc
  case pump pc x rest =>
    simp only [pumpAction, Option.map_eq_some_iff, Prod.mk.injEq] at h
    obtain ⟨⟨s₁, r⟩, hp, rfl, rfl⟩ := h
    exact .pump hp
  case next rest =>
    cases rest
    all_goals simp only [pumpAction] at h
    all_goals try split at h
    all_goals simp only [Option.some.injEq, Prod.mk.injEq] at h
    all_goals obtain ⟨rfl, rfl⟩ := h
    all_goals constructor
    all_goals simp_all
  all_goals simp only [pumpAction] at h
  all_goals repeat' split at h
  all_goals simp only [Option.some.injEq, Prod.mk.injEq, reduceCtorEq] at h
  all_goals obtain ⟨rfl, rfl⟩ := h
  all_goals constructor
  all_goals simp_all

end Rules

end RttOpcua.Proxy
