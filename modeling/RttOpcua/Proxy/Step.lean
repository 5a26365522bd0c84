import RttOpcua.Proxy.State

/-!
# The proxy: actions

One atomic action for each load and store of an atomic flag and for each request on the wire. A
section of `port_mutex` is one action; `pausePortPump` is two, because its wait gives the mutex back.
A section of `mutex_` that sends a request is one action for each step in it.
-/

namespace RttOpcua.Proxy

open RttOpcua.Lib

/-- The calls of the proxy and of its mirrored interface. -/
inductive Api where
  | synchronize
  | lifecycle
  | request (k : Request)
  | stopPortPump
  deriving DecidableEq, Repr

/-- What the code does not decide: which call comes next, whether a step fails or throws, what comes of a
request, and which ports a discovery finds. -/
inductive Choice where
  | go
  | call (api : Api)
  | early
  | raise
  | reply (r : Reply)
  | staged (ports : List PortDescription)
  deriving DecidableEq, Repr

namespace Shared

variable (s : Shared)

def modifyAdapter (x : Nat) (f : RemotePortAdapter → RemotePortAdapter) : Shared :=
  { s with adapter := Function.update s.adapter x (f (s.adapter x)) }

/-- A new adapter for a discovered port. -/
def stagePort (d : PortDescription) : Shared :=
  { s with
    adapter := Function.update s.adapter s.nextAdapter { description := d }
    nextAdapter := s.nextAdapter + 1 }

def stagePorts (ports : List PortDescription) : Shared := ports.foldl stagePort s

def canReplacePortAdapters (replacements : List Nat) : Bool :=
  s.portAdapters.all fun x =>
    !(s.adapter x).hasPendingState || replacements.any fun y => (s.adapter x).hasSameIdentity (s.adapter y)

/-- The inner loop of `replacePortAdapters`: swap with the first adapter of the same identity. -/
def transferPendingState (x : Nat) : List Nat → Shared
  | [] => s
  | y :: rest =>
      if (s.adapter x).hasSameIdentity (s.adapter y) then
        { s with
          adapter := Function.update (Function.update s.adapter x ((s.adapter x).withPendingStateOf (s.adapter y)))
            y ((s.adapter y).withPendingStateOf (s.adapter x)) }
      else transferPendingState x rest

def replacePortAdapters (adapters : List Nat) : Shared :=
  { s.portAdapters.foldl (fun r x => r.transferPendingState x adapters) s with portAdapters := adapters }

end Shared

/-! ## Requests -/

/-- The request ends in its answer. -/
def requestAction (t : Thread) (k : Request) (a : Choice) (s : Shared) :
    RequestPc → Option (Shared × (RequestPc ⊕ Answer))
  | .lock start =>
      if s.mutex = none then
        some ({ s with mutex := some t }, .inl (if k.requiresInterfaceAccess then .access else .state start))
      else none
  | .access =>
      if s.interfaceAccessEnabled then some (s, .inl (.state ⟨s.interfaceReady, s.interfaceAccessEnabled⟩))
      else some (s, .inl (.unlock .failed))
  | .state start =>
      if s.client ∧ s.state = .connected then some (s, .inl (.send start))
      else some (s, .inl (.unlock .failed))
  | .send _ => some (s, .inl .reply)
  | .reply =>
      match a with
      | .reply r => some (s, .inl (if k.invalidates r then .disable else .unlock (k.answer r)))
      | _ => none
  | .disable => some ({ s with interfaceAccessEnabled := false }, .inl .stale)
  | .stale => some ({ s with state := .stale, shut := true, invalidated := true }, .inl (.unlock .failed))
  | .unlock r => some ({ s with mutex := none }, .inr r)

def connectAction (t : Thread) (a : Choice) (s : Shared) : ConnectPc → Option (Shared × (ConnectPc ⊕ Bool))
  | .lock => if s.mutex = none then some ({ s with mutex := some t }, .inl .start) else none
  | .start => some ({ s with state := .connecting, client := false }, .inl .dial)
  | .dial =>
      match a with
      | .go => some ({ s with state := .connected, client := true }, .inl (.unlock true))
      | _ => some ({ s with state := .disconnected, client := false }, .inl (.unlock false))
  | .unlock ok => some ({ s with mutex := none }, .inr ok)

def discoverAction (t : Thread) (a : Choice) (s : Shared) : DiscoverPc → Option (Shared × (DiscoverPc ⊕ Bool))
  | .lock => if s.mutex = none then some ({ s with mutex := some t }, .inl .state) else none
  | .state =>
      if s.client ∧ s.state = .connected then some (s, .inl .send) else some (s, .inl (.unlock false))
  | .send => some (s, .inl .reply)
  | .reply =>
      match a with
      | .go => some (s, .inl (.unlock true))
      -- An exception, and the client no longer is connected.
      | .raise => some ({ s with state := .stale }, .inl (.unlock false))
      | _ => some (s, .inl (.unlock false))
  | .unlock ok => some ({ s with mutex := none }, .inr ok)

/-! ## `markInterfaceStale` -/

def staleAction (a : Choice) (s : Shared) : StalePc → Option (Shared × Option StalePc)
  | .mark => some ({ s with interfaceStale := true }, some .disable)
  | .disable => some ({ s with interfaceAccessEnabled := false, enabled := false }, some .disableLocked)
  | .disableLocked =>
      if s.mutex = none then some ({ s with interfaceAccessEnabled := false, shut := true }, some .pause) else none
  | .pause => some ({ s with portsPaused := true }, some .pauseWait)
  | .pauseWait => if s.portsPumping then none else some (s, some .adapters)
  | .adapters => some (s, some (.discard (if a = .raise then [] else s.portAdapters)))
  | .discard (x :: rest) =>
      some (s.modifyAdapter x RemotePortAdapter.discardPendingState, some (.discard rest))
  | .discard [] => some ({ s with invalidated := true }, none)

/-! ## `synchronize` -/

def syncAction (t : Thread) (a : Choice) (s : Shared) : SyncPc → Option (Shared × (SyncPc ⊕ Bool))
  | .lock =>
      if s.synchronizeMutex = none then some ({ s with synchronizeMutex := some t }, .inl .context) else none
  | .context => some (s, .inl (if a = .raise then .unlock false else .disable))
  | .disable => some ({ s with interfaceAccessEnabled := false, enabled := false }, .inl .disableLocked)
  | .disableLocked =>
      if s.mutex = none then some ({ s with interfaceAccessEnabled := false, shut := true }, .inl .pause) else none
  | .pause => some ({ s with portsPaused := true }, .inl .pauseWait)
  | .pauseWait => if s.portsPumping then none else some (s, .inl .entry)
  | .entry => some (s, .inl (.test s.state))
  | .test entry =>
      some (s, .inl (if s.interfaceReady ∧ entry ≠ .connected ∧ ¬ s.interfaceStale then .mark .mark entry
        else .restorable entry))
  | .mark pc entry =>
      (staleAction a s pc).map fun r => (r.1, .inl (r.2.elim (.restorable entry) fun pc' => .mark pc' entry))
  | .restorable entry =>
      let restore := s.interfaceReady && !s.interfaceStale && entry = .connected
      some (s, .inl (if entry ≠ .connected then .connect .lock restore else .stage restore))
  | .connect pc restore =>
      (connectAction t a s pc).map fun r =>
        (r.1, .inl (r.2.elim (fun pc' => .connect pc' restore)
          fun ok => if ok then .stage restore else .fail .mark))
  -- Staging is any number of discovery requests; it may also fail between them.
  | .stage restore =>
      match a with
      | .go => some (s, .inl (.discover .lock restore))
      | .staged ports =>
          -- Duplicate names are an error of the discovery.
          if (ports.map fun d => (d.servicePath, d.name)).Nodup then
            some ({ s.stagePorts ports with nextMirror := s.nextMirror + 1 },
              .inl (.canReplace ⟨s.nextMirror, (List.range ports.length).map (s.nextAdapter + ·)⟩ restore))
          else some (s, .inl (.fail .mark))
      | _ => some (s, .inl (.fail .mark))
  | .discover pc restore =>
      (discoverAction t a s pc).map fun r =>
        (r.1, .inl (r.2.elim (fun pc' => .discover pc' restore)
          fun ok => if ok then .stage restore else .fail .mark))
  | .canReplace staged restore =>
      some (s, .inl (if s.canReplacePortAdapters staged.ports then .unready staged
        else if restore then .connected else .resume false))
  | .connected => some (s, .inl (if s.state = .connected then .enable else .resume false))
  | .enable =>
      if s.mutex = none then
        some ({ s with interfaceAccessEnabled := true, enabled := true, shut := false }, .inl (.resume false))
      else none
  | .unready staged => some ({ s with interfaceReady := false }, .inl (.install staged))
  | .install staged =>
      match a with
      | .go => some ({ s with mirror := some staged.mirror }, .inl (.replace staged))
      | _ => some ({ s with mirror := none }, .inl (.fail .mark))
  | .replace staged => some (s.replacePortAdapters staged.ports, .inl .ready)
  | .ready => some ({ s with interfaceReady := true }, .inl .enableFresh)
  | .enableFresh =>
      if s.mutex = none then
        some ({ s with interfaceAccessEnabled := true, enabled := true, shut := false, invalidated := false }, .inl .fresh)
      else none
  | .fresh => some ({ s with interfaceStale := false }, .inl (.resume true))
  | .fail pc => (staleAction a s pc).map fun r => (r.1, .inl (r.2.elim (.resume false) .fail))
  | .resume r =>
      some (if s.interfaceStale then s else { s with portsPaused := false }, .inl (.unlock r))
  | .unlock r => some ({ s with synchronizeMutex := none }, .inr r)

/-! ## Lifecycle calls -/

/-- They differ in the operation and in the check of its results. -/
def lifecycleAction (t : Thread) (a : Choice) (s : Shared) : LifecyclePc → Option (Shared × Option LifecyclePc)
  | .lock =>
      if s.synchronizeMutex = none then some ({ s with synchronizeMutex := some t }, some .ready) else none
  | .ready =>
      some (s, some (if s.interfaceReady then .stale ⟨s.interfaceReady, s.interfaceAccessEnabled⟩ else .unlock))
  | .stale start => some (s, some (if s.interfaceStale then .unlock else .call (.lock start)))
  | .call pc =>
      (requestAction t .callOperation a s pc).map fun r =>
        (r.1, some (r.2.elim .call fun answer => if answer = .ok then .result else .mark .mark))
  | .result => some (s, some (if a = .go then .unlock else .mark .mark))
  | .mark pc => (staleAction a s pc).map fun r => (r.1, some (r.2.elim .unlock .mark))
  | .unlock => some ({ s with synchronizeMutex := none }, none)

/-! ## The port pump -/

/-- `pump` of adapter `x`. -/
def adapterAction (t : Thread) (a : Choice) (s : Shared) (x : Nat) : AdapterPc → Option (Shared × Option AdapterPc)
  | .input =>
      if (s.adapter x).pendingInput.isSome then some (s, some (.write (.lock {})))
      else if (s.adapter x).pendingInputSource.isSome then some (s, some .encode)
      else if a = .go then
        some ({ s with nextSample := s.nextSample + 1 }.modifyAdapter x
          fun k => { k with pendingInputSource := some s.nextSample }, some .encode)
      else some (s, none)
  | .encode =>
      if a = .go then
        some (s.modifyAdapter x fun k => { k with pendingInput := k.pendingInputSource, pendingInputSource := none },
          some (.write (.lock {})))
      else some (s, none)
  | .write pc =>
      (requestAction t .writePortValue a s pc).map fun
        | (s', .inl pc') => (s', some (.write pc'))
        | (s', .inr .ok) => (s'.modifyAdapter x fun k => { k with pendingInput := none }, none)
        | (s', .inr _) => (s', none)
  | .output =>
      if a ≠ .go then some (s, none)
      else if (s.adapter x).pendingOutput.isSome then some (s, some .deliver)
      else some (s, some (.read (.lock {})))
  | .read pc =>
      (requestAction t .readPortValue a s pc).map fun
        | (s', .inl pc') => (s', some (.read pc'))
        | (s', .inr .ok) => (s', some .decode)
        | (s', .inr _) => (s', none)
  | .decode =>
      if a = .go then
        some ({ s with nextSample := s.nextSample + 1 }.modifyAdapter x
          fun k => { k with pendingOutput := some s.nextSample }, some .deliver)
      else some (s, none)
  | .deliver =>
      if a = .go then some (s.modifyAdapter x fun k => { k with pendingOutput := none }, none) else some (s, none)

/-- Where `pump` of an adapter begins. -/
def RemotePortAdapter.pump (x : RemotePortAdapter) : AdapterPc :=
  if x.description.direction = .input then .input else .output

def pumpAction (t : Thread) (a : Choice) (s : Shared) : PumpPc → Option (Shared × PumpPc)
  | .wait =>
      if s.stopRequested then some ({ s with portsPumping := false, pumpGone := true }, .gone)
      else if s.portsPaused then none
      else some ({ s with portsPumping := true }, .next s.portAdapters)
  | .next (x :: rest) =>
      if s.stopRequested then some ({ s with portsPumping := false }, .interval)
      else some (s, .pump (s.adapter x).pump x rest)
  | .next [] => some ({ s with portsPumping := false }, .interval)
  | .pump pc x rest =>
      (adapterAction t a s x pc).map fun r => (r.1, r.2.elim (.next rest) fun pc' => .pump pc' x rest)
  | .interval => some (s, .wait)
  | .gone => none

/-! ## Threads -/

def threadAction (t : Thread) (a : Choice) (s : Shared) : Pc → Option (Shared × Pc)
  | .idle =>
      if s.created then
        match a with
        | .call .synchronize => some (s, .sync .lock false)
        | .call .lifecycle => some (s, .lifecycle .lock)
        | .call (.request k) => if k.requiresInterfaceAccess then some (s, .request k (.lock {})) else none
        | .call .stopPortPump => some (s, .stop)
        | _ => none
      else none
  | .create pc =>
      (connectAction t a s pc).map fun r =>
        (r.1, r.2.elim .create fun ok => if ok then .sync .lock true else .gone)
  | .sync pc creating =>
      (syncAction t a s pc).map fun
        | (s', .inl pc') => (s', .sync pc' creating)
        | (s', .inr true) => (if creating then { s' with created := true } else s', .idle)
        | (s', .inr false) => (s', if creating then .gone else .idle)
  | .lifecycle pc => (lifecycleAction t a s pc).map fun r => (r.1, r.2.elim .idle .lifecycle)
  | .request k pc => (requestAction t k a s pc).map fun r => (r.1, r.2.elim (.request k) fun _ => .idle)
  | .stop => some ({ s with stopRequested := true }, .join)
  | .join => if s.pumpGone then some (s, .idle) else none
  | .pump pc => (pumpAction t a s pc).map fun r => (r.1, .pump r.2)
  | .gone => none

/-- The threads of one proxy, from the start of `create`. -/
def program : Threads Thread Shared Pc Choice where
  shared₀ := {}
  frame₀
    | .app 0 => .create .lock
    | .app _ => .idle
    | .pump => .pump .wait
  action := threadAction

/-! ## Inversion -/

/-- The action of a thread is an action of the function it is in. -/
inductive ThreadStep (t : Thread) (a : Choice) (s : Shared) : Pc → Shared → Pc → Prop where
  | enterSync : s.created = true → ThreadStep t a s .idle s (.sync .lock false)
  | enterLifecycle : s.created = true → ThreadStep t a s .idle s (.lifecycle .lock)
  | enterRequest {k} : k.requiresInterfaceAccess = true → ThreadStep t a s .idle s (.request k (.lock {}))
  | enterStop : ThreadStep t a s .idle s .stop
  | create {pc r s'} : connectAction t a s pc = some (s', r) →
      ThreadStep t a s (.create pc) s' (r.elim .create fun ok => if ok then .sync .lock true else .gone)
  | sync {pc pc' s' creating} : syncAction t a s pc = some (s', .inl pc') →
      ThreadStep t a s (.sync pc creating) s' (.sync pc' creating)
  | syncReturn {r creating} :
      ThreadStep t a s (.sync (.unlock r) creating)
        { s with synchronizeMutex := none, created := s.created || r && creating }
        (if r || !creating then .idle else .gone)
  | lifecycle {pc pc' s'} : lifecycleAction t a s pc = some (s', pc') →
      ThreadStep t a s (.lifecycle pc) s' (pc'.elim .idle .lifecycle)
  | request {k pc r s'} : requestAction t k a s pc = some (s', r) →
      ThreadStep t a s (.request k pc) s' (r.elim (.request k) fun _ => .idle)
  | stop : ThreadStep t a s .stop { s with stopRequested := true } .join
  | join : ThreadStep t a s .join s .idle
  | pump {pc pc' s'} : pumpAction t a s pc = some (s', pc') → ThreadStep t a s (.pump pc) s' (.pump pc')

section Inversion

variable {t : Thread} {a : Choice} {s s' : Shared} {l l' : Pc}

theorem syncAction_return {pc : SyncPc} {r : Bool} (h : syncAction t a s pc = some (s', .inr r)) :
    pc = .unlock r ∧ s' = { s with synchronizeMutex := none } := by
  cases pc
  all_goals simp only [syncAction, Option.map_eq_some_iff] at h
  all_goals grind -ring -linarith

theorem threadStep (h : threadAction t a s l = some (s', l')) : ThreadStep t a s l s' l' := by
  cases l
  case idle =>
    simp only [threadAction] at h
    repeat' split at h
    all_goals simp only [Option.some.injEq, Prod.mk.injEq, reduceCtorEq] at h
    all_goals obtain ⟨rfl, rfl⟩ := h
    · exact .enterSync ‹_›
    · exact .enterLifecycle ‹_›
    · exact .enterRequest ‹_›
    · exact .enterStop
  case create pc | lifecycle pc | request k pc | pump pc =>
    simp only [threadAction, Option.map_eq_some_iff, Prod.mk.injEq] at h
    obtain ⟨⟨s₁, r⟩, hp, rfl, rfl⟩ := h
    constructor; exact hp
  case sync pc creating =>
    simp only [threadAction, Option.map_eq_some_iff] at h
    obtain ⟨⟨s₁, r⟩, hp, h⟩ := h
    obtain pc' | r := r
    · simp only [Prod.mk.injEq] at h
      obtain ⟨rfl, rfl⟩ := h
      exact .sync hp
    · obtain ⟨rfl, rfl⟩ := syncAction_return hp
      have hret : ThreadStep t a s (.sync (.unlock r) creating) _ _ := .syncReturn
      cases r
      all_goals cases creating
      all_goals simp only [Prod.mk.injEq] at h
      all_goals obtain ⟨rfl, rfl⟩ := h
      all_goals simpa using hret
  case stop =>
    simp only [threadAction, Option.some.injEq, Prod.mk.injEq] at h
    obtain ⟨rfl, rfl⟩ := h
    exact .stop
  case join =>
    simp only [threadAction, Option.ite_none_right_eq_some, Option.some.injEq, Prod.mk.injEq] at h
    obtain ⟨-, rfl, rfl⟩ := h
    exact .join
  case gone => simp only [threadAction, reduceCtorEq] at h

end Inversion

end RttOpcua.Proxy
