import RttOpcua.Proxy.Lemmas.Ports

/-!
# One call of `synchronize`

What a call of `synchronize` has done at each of its points, compared with the state `s₀` in which it has
taken `synchronize_mutex`. Other threads go on meanwhile; only an invalidation of the interface by one of them
is left out.
-/

namespace RttOpcua.Proxy

open RttOpcua.Lib Threads

/-! ## What other threads do meanwhile -/

/-- The thread is at one of the two stores of `invalidateInterfaceLocked`. -/
def Pc.storing (l : Pc) : Bool :=
  match l.inRequest with
  | some (_, .disable) => true
  | some (_, .stale) => true
  | _ => false

/-- What a call of `synchronize` compares; the session only where no invalidation is at work. -/
@[grind cases]
structure SameCall (storing : Bool) (s s' : Shared) : Prop where
  synchronizeMutex : s'.synchronizeMutex = s.synchronizeMutex
  interfaceReady : s'.interfaceReady = s.interfaceReady
  interfaceStale : s'.interfaceStale = s.interfaceStale
  mirror : s'.mirror = s.mirror
  nextMirror : s'.nextMirror = s.nextMirror
  portAdapters : s'.portAdapters = s.portAdapters
  nextAdapter : s'.nextAdapter = s.nextAdapter
  session : storing = false → s'.interfaceAccessEnabled = s.interfaceAccessEnabled ∧ s'.state = s.state

section Other

variable {t u : Thread} {a : Choice} {s s' : Shared} {l l' : Pc} {b : Bool}

theorem SameCall.refl (s : Shared) : SameCall b s s := ⟨rfl, rfl, rfl, rfl, rfl, rfl, rfl, fun _ => ⟨rfl, rfl⟩⟩

theorem SameCall.of_request {k : Request} {pc : RequestPc} {r : RequestPc ⊕ Answer}
    (hb : b = false → pc ≠ .disable ∧ pc ≠ .stale) (h : requestAction u k a s pc = some (s', r)) :
    SameCall b s s' := by
  replace h := requestAction_step h
  cases h
  case disable => exact ⟨rfl, rfl, rfl, rfl, rfl, rfl, rfl, fun h => absurd rfl (hb h).1⟩
  case stale => exact ⟨rfl, rfl, rfl, rfl, rfl, rfl, rfl, fun h => absurd rfl (hb h).2⟩
  all_goals exact ⟨rfl, rfl, rfl, rfl, rfl, rfl, rfl, fun _ => ⟨rfl, rfl⟩⟩

/-- The stores of an invalidation are those of the request that the thread is in. -/
theorem ne_of_storing {k : Request} {pc : RequestPc} (hl : l.inRequest = some (k, pc)) (h : l.storing = false) :
    pc ≠ .disable ∧ pc ≠ .stale := by
  simp only [Pc.storing, hl] at h
  constructor
  · rintro rfl
    simp at h
  · rintro rfl
    simp at h

theorem SameCall.of_adapter {pc : AdapterPc} {r : Option AdapterPc} {x : Nat} {rest : List Nat}
    (h : adapterAction u a s x pc = some (s', r)) : SameCall (Pc.pump (.pump pc x rest)).storing s s' := by
  have hs : ∀ (k : Request) (pc' : RequestPc), (Pc.pump (.pump pc x rest)).inRequest = some (k, pc') →
      (Pc.pump (.pump pc x rest)).storing = false → pc' ≠ .disable ∧ pc' ≠ .stale :=
    fun _ _ hl hb => ne_of_storing hl hb
  replace h := adapterAction_step h
  cases h
  case write pc pc' hp | read pc pc' hp => exact .of_request (hs _ _ rfl) hp
  case wasRead pc hp => exact .of_request (hs _ _ rfl) hp
  case notWritten pc answer _ hp | notRead pc answer _ hp => exact .of_request (hs _ _ rfl) hp
  case written pc s₁ hp =>
    have e := SameCall.of_request (hs _ _ rfl) hp
    exact ⟨e.1, e.2, e.3, e.4, e.5, e.6, e.7, e.8⟩
  all_goals exact ⟨rfl, rfl, rfl, rfl, rfl, rfl, rfl, fun _ => ⟨rfl, rfl⟩⟩

/-- While `t` holds `synchronize_mutex`, another thread changes none of the members, except by an
invalidation, and only the pump changes adapters. -/
theorem other_step (hf : AccessFacts u l s) (hp : PortFacts u l s) (hm : s.synchronizeMutex = some t) (hu : u ≠ t)
    (h : threadAction u a s l = some (s', l')) : SameCall l.storing s s' ∧ (u ≠ .pump → s'.adapter = s.adapter) := by
  have hnot : l.holdsSynchronizeMutex = false := by
    rw [Bool.eq_false_iff]
    intro hl
    rw [hf.synchronizeMutex.mpr hl] at hm
    exact hu (Option.some.inj hm)
  cases threadStep h
  case enterSync | enterLifecycle | enterRequest | enterStop | join => exact ⟨.refl s, fun _ => rfl⟩
  case stop => exact ⟨⟨rfl, rfl, rfl, rfl, rfl, rfl, rfl, fun _ => ⟨rfl, rfl⟩⟩, fun _ => rfl⟩
  case create pc r ha =>
    have hfree := hf.point
    simp only [pointFacts] at hfree
    rw [hm] at hfree
    cases hfree.2.2.1
  case request k pc r ha =>
    exact ⟨SameCall.of_request (fun hb => ne_of_storing (l := .request k pc) rfl hb) ha, fun _ => (SamePorts.of_request ha).adapter⟩
  case sync pc pc' creating ha =>
    cases pc
    case lock => simp [syncAction, hm] at ha
    all_goals simp [Pc.holdsSynchronizeMutex, SyncPc.holds] at hnot
  case syncReturn => simp [Pc.holdsSynchronizeMutex, SyncPc.holds] at hnot
  case lifecycle pc pc' ha =>
    cases pc
    case lock => simp [lifecycleAction, hm] at ha
    all_goals simp [Pc.holdsSynchronizeMutex, LifecyclePc.holds] at hnot
  case pump pc pc' ha =>
    refine ⟨?_, fun h => absurd hp.1 h⟩
    replace ha := pumpAction_step ha
    cases ha
    case pump pc x rest r ha => exact .of_adapter ha
    all_goals exact ⟨rfl, rfl, rfl, rfl, rfl, rfl, rfl, fun _ => ⟨rfl, rfl⟩⟩

end Other

/-! ## The points of a call -/

/-- What the call has found is still there. `alone`: nobody else has invalidated the interface or pumped ports
meanwhile. -/
structure Kept (alone : Prop) (s₀ s : Shared) : Prop where
  interfaceReady : s.interfaceReady = s₀.interfaceReady
  interfaceStale : s.interfaceStale = s₀.interfaceStale
  mirror : s.mirror = s₀.mirror
  portAdapters : s.portAdapters = s₀.portAdapters
  adapter : alone → ∀ x, x < s₀.nextAdapter → s.adapter x = s₀.adapter x

/-- Access was granted, if the interface could be used. -/
def Usable (s₀ : Shared) : Prop :=
  s₀.interfaceReady = true → s₀.interfaceStale = false → s₀.state = .connected → s₀.interfaceAccessEnabled = true

/-- The call has found a session that it may go back to. -/
def Resumable (alone : Prop) (s₀ s : Shared) : Prop :=
  Kept alone s₀ s ∧ (alone → s₀.state = .connected ∧ Usable s₀)

/-- The call has staged nothing yet. -/
def Unstaged (s₀ s : Shared) : Prop := s.nextMirror = s₀.nextMirror ∧ s.nextAdapter = s₀.nextAdapter

/-- The call has staged an interface, with `n` adapters. -/
def StagedBy (s₀ s : Shared) (staged : Staged) : Prop :=
  staged.mirror = s₀.nextMirror ∧ ∃ n, staged.ports = (List.range n).map (s₀.nextAdapter + ·) ∧
    s.nextAdapter = s₀.nextAdapter + n

/-- The interface that the call has staged is in use. -/
def Installed (s₀ s : Shared) : Prop := StagedBy s₀ s ⟨s₀.nextMirror, s.portAdapters⟩ ∧ s.mirror = some s₀.nextMirror

/-- The call was given up, and everything is as before. -/
structure Restored (alone : Prop) (s₀ s : Shared) : Prop where
  kept : Kept alone s₀ s
  session : alone → s.interfaceAccessEnabled = s₀.interfaceAccessEnabled ∧ s.state = s₀.state

/-- The interface is disabled. -/
structure Disabled (s : Shared) : Prop where
  stale : s.interfaceStale = true
  access : s.interfaceAccessEnabled = false
  paused : s.Paused
  noPending : s.NoPending

/-- An unacknowledged sample has no place among the adapters `ports`. -/
def Shared.Stranded (s : Shared) (ports : List Nat) : Prop :=
  ∃ x ∈ s.portAdapters, (s.adapter x).hasPendingState = true ∧
    ∀ y ∈ ports, (s.adapter x).hasSameIdentity (s.adapter y) = false

instance (s : Shared) (ports : List Nat) : Decidable (s.Stranded ports) :=
  inferInstanceAs (Decidable (∃ x ∈ s.portAdapters, _ ∧ ∀ y ∈ ports, _))

/-- Why a call is given up with the interface as it was: the thread context fails, or the new adapters strand a
sample. -/
inductive Cause where
  | context
  | sample
  deriving DecidableEq, Repr

/-- What a step of the call at `pc` shows of that. -/
def SyncPc.causes (pc : SyncPc) (a : Choice) (s : Shared) : List Cause :=
  match pc with
  | .context => if a = .raise then [.context] else []
  | .canReplace staged _ => if s.Stranded staged.ports then [.sample] else []
  | _ => []

def callFacts (alone : Prop) (s₀ s : Shared) (why : List Cause) : SyncPc → Prop
  | .lock => False
  | .context | .disable =>
      why = [] ∧ Kept alone s₀ s ∧ Unstaged s₀ s ∧
      (alone → s.state = s₀.state ∧ s.interfaceAccessEnabled = s₀.interfaceAccessEnabled)
  | .disableLocked => why = [] ∧ Kept alone s₀ s ∧ Unstaged s₀ s ∧ (alone → s.state = s₀.state)
  | .pause | .pauseWait | .entry | .test _ =>
      why = [] ∧ Kept alone s₀ s ∧ Unstaged s₀ s ∧ (alone → s.state = s₀.state ∧ Usable s₀)
  | .mark _ entry => why = [] ∧ Unstaged s₀ s ∧ entry ≠ .connected
  | .restorable entry => why = [] ∧ Unstaged s₀ s ∧ (entry = .connected → Resumable alone s₀ s)
  | .connect _ _ => why = [] ∧ Unstaged s₀ s
  | .stage restore | .discover _ restore => why = [] ∧ Unstaged s₀ s ∧ (restore = true → Resumable alone s₀ s)
  | .canReplace staged restore => why = [] ∧ StagedBy s₀ s staged ∧ (restore = true → Resumable alone s₀ s)
  | .connected | .enable => why = [.sample] ∧ Resumable alone s₀ s
  | .unready staged | .install staged => why = [] ∧ StagedBy s₀ s staged
  | .replace staged => why = [] ∧ StagedBy s₀ s staged ∧ s.mirror = some staged.mirror
  | .ready | .enableFresh => why = [] ∧ Installed s₀ s
  | .fresh => why = [] ∧ Installed s₀ s ∧ s.interfaceAccessEnabled = true ∧ s.state = .connected
  | .fail _ => why = []
  | .resume true | .unlock true =>
      why = [] ∧ Installed s₀ s ∧ s.interfaceReady = true ∧ s.interfaceStale = false ∧
      s.interfaceAccessEnabled = true ∧ s.state = .connected
  | .resume false | .unlock false =>
      (why = [.context] ∨ why = [.sample]) ∧ Restored alone s₀ s ∨ why = [] ∧ Disabled s

/-! ## Steps -/

section Steps

variable {alone : Prop} {t u : Thread} {a : Choice} {s₀ s s' : Shared} {l l' : Pc} {b : Bool} {why : List Cause}

theorem Kept.of_same (h : Kept alone s₀ s) (e : SameCall b s s') (ha : alone → s'.adapter = s.adapter) :
    Kept alone s₀ s' :=
  ⟨e.interfaceReady.trans h.1, e.interfaceStale.trans h.2, e.mirror.trans h.3, e.portAdapters.trans h.4,
    fun hal x hx => by rw [ha hal]; exact h.5 hal x hx⟩

theorem Unstaged.of_same (h : Unstaged s₀ s) (e : SameCall b s s') : Unstaged s₀ s' :=
  ⟨e.nextMirror.trans h.1, e.nextAdapter.trans h.2⟩

theorem StagedBy.of_same {staged : Staged} (h : StagedBy s₀ s staged) (e : SameCall b s s') :
    StagedBy s₀ s' staged := by
  obtain ⟨hm, n, hp, hn⟩ := h
  exact ⟨hm, n, hp, e.nextAdapter.trans hn⟩

theorem Installed.of_same (h : Installed s₀ s) (e : SameCall b s s') : Installed s₀ s' := by
  refine ⟨?_, e.mirror.trans h.2⟩
  rw [e.portAdapters]
  exact h.1.of_same e

theorem Restored.of_same (h : Restored alone s₀ s) (e : SameCall b s s') (hb : alone → b = false)
    (ha : alone → s'.adapter = s.adapter) : Restored alone s₀ s' where
  kept := h.kept.of_same e ha
  session hal := ⟨((e.session (hb hal)).1).trans (h.session hal).1, ((e.session (hb hal)).2).trans (h.session hal).2⟩

theorem Disabled.of_rely (h : Disabled s) (hm : s.synchronizeMutex = some t) (hr : AccessRely t s s')
    (hr' : PortRely t s s') : Disabled s' := by
  have hc := hr.control hm
  have hc' := hr'.control hm
  obtain ⟨hst, hacc, hp, hn⟩ := h
  refine ⟨?_, ?_, ?_, ?_⟩
  · rw [hc.2.1]
    exact hst
  · rw [Bool.eq_false_iff] at hacc ⊢
    exact fun h => hacc (hc.2.2.2.1 h)
  · unfold Shared.Paused at *
    grind -ring -linarith
  · unfold Shared.NoPending at *
    grind -ring -linarith

/-- What the call knows survives the steps of other threads. -/
theorem callFacts_stable {pc : SyncPc} (creating : Bool) (e : SameCall b s s')
    (hb : alone ∨ (Pc.sync pc creating).succeeds = true → b = false) (ha : alone → s'.adapter = s.adapter)
    (hm : s.synchronizeMutex = some t) (hr : AccessRely t s s') (hr' : PortRely t s s')
    (h : callFacts alone s₀ s why pc) : callFacts alone s₀ s' why pc := by
  have hstate : alone → s'.state = s.state := fun hal => (e.session (hb (.inl hal))).2
  have hresume : Resumable alone s₀ s → Resumable alone s₀ s' := fun h => ⟨h.1.of_same e ha, h.2⟩
  have hend : (why = [.context] ∨ why = [.sample]) ∧ Restored alone s₀ s ∨ why = [] ∧ Disabled s →
      (why = [.context] ∨ why = [.sample]) ∧ Restored alone s₀ s' ∨ why = [] ∧ Disabled s' :=
    Or.imp (And.imp_right (·.of_same e (fun hal => hb (.inl hal)) ha)) (And.imp_right (·.of_rely hm hr hr'))
  have hdone : Installed s₀ s ∧ s.interfaceReady = true ∧ s.interfaceStale = false ∧
      s.interfaceAccessEnabled = true ∧ s.state = .connected → b = false →
      Installed s₀ s' ∧ s'.interfaceReady = true ∧ s'.interfaceStale = false ∧
      s'.interfaceAccessEnabled = true ∧ s'.state = .connected := by
    rintro ⟨hi, hready, hstale, hacc, hst⟩ hb
    exact ⟨hi.of_same e, e.interfaceReady.trans hready, e.interfaceStale.trans hstale,
      ((e.session hb).1).trans hacc, ((e.session hb).2).trans hst⟩
  cases pc
  case lock => exact h.elim
  case context | disable =>
    obtain ⟨hw, hk, hu, hsess⟩ := h
    refine ⟨hw, hk.of_same e ha, hu.of_same e, fun hal => ⟨(hstate hal).trans (hsess hal).1, ?_⟩⟩
    exact ((e.session (hb (.inl hal))).1).trans (hsess hal).2
  case disableLocked =>
    obtain ⟨hw, hk, hu, hsess⟩ := h
    exact ⟨hw, hk.of_same e ha, hu.of_same e, fun hal => (hstate hal).trans (hsess hal)⟩
  case pause | pauseWait | entry | test =>
    obtain ⟨hw, hk, hu, hsess⟩ := h
    exact ⟨hw, hk.of_same e ha, hu.of_same e, fun hal => ⟨(hstate hal).trans (hsess hal).1, (hsess hal).2⟩⟩
  case mark => exact ⟨h.1, h.2.1.of_same e, h.2.2⟩
  case restorable | stage | discover => exact ⟨h.1, h.2.1.of_same e, fun hk => hresume (h.2.2 hk)⟩
  case connect => exact ⟨h.1, h.2.of_same e⟩
  case canReplace => exact ⟨h.1, h.2.1.of_same e, fun hk => hresume (h.2.2 hk)⟩
  case connected | enable => exact ⟨h.1, hresume h.2⟩
  case unready | install => exact ⟨h.1, h.2.of_same e⟩
  case replace => exact ⟨h.1, h.2.1.of_same e, e.mirror.trans h.2.2⟩
  case ready | enableFresh => exact ⟨h.1, h.2.of_same e⟩
  case fresh =>
    obtain ⟨hw, hi, hacc, hst⟩ := h
    have hsess := e.session (hb (.inr rfl))
    exact ⟨hw, hi.of_same e, hsess.1.trans hacc, hsess.2.trans hst⟩
  case fail => exact h
  case resume r | unlock r =>
    cases r
    · exact hend h
    · exact ⟨h.1, hdone h.2 (hb (.inr rfl))⟩

theorem canReplacePortAdapters_eq_false {ports : List Nat} :
    s.canReplacePortAdapters ports = false ↔ s.Stranded ports := by
  simp [Shared.canReplacePortAdapters, Shared.Stranded]

/-- With no sample pending there is nothing that the new adapters have to take. -/
theorem canReplace_of_noPending (h : s.NoPending) (ports : List Nat) : s.canReplacePortAdapters ports = true := by
  simp only [Shared.canReplacePortAdapters, List.all_eq_true, Bool.or_eq_true, Bool.not_eq_eq_eq_not, Bool.not_true]
  exact fun x hx => .inl (h x hx)

/-- Where the old interface cannot be restored, its adapters have nothing pending. -/
theorem noPending_of_restore (hr : Restorable false s) (hrest : s.Rest) : s.NoPending := by
  cases hready : s.interfaceReady with
  | true => exact (hrest.1 (hr.2.1 rfl hready)).2
  | false =>
      obtain hst | hnil := hrest.2 hready
      · exact (hrest.1 hst).2
      · intro x hx
        rw [hnil] at hx
        cases hx

theorem StagedBy.of_stagePorts (hu : Unstaged s₀ s) (ports : List PortDescription) :
    StagedBy s₀ { s.stagePorts ports with nextMirror := s.nextMirror + 1 }
      ⟨s.nextMirror, (List.range ports.length).map (s.nextAdapter + ·)⟩ :=
  ⟨hu.1, ports.length, by rw [hu.2], by rw [← hu.2]; exact (stagePorts_spec ports s).1⟩

theorem Resumable.of_stagePorts (hu : Unstaged s₀ s) (h : Resumable alone s₀ s) (ports : List PortDescription) :
    Resumable alone s₀ { s.stagePorts ports with nextMirror := s.nextMirror + 1 } := by
  obtain ⟨-, hports, hbelow, -, -, hsame⟩ := stagePorts_spec ports s
  obtain ⟨hk, hsess⟩ := h
  refine ⟨⟨hsame.interfaceReady.trans hk.1, hsame.interfaceStale.trans hk.2, hsame.mirror.trans hk.3, hports.trans hk.4,
    fun hal x hx => ?_⟩, hsess⟩
  exact (hbelow x (hu.2 ▸ hx)).trans (hk.5 hal x hx)

/-- A step of the call itself. -/
theorem call_step {pc pc' : SyncPc} (hi : AccessInv s) (hf : syncFacts s pc) (hp : syncPorts s pc)
    (hu : pc = .disableLocked → s.mutex = none → alone → Usable s₀) (h : callFacts alone s₀ s why pc)
    (ha : syncAction t a s pc = some (s', .inl pc')) : callFacts alone s₀ s' (why ++ pc.causes a s) pc' := by
  replace ha := syncAction_step ha
  cases ha
  case lock => exact h.elim
  case throws hraise =>
    obtain ⟨rfl, hk, -, hsess⟩ := h
    refine .inl ⟨.inl ?_, hk, fun hal => (hsess hal).symm⟩
    rw [SyncPc.causes, if_pos hraise, List.nil_append]
  case context hraise =>
    rw [SyncPc.causes, if_neg hraise, List.append_nil]
    exact h
  case canReplace staged restore hcan =>
    have hplace : ¬ s.Stranded staged.ports := fun hst => by
      rw [canReplacePortAdapters_eq_false.2 hst] at hcan
      cases hcan
    rw [SyncPc.causes, if_neg hplace, List.append_nil]
    exact ⟨h.1, h.2.1⟩
  case restore staged hcan =>
    obtain ⟨rfl, -, hresume⟩ := h
    rw [SyncPc.causes, if_pos (canReplacePortAdapters_eq_false.1 hcan)]
    exact ⟨rfl, hresume rfl⟩
  case keep staged hcan =>
    -- a rejection without a way back: there would be nothing to reject
    rw [canReplace_of_noPending (noPending_of_restore hf.2.1 hp.1)] at hcan
    cases hcan
  all_goals change callFacts alone s₀ _ (why ++ []) _
  all_goals rw [List.append_nil]
  case entry | pauseWait | unready | ready => exact h
  case disable => exact ⟨h.1, ⟨h.2.1.1, h.2.1.2, h.2.1.3, h.2.1.4, h.2.1.5⟩, h.2.2.1, fun hal => (h.2.2.2 hal).1⟩
  case disableLocked hmutex =>
    obtain ⟨hw, hk, hun, hst⟩ := h
    exact ⟨hw, ⟨hk.1, hk.2, hk.3, hk.4, hk.5⟩, hun, fun hal => ⟨hst hal, hu rfl hmutex hal⟩⟩
  case pause => exact ⟨h.1, ⟨h.2.1.1, h.2.1.2, h.2.1.3, h.2.1.4, h.2.1.5⟩, h.2.2⟩
  case testMark entry _ hentry _ => exact ⟨h.1, h.2.2.1, hentry⟩
  case test entry _ =>
    obtain ⟨hw, hk, hun, hsess⟩ := h
    refine ⟨hw, hun, fun he => ⟨hk, fun hal => ⟨?_, (hsess hal).2⟩⟩⟩
    rw [← (hsess hal).1, hf.2]
    exact he
  case mark pc entry r hstale =>
    obtain ⟨hw, ⟨hm, hn⟩, hentry⟩ := h
    have hun : Unstaged s₀ s' := by
      cases staleAction_step hstale
      all_goals exact ⟨hm, hn⟩
    cases r
    · exact ⟨hw, hun, fun he => absurd he hentry⟩
    · exact ⟨hw, hun, hentry⟩
  case reconnect => exact ⟨h.1, h.2.1⟩
  case restorable entry he => exact ⟨h.1, h.2.1, fun _ => h.2.2 he⟩
  case connect pc restore r hconn =>
    obtain ⟨hw, hm, hn⟩ := h
    have hun : Unstaged s₀ s' := by
      cases connectAction_step hconn
      all_goals exact ⟨hm, hn⟩
    obtain pc' | ok := r
    · exact ⟨hw, hun⟩
    · cases ok
      · exact hw
      · refine ⟨hw, hun, fun hr => ?_⟩
        rw [hf.2.1] at hr
        cases hr
  case stage => exact h
  case staged restore ports _ _ =>
    exact ⟨h.1, .of_stagePorts h.2.1 _, fun hr => .of_stagePorts h.2.1 (h.2.2 hr) _⟩
  case duplicate | stageFails | installFails => exact h.1
  case discover pc restore r hdisc =>
    obtain ⟨hw, ⟨hm, hn⟩, hresume⟩ := h
    have hsame : Unstaged s₀ s' ∧ (Kept alone s₀ s → Kept alone s₀ s') := by
      cases discoverAction_step hdisc
      all_goals exact ⟨⟨hm, hn⟩, fun hk => ⟨hk.1, hk.2, hk.3, hk.4, hk.5⟩⟩
    have hnext : Unstaged s₀ s' ∧ (restore = true → Resumable alone s₀ s') :=
      ⟨hsame.1, fun hr => ⟨hsame.2 (hresume hr).1, (hresume hr).2⟩⟩
    obtain pc' | ok := r
    · exact ⟨hw, hnext⟩
    · cases ok
      · exact hw
      · exact ⟨hw, hnext⟩
  case connected => exact h
  case lost hlost => exact absurd hf.2.2 hlost
  case enable =>
    obtain ⟨hw, hk, hsess⟩ := h
    refine .inl ⟨.inr hw, ⟨hk.1, hk.2, hk.3, hk.4, hk.5⟩, fun hal => ⟨?_, ?_⟩⟩
    · obtain ⟨hcon, huse⟩ := hsess hal
      have hready := (hf.2.1.1 rfl).1
      have hstale := (hf.2.1.1 rfl).2
      exact (huse (hk.1 ▸ hready) (hk.2 ▸ hstale) hcon).symm
    · exact hf.2.2.trans (hsess hal).1.symm
  case install => exact ⟨h.1, h.2, rfl⟩
  case replace staged =>
    obtain ⟨hw, ⟨hm, n, hn, hnext⟩, hmirror⟩ := h
    obtain ⟨hsame, hnext'⟩ := replacePortAdapters_same staged.ports s
    exact ⟨hw, ⟨rfl, n, hn, hnext'.trans hnext⟩, hsame.mirror.trans (hmirror.trans (congrArg some hm))⟩
  case enableFresh => exact ⟨h.1, h.2, rfl, hf.2.1⟩
  case fresh => exact ⟨h.1, h.2.1, hf.2.1, rfl, h.2.2⟩
  case fail pc r hstale =>
    cases r
    case some => exact h
    case none =>
      -- only the end of the loop over the adapters has no next point
      cases staleAction_step hstale
      refine .inr ⟨h, hf.2.1, ?_, hp.1, fun x hx => hp.2.2 x hx (by simp)⟩
      exact hi.shut hf.1.2
  case stayPaused r hstale =>
    cases r
    · exact h
    · rw [h.2.2.2.1] at hstale
      cases hstale
  case resume r hnot =>
    cases r
    · obtain ⟨hw, hr⟩ | ⟨-, hd⟩ := h
      · exact .inl ⟨hw, ⟨hr.1.1, hr.1.2, hr.1.3, hr.1.4, hr.1.5⟩, hr.2⟩
      · rw [hd.stale] at hnot
        cases hnot
    · exact h

end Steps

/-! ## A whole call -/

/-- A `synchronize` that is about to return, and what. -/
def Pc.returns : Pc → Option Bool
  | .sync (.unlock r) _ => some r
  | _ => none

/-- A step during a call of `synchronize` by `t`, before it returns. Nobody else invalidates the interface once
`markInterfaceFresh` has enabled access; `alone`: nobody else invalidates it or pumps ports at all. -/
structure DuringCall (alone : Prop) (t : Thread) (c : Config Thread Shared Pc) (u : Thread) (a : Choice) : Prop where
  copies : Copies u a (c.frame u)
  running : u = t → (c.frame t).returns = none
  fresh : u ≠ t → (c.frame t).succeeds = true → (c.frame u).storing = false
  quiet : alone → u ≠ t → u ≠ .pump ∧ (c.frame u).storing = false

/-- What a step shows of the causes for which the call of `t` is given up. -/
def causes (t : Thread) (c : Config Thread Shared Pc) (u : Thread) (a : Choice) : List Cause :=
  match c.frame t with
  | .sync pc _ => if u = t then pc.causes a c.shared else []
  | _ => []

/-- The call is at one of its points. `stuck`: a request that was between its two stores still is. -/
structure InCall (alone : Prop) (t : Thread) (creating : Bool) (c₀ : Config Thread Shared Pc) (why : List Cause)
    (c : Config Thread Shared Pc) : Prop where
  reached : Reached c
  facts : ∃ pc, c.frame t = .sync pc creating ∧ callFacts alone c₀.shared c.shared why pc
  stuck : alone → ∀ u, (c₀.frame u).invalidating = true → c.frame u = c₀.frame u

section Run

variable {alone : Prop} {t u : Thread} {a : Choice} {creating : Bool} {c₀ c c' : Config Thread Shared Pc} {why : List Cause}

theorem syncFacts_of_point {s : Shared} {pc : SyncPc} (h : pointFacts t s (.sync pc creating)) : syncFacts s pc := by
  cases creating
  · exact h.2
  · exact h.2.2

theorem storing_of_invalidating {l : Pc} (h : l.invalidating = true) : l.storing = true := by
  unfold Pc.invalidating at h
  split at h
  · rename_i k hreq
    simp [Pc.storing, hreq]
  · cases h

/-- A call that gets past its locked store has found no request between its two stores. -/
theorem usable_of_free (h₀ : Reached c₀) (hstart : c₀.frame t = .sync .context creating)
    (hstuck : ∀ u, (c₀.frame u).invalidating = true → c.frame u = c₀.frame u) (hc : accessOutline.Holds c)
    (hfree : c.shared.mutex = none) : Usable c₀.shared := by
  have hb := access_reachable h₀.reachable
  have hset : syncFacts c₀.shared .context := syncFacts_of_point (hstart ▸ (hb.2 t).point)
  have hown : c₀.shared.synchronizeMutex = some t := (hb.2 t).synchronizeMutex.mpr (by rw [hstart]; rfl)
  obtain hg | ⟨u, hu, hinv⟩ := granted_or_invalidating hb hset fun u hu => by
    rw [Bool.eq_false_iff]
    intro hu'
    have heq : u = t := Option.some.inj (((hb.2 u).synchronizeMutex.mpr hu').symm.trans hown)
    have hmu := (hb.2 u).mutex.mp hu
    rw [heq, hstart] at hmu
    cases hmu
  · exact fun hready hstale hcon => hg (hset.2 hready hstale hcon) hcon
  · have hmu := (hb.2 u).mutex.mp hu
    rw [← hstuck u hinv] at hmu
    rw [(hc.2 u).mutex.mpr hmu] at hfree
    cases hfree

theorem inCall_step (h₀ : Reached c₀) (hstart : c₀.frame t = .sync .context creating)
    (h : InCall alone t creating c₀ why c) (hk : DuringCall alone t c u a) (hn : program.next c u a = some c') :
    InCall alone t creating c₀ (why ++ causes t c u a) c' := by
  obtain ⟨hreach, ⟨pc, hpc, hfacts⟩, hstuck⟩ := h
  have hb := access_reachable hreach.reachable
  have ho := port_reached hreach
  have hreach' : Reached c' := .step hreach hk.copies hn
  obtain ⟨s', l', ha, rfl⟩ := next_eq_some.mp hn
  have hnot : ∀ v, (c₀.frame v).invalidating = true → v ≠ t := by
    rintro v hv rfl
    rw [hstart] at hv
    cases hv
  by_cases hu : u = t
  · subst hu
    replace ha : threadAction u a c.shared (.sync pc creating) = some (s', l') := hpc ▸ ha
    cases threadStep ha
    case sync pc' hstep =>
      have hf := hb.2 u
      have hp := ho.2 u
      rw [hpc] at hf hp
      refine ⟨hreach', ⟨pc', by simp, ?_⟩, fun hal v hv => ?_⟩
      · simp only [causes, hpc, if_true]
        refine call_step hb.1 (syncFacts_of_point hf.point) hp.2 (fun _ hfree hal => ?_) hfacts hstep
        exact usable_of_free h₀ hstart (hstuck hal) hb hfree
      · simp only [Function.update_of_ne (hnot v hv)]
        exact hstuck hal v hv
    case syncReturn r =>
      have := hk.running rfl
      rw [hpc] at this
      cases this
  · obtain ⟨e, hadapter⟩ := other_step (hb.2 u) (ho.2 u)
      ((hb.2 t).synchronizeMutex.mpr (by rw [hpc]; cases pc <;> first | rfl | exact hfacts.elim)) hu ha
    refine ⟨hreach', ⟨pc, ?_, ?_⟩, fun hal v hv => ?_⟩
    · simp [Function.update_of_ne (Ne.symm hu), hpc]
    · simp only [causes, hpc, if_neg hu, List.append_nil]
      refine callFacts_stable creating e ?_ (fun hal => hadapter (hk.quiet hal hu).1)
        ((hb.2 t).synchronizeMutex.mpr (by rw [hpc]; cases pc <;> first | rfl | exact hfacts.elim))
        ((access_step hb.1 (hb.2 u) ha).2.2 t (Ne.symm hu))
        ((port_step hb.1 (hb.2 u) ho.1 (ho.2 u) hk.copies ha).2.2 t (Ne.symm hu)) hfacts
      rintro (hal | hsucc)
      · exact (hk.quiet hal hu).2
      · exact hk.fresh hu (by rw [hpc]; exact hsucc)
    · have hne : v ≠ u := by
        rintro rfl
        have hst := storing_of_invalidating hv
        rw [← hstuck hal v hv, (hk.quiet hal hu).2] at hst
        cases hst
      simp only [Function.update_of_ne hne]
      exact hstuck hal v hv

theorem inCall_run (h₀ : Reached c₀) (hstart : c₀.frame t = .sync .context creating)
    (hrun : program.TraceFrom (DuringCall alone t) (causes t) c₀ why c) : InCall alone t creating c₀ why c := by
  refine hrun.preserves (Q := InCall alone t creating c₀) ?_ fun _ _ _ _ _ _ hd hk hn => inCall_step h₀ hstart hd hk hn
  refine ⟨h₀, ⟨.context, hstart, ?_⟩, fun _ _ _ => rfl⟩
  exact ⟨rfl, ⟨rfl, rfl, rfl, rfl, fun _ _ _ => rfl⟩, ⟨rfl, rfl⟩, fun _ => ⟨rfl, rfl⟩⟩

end Run

end RttOpcua.Proxy
