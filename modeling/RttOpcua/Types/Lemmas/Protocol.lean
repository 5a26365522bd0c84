import RttOpcua.Types.Lemmas.Registry
import RttOpcua.Types.Protocol

/-!
# Registration of protocols

The outline of `protocolProgram`: who is between `hasProtocol` and the end of the lock knows what the `TypeInfo` holds.
-/

namespace RttOpcua.Types

open RttOpcua.Lib Threads

variable {F T : Type}

/-! ## The registry -/

theorem registerNew_frozen (s : RegistryState F) (p : DataTypeProvider F) : (registerNew s p).1.frozen = s.frozen := by
  unfold registerNew
  split
  · rfl
  · split
    · rfl
    · split <;> rfl

@[simp]
theorem register_frozen (s : RegistryState F) (p : DataTypeProvider F) :
    (registerDataTypeProvider s p).1.frozen = s.frozen := by
  unfold registerDataTypeProvider
  simp only
  split
  · split
    · rfl
    · exact registerNew_frozen s _
  · exact registerNew_frozen s _

theorem freeze_keeps_frozen {s : RegistryState F} (h : s.frozen = true) : (freezeDataTypeRegistry s).1.frozen = true := by
  rw [freeze_frozen h]
  exact h

/-! ## The outline -/

/-- The statements under `registration_mutex`. -/
def ProtocolPc.holds : ProtocolPc F T → Bool
  | .has _ => true
  | .frozen _ => true
  | .add _ => true
  | .unlock _ _ => true
  | _ => false

def ProtocolPc.registration : ProtocolPc F T → Option (Registration T)
  | .provider r => some r
  | .lock r => some r
  | .has r => some r
  | .frozen r => some r
  | .add r => some r
  | .unlock r _ => some r
  | .registered r _ => some r
  | _ => none

/-- What the type held when the call began, it holds now. -/
def Held (s : ProtocolState F T) (r : Registration T) : Prop :=
  ∀ x, r.held = some x → ∃ t, r.type = some t ∧ s.transporter t = some x

/-- A registration that a `TypeInfo` without a transporter may get. -/
def Free (s : ProtocolState F T) (r : Registration T) : Prop :=
  ∃ t p, r.type = some t ∧ r.protocol = some p ∧ p.registrationFingerprint ≠ [] ∧ s.transporter t = none

/-- Success means that the type holds an equal protocol. -/
def Decided (s : ProtocolState F T) (r : Registration T) (result : Except Str Unit) : Prop :=
  ∀ t p, r.type = some t → r.protocol = some p →
    (result = .ok () ↔ ∃ q, s.transporter t = some (.typeProtocol q) ∧ sameRegistration q p = true)

def ProtocolFacts (s : ProtocolState F T) : ProtocolPc F T → Prop
  | .provider r => Held s r ∧ r.protocol = some connPolicyProtocol
  | .lock r => Held s r
  | .has r => Held s r
  | .frozen r => Held s r ∧ Free s r
  | .add r => Held s r ∧ Free s r
  | .unlock r result => Held s r ∧ Decided s r result
  | .leave result => result.toBool = true → s.registry.frozen = true
  | _ => True

/-- What no other thread undoes: the lock and what the types hold under it, what a type holds, the freeze. -/
structure ProtocolRely (i : Nat) (s s' : ProtocolState F T) : Prop where
  locked : s.registrationMutex = some i → s'.registrationMutex = some i ∧ s'.transporter = s.transporter
  held : ∀ t x, s.transporter t = some x → s'.transporter t = some x
  frozen : s.registry.frozen = true → s'.registry.frozen = true

def protocolOutline : Outline Nat (ProtocolState F T) (ProtocolPc F T) where
  inv s := ∀ t p, s.transporter t = some (.typeProtocol p) → p.registrationFingerprint ≠ []
  assertion i pc s := (pc.holds = true → s.registrationMutex = some i) ∧ ProtocolFacts s pc
  rely := ProtocolRely

section Outline

variable {env : Environment F T} {s s' : ProtocolState F T} {pc pc' : ProtocolPc F T} {i : Nat} {r : Registration T}

theorem Held.heldBy (s : ProtocolState F T) (type : Option T) (protocol : Option TypeProtocol) :
    Held s ⟨type, protocol, heldBy s type⟩ := by
  intro x hx
  exact Option.bind_eq_some_iff.1 hx

theorem Held.mono (h : Held s r) (hkeep : ∀ t x, s.transporter t = some x → s'.transporter t = some x) : Held s' r := by
  intro x hx
  obtain ⟨t, ht, hs⟩ := h x hx
  exact ⟨t, ht, hkeep t x hs⟩

theorem Free.held (h : Free s r) (hr : Held s r) : r.held = none := by
  obtain ⟨t, p, ht, -, -, hnone⟩ := h
  cases hx : r.held with
  | none => rfl
  | some x =>
      obtain ⟨t', ht', hs⟩ := hr x hx
      obtain rfl : t = t' := Option.some.inj (ht.symm.trans ht')
      rw [hnone] at hs
      cases hs

/-- Facts survive what other threads do. -/
theorem protocolFacts_stable (hlock : pc.holds = true → s.registrationMutex = some i) (h : ProtocolFacts s pc)
    (hrely : ProtocolRely i s s') :
    (pc.holds = true → s'.registrationMutex = some i) ∧ ProtocolFacts s' pc := by
  refine ⟨fun hh => (hrely.locked (hlock hh)).1, ?_⟩
  cases pc with
  | idle | registered | registerProvider | freeze | done => trivial
  | provider r => exact ⟨h.1.mono hrely.held, h.2⟩
  | lock r | has r => exact Held.mono h hrely.held
  | frozen r | add r =>
      have hsame := (hrely.locked (hlock rfl)).2
      refine ⟨h.1.mono hrely.held, ?_⟩
      rw [Free, hsame]
      exact h.2
  | unlock r result =>
      have hsame := (hrely.locked (hlock rfl)).2
      refine ⟨h.1.mono hrely.held, ?_⟩
      rw [Decided, hsame]
      exact h.2
  | leave result => exact fun hok => hrely.frozen (h hok)

theorem beginCall_facts [DecidableEq T] (env : Environment F T) (s : ProtocolState F T) (c : ProtocolCall F T) :
    (beginCall env s c).holds = false ∧ ProtocolFacts s (beginCall env s c) := by
  cases c with
  | registerTypeProtocol type protocol => exact ⟨rfl, .heldBy s type protocol⟩
  | registerDataTypeProvider provider => exact ⟨rfl, trivial⟩
  | freezeDataTypeRegistry => exact ⟨rfl, trivial⟩
  | registerCanonicalTypeProtocol typeName type =>
      simp only [beginCall, beginCanonical]
      split
      · split
        · exact ⟨rfl, .heldBy s type _, rfl⟩
        · exact ⟨rfl, trivial⟩
      · split
        · exact ⟨rfl, trivial⟩
        · split
          · exact ⟨rfl, trivial⟩
          · split
            · exact ⟨rfl, trivial⟩
            · exact ⟨rfl, .heldBy s _ _⟩

theorem hasAction_facts (hinv : ∀ t p, s.transporter t = some (.typeProtocol p) → p.registrationFingerprint ≠ [])
    (h : Held s r) : (hasAction env s r).holds = true ∧ ProtocolFacts s (hasAction env s r) := by
  unfold hasAction
  split
  · rename_i t p ht hp
    have hdecided : ∀ result : Except Str Unit,
        (result = .ok () ↔ ∃ q, s.transporter t = some (.typeProtocol q) ∧ sameRegistration q p = true) →
        Decided s r result := by
      intro result hiff t' p' ht' hp'
      obtain rfl : t = t' := Option.some.inj (ht.symm.trans ht')
      obtain rfl : p = p' := Option.some.inj (hp.symm.trans hp')
      exact hiff
    split
    · rename_i hempty
      refine ⟨rfl, h, hdecided _ ?_⟩
      simp only [reduceCtorEq, false_iff, not_exists, not_and, Bool.not_eq_true]
      intro q hq
      simp [sameRegistration, hempty, hinv t q hq]
    · rename_i hne
      split
      · rename_i hnone
        exact ⟨rfl, h, t, p, ht, hp, hne, hnone⟩
      · rename_i existing hsome
        simp only
        split
        · rename_i q
          split
          · rename_i hsame
            exact ⟨rfl, h, hdecided _ ⟨fun _ => ⟨q, hsome, hsame⟩, fun _ => rfl⟩⟩
          · rename_i hdifferent
            refine ⟨rfl, h, hdecided _ ?_⟩
            simp [hsome, hdifferent]
        · refine ⟨rfl, h, hdecided _ ?_⟩
          simp [hsome]
  · rename_i hnone
    refine ⟨rfl, h, fun t p ht hp => absurd ?_ (hnone t p ht)⟩
    exact hp

theorem hasAction_cases (env : Environment F T) (s : ProtocolState F T) (r : Registration T) :
    hasAction env s r = .frozen r ∨ ∃ result, hasAction env s r = .unlock r result := by
  unfold hasAction
  split
  · split
    · exact .inr ⟨_, rfl⟩
    · split
      · exact .inl rfl
      · simp only
        split
        · split <;> exact .inr ⟨_, rfl⟩
        · exact .inr ⟨_, rfl⟩
  · exact .inr ⟨_, rfl⟩

theorem addAction_unlocks [DecidableEq T] (env : Environment F T) (s : ProtocolState F T) (r : Registration T) (added : Bool) :
    (addAction env s r added).1.freezeReturned = s.freezeReturned ∧
      ∃ result, (addAction env s r added).2 = .unlock r result := by
  unfold addAction
  split
  · split <;> exact ⟨rfl, _, rfl⟩
  · exact ⟨rfl, _, rfl⟩

/-- A registration of a free type that fails is no success. -/
theorem Free.decided_error (h : Free s r) (message : Str) : Decided s r (.error message) := by
  obtain ⟨t, p, ht, -, -, hnone⟩ := h
  intro t' p' ht' _
  obtain rfl : t = t' := Option.some.inj (ht.symm.trans ht')
  simp [hnone]

theorem protocolOutline_step [DecidableEq T] {a : ProtocolChoice F T}
    (hinv : ∀ t p, s.transporter t = some (.typeProtocol p) → p.registrationFingerprint ≠ [])
    (hlock : pc.holds = true → s.registrationMutex = some i) (h : ProtocolFacts s pc)
    (hstep : protocolAction env i a s pc = some (s', pc')) :
    (∀ t p, s'.transporter t = some (.typeProtocol p) → p.registrationFingerprint ≠ []) ∧
      ((pc'.holds = true → s'.registrationMutex = some i) ∧ ProtocolFacts s' pc') ∧
      ∀ j, j ≠ i → ProtocolRely j s s' := by
  have quiet : ∀ {s'' : ProtocolState F T}, s''.registrationMutex = s.registrationMutex →
      s''.transporter = s.transporter → (s.registry.frozen = true → s''.registry.frozen = true) →
      ∀ j, j ≠ i → ProtocolRely j s s'' := by
    intro s'' hm ht hf j _
    exact ⟨fun hj => ⟨hm.trans hj, ht⟩, fun t x hx => by rw [ht]; exact hx, hf⟩
  cases a with
  | call c =>
      have hbegin := beginCall_facts env s c
      cases pc with
      | idle | registered r result | done =>
          simp only [protocolAction, Option.some.injEq, Prod.mk.injEq] at hstep
          obtain ⟨rfl, rfl⟩ := hstep
          exact ⟨hinv, ⟨fun hh => absurd hh (by simp [hbegin.1]), hbegin.2⟩, quiet rfl rfl id⟩
      | _ => cases hstep
  | go added =>
      cases pc with
      | idle | registered r result | done => cases hstep
      | provider r =>
          simp only [protocolAction] at hstep
          have hfrozen := register_frozen s.registry (makeConnPolicyProvider env)
          split at hstep
          all_goals
            rename_i heq
            simp only [Option.some.injEq, Prod.mk.injEq] at hstep
            obtain ⟨rfl, rfl⟩ := hstep
            rw [heq] at hfrozen
          · exact ⟨hinv, ⟨nofun, h.1⟩, quiet rfl rfl fun hf => hfrozen.trans hf⟩
          · exact ⟨hinv, ⟨nofun, trivial⟩, quiet rfl rfl fun hf => hfrozen.trans hf⟩
      | lock r =>
          simp only [protocolAction] at hstep
          split at hstep
          · rename_i hfree
            simp only [Option.some.injEq, Prod.mk.injEq] at hstep
            obtain ⟨rfl, rfl⟩ := hstep
            refine ⟨hinv, ⟨fun _ => rfl, h⟩, fun j _ => ⟨fun hj => ?_, fun _ _ hx => hx, id⟩⟩
            simp [hj] at hfree
          · cases hstep
      | has r =>
          simp only [protocolAction, Option.some.injEq, Prod.mk.injEq] at hstep
          obtain ⟨rfl, rfl⟩ := hstep
          exact ⟨hinv, ⟨fun _ => hlock rfl, (hasAction_facts hinv h).2⟩, quiet rfl rfl id⟩
      | frozen r =>
          simp only [protocolAction, frozenAction, Option.some.injEq, Prod.mk.injEq] at hstep
          obtain ⟨rfl, rfl⟩ := hstep
          refine ⟨hinv, ⟨fun _ => hlock rfl, ?_⟩, quiet rfl rfl id⟩
          split
          · exact ⟨h.1, h.2.decided_error _⟩
          · exact h
      | add r =>
          obtain ⟨hheld, hfree⟩ := h
          have hnone := hfree.held hheld
          obtain ⟨t, p, ht, hp, hne, htype⟩ := hfree
          simp only [protocolAction, addAction, ht, hp, Option.some.injEq] at hstep
          split at hstep
          · obtain ⟨rfl, rfl⟩ := Prod.mk.inj hstep
            refine ⟨fun t' q hq => ?_, ⟨fun _ => hlock rfl, fun x hx => ?_, fun t' p' ht' hp' => ?_⟩,
              fun j hj => ⟨fun hm => ?_, fun t' x hx => ?_, id⟩⟩
            · by_cases heq : t' = t
              · subst heq
                simp only [Function.update_self, Option.some.injEq, Transporter.typeProtocol.injEq] at hq
                exact hq ▸ hne
              · simp only [Function.update_of_ne heq] at hq
                exact hinv t' q hq
            · rw [hnone] at hx
              cases hx
            · obtain rfl : t = t' := Option.some.inj (ht.symm.trans ht')
              obtain rfl : p = p' := Option.some.inj (hp.symm.trans hp')
              simp [sameRegistration]
            · rw [hlock rfl] at hm
              exact absurd (Option.some.inj hm).symm hj
            · have hne' : t' ≠ t := by
                rintro rfl
                rw [htype] at hx
                cases hx
              simp only [Function.update_of_ne hne']
              exact hx
          · obtain ⟨rfl, rfl⟩ := Prod.mk.inj hstep
            have hfree : Free s r := ⟨t, p, ht, hp, hne, htype⟩
            exact ⟨hinv, ⟨fun _ => hlock rfl, hheld, hfree.decided_error _⟩, quiet rfl rfl id⟩
      | unlock r result =>
          simp only [protocolAction, Option.some.injEq, Prod.mk.injEq] at hstep
          obtain ⟨rfl, rfl⟩ := hstep
          refine ⟨hinv, ⟨nofun, trivial⟩, fun j hj => ⟨fun hm => ?_, fun _ _ hx => hx, id⟩⟩
          rw [hlock rfl] at hm
          exact absurd (Option.some.inj hm).symm hj
      | registerProvider provider =>
          simp only [protocolAction, Option.some.injEq, Prod.mk.injEq] at hstep
          obtain ⟨rfl, rfl⟩ := hstep
          exact ⟨hinv, ⟨nofun, trivial⟩, quiet rfl rfl fun hf => by rw [register_frozen]; exact hf⟩
      | freeze =>
          simp only [protocolAction, Option.some.injEq, Prod.mk.injEq] at hstep
          obtain ⟨rfl, rfl⟩ := hstep
          refine ⟨hinv, ⟨nofun, fun hok => ?_⟩, quiet rfl rfl freeze_keeps_frozen⟩
          cases hresult : (freezeDataTypeRegistry s.registry).2 with
          | error message =>
              rw [hresult] at hok
              cases hok
          | ok order => exact (freeze_ok hresult).1
      | leave result =>
          simp only [protocolAction, Option.some.injEq, Prod.mk.injEq] at hstep
          obtain ⟨rfl, rfl⟩ := hstep
          exact ⟨hinv, ⟨nofun, trivial⟩, quiet rfl rfl id⟩

theorem protocolOutline_valid [DecidableEq T] :
    protocolOutline.Valid (protocolProgram env) (Outline.trivial : Outline Nat (ProtocolState F T) (ProtocolPc F T)) where
  step _ _ hinv h hstep := protocolOutline_step hinv h.1 h.2 hstep
  stable _ _ _ h hrely := protocolFacts_stable h.1 h.2 hrely

theorem protocolOutline_reachable [DecidableEq T] {c : Config Nat (ProtocolState F T) (ProtocolPc F T)}
    (h : (protocolProgram env).Reachable c) : protocolOutline.Holds c :=
  protocolOutline_valid.reachable (fun c _ => Outline.holds_trivial c) ⟨env.fingerprint, fun _ => ⟨nofun, trivial⟩⟩ h

end Outline

/-! ## Runs -/

/-- No freeze returns while a registration is between `dataTypeRegistryFrozen` and `addProtocol`, and the provider of
`ConnPolicy` is accepted where its protocol is there already. -/
def ProtocolsInOrder (env : Environment F T) (c : Config Nat (ProtocolState F T) (ProtocolPc F T)) (i : Nat)
    (_ : ProtocolChoice F T) : Prop :=
  match c.frame i with
  | .leave (.ok _) => ∀ j r, c.frame j ≠ .add r
  | .provider r =>
      (∃ q, heldBy c.shared r.type = some (.typeProtocol q) ∧ sameRegistration q connPolicyProtocol = true) →
        (registerDataTypeProvider c.shared.registry (makeConnPolicyProvider env)).2 = .ok ()
  | _ => True

/-- The registry is frozen and no registration has missed it. -/
def Sealed (c : Config Nat (ProtocolState F T) (ProtocolPc F T)) : Prop :=
  c.shared.registry.frozen = true ∧ ∀ j r, c.frame j ≠ .add r

/-- A call that began with a protocol in place ended as the comparison says. -/
def Answered (c : Config Nat (ProtocolState F T) (ProtocolPc F T)) : Prop :=
  ∀ i r result p x, c.frame i = .registered r result → r.protocol = some p → r.held = some x →
    (result = .ok () ↔ ∃ q, x = .typeProtocol q ∧ sameRegistration q p = true)

section Runs

variable [DecidableEq T] {env : Environment F T} {c c' : Config Nat (ProtocolState F T) (ProtocolPc F T)} {i : Nat}
  {a : ProtocolChoice F T}

theorem protocol_rely (hr : (protocolProgram env).Reachable c) (h : (protocolProgram env).next c i a = some c') :
    ∀ j, j ≠ i → ProtocolRely j c.shared c'.shared := by
  obtain ⟨hinv, hassert⟩ := protocolOutline_reachable hr
  obtain ⟨s, pc, hstep, rfl⟩ := next_eq_some.1 h
  exact (protocolOutline_step hinv (hassert i).1 (hassert i).2 hstep).2.2

theorem transporter_kept (hr : (protocolProgram env).Reachable c) (h : (protocolProgram env).next c i a = some c')
    {t : T} {x : Transporter} (hx : c.shared.transporter t = some x) : c'.shared.transporter t = some x :=
  (protocol_rely hr h (i + 1) (by omega)).held t x hx

/-- Only `addProtocol` changes what types hold. -/
theorem transporter_same (h : (protocolProgram env).next c i a = some c') (hne : ∀ r, c.frame i ≠ .add r) :
    c'.shared.transporter = c.shared.transporter := by
  obtain ⟨s, pc, hstep, rfl⟩ := next_eq_some.1 h
  change protocolAction env i a c.shared (c.frame i) = some (s, pc) at hstep
  cases hpc : c.frame i with
  | add r => exact absurd hpc (hne r)
  | provider r =>
      rw [hpc] at hstep
      cases a with
      | call d => cases hstep
      | go added =>
          simp only [protocolAction] at hstep
          split at hstep
          all_goals
            simp only [Option.some.injEq, Prod.mk.injEq] at hstep
            obtain ⟨rfl, rfl⟩ := hstep
            rfl
  | lock r =>
      rw [hpc] at hstep
      cases a with
      | call d => cases hstep
      | go added =>
          simp only [protocolAction] at hstep
          split at hstep
          · simp only [Option.some.injEq, Prod.mk.injEq] at hstep
            obtain ⟨rfl, rfl⟩ := hstep
            rfl
          · cases hstep
  | _ =>
      rw [hpc] at hstep
      cases a <;> simp only [protocolAction, reduceCtorEq, Option.some.injEq, Prod.mk.injEq] at hstep
      all_goals
        obtain ⟨rfl, rfl⟩ := hstep
        rfl

/-- A thread comes to `addProtocol` only if the registry was not frozen. -/
theorem add_of_next (h : (protocolProgram env).next c i a = some c') {r : Registration T} (hadd : c'.frame i = .add r) :
    c.shared.registry.frozen = false := by
  obtain ⟨s, pc, hstep, rfl⟩ := next_eq_some.1 h
  change protocolAction env i a c.shared (c.frame i) = some (s, pc) at hstep
  simp only [Function.update_self] at hadd
  subst hadd
  cases a with
  | call d =>
      have hholds := (beginCall_facts env c.shared d).1
      cases hpc : c.frame i with
      | idle | registered r result | done =>
          rw [hpc] at hstep
          simp only [protocolAction, Option.some.injEq, Prod.mk.injEq] at hstep
          rw [hstep.2] at hholds
          cases hholds
      | _ =>
          rw [hpc] at hstep
          cases hstep
  | go added =>
      cases hpc : c.frame i with
      | frozen r =>
          rw [hpc] at hstep
          simp only [protocolAction, frozenAction, Option.some.injEq, Prod.mk.injEq] at hstep
          by_contra hfrozen
          rw [if_pos (by simpa using hfrozen)] at hstep
          cases hstep.2
      | has r =>
          rw [hpc] at hstep
          simp only [protocolAction, Option.some.injEq, Prod.mk.injEq] at hstep
          obtain hhas | ⟨result, hhas⟩ := hasAction_cases env c.shared r
          all_goals
            rw [hhas] at hstep
            cases hstep.2
      | add r =>
          rw [hpc] at hstep
          simp only [protocolAction, Option.some.injEq] at hstep
          obtain ⟨-, result, hadd⟩ := addAction_unlocks env c.shared r added
          rw [hstep] at hadd
          cases hadd
      | provider r | lock r =>
          rw [hpc] at hstep
          simp only [protocolAction] at hstep
          split at hstep <;> cases hstep
      | _ =>
          rw [hpc] at hstep
          cases hstep

theorem freezeReturned_cases {s s' : ProtocolState F T} {pc pc' : ProtocolPc F T}
    (hstep : protocolAction env i a s pc = some (s', pc')) (hbefore : ¬ s.freezeReturned = true)
    (hafter : s'.freezeReturned = true) : ∃ order, pc = .leave (.ok order) := by
  cases a with
  | call d =>
      cases pc with
      | idle | registered r result | done =>
          simp only [protocolAction, Option.some.injEq, Prod.mk.injEq] at hstep
          obtain ⟨rfl, rfl⟩ := hstep
          exact absurd hafter hbefore
      | _ => cases hstep
  | go added =>
      cases pc with
      | leave result =>
          simp only [protocolAction, Option.some.injEq, Prod.mk.injEq] at hstep
          obtain ⟨rfl, rfl⟩ := hstep
          cases result with
          | error message => exact absurd hafter (by simpa [Except.toBool] using hbefore)
          | ok order => exact ⟨order, rfl⟩
      | provider r | lock r =>
          simp only [protocolAction] at hstep
          split at hstep
          all_goals
            simp only [reduceCtorEq, Option.some.injEq, Prod.mk.injEq] at hstep
            try
              obtain ⟨rfl, rfl⟩ := hstep
              exact absurd hafter hbefore
      | add r =>
          simp only [protocolAction, Option.some.injEq] at hstep
          have hsame := (addAction_unlocks env s r added).1
          rw [hstep] at hsame
          exact absurd (hsame ▸ hafter) hbefore
      | idle | registered r result | done => cases hstep
      | _ =>
          simp only [protocolAction, Option.some.injEq, Prod.mk.injEq] at hstep
          obtain ⟨rfl, rfl⟩ := hstep
          exact absurd hafter hbefore

/-- How a registration comes to its end: before it had a protocol, by its provider, or by the lock. -/
theorem registered_cases {s s' : ProtocolState F T} {pc : ProtocolPc F T} {r : Registration T}
    {result : Except Str Unit} (hstep : protocolAction env i a s pc = some (s', .registered r result)) :
    r.protocol = none ∨
      (pc = .provider r ∧ ∃ message, result = .error message ∧
        (registerDataTypeProvider s.registry (makeConnPolicyProvider env)).2 = .error message) ∨
      pc = .unlock r result := by
  cases a with
  | call d =>
      cases pc with
      | idle | registered r' result' | done =>
          simp only [protocolAction, Option.some.injEq, Prod.mk.injEq] at hstep
          obtain ⟨-, hbegin⟩ := hstep
          cases d with
          | registerCanonicalTypeProtocol typeName type =>
              simp only [beginCall, beginCanonical] at hbegin
              split at hbegin
              · split at hbegin
                · cases hbegin
                · cases hbegin
                  exact .inl rfl
              · split at hbegin
                · cases hbegin
                  exact .inl rfl
                · split at hbegin
                  · cases hbegin
                    exact .inl rfl
                  · split at hbegin
                    · cases hbegin
                      exact .inl rfl
                    · cases hbegin
          | _ => cases hbegin
      | _ => cases hstep
  | go added =>
      cases pc with
      | provider r' =>
          simp only [protocolAction] at hstep
          split at hstep
          · cases hstep
          · rename_i registry message heq
            simp only [Option.some.injEq, Prod.mk.injEq, ProtocolPc.registered.injEq] at hstep
            obtain ⟨-, rfl, rfl⟩ := hstep
            exact .inr (.inl ⟨rfl, message, rfl, by rw [heq]⟩)
      | unlock r' result' =>
          simp only [protocolAction, Option.some.injEq, Prod.mk.injEq, ProtocolPc.registered.injEq] at hstep
          obtain ⟨-, rfl, rfl⟩ := hstep
          exact .inr (.inr rfl)
      | lock r' =>
          simp only [protocolAction] at hstep
          split at hstep <;> cases hstep
      | has r' =>
          simp only [protocolAction, Option.some.injEq, Prod.mk.injEq] at hstep
          obtain hhas | ⟨result', hhas⟩ := hasAction_cases env s r'
          all_goals
            rw [hhas] at hstep
            cases hstep.2
      | frozen r' =>
          simp only [protocolAction, frozenAction, Option.some.injEq, Prod.mk.injEq] at hstep
          obtain ⟨-, hstep⟩ := hstep
          split at hstep <;> cases hstep
      | add r' =>
          simp only [protocolAction, Option.some.injEq] at hstep
          obtain ⟨-, result', hadd⟩ := addAction_unlocks env s r' added
          rw [hstep] at hadd
          cases hadd
      | _ => cases hstep

/-- Once the registry is sealed, it stays so and no type changes. -/
theorem sealed_step (hr : (protocolProgram env).Reachable c) (hs : Sealed c)
    (h : (protocolProgram env).next c i a = some c') :
    Sealed c' ∧ c'.shared.transporter = c.shared.transporter := by
  refine ⟨⟨(protocol_rely hr h (i + 1) (by omega)).frozen hs.1, fun j r hj => ?_⟩, transporter_same h (hs.2 i)⟩
  by_cases hji : j = i
  · subst hji
    have hfrozen := add_of_next h hj
    rw [hs.1] at hfrozen
    cases hfrozen
  · obtain ⟨s, pc, -, rfl⟩ := next_eq_some.1 h
    simp only [Function.update_of_ne hji] at hj
    exact hs.2 j r hj

theorem sealed_of_returned (h : (protocolProgram env).Reach (ProtocolsInOrder env) c)
    (hret : c.shared.freezeReturned = true) : Sealed c := by
  refine reach_preserves (Q := fun c => c.shared.freezeReturned = true → Sealed c) ?_
    (fun h₀ => absurd h₀ Bool.false_ne_true) h hret
  intro c i a c' hr ih hok hn hret
  by_cases hbefore : c.shared.freezeReturned = true
  · exact (sealed_step hr (ih hbefore) hn).1
  obtain ⟨hinv, hassert⟩ := protocolOutline_reachable hr
  obtain ⟨s, pc, hstep, rfl⟩ := next_eq_some.1 hn
  change protocolAction env i a c.shared (c.frame i) = some (s, pc) at hstep
  obtain ⟨order, hleave⟩ : ∃ order, c.frame i = .leave (.ok order) := freezeReturned_cases hstep hbefore hret
  have hfacts := (hassert i).2
  rw [hleave] at hfacts hstep
  rw [ProtocolsInOrder, hleave] at hok
  cases a with
  | call d => cases hstep
  | go added =>
      simp only [protocolAction, Option.some.injEq, Prod.mk.injEq] at hstep
      obtain ⟨rfl, rfl⟩ := hstep
      refine ⟨hfacts rfl, fun j r hj => ?_⟩
      by_cases hji : j = i
      · subst hji
        simp at hj
      · simp only [Function.update_of_ne hji] at hj
        exact hok j r hj

/-- The calls that have returned were answered by the comparison. -/
theorem answered_of_reach (h : (protocolProgram env).Reach (ProtocolsInOrder env) c) : Answered c := by
  refine reach_preserves (Q := Answered) ?_ (fun i r result p x hi => by cases hi) h
  intro c i a c' hr ih hok hn j r result p x hj hp hx
  by_cases hji : j = i
  · subst hji
    obtain ⟨s, pc, hstep, rfl⟩ := next_eq_some.1 hn
    obtain ⟨hinv, hassert⟩ := protocolOutline_reachable hr
    simp only [Function.update_self] at hj
    subst hj
    obtain hnone | ⟨hpc, message, rfl, hrejected⟩ | hpc := registered_cases hstep
    · rw [hp] at hnone
      cases hnone
    · -- the provider was rejected
      have hfacts := (hassert j).2
      rw [hpc] at hfacts
      obtain ⟨hheld, hconn⟩ := hfacts
      rw [ProtocolsInOrder, hpc] at hok
      obtain rfl : p = connPolicyProtocol := Option.some.inj (hp.symm.trans hconn)
      obtain ⟨t, ht, hstored⟩ := hheld x hx
      refine ⟨nofun, ?_⟩
      rintro ⟨q, rfl, hsame⟩
      rw [hok ⟨q, by rw [heldBy, ht]; exact hstored, hsame⟩] at hrejected
      cases hrejected
    · have hfacts := (hassert j).2
      rw [hpc] at hfacts
      obtain ⟨t, ht, hstored⟩ := hfacts.1 x hx
      have hdecided := hfacts.2 t p ht hp
      rw [hstored] at hdecided
      simpa using hdecided
  · obtain ⟨s, pc, -, rfl⟩ := next_eq_some.1 hn
    simp only [Function.update_of_ne hji] at hj
    exact ih j r result p x hj hp hx

end Runs

end RttOpcua.Types
