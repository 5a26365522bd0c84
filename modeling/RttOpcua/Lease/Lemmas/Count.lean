import RttOpcua.Lib.Tally
import RttOpcua.Lease.Lemmas.Rules

/-!
# Counting leases

What an action does to the leases: nothing, or one lease is taken, released, moved from a stack to a
pending invocation, or released with a pending invocation. So `users` stays the number of places that
hold a valid lease, and a state whose component pointer is null has none.
-/

namespace RttOpcua.Lease

open RttOpcua.Lib

/-- The `users` of each state. -/
def Shared.users (s : Shared) (x : Nat) : Nat := (s.state x).users

/-- The lease of each pending invocation. -/
def Shared.pendingLease (s : Shared) (p : Nat) : Option Nat := (s.pending p).lease

@[grind cases]
structure LeaseInv (s : Shared) : Prop where
  closed : ∀ x, (s.state x).component = none → (s.state x).users = 0
  freshState : ∀ x, s.nextState ≤ x → (s.state x).component = none
  freshPending : ∀ p, s.nextPending ≤ p → (s.pending p).lease = none

/-- The leases that a thread at `l` can touch are counted. -/
structure Counted (s : Shared) (l : Pc) : Prop where
  stack : ∀ x, l.lease = some x → 0 < (s.state x).users
  pending : ∀ p x, (s.pending p).lease = some x → 0 < (s.state x).users

/-- What an action from `s`, `l` to `s'`, `l'` does to the leases. -/
inductive Effect (s : Shared) (l : Pc) (s' : Shared) (l' : Pc) : Prop where
  | same : l'.lease = l.lease → s'.users = s.users → s'.pendingLease = s.pendingLease → Effect s l s' l'
  | take (x : Nat) : (s.state x).component.isSome = true → l.lease = none → l'.lease = some x →
      s'.users = Function.update s.users x (s.users x + 1) → s'.pendingLease = s.pendingLease → Effect s l s' l'
  | release (x : Nat) : l.lease = some x → l'.lease = none →
      s'.users = Function.update s.users x (s.users x - 1) → s'.pendingLease = s.pendingLease → Effect s l s' l'
  | move (p x : Nat) : p < s'.nextPending → l.lease = some x → l'.lease = none → s.pendingLease p = none →
      s'.users = s.users → s'.pendingLease = Function.update s.pendingLease p (some x) → Effect s l s' l'
  | destroy (p x : Nat) : l'.lease = l.lease → s.pendingLease p = some x →
      s'.users = Function.update s.users x (s.users x - 1) →
      s'.pendingLease = Function.update s.pendingLease p none → Effect s l s' l'

/-! ## The changes of the members -/

section Changes

variable {s s' : Shared} {l l' : Pc} {x p o : Nat}

theorem users_modifyState {f : ComponentState → ComponentState} :
    (s.modifyState x f).users = Function.update s.users x (f (s.state x)).users := by
  ext y
  by_cases hy : y = x <;> simp [Shared.users, Shared.modifyState, hy]

theorem users_modifyState_same {f : ComponentState → ComponentState} (h : ∀ k, (f k).users = k.users) :
    (s.modifyState x f).users = s.users := by
  rw [users_modifyState, h]
  exact Function.update_eq_self x s.users

theorem pendingLease_modifyPending {f : PendingInvocation → PendingInvocation} :
    (s.modifyPending p f).pendingLease = Function.update s.pendingLease p (f (s.pending p)).lease := by
  ext q
  by_cases hq : q = p <;> simp [Shared.pendingLease, Shared.modifyPending, hq]

theorem pendingLease_modifyPending_same {f : PendingInvocation → PendingInvocation}
    (h : ∀ k, (f k).lease = k.lease) : (s.modifyPending p f).pendingLease = s.pendingLease := by
  rw [pendingLease_modifyPending, h]
  exact Function.update_eq_self p s.pendingLease

theorem users_release (h : 0 < (s.state x).users) :
    (s.release x).users = Function.update s.users x (s.users x - 1) := by
  rw [Shared.release, users_modifyState]
  simp [Nat.pos_iff_ne_zero.mp h, Shared.users]

@[simp] theorem state_collect (r : Collected) : (s.collect o r).state = s.state := by
  unfold Shared.collect; split <;> rfl

@[simp] theorem pending_collect (r : Collected) : (s.collect o r).pending = s.pending := by
  unfold Shared.collect; split <;> rfl

@[simp] theorem nextState_collect (r : Collected) : (s.collect o r).nextState = s.nextState := by
  unfold Shared.collect; split <;> rfl

@[simp] theorem nextPending_collect (r : Collected) : (s.collect o r).nextPending = s.nextPending := by
  unfold Shared.collect; split <;> rfl

theorem collect_effect (r : Collected) (hl : l'.lease = l.lease) : Effect s l (s.collect o r) l' :=
  .same hl (by ext x; simp [Shared.users]) (by ext q; simp [Shared.pendingLease])

/-- A reference to a pending invocation goes: nothing happens, or its lease is released. -/
theorem destroyPending_effect (hl : l'.lease = l.lease) (hc : ∀ x, (s.pending p).lease = some x → 0 < (s.state x).users) :
    Effect s l (s.destroyPending p) l' := by
  unfold Shared.destroyPending
  split
  · next x hx =>
    refine .destroy p x hl hx ?_ ?_
    · rw [← users_release (hc x hx)]; rfl
    · rw [pendingLease_modifyPending]; rfl
  · exact .same hl rfl rfl

/-- Flags of pending invocations do not matter. -/
theorem Effect.flags {s₁ : Shared} (h : Effect s₁ l s' l') (hs : s₁.state = s.state)
    (hp : s₁.pendingLease = s.pendingLease) : Effect s l s' l' := by
  have hu : s₁.users = s.users := by ext x; simp [Shared.users, hs]
  cases h with
  | same h₁ h₂ h₃ => exact .same h₁ (h₂.trans hu) (h₃.trans hp)
  | take x h₀ h₁ h₂ h₃ h₄ => exact .take x (hs ▸ h₀) h₁ h₂ (hu ▸ h₃) (h₄.trans hp)
  | release x h₁ h₂ h₃ h₄ => exact .release x h₁ h₂ (hu ▸ h₃) (h₄.trans hp)
  | move q x h₀ h₁ h₂ h₃ h₄ h₅ => exact .move q x h₀ h₁ h₂ (hp ▸ h₃) (h₄.trans hu) (hp ▸ h₅)
  | destroy q x h₁ h₂ h₃ h₄ => exact .destroy q x h₁ (hp ▸ h₂) (hu ▸ h₃) (hp ▸ h₄)

theorem dropLocal_effect (hl : l'.lease = l.lease)
    (hc : ∀ x, (s.pending p).lease = some x → 0 < (s.state x).users) : Effect s l (s.dropLocal p) l' := by
  have hsame : (s.modifyPending p fun k => { k with isLocal := false }).pendingLease = s.pendingLease :=
    pendingLease_modifyPending_same fun _ => rfl
  unfold Shared.dropLocal
  split
  · exact .same hl rfl hsame
  · refine (destroyPending_effect hl fun x hx => ?_).flags rfl hsame
    exact hc x (by simpa [Shared.modifyPending] using hx)

theorem dropListed_effect (hl : l'.lease = l.lease)
    (hc : ∀ x, (s.pending p).lease = some x → 0 < (s.state x).users) : Effect s l (s.dropListed p) l' := by
  have hsame : (s.modifyPending p fun k => { k with listed := false }).pendingLease = s.pendingLease :=
    pendingLease_modifyPending_same fun _ => rfl
  unfold Shared.dropListed
  split
  · exact .same hl rfl hsame
  · refine (destroyPending_effect hl fun x hx => ?_).flags rfl hsame
    exact hc x (by simpa [Shared.modifyPending] using hx)

end Changes

/-! ## The actions -/

section Actions

variable {t : Thread} {a : Choice} {s s' : Shared} {l l' : Pc}

theorem reap_effect {pc : ReapPc} {pc' : Option ReapPc} (hc : Counted s l) (hl : l'.lease = l.lease)
    (h : reapAction a s pc = some (s', pc')) : Effect s l s' l' := by
  replace h := reapAction_step h
  cases h
  case ask => exact collect_effect _ hl
  case erase p done => exact dropListed_effect hl (hc.pending _)
  all_goals exact .same hl rfl rfl

theorem publish_effect {pc : PublishPc} {pc' : Option PublishPc} (hi : LeaseInv s)
    (h : publishAction t a s pc = some (s', pc')) :
    Effect s (.publish pc) s' (pc'.elim .idle .publish) := by
  have hl : (pc'.elim Pc.idle Pc.publish).lease = (Pc.publish pc).lease := by cases pc' <;> rfl
  replace h := publishAction_step h
  cases h
  case check component _ =>
    refine .same hl ?_ rfl
    ext x
    by_cases hx : x = s.nextState
    · simp [Shared.users, hx, hi.closed _ (hi.freshState _ (Nat.le_refl _))]
    · simp [Shared.users, hx]
  case deactivate | await => exact .same hl (users_modifyState_same fun _ => rfl) rfl
  all_goals exact .same hl rfl rfl

theorem shutdown_effect {pc : ShutdownPc} {pc' : Option ShutdownPc} (hc : Counted s (.shutdown pc))
    (h : shutdownAction t a s pc = some (s', pc')) :
    Effect s (.shutdown pc) s' (pc'.elim .idle .shutdown) := by
  have hl : (pc'.elim Pc.idle Pc.shutdown).lease = (Pc.shutdown pc).lease := by cases pc' <;> rfl
  replace h := shutdownAction_step h
  cases h
  case drain pc closing d hd =>
    replace hd := drainAction_step hd
    cases hd
    case reap rpc r hr => exact reap_effect hc hl hr
    all_goals exact .same hl rfl rfl
  case deactivate | await => exact .same hl (users_modifyState_same fun _ => rfl) rfl
  all_goals exact .same hl rfl rfl

theorem reaper_effect {pc pc' : ReaperPc} (hc : Counted s (.reaper pc))
    (h : reaperAction a s pc = some (s', pc')) : Effect s (.reaper pc) s' (.reaper pc') := by
  replace h := reaperAction_step h
  cases h
  case reap rpc pc' hr => exact reap_effect hc rfl hr
  case reaped rpc s₁ hr =>
    have heffect : Effect s (.reaper (.reap rpc)) s₁ (.reaper .asleep) := reap_effect hc rfl hr
    cases heffect with
    | same h₁ h₂ h₃ => exact .same h₁ h₂ h₃
    | take x h₀ h₁ h₂ => cases h₂
    | release x h₁ => cases h₁
    | move p x h₀ h₁ => cases h₁
    | destroy p x h₁ h₂ h₃ h₄ => exact .destroy p x h₁ h₂ h₃ h₄
  all_goals exact .same rfl rfl rfl

theorem enter_effect {x : Nat} {pc : Pc} (hpc : pc = .access x ∨ pc = .build x) (h : enterAction s x pc = (s', l')) :
    Effect s .idle s' l' := by
  replace h := enterAction_step h
  cases h
  case granted hg =>
    simp only [Shared.grants, Bool.and_eq_true] at hg
    have hl : l'.lease = some x := by obtain rfl | rfl := hpc <;> rfl
    exact .take x hg.2 rfl hl (users_modifyState.trans rfl) rfl
  case refused => exact .same rfl rfl rfl

theorem invoke_effect (hi : LeaseInv s) (hc : Counted s l) (h : invokeAction a s l = some (s', l')) :
    Effect s l s' l' := by
  replace h := invokeAction_step h
  cases h
  case access | leave => exact .release _ rfl rfl (users_release (hc.stack _ rfl)) rfl
  case wait k x o r _ =>
    have hl : (if r.done then Pc.leave x else .late k x o).lease = some x := by split <;> rfl
    exact collect_effect _ hl
  case waitHere k x o r _ =>
    have hl : (if r.done then Pc.leave x else .waitHere k x o).lease = some x := by split <;> rfl
    exact collect_effect _ hl
  case waitPending p r _ =>
    have hl : (if r.done then Pc.keep p else .waitPending p).lease = none := by split <;> rfl
    exact collect_effect _ hl
  case retain k x o _ =>
    refine .move s.nextPending x (Nat.lt_succ_self _) rfl rfl (hi.freshPending _ (Nat.le_refl _)) rfl ?_
    ext q
    by_cases hq : q = s.nextPending <;> simp [Shared.pendingLease, hq]
  case push p _ _ => exact .same rfl rfl (pendingLease_modifyPending_same fun _ => rfl)
  case keep p => exact dropLocal_effect rfl (hc.pending p)
  all_goals exact .same rfl rfl rfl

theorem thread_effect (hi : LeaseInv s) (hc : Counted s l) (h : threadAction t a s l = some (s', l')) :
    Effect s l s' l' := by
  cases threadStep h with
  | enter hpc he => exact enter_effect hpc he
  | publish hp => exact publish_effect hi hp
  | shutdown hp => exact shutdown_effect hc hp
  | reaper hp => exact reaper_effect hc hp
  | invoke hp => exact invoke_effect hi hc hp
  | _ => exact .same rfl rfl rfl

end Actions

/-! ## Component pointers -/

/-- What an action does to the component pointers: one is set with a new state, and one is cleared only
when nobody uses the state. -/
@[grind cases]
structure PointerStep (s s' : Shared) : Prop where
  cleared : ∀ x, (s'.state x).component = none → (s.state x).component = none ∨
    (s.state x).users = 0 ∧ (s'.state x).users = 0
  fresh : ∀ x, s'.nextState ≤ x → (s.state x).component = none → (s'.state x).component = none
  kept : ∀ x, x < s.nextState → (s.state x).component = none → (s'.state x).component = none
  nextState : s.nextState ≤ s'.nextState
  nextPending : s.nextPending ≤ s'.nextPending

namespace PointerStep

variable {t : Thread} {a : Choice} {s s' : Shared} {l l' : Pc}

theorem refl (s : Shared) : PointerStep s s :=
  ⟨fun _ => .inl, fun _ _ h => h, fun _ _ h => h, Nat.le_refl _, Nat.le_refl _⟩

theorem of_component (hc : ∀ x, (s'.state x).component = (s.state x).component)
    (hs : s'.nextState = s.nextState) (hp : s'.nextPending = s.nextPending) : PointerStep s s' := by
  constructor
  all_goals grind -ring -linarith

theorem component_modifyState {x y : Nat} {f : ComponentState → ComponentState}
    (h : ∀ k, (f k).component = k.component) :
    ((s.modifyState x f).state y).component = (s.state y).component := by
  by_cases hy : y = x
  · subst hy; simp [Shared.modifyState, h]
  · simp [Shared.modifyState, hy]

theorem component_release (x y : Nat) : ((s.release x).state y).component = (s.state y).component :=
  component_modifyState fun _ => rfl

theorem clear {x : Nat} (hu : (s.state x).users = 0) :
    PointerStep s (s.modifyState x fun k => { k with component := none }) := by
  constructor
  all_goals simp only [Shared.modifyState]
  all_goals grind -ring -linarith

theorem destroyPending (p : Nat) : PointerStep s (s.destroyPending p) := by
  unfold Shared.destroyPending
  split
  · exact of_component (component_release _) rfl rfl
  · exact refl s

theorem trans {s₁ : Shared} (h : PointerStep s s₁) (hs : s₁.state = s.state) (h' : PointerStep s₁ s') :
    PointerStep s s' := by
  constructor
  all_goals grind -ring -linarith

theorem dropLocal (p : Nat) : PointerStep s (s.dropLocal p) := by
  have hflag : PointerStep s (s.modifyPending p fun k => { k with isLocal := false }) :=
    of_component (fun _ => rfl) rfl rfl
  unfold Shared.dropLocal
  split
  · exact hflag
  · exact hflag.trans rfl (destroyPending p)

theorem dropListed (p : Nat) : PointerStep s (s.dropListed p) := by
  have hflag : PointerStep s (s.modifyPending p fun k => { k with listed := false }) :=
    of_component (fun _ => rfl) rfl rfl
  unfold Shared.dropListed
  split
  · exact hflag
  · exact hflag.trans rfl (destroyPending p)

theorem of_reapAction {pc : ReapPc} {pc' : Option ReapPc} (h : reapAction a s pc = some (s', pc')) :
    PointerStep s s' := by
  replace h := reapAction_step h
  cases h
  case ask => exact of_component (by simp) (by simp) (by simp)
  case remove => exact of_component (fun _ => rfl) rfl rfl
  case erase p done => exact dropListed p
  case erased => exact refl s

theorem of_publishAction {pc : PublishPc} {pc' : Option PublishPc} (h : publishAction t a s pc = some (s', pc')) :
    PointerStep s s' := by
  replace h := publishAction_step h
  cases h
  case check => constructor <;> grind -ring -linarith
  case deactivate => exact of_component (fun _ => component_modifyState fun _ => rfl) rfl rfl
  case await hu => exact clear hu
  all_goals exact of_component (fun _ => rfl) rfl rfl

theorem of_shutdownAction {pc : ShutdownPc} {pc' : Option ShutdownPc}
    (h : shutdownAction t a s pc = some (s', pc')) : PointerStep s s' := by
  replace h := shutdownAction_step h
  cases h
  case drain pc closing d hd =>
    replace hd := drainAction_step hd
    cases hd
    case reap rpc r hr => exact of_reapAction hr
    all_goals exact of_component (fun _ => rfl) rfl rfl
  case deactivate => exact of_component (fun _ => component_modifyState fun _ => rfl) rfl rfl
  case await hu => exact clear hu
  all_goals exact of_component (fun _ => rfl) rfl rfl

theorem of_reaperAction {pc pc' : ReaperPc} (h : reaperAction a s pc = some (s', pc')) : PointerStep s s' := by
  replace h := reaperAction_step h
  cases h
  case reap rpc pc' hr => exact of_reapAction hr
  case reaped rpc s₁ hr =>
    have hp := of_reapAction hr
    exact ⟨hp.1, hp.2, hp.3, hp.4, hp.5⟩
  all_goals exact of_component (fun _ => rfl) rfl rfl

theorem of_invokeAction (h : invokeAction a s l = some (s', l')) : PointerStep s s' := by
  replace h := invokeAction_step h
  cases h
  case access | leave => exact of_component (component_release _) rfl rfl
  case wait | waitHere | waitPending => exact of_component (by simp) (by simp) (by simp)
  case retain => exact ⟨fun _ => .inl, fun _ _ h => h, fun _ _ h => h, Nat.le_refl _, Nat.le_succ _⟩
  case keep p => exact dropLocal p
  all_goals exact of_component (fun _ => rfl) rfl rfl

theorem of_threadAction (h : threadAction t a s l = some (s', l')) : PointerStep s s' := by
  cases threadStep h with
  | @enter x pc s' l' _ he =>
      cases enterAction_step he
      · exact of_component (fun _ => component_modifyState fun _ => rfl) rfl rfl
      · exact refl s
  | publish hp => exact of_publishAction hp
  | shutdown hp => exact of_shutdownAction hp
  | reaper hp => exact of_reaperAction hp
  | invoke hp => exact of_invokeAction hp
  | beginShutdown => exact of_component (fun _ => rfl) rfl rfl
  | _ => exact refl s

end PointerStep

/-! ## The count -/

/-- `users` counts the places that hold a lease, and the members of a state agree with it. -/
structure LeasesCounted (c : Config Thread Shared Pc) : Prop where
  tally : Tally (leaseAt c) c.shared.users
  inv : LeaseInv c.shared

variable {c c' : Config Thread Shared Pc} {t : Thread} {a : Choice}

theorem LeasesCounted.counted (h : LeasesCounted c) (t : Thread) : Counted c.shared (c.frame t) :=
  ⟨fun _ hx => h.tally.pos (p := Place.stack t) hx, fun p _ hx => h.tally.pos (p := Place.pending p) hx⟩

theorem leaseAt_stack {s' : Shared} {l' : Pc} (hp : s'.pendingLease = c.shared.pendingLease) :
    leaseAt ⟨s', Function.update c.frame t l'⟩ = Function.update (leaseAt c) (.stack t) l'.lease := by
  ext1 pl
  cases pl with
  | stack u => by_cases hu : u = t <;> simp [leaseAt, hu]
  | pending p => simpa [leaseAt, Shared.pendingLease] using congrFun hp p

theorem leaseAt_pending {s' : Shared} {l' : Pc} {p : Nat} {k : Option Nat}
    (hp : s'.pendingLease = Function.update c.shared.pendingLease p k) :
    leaseAt ⟨s', Function.update c.frame t l'⟩ =
      Function.update (Function.update (leaseAt c) (.stack t) l'.lease) (.pending p) k := by
  ext1 pl
  cases pl with
  | stack u => by_cases hu : u = t <;> simp [leaseAt, hu]
  | pending q =>
      have hq := congrFun hp q
      by_cases he : q = p
      · subst he; simpa [leaseAt, Shared.pendingLease] using hq
      · simpa [leaseAt, Shared.pendingLease, he] using hq

theorem LeasesCounted.step (h : LeasesCounted c) (hn : program.next c t a = some c') : LeasesCounted c' := by
  obtain ⟨s', l', ha, rfl⟩ := Threads.next_eq_some.mp hn
  have heff := thread_effect h.inv (h.counted t) ha
  have hptr := PointerStep.of_threadAction ha
  have hzero : ∀ x, (c.shared.state x).component = none → c.shared.users x = 0 := h.inv.closed
  have hstack := fun x (hx : (c.frame t).lease = some x) => h.tally.pos (p := Place.stack t) hx
  have hpend := fun p x (hx : c.shared.pendingLease p = some x) => h.tally.pos (p := Place.pending p) hx
  have hfreshP := fun p (hp : s'.nextPending ≤ p) => h.inv.freshPending p (Nat.le_trans hptr.nextPending hp)
  refine ⟨?_, ?_, fun x hx => ?_, ?_⟩
  · cases heff with
    | same hl hu hp =>
        rw [hu, leaseAt_stack hp, hl, show (c.frame t).lease = leaseAt c (.stack t) from rfl, Function.update_eq_self]
        exact h.tally
    | take x _ hl hl' hu hp =>
        rw [hu, leaseAt_stack hp, hl']
        exact h.tally.take hl
    | release x hl hl' hu hp =>
        rw [hu, leaseAt_stack hp, hl']
        exact h.tally.drop hl
    | move p x _ hl hl' hnone hu hp =>
        rw [hu, leaseAt_pending hp, hl']
        exact h.tally.move hl hnone
    | destroy p x hl hsome hu hp =>
        rw [hu, leaseAt_pending hp, hl, show (c.frame t).lease = leaseAt c (.stack t) from rfl,
          Function.update_eq_self]
        exact h.tally.drop hsome
  · intro x hx
    change s'.users x = 0
    obtain hnone | ⟨-, hz⟩ := hptr.cleared x hx
    · have h0 := hzero x hnone
      cases heff with
      | same _ hu _ | move _ _ _ _ _ _ hu _ => rw [hu]; exact h0
      | take y hy _ _ hu _ =>
          have hne : x ≠ y := by rintro rfl; simp [hnone] at hy
          simpa [hu, hne] using h0
      | release y hl _ hu _ =>
          have hpos := hstack y hl
          have hne : x ≠ y := by rintro rfl; omega
          simpa [hu, hne] using h0
      | destroy p y _ hsome hu _ =>
          have hpos := hpend p y hsome
          have hne : x ≠ y := by rintro rfl; omega
          simpa [hu, hne] using h0
    · exact hz
  · exact hptr.fresh x hx (h.inv.freshState x (Nat.le_trans hptr.nextState hx))
  · intro p hp
    have hold : c.shared.pendingLease p = none := hfreshP p hp
    change s'.nextPending ≤ p at hp
    change s'.pendingLease p = none
    cases heff with
    | same _ _ hpl | take _ _ _ _ _ hpl | release _ _ _ _ hpl => rw [hpl]; exact hold
    | move q x hq _ _ _ _ hpl =>
        have hne : p ≠ q := by omega
        simpa [hpl, hne] using hold
    | destroy q x _ _ _ hpl =>
        by_cases hne : p = q
        · subst hne; simp [hpl]
        · simpa [hpl, hne] using hold

theorem leasesCounted_reachable (h : program.Reachable c) : LeasesCounted c := by
  refine Threads.reach_preserves (fun d t a d' _ hQ _ hn => hQ.step hn) ?_ h
  refine ⟨fun x => ?_, ⟨fun _ _ => rfl, fun _ _ => rfl, fun _ _ => rfl⟩⟩
  have he : {pl | leaseAt program.initial pl = some x} = ∅ := by
    ext pl
    cases pl with
    | stack t => cases t <;> simp [leaseAt, Threads.initial, program, Pc.lease]
    | pending p => simp [leaseAt, Threads.initial, program]
  rw [he]
  simp [Shared.users, Threads.initial, program]

end RttOpcua.Lease
