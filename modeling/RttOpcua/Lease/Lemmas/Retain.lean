import RttOpcua.Lease.Lemmas.Control

/-!
# Retained invocations

Who refers to a pending invocation: the local pointer of the `retainPending` that made it, the list of retained
invocations, or the pass that has taken it out of the list. Without any of them it has no lease.
-/

namespace RttOpcua.Lease

open RttOpcua.Lib Threads

/-- The pending invocation of a local pointer. -/
def Pc.localPending : Pc → Option Nat
  | .push p => some p
  | .waitPending p => some p
  | .keep p => some p
  | _ => none

def ReapPc.erasing : ReapPc → List Nat
  | .erase done => done
  | .scan _ _ => []

/-- The pending invocations that a pass has taken out of the list. -/
def Pc.erasing : Pc → List Nat
  | .shutdown (.drain (.reap pc) _) => pc.erasing
  | .reaper (.reap pc) => pc.erasing
  | _ => []

structure Retained (c : Config Thread Shared Pc) : Prop where
  lease : ∀ p, (c.shared.pending p).lease ≠ none →
    (c.shared.pending p).isLocal = true ∨ (c.shared.pending p).listed = true
  isLocal : ∀ p, (c.shared.pending p).isLocal = true → ∃ t, (c.frame t).localPending = some p
  listed : ∀ p, (c.shared.pending p).listed = true → p ∈ c.shared.invocations ∨ ∃ t, p ∈ (c.frame t).erasing

/-! ## The changes of the members -/

section Changes

variable {s s' : Shared} {l l' : Pc} {p : Nat}

theorem pending_destroyPending :
    (s.destroyPending p).pending = Function.update s.pending p { s.pending p with lease := none } := by
  unfold Shared.destroyPending
  split
  · rfl
  · next hnone =>
    ext1 q
    by_cases hq : q = p
    · subst hq
      rw [Function.update_self, ← hnone]
    · rw [Function.update_of_ne hq]

theorem pending_dropLocal : (s.dropLocal p).pending = Function.update s.pending p
    { s.pending p with isLocal := false, lease := if (s.pending p).listed then (s.pending p).lease else none } := by
  unfold Shared.dropLocal
  split
  · next h => simp [Shared.modifyPending, h]
  · next h =>
    rw [pending_destroyPending]
    simp [Shared.modifyPending, h]

theorem pending_dropListed : (s.dropListed p).pending = Function.update s.pending p
    { s.pending p with listed := false, lease := if (s.pending p).isLocal then (s.pending p).lease else none } := by
  unfold Shared.dropListed
  split
  · next h => simp [Shared.modifyPending, h]
  · next h =>
    rw [pending_destroyPending]
    simp [Shared.modifyPending, h]

/-- What an action of one thread does to the references. -/
structure KeepsRetained (s : Shared) (l : Pc) (s' : Shared) (l' : Pc) : Prop where
  lease : ∀ p, (s'.pending p).lease ≠ none → (s'.pending p).isLocal = true ∨ (s'.pending p).listed = true
  isLocal : ∀ p, (s'.pending p).isLocal = true →
    l'.localPending = some p ∨ (s.pending p).isLocal = true ∧ l.localPending ≠ some p
  listed : ∀ p, (s'.pending p).listed = true →
    p ∈ s'.invocations ∨ p ∈ l'.erasing ∨ (s.pending p).listed = true ∧ p ∉ s.invocations ∧ p ∉ l.erasing

/-- Nothing changes. -/
theorem KeepsRetained.same
    (hlease : ∀ p, (s.pending p).lease ≠ none → (s.pending p).isLocal = true ∨ (s.pending p).listed = true)
    (hpending : s'.pending = s.pending) (hinvocations : s'.invocations = s.invocations)
    (hlocal : l'.localPending = l.localPending) (herasing : l'.erasing = l.erasing) : KeepsRetained s l s' l' := by
  refine ⟨fun p hp => ?_, fun p hp => ?_, fun p hp => ?_⟩
  · rw [hpending] at hp ⊢
    exact hlease p hp
  · rw [hpending] at hp
    by_cases h : l.localPending = some p
    · exact .inl (hlocal.trans h)
    · exact .inr ⟨hp, h⟩
  · rw [hpending] at hp
    rw [hinvocations, herasing]
    by_cases h : p ∈ s.invocations
    · exact .inl h
    · by_cases h' : p ∈ l.erasing
      · exact .inr (.inl h')
      · exact .inr (.inr ⟨hp, h, h'⟩)

end Changes

/-! ## Actions -/

section Actions

variable {t : Thread} {a : Choice} {s s' : Shared} {l l' : Pc}

theorem reap_retained {pc : ReapPc} {r : Option ReapPc}
    (hlease : ∀ p, (s.pending p).lease ≠ none → (s.pending p).isLocal = true ∨ (s.pending p).listed = true)
    (hlocal : l.localPending = none) (hlocal' : l'.localPending = none) (herasing : l.erasing = pc.erasing)
    (herasing' : l'.erasing = r.elim [] ReapPc.erasing) (h : reapAction a s pc = some (s', r)) :
    KeepsRetained s l s' l' := by
  replace h := reapAction_step h
  cases h
  case ask p rest done r ha =>
    exact .same hlease (pending_collect _) (SameLocks.of_collect _ _).2 (hlocal'.trans hlocal.symm)
      (herasing'.trans herasing.symm)
  case remove done =>
    refine ⟨hlease, fun q hq => .inr ⟨hq, by simp [hlocal]⟩, fun q hq => ?_⟩
    rw [herasing', herasing]
    by_cases hdone : q ∈ done
    · exact .inr (.inl hdone)
    · by_cases hmem : q ∈ s.invocations
      · exact .inl (by simp [hmem, hdone])
      · exact .inr (.inr ⟨hq, hmem, by simp [ReapPc.erasing]⟩)
  case erase p done =>
    have hinv : (s.dropListed p).invocations = s.invocations := (SameLocks.of_dropListed p).2
    refine ⟨fun q hq => ?_, fun q hq => ?_, fun q hq => ?_⟩
    all_goals rw [pending_dropListed] at *
    all_goals by_cases hqp : q = p
    all_goals simp_all [ReapPc.erasing]
    tauto
  case erased => exact .same hlease rfl rfl (hlocal'.trans hlocal.symm) (herasing'.trans herasing.symm)

theorem invoke_retained
    (hlease : ∀ p, (s.pending p).lease ≠ none → (s.pending p).isLocal = true ∨ (s.pending p).listed = true)
    (h : invokeAction a s l = some (s', l')) : KeepsRetained s l s' l' := by
  replace h := invokeAction_step h
  cases h
  case wait k x o r ha | waitHere k x o r ha =>
    refine .same hlease (pending_collect r) (SameLocks.of_collect o r).2 ?_ ?_
    all_goals split
    all_goals rfl
  case waitPending p r ha =>
    refine .same hlease (pending_collect r) (SameLocks.of_collect _ r).2 ?_ ?_
    all_goals split
    all_goals rfl
  case retain k x o ha =>
    refine ⟨fun q hq => ?_, fun q hq => ?_, fun q hq => ?_⟩
    all_goals by_cases hqp : q = s.nextPending
    all_goals simp_all [Pc.localPending, Pc.erasing]
    tauto
  case push p hfree hd =>
    refine ⟨fun q hq => ?_, fun q hq => ?_, fun q hq => ?_⟩
    all_goals by_cases hqp : q = p
    all_goals simp_all [Shared.modifyPending, Pc.localPending, Pc.erasing]
    all_goals tauto
  case keep p =>
    have hinv : (s.dropLocal p).invocations = s.invocations := (SameLocks.of_dropLocal p).2
    refine ⟨fun q hq => ?_, fun q hq => ?_, fun q hq => ?_⟩
    all_goals rw [pending_dropLocal] at *
    all_goals by_cases hqp : q = p
    all_goals simp_all [Pc.localPending, Pc.erasing]
    all_goals tauto
  all_goals exact .same hlease rfl rfl rfl rfl

theorem thread_retained
    (hlease : ∀ p, (s.pending p).lease ≠ none → (s.pending p).isLocal = true ∨ (s.pending p).listed = true)
    (h : threadAction t a s l = some (s', l')) : KeepsRetained s l s' l' := by
  cases threadStep h
  case enter hpc he =>
    replace he := enterAction_step he
    cases he
    case granted =>
      rcases hpc with rfl | rfl
      all_goals exact .same hlease rfl rfl rfl rfl
    case refused => exact .same hlease rfl rfl rfl rfl
  case publish pc pc' hp =>
    replace hp := publishAction_step hp
    cases hp
    all_goals exact .same hlease rfl rfl rfl rfl
  case shutdown pc pc' hp =>
    replace hp := shutdownAction_step hp
    cases hp
    case drain dpc closing d hd =>
      replace hd := drainAction_step hd
      cases hd
      case reap rpc r hr =>
        cases r
        all_goals exact reap_retained hlease rfl rfl rfl rfl hr
      all_goals exact .same hlease rfl rfl rfl rfl
    all_goals exact .same hlease rfl rfl rfl rfl
  case reaper pc pc' hp =>
    replace hp := reaperAction_step hp
    cases hp
    case reap rpc rpc' hr => exact reap_retained hlease rfl rfl rfl rfl hr
    case reaped rpc s₁ hr =>
      have hkeeps : KeepsRetained s (.reaper (.reap rpc)) s₁ (.reaper .asleep) :=
        reap_retained hlease rfl rfl rfl rfl hr
      obtain ⟨h₁, h₂, h₃⟩ := hkeeps
      exact ⟨h₁, h₂, h₃⟩
    all_goals exact .same hlease rfl rfl rfl rfl
  case invoke hp => exact invoke_retained hlease hp
  all_goals exact .same hlease rfl rfl rfl rfl

end Actions

theorem Retained.step {c c' : Config Thread Shared Pc} {t : Thread} {a : Choice} (h : Retained c)
    (hn : program.next c t a = some c') : Retained c' := by
  obtain ⟨s', l', ha, rfl⟩ := next_eq_some.mp hn
  obtain ⟨hlease, hlocal, hlisted⟩ := thread_retained h.lease ha
  refine ⟨hlease, fun p hp => ?_, fun p hp => ?_⟩
  · rcases hlocal p hp with hown | ⟨hold, hnot⟩
    · exact ⟨t, by simpa using hown⟩
    · obtain ⟨u, hu⟩ := h.isLocal p hold
      have hne : u ≠ t := fun heq => hnot (heq ▸ hu)
      exact ⟨u, by simpa [hne] using hu⟩
  · rcases hlisted p hp with hmem | hown | ⟨hold, hnot, hnot'⟩
    · exact .inl hmem
    · exact .inr ⟨t, by simpa using hown⟩
    · rcases h.listed p hold with hmem | ⟨u, hu⟩
      · exact absurd hmem hnot
      · have hne : u ≠ t := fun heq => hnot' (heq ▸ hu)
        exact .inr ⟨u, by simpa [hne] using hu⟩

theorem retained_reachable {c : Config Thread Shared Pc} (h : program.Reachable c) : Retained c := by
  refine ReachFrom.preserves (fun _ _ _ _ hd _ hn => hd.step hn) h ⟨fun p hp => ?_, fun p hp => ?_, fun p hp => ?_⟩
  · exact absurd rfl hp
  · cases hp
  · cases hp

/-- Where no invocation is under way or retained, and nobody holds `mutex`, no component has users. -/
theorem no_users {c : Config Thread Shared Pc} (hc : Reached c) (hserves : ∀ t, (c.frame t).serves = true → c.frame t = .idle)
    (herasing : ∀ t, (c.frame t).erasing = []) (hinvocations : c.shared.invocations = []) (x : Nat) :
    (c.shared.state x).users = 0 := by
  have hcount := leasesCounted_reachable hc.reachable
  refine hcount.tally.zero_iff.mpr fun pl hpl => ?_
  cases pl with
  | stack t =>
      have hlease : (c.frame t).lease = some x := hpl
      have hserve : (c.frame t).serves = true := by
        cases hl : c.frame t
        case publish | beginShutdown | shutdown | reaper =>
          rw [hl] at hlease
          cases hlease
        all_goals rfl
      rw [hserves t hserve] at hlease
      cases hlease
  | pending p =>
      have hlease : (c.shared.pending p).lease = some x := hpl
      have hretained := retained_reachable hc.reachable
      rcases hretained.lease p (by simp [hlease]) with hlocal | hlisted
      · obtain ⟨t, ht⟩ := hretained.isLocal p hlocal
        have hserve : (c.frame t).serves = true := by
          cases hl : c.frame t
          case publish | beginShutdown | shutdown | reaper =>
            rw [hl] at ht
            cases ht
          all_goals rfl
        rw [hserves t hserve] at ht
        cases ht
      · rcases hretained.listed p hlisted with hmem | ⟨t, ht⟩
        · rw [hinvocations] at hmem
          cases hmem
        · rw [herasing t] at ht
          cases ht

end RttOpcua.Lease
