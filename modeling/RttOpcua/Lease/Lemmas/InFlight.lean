import RttOpcua.Lease.Lemmas.Count

/-!
# Operations in flight

Who answers for an operation that was started and not seen finished: the `invoke` that started it, with
the lease on its stack, or the pending invocation that took both over. A reference to a pending
invocation is dropped only when its operation is finished or another reference is left.
-/

namespace RttOpcua.Lease

open RttOpcua.Lib

/-- The operation was seen finished. -/
@[grind]
def Shared.Finished (s : Shared) (o : Nat) : Prop := o < s.nextOperation ∧ (s.operation o).finished = true

@[grind cases]
structure InFlightInv (s : Shared) : Prop where
  operation : ∀ p, p < s.nextPending → (s.pending p).operation < s.nextOperation
  invocations : ∀ p ∈ s.invocations, p < s.nextPending

/-- The invocations that a pass found done are. -/
@[grind]
def Shared.AllDone (s : Shared) (done : List Nat) : Prop :=
  ∀ p ∈ done, p < s.nextPending ∧ s.Finished (s.pending p).operation

def reapFacts (s : Shared) : ReapPc → Prop
  | .scan rest done => (∀ p ∈ rest, p < s.nextPending) ∧ s.AllDone done
  | .erase done => s.AllDone done

/-- The operation in progress is one that was started on the state of the lease. -/
@[grind]
def Shared.StartedOn (s : Shared) (x o : Nat) : Prop := o < s.nextOperation ∧ (s.operation o).state = x

def inFlightAssertion (_ : Thread) (l : Pc) (s : Shared) : Prop :=
  match l with
  | .outputs x o _ => s.StartedOn x o
  | .check x o => s.StartedOn x o
  | .ready x o => s.StartedOn x o
  | .wait _ x o => s.StartedOn x o
  | .late _ x o => s.StartedOn x o
  | .retain _ x o => s.StartedOn x o
  | .waitHere _ x o => s.StartedOn x o
  | .push p => p < s.nextPending
  | .waitPending p => p < s.nextPending
  | .keep p => p < s.nextPending ∧ ((s.pending p).listed = true ∨ s.Finished (s.pending p).operation)
  | .shutdown (.drain (.reap pc) _) => reapFacts s pc
  | .reaper (.reap pc) => reapFacts s pc
  | _ => True

/-- What every action gives to every other thread. -/
@[grind cases]
structure InFlightRely (s s' : Shared) : Prop where
  nextOperation : s.nextOperation ≤ s'.nextOperation
  nextPending : s.nextPending ≤ s'.nextPending
  state : ∀ o, o < s.nextOperation → (s'.operation o).state = (s.operation o).state
  finished : ∀ o, s.Finished o → s'.Finished o
  operation : ∀ p, p < s.nextPending → (s'.pending p).operation = (s.pending p).operation
  listed : ∀ p, p < s.nextPending → (s.pending p).listed = true →
    (s'.pending p).listed = true ∨ s'.Finished (s.pending p).operation
  lease : ∀ p, p < s.nextPending → (s'.pending p).lease = (s.pending p).lease ∨
    s'.Finished (s.pending p).operation

def inFlightOutline : Threads.Outline Thread Shared Pc :=
  ⟨InFlightInv, inFlightAssertion, fun _ => InFlightRely⟩

theorem inFlight_stable {t : Thread} {l : Pc} {s s' : Shared} (hf : inFlightAssertion t l s)
    (hr : InFlightRely s s') : inFlightAssertion t l s' := by
  unfold inFlightAssertion at hf ⊢
  split
  case h_11 pc _ | h_12 pc =>
    cases pc <;> simp only [reapFacts] at hf ⊢ <;> grind -ring -linarith
  all_goals simp only at hf
  all_goals grind -ring -linarith

/-! ## The changes of the members -/

section Changes

variable {s s' : Shared} {p o : Nat}

theorem destroyPending_frame :
    (s.destroyPending p).operation = s.operation ∧ (s.destroyPending p).nextOperation = s.nextOperation ∧
    (s.destroyPending p).nextPending = s.nextPending ∧ (s.destroyPending p).invocations = s.invocations ∧
    (∀ q, ((s.destroyPending p).pending q).operation = (s.pending q).operation ∧
      ((s.destroyPending p).pending q).listed = (s.pending q).listed) ∧
    ∀ q, q ≠ p → (s.destroyPending p).pending q = s.pending q := by
  unfold Shared.destroyPending
  split
  · refine ⟨rfl, rfl, rfl, rfl, fun q => ?_, fun q hq => ?_⟩
    all_goals simp only [Shared.modifyPending, Shared.release, Shared.modifyState]
    all_goals grind -ring -linarith
  · exact ⟨rfl, rfl, rfl, rfl, fun _ => ⟨rfl, rfl⟩, fun _ _ => rfl⟩

theorem dropListed_inFlight (hi : InFlightInv s) (hf : s.Finished (s.pending p).operation) :
    InFlightInv (s.dropListed p) ∧ InFlightRely s (s.dropListed p) := by
  unfold Shared.dropListed
  obtain ⟨h₁, h₂, h₃, h₄, h₅, h₆⟩ := destroyPending_frame (s := s.modifyPending p fun k => { k with listed := false }) (p := p)
  split
  all_goals refine ⟨⟨?_, ?_⟩, ⟨?_, ?_, ?_, ?_, ?_, ?_, ?_⟩⟩
  all_goals simp only [Shared.modifyPending] at h₁ h₂ h₃ h₄ h₅ h₆ ⊢
  all_goals grind -ring -linarith

theorem dropLocal_inFlight (hi : InFlightInv s)
    (hf : (s.pending p).listed = true ∨ s.Finished (s.pending p).operation) :
    InFlightInv (s.dropLocal p) ∧ InFlightRely s (s.dropLocal p) := by
  unfold Shared.dropLocal
  obtain ⟨h₁, h₂, h₃, h₄, h₅, h₆⟩ := destroyPending_frame (s := s.modifyPending p fun k => { k with isLocal := false }) (p := p)
  split
  all_goals refine ⟨⟨?_, ?_⟩, ⟨?_, ?_, ?_, ?_, ?_, ?_, ?_⟩⟩
  all_goals simp only [Shared.modifyPending] at h₁ h₂ h₃ h₄ h₅ h₆ ⊢
  all_goals grind -ring -linarith

theorem collect_inFlight (r : Collected) (hi : InFlightInv s) :
    InFlightInv (s.collect o r) ∧ InFlightRely s (s.collect o r) ∧
      (r.done = true → o < s.nextOperation → (s.collect o r).Finished o) := by
  unfold Shared.collect
  split
  all_goals refine ⟨⟨?_, ?_⟩, ⟨?_, ?_, ?_, ?_, ?_, ?_, ?_⟩, ?_⟩
  all_goals grind -ring -linarith

/-- The members that the outline talks about are the same. -/
structure SameInFlight (s s' : Shared) : Prop where
  operation : s'.operation = s.operation
  nextOperation : s'.nextOperation = s.nextOperation
  pending : s'.pending = s.pending
  nextPending : s'.nextPending = s.nextPending
  invocations : s'.invocations = s.invocations

theorem SameInFlight.inv (e : SameInFlight s s') (hi : InFlightInv s) : InFlightInv s' := by
  obtain ⟨h₁, h₂, h₃, h₄, h₅⟩ := e
  constructor <;> grind -ring -linarith

theorem SameInFlight.rely (e : SameInFlight s s') : InFlightRely s s' := by
  obtain ⟨h₁, h₂, h₃, h₄, h₅⟩ := e
  constructor <;> grind -ring -linarith

end Changes

/-! ## The actions -/

section Actions

variable {t : Thread} {a : Choice} {s s' : Shared} {l l' : Pc}

theorem reap_inFlight {pc : ReapPc} {pc' : Option ReapPc} (hi : InFlightInv s) (hf : reapFacts s pc)
    (h : reapAction a s pc = some (s', pc')) :
    InFlightInv s' ∧ (∀ q, pc' = some q → reapFacts s' q) ∧ InFlightRely s s' := by
  replace h := reapAction_step h
  cases h
  case ask p rest done r _ =>
    obtain ⟨hinv, hr, hdone⟩ := collect_inFlight (o := (s.pending p).operation) r hi
    refine ⟨hinv, ?_, hr⟩
    rintro q ⟨⟩
    simp only [reapFacts] at hf ⊢
    split
    all_goals grind -ring -linarith
  case remove done =>
    simp only [reapFacts] at hf
    refine ⟨⟨hi.1, ?_⟩, ?_, ⟨?_, ?_, ?_, ?_, ?_, ?_, ?_⟩⟩
    all_goals grind -ring -linarith [reapFacts]
  case erase p done =>
    simp only [reapFacts] at hf
    obtain ⟨hinv, hr⟩ := dropListed_inFlight hi (hf _ List.mem_cons_self).2
    refine ⟨hinv, ?_, hr⟩
    rintro q ⟨⟩
    simp only [reapFacts]
    grind -ring -linarith
  case erased => exact ⟨hi, nofun, SameInFlight.rely ⟨rfl, rfl, rfl, rfl, rfl⟩⟩

theorem same_publish {pc : PublishPc} {pc' : Option PublishPc} (h : publishAction t a s pc = some (s', pc')) :
    SameInFlight s s' := by
  replace h := publishAction_step h
  cases h
  all_goals exact ⟨rfl, rfl, rfl, rfl, rfl⟩

theorem shutdown_inFlight {pc : ShutdownPc} {pc' : Option ShutdownPc} (hi : InFlightInv s)
    (hf : inFlightAssertion t (.shutdown pc) s) (h : shutdownAction t a s pc = some (s', pc')) :
    InFlightInv s' ∧ inFlightAssertion t (pc'.elim .idle .shutdown) s' ∧ InFlightRely s s' := by
  replace h := shutdownAction_step h
  cases h
  case drain pc closing d hd =>
    replace hd := drainAction_step hd
    cases hd
    case reap rpc r hr =>
      obtain ⟨hinv, hown, hrely⟩ := reap_inFlight hi hf hr
      refine ⟨hinv, ?_, hrely⟩
      cases r with
      | none => trivial
      | some q => exact hown q rfl
    case lock =>
      exact ⟨⟨hi.1, hi.2⟩, ⟨hi.invocations, fun p hp => by cases hp⟩, SameInFlight.rely ⟨rfl, rfl, rfl, rfl, rfl⟩⟩
    all_goals refine ⟨⟨hi.1, hi.2⟩, True.intro, ?_⟩
    all_goals exact SameInFlight.rely ⟨rfl, rfl, rfl, rfl, rfl⟩
  all_goals refine ⟨⟨hi.1, hi.2⟩, True.intro, ?_⟩
  all_goals exact SameInFlight.rely ⟨rfl, rfl, rfl, rfl, rfl⟩

theorem reaper_inFlight {pc pc' : ReaperPc} (hi : InFlightInv s) (hf : inFlightAssertion t (.reaper pc) s)
    (h : reaperAction a s pc = some (s', pc')) :
    InFlightInv s' ∧ inFlightAssertion t (.reaper pc') s' ∧ InFlightRely s s' := by
  replace h := reaperAction_step h
  cases h
  case reap rpc pc' hr =>
    obtain ⟨hinv, hown, hrely⟩ := reap_inFlight hi hf hr
    exact ⟨hinv, hown pc' rfl, hrely⟩
  case reaped rpc s₁ hr =>
    obtain ⟨hinv, -, hrely⟩ := reap_inFlight hi hf hr
    exact ⟨⟨hinv.1, hinv.2⟩, True.intro, ⟨hrely.1, hrely.2, hrely.3, hrely.4, hrely.5, hrely.6, hrely.7⟩⟩
  case pass =>
    exact ⟨hi, ⟨hi.invocations, fun p hp => by cases hp⟩, SameInFlight.rely ⟨rfl, rfl, rfl, rfl, rfl⟩⟩
  all_goals exact ⟨⟨hi.1, hi.2⟩, True.intro, SameInFlight.rely ⟨rfl, rfl, rfl, rfl, rfl⟩⟩

theorem invoke_inFlight (hi : InFlightInv s) (hf : inFlightAssertion t l s)
    (h : invokeAction a s l = some (s', l')) :
    InFlightInv s' ∧ inFlightAssertion t l' s' ∧ InFlightRely s s' := by
  replace h := invokeAction_step h
  cases h
  case keep p =>
    obtain ⟨hinv, hrely⟩ := dropLocal_inFlight hi hf.2
    exact ⟨hinv, True.intro, hrely⟩
  case wait k x o r _ | waitHere k x o r _ =>
    obtain ⟨hinv, hrely, hdone⟩ := collect_inFlight (o := o) r hi
    refine ⟨hinv, ?_, hrely⟩
    split
    all_goals simp only [inFlightAssertion] at hf ⊢
    all_goals grind -ring -linarith
  case waitPending p r _ =>
    obtain ⟨hinv, hrely, hdone⟩ := collect_inFlight (o := (s.pending p).operation) r hi
    refine ⟨hinv, ?_, hrely⟩
    split
    all_goals simp only [inFlightAssertion] at hf ⊢
    all_goals grind -ring -linarith
  all_goals simp only [inFlightAssertion] at hf ⊢
  all_goals refine ⟨⟨?_, ?_⟩, ?_, ⟨?_, ?_, ?_, ?_, ?_, ?_, ?_⟩⟩
  all_goals try simp only [Shared.startOperation, Shared.modifyPending, Shared.release, Shared.modifyState]
  all_goals grind -ring -linarith

theorem thread_inFlight (hi : InFlightInv s) (hf : inFlightAssertion t l s)
    (h : threadAction t a s l = some (s', l')) :
    InFlightInv s' ∧ inFlightAssertion t l' s' ∧ InFlightRely s s' := by
  cases threadStep h with
  | @enter x pc s' l' hpc he =>
      cases enterAction_step he
      · refine ⟨⟨hi.1, hi.2⟩, ?_, SameInFlight.rely ⟨rfl, rfl, rfl, rfl, rfl⟩⟩
        obtain rfl | rfl := hpc <;> trivial
      · exact ⟨hi, True.intro, SameInFlight.rely ⟨rfl, rfl, rfl, rfl, rfl⟩⟩
  | @publish pc pc' s' hp =>
      have e := same_publish hp
      refine ⟨e.inv hi, ?_, e.rely⟩
      cases pc' <;> trivial
  | shutdown hp => exact shutdown_inFlight hi hf hp
  | reaper hp => exact reaper_inFlight hi hf hp
  | invoke hp => exact invoke_inFlight hi hf hp
  | beginShutdown => exact ⟨⟨hi.1, hi.2⟩, True.intro, SameInFlight.rely ⟨rfl, rfl, rfl, rfl, rfl⟩⟩
  | _ => exact ⟨hi, True.intro, SameInFlight.rely ⟨rfl, rfl, rfl, rfl, rfl⟩⟩

theorem inFlight_valid : inFlightOutline.Valid program .trivial where
  step _ _ hi hf h := by
    obtain ⟨hinv, hown, hrely⟩ := thread_inFlight hi hf h
    exact ⟨hinv, hown, fun _ _ => hrely⟩
  stable {t l s s'} _ _ _ hf hr := inFlight_stable (t := t) hf hr

theorem inFlight_reachable {c : Config Thread Shared Pc} (h : program.Reachable c) : inFlightOutline.Holds c := by
  refine inFlight_valid.reachable (fun c _ => Threads.Outline.holds_trivial c) ⟨?_, fun t => ?_⟩ h
  · constructor <;> simp [Threads.initial, program]
  · cases t <;> trivial

end Actions

/-! ## Who answers for an operation -/

/-- No early exit after `caller.send()`: the values are built, `arg` and `check` do not throw and the
handle is ready. -/
def keepsHandle (c : Config Thread Shared Pc) (t : Thread) (a : Choice) : Bool :=
  match c.frame t, a with
  | .outputs _ _ _, .early => false
  | .outputs _ _ _, .raise => false
  | .check _ _, .raise => false
  | .ready _ _, .early => false
  | .ready _ _, .raise => false
  | _, _ => true

/-- A lease on state `x` answers for operation `o`. -/
def Held (c : Config Thread Shared Pc) (o x : Nat) : Prop :=
  (∃ t, (c.frame t).operation = some o ∧ (c.frame t).lease = some x) ∨
  ∃ p, p < c.shared.nextPending ∧ (c.shared.pending p).operation = o ∧ (c.shared.pending p).lease = some x

section Held

variable {t : Thread} {a : Choice} {c c' : Config Thread Shared Pc} {s' : Shared} {l' : Pc}

@[simp] theorem nextOperation_collect {s : Shared} {o : Nat} (r : Collected) :
    (s.collect o r).nextOperation = s.nextOperation := by
  unfold Shared.collect; split <;> rfl

theorem nextOperation_dropListed {s : Shared} (p : Nat) : (s.dropListed p).nextOperation = s.nextOperation := by
  unfold Shared.dropListed
  split
  · rfl
  · exact destroyPending_frame.2.1

theorem nextOperation_reap {s : Shared} {pc : ReapPc} {pc' : Option ReapPc}
    (h : reapAction a s pc = some (s', pc')) : s'.nextOperation = s.nextOperation := by
  replace h := reapAction_step h
  cases h
  case ask => simp
  case erase p done => exact nextOperation_dropListed p
  all_goals rfl

theorem nextOperation_shutdown {s : Shared} {pc : ShutdownPc} {pc' : Option ShutdownPc}
    (h : shutdownAction t a s pc = some (s', pc')) : s'.nextOperation = s.nextOperation := by
  replace h := shutdownAction_step h
  cases h
  case drain pc closing d hd =>
    replace hd := drainAction_step hd
    cases hd
    case reap rpc r hr => exact nextOperation_reap hr
    all_goals rfl
  all_goals rfl

theorem nextOperation_reaper {s : Shared} {pc pc' : ReaperPc} (h : reaperAction a s pc = some (s', pc')) :
    s'.nextOperation = s.nextOperation := by
  replace h := reaperAction_step h
  cases h
  case reap rpc pc' hr => exact nextOperation_reap hr
  case reaped rpc s₁ hr =>
    have hnext : s₁.nextOperation = s.nextOperation := nextOperation_reap hr
    exact hnext
  all_goals rfl

/-- Only `invoke` starts an operation, and it answers for it. -/
theorem started_by {s : Shared} {l : Pc} (h : threadAction t a s l = some (s', l')) :
    s'.nextOperation = s.nextOperation ∨ (s'.nextOperation = s.nextOperation + 1 ∧
      l'.operation = some s.nextOperation ∧ l'.lease = some (s'.operation s.nextOperation).state) := by
  cases threadStep h with
  | enter hpc he =>
      cases enterAction_step he
      all_goals exact .inl rfl
  | publish hp => exact .inl (same_publish hp).nextOperation
  | shutdown hp => exact .inl (nextOperation_shutdown hp)
  | reaper hp => exact .inl (nextOperation_reaper hp)
  | @invoke l s' l' hp =>
      replace hp := invokeAction_step hp
      cases hp
      case send | async => exact .inr ⟨rfl, rfl, by simp [Pc.lease, Shared.startOperation]⟩
      case keep p =>
        left
        unfold Shared.dropLocal
        split
        · rfl
        · exact destroyPending_frame.2.1
      case wait | waitHere | waitPending => simp
      all_goals exact .inl rfl
  | _ => exact .inl rfl

/-- The thread that answers for an operation goes on to do so, sees it finished, or hands it over. -/
theorem held_own {o x : Nat} (hok : keepsHandle c t a = true) (ho : (c.frame t).operation = some o)
    (hx : (c.frame t).lease = some x) (hlt : o < c.shared.nextOperation)
    (h : threadAction t a c.shared (c.frame t) = some (s', l')) :
    (l'.operation = some o ∧ l'.lease = some x) ∨ s'.Finished o ∨
      ∃ p, p < s'.nextPending ∧ (s'.pending p).operation = o ∧ (s'.pending p).lease = some x := by
  simp only [keepsHandle] at hok
  generalize c.frame t = l at hok ho hx h
  generalize c.shared = s at hlt h
  cases l
  all_goals simp only [Pc.operation, Option.some.injEq, reduceCtorEq] at ho
  all_goals simp only [Pc.lease, Option.some.injEq] at hx
  all_goals subst ho hx
  all_goals simp only [threadAction] at h
  all_goals replace h := invokeAction_step h
  all_goals cases h
  case retain => exact .inr (.inr ⟨s.nextPending, Nat.lt_succ_self _, by simp, by simp⟩)
  case wait r hr | waitHere r hr =>
    cases hdone : r.done
    · exact .inl (by simp [Pc.operation, Pc.lease])
    · exact .inr (.inl (by simp_all [Shared.collect, Shared.Finished]))
  case noOutput hn | notReady hn => rcases hn with rfl | rfl <;> cases hok
  case checkThrows ht =>
    subst ht
    cases hok
  all_goals exact .inl ⟨rfl, rfl⟩

/-- An operation that is not finished is answered for. -/
def InFlightHeld (c : Config Thread Shared Pc) : Prop :=
  ∀ o, o < c.shared.nextOperation → (c.shared.operation o).finished = false → Held c o (c.shared.operation o).state

theorem inFlightHeld_step (hc : inFlightOutline.Holds c) (h : InFlightHeld c) (hok : keepsHandle c t a = true)
    (hn : program.next c t a = some c') : InFlightHeld c' := by
  obtain ⟨s', l', ha, rfl⟩ := Threads.next_eq_some.mp hn
  obtain ⟨-, -, hrely⟩ := thread_inFlight hc.1 (hc.2 t) ha
  intro o ho hfin
  change o < s'.nextOperation at ho
  change (s'.operation o).finished = false at hfin
  have hown : ∀ x, l'.operation = some o → l'.lease = some x →
      Held ⟨s', Function.update c.frame t l'⟩ o x :=
    fun x h₁ h₂ => .inl ⟨t, by simpa using h₁, by simpa using h₂⟩
  by_cases hlt : o < c.shared.nextOperation
  · -- The operation was in flight before.
    have hfin' : (c.shared.operation o).finished = false := by
      by_contra hne
      have := (hrely.finished o ⟨hlt, by simpa using hne⟩).2
      simp [hfin] at this
    rw [show (s'.operation o).state = (c.shared.operation o).state from hrely.state o hlt]
    obtain ⟨u, hu, hl⟩ | ⟨p, hp, hop, hl⟩ := h o hlt hfin'
    · by_cases hut : u = t
      · subst hut
        obtain ⟨h₁, h₂⟩ | hf | ⟨p, hp⟩ := held_own hok hu hl hlt ha
        · exact hown _ h₁ h₂
        · simp [hf.2] at hfin
        · exact .inr ⟨p, hp⟩
      · exact .inl ⟨u, by simpa [hut] using hu, by simpa [hut] using hl⟩
    · obtain hkeep | hf := hrely.lease p hp
      · refine .inr ⟨p, Nat.lt_of_lt_of_le hp hrely.nextPending, ?_, hkeep.trans hl⟩
        exact (hrely.operation p hp).trans hop
      · rw [hop] at hf
        simp [hf.2] at hfin
  · obtain hsame | ⟨hnext, h₁, h₂⟩ := started_by ha
    · omega
    · obtain rfl : o = c.shared.nextOperation := by omega
      exact hown _ h₁ h₂

theorem inFlightHeld_reach (h : program.Reach (fun c t a => keepsHandle c t a = true) c) : InFlightHeld c := by
  refine Threads.reach_preserves (fun d t a d' hd hQ hok hn =>
    inFlightHeld_step (inFlight_reachable hd) hQ hok hn) ?_ h
  intro o ho
  simp [Threads.initial, program] at ho

end Held

end RttOpcua.Lease
