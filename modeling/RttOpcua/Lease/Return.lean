import RttOpcua.Lease.Lemmas.Return
import RttOpcua.Lease.Theorems

/-!
# Every call returns

The waits of a model have an order. `shutdown` waits for the holder of `command_mutex` and for the reaper, a publication
that fails waits for the users of its component, these are invocations and what the reaper retains for them, an
invocation waits for `mutex`, and the holder of `mutex` waits for nobody. So once operations end, every call can be brought
to its return, and every lease is given back.
-/

namespace RttOpcua.Lease

open RttOpcua.Lib Threads

/-- What the environment may answer while calls return: it begins no call, the waits of the reaper do not throw, and
operations are not done `n` more times at most. -/
def Answers (n : Nat) (c : Config Thread Shared Pc) (t : Thread) (a : Choice) (n' : Nat) : Prop :=
  c.frame t ≠ .idle ∧ Waits t a (c.frame t) ∧ Spends (c.frame t).asks a n n'

section Returns

variable {c : Config Thread Shared Pc} {t : Thread} {n : Nat}

theorem answered (hidle : c.frame t ≠ .idle) (h : ∃ r, threadAction t done c.shared (c.frame t) = some r) :
    ∃ a n' c', Answers n c t a n' ∧ program.next c t a = some c' := by
  obtain ⟨⟨s', l'⟩, hr⟩ := h
  exact ⟨done, n, _, ⟨hidle, by simp [Waits, done], spends_done _ n⟩, next_eq_some.mpr ⟨s', l', hr, rfl⟩⟩

theorem reached_next {a : Choice} {n' : Nat} {d : Config Thread Shared Pc} (hc : Reached c) (ha : Answers n c t a n')
    (hn : program.next c t a = some d) : Reached d :=
  .step hc ha.2.1 hn

/-- One thread acts alone up to `Q`. -/
theorem forces_alone {β : Type} [LT β] [WellFoundedLT β] {I Q : Shared → Pc → Prop} (size : Nat → Shared → Pc → β)
    (hstep : ∀ d n, Reached d → (∀ u, u ≠ t → d.frame u = c.frame u) → I d.shared (d.frame t) →
      ¬ Q d.shared (d.frame t) → d.frame t ≠ .idle ∧ (∃ r, threadAction t done d.shared (d.frame t) = some r) ∧
        ∀ a n' s' l', Waits t a (d.frame t) → Spends (d.frame t).asks a n n' →
          threadAction t a d.shared (d.frame t) = some (s', l') → I s' l' ∧ size n' s' l' < size n d.shared (d.frame t))
    (hc : Reached c) (hI : I c.shared (c.frame t)) :
    program.Forces Answers
      (fun d => (Reached d ∧ (∀ u, u ≠ t → d.frame u = c.frame u) ∧ I d.shared (d.frame t)) ∧ Q d.shared (d.frame t))
      n c := by
  refine Forces.variant (I := fun d => Reached d ∧ (∀ u, u ≠ t → d.frame u = c.frame u) ∧ I d.shared (d.frame t))
    (fun n d => size n d.shared (d.frame t)) ?_ ⟨hc, fun _ _ => rfl, hI⟩
  rintro n d ⟨hd, hsame, hId⟩ hQ
  obtain ⟨hidle, hlive, hall⟩ := hstep d n hd hsame hId hQ
  refine ⟨t, answered hidle hlive, fun a n' d' ha hn => ?_⟩
  obtain ⟨s', l', hact, rfl⟩ := next_eq_some.mp hn
  obtain ⟨hI', hless⟩ := hall a n' s' l' ha.2.1 ha.2.2 hact
  refine ⟨⟨reached_next hd ha hn, fun u hu => ?_, ?_⟩, ?_⟩
  · simpa [hu] using hsame u hu
  · simpa using hI'
  · simpa using hless

/-! ## Locks that are free -/

theorem mutex_free (hc : Reached c) (h : ∀ t, (c.frame t).holdsMutex = false) : c.shared.mutex = none := by
  cases hm : c.shared.mutex with
  | none => rfl
  | some u =>
      have hu := ((control_reached hc).2 u).mutex.mp hm
      rw [h u] at hu
      cases hu

theorem holdsMutex_eq_false (hc : Reached c) (h : c.shared.mutex ≠ some t) : (c.frame t).holdsMutex = false := by
  rw [Bool.eq_false_iff]
  exact fun hholds => h (((control_reached hc).2 t).mutex.mpr hholds)

theorem commandMutex_free (hc : Reached c) (h : ∀ t, (c.frame t).holdsCommandMutex = false) :
    c.shared.commandMutex = none := by
  cases hm : c.shared.commandMutex with
  | none => rfl
  | some u =>
      have hu := ((control_reached hc).2 u).command.mp hm
      rw [h u] at hu
      cases hu

theorem reaper_frame (hc : Reached c) : ∃ pc, c.frame .reaper = .reaper pc := by
  have hf := ((control_reached hc).2 .reaper).reaper.mp rfl
  cases hl : c.frame .reaper
  case reaper pc => exact ⟨pc, rfl⟩
  all_goals rw [hl] at hf
  all_goals cases hf

/-- The holder of `mutex` waits for nobody. -/
theorem forces_mutex (hc : Reached c) :
    program.Forces Answers (fun d => Reached d ∧ d.shared.mutex = none) n c := by
  cases hm : c.shared.mutex with
  | none => exact .now ⟨hc, hm⟩
  | some t =>
      have hforces := forces_alone (n := n) (t := t) (I := fun _ _ => True) (Q := fun _ l => l.holdsMutex = false)
        Pc.passSize ?_ hc trivial
      · refine hforces.weaken fun d hd => ?_
        obtain ⟨⟨hd, hsame, -⟩, hfree⟩ := hd
        refine ⟨hd, mutex_free hd fun u => ?_⟩
        by_cases hu : u = t
        · rw [hu, hfree]
        · rw [hsame u hu]
          exact holdsMutex_eq_false hc fun h => hu (Option.some.inj (h.symm.trans hm))
      · intro d n hd _ _ hholds
        have hf := (control_reached hd).2 t
        generalize d.frame t = l at hf hholds
        simp only [Bool.not_eq_false] at hholds
        cases l
        case shutdown pc =>
          cases pc
          case drain dpc closing =>
            refine ⟨nofun, ?_, fun a n' s' l' _ hn hact => ⟨trivial, pass_size rfl hf.point hn nofun hact⟩⟩
            refine drain_thread_enabled (fun hnot => ?_) fun hjoin => ?_
            · rw [show dpc.holds = true from hholds] at hnot
              cases hnot
            · rw [hjoin] at hholds
              cases hholds
          all_goals cases hholds
        case reaper pc =>
          have hpc : pc ≠ .asleep ∧ pc ≠ .gone := by
            refine ⟨?_, ?_⟩
            all_goals rintro rfl
            all_goals cases hholds
          refine ⟨nofun, reaper_enabled (fun h => absurd h hpc.1) hpc.2, fun a n' s' l' _ hn hact => ?_⟩
          exact ⟨trivial, pass_size rfl hf.point hn (fun h => absurd (Pc.reaper.inj h) hpc.1) hact⟩
        all_goals cases hholds

/-! ## No invocation is under way -/

/-- The thread serves nothing. -/
def Pc.quiet (l : Pc) : Bool := !l.serves || l == .idle

theorem quiet_of_idle {l : Pc} (h : l = .idle ∨ l.serves = false) : l.quiet = true := by
  rcases h with rfl | h
  · rfl
  · simp [Pc.quiet, h]

theorem serves_idle {l : Pc} (h : l.quiet = true) (hserves : l.serves = true) : l = .idle := by
  simpa [Pc.quiet, hserves] using h

theorem quiet_stays {a : Choice} {n' : Nat} {d : Config Thread Shared Pc} (ha : Answers n c t a n')
    (hn : program.next c t a = some d) (hquiet : (c.frame t).quiet = true) : (d.frame t).quiet = true := by
  obtain ⟨s', l', hact, rfl⟩ := next_eq_some.mp hn
  have hserves : (c.frame t).serves = false := by
    rw [Bool.eq_false_iff]
    exact fun h => ha.1 (serves_idle hquiet h)
  simpa using quiet_of_idle (keeps_empty hserves hact).2

/-- A read, a write or an invocation comes to its end. -/
theorem forces_served (hc : Reached c) (t : Thread) :
    program.Forces Answers (fun d => (d.frame t).quiet = true) n c := by
  refine (forces_mutex hc).bind fun n₁ c₁ h₁ => ?_
  obtain ⟨hc₁, hmutex⟩ := h₁
  by_cases hquiet : (c₁.frame t).quiet = true
  · exact .now hquiet
  have hserves : (c₁.frame t).serves = true := by
    cases hs : (c₁.frame t).serves
    · exact absurd (quiet_of_idle (.inr hs)) hquiet
    · rfl
  refine (forces_alone (t := t) (I := fun _ l => l.serves = true) (Q := fun _ l => l.quiet = true)
    (fun n _ l => l.serveSize n) ?_ hc₁ hserves).weaken fun d hd => hd.2
  intro d n hd hsame hserves hquiet
  have hidle : d.frame t ≠ .idle := fun h => hquiet (quiet_of_idle (.inl h))
  refine ⟨hidle, invoke_enabled hserves hidle (mutex_free hd fun u => ?_), fun a n' s' l' _ hn hact => ?_⟩
  · by_cases hu : u = t
    · rw [hu]
      exact (serves_facts (s := d.shared) hserves).2.1
    · rw [hsame u hu]
      exact holdsMutex_eq_false hc₁ (by simp [hmutex])
  · generalize d.frame t = l at hserves hidle hn hact
    cases threadStep hact
    case invoke hp => exact ⟨(invoke_serves hp).2, invoke_size hn hp⟩
    case enter | enterPublish | enterBeginShutdown | enterShutdown => exact absurd rfl hidle
    all_goals cases hserves

/-- All of them do. -/
theorem forces_quiet (hc : Reached c) :
    program.Forces Answers (fun d => Reached d ∧ ∀ t, (d.frame t).quiet = true) n c := by
  refine Forces.all (fun _ l => l.quiet = true) (fun _ _ _ _ _ _ hd ha hn => reached_next hd ha hn)
    (fun _ _ _ _ _ _ ha hn hquiet => quiet_stays ha hn hquiet) (fun t _ _ hd => forces_served hd t) ?_ hc
  refine (ReachFrom.finite_moved hc).subset fun t ht => ?_
  simp only [Set.mem_ofPred_eq] at ht ⊢
  intro hsame
  rw [hsame] at ht
  cases t
  all_goals exact ht rfl

theorem forces_keep_quiet {Q : Config Thread Shared Pc → Prop} (h : program.Forces Answers Q n c)
    (hquiet : ∀ t, (c.frame t).quiet = true) :
    program.Forces Answers (fun d => (∀ t, (d.frame t).quiet = true) ∧ Q d) n c := by
  refine h.keep (fun n d u a n' d' hd ha hn t => ?_) hquiet
  by_cases htu : t = u
  · subst htu
    exact quiet_stays ha hn (hd t)
  · obtain ⟨s', l', -, rfl⟩ := next_eq_some.mp hn
    simpa [htu] using hd t

/-! ## No invocation is retained -/

/-- No invocation is under way, and `mutex` is free. -/
structure Calm (c : Config Thread Shared Pc) : Prop where
  reached : Reached c
  quiet : ∀ t, (c.frame t).quiet = true
  mutex : c.shared.mutex = none

theorem Calm.holdsMutex (h : Calm c) (t : Thread) : (c.frame t).holdsMutex = false :=
  holdsMutex_eq_false h.reached (by simp [h.mutex])

/-- One thread has acted and does not hold `mutex`. -/
theorem Calm.alone {d : Config Thread Shared Pc} (h : Calm c) (hd : Reached d)
    (hsame : ∀ u, u ≠ t → d.frame u = c.frame u) (hquiet : (d.frame t).quiet = true)
    (hmutex : (d.frame t).holdsMutex = false) : Calm d := by
  refine ⟨hd, fun u => ?_, mutex_free hd fun u => ?_⟩
  all_goals by_cases hu : u = t
  · rw [hu, hquiet]
  · rw [hsame u hu, h.quiet u]
  · rw [hu, hmutex]
  · rw [hsame u hu, h.holdsMutex u]

/-- The reaper was asked to stop, and ends. -/
theorem forces_gone (h : Calm c) (hstop : c.shared.stopRequested = true) :
    program.Forces Answers (fun d => Calm d ∧ d.shared.reaperGone = true ∧
      d.shared.invocations = c.shared.invocations ∧ ∀ u, u ≠ .reaper → d.frame u = c.frame u) n c := by
  have hI : c.shared.stopRequested = true ∧ c.shared.invocations = c.shared.invocations ∧
      (c.frame .reaper = .reaper .asleep ∨ c.frame .reaper = .reaper .awake ∨ c.frame .reaper = .reaper .gone) := by
    obtain ⟨pc, hpc⟩ := reaper_frame h.reached
    have hfree := h.holdsMutex .reaper
    rw [hpc] at hfree ⊢
    refine ⟨hstop, rfl, ?_⟩
    cases pc
    case asleep => exact .inl rfl
    case gone => exact .inr (.inr rfl)
    all_goals cases hfree
  have hforces := forces_alone (n := n) (t := .reaper) (Q := fun _ l => l = .reaper .gone)
    (I := fun s l => s.stopRequested = true ∧ s.invocations = c.shared.invocations ∧
      (l = .reaper .asleep ∨ l = .reaper .awake ∨ l = .reaper .gone))
    (fun _ _ l => if l = .reaper .asleep then 2 else if l = .reaper .awake then 1 else 0) ?_ h.reached hI
  · refine hforces.weaken fun d hd => ?_
    obtain ⟨⟨hd, hsame, -, hinv, -⟩, hgone⟩ := hd
    have hpoint := ((control_reached hd).2 .reaper).point
    rw [hgone] at hpoint
    exact ⟨h.alone hd hsame (by rw [hgone]; rfl) (by rw [hgone]; rfl), hpoint, hinv, hsame⟩
  · intro d n hd hsame hId hQ
    obtain ⟨hstop, hinv, hpc⟩ := hId
    have hfree : d.frame .reaper = .reaper .asleep → d.shared.mutex = none := by
      intro hl
      refine mutex_free hd fun u => ?_
      by_cases hu : u = .reaper
      · rw [hu, hl]
        rfl
      · rw [hsame u hu, h.holdsMutex u]
    rcases hpc with hl | hl | hl
    · rw [hl]
      refine ⟨by simp, reaper_enabled (fun _ => hfree hl) (by simp), fun a n' s' l' _ _ hact => ?_⟩
      simp only [threadAction, reaperAction, hfree hl, if_true, Option.map_some, Option.some.injEq, Prod.mk.injEq] at hact
      obtain ⟨rfl, rfl⟩ := hact
      exact ⟨⟨hstop, hinv, .inr (.inl rfl)⟩, by simp⟩
    · rw [hl]
      refine ⟨by simp, reaper_enabled (by simp) (by simp), fun a n' s' l' _ _ hact => ?_⟩
      simp only [threadAction, reaperAction, Option.map_some, Option.some.injEq, Prod.mk.injEq,
        if_pos (.inl hstop : d.shared.stopRequested = true ∨ a = .raise)] at hact
      obtain ⟨rfl, rfl⟩ := hact
      exact ⟨⟨hstop, hinv, .inr (.inr rfl)⟩, by simp⟩
    · exact absurd hl hQ

/-- With the reaper gone, the drain reaps what is retained. -/
theorem forces_drained {pc : DrainPc} {closing : List Nat} (h : Calm c) (hgone : c.shared.reaperGone = true)
    (hl : c.frame t = .shutdown (.drain pc closing)) :
    program.Forces Answers (fun d => Calm d ∧ d.shared.drained = true) n c := by
  have hforces := forces_alone (n := n) (t := t) (Q := fun _ l => l.passes = false)
    (I := fun s l => s.reaperGone = true ∧ ((∃ pc closing, l = .shutdown (.drain pc closing)) ∨
      s.drained = true ∧ l.holdsMutex = false ∧ l.quiet = true ∧ l.passes = false))
    (fun n s l => l.passSize n s) ?_ h.reached ⟨hgone, .inl ⟨pc, closing, hl⟩⟩
  · refine hforces.weaken fun d hd => ?_
    obtain ⟨⟨hd, hsame, -, hdrain⟩, hstops⟩ := hd
    rcases hdrain with ⟨pc, closing, hpc⟩ | ⟨hdrained, hfree, hquiet, -⟩
    · rw [hpc] at hstops
      cases hstops
    · exact ⟨h.alone hd hsame hquiet hfree, hdrained⟩
  · intro d n hd hsame hId hQ
    have hpoint := ((control_reached hd).2 t).point
    obtain ⟨hgone, ⟨pc, closing, hpc⟩ | ⟨-, -, -, hpasses⟩⟩ := hId
    · rw [hpc] at hpoint ⊢
      refine ⟨nofun, drain_thread_enabled (fun hnot => mutex_free hd fun u => ?_) fun _ => hgone,
        fun a n' s' l' _ hn hact => ⟨?_, pass_size rfl hpoint hn nofun hact⟩⟩
      · by_cases hu : u = t
        · rw [hu, hpc]
          exact hnot
        · rw [hsame u hu, h.holdsMutex u]
      · simp only [threadAction, Option.map_eq_some_iff, Prod.mk.injEq] at hact
        obtain ⟨⟨s₁, r⟩, hr, rfl, rfl⟩ := hact
        replace hr := shutdownAction_step hr
        cases hr
        case drain d₁ hd₁ =>
          replace hd₁ := drainAction_step hd₁
          cases hd₁
          case reap hreap => exact ⟨(SameLocks.of_reapAction hreap).reaperGone.trans hgone, .inl ⟨_, _, rfl⟩⟩
          case drained => exact ⟨hgone, .inr ⟨rfl, rfl, rfl, rfl⟩⟩
          all_goals exact ⟨hgone, .inl ⟨_, _, rfl⟩⟩
    · exact absurd hpasses hQ

theorem reaper_stop {a : Choice} {s s' : Shared} {pc pc' : ReaperPc} (h : reaperAction a s pc = some (s', pc')) :
    s'.stopRequested = s.stopRequested := by
  replace h := reaperAction_step h
  cases h
  case reap hr => exact (SameLocks.of_reapAction hr).stopRequested
  case reaped rpc s₁ hr => exact (SameLocks.of_reapAction hr).stopRequested
  all_goals rfl

theorem shutdown_reaperGone {a : Choice} {s s' : Shared} {pc : ShutdownPc} {r : Option ShutdownPc}
    (h : shutdownAction t a s pc = some (s', r)) : s'.reaperGone = s.reaperGone := by
  replace h := shutdownAction_step h
  cases h
  case drain dpc closing d hd =>
    replace hd := drainAction_step hd
    cases hd
    case reap hreap => exact (SameLocks.of_reapAction hreap).reaperGone
    all_goals rfl
  all_goals rfl

/-- Nobody has asked the reaper to stop, and it reaps what is retained. -/
theorem forces_reaped (h : Calm c) (hstop : c.shared.stopRequested = false) :
    program.Forces Answers (fun d => Calm d ∧ d.shared.invocations = []) n c := by
  have hforces := forces_alone (n := n) (t := .reaper)
    (Q := fun s l => l.holdsMutex = false ∧ s.invocations = []) (I := fun s _ => s.stopRequested = false)
    (fun n s l => l.passSize n s) ?_ h.reached hstop
  · refine hforces.weaken fun d hd => ?_
    obtain ⟨⟨hd, hsame, -⟩, hfree, hinv⟩ := hd
    obtain ⟨pc, hpc⟩ := reaper_frame hd
    exact ⟨h.alone hd hsame (by rw [hpc]; rfl) hfree, hinv⟩
  · intro d n hd hsame hstop hQ
    obtain ⟨pc, hpc⟩ := reaper_frame hd
    have hcontrol := control_reached hd
    have hpoint := (hcontrol.2 .reaper).point
    rw [hpc] at hpoint hQ ⊢
    have hgone : pc ≠ .gone := by
      rintro rfl
      have hasked := hcontrol.1.gone hpoint
      rw [hstop] at hasked
      cases hasked
    refine ⟨nofun, reaper_enabled (fun hl => mutex_free hd fun u => ?_) hgone, fun a n' s' l' _ hn hact => ⟨?_, ?_⟩⟩
    · by_cases hu : u = .reaper
      · rw [hu, hpc, hl]
        rfl
      · rw [hsame u hu, h.holdsMutex u]
    · simp only [threadAction, Option.map_eq_some_iff, Prod.mk.injEq] at hact
      obtain ⟨⟨s₁, pc'⟩, hr, rfl, rfl⟩ := hact
      exact (reaper_stop hr).trans hstop
    · refine pass_size rfl hpoint hn (fun hl hinv => hQ ⟨?_, hinv⟩) hact
      rw [Pc.reaper.inj hl]
      rfl

/-- What is retained is reaped, by the reaper or by the drain. -/
theorem forces_empty (hc : Reached c) (hquiet : ∀ t, (c.frame t).quiet = true) :
    program.Forces Answers (fun d => Calm d ∧ d.shared.invocations = []) n c := by
  refine (forces_keep_quiet (forces_mutex hc) hquiet).bind fun n₁ c₁ h₁ => ?_
  have hcalm : Calm c₁ := ⟨h₁.2.1, h₁.1, h₁.2.2⟩
  cases hstop : c₁.shared.stopRequested with
  | false => exact forces_reaped hcalm hstop
  | true =>
      have hcontrol := control_reached hcalm.reached
      have hshut : ShutdownInv c₁.shared := (shutdown_reachable hcalm.reached.reachable).1
      have hswapped := hcontrol.1.stop hstop
      have hnow : c₁.shared.drained = true → program.Forces Answers (fun d => Calm d ∧ d.shared.invocations = []) n₁ c₁ :=
        fun hdrained => .now ⟨hcalm, (hshut.drained hdrained).1⟩
      cases honce : c₁.shared.shutdownOnce with
      | idle =>
          rw [hshut.idle honce] at hswapped
          cases hswapped
      | done => exact hnow (hcontrol.1.done honce)
      | running t =>
          have hf := hcontrol.2 t
          have hruns := hf.once.mp honce
          have hpoint := hf.point
          cases hl : c₁.frame t
          case shutdown pc =>
            rw [hl] at hruns hpoint
            cases pc
            case drain pc closing =>
              have hrun : program.Forces Answers (fun d => Calm d ∧ d.shared.drained = true) n₁ c₁ := by
                refine (forces_gone hcalm hstop).bind fun n₂ c₂ h₂ => ?_
                obtain ⟨hcalm₂, hgone, -, hsame⟩ := h₂
                refine forces_drained hcalm₂ hgone ((hsame t ?_).trans hl)
                rintro rfl
                obtain ⟨pc', hpc'⟩ := reaper_frame hcalm.reached
                rw [hl] at hpc'
                cases hpc'
              refine hrun.weaken fun d hd => ⟨hd.1, ?_⟩
              have hshut' : ShutdownInv d.shared := (shutdown_reachable hd.1.reached.reachable).1
              exact (hshut'.drained hd.2).1
            case swap =>
              have hnot : c₁.shared.stopRequested = false := hpoint
              rw [hstop] at hnot
              cases hnot
            case deactivate | await => exact hnow hpoint
            all_goals cases hruns
          all_goals rw [hl] at hruns
          all_goals cases hruns

/-! ## Publications and shutdowns -/

theorem erasing_of_holdsMutex {l : Pc} (h : l.holdsMutex = false) : l.erasing = [] := by
  cases l
  case shutdown pc =>
    cases pc
    case drain dpc closing =>
      cases dpc
      case reap => cases h
      all_goals rfl
    all_goals rfl
  case reaper pc =>
    cases pc
    case reap => cases h
    all_goals rfl
  all_goals rfl

/-- Nothing is retained either. -/
structure Still (c : Config Thread Shared Pc) : Prop extends Calm c where
  invocations : c.shared.invocations = []

/-- While one thread acts, and until it holds `mutex`, no component has users. -/
theorem Still.users {d : Config Thread Shared Pc} (h : Still c) (hd : Reached d)
    (hsame : ∀ u, u ≠ t → d.frame u = c.frame u) (hserves : (d.frame t).serves = false)
    (hmutex : (d.frame t).holdsMutex = false) (hinv : d.shared.invocations = []) (x : Nat) :
    (d.shared.state x).users = 0 := by
  refine no_users hd (fun u hu => ?_) (fun u => ?_) hinv x
  all_goals by_cases hut : u = t
  · rw [hut, hserves] at hu
    cases hu
  · rw [hsame u hut] at hu ⊢
    exact serves_idle (h.quiet u) hu
  · rw [hut]
    exact erasing_of_holdsMutex hmutex
  · rw [hsame u hut]
    exact erasing_of_holdsMutex (h.holdsMutex u)

/-- A publication that has `command_mutex` to itself returns. -/
theorem forces_publish {pc : PublishPc} (h : Still c) (hl : c.frame t = .publish pc)
    (hcommand : ∀ u, u ≠ t → (c.frame u).holdsCommandMutex = false) :
    program.Forces Answers (fun d => Still d ∧ d.frame t = .idle ∧ ∀ u, u ≠ t → d.frame u = c.frame u) n c := by
  have hforces := forces_alone (n := n) (t := t) (Q := fun _ l => l = .idle)
    (I := fun s l => s.invocations = [] ∧ (l = .idle ∨ ∃ pc, l = .publish pc)) (fun _ s l => l.left s) ?_ h.reached
    ⟨h.invocations, .inr ⟨pc, hl⟩⟩
  · refine hforces.weaken fun d hd => ?_
    obtain ⟨⟨hd, hsame, hinv, -⟩, hidle⟩ := hd
    exact ⟨⟨h.alone hd hsame (by rw [hidle]; rfl) (by rw [hidle]; rfl), hinv⟩, hidle, hsame⟩
  · intro d n hd hsame hId hQ
    obtain ⟨hinv, hidle | ⟨pc, hpc⟩⟩ := hId
    · exact absurd hidle hQ
    have husers := h.users hd hsame (by rw [hpc]; rfl) (by rw [hpc]; rfl) hinv
    have hfree : pc.holds = false → d.shared.commandMutex = none := by
      refine fun hfree => commandMutex_free hd fun u => ?_
      by_cases hu : u = t
      · rw [hu, hpc]
        exact hfree
      · rw [hsame u hu, hcommand u hu]
    rw [hpc]
    refine ⟨nofun, ?_, fun a n' s' l' _ _ hact => ?_⟩
    · obtain ⟨r, hr⟩ := publish_enabled (t := t) hfree husers
      exact ⟨_, by rw [threadAction, hr, Option.map_some]⟩
    · refine ⟨⟨(keeps_empty rfl hact).1 hinv, ?_⟩, ?_⟩
      all_goals simp only [threadAction, Option.map_eq_some_iff, Prod.mk.injEq] at hact
      all_goals obtain ⟨⟨s₁, r⟩, hr, rfl, rfl⟩ := hact
      · cases r
        all_goals simp
      · have hless := publish_left hr
        cases r
        all_goals exact hless

/-- A shutdown that nobody else is in the way of returns, or waits for the reaper. -/
theorem forces_shutdown_join {pc : ShutdownPc} (h : Still c) (hl : c.frame t = .shutdown pc)
    (hcommand : ∀ u, (c.frame u).holdsCommandMutex = false) (honce : ∀ u, u ≠ t → (c.frame u).runsShutdown = false) :
    program.Forces Answers (fun d => Still d ∧ d.shared.reaperGone = c.shared.reaperGone ∧
      (d.frame t = .idle ∨ (∃ closing, d.frame t = .shutdown (.drain .join closing)) ∧ d.shared.reaperGone = false) ∧
        ∀ u, u ≠ t → d.frame u = c.frame u) n c := by
  have hforces := forces_alone (n := n) (t := t)
    (Q := fun s l => l = .idle ∨ (∃ closing, l = .shutdown (.drain .join closing)) ∧ s.reaperGone = false)
    (I := fun s l => s.invocations = [] ∧ s.reaperGone = c.shared.reaperGone ∧ (l = .idle ∨ ∃ pc, l = .shutdown pc))
    (fun _ s l => l.left s) ?_ h.reached ⟨h.invocations, rfl, .inr ⟨pc, hl⟩⟩
  · refine hforces.weaken fun d hd => ?_
    obtain ⟨⟨hd, hsame, hinv, hgone, -⟩, hstops⟩ := hd
    refine ⟨⟨h.alone hd hsame ?_ ?_, hinv⟩, hgone, hstops, hsame⟩
    all_goals rcases hstops with hidle | ⟨⟨closing, hjoin⟩, -⟩
    · rw [hidle]
      rfl
    · rw [hjoin]
      rfl
    · rw [hidle]
      rfl
    · rw [hjoin]
      rfl
  · intro d n hd hsame hId hQ
    obtain ⟨hinv, hgone, hidle | ⟨pc, hpc⟩⟩ := hId
    · exact absurd (.inl hidle) hQ
    have honce' : ∀ u, pc = .once → d.shared.shutdownOnce ≠ .running u := by
      intro u hpc' hrunning
      have hruns := ((control_reached hd).2 u).once.mp hrunning
      by_cases hu : u = t
      · rw [hu, hpc, hpc'] at hruns
        cases hruns
      · rw [hsame u hu, honce u hu] at hruns
        cases hruns
    have hcommand' : d.shared.commandMutex = none := by
      refine commandMutex_free hd fun u => ?_
      by_cases hu : u = t
      · rw [hu, hpc]
        rfl
      · rw [hsame u hu, hcommand u]
    have hmutex : pc.holds = false → d.shared.mutex = none := by
      refine fun hfree => mutex_free hd fun u => ?_
      by_cases hu : u = t
      · rw [hu, hpc]
        exact hfree
      · rw [hsame u hu, h.holdsMutex u]
    have husers : pc.holds = false → ∀ x, (d.shared.state x).users = 0 :=
      fun hfree => h.users hd hsame (by rw [hpc]; rfl) (by rw [hpc]; exact hfree) hinv
    rw [hpc] at hQ ⊢
    have hjoin : ∀ closing, pc = .drain .join closing → d.shared.reaperGone = true := by
      intro closing hjoin
      rw [← Bool.not_eq_false]
      exact fun hnot => hQ (.inr ⟨⟨closing, by rw [hjoin]⟩, hnot⟩)
    refine ⟨nofun, ?_, fun a n' s' l' _ _ hact => ?_⟩
    · obtain ⟨r, hr⟩ := shutdown_enabled (t := t) honce' hcommand' hmutex husers hjoin
      exact ⟨_, by rw [threadAction, hr, Option.map_some]⟩
    · refine ⟨⟨(keeps_empty rfl hact).1 hinv, ?_⟩, ?_⟩
      all_goals simp only [threadAction, Option.map_eq_some_iff, Prod.mk.injEq] at hact
      all_goals obtain ⟨⟨s₁, r⟩, hr, rfl, rfl⟩ := hact
      · refine ⟨(shutdown_reaperGone hr).trans hgone, ?_⟩
        cases r
        all_goals simp
      · have hless := shutdown_left hinv hr
        cases r
        all_goals exact hless

/-- It returns, the reaper having ended. -/
theorem forces_shutdown {pc : ShutdownPc} (h : Still c) (hl : c.frame t = .shutdown pc)
    (hcommand : ∀ u, (c.frame u).holdsCommandMutex = false) (honce : ∀ u, u ≠ t → (c.frame u).runsShutdown = false) :
    program.Forces Answers (fun d => Still d ∧ d.frame t = .idle ∧ (∀ u, (d.frame u).holdsCommandMutex = false) ∧
      ∀ u, (d.frame u).runsShutdown = false) n c := by
  have hreturned : ∀ {d : Config Thread Shared Pc}, d.frame t = .idle →
      (∀ u, u ≠ t → (d.frame u).holdsCommandMutex = false ∧ (d.frame u).runsShutdown = false) →
        (∀ u, (d.frame u).holdsCommandMutex = false) ∧ ∀ u, (d.frame u).runsShutdown = false := by
    intro d hidle hothers
    refine ⟨fun u => ?_, fun u => ?_⟩
    all_goals by_cases hu : u = t
    · rw [hu, hidle]
      rfl
    · exact (hothers u hu).1
    · rw [hu, hidle]
      rfl
    · exact (hothers u hu).2
  refine (forces_shutdown_join h hl hcommand honce).bind fun n₁ c₁ h₁ => ?_
  obtain ⟨hstill₁, -, hstops, hsame₁⟩ := h₁
  rcases hstops with hidle | ⟨⟨closing, hjoin⟩, -⟩
  · exact .now ⟨hstill₁, hidle, hreturned hidle fun u hu => by
      rw [hsame₁ u hu]
      exact ⟨hcommand u, honce u hu⟩⟩
  -- the reaper was asked to stop before the drain waits for it
  have hstop : c₁.shared.stopRequested = true := by
    have hpoint := ((control_reached hstill₁.reached).2 t).point
    rw [hjoin] at hpoint
    exact hpoint
  refine (forces_gone hstill₁.toCalm hstop).bind fun n₂ c₂ h₂ => ?_
  obtain ⟨hcalm₂, hgone₂, hinv₂, hsame₂⟩ := h₂
  have hreaper : t ≠ .reaper := by
    rintro rfl
    obtain ⟨pc', hpc'⟩ := reaper_frame h.reached
    rw [hl] at hpc'
    cases hpc'
  have hothers : ∀ u, u ≠ t → (c₂.frame u).holdsCommandMutex = false ∧ (c₂.frame u).runsShutdown = false := by
    intro u hu
    by_cases hur : u = .reaper
    · obtain ⟨pc', hpc'⟩ := reaper_frame hcalm₂.reached
      rw [hur, hpc']
      exact ⟨rfl, rfl⟩
    · rw [hsame₂ u hur, hsame₁ u hu]
      exact ⟨hcommand u, honce u hu⟩
  have hl₂ : c₂.frame t = .shutdown (.drain .join closing) := (hsame₂ t hreaper).trans hjoin
  refine (forces_shutdown_join ⟨hcalm₂, hinv₂.trans hstill₁.invocations⟩ hl₂ (fun u => ?_)
    fun u hu => (hothers u hu).2).weaken fun d hd => ?_
  · by_cases hu : u = t
    · rw [hu, hl₂]
      rfl
    · exact (hothers u hu).1
  · obtain ⟨hstill, hgone, hstops, hsame⟩ := hd
    rcases hstops with hidle | ⟨-, hnot⟩
    · exact ⟨hstill, hidle, hreturned hidle fun u hu => by
        rw [hsame u hu]
        exact hothers u hu⟩
    · rw [hgone, hgone₂] at hnot
      cases hnot

/-! ## All calls -/

/-- The thread is in no call; the reaper never is. -/
def Pc.atRest (l : Pc) : Bool := l == .idle || l.isReaper

theorem atRest_iff {l : Pc} : l.atRest = true ↔ l = .idle ∨ l.isReaper = true := by
  simp [Pc.atRest]

theorem quiet_of_atRest {l : Pc} (h : l.atRest = true) : l.quiet = true := by
  rcases atRest_iff.mp h with rfl | h
  · rfl
  · cases l
    case reaper => rfl
    all_goals cases h

theorem atRest_stays {a : Choice} {n' : Nat} {d : Config Thread Shared Pc} (ha : Answers n c t a n')
    (hn : program.next c t a = some d) (hrest : (c.frame t).atRest = true) : (d.frame t).atRest = true := by
  obtain ⟨s', l', hact, rfl⟩ := next_eq_some.mp hn
  have hidle := ha.1
  simp only [Function.update_self]
  generalize c.frame t = l at hact hidle hrest
  cases threadStep hact
  case reaper => rfl
  case enter | enterPublish | enterBeginShutdown | enterShutdown => exact absurd rfl hidle
  case invoke hp =>
    have hserves := (invoke_serves hp).1
    exact absurd (serves_idle (quiet_of_atRest hrest) hserves) hidle
  all_goals cases hrest

/-- One call returns. -/
theorem forces_return (hc : Reached c) (t : Thread) :
    program.Forces Answers (fun d => (d.frame t).atRest = true) n c := by
  -- nothing is served or retained, and nobody holds `command_mutex` or runs the shutdown
  refine (forces_quiet hc).bind fun n₁ c₁ h₁ => (forces_empty h₁.1 h₁.2).bind fun n₂ c₂ h₂ => ?_
  have hstill₂ : Still c₂ := ⟨h₂.1, h₂.2⟩
  have hpublished : program.Forces Answers (fun d => Still d ∧ ∀ u, (d.frame u).holdsCommandMutex = false) n₂ c₂ := by
    cases hm : c₂.shared.commandMutex with
    | none =>
        refine .now ⟨hstill₂, fun u => ?_⟩
        rw [Bool.eq_false_iff]
        exact fun hholds => by simpa [hm] using ((control_reached hstill₂.reached).2 u).command.mpr hholds
    | some v =>
        have hholds := ((control_reached hstill₂.reached).2 v).command.mp hm
        have hothers : ∀ u, u ≠ v → (c₂.frame u).holdsCommandMutex = false := by
          intro u hu
          rw [Bool.eq_false_iff]
          intro h
          exact hu (Option.some.inj ((((control_reached hstill₂.reached).2 u).command.mpr h).symm.trans hm))
        cases hl : c₂.frame v
        case publish pc =>
          refine (forces_publish hstill₂ hl hothers).weaken fun d hd => ⟨hd.1, fun u => ?_⟩
          by_cases hu : u = v
          · rw [hu, hd.2.1]
            rfl
          · rw [hd.2.2 u hu, hothers u hu]
        all_goals rw [hl] at hholds
        all_goals cases hholds
  refine hpublished.bind fun n₃ c₃ h₃ => ?_
  obtain ⟨hstill₃, hcommand₃⟩ := h₃
  have hshut : program.Forces Answers (fun d => Still d ∧ (∀ u, (d.frame u).holdsCommandMutex = false) ∧
      ∀ u, (d.frame u).runsShutdown = false) n₃ c₃ := by
    by_cases hruns : ∃ v, (c₃.frame v).runsShutdown = true
    · obtain ⟨v, hv⟩ := hruns
      have honce := ((control_reached hstill₃.reached).2 v).once.mpr hv
      cases hl : c₃.frame v
      case shutdown pc =>
        refine (forces_shutdown hstill₃ hl hcommand₃ fun u hu => ?_).weaken fun d hd => ⟨hd.1, hd.2.2⟩
        rw [Bool.eq_false_iff]
        intro h
        have hother := ((control_reached hstill₃.reached).2 u).once.mpr h
        rw [honce] at hother
        exact hu (Once.running.inj hother).symm
      all_goals rw [hl] at hv
      all_goals cases hv
    · refine .now ⟨hstill₃, hcommand₃, fun u => ?_⟩
      rw [Bool.eq_false_iff]
      exact fun h => hruns ⟨u, h⟩
  refine hshut.bind fun n₄ c₄ h₄ => ?_
  obtain ⟨hstill₄, hcommand₄, honce₄⟩ := h₄
  cases hl : c₄.frame t
  case publish pc =>
    refine (forces_publish hstill₄ hl fun u _ => hcommand₄ u).weaken fun d hd => ?_
    rw [hd.2.1]
    rfl
  case shutdown pc =>
    refine (forces_shutdown hstill₄ hl hcommand₄ fun u _ => honce₄ u).weaken fun d hd => ?_
    rw [hd.2.1]
    rfl
  case beginShutdown =>
    refine .step t (answered (by simp [hl]) ⟨_, by rw [hl]; rfl⟩) fun a n' d _ hn => .now ?_
    obtain ⟨s', l', hact, rfl⟩ := next_eq_some.mp hn
    rw [hl] at hact
    cases hact
    simp [Pc.atRest]
  case idle | reaper =>
    refine .now ?_
    rw [hl]
    rfl
  all_goals have hidle := serves_idle (hstill₄.quiet t) (by rw [hl]; rfl)
  all_goals rw [hl] at hidle
  all_goals cases hidle

theorem quiet_initially (t : Thread) : ((program.initial).frame t).atRest = true := by
  cases t
  all_goals rfl

/-- Only finitely many calls are in progress. -/
theorem finite_calls (hc : Reached c) : {t | ¬ (c.frame t).atRest = true}.Finite := by
  refine (ReachFrom.finite_moved hc).subset fun t ht => ?_
  simp only [Set.mem_ofPred_eq] at ht ⊢
  intro hsame
  exact ht (hsame ▸ quiet_initially t)

/-- Every call returns and every lease is given back. From every state that is reachable by runs in which the waits of the
reaper do not throw, all calls in progress (reads, writes, invocations, publications, `beginShutdown`, `shutdown`) can be
brought to their returns by a choice of which thread acts next, whatever fails or throws, provided that operations are
not done only finitely many more times. No component has users then: no retained invocation is left. -/
theorem leases_given_back (hc : Reached c) (n : Nat) :
    program.Forces Answers (fun d => (∀ t, (d.frame t).atRest = true) ∧ ∀ x, (d.shared.state x).users = 0) n c := by
  have hall : program.Forces Answers (fun d => Reached d ∧ ∀ t, (d.frame t).atRest = true) n c :=
    Forces.all (K := Reached) (fun _ l => l.atRest = true) (fun _ _ _ _ _ _ hd ha hn => reached_next hd ha hn)
      (fun _ _ _ _ _ _ ha hn hrest => atRest_stays ha hn hrest) (fun t _ _ hd => forces_return hd t)
      (finite_calls hc) hc
  refine hall.bind fun n₁ c₁ h₁ => ?_
  obtain ⟨hc₁, hrest₁⟩ := h₁
  have hempty := (forces_empty (n := n₁) hc₁ fun t => quiet_of_atRest (hrest₁ t)).keep
    (K := fun d => ∀ t, (d.frame t).atRest = true) (fun n d u a n' d' hd ha hn t => ?_) hrest₁
  · refine hempty.weaken fun d hd => ?_
    obtain ⟨hrest, hcalm, hinv⟩ := hd
    refine ⟨hrest, no_users hcalm.reached (fun t ht => serves_idle (hcalm.quiet t) ht) (fun t => ?_) hinv⟩
    exact erasing_of_holdsMutex (hcalm.holdsMutex t)
  · by_cases htu : t = u
    · subst htu
      exact atRest_stays ha hn (hd t)
    · obtain ⟨s', l', -, rfl⟩ := next_eq_some.mp hn
      simpa [htu] using hd t

def waitsBool (c : Config Thread Shared Pc) (t : Thread) (a : Choice) : Bool :=
  !(c.frame t == .reaper .awake && a == .raise)

/-- One shutdown waits for the reaper and another one waits for the first, while an invocation is retained whose operation
is not done. -/
theorem leases_given_back_retained : ∃ c d, Reached c ∧ program.next c (.worker 2) .go = none ∧
    program.next c (.worker 3) .go = none ∧ (c.shared.state 0).users = 1 ∧ program.Steps c d ∧
    (∀ t, (d.frame t).atRest = true) ∧ ∀ x, (d.shared.state x).users = 0 := by
  obtain ⟨c, hc, hQ⟩ := reach_of_exec (P := program) waitsBool
    (retained ++ (.worker 2, .call .shutdown) :: go (.worker 2) 4 ++ [(.worker 3, .call .shutdown), (.worker 3, .go)])
    (fun c => (program.next c (.worker 2) .go).isNone && (program.next c (.worker 3) .go).isNone &&
      (c.shared.state 0).users == 1) (by decide)
  simp only [Bool.and_eq_true, beq_iff_eq, Option.isNone_iff_eq_none] at hQ
  obtain ⟨⟨htwo, hthree⟩, husers⟩ := hQ
  have hreached : Reached c := hc.weaken fun c t a h => by
    simpa [waitsBool, Waits, imp_iff_not_or] using h
  obtain ⟨d, hrun, hrest, hnone⟩ := (leases_given_back hreached 3).exists_run
  exact ⟨c, d, hreached, htwo, hthree, husers, hrun, hrest, hnone⟩

end Returns

end RttOpcua.Lease
