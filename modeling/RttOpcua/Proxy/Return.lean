import RttOpcua.Proxy.Lemmas.Return
import RttOpcua.Proxy.Theorems

/-!
# Every call returns

The locks and waits of the proxy have an order: a holder of `synchronize_mutex` may wait for the end of a pass of the
pump, a pass for the `mutex_` of the session, and a holder of `mutex_` for nobody. So every call can be brought to its
return, whatever the server answers.
-/

namespace RttOpcua.Proxy

open RttOpcua.Lib Threads

/-- What the environment may answer while calls return: it begins no call, and the stagings send `n` more discovery
requests at most. -/
def Answers (n : Nat) (c : Config Thread Shared Pc) (t : Thread) (a : Choice) (n' : Nat) : Prop :=
  c.frame t ≠ .idle ∧ Spends (c.frame t).stages a n n'

section Returns

variable {c : Config Thread Shared Pc} {t : Thread} {n : Nat}

theorem answered (hidle : c.frame t ≠ .idle) (h : ∃ r, threadAction t (.reply .good) c.shared (c.frame t) = some r) :
    ∃ a n' c', Answers n c t a n' ∧ program.next c t a = some c' := by
  obtain ⟨⟨s', l'⟩, hr⟩ := h
  refine ⟨.reply .good, n, _, ⟨hidle, by simp [Spends]⟩, next_eq_some.mpr ⟨s', l', hr, rfl⟩⟩

/-- One thread acts alone, as long as it can, up to a point where it stops. -/
theorem forces_alone (stops : Pc → Bool) (hpc : ∀ l, stops l = false → l ≠ .idle ∧ l ≠ .pump .wait)
    (hlive : ∀ d, program.Reachable d → (∀ u, u ≠ t → d.frame u = c.frame u) → stops (d.frame t) = false →
      ∃ r, threadAction t (.reply .good) d.shared (d.frame t) = some r)
    (hc : program.Reachable c) :
    program.Forces Answers
      (fun d => (program.Reachable d ∧ ∀ u, u ≠ t → d.frame u = c.frame u) ∧ stops (d.frame t) = true) n c := by
  refine Forces.variant (fun n d => (d.frame t).left d.shared.portAdapters.length n) ?_ ⟨hc, fun _ _ => rfl⟩
  intro n d hd hstops
  simp only [Bool.not_eq_true] at hstops
  obtain ⟨hidle, hwait⟩ := hpc _ hstops
  refine ⟨t, answered hidle (hlive d hd.1 hd.2 hstops), fun a n' d' ha hn => ?_⟩
  obtain ⟨s', l', hact, rfl⟩ := next_eq_some.mp hn
  refine ⟨⟨.step hd.1 trivial hn, fun u hu => ?_⟩, ?_⟩
  · simpa [hu] using hd.2 u hu
  · simpa using thread_left hidle hwait ha.2 hact

/-! ## The locks -/

theorem mutex_free (hc : program.Reachable c) (h : ∀ t, (c.frame t).holdsMutex = false) : c.shared.mutex = none := by
  cases hm : c.shared.mutex with
  | none => rfl
  | some u =>
      have hu := (((access_reachable hc).2 u).mutex.mp hm)
      rw [h u] at hu
      cases hu

theorem synchronizeMutex_free (hc : program.Reachable c) (h : ∀ t, (c.frame t).holdsSynchronizeMutex = false) :
    c.shared.synchronizeMutex = none := by
  cases hm : c.shared.synchronizeMutex with
  | none => rfl
  | some u =>
      have hu := (((access_reachable hc).2 u).synchronizeMutex.mp hm)
      rw [h u] at hu
      cases hu

theorem holdsMutex_eq_false (hc : program.Reachable c) (h : c.shared.mutex ≠ some t) :
    (c.frame t).holdsMutex = false := by
  rw [Bool.eq_false_iff]
  exact fun hholds => h (((access_reachable hc).2 t).mutex.mpr hholds)

theorem holdsSynchronizeMutex_eq_false (hc : program.Reachable c) (h : c.shared.synchronizeMutex ≠ some t) :
    (c.frame t).holdsSynchronizeMutex = false := by
  rw [Bool.eq_false_iff]
  exact fun hholds => h (((access_reachable hc).2 t).synchronizeMutex.mpr hholds)

/-- The pump never leaves `pumpPorts`. -/
theorem pump_frame (hc : program.Reachable c) :
    ∃ pc, c.frame .pump = .pump pc ∧ c.shared.portsPumping = pc.inPass := by
  have hf : PauseFacts .pump (c.frame .pump) c.shared := (pause_reachable hc).2 .pump
  cases hl : c.frame .pump
  case pump pc =>
    rw [hl] at hf
    exact ⟨pc, rfl, hf.2⟩
  all_goals rw [hl] at hf
  all_goals simp [PauseFacts] at hf

/-- Other threads never enter it. -/
theorem app_frame (hc : program.Reachable c) (ht : t ≠ .pump) (pc : PumpPc) : c.frame t ≠ .pump pc := by
  intro hl
  have hf : PauseFacts t (c.frame t) c.shared := (pause_reachable hc).2 t
  rw [hl] at hf
  exact ht hf.1

theorem app_of_holds (hc : program.Reachable c) (h : (c.frame t).holdsSynchronizeMutex = true) : t ≠ .pump := by
  rintro rfl
  obtain ⟨pc, hpc, -⟩ := pump_frame hc
  rw [hpc] at h
  cases h

/-! ## The order of the waits -/

/-- The holder of the `mutex_` of the session waits for nobody. -/
theorem holder_enabled (h : (c.frame t).holdsMutex = true) :
    ∃ r, threadAction t (.reply .good) c.shared (c.frame t) = some r := by
  have hm : (c.frame t).holdsMutex = false → c.shared.mutex = none := fun hnot => by
    rw [h] at hnot
    cases hnot
  cases hl : c.frame t
  case pump pc =>
    rw [hl] at h hm
    have hpass : pc.inPass = true := by
      cases pc
      case pump => rfl
      all_goals cases h
    obtain ⟨r, hr⟩ := pump_enabled (t := t) hm hpass
    exact ⟨_, by rw [threadAction, hr, Option.map_some]⟩
  case idle | stop | join | gone =>
    rw [hl] at h
    cases h
  all_goals rw [hl] at h hm
  all_goals obtain ⟨hwaits, hpauses⟩ := waits_of_holdsMutex h
  all_goals refine thread_enabled rfl (fun hgone => ?_) hm (fun hs => ?_) (fun hp => ?_)
  all_goals simp_all

/-- `mutex_` comes free. -/
theorem forces_mutex (hc : program.Reachable c) :
    program.Forces Answers (fun d => program.Reachable d ∧ d.shared.mutex = none) n c := by
  cases hm : c.shared.mutex with
  | none => exact .now ⟨hc, hm⟩
  | some t =>
      refine (forces_alone (t := t) (fun l => !l.holdsMutex) ?_ ?_ hc).weaken ?_
      · intro l hl
        refine ⟨?_, ?_⟩
        all_goals rintro rfl
        all_goals cases hl
      · intro d _ _ hl
        exact holder_enabled (by simpa using hl)
      · rintro d ⟨⟨hd, hothers⟩, hstops⟩
        refine ⟨hd, mutex_free hd fun u => ?_⟩
        by_cases hu : u = t
        · subst hu
          simpa using hstops
        · rw [hothers u hu]
          exact holdsMutex_eq_false hc fun h => hu (Option.some.inj (h.symm.trans hm))

/-- The pump ends its pass. -/
theorem forces_pass (hc : program.Reachable c) (hmutex : c.shared.mutex = none) :
    program.Forces Answers
      (fun d => program.Reachable d ∧ d.shared.mutex = none ∧ d.shared.portsPumping = false) n c := by
  have hothers : ∀ u, (c.frame u).holdsMutex = false := fun u => holdsMutex_eq_false hc (by simp [hmutex])
  refine (forces_alone (t := .pump) (fun l => !l.inPass) ?_ ?_ hc).weaken ?_
  · intro l hl
    refine ⟨?_, ?_⟩
    all_goals rintro rfl
    all_goals cases hl
  · intro d hd hsame hl
    obtain ⟨pc, hpc, -⟩ := pump_frame hd
    rw [hpc] at hl ⊢
    have hm : pc.holdsMutex = false → d.shared.mutex = none := by
      intro hfree
      refine mutex_free hd fun u => ?_
      by_cases hu : u = .pump
      · rw [hu, hpc]
        exact hfree
      · rw [hsame u hu, hothers u]
    obtain ⟨r, hr⟩ := pump_enabled (t := .pump) hm (by simpa [Pc.inPass] using hl)
    exact ⟨_, by rw [threadAction, hr, Option.map_some]⟩
  · rintro d ⟨⟨hd, hsame⟩, hstops⟩
    obtain ⟨pc, hpc, hpumping⟩ := pump_frame hd
    have hpass : pc.inPass = false := by simpa [hpc, Pc.inPass] using hstops
    refine ⟨hd, mutex_free hd fun u => ?_, hpumping.trans hpass⟩
    by_cases hu : u = .pump
    · rw [hu, hpc]
      cases pc
      case pump => cases hpass
      all_goals rfl
    · rw [hsame u hu, hothers u]

/-- A call that is alone with the locks, and no pass under way, goes on to its return or waits for the end of the
pump. -/
theorem forces_call (hc : program.Reachable c) (ht : t ≠ .pump) (hmutex : ∀ u, u ≠ t → (c.frame u).holdsMutex = false)
    (hsync : ∀ u, u ≠ t → (c.frame u).holdsSynchronizeMutex = false) (hpumping : c.shared.portsPumping = false) :
    program.Forces Answers
      (fun d => program.Reachable d ∧ d.shared.mutex = none ∧ d.shared.synchronizeMutex = none ∧
        d.shared.portsPumping = false ∧ ((d.frame t).atRest = true ∨ d.frame t = .join)) n c := by
  have hpass : ∀ d, program.Reachable d → (∀ u, u ≠ t → d.frame u = c.frame u) → d.shared.portsPumping = false := by
    intro d hd hsame
    obtain ⟨pc, hpc, hpumps⟩ := pump_frame hc
    obtain ⟨pc', hpc', hpumps'⟩ := pump_frame hd
    rw [hsame .pump ht.symm, hpc] at hpc'
    rw [hpumps', ← Pc.pump.inj hpc', ← hpumps, hpumping]
  refine (forces_alone (t := t) (fun l => l.atRest || l == .join) ?_ ?_ hc).weaken ?_
  · intro l hl
    refine ⟨?_, ?_⟩
    all_goals rintro rfl
    all_goals cases hl
  · intro d hd hsame hl
    simp only [Bool.or_eq_false_iff, beq_eq_false_iff_ne] at hl
    refine thread_enabled hl.1 hl.2 (fun hfree => mutex_free hd fun u => ?_)
      (fun hwaits => synchronizeMutex_free hd fun u => ?_) fun _ => hpass d hd hsame
    · by_cases hu : u = t
      · rw [hu, hfree]
      · rw [hsame u hu, hmutex u hu]
    · by_cases hu : u = t
      · rw [hu]
        exact holdsSynchronizeMutex_of_waits hwaits
      · rw [hsame u hu, hsync u hu]
  · rintro d ⟨⟨hd, hsame⟩, hstops⟩
    have hstops' : (d.frame t).atRest = true ∨ d.frame t = .join := by simpa using hstops
    obtain ⟨hfree, hfree'⟩ := free_of_atRest (app_frame hd ht) hstops'
    refine ⟨hd, mutex_free hd fun u => ?_, synchronizeMutex_free hd fun u => ?_, hpass d hd hsame, hstops'⟩
    · by_cases hu : u = t
      · rw [hu, hfree]
      · rw [hsame u hu, hmutex u hu]
    · by_cases hu : u = t
      · rw [hu, hfree']
      · rw [hsame u hu, hsync u hu]

/-- The action does not depend on the answer. -/
theorem forces_next {Q : Config Thread Shared Pc → Prop} (s' : Shared) (l' : Pc) (hidle : c.frame t ≠ .idle)
    (hstages : (c.frame t).stages = false) (hact : ∀ a, threadAction t a c.shared (c.frame t) = some (s', l'))
    (h : program.Forces Answers Q n ⟨s', Function.update c.frame t l'⟩) : program.Forces Answers Q n c := by
  refine .step t (answered hidle ⟨_, hact _⟩) fun a n' d ha hn => ?_
  obtain ⟨s₁, l₁, h₁, rfl⟩ := next_eq_some.mp hn
  obtain ⟨rfl, rfl⟩ : s' = s₁ ∧ l' = l₁ := by simpa using (hact a).symm.trans h₁
  obtain rfl : n' = n := by simpa [Spends, hstages] using ha.2
  exact h

/-- The pump was asked to end, and ends. -/
theorem forces_join (hc : program.Reachable c) (hjoin : c.frame t = .join) (hpumping : c.shared.portsPumping = false) :
    program.Forces Answers (fun d => (d.frame t).atRest = true) n c := by
  have ht : t ≠ .pump := by
    rintro rfl
    obtain ⟨pc, hpc, -⟩ := pump_frame hc
    rw [hpc] at hjoin
    cases hjoin
  have hgone : ∀ {d : Config Thread Shared Pc}, d.frame t = .join → d.shared.pumpGone = true →
      program.Forces Answers (fun d => (d.frame t).atRest = true) n d := by
    intro d hl hgone
    refine forces_next (t := t) d.shared .idle (by simp [hl]) (by rw [hl]; rfl)
      (fun a => by simp [hl, threadAction, hgone]) (.now ?_)
    simp [Pc.atRest]
  have hwait : ∀ {d : Config Thread Shared Pc}, d.frame t = .join → d.frame .pump = .pump .wait →
      d.shared.stopRequested = true → program.Forces Answers (fun d => (d.frame t).atRest = true) n d := by
    intro d hl hpump hstop
    refine forces_next (t := .pump) { d.shared with portsPumping := false, pumpGone := true } (.pump .gone)
      (by simp [hpump]) (by rw [hpump]; rfl) (fun a => by simp [hpump, threadAction, pumpAction, hstop]) (hgone ?_ rfl)
    simp [ht, hl]
  have hstop : c.shared.stopRequested = true := (stop_reachable hc t).1 hjoin
  obtain ⟨pc, hpc, hpass⟩ := pump_frame hc
  cases pc
  case wait => exact hwait hjoin hpc hstop
  case interval =>
    refine forces_next (t := .pump) c.shared (.pump .wait) (by simp [hpc]) (by rw [hpc]; rfl)
      (fun a => by simp [hpc, threadAction, pumpAction]) (hwait ?_ ?_ hstop)
    · simp [ht, hjoin]
    · simp
  case gone => exact hgone hjoin ((stop_reachable hc .pump).2 hpc)
  all_goals rw [hpumping] at hpass
  all_goals cases hpass

/-- One call returns. -/
theorem forces_return (hc : program.Reachable c) (t : Thread) :
    program.Forces Answers (fun d => (d.frame t).atRest = true) n c := by
  by_cases ht : t = .pump
  · subst ht
    obtain ⟨pc, hpc, -⟩ := pump_frame hc
    exact .now (by rw [hpc]; rfl)
  -- first the pass of the pump ends, then the holder of `synchronize_mutex` returns
  refine (forces_mutex hc).bind fun n₁ c₁ h₁ => (forces_pass h₁.1 h₁.2).bind fun n₂ c₂ h₂ => ?_
  obtain ⟨hc₂, hmutex₂, hpumping₂⟩ := h₂
  have hsync : program.Forces Answers (fun d => program.Reachable d ∧ d.shared.mutex = none ∧
      d.shared.synchronizeMutex = none ∧ d.shared.portsPumping = false) n₂ c₂ := by
    cases hm : c₂.shared.synchronizeMutex with
    | none => exact .now ⟨hc₂, hmutex₂, hm, hpumping₂⟩
    | some u =>
        have hu : u ≠ .pump := app_of_holds hc₂ (((access_reachable hc₂).2 u).synchronizeMutex.mp hm)
        refine (forces_call hc₂ hu (fun v _ => holdsMutex_eq_false hc₂ (by simp [hmutex₂])) (fun v hv => ?_)
          hpumping₂).weaken fun d hd => ⟨hd.1, hd.2.1, hd.2.2.1, hd.2.2.2.1⟩
        exact holdsSynchronizeMutex_eq_false hc₂ fun h => hv (Option.some.inj (h.symm.trans hm))
  refine hsync.bind fun n₃ c₃ h₃ => ?_
  obtain ⟨hc₃, hmutex₃, hsync₃, hpumping₃⟩ := h₃
  have hcall := forces_call (n := n₃) hc₃ ht (fun v _ => holdsMutex_eq_false hc₃ (by simp [hmutex₃]))
    (fun v _ => holdsSynchronizeMutex_eq_false hc₃ (by simp [hsync₃])) hpumping₃
  refine hcall.bind fun n₄ c₄ h₄ => ?_
  obtain ⟨hc₄, -, -, hpumping₄, hstops⟩ := h₄
  rcases hstops with hrest | hjoin
  · exact .now hrest
  · exact forces_join hc₄ hjoin hpumping₄

theorem atRest_stays {a : Choice} {n' : Nat} {d : Config Thread Shared Pc} (ha : Answers n c t a n')
    (hn : program.next c t a = some d) (hrest : (c.frame t).atRest = true) : (d.frame t).atRest = true := by
  obtain ⟨s', l', hact, rfl⟩ := next_eq_some.mp hn
  have hidle := ha.1
  simp only [Function.update_self]
  generalize c.frame t = l at hact hidle hrest
  cases threadStep hact
  case pump => rfl
  case enterSync | enterLifecycle | enterRequest | enterStop => exact absurd rfl hidle
  all_goals cases hrest

/-- Only finitely many calls are in progress. -/
theorem finite_calls (hc : program.Reachable c) : {t | ¬ (c.frame t).atRest = true}.Finite := by
  refine ((ReachFrom.finite_moved hc).insert (.app 0)).subset fun t ht => ?_
  by_contra hnot
  simp only [Set.mem_insert_iff, Set.mem_ofPred_eq, not_or, not_not] at hnot
  obtain ⟨hfirst, hsame⟩ := hnot
  refine ht ?_
  rw [hsame]
  cases t with
  | app m =>
      cases m with
      | zero => exact absurd rfl hfirst
      | succ m => rfl
  | pump => rfl

/-- Every call returns. From every reachable state, all calls in progress (`create`, synchronizations, lifecycle calls,
requests on the mirrored interface, `stopPortPump`) can be brought to their returns by a choice of which thread acts next,
whatever the server answers, whatever fails or throws, and however many discovery requests the stagings still send. No
call has to wait for one that is yet to begin, and no lock stays taken. -/
theorem calls_return (hc : program.Reachable c) (n : Nat) :
    program.Forces Answers (fun d => (∀ t, (d.frame t).atRest = true) ∧ d.shared.synchronizeMutex = none) n c := by
  have hall : program.Forces Answers (fun d => program.Reachable d ∧ ∀ t, (d.frame t).atRest = true) n c :=
    Forces.all (K := program.Reachable) (fun _ l => l.atRest = true) (fun _ _ _ _ _ _ hd _ hn => .step hd trivial hn)
      (fun _ _ _ _ _ _ ha hn hrest => atRest_stays ha hn hrest) (fun t _ _ hd => forces_return hd t)
      (finite_calls hc) hc
  refine hall.weaken fun d hd => ⟨hd.2, synchronizeMutex_free hd.1 fun t => ?_⟩
  have hrest := hd.2 t
  generalize d.frame t = l at hrest
  cases l
  case idle | gone | pump => rfl
  all_goals cases hrest

/-- `create` mirrors a port, and the pump has sent a request for it, when a second thread synchronizes and waits for the
session, a third one makes a lifecycle call and waits for the second, and a fourth one waits for the end of the pump. -/
def waiting : List (Thread × Choice) :=
  go (.app 0) 19 ++ (.app 0, .staged [samplePort]) :: go (.app 0) 9 ++ go .pump 8 ++
    (.app 1, .call .synchronize) :: go (.app 1) 3 ++
      [(.app 2, .call .lifecycle), (.app 3, .call .stopPortPump), (.app 3, .go)]

theorem calls_return_waiting : ∃ c d, program.Reachable c ∧ program.next c (.app 1) .go = none ∧
    program.next c (.app 2) .go = none ∧ c.frame (.app 3) = .join ∧ program.Steps c d ∧
    ∀ t, (d.frame t).atRest = true := by
  obtain ⟨c, hc, hQ⟩ := reachable_of_exec (P := program) waiting
    (fun c => (program.next c (.app 1) .go).isNone && (program.next c (.app 2) .go).isNone &&
      c.frame (.app 3) == .join) (by decide)
  simp only [Bool.and_eq_true, beq_iff_eq, Option.isNone_iff_eq_none] at hQ
  obtain ⟨⟨hone, htwo⟩, hthree⟩ := hQ
  obtain ⟨d, hrun, hrest, -⟩ := (calls_return hc 0).exists_run
  exact ⟨c, d, hc, hone, htwo, hthree, hrun, hrest⟩

end Returns

end RttOpcua.Proxy
