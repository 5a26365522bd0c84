import Mathlib.Data.Set.Finite.Basic
import RttOpcua.Lib.Threads

/-!
# What a scheduler can bring about

A game on a program of threads. The scheduler chooses the thread that acts next, and the environment answers with what is
decided for the action. `Forces Q` says that the scheduler wins `Q` after finitely many actions, whatever the environment
answers. The environment has a state of its own, so that its answers may depend on the past and some of them may run out.
-/

namespace RttOpcua.Lib.Threads

variable {ι σ τ α ε : Type} [DecidableEq ι] {P : Threads ι σ τ α}

/-- `env e c i a e'`: in state `e` the environment may answer `a` to an action of thread `i`, and is in `e'` then. A
thread is chosen only where some answer lets it act. -/
inductive Forces (P : Threads ι σ τ α) (env : ε → Config ι σ τ → ι → α → ε → Prop) (Q : Config ι σ τ → Prop) :
    ε → Config ι σ τ → Prop where
  | now {e : ε} {c : Config ι σ τ} : Q c → Forces P env Q e c
  | step {e : ε} {c : Config ι σ τ} (i : ι) : (∃ a e' c', env e c i a e' ∧ P.next c i a = some c') →
      (∀ a e' c', env e c i a e' → P.next c i a = some c' → Forces P env Q e' c') → Forces P env Q e c

variable {env : ε → Config ι σ τ → ι → α → ε → Prop} {Q R K : Config ι σ τ → Prop} {e : ε} {c : Config ι σ τ}

/-- One win after another. -/
theorem Forces.bind (h : P.Forces env Q e c) (hQ : ∀ e c, Q c → P.Forces env R e c) : P.Forces env R e c := by
  induction h with
  | now hc => exact hQ _ _ hc
  | step i hlive _ ih => exact .step i hlive ih

theorem Forces.weaken (h : P.Forces env Q e c) (hQ : ∀ c, Q c → R c) : P.Forces env R e c :=
  h.bind fun _ _ hc => .now (hQ _ hc)

/-- What every answered action keeps still holds at the win. -/
theorem Forces.keep (h : P.Forces env Q e c)
    (hK : ∀ e c i a e' c', K c → env e c i a e' → P.next c i a = some c' → K c') (hc : K c) :
    P.Forces env (fun d => K d ∧ Q d) e c := by
  induction h with
  | now hQ => exact .now ⟨hc, hQ⟩
  | step i hlive _ ih => exact .step i hlive fun a e' c' ha hn => ih a e' c' ha hn (hK _ _ _ _ _ _ hc ha hn)

/-- The scheduler has a run to the win. -/
theorem Forces.exists_run (h : P.Forces env Q e c) : ∃ c', P.Steps c c' ∧ Q c' := by
  induction h with
  | now hQ => exact ⟨_, .refl, hQ⟩
  | step i hlive _ ih =>
      obtain ⟨a, e', c', ha, hn⟩ := hlive
      obtain ⟨d, hrun, hQ⟩ := ih a e' c' ha hn
      exact ⟨d, (ReachFrom.step .refl trivial hn).trans hrun, hQ⟩

/-- The variant rule. As long as `Q` does not hold there is a thread that can act, and each answer keeps the invariant
and makes the variant smaller. -/
theorem Forces.variant {β : Type} [LT β] [WellFoundedLT β] {I : Config ι σ τ → Prop} (size : ε → Config ι σ τ → β)
    (hstep : ∀ e c, I c → ¬ Q c → ∃ i, (∃ a e' c', env e c i a e' ∧ P.next c i a = some c') ∧
      ∀ a e' c', env e c i a e' → P.next c i a = some c' → I c' ∧ size e' c' < size e c)
    (hI : I c) : P.Forces env (fun d => I d ∧ Q d) e c := by
  induction h : size e c using WellFoundedLT.induction generalizing e c with
  | ind n ih =>
      by_cases hQ : Q c
      · exact .now ⟨hI, hQ⟩
      · obtain ⟨i, hlive, hall⟩ := hstep e c hI hQ
        refine .step i hlive fun a e' c' ha hn => ?_
        obtain ⟨hI', hlt⟩ := hall a e' c' ha hn
        exact ih _ (h ▸ hlt) hI' rfl

/-! ## All threads -/

/-- Only finitely many threads have acted. -/
theorem ReachFrom.finite_moved {ok : Config ι σ τ → ι → α → Prop} {c₀ : Config ι σ τ} (h : P.ReachFrom ok c₀ c) :
    {i | c.frame i ≠ c₀.frame i}.Finite := by
  induction h with
  | refl => simp
  | @step d d' i a _ _ hn ih =>
      obtain ⟨s, l, -, rfl⟩ := next_eq_some.mp hn
      refine (ih.insert i).subset fun j hj => ?_
      by_cases hji : j = i
      · exact .inl hji
      · exact .inr (by simpa [hji] using hj)

/-- If each thread can be brought to rest, and stays there, then all of them can, one after the other. -/
theorem Forces.all (rest : ι → τ → Prop)
    (hK : ∀ e c i a e' c', K c → env e c i a e' → P.next c i a = some c' → K c')
    (hrest : ∀ e c i a e' c', env e c i a e' → P.next c i a = some c' → rest i (c.frame i) → rest i (c'.frame i))
    (hforces : ∀ i e c, K c → P.Forces env (fun d => rest i (d.frame i)) e c)
    (hfinite : {i | ¬ rest i (c.frame i)}.Finite) (hc : K c) :
    P.Forces env (fun d => K d ∧ ∀ i, rest i (d.frame i)) e c := by
  have hstay : ∀ e c i a e' c', env e c i a e' → P.next c i a = some c' →
      ∀ j, rest j (c.frame j) → rest j (c'.frame j) := by
    intro e c i a e' c' ha hn j hj
    by_cases hji : j = i
    · subst hji
      exact hrest e c j a e' c' ha hn hj
    · obtain ⟨s, l, -, rfl⟩ := next_eq_some.mp hn
      simpa [hji] using hj
  obtain ⟨threads, hthreads⟩ : ∃ threads : List ι, ∀ i, ¬ rest i (c.frame i) → i ∈ threads := by
    refine ⟨hfinite.toFinset.toList, fun i hi => ?_⟩
    simpa using hi
  induction threads generalizing e c with
  | nil =>
      refine .now ⟨hc, fun i => ?_⟩
      by_contra hi
      exact absurd (hthreads i hi) (by simp)
  | cons i threads ih =>
      have hnext := (hforces i e c hc).keep (K := fun d => K d ∧ ∀ j, rest j (c.frame j) → rest j (d.frame j))
        (fun e c i a e' c' hd ha hn =>
          ⟨hK e c i a e' c' hd.1 ha hn, fun j hj => hstay e c i a e' c' ha hn j (hd.2 j hj)⟩) ⟨hc, fun _ h => h⟩
      refine hnext.bind fun e d hd => ih (hfinite.subset fun j hj hr => hj (hd.1.2 j hr)) hd.1.1 fun j hj => ?_
      have hmem : j ∈ i :: threads := hthreads j fun hr => hj (hd.1.2 j hr)
      rcases List.mem_cons.mp hmem with rfl | hmem
      · exact absurd hd.2 hj
      · exact hmem

end RttOpcua.Lib.Threads
