import Mathlib.Logic.Function.Basic

/-!
# Threads over shared memory

A program of threads: one shared state, a private frame for each thread, and one atomic action of a
thread at a time. What the scheduler, the clock and the callers decide is the argument `α` of an
action. An action that is not enabled (a lock that is taken, a join of a live thread) is `none`.

`Reach` is reachability by runs in which every action meets a side condition, `Reachable` the one
without a condition. `Outline.Valid.reachable` is the rely-guarantee rule: a shared invariant and an
assertion for each frame hold in every reachable state if every action re-establishes the invariant
and its own assertion, gives every other thread what that thread relies on, and every assertion is
stable under what its thread relies on.
-/

namespace RttOpcua.Lib

variable {ι σ τ α : Type}

/-- Threads `ι` with frames `τ` over the shared state `σ`. -/
structure Threads (ι σ τ α : Type) where
  shared₀ : σ
  frame₀ : ι → τ
  action : ι → α → σ → τ → Option (σ × τ)

/-- The shared state and the frame of each thread. -/
structure Config (ι σ τ : Type) where
  shared : σ
  frame : ι → τ

namespace Threads

variable [DecidableEq ι] (P : Threads ι σ τ α)

def initial : Config ι σ τ := ⟨P.shared₀, P.frame₀⟩

/-- One action of thread `i`. -/
def next (c : Config ι σ τ) (i : ι) (a : α) : Option (Config ι σ τ) :=
  (P.action i a c.shared (c.frame i)).map fun r => ⟨r.1, Function.update c.frame i r.2⟩

/-- The run of a schedule (which thread acts, and what is decided for it), if every action is enabled
and meets `ok`. -/
def exec (ok : Config ι σ τ → ι → α → Bool) : List (ι × α) → Config ι σ τ → Option (Config ι σ τ)
  | [], c => some c
  | (i, a) :: rest, c => if ok c i a then (P.next c i a).bind (exec ok rest) else none

/-- Reachable from `c₀` by actions that all meet `ok`. -/
inductive ReachFrom (ok : Config ι σ τ → ι → α → Prop) (c₀ : Config ι σ τ) :
    Config ι σ τ → Prop where
  | refl : ReachFrom ok c₀ c₀
  | step {c c' : Config ι σ τ} {i : ι} {a : α} :
      ReachFrom ok c₀ c → ok c i a → P.next c i a = some c' → ReachFrom ok c₀ c'

/-- Reachable from the initial state by actions that all meet `ok`. -/
abbrev Reach (ok : Config ι σ τ → ι → α → Prop) : Config ι σ τ → Prop := P.ReachFrom ok P.initial

/-- No condition on the actions. -/
abbrev Always : Config ι σ τ → ι → α → Prop := fun _ _ _ => True

abbrev Reachable : Config ι σ τ → Prop := P.Reach Always

/-- Runs of any length from `c` to `c'`. -/
abbrev Steps (c c' : Config ι σ τ) : Prop := P.ReachFrom Always c c'

variable {P}

theorem next_eq_some {c c' : Config ι σ τ} {i : ι} {a : α} :
    P.next c i a = some c' ↔ ∃ s l, P.action i a c.shared (c.frame i) = some (s, l) ∧
      c' = ⟨s, Function.update c.frame i l⟩ := by
  unfold next
  cases h : P.action i a c.shared (c.frame i) with
  | none => simp
  | some r =>
      obtain ⟨s, l⟩ := r
      simp only [Option.map_some, Option.some.injEq, Prod.mk.injEq]
      constructor
      · rintro rfl; exact ⟨s, l, ⟨rfl, rfl⟩, rfl⟩
      · rintro ⟨_, _, ⟨rfl, rfl⟩, rfl⟩; rfl

theorem ReachFrom.weaken {ok ok' : Config ι σ τ → ι → α → Prop} (hok : ∀ c i a, ok c i a → ok' c i a)
    {c₀ c : Config ι σ τ} (h : P.ReachFrom ok c₀ c) : P.ReachFrom ok' c₀ c := by
  induction h with
  | refl => exact .refl
  | step _ hk hn ih => exact .step ih (hok _ _ _ hk) hn

theorem ReachFrom.reachable {ok : Config ι σ τ → ι → α → Prop} {c : Config ι σ τ} (h : P.Reach ok c) :
    P.Reachable c :=
  h.weaken fun _ _ _ _ => trivial

theorem ReachFrom.trans {ok : Config ι σ τ → ι → α → Prop} {c₀ c₁ c₂ : Config ι σ τ}
    (h : P.ReachFrom ok c₀ c₁) (h' : P.ReachFrom ok c₁ c₂) : P.ReachFrom ok c₀ c₂ := by
  induction h' with
  | refl => exact h
  | step _ hk hn ih => exact .step ih hk hn

theorem reachFrom_of_exec {ok : Config ι σ τ → ι → α → Bool} {sched : List (ι × α)} {c c' : Config ι σ τ}
    (h : P.exec ok sched c = some c') : P.ReachFrom (fun c i a => ok c i a = true) c c' := by
  induction sched generalizing c with
  | nil => simp only [exec, Option.some.injEq] at h; subst h; exact .refl
  | cons ia rest ih =>
      obtain ⟨i, a⟩ := ia
      simp only [exec, Option.ite_none_right_eq_some] at h
      obtain ⟨hok, h⟩ := h
      obtain ⟨d, hd, hr⟩ := Option.bind_eq_some_iff.mp h
      exact .trans (.step .refl hok hd) (ih hr)

/-- A schedule that the program can follow leads to a state that runs reach; `Q` is a test of it. -/
theorem reach_of_exec (ok : Config ι σ τ → ι → α → Bool) (sched : List (ι × α)) (Q : Config ι σ τ → Bool)
    (h : (P.exec ok sched P.initial).any Q = true) :
    ∃ c, P.Reach (fun c i a => ok c i a = true) c ∧ Q c = true := by
  obtain ⟨c, hc, hQ⟩ := (Option.any_eq_true Q _).mp h
  exact ⟨c, reachFrom_of_exec hc, hQ⟩

theorem reachable_of_exec (sched : List (ι × α)) (Q : Config ι σ τ → Bool)
    (h : (P.exec (fun _ _ _ => true) sched P.initial).any Q = true) :
    ∃ c, P.Reachable c ∧ Q c = true := by
  obtain ⟨c, hc, hQ⟩ := reach_of_exec _ sched Q h
  exact ⟨c, hc.reachable, hQ⟩

/-- A property of states that every action keeps holds on whole runs. -/
theorem ReachFrom.preserves {ok : Config ι σ τ → ι → α → Prop} {Q : Config ι σ τ → Prop}
    (hstep : ∀ c i a c', Q c → ok c i a → P.next c i a = some c' → Q c') {c₀ c : Config ι σ τ}
    (h : P.ReachFrom ok c₀ c) (h₀ : Q c₀) : Q c := by
  induction h with
  | refl => exact h₀
  | step _ hk hn ih => exact hstep _ _ _ _ ih hk hn

/-- `ReachFrom.preserves` along a run that meets `ok`, with reachability at hand in each step. -/
theorem reach_preserves {ok : Config ι σ τ → ι → α → Prop} {Q : Config ι σ τ → Prop}
    (hstep : ∀ c i a c', P.Reachable c → Q c → ok c i a → P.next c i a = some c' → Q c')
    (h₀ : Q P.initial) {c : Config ι σ τ} (h : P.Reach ok c) : Q c := by
  have both : P.Reachable c ∧ Q c := by
    refine ReachFrom.preserves (Q := fun d => P.Reachable d ∧ Q d) ?_ h ⟨.refl, h₀⟩
    intro d i a d' hd hk hn
    exact ⟨.step hd.1 trivial hn, hstep d i a d' hd.1 hd.2 hk hn⟩
  exact both.2

/-- `ReachFrom.preserves` from a reachable state, with reachability at hand in each step. -/
theorem steps_preserve {Q : Config ι σ τ → Prop}
    (hstep : ∀ c i a c', P.Reachable c → Q c → P.next c i a = some c' → Q c') {c c' : Config ι σ τ}
    (hr : P.Reachable c) (h : P.Steps c c') (h₀ : Q c) : Q c' := by
  have both : P.Reachable c' ∧ Q c' := by
    refine ReachFrom.preserves (Q := fun d => P.Reachable d ∧ Q d) ?_ h ⟨hr, h₀⟩
    intro d i a d' hd _ hn
    exact ⟨.step hd.1 trivial hn, hstep d i a d' hd.1 hd.2 hn⟩
  exact both.2

/-! ## Traces -/

/-- Runs from `c₀` with what an observer writes down of each action. -/
inductive TraceFrom (P : Threads ι σ τ α) {ε : Type} (ok : Config ι σ τ → ι → α → Prop)
    (observe : Config ι σ τ → ι → α → List ε) (c₀ : Config ι σ τ) : List ε → Config ι σ τ → Prop where
  | init : TraceFrom P ok observe c₀ [] c₀
  | step {h : List ε} {c c' : Config ι σ τ} {i : ι} {a : α} :
      TraceFrom P ok observe c₀ h c → ok c i a → P.next c i a = some c' →
      TraceFrom P ok observe c₀ (h ++ observe c i a) c'

/-- Runs from the initial state. -/
abbrev Trace (P : Threads ι σ τ α) {ε : Type} (ok : Config ι σ τ → ι → α → Prop)
    (observe : Config ι σ τ → ι → α → List ε) : List ε → Config ι σ τ → Prop := P.TraceFrom ok observe P.initial

theorem TraceFrom.run {ε : Type} {ok : Config ι σ τ → ι → α → Prop} {observe : Config ι σ τ → ι → α → List ε}
    {c₀ c : Config ι σ τ} {h : List ε} (ht : P.TraceFrom ok observe c₀ h c) : P.ReachFrom ok c₀ c := by
  induction ht with
  | init => exact .refl
  | step _ hk hn ih => exact .step ih hk hn

theorem TraceFrom.weaken {ε : Type} {ok ok' : Config ι σ τ → ι → α → Prop} {observe : Config ι σ τ → ι → α → List ε}
    (hok : ∀ c i a, ok c i a → ok' c i a) {c₀ c : Config ι σ τ} {h : List ε} (ht : P.TraceFrom ok observe c₀ h c) :
    P.TraceFrom ok' observe c₀ h c := by
  induction ht with
  | init => exact .init
  | step _ hk hn ih => exact .step ih (hok _ _ _ hk) hn

theorem Trace.reach {ε : Type} {ok : Config ι σ τ → ι → α → Prop} {observe : Config ι σ τ → ι → α → List ε} {h : List ε}
    {c : Config ι σ τ} (ht : P.Trace ok observe h c) : P.Reach ok c := ht.run

/-- Every run has a trace. -/
theorem ReachFrom.trace {ε : Type} {ok : Config ι σ τ → ι → α → Prop} (observe : Config ι σ τ → ι → α → List ε)
    {c₀ c : Config ι σ τ} (h : P.ReachFrom ok c₀ c) : ∃ es, P.TraceFrom ok observe c₀ es c := by
  induction h with
  | refl => exact ⟨[], .init⟩
  | step _ hk hn ih =>
      obtain ⟨es, ht⟩ := ih
      exact ⟨_, .step ht hk hn⟩

/-- The rule for a property of histories and states. -/
theorem TraceFrom.preserves {ε : Type} {ok : Config ι σ τ → ι → α → Prop} {observe : Config ι σ τ → ι → α → List ε}
    {c₀ : Config ι σ τ} {Q : List ε → Config ι σ τ → Prop} (h₀ : Q [] c₀)
    (hstep : ∀ h c i a c', P.ReachFrom ok c₀ c → Q h c → ok c i a → P.next c i a = some c' → Q (h ++ observe c i a) c')
    {h : List ε} {c : Config ι σ τ} (ht : P.TraceFrom ok observe c₀ h c) : Q h c := by
  induction ht with
  | init => exact h₀
  | step ht hk hn ih => exact hstep _ _ _ _ _ ht.run ih hk hn

/-! ## The rely-guarantee rule -/

/-- A proof outline: the shared invariant, the assertion of each frame, what a thread relies on. -/
structure Outline (ι σ τ : Type) where
  inv : σ → Prop
  assertion : ι → τ → σ → Prop
  rely : ι → σ → σ → Prop

/-- The outline holds in a state. -/
def Outline.Holds (O : Outline ι σ τ) (c : Config ι σ τ) : Prop :=
  O.inv c.shared ∧ ∀ i, O.assertion i (c.frame i) c.shared

/-- The obligations of an outline: an action keeps the invariant and its own assertion and gives every
other thread what that one relies on, and no assertion breaks under its rely. They may use a base
outline that is known to hold. -/
structure Outline.Valid (O : Outline ι σ τ) (P : Threads ι σ τ α) (B : Outline ι σ τ) : Prop where
  step : ∀ {i a s l s' l'}, B.inv s → B.assertion i l s → O.inv s → O.assertion i l s →
    P.action i a s l = some (s', l') →
    O.inv s' ∧ O.assertion i l' s' ∧ ∀ j, j ≠ i → O.rely j s s'
  stable : ∀ {j l s s'}, B.inv s → B.assertion j l s → O.inv s → O.assertion j l s →
    O.rely j s s' → O.assertion j l s'

/-- The outline that says nothing. -/
def Outline.trivial : Outline ι σ τ := ⟨fun _ => True, fun _ _ _ => True, fun _ _ _ => True⟩

omit [DecidableEq ι] in
theorem Outline.holds_trivial (c : Config ι σ τ) : (Outline.trivial (ι := ι)).Holds c :=
  ⟨True.intro, fun _ => True.intro⟩

/-- The obligations for runs whose actions meet `ok`. -/
structure Outline.ValidOn (O : Outline ι σ τ) (P : Threads ι σ τ α) (B : Outline ι σ τ) (ok : ι → α → τ → Prop) :
    Prop where
  step : ∀ {i a s l s' l'}, B.inv s → B.assertion i l s → O.inv s → O.assertion i l s → ok i a l →
    P.action i a s l = some (s', l') →
    O.inv s' ∧ O.assertion i l' s' ∧ ∀ j, j ≠ i → O.rely j s s'
  stable : ∀ {j l s s'}, B.inv s → B.assertion j l s → O.inv s → O.assertion j l s →
    O.rely j s s' → O.assertion j l s'

omit [DecidableEq ι] in
theorem Outline.Valid.on {O B : Outline ι σ τ} (hO : O.Valid P B) : O.ValidOn P B fun _ _ _ => True where
  step hB hb ho ha _ hn := hO.step hB hb ho ha hn
  stable := hO.stable

theorem Outline.ValidOn.next {O B : Outline ι σ τ} {ok : ι → α → τ → Prop} (hO : O.ValidOn P B ok)
    {c c' : Config ι σ τ} {i : ι} {a : α} (hB : B.Holds c) (h : O.Holds c) (hk : ok i a (c.frame i))
    (hn : P.next c i a = some c') : O.Holds c' := by
  obtain ⟨s, l, ha, rfl⟩ := next_eq_some.mp hn
  obtain ⟨hinv, hown, hrely⟩ := hO.step hB.1 (hB.2 i) h.1 (h.2 i) hk ha
  refine ⟨hinv, fun j => ?_⟩
  by_cases hj : j = i
  · subst hj; simpa using hown
  · simpa [hj] using hO.stable hB.1 (hB.2 j) h.1 (h.2 j) (hrely j hj)

theorem Outline.Valid.next {O B : Outline ι σ τ} (hO : O.Valid P B) {c c' : Config ι σ τ} {i : ι}
    {a : α} (hB : B.Holds c) (h : O.Holds c) (hn : P.next c i a = some c') : O.Holds c' :=
  hO.on.next hB h True.intro hn

/-- The rely-guarantee rule for runs whose actions meet `ok`. -/
theorem Outline.ValidOn.reach {O B : Outline ι σ τ} {ok : ι → α → τ → Prop} (hO : O.ValidOn P B ok)
    (hB : ∀ c, P.Reachable c → B.Holds c) (h₀ : O.Holds P.initial) {c : Config ι σ τ}
    (h : P.Reach (fun d i a => ok i a (d.frame i)) c) : O.Holds c :=
  reach_preserves (fun d _ _ _ hd hQ hk hn => hO.next (hB d hd) hQ hk hn) h₀ h

/-- The rely-guarantee rule. -/
theorem Outline.Valid.reachable {O B : Outline ι σ τ} (hO : O.Valid P B)
    (hB : ∀ c, P.Reachable c → B.Holds c) (h₀ : O.Holds P.initial) {c : Config ι σ τ}
    (h : P.Reachable c) : O.Holds c :=
  steps_preserve (fun d _ _ _ hd hQ hn => hO.next (hB d hd) hQ hn) .refl h h₀

end Threads

end RttOpcua.Lib
