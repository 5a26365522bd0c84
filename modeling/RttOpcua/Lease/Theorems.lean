import RttOpcua.Lease.Lemmas.InFlight
import RttOpcua.Lease.Lemmas.Shutdown

/-!
# Component leases: theorems

What holds in every state that some interleaving of requests, publications, reaper passes and shutdowns
reaches.
-/

namespace RttOpcua.Lease

open RttOpcua.Lib Threads

variable {c c' : Config Thread Shared Pc} {t : Thread} {a : Choice}

/-- `n` actions of one thread, with nothing left to decide. -/
def go (t : Thread) (n : Nat) : List (Thread × Choice) := List.replicate n (t, .go)

/-! ## Leases and shutdown -/

section Shutdown

variable {x : Nat}

theorem pointer_step (h : program.next c t a = some c') : PointerStep c.shared c'.shared := by
  obtain ⟨s', l', ha, rfl⟩ := next_eq_some.mp h
  exact PointerStep.of_threadAction ha

/-- A state whose pointer is null stays so, and has no lease. -/
theorem cleared_steps (h : program.Reachable c) (hs : program.Steps c c') (hx : x < c.shared.nextState)
    (hnull : (c.shared.state x).component = none) :
    (c'.shared.state x).component = none ∧ ∀ pl, leaseAt c' pl ≠ some x := by
  have hkeep := steps_preserve (Q := fun d => x < d.shared.nextState ∧ (d.shared.state x).component = none)
    ?_ h hs ⟨hx, hnull⟩
  · have hc := leasesCounted_reachable (h.trans hs)
    exact ⟨hkeep.2, hc.tally.zero_iff.mp (hc.inv.closed x hkeep.2)⟩
  · intro d t a d' _ hQ hn
    have hp := pointer_step hn
    exact ⟨Nat.lt_of_lt_of_le hQ.1 hp.nextState, hp.kept x hQ.1 hQ.2⟩

theorem drained_step (hc : shutdownOutline.Holds c) (h : program.next c t a = some c')
    (hd : c.shared.drained = true) : c'.shared.drained = true := by
  obtain ⟨s', l', ha, rfl⟩ := next_eq_some.mp h
  obtain ⟨-, -, hrely⟩ := shutdown_valid.step trivial trivial hc.1 (hc.2 t) ha
  obtain ⟨u, hu⟩ : ∃ u, u ≠ t := by
    cases t with
    | worker n => exact ⟨.reaper, nofun⟩
    | reaper => exact ⟨.worker 0, nofun⟩
  have hr : ShutdownRely u c.shared s' := hrely u hu
  exact hr.drained hd

/-- Leases: `users` is the number of places that hold a valid lease, and a lease that is released was
counted; `deactivate` completes only when there is none, and from then on none is granted; after
`drain` has returned no invocation is retained; and when `shutdown` has returned, every component that
was published has no users and a null pointer. -/
theorem leases_counted (h : program.Reachable c) :
    (∀ x, {pl | leaseAt c pl = some x}.encard = (c.shared.state x).users) ∧
    (∀ pl x, leaseAt c pl = some x → 0 < (c.shared.state x).users) ∧
    (∀ t a c' x, program.next c t a = some c' → (c.shared.state x).component.isSome = true →
      (c'.shared.state x).component = none → ∀ pl, leaseAt c pl ≠ some x) ∧
    (∀ x c', x < c.shared.nextState → (c.shared.state x).component = none → program.Steps c c' →
      (c'.shared.state x).component = none ∧ ∀ pl, leaseAt c' pl ≠ some x) ∧
    (∀ c', c.shared.drained = true → program.Steps c c' → c'.shared.invocations = []) ∧
    (c.shared.returned = true → ∀ x ∈ c.shared.committed,
      (c.shared.state x).users = 0 ∧ (c.shared.state x).component = none) := by
  have hc := leasesCounted_reachable h
  have hs := shutdown_reachable h
  have hinv : ShutdownInv c.shared := hs.1
  refine ⟨hc.tally, fun pl x hx => hc.tally.pos hx, ?_, ?_, ?_, ?_⟩
  · intro t a c' x hn hsome hnull
    obtain hnone | ⟨hz, -⟩ := (pointer_step hn).cleared x hnull
    · simp [hnone] at hsome
    · exact hc.tally.zero_iff.mp hz
  · intro x c' hx hnull hsteps
    exact cleared_steps h hsteps hx hnull
  · intro c' hd hsteps
    have hd' := steps_preserve (Q := fun d => d.shared.drained = true)
      (fun d t a d' hr hQ hn => drained_step (shutdown_reachable hr) hn hQ) h hsteps hd
    have hinv' : ShutdownInv c'.shared := (shutdown_reachable (h.trans hsteps)).1
    exact (hinv'.drained hd').1
  · intro hret x hx
    obtain ⟨-, hclosing⟩ := hinv.done (hinv.returned hret)
    have hnull : (c.shared.state x).component = none := by
      obtain hmem | hnull := hclosing x hx
      · cases hmem
      · exact hnull
    exact ⟨hc.inv.closed x hnull, hnull⟩

/-- A component is published. -/
def published : List (Thread × Choice) := (.worker 0, .call (.publish 7)) :: go (.worker 0) 4

/-- An invocation times out and is retained while its operation goes on. -/
def retained : List (Thread × Choice) :=
  published ++ (.worker 1, .call (.invoke 0)) :: (.worker 1, .send 1) :: go (.worker 1) 4 ++
    [(.worker 1, .collected (.status .sendNotReady)), (.worker 1, .deadline)] ++ go (.worker 1) 3

theorem leases_counted_shutdown : ∃ c, program.Reachable c ∧ c.shared.returned = true ∧
    c.shared.committed = [0] ∧ (c.shared.state 0).users = 0 ∧ (c.shared.state 0).component = none := by
  obtain ⟨c, hc, hQ⟩ := reachable_of_exec (P := program)
    (retained ++ (.worker 2, .call .shutdown) :: go (.worker 2) 4 ++ go .reaper 2 ++
      go (.worker 2) 2 ++ (.worker 2, .collected (.status .sendSuccess)) :: go (.worker 2) 8)
    (fun c => c.shared.returned && c.shared.committed == [0]) (by decide)
  simp only [Bool.and_eq_true, beq_iff_eq] at hQ
  obtain ⟨-, -, -, -, -, hret⟩ := leases_counted hc
  exact ⟨c, hc, hQ.1, hQ.2, hret hQ.1 0 (by simp [hQ.2])⟩

end Shutdown

/-! ## Operations in flight -/

section InFlight

/-- In runs without an early exit between `caller.send()` and the collection of its handle, an operation
that was started and not seen finished is answered for by a lease on its component, on the stack of its
`invoke` or in a pending invocation; so its component has not been deactivated. -/
theorem leased_while_in_flight (h : program.Reach (fun c t a => keepsHandle c t a = true) c) {o : Nat}
    (ho : o < c.shared.nextOperation) (hf : (c.shared.operation o).finished = false) :
    Held c o (c.shared.operation o).state ∧
      (c.shared.state (c.shared.operation o).state).component ≠ none := by
  have hheld := inFlightHeld_reach h o ho hf
  have hc := leasesCounted_reachable h.reachable
  refine ⟨hheld, fun hnull => ?_⟩
  have hnone := hc.tally.zero_iff.mp (hc.inv.closed _ hnull)
  obtain ⟨t, -, hl⟩ | ⟨p, -, -, hl⟩ := hheld
  · exact hnone (.stack t) hl
  · exact hnone (.pending p) hl

theorem leased_while_in_flight_retained : ∃ c,
    program.Reach (fun c t a => keepsHandle c t a = true) c ∧ c.shared.nextOperation = 1 ∧
    (c.shared.operation 0).finished = false ∧ c.frame (.worker 1) = .idle ∧
    Held c 0 (c.shared.operation 0).state ∧
    (c.shared.state (c.shared.operation 0).state).component ≠ none := by
  obtain ⟨c, hc, hQ⟩ := reach_of_exec (P := program) keepsHandle retained
    (fun c => c.shared.nextOperation == 1 && !(c.shared.operation 0).finished &&
      c.frame (.worker 1) == .idle) (by decide)
  simp only [Bool.and_eq_true, beq_iff_eq, Bool.not_eq_eq_eq_not, Bool.not_true] at hQ
  obtain ⟨⟨h₁, h₂⟩, h₃⟩ := hQ
  exact ⟨c, hc, h₁, h₂, h₃, leased_while_in_flight hc (by omega) h₂⟩

/-- The value of an output cannot be built after `caller.send()`: `invoke` returns and gives up its
lease, and `shutdown` returns while the operation is still running. -/
theorem unleased_in_flight : ∃ c, program.Reachable c ∧ c.shared.nextOperation = 1 ∧
    (c.shared.operation 0).finished = false ∧ ¬ Held c 0 (c.shared.operation 0).state ∧
    c.shared.returned = true ∧ (c.shared.state (c.shared.operation 0).state).component = none := by
  obtain ⟨c, hc, hQ⟩ := reachable_of_exec (P := program)
    (published ++ (.worker 1, .call (.invoke 0)) :: (.worker 1, .send 1) ::
      (.worker 1, .early) :: (.worker 1, .go) :: (.worker 2, .call .shutdown) :: go (.worker 2) 4 ++
      go .reaper 2 ++ go (.worker 2) 9)
    (fun c => c.shared.nextOperation == 1 && !(c.shared.operation 0).finished && c.shared.returned &&
      (c.shared.state (c.shared.operation 0).state).component == none) (by decide)
  simp only [Bool.and_eq_true, beq_iff_eq, Bool.not_eq_eq_eq_not, Bool.not_true] at hQ
  obtain ⟨⟨⟨h₁, h₂⟩, h₃⟩, h₄⟩ := hQ
  refine ⟨c, hc, h₁, h₂, fun hheld => ?_, h₃, h₄⟩
  have hcount := leasesCounted_reachable hc
  have hnone := hcount.tally.zero_iff.mp (hcount.inv.closed _ h₄)
  obtain ⟨t, -, hl⟩ | ⟨p, -, -, hl⟩ := hheld
  · exact hnone (.stack t) hl
  · exact hnone (.pending p) hl

end InFlight

end RttOpcua.Lease
