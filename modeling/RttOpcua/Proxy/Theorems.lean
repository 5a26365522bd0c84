import RttOpcua.Proxy.Lemmas.Pause
import RttOpcua.Proxy.Lemmas.Samples
import RttOpcua.Proxy.Lemmas.Synchronize

/-!
# The proxy: theorems

What holds in every state that some interleaving of synchronizations, lifecycle calls, requests and port
pumps reaches, whatever the server answers.
-/

namespace RttOpcua.Proxy

open RttOpcua.Lib Threads

variable {c c' : Config Thread Shared Pc} {t : Thread} {a : Choice}

/-- `n` actions of one thread in which nothing fails. -/
def go (t : Thread) (n : Nat) : List (Thread × Choice) := List.replicate n (t, .go)

/-! ## Access to the mirrored interface -/

section Access

/-- Where `synchronize_mutex` is free, its holder is not the holder of `mutex_`. -/
theorem granted_of_free (hc : accessOutline.Holds c) (hs : c.shared.synchronizeMutex = none)
    (hw : ∀ t, (c.frame t).invalidating = false) : c.shared.Granted := by
  obtain hg | ⟨u, -, hu⟩ := granted_or_invalidating hc (hc.1.settled hs) fun u _ => by
    rw [Bool.eq_false_iff]
    intro hu
    have hown := (hc.2 u).synchronizeMutex.mpr hu
    rw [hs] at hown
    cases hown
  · exact hg
  · rw [hw u] at hu
    cases hu

/-- Access is fail-closed. Where no call holds `synchronize_mutex`, access implies that the interface is
ready and not stale and the session connected, and the other way round unless a request is between the
two stores of `invalidateInterfaceLocked`. A request goes on the wire only while the session is
connected, and its call has found the interface ready and access enabled. After an invalidation none
goes on the wire until a `synchronize` reaches `markInterfaceFresh`. -/
theorem access_fail_closed (h : program.Reachable c) :
    (c.shared.synchronizeMutex = none →
      (c.shared.interfaceAccessEnabled = true →
        c.shared.interfaceReady = true ∧ c.shared.interfaceStale = false ∧ c.shared.state = .connected) ∧
      ((∀ t, (c.frame t).invalidating = false) →
        c.shared.interfaceReady = true → c.shared.interfaceStale = false → c.shared.state = .connected →
        c.shared.interfaceAccessEnabled = true)) ∧
    (∀ t start, (c.frame t).sending = some start →
      c.shared.state = .connected ∧ start.ready = true ∧ start.access = true) ∧
    (∀ t a c₁ c₂, (c.frame t).completesInvalidation = true → program.next c t a = some c₁ →
      program.ReachFrom (fun d u _ => (d.frame u).refreshes = false) c₁ c₂ →
      ∀ u, (c₂.frame u).sending = none) := by
  have hc := access_reachable h
  have hinv : AccessInv c.shared := hc.1
  refine ⟨fun hs => ⟨fun ha => ?_, fun hw hr hst hcon => ?_⟩, fun t start hsend => ?_, ?_⟩
  · obtain ⟨hen, hr, hcon⟩ := hinv.access ha
    exact ⟨hr, ((hinv.settled hs).1 hen).2, hcon⟩
  · exact granted_of_free hc hs hw ((hinv.settled hs).2 hr hst hcon) hcon
  · obtain ⟨hcon, hr, ha, -⟩ := sending_facts hinv (hc.2 t) hsend
    exact ⟨hcon, hr, ha⟩
  · intro t a c₁ c₂ hcomp hn hrun u
    have hinvalid : c₂.shared.invalidated = true := by
      refine ReachFrom.preserves (Q := fun d => d.shared.invalidated = true) ?_ hrun ?_
      · intro d v b d' hd hk hn
        obtain ⟨s', l', ha, rfl⟩ := next_eq_some.mp hn
        exact invalidated_step ha hk (.inr hd)
      · obtain ⟨s', l', ha, rfl⟩ := next_eq_some.mp hn
        exact invalidated_step ha (refreshes_of_completes hcomp) (.inl hcomp)
    have hr₂ : program.Reachable c₂ := (ReachFrom.step h trivial hn).trans (hrun.weaken fun _ _ _ _ => trivial)
    cases hsend : (c₂.frame u).sending with
    | none => rfl
    | some start =>
        have hc₂ := access_reachable hr₂
        have := (sending_facts hc₂.1 (hc₂.2 u) hsend).2.2.2
        simp_all

/-- `create` connects, discovers no ports and installs the interface. -/
def created : List (Thread × Choice) :=
  go (.app 0) 19 ++ (.app 0, .staged []) :: go (.app 0) 9

/-- Another thread reads a value, up to the request on the wire. -/
def reading : List (Thread × Choice) :=
  created ++ (.app 1, .call (.request .readValue)) :: go (.app 1) 3

theorem access_fail_closed_reading :
    (∃ c start, program.Reachable c ∧ c.shared.synchronizeMutex = none ∧
      c.shared.interfaceAccessEnabled = true ∧ c.shared.interfaceStale = false ∧
      (c.frame (.app 1)).sending = some start ∧ start.access = true) ∧
    (∃ c c₁, program.Reachable c ∧ (c.frame (.app 1)).completesInvalidation = true ∧
      program.next c (.app 1) .go = some c₁ ∧ ∀ u, (c₁.frame u).sending = none) := by
  constructor
  · obtain ⟨c, hc, hQ⟩ := reachable_of_exec (P := program) reading
      (fun c => c.shared.synchronizeMutex == none && c.shared.interfaceAccessEnabled &&
        (c.frame (.app 1)).sending.isSome) (by decide)
    simp only [Bool.and_eq_true, beq_iff_eq, Option.isSome_iff_exists] at hQ
    obtain ⟨⟨hs, ha⟩, start, hsend⟩ := hQ
    obtain ⟨hflags, hstart, -⟩ := access_fail_closed hc
    exact ⟨c, start, hc, hs, ha, ((hflags hs).1 ha).2.1, hsend, (hstart _ _ hsend).2.2⟩
  · obtain ⟨c, hc, hQ⟩ := reachable_of_exec (P := program)
      (reading ++ [(.app 1, .go), (.app 1, .reply .threw), (.app 1, .go)])
      (fun c => (c.frame (.app 1)).completesInvalidation && (program.next c (.app 1) .go).isSome) (by decide)
    simp only [Bool.and_eq_true, Option.isSome_iff_exists] at hQ
    obtain ⟨hcomp, c₁, hn⟩ := hQ
    exact ⟨c, c₁, hc, hcomp, hn, (access_fail_closed hc).2.2 _ _ _ _ hcomp hn .refl⟩

/-- The read throws: between the two stores of `invalidateInterfaceLocked` access is disabled while the
interface is ready and not stale, the session connected and `synchronize_mutex` free. -/
theorem access_disabled_while_connected : ∃ c, program.Reachable c ∧ c.shared.synchronizeMutex = none ∧
    ¬ (c.shared.interfaceAccessEnabled = true ↔
      c.shared.interfaceReady = true ∧ c.shared.interfaceStale = false ∧ c.shared.state = .connected) := by
  obtain ⟨c, hc, hQ⟩ := reachable_of_exec (P := program)
    (reading ++ [(.app 1, .go), (.app 1, .reply .threw), (.app 1, .go)])
    (fun c => c.shared.synchronizeMutex == none && !c.shared.interfaceAccessEnabled &&
      c.shared.interfaceReady && !c.shared.interfaceStale && c.shared.state == .connected) (by decide)
  simp only [Bool.and_eq_true, beq_iff_eq, Bool.not_eq_eq_eq_not, Bool.not_true] at hQ
  obtain ⟨⟨⟨⟨hs, ha⟩, hr⟩, hst⟩, hcon⟩ := hQ
  refine ⟨c, hc, hs, fun hiff => ?_⟩
  have := hiff.mpr ⟨hr, hst, hcon⟩
  simp [ha] at this

end Access

/-! ## Outcomes of `synchronize` -/

section Outcomes

/-- A call of `synchronize` from a reachable state `c₀`, at its return, with what its steps have shown of the causes
to give it up. It returns true with the new interface in use. It returns false for one of the two causes, with the old
interface as before, or for none of them, with the interface disabled. In no case is access disabled to an interface
that is ready and not stale with the session connected, unless a request is between the two stores of
`invalidateInterfaceLocked`. -/
theorem synchronize_outcomes {alone : Prop} {c₀ c : Config Thread Shared Pc} {creating r : Bool} {why : List Cause}
    (h₀ : Reached c₀) (hstart : c₀.frame t = .sync .context creating)
    (hrun : program.TraceFrom (DuringCall alone t) (causes t) c₀ why c) (hend : (c.frame t).returns = some r) :
    (r = true → why = [] ∧ Installed c₀.shared c.shared ∧ c.shared.interfaceReady = true ∧
      c.shared.interfaceStale = false ∧ c.shared.interfaceAccessEnabled = true ∧ c.shared.state = .connected) ∧
    (r = false → (why = [.context] ∨ why = [.sample]) ∧ Restored alone c₀.shared c.shared ∨
      why = [] ∧ Disabled c.shared) ∧
    ((∀ u, (c.frame u).invalidating = false) → c.shared.interfaceReady = true → c.shared.interfaceStale = false →
      c.shared.state = .connected → c.shared.interfaceAccessEnabled = true) := by
  obtain ⟨hreach, ⟨pc, hpc, hfacts⟩, -⟩ := inCall_run h₀ hstart hrun
  have hpc' : pc = .unlock r := by
    rw [hpc] at hend
    unfold Pc.returns at hend
    split at hend
    · rename_i heq
      cases heq
      rw [Option.some.inj hend]
    · cases hend
  subst hpc'
  refine ⟨fun hr => ?_, fun hr => ?_, fun hw hready hstale hcon => ?_⟩
  · subst hr
    exact hfacts
  · subst hr
    exact hfacts
  · have hb := access_reachable hreach.reachable
    have hf : AccessFacts t (.sync (.unlock r) creating) c.shared := hpc ▸ hb.2 t
    have hset : syncFacts c.shared (.unlock r) := syncFacts_of_point hf.point
    obtain hg | ⟨u, -, hu⟩ := granted_or_invalidating hb hset fun u hu => by
      rw [Bool.eq_false_iff]
      intro hu'
      -- the call holds `synchronize_mutex` and no longer `mutex_`
      have heq := ((hb.2 u).synchronizeMutex.mpr hu').symm.trans (hf.synchronizeMutex.mpr rfl)
      have hmu := (hb.2 u).mutex.mp hu
      rw [Option.some.inj heq, hpc] at hmu
      cases hmu
    · exact hg (hset.2 hready hstale hcon) hcon
    · rw [hw u] at hu
      cases hu

/-- The thread acts alone in its call, and copies succeed. -/
def alone (t : Thread) (c : Config Thread Shared Pc) (u : Thread) (a : Choice) : Bool :=
  u == t && a != .raise && (c.frame t).returns == none

theorem duringCall_of_alone {u : Thread} (h : alone t c u a = true) : DuringCall True t c u a := by
  simp only [alone, Bool.and_eq_true, beq_iff_eq, bne_iff_ne, ne_eq] at h
  obtain ⟨⟨rfl, ha⟩, hr⟩ := h
  exact ⟨fun _ => ha, fun _ => hr, fun h => absurd rfl h, fun _ h => absurd rfl h⟩

/-- Without an exception every copy succeeds. -/
theorem reached_of_exec (sched : List (Thread × Choice)) (Q : Config Thread Shared Pc → Bool)
    (h : (program.exec (fun _ _ a => a != .raise) sched program.initial).any Q = true) : ∃ c, Reached c ∧ Q c = true := by
  obtain ⟨c, hc, hQ⟩ := reach_of_exec _ sched Q h
  exact ⟨c, hc.weaken fun _ _ a ha _ => by simpa using ha, hQ⟩

/-- A call that acts alone, and whose thread context does not fail. -/
theorem trace_of_exec {c₀ c : Config Thread Shared Pc} (sched : List (Thread × Choice))
    (h : program.exec (alone t) sched c₀ = some c) :
    ∃ why, program.TraceFrom (DuringCall True t) (causes t) c₀ why c ∧ .context ∉ why := by
  obtain ⟨why, htrace⟩ := (reachFrom_of_exec h).trace (causes t)
  refine ⟨why, htrace.weaken fun _ _ _ => duringCall_of_alone, ?_⟩
  refine htrace.preserves (Q := fun why _ => .context ∉ why) List.not_mem_nil fun why d u a d' _ hnot hok _ => ?_
  have ha : a ≠ .raise := by
    simp only [alone, Bool.and_eq_true, bne_iff_ne] at hok
    exact hok.1.2
  have hstep : .context ∉ causes t d u a := by
    unfold causes SyncPc.causes
    grind -ring -linarith
  simp [hnot, hstep]

/-- A mirrored input port. -/
def samplePort : PortDescription := ⟨[120], [105, 110, 116], [], .input⟩

/-- `create` mirrors the port, and the pump reads a sample that it cannot encode. -/
def pending : List (Thread × Choice) :=
  go (.app 0) 19 ++ (.app 0, .staged [samplePort]) :: go (.app 0) 9 ++ go .pump 3 ++ [(.pump, .early), (.pump, .go)]

/-- The ends of a `synchronize`: that of `create` succeeds or fails, and a later one finds no port any more for the
sample that waits. -/
theorem synchronize_outcomes_ends :
    (∃ c₀ c, Reached c₀ ∧ program.TraceFrom (DuringCall True (.app 0)) (causes (.app 0)) c₀ [] c ∧
      Installed c₀.shared c.shared ∧ c.shared.interfaceAccessEnabled = true) ∧
    (∃ c₀ c, Reached c₀ ∧ program.TraceFrom (DuringCall True (.app 0)) (causes (.app 0)) c₀ [] c ∧ Disabled c.shared) ∧
    (∃ c₀ c, Reached c₀ ∧ program.TraceFrom (DuringCall True (.app 1)) (causes (.app 1)) c₀ [.sample] c ∧
      Restored True c₀.shared c.shared ∧ c.shared.interfaceAccessEnabled = true) := by
  obtain ⟨c₀, h₀, hQ⟩ := reached_of_exec (go (.app 0) 5)
    (fun c₀ => c₀.frame (.app 0) == .sync .context true && !c₀.shared.interfaceStale &&
      (program.exec (alone (.app 0)) (go (.app 0) 14 ++ (.app 0, .staged []) :: go (.app 0) 8) c₀).any
        (fun c => (c.frame (.app 0)).returns == some true) &&
      (program.exec (alone (.app 0)) (go (.app 0) 14 ++ (.app 0, .early) :: go (.app 0) 8) c₀).any
        (fun c => (c.frame (.app 0)).returns == some false && c.shared.interfaceStale)) (by decide)
  obtain ⟨d₀, k₀, hR⟩ := reached_of_exec (pending ++ [(.app 1, .call .synchronize), (.app 1, .go)])
    (fun c₀ => c₀.frame (.app 1) == .sync .context false &&
      (program.exec (alone (.app 1)) (go (.app 1) 8 ++ (.app 1, .staged []) :: go (.app 1) 4) c₀).any
        (fun c => (c.frame (.app 1)).returns == some false && !c.shared.interfaceStale &&
          c.shared.interfaceAccessEnabled)) (by decide)
  simp only [Bool.and_eq_true, beq_iff_eq, Option.any_eq_true, Bool.not_eq_eq_eq_not, Bool.not_true] at hQ hR
  obtain ⟨⟨⟨hstart, hfresh⟩, c, hc, hr⟩, c', hc', hr', hstale⟩ := hQ
  obtain ⟨kstart, d, hd, ⟨kr, kstale⟩, kaccess⟩ := hR
  obtain ⟨why, hrun, -⟩ := trace_of_exec _ hc
  obtain ⟨why', hrun', -⟩ := trace_of_exec _ hc'
  obtain ⟨why'', krun, hnot⟩ := trace_of_exec _ hd
  obtain ⟨rfl, hinst, -, -, hen, -⟩ := (synchronize_outcomes h₀ hstart hrun hr).1 rfl
  refine ⟨⟨c₀, c, h₀, hrun, hinst, hen⟩, ?_, ?_⟩
  · obtain ⟨-, hrest⟩ | ⟨rfl, hdis⟩ := (synchronize_outcomes h₀ hstart hrun' hr').2.1 rfl
    · rw [hrest.kept.interfaceStale, hfresh] at hstale
      cases hstale
    · exact ⟨c₀, c', h₀, hrun', hdis⟩
  · obtain ⟨hwhy, hrest⟩ | ⟨-, hdis⟩ := (synchronize_outcomes k₀ kstart krun kr).2.1 rfl
    · obtain rfl := hwhy.resolve_left (by rintro rfl; simp at hnot)
      exact ⟨d₀, d, k₀, krun, hrest, kaccess⟩
    · rw [hdis.stale] at kstale
      cases kstale

end Outcomes

/-! ## Port samples -/

section Samples

/-- Samples of mirrored ports are conserved. An adapter holds one at most, and no sample waits at two ports.
What was read at a port has left it in the order of reading, each sample once, or is the one that waits there;
a sample is offered, answered or discarded only when it is the last one read and all before it have left. It is
discarded only while the interface is stale, and a replacement of the adapters moves every sample to exactly one
adapter of its port. -/
theorem samples_conserved {h : List (PortDescription × Slot.Event Nat)} (ht : SampleTrace h c) :
    (∀ x, [(c.shared.adapter x).pendingInputSource, (c.shared.adapter x).pendingInput,
      (c.shared.adapter x).pendingOutput].countP Option.isSome ≤ 1) ∧
    (Slot.taken (h.map Prod.snd) = List.range c.shared.nextSample ∧
      ∀ d d' n, c.shared.pendingOf d = some n → c.shared.pendingOf d' = some n → d = d') ∧
    (∀ d, Slot.taken (channel d h) = Slot.removed (channel d h) ++ (c.shared.pendingOf d).toList ∧
      (Slot.taken (channel d h)).Pairwise (· < ·) ∧ (Slot.acknowledged (channel d h)).Nodup) ∧
    (∀ d h₁ h₂ e n, channel d h = h₁ ++ e :: h₂ →
      (e = .offered n ∨ (∃ ok, e = .answered n ok) ∨ e = .discarded n) → Slot.taken h₁ = Slot.removed h₁ ++ [n]) ∧
    (∀ t a d n, (d, .discarded n) ∈ portEvents c t a → c.shared.interfaceStale = true) ∧
    (∀ t a c' staged creating, c.frame t = .sync (.replace staged) creating → program.next c t a = some c' →
      c'.shared.portAdapters = staged.ports ∧ Moved c.shared c'.shared) := by
  have hreach : Reached c := ht.reach
  obtain ⟨hslots, hnum⟩ := replay_of_trace ht
  refine ⟨fun x => single_count ((port_reached hreach).1.single x), ⟨hnum, fun d d' n => port_of_pending ht⟩,
    fun d => ?_, fun d h₁ h₂ e n hd he => ?_, fun t a d n => stale_of_discarded hreach,
    fun t a c' staged creating hl hn => moved_of_next hreach hl hn⟩
  · have hincreasing : (Slot.taken (channel d h)).Pairwise (· < ·) := by
      refine List.Pairwise.sublist (taken_channel_sublist d h) ?_
      rw [hnum]
      exact List.pairwise_lt_range
    have hnodup : (Slot.taken (channel d h)).Nodup := hincreasing.imp Nat.ne_of_lt
    refine ⟨by simpa using Slot.taken_of_replay (hslots d), hincreasing, ?_⟩
    exact (Slot.removed_nodup (hslots d) hnodup).sublist (Slot.acknowledged_sublist _)
  · exact Slot.taken_before (hd ▸ hslots d) he

theorem samples_conserved_unencoded : ∃ h c, SampleTrace h c ∧ c.shared.pendingOf samplePort = some 0 ∧
    Slot.taken (channel samplePort h) = Slot.removed (channel samplePort h) ++ [0] := by
  obtain ⟨c, hc, hQ⟩ := reached_of_exec pending
    (fun c => c.shared.pendingOf samplePort == some 0) (by decide)
  obtain ⟨h, ht⟩ := hc.trace portEvents
  simp only [beq_iff_eq] at hQ
  refine ⟨h, c, ht, hQ, ?_⟩
  simpa [hQ] using ((samples_conserved ht).2.2.1 samplePort).1

end Samples

/-! ## The paused pump -/

section Paused

/-- The pump is excluded while it is paused. After `pausePortPump` has returned no thread is in a pass over the
adapters, and none starts one, until `resumePortPump` is executed while the interface is not stale. While it is stale,
`resumePortPump` leaves the pump paused. Where `synchronize` and `markInterfaceStale` look at pending state, move it or
discard it, no thread is in a pass, let alone in the `pump()` of an adapter. -/
theorem pump_excluded_while_paused (h : program.Reachable c) :
    (∀ t a c₁ c₂, (c.frame t).pauses = true → program.next c t a = some c₁ →
      program.ReachFrom (fun d u _ => ¬ ((d.frame u).resumes = true ∧ d.shared.interfaceStale = false)) c₁ c₂ →
      ∀ u, (c₂.frame u).inPass = false ∧ (c₂.frame u).pumps = false) ∧
    (∀ t a c', (c.frame t).resumes = true → c.shared.interfaceStale = true → program.next c t a = some c' →
      c'.shared.portsPaused = true ∧ ∀ u, (c'.frame u).inPass = false ∧ (c'.frame u).pumps = false) ∧
    (∀ t, (c.frame t).touchesPending = true → ∀ u, (c.frame u).inPass = false ∧ (c.frame u).pumps = false) := by
  have excluded : ∀ {d : Config Thread Shared Pc}, program.Reachable d → d.shared.Paused →
      ∀ u, (d.frame u).inPass = false ∧ (d.frame u).pumps = false := by
    intro d hd hp u
    have hpass := inPass_of_paused (pause_reachable hd) hp u
    refine ⟨hpass, ?_⟩
    rw [Bool.eq_false_iff]
    intro hpumps
    rw [inPass_of_pumps hpumps] at hpass
    cases hpass
  refine ⟨fun t a c₁ c₂ hpauses hn hrun => ?_, fun t a c' hresumes hstale hn => ?_, fun t htouches => ?_⟩
  · have h₁ : program.Reachable c₁ := .step h trivial hn
    have both : program.Reachable c₂ ∧ c₂.shared.Paused := by
      refine ReachFrom.preserves (Q := fun d => program.Reachable d ∧ d.shared.Paused) ?_ hrun ⟨h₁, ?_⟩
      · intro d u b d' hd hk hn
        refine ⟨.step hd.1 trivial hn, ?_⟩
        obtain ⟨s', l', ha, rfl⟩ := next_eq_some.mp hn
        refine paused_step ((pause_reachable hd.1).2 u) hd.2 (fun hresumes => ?_) ha
        simpa using fun hfresh => hk ⟨hresumes, hfresh⟩
      · obtain ⟨s', l', ha, rfl⟩ := next_eq_some.mp hn
        exact paused_of_pauses ((pause_reachable h).2 t) hpauses ha
    exact excluded both.1 both.2
  · have hpaused : c'.shared.Paused := by
      obtain ⟨s', l', ha, rfl⟩ := next_eq_some.mp hn
      have hf := (pause_reachable h).2 t
      exact paused_step hf (paused_of_resumes hf hresumes) (fun _ => hstale) ha
    exact ⟨hpaused.1, excluded (.step h trivial hn) hpaused⟩
  · exact excluded h (paused_of_touchesPending ((pause_reachable h).2 t) htouches)

/-- `create` mirrors a port, and the pump is in a pass when another thread synchronizes. It waits for the pump. -/
def pausing : List (Thread × Choice) :=
  go (.app 0) 19 ++ (.app 0, .staged [samplePort]) :: go (.app 0) 9 ++ go .pump 2 ++
    (.app 1, .call .synchronize) :: go (.app 1) 5 ++ (.pump, .early) :: go .pump 1

/-- A pause that returns, a failed staging that resumes a stale interface, and a test for pending state. -/
theorem pump_excluded_while_paused_synchronize :
    (∃ c c₁, program.Reachable c ∧ program.next c (.app 1) .go = some c₁ ∧ ∀ u, (c₁.frame u).pumps = false) ∧
    (∃ c c', program.Reachable c ∧ program.next c (.app 0) .go = some c' ∧ c'.shared.portsPaused = true) ∧
    (∃ c, program.Reachable c ∧ (c.frame (.app 0)).touchesPending = true ∧ ∀ u, (c.frame u).pumps = false) := by
  refine ⟨?_, ?_, ?_⟩
  · obtain ⟨c, hc, hQ⟩ := reachable_of_exec (P := program) pausing
      (fun c => (c.frame (.app 1)).pauses && (program.next c (.app 1) .go).isSome) (by decide)
    simp only [Bool.and_eq_true, Option.isSome_iff_exists] at hQ
    obtain ⟨hpauses, c₁, hn⟩ := hQ
    exact ⟨c, c₁, hc, hn, fun u => ((pump_excluded_while_paused hc).1 _ _ _ _ hpauses hn .refl u).2⟩
  · obtain ⟨c, hc, hQ⟩ := reachable_of_exec (P := program) (go (.app 0) 19 ++ (.app 0, .early) :: go (.app 0) 7)
      (fun c => (c.frame (.app 0)).resumes && c.shared.interfaceStale && (program.next c (.app 0) .go).isSome) (by decide)
    simp only [Bool.and_eq_true, Option.isSome_iff_exists] at hQ
    obtain ⟨⟨hresumes, hstale⟩, c', hn⟩ := hQ
    exact ⟨c, c', hc, hn, ((pump_excluded_while_paused hc).2.1 _ _ _ hresumes hstale hn).1⟩
  · obtain ⟨c, hc, hQ⟩ := reachable_of_exec (P := program) (go (.app 0) 19 ++ [(.app 0, .staged [samplePort])])
      (fun c => (c.frame (.app 0)).touchesPending) (by decide)
    exact ⟨c, hc, hQ, fun u => ((pump_excluded_while_paused hc).2.2 _ hQ u).2⟩

end Paused

end RttOpcua.Proxy
