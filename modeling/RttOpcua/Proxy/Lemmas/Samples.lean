import RttOpcua.Proxy.Lemmas.Ports
import RttOpcua.Lib.Slot

/-!
# Samples

Every port identity of the proxy is a slot. The pump takes a sample into it and offers the sample until it is
acknowledged; a replacement of the adapters leaves it to the adapter of the same identity; and only a stale
interface discards what it holds.
-/

namespace RttOpcua.Proxy

open RttOpcua.Lib Slot

/-! ## What happens to samples -/

namespace RemotePortAdapter

/-- The sample that an adapter has not delivered yet, in whichever stage. -/
def pending (x : RemotePortAdapter) : Option Nat :=
  (x.pendingInputSource.or x.pendingInput).or x.pendingOutput

end RemotePortAdapter

/-- The sample that waits at the port of this identity. -/
def Shared.pendingOf (s : Shared) (d : PortDescription) : Option Nat :=
  (s.portAdapters.find? fun x => (s.adapter x).description = d).bind fun x => (s.adapter x).pending

/-- What `pump` of an adapter does to samples in one action. -/
def adapterEvents (a : Choice) (next : Nat) (x : RemotePortAdapter) : AdapterPc → List (Event Nat)
  | .input =>
      if x.pendingInput.isSome then x.pendingInput.toList.map .offered
      else if x.pendingInputSource.isSome then []
      else if a = .go then [.taken next] else []
  | .encode => if a = .go then x.pendingInputSource.toList.map .offered else []
  | .write (.unlock r) => x.pendingInput.toList.map (.answered · (r = .ok))
  | .decode => if a = .go then [.taken next] else []
  | .deliver => x.pendingOutput.toList.flatMap fun n => [.offered n, .answered n (a = .go)]
  | _ => []

/-- What `discardPendingPortState` does to samples in one action. -/
def staleEvents (s : Shared) : StalePc → List (PortDescription × Event Nat)
  | .discard (x :: _) => ((s.adapter x).pending.toList.map .discarded).map ((s.adapter x).description, ·)
  | _ => []

/-- What an action of a thread does to samples. -/
def sampleEvents (a : Choice) (s : Shared) : Pc → List (PortDescription × Event Nat)
  | .pump (.pump pc x _) => (adapterEvents a s.nextSample (s.adapter x) pc).map ((s.adapter x).description, ·)
  | l => l.inStale.elim [] (staleEvents s)

def portEvents (c : Config Thread Shared Pc) (t : Thread) (a : Choice) : List (PortDescription × Event Nat) :=
  sampleEvents a c.shared (c.frame t)

/-- The events at the port of one identity. -/
def channel (d : PortDescription) (h : List (PortDescription × Event Nat)) : List (Event Nat) :=
  h.filterMap fun e => if e.1 = d then some e.2 else none

theorem channel_append (d : PortDescription) (h h' : List (PortDescription × Event Nat)) :
    channel d (h ++ h') = channel d h ++ channel d h' := List.filterMap_append

theorem channel_map (d d' : PortDescription) (es : List (Event Nat)) :
    channel d (es.map (d', ·)) = if d' = d then es else [] := by
  induction es with
  | nil => simp [channel]
  | cons e rest ih =>
      unfold channel at ih ⊢
      split
      case isTrue hd => simp [hd]
      case isFalse hd => simp [hd, ih]

/-- The samples that one port takes are some of all that are taken. -/
theorem taken_channel_sublist (d : PortDescription) (h : List (PortDescription × Event Nat)) :
    (taken (channel d h)).Sublist (taken (h.map Prod.snd)) := by
  refine List.Sublist.filterMap _ ?_
  induction h with
  | nil => exact .slnil
  | cons e rest ih =>
      simp only [channel, List.filterMap_cons, List.map_cons]
      split
      · exact ih.cons _
      · rename_i he
        simp only [Option.ite_none_right_eq_some, Option.some.injEq] at he
        rw [← he.2]
        exact ih.cons_cons _

/-! ## The slot of an identity -/

section Slots

variable {s s' : Shared} {t : Thread} {a : Choice}

theorem hasSameIdentity_iff {x y : RemotePortAdapter} : x.hasSameIdentity y = true ↔ x.description = y.description := by
  obtain ⟨⟨n, ty, p, dir⟩, _, _, _⟩ := x
  obtain ⟨⟨n', ty', p', dir'⟩, _, _, _⟩ := y
  simp [RemotePortAdapter.hasSameIdentity, and_assoc]

theorem pending_eq_none {x : RemotePortAdapter} (h : x.hasPendingState = false) : x.pending = none := by
  simp only [RemotePortAdapter.hasPendingState, Bool.or_eq_false_iff, Option.isSome_eq_false_iff,
    Option.isNone_iff_eq_none] at h
  simp [RemotePortAdapter.pending, h]

/-- Adapters in use have different identities. -/
theorem description_inj (hi : PortInv s) {x y : Nat} (hx : x ∈ s.portAdapters) (hy : y ∈ s.portAdapters)
    (h : (s.adapter x).description = (s.adapter y).description) : x = y :=
  List.inj_on_of_nodup_map hi.keys hx hy (key_congr h.symm).symm

theorem pendingOf_eq (hi : PortInv s) {x : Nat} (hx : x ∈ s.portAdapters) :
    s.pendingOf (s.adapter x).description = (s.adapter x).pending := by
  unfold Shared.pendingOf
  cases hf : s.portAdapters.find? fun y => (s.adapter y).description = (s.adapter x).description with
  | none => simpa using List.find?_eq_none.1 hf x hx
  | some y =>
      have hy : y = x := description_inj hi (List.mem_of_find?_eq_some hf) hx (by simpa using List.find?_some hf)
      rw [hy]
      rfl

theorem pendingOf_eq_none {d : PortDescription} (h : ∀ x ∈ s.portAdapters, (s.adapter x).description ≠ d) :
    s.pendingOf d = none := by
  unfold Shared.pendingOf
  rw [List.find?_eq_none.2 fun x hx => by simpa using h x hx]
  rfl

/-- The identity of a port is in use, or its slot is empty. -/
theorem pendingOf_cases (hi : PortInv s) (d : PortDescription) :
    (∃ x ∈ s.portAdapters, (s.adapter x).description = d ∧ s.pendingOf d = (s.adapter x).pending) ∨
    (∀ x ∈ s.portAdapters, (s.adapter x).description ≠ d) ∧ s.pendingOf d = none := by
  by_cases h : ∃ x ∈ s.portAdapters, (s.adapter x).description = d
  · obtain ⟨x, hx, rfl⟩ := h
    exact .inl ⟨x, hx, rfl, pendingOf_eq hi hx⟩
  · have hnone : ∀ x ∈ s.portAdapters, (s.adapter x).description ≠ d := fun x hx hd => h ⟨x, hx, hd⟩
    exact .inr ⟨hnone, pendingOf_eq_none hnone⟩

/-- Adapters in use that are as before have their samples as before. -/
theorem pendingOf_congr (hi : PortInv s) (hi' : PortInv s') (hports : s'.portAdapters = s.portAdapters)
    (d : PortDescription) (hdesc : ∀ x ∈ s.portAdapters, (s'.adapter x).description = (s.adapter x).description)
    (hd : ∀ x ∈ s.portAdapters, (s.adapter x).description = d → (s'.adapter x).pending = (s.adapter x).pending) :
    s'.pendingOf d = s.pendingOf d := by
  obtain ⟨x, hx, rfl, heq⟩ | ⟨hnone, heq⟩ := pendingOf_cases hi d
  · rw [heq, ← hdesc x hx, pendingOf_eq hi' (hports ▸ hx), hd x hx rfl]
  · rw [heq]
    refine pendingOf_eq_none fun x hx => ?_
    rw [hdesc x (hports ▸ hx)]
    exact hnone x (hports ▸ hx)

/-- Changing the pending sample of one adapter in use. -/
theorem pendingOf_modify (hi : PortInv s) (hi' : PortInv s') {x : Nat} (hx : x ∈ s.portAdapters)
    {f : RemotePortAdapter → RemotePortAdapter} (hf : (f (s.adapter x)).description = (s.adapter x).description)
    (hports : s'.portAdapters = s.portAdapters) (hadapter : s'.adapter = (s.modifyAdapter x f).adapter)
    (d : PortDescription) :
    s'.pendingOf d = if (s.adapter x).description = d then (f (s.adapter x)).pending else s.pendingOf d := by
  have hself : s'.adapter x = f (s.adapter x) := by simp [hadapter, Shared.modifyAdapter]
  have hother : ∀ y, y ≠ x → s'.adapter y = s.adapter y := by
    intro y hy
    simp [hadapter, Shared.modifyAdapter, hy]
  split
  · rename_i hd
    have hd' : (s'.adapter x).description = d := by rw [hself, hf, hd]
    rw [← hd', pendingOf_eq hi' (hports ▸ hx), hself]
  · rename_i hd
    refine pendingOf_congr hi hi' hports d (fun y _ => ?_) fun y _ hyd => ?_
    · by_cases hy : y = x
      · rw [hy, hself, hf]
      · rw [hother y hy]
    · rw [hother y fun hy => hd (hy ▸ hyd)]

/-- A replacement leaves every sample at the port of its identity. -/
theorem pendingOf_replace (hi : PortInv s) {staged : Staged} (hs : s.Spare staged)
    (hi' : PortInv (s.replacePortAdapters staged.ports)) (hcan : s.canReplacePortAdapters staged.ports = true)
    (d : PortDescription) : (s.replacePortAdapters staged.ports).pendingOf d = s.pendingOf d := by
  have h := replace_transferred (fun y hy => (hs.1 y hy).2) hi.keys hs.2
  obtain ⟨y, hy, hyd, heq⟩ | ⟨hnone, heq⟩ := pendingOf_cases hi' d
  · change y ∈ staged.ports at hy
    rw [heq, h.fresh y hy]
    rw [h.description] at hyd
    subst hyd
    cases hpred : s.predecessor s.portAdapters y with
    | none =>
        rw [pendingOf_eq_none fun x hx hd => by
          simpa [hasSameIdentity_iff.2 hd] using List.find?_eq_none.1 hpred x hx]
        exact pending_eq_none (hi.unused y (hs.1 y hy).2)
    | some x =>
        have hx : x ∈ s.portAdapters := List.mem_of_find?_eq_some hpred
        have hd : (s.adapter x).description = (s.adapter y).description :=
          hasSameIdentity_iff.1 (by simpa using List.find?_some hpred)
        rw [← hd, pendingOf_eq hi hx]
        rfl
  · rw [heq]
    obtain ⟨x, hx, rfl, hold⟩ | ⟨-, hold⟩ := pendingOf_cases hi d
    · have hx' := (List.all_eq_true.1 hcan) x hx
      simp only [Bool.or_eq_true, Bool.not_eq_eq_eq_not, Bool.not_true, List.any_eq_true] at hx'
      obtain hno | ⟨y, hy, hid⟩ := hx'
      · rw [hold, pending_eq_none hno]
      · exact absurd ((h.description y).trans (hasSameIdentity_iff.1 hid).symm) (hnone y hy)
    · exact hold.symm

end Slots

/-! ## Steps -/

/-- No sample has moved. -/
structure SameSamples (s s' : Shared) : Prop where
  adapter : s'.adapter = s.adapter
  portAdapters : s'.portAdapters = s.portAdapters
  nextSample : s'.nextSample = s.nextSample

section Same

variable {t : Thread} {a : Choice} {s s' : Shared} {l l' : Pc}

theorem SameSamples.refl (s : Shared) : SameSamples s s := ⟨rfl, rfl, rfl⟩

theorem SameSamples.of_request {k : Request} {pc : RequestPc} {r : RequestPc ⊕ Answer}
    (h : requestAction t k a s pc = some (s', r)) : SameSamples s s' := by
  replace h := requestAction_step h
  cases h
  all_goals exact ⟨rfl, rfl, rfl⟩

theorem SameSamples.of_connect {pc : ConnectPc} {r : ConnectPc ⊕ Bool}
    (h : connectAction t a s pc = some (s', r)) : SameSamples s s' := by
  replace h := connectAction_step h
  cases h
  all_goals exact ⟨rfl, rfl, rfl⟩

theorem SameSamples.of_discover {pc : DiscoverPc} {r : DiscoverPc ⊕ Bool}
    (h : discoverAction t a s pc = some (s', r)) : SameSamples s s' := by
  replace h := discoverAction_step h
  cases h
  all_goals exact ⟨rfl, rfl, rfl⟩

theorem SameSamples.of_stale {pc : StalePc} {r : Option StalePc} (hpc : ∀ x rest, pc ≠ .discard (x :: rest))
    (h : staleAction a s pc = some (s', r)) : SameSamples s s' := by
  replace h := staleAction_step h
  cases h
  case discard => exact absurd rfl (hpc _ _)
  all_goals exact ⟨rfl, rfl, rfl⟩

theorem SameSamples.of_lifecycle {pc : LifecyclePc} {r : Option LifecyclePc} (hpc : ∀ pc', pc ≠ .mark pc')
    (h : lifecycleAction t a s pc = some (s', r)) : SameSamples s s' := by
  replace h := lifecycleAction_step h
  cases h
  case mark pc r hp => exact absurd rfl (hpc pc)
  case call pc r hp => exact .of_request hp
  all_goals exact ⟨rfl, rfl, rfl⟩

/-- A step of `synchronize` discards samples, stages ports, replaces adapters or moves no sample. -/
theorem sync_samples {pc pc' : SyncPc} (h : syncAction t a s pc = some (s', .inl pc')) :
    (∃ spc, (pc = .fail spc ∨ ∃ entry, pc = .mark spc entry) ∧ ∃ r, staleAction a s spc = some (s', r)) ∨
    (∃ ports, s' = { s.stagePorts ports with nextMirror := s.nextMirror + 1 }) ∨
    (∃ staged, pc = .replace staged ∧ s' = s.replacePortAdapters staged.ports) ∨ SameSamples s s' := by
  replace h := syncAction_step h
  cases h
  case mark pc entry r hp => exact .inl ⟨pc, .inr ⟨entry, rfl⟩, r, hp⟩
  case fail pc r hp => exact .inl ⟨pc, .inl rfl, r, hp⟩
  case connect pc restore r hp => exact .inr (.inr (.inr (.of_connect hp)))
  case discover pc restore r hp => exact .inr (.inr (.inr (.of_discover hp)))
  case replace staged => exact .inr (.inr (.inl ⟨staged, rfl, rfl⟩))
  case staged restore ports ha hports => exact .inr (.inl ⟨ports, rfl⟩)
  all_goals exact .inr (.inr (.inr ⟨rfl, rfl, rfl⟩))

end Same

/-- What a step does to samples: its events are replayed by the slot of every identity, and they number the samples
in the order in which they are taken. -/
structure Replays (s s' : Shared) (es : List (PortDescription × Event Nat)) : Prop where
  slots : ∀ d, replay (channel d es) (s.pendingOf d) = some (s'.pendingOf d)
  numbered : List.range s.nextSample ++ taken (es.map Prod.snd) = List.range s'.nextSample

section Step

variable {t : Thread} {a : Choice} {s s' : Shared} {l l' : Pc}

theorem Replays.of_same (e : SameSamples s s') : Replays s s' [] := by
  refine ⟨fun d => ?_, by simp [taken, e.nextSample]⟩
  simp only [channel, List.filterMap_nil, replay, Shared.pendingOf, e.adapter, e.portAdapters]

/-- The events of one adapter in use. -/
theorem Replays.of_adapter (hi : PortInv s) (hi' : PortInv s') {x : Nat} (hx : x ∈ s.portAdapters)
    (hports : s'.portAdapters = s.portAdapters) {f : RemotePortAdapter → RemotePortAdapter} {es : List (Event Nat)}
    (hf : (f (s.adapter x)).description = (s.adapter x).description)
    (hadapter : s'.adapter = (s.modifyAdapter x f).adapter)
    (hslot : replay es (s.adapter x).pending = some (f (s.adapter x)).pending)
    (hnum : List.range s.nextSample ++ taken es = List.range s'.nextSample) :
    Replays s s' (es.map ((s.adapter x).description, ·)) := by
  refine ⟨fun d => ?_, by simpa [Function.comp_def] using hnum⟩
  rw [channel_map, pendingOf_modify hi hi' hx hf hports hadapter d]
  split
  · rename_i hd
    rw [← hd, pendingOf_eq hi hx]
    exact hslot
  · rfl

theorem Replays.of_stage (hi : PortInv s) (ports : List PortDescription)
    (hi' : PortInv { s.stagePorts ports with nextMirror := s.nextMirror + 1 }) :
    Replays s { s.stagePorts ports with nextMirror := s.nextMirror + 1 } [] := by
  obtain ⟨-, hports, hbelow, -, -, hsame⟩ := stagePorts_spec ports s
  refine ⟨fun d => congrArg some (pendingOf_congr hi hi' hports d (fun x hx => ?_) fun x hx _ => ?_).symm, ?_⟩
  · exact congrArg RemotePortAdapter.description (hbelow x (hi.known x hx))
  · exact congrArg RemotePortAdapter.pending (hbelow x (hi.known x hx))
  · simp [taken, hsame.nextSample]

theorem Replays.of_replace (hi : PortInv s) {staged : Staged} (hs : s.Spare staged)
    (hi' : PortInv (s.replacePortAdapters staged.ports)) (hcan : s.canReplacePortAdapters staged.ports = true) :
    Replays s (s.replacePortAdapters staged.ports) [] :=
  ⟨fun d => congrArg some (pendingOf_replace hi hs hi' hcan d).symm,
    by simp [taken, (replacePortAdapters_same staged.ports s).1.nextSample]⟩

theorem sampleEvents_stale {pc : StalePc} (hl : l.inStale = some pc) : sampleEvents a s l = staleEvents s pc := by
  unfold sampleEvents
  split
  · simp [Pc.inStale] at hl
  · rw [hl]
    rfl

/-- A step of `markInterfaceStale` discards the sample of one adapter at most. -/
theorem stale_samples {pc : StalePc} {r : Option StalePc} (hi : PortInv s) (hi' : PortInv s')
    (h : staleAction a s pc = some (s', r)) (hl : l.inStale = some pc) : Replays s s' (sampleEvents a s l) := by
  rw [sampleEvents_stale hl]
  by_cases hpc : ∃ x rest, pc = .discard (x :: rest)
  · obtain ⟨x, rest, rfl⟩ := hpc
    replace h := staleAction_step h
    cases h
    simp only [staleEvents]
    by_cases hx : x ∈ s.portAdapters
    · refine .of_adapter hi hi' hx rfl (f := RemotePortAdapter.discardPendingState) rfl rfl ?_ ?_
      · cases (s.adapter x).pending with
        | none => rfl
        | some n => simp [replay, next, RemotePortAdapter.pending, RemotePortAdapter.discardPendingState]
      · cases (s.adapter x).pending <;> simp [taken, Shared.modifyAdapter]
    · have hnone := pending_eq_none (hi.unused x hx)
      have hother : ∀ y ∈ s.portAdapters,
          (s.modifyAdapter x RemotePortAdapter.discardPendingState).adapter y = s.adapter y := by
        intro y hy
        have hyx : y ≠ x := fun heq => hx (heq ▸ hy)
        simp [Shared.modifyAdapter, hyx]
      rw [hnone]
      refine ⟨fun d => congrArg some (pendingOf_congr hi hi' rfl d (fun y hy => ?_) fun y hy _ => ?_).symm, ?_⟩
      · rw [hother y hy]
      · rw [hother y hy]
      · simp [taken, Shared.modifyAdapter]
  · have hpc' : ∀ x rest, pc ≠ .discard (x :: rest) := fun x rest h => hpc ⟨x, rest, h⟩
    have hnil : staleEvents s pc = [] := by
      unfold staleEvents
      split
      · exact absurd rfl (hpc' _ _)
      · rfl
    rw [hnil]
    exact .of_same (.of_stale hpc' h)

/-- The stages of an input adapter, and that of an output adapter. -/
theorem pending_input {x : RemotePortAdapter} (h : x.Single) (hd : x.description.direction = .input) :
    x.pending = x.pendingInputSource.or x.pendingInput ∧ x.pendingOutput = none ∧
      (x.pendingInputSource = none ∨ x.pendingInput = none) := by
  simp only [RemotePortAdapter.Single, hd] at h
  exact ⟨by simp [RemotePortAdapter.pending, h.1], h⟩

theorem pending_output {x : RemotePortAdapter} (h : x.Single) (hd : x.description.direction = .output) :
    x.pending = x.pendingOutput ∧ x.pendingInputSource = none ∧ x.pendingInput = none := by
  simp only [RemotePortAdapter.Single, hd] at h
  exact ⟨by simp [RemotePortAdapter.pending, h], h⟩

/-- `pump` of an adapter takes, offers and acknowledges its own samples. -/
theorem adapter_samples {pc : AdapterPc} {r : Option AdapterPc} {x : Nat} (hi : PortInv s) (hi' : PortInv s')
    (hx : x ∈ s.portAdapters) (hf : adapterPorts (s.adapter x) pc) (h : adapterAction .pump a s x pc = some (s', r)) :
    Replays s s' ((adapterEvents a s.nextSample (s.adapter x) pc).map ((s.adapter x).description, ·)) := by
  have hsingle := hi.single x
  replace h := adapterAction_step h
  cases h
  case write pc pc' hp =>
    have hnil : adapterEvents a s.nextSample (s.adapter x) (.write pc) = [] := by
      cases pc
      case unlock answer => cases requestAction_step hp
      all_goals rfl
    rw [hnil]
    exact .of_same (.of_request hp)
  case written pc s₁ hp =>
    obtain ⟨hdir, hpend⟩ := hf
    obtain ⟨-, hout, hstage⟩ := pending_input hsingle hdir
    obtain ⟨n, hn⟩ := Option.isSome_iff_exists.1 hpend
    have hsource : (s.adapter x).pendingInputSource = none := hstage.resolve_right (by simp [hn])
    cases requestAction_step hp
    refine .of_adapter hi hi' hx rfl (f := fun k => { k with pendingInput := none }) rfl rfl ?_ ?_
    · simp [adapterEvents, replay, next, hn, hsource, RemotePortAdapter.pending, hout]
    · simp [adapterEvents, taken, hn, Shared.modifyAdapter]
  case notWritten pc answer hanswer hp =>
    obtain ⟨hdir, hpend⟩ := hf
    obtain ⟨hpending, -, hstage⟩ := pending_input hsingle hdir
    obtain ⟨n, hn⟩ := Option.isSome_iff_exists.1 hpend
    have hsource : (s.adapter x).pendingInputSource = none := hstage.resolve_right (by simp [hn])
    cases requestAction_step hp
    refine .of_adapter hi hi' hx rfl (f := id) rfl ?_ ?_ ?_
    all_goals cases answer
    all_goals simp_all [adapterEvents, replay, next, taken, Shared.modifyAdapter]
  case read pc pc' hp | wasRead pc hp => exact .of_same (.of_request hp)
  case notRead pc answer hanswer hp => exact .of_same (.of_request hp)
  case retryInput hpend =>
    obtain ⟨hp, hout, hstage⟩ := pending_input hsingle hf
    obtain ⟨n, hn⟩ := Option.isSome_iff_exists.1 hpend
    have hsource : (s.adapter x).pendingInputSource = none := hstage.resolve_right (by simp [hn])
    refine .of_adapter hi hi' hx rfl (f := id) rfl ?_ ?_ ?_
    all_goals simp [adapterEvents, replay, next, taken, hp, hn, hsource, Shared.modifyAdapter]
  case retryEncode hnone hsource =>
    simp only [adapterEvents, hnone, hsource, Option.isSome_none, Bool.false_eq_true, if_false, if_true, List.map_nil]
    exact .of_same (.refl s)
  case input hnone hsource hgo =>
    obtain ⟨-, hout, -⟩ := pending_input hsingle hf
    refine .of_adapter hi hi' hx rfl (f := fun k => { k with pendingInputSource := some s.nextSample }) rfl rfl ?_ ?_
    · simp [adapterEvents, replay, next, hnone, hsource, hout, hgo, RemotePortAdapter.pending]
    · simp [adapterEvents, taken, hnone, hsource, hgo, Shared.modifyAdapter, List.range_succ]
  case noInput hnone hsource hgo =>
    simp only [adapterEvents, hnone, hsource, hgo, Option.isSome_none, Bool.false_eq_true, if_false, List.map_nil]
    exact .of_same (.refl s)
  case encode hgo =>
    obtain ⟨hdir, hpend, hnone⟩ := hf
    obtain ⟨n, hn⟩ := Option.isSome_iff_exists.1 hpend
    refine .of_adapter hi hi' hx rfl
      (f := fun k => { k with pendingInput := k.pendingInputSource, pendingInputSource := none }) rfl rfl ?_ ?_
    · simp [adapterEvents, replay, next, hn, hgo, RemotePortAdapter.pending]
    · simp [adapterEvents, taken, hn, hgo, Shared.modifyAdapter]
  case encodeFails hgo | decodeFails hgo =>
    simp only [adapterEvents, hgo, if_false, List.map_nil]
    exact .of_same (.refl s)
  case noOutput | retryOutput | output => exact .of_same (.refl s)
  case decode hgo =>
    obtain ⟨hdir, hnone⟩ := hf
    obtain ⟨-, hsource, hinput⟩ := pending_output hsingle hdir
    refine .of_adapter hi hi' hx rfl (f := fun k => { k with pendingOutput := some s.nextSample }) rfl rfl ?_ ?_
    · simp [adapterEvents, replay, next, hnone, hsource, hinput, hgo, RemotePortAdapter.pending]
    · simp [adapterEvents, taken, hgo, Shared.modifyAdapter, List.range_succ]
  case deliver hgo =>
    obtain ⟨hdir, hpend⟩ := hf
    obtain ⟨-, hsource, hinput⟩ := pending_output hsingle hdir
    obtain ⟨n, hn⟩ := Option.isSome_iff_exists.1 hpend
    refine .of_adapter hi hi' hx rfl (f := fun k => { k with pendingOutput := none }) rfl rfl ?_ ?_
    · simp [adapterEvents, replay, next, hn, hsource, hinput, hgo, RemotePortAdapter.pending]
    · simp [adapterEvents, taken, hn, Shared.modifyAdapter]
  case deliverFails hgo =>
    obtain ⟨hdir, hpend⟩ := hf
    obtain ⟨hp, -, -⟩ := pending_output hsingle hdir
    obtain ⟨n, hn⟩ := Option.isSome_iff_exists.1 hpend
    refine .of_adapter hi hi' hx rfl (f := id) rfl ?_ ?_ ?_
    all_goals simp [adapterEvents, replay, next, taken, hp, hn, hgo, Shared.modifyAdapter]

/-- A thread that neither discards nor pumps leaves no events. -/
theorem sampleEvents_nil (hpump : ∀ pc, l ≠ .pump pc) (hstale : l.inStale = none) : sampleEvents a s l = [] := by
  unfold sampleEvents
  split
  · exact absurd rfl (hpump _)
  · rw [hstale]
    rfl

theorem sample_step (hbf : AccessFacts t l s) (hi : PortInv s) (hf : PortFacts t l s) (hi' : PortInv s')
    (h : threadAction t a s l = some (s', l')) : Replays s s' (sampleEvents a s l) := by
  cases hst : l.inStale with
  | some pc =>
      obtain ⟨r, hp⟩ := thread_stale h hst
      exact stale_samples hi hi' hp hst
  | none =>
      cases threadStep h
      case pump pc pc' ha =>
        obtain ⟨rfl, hf⟩ := hf
        replace ha := pumpAction_step ha
        cases ha
        case pump pc x rest r hp => exact adapter_samples hi hi' (hf.2.1 x (by simp)) hf.2.2 hp
        all_goals exact .of_same ⟨rfl, rfl, rfl⟩
      all_goals rw [sampleEvents_nil (by simp) hst]
      case sync pc pc' creating ha =>
        obtain ⟨spc, hpc, -⟩ | ⟨ports, rfl⟩ | ⟨staged, rfl, rfl⟩ | e := sync_samples ha
        · obtain rfl | ⟨entry, rfl⟩ := hpc <;> simp [Pc.inStale] at hst
        · exact .of_stage hi ports hi'
        · exact .of_replace hi hf.2.2.1 hi' hf.2.2.2
        · exact .of_same e
      case create ha => exact .of_same (.of_connect ha)
      case request ha => exact .of_same (.of_request ha)
      case lifecycle pc pc' ha =>
        refine .of_same (.of_lifecycle ?_ ha)
        rintro pc' rfl
        simp [Pc.inStale] at hst
      all_goals exact .of_same ⟨rfl, rfl, rfl⟩

end Step

/-! ## Runs -/

/-- The histories of the port samples. -/
abbrev SampleTrace : List (PortDescription × Event Nat) → Config Thread Shared Pc → Prop :=
  program.Trace (fun c t a => Copies t a (c.frame t)) portEvents

section Runs

variable {h : List (PortDescription × Event Nat)} {t : Thread} {a : Choice} {c c' : Config Thread Shared Pc}

/-- Histories replay to what waits now, and number the samples. -/
theorem replay_of_trace (ht : SampleTrace h c) :
    (∀ d, replay (channel d h) none = some (c.shared.pendingOf d)) ∧
      taken (h.map Prod.snd) = List.range c.shared.nextSample := by
  refine ht.preserves (Q := fun h c => (∀ d, replay (channel d h) none = some (c.shared.pendingOf d)) ∧
    taken (h.map Prod.snd) = List.range c.shared.nextSample) ⟨fun _ => rfl, rfl⟩ ?_
  rintro h c t a c' hreach ⟨hslots, hnum⟩ hk hn
  have hreach' : Reached c' := .step hreach hk hn
  have hb := access_reachable hreach.reachable
  have ho := port_reached hreach
  have ho' := port_reached hreach'
  obtain ⟨s', l', ha, rfl⟩ := Threads.next_eq_some.mp hn
  have hstep := sample_step (hb.2 t) ho.1 (ho.2 t) ho'.1 ha
  refine ⟨fun d => ?_, ?_⟩
  · rw [channel_append, replay_append, hslots d]
    exact hstep.slots d
  · rw [List.map_append, taken_append, hnum]
    exact hstep.numbered

theorem mem_of_taken {d : PortDescription} {n : Nat} (h' : n ∈ taken (channel d h)) : (d, .taken n) ∈ h := by
  simp only [taken, channel, List.mem_filterMap, Option.ite_none_right_eq_some, Option.some.injEq] at h'
  obtain ⟨e, ⟨⟨d', e'⟩, hmem, rfl, rfl⟩, he⟩ := h'
  split at he
  · rename_i heq
    obtain rfl := Option.some.inj he
    exact heq ▸ hmem
  · cases he

/-- A sample that is taken once is taken at one port. -/
theorem port_of_taken {d d' : PortDescription} {n : Nat} (hn : (taken (h.map Prod.snd)).Nodup)
    (hd : (d, .taken n) ∈ h) (hd' : (d', .taken n) ∈ h) : d = d' := by
  induction h with
  | nil => cases hd
  | cons e rest ih =>
      have hrest : (taken (rest.map Prod.snd)).Nodup :=
        hn.sublist (List.Sublist.filterMap _ (List.sublist_cons_self _ _))
      have hhead : ∀ d₁ d₂, e = (d₁, .taken n) → (d₂, Event.taken n) ∈ rest → False := by
        rintro d₁ d₂ rfl hmem
        have hcons : taken (((d₁, Event.taken n) :: rest).map Prod.snd) = n :: taken (rest.map Prod.snd) := rfl
        rw [hcons] at hn
        refine (List.nodup_cons.1 hn).1 (List.mem_filterMap.2 ⟨.taken n, ?_, rfl⟩)
        exact List.mem_map.2 ⟨_, hmem, rfl⟩
      rcases List.mem_cons.1 hd with he | hr <;> rcases List.mem_cons.1 hd' with he' | hr'
      · exact congrArg Prod.fst (he.trans he'.symm)
      · exact (hhead d d' he.symm hr').elim
      · exact (hhead d' d he'.symm hr).elim
      · exact ih hrest hr hr'

/-- No sample waits at two ports. -/
theorem port_of_pending (ht : SampleTrace h c) {d d' : PortDescription} {n : Nat}
    (hd : c.shared.pendingOf d = some n) (hd' : c.shared.pendingOf d' = some n) : d = d' := by
  obtain ⟨hslots, hnum⟩ := replay_of_trace ht
  have hmem : ∀ d, c.shared.pendingOf d = some n → (d, Event.taken n) ∈ h := by
    intro d hd
    have heq := taken_of_replay (hslots d)
    refine mem_of_taken ?_
    simp only [Option.toList_none, List.nil_append] at heq
    simp [heq, hd]
  exact port_of_taken (by rw [hnum]; exact List.nodup_range) (hmem d hd) (hmem d' hd')

theorem staleFacts_of_inStale {s : Shared} {l : Pc} {pc : StalePc} (hf : AccessFacts t l s)
    (hl : l.inStale = some pc) : staleFacts s pc := by
  obtain ⟨-, -, hp⟩ := hf
  unfold Pc.inStale at hl
  split at hl
  all_goals simp only [Option.some.injEq, reduceCtorEq] at hl
  all_goals subst hl
  case h_1 creating | h_2 creating =>
    cases creating
    all_goals simp only [pointFacts, syncFacts] at hp
    all_goals grind -ring -linarith
  case h_3 => exact hp.2

/-- Only `discardPendingPortState` of a stale interface discards a sample. -/
theorem stale_of_discarded (hr : Reached c) {d : PortDescription} {n : Nat}
    (he : (d, .discarded n) ∈ portEvents c t a) : c.shared.interfaceStale = true := by
  have hb := access_reachable hr.reachable
  unfold portEvents sampleEvents at he
  split at he
  · rename_i pc x rest
    -- `pump` of an adapter discards nothing
    simp only [List.mem_map, Prod.mk.injEq] at he
    obtain ⟨e, he, -, rfl⟩ := he
    unfold adapterEvents at he
    repeat' split at he
    all_goals simp at he
  · cases hst : (c.frame t).inStale with
    | none => simp [hst] at he
    | some pc =>
        have hf := staleFacts_of_inStale (hb.2 t) hst
        rw [hst] at he
        cases pc
        case discard rest => exact hf.1
        all_goals simp [staleEvents] at he

/-- Every pending sample is with exactly one of the new adapters, that of its port. -/
structure Moved (s s' : Shared) : Prop where
  forward : ∀ x ∈ s.portAdapters, (s.adapter x).pending ≠ none → ∃ y ∈ s'.portAdapters, s'.adapter y = s.adapter x ∧
    ∀ z ∈ s'.portAdapters, (s'.adapter z).description = (s.adapter x).description → z = y
  backward : ∀ y ∈ s'.portAdapters, (s'.adapter y).pending ≠ none → ∃ x ∈ s.portAdapters, s.adapter x = s'.adapter y

theorem withPendingStateOf_eq {x y : RemotePortAdapter} (h : x.description = y.description) :
    y.withPendingStateOf x = x := by
  obtain ⟨d, p, q, r⟩ := x
  obtain ⟨d', p', q', r'⟩ := y
  simp only at h
  simp [RemotePortAdapter.withPendingStateOf, h]

theorem moved_of_replace {s : Shared} (hi : PortInv s) {staged : Staged} (hs : s.Spare staged)
    (hi' : PortInv (s.replacePortAdapters staged.ports)) (hcan : s.canReplacePortAdapters staged.ports = true) :
    Moved s (s.replacePortAdapters staged.ports) := by
  have h := replace_transferred (fun y hy => (hs.1 y hy).2) hi.keys hs.2
  have hfresh : ∀ y ∈ staged.ports, ∀ x ∈ s.portAdapters, (s.adapter x).description = (s.adapter y).description →
      (s.replacePortAdapters staged.ports).adapter y = s.adapter x := by
    intro y hy x hx hd
    rw [h.fresh y hy]
    cases hpred : s.predecessor s.portAdapters y with
    | none => simpa [hasSameIdentity_iff.2 hd] using List.find?_eq_none.1 hpred x hx
    | some z =>
        have hz : (s.adapter z).description = (s.adapter y).description :=
          hasSameIdentity_iff.1 (by simpa using List.find?_some hpred)
        obtain rfl := description_inj hi (List.mem_of_find?_eq_some hpred) hx (hz.trans hd.symm)
        exact withPendingStateOf_eq hd
  refine ⟨fun x hx hpend => ?_, fun y hy hpend => ?_⟩
  · have hx' := (List.all_eq_true.1 hcan) x hx
    simp only [Bool.or_eq_true, Bool.not_eq_eq_eq_not, Bool.not_true, List.any_eq_true] at hx'
    obtain hno | ⟨y, hy, hid⟩ := hx'
    · exact absurd (pending_eq_none hno) hpend
    · have heq := hfresh y hy x hx (hasSameIdentity_iff.1 hid)
      exact ⟨y, hy, heq, fun z hz hzd => description_inj hi' hz hy (by rw [hzd, heq])⟩
  · change y ∈ staged.ports at hy
    cases hpred : s.predecessor s.portAdapters y with
    | none =>
        have hnone : (s.adapter y).pending = none := pending_eq_none (hi.unused y (hs.1 y hy).2)
        rw [h.fresh y hy, hpred] at hpend
        exact absurd hnone hpend
    | some x =>
        have hx : x ∈ s.portAdapters := List.mem_of_find?_eq_some hpred
        have hd : (s.adapter x).description = (s.adapter y).description :=
          hasSameIdentity_iff.1 (by simpa using List.find?_some hpred)
        exact ⟨x, hx, (hfresh y hy x hx hd).symm⟩

/-- The replacement of a `synchronize`. -/
theorem moved_of_next (hr : Reached c) {staged : Staged} {creating : Bool}
    (hl : c.frame t = .sync (.replace staged) creating) (hn : program.next c t a = some c') :
    c'.shared.portAdapters = staged.ports ∧ Moved c.shared c'.shared := by
  have hr' : Reached c' := .step hr (fun h => by rw [hl] at h; cases h) hn
  have ho := port_reached hr
  have ho' := port_reached hr'
  obtain ⟨hp, hs, hcan⟩ : syncPorts c.shared (.replace staged) := by
    have hf := ho.2 t
    rw [hl] at hf
    exact hf.2
  have hc' : c'.shared = c.shared.replacePortAdapters staged.ports := by
    obtain ⟨s', l', ha, rfl⟩ := Threads.next_eq_some.mp hn
    rw [hl] at ha
    simp only [program, threadAction, syncAction, Option.map_some, Option.some.injEq, Prod.mk.injEq] at ha
    exact ha.1.symm
  rw [hc']
  exact ⟨rfl, moved_of_replace ho.1 hs (hc' ▸ ho'.1) hcan⟩

theorem single_count {x : RemotePortAdapter} (h : x.Single) :
    [x.pendingInputSource, x.pendingInput, x.pendingOutput].countP Option.isSome ≤ 1 := by
  unfold RemotePortAdapter.Single at h
  split at h
  · obtain ⟨hout, hin | hin⟩ := h
    · cases x.pendingInput <;> simp [hout, hin]
    · cases x.pendingInputSource <;> simp [hout, hin]
  · cases x.pendingOutput <;> simp [h]

end Runs

end RttOpcua.Proxy
