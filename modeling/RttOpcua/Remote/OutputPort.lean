import RttOpcua.Lib.Relay
import RttOpcua.Remote.Port
import RttOpcua.Values.Lemmas.Codecs

/-!
# Mirrored output ports

An output port of a component and the clients that mirror it. A pump asks for the last sample that the port has written
and writes it to the mirrored port of its client.
-/

namespace RttOpcua.Remote

open RttOpcua.Lib RttOpcua.Values

/-! ## The port and its clients -/

/-- The port of a component with its value node, and every sample that it has written. -/
structure OutputPort (T X : Type) where
  node : OutputPortValueDataSource T X
  written : List T := []

/-- A client that mirrors an output port. The last three fields are history: the samples that the pump has decoded, those
that came in at the mirrored port, and how many were discarded. -/
structure OutputClient (T X : Type) where
  adapter : RemotePortAdapter T X
  session : ClientSession
  decoded : List T := []
  delivered : List T := []
  discarded : Nat := 0

/-- What happens at the port or at a client: a pump, a sample of the component, a change of the session by other threads,
the replacement of the adapter by `synchronize`, and the loss of the interface. -/
inductive OutputAction (T : Type) where
  | pump (client : Nat) (connected : Bool) (answer : PortWrite) (lease : Bool) (delivery : Delivery)
  | write (sample : T)
  | session (client : Nat) (session : ClientSession)
  | replace (client : Nat)
  | discard (client : Nat)

structure OutputSystem (T X : Type) where
  port : OutputPort T X
  client : Nat → OutputClient T X

section Output

variable {T X : Type} (codec : Methods T X) (statusName : PortStatus → Str)

/-- The read request of a client. -/
def readWire (lease : Bool) (delivery : Delivery) (port : OutputPort T X) : Response X × OutputPort T X :=
  delivery.response (fun port =>
    (PortStatus.respond statusName (port.node.read false lease (some port.written.getLast?)), port)) port

/-- A pump of a client; it does not change the port. -/
def OutputClient.pump (c : OutputClient T X) (connected : Bool) (answer : PortWrite)
    (wire : OutputPort T X → Response X × OutputPort T X) (port : OutputPort T X) : OutputClient T X :=
  let pumped := c.adapter.pumpOutput codec connected answer c.session wire port
  let fetched := (c.adapter.fetchOutput codec c.session wire port).1.1
  { adapter := pumped.1.1
    session := pumped.2.1
    decoded := c.decoded ++ if connected ∧ c.adapter.pendingOutput = none then fetched.pendingOutput.toList else []
    delivered := c.delivered ++ pumped.1.2.toList
    discarded := c.discarded }

def OutputSystem.step (s : OutputSystem T X) : OutputAction T → OutputSystem T X
  | .pump i connected answer lease delivery =>
      { s with
        client := Function.update s.client i
          ((s.client i).pump codec connected answer (readWire statusName lease delivery) s.port) }
  | .write sample => { s with port := { s.port with written := s.port.written ++ [sample] } }
  | .session i session => { s with client := Function.update s.client i { s.client i with session } }
  | .replace i =>
      { s with client := Function.update s.client i { s.client i with adapter := (s.client i).adapter.replaced } }
  | .discard i =>
      { s with
        client := Function.update s.client i
          { s.client i with
            adapter := (s.client i).adapter.discardPendingState
            discarded := (s.client i).discarded + if (s.client i).adapter.hasPendingState then 1 else 0 } }

def OutputSystem.run (s : OutputSystem T X) (actions : List (OutputAction T)) : OutputSystem T X :=
  actions.foldl (OutputSystem.step codec statusName) s

/-- Nothing was written. -/
def OutputSystem.initial (node : OutputPortValueDataSource T X) (descriptions : Nat → Proxy.PortDescription)
    (sessions : Nat → ClientSession) : OutputSystem T X where
  port := { node }
  client i := { adapter := { description := descriptions i }, session := sessions i }

/-- What a client gets of a sample that the port has written. -/
def readable (node : OutputPortValueDataSource T X) (sample : T) : Option T :=
  node.codec.bind fun published =>
    match published.portValue (some (some sample)) with
    | .value encoded => codec.makeDataSource encoded
    | _ => none

end Output

/-! ## One relay for each client -/

section Mirrors

variable {T X : Type} (codec : Methods T X)

/-- The history of a client is that of a relay, which has taken its samples at the places `is` of `written`. -/
structure Samples (node : OutputPortValueDataSource T X) (written : List T) (c : OutputClient T X) (is : List Nat)
    (es : List (Relay.Event T)) (held : Option (Relay.Held T)) : Prop where
  run : Relay.Run es held
  holds : c.adapter.pendingOutput = held.map Relay.Held.item
  input : c.adapter.pendingInputSource = none ∧ c.adapter.pendingInput = none
  decoded : Relay.taken es = c.decoded
  sampled : Sampled (readable codec node) written is c.decoded
  delivered : Relay.arrived es = c.delivered
  discarded : (Relay.discarded es).length = c.discarded

end Mirrors

section Pump

variable {T X : Type} {codec : Methods T X} {node : OutputPortValueDataSource T X} {written : List T}
  {c : OutputClient T X} {is : List Nat} {es : List (Relay.Event T)} {held : Option (Relay.Held T)}

/-- Sessions and errors do not matter. -/
theorem Samples.congr (h : Samples codec node written c is es held) {d : OutputClient T X}
    (hadapter : d.adapter.pendingOutput = c.adapter.pendingOutput ∧
      d.adapter.pendingInputSource = c.adapter.pendingInputSource ∧ d.adapter.pendingInput = c.adapter.pendingInput)
    (hdecoded : d.decoded = c.decoded) (hdelivered : d.delivered = c.delivered) (hdiscarded : d.discarded = c.discarded) :
    Samples codec node written d is es held where
  run := h.run
  holds := hadapter.1.trans h.holds
  input := ⟨hadapter.2.1.trans h.input.1, hadapter.2.2.trans h.input.2⟩
  decoded := h.decoded.trans hdecoded.symm
  sampled := by
    rw [hdecoded]
    exact h.sampled
  delivered := h.delivered.trans hdelivered.symm
  discarded := h.discarded.trans hdiscarded.symm

/-- The last sample of the port is decoded. -/
theorem Samples.take (h : Samples codec node written c is es none) {sample v : T}
    (hsample : written.getLast? = some sample) (hv : readable codec node sample = some v) :
    Samples codec node written
      { c with adapter := { c.adapter with pendingOutput := some v }, decoded := c.decoded ++ [v] }
      (is ++ [written.length - 1]) (es ++ [.taken v]) (some ⟨v, 0⟩) where
  run := h.run.snoc (.take v)
  holds := rfl
  input := h.input
  decoded := by simp [Relay.taken, ← h.decoded]
  sampled := h.sampled.readLast hsample hv
  delivered := by simp [Relay.arrived, ← h.delivered]
  discarded := by simp [Relay.discarded, ← h.discarded]

/-- What is pending is written to the mirrored port. -/
theorem Samples.write (h : Samples codec node written c is es held) (hheld : held.isSome = true) (answer : PortWrite) :
    ∃ es' held', Samples codec node written
      { c with
        adapter := (c.adapter.writeOutput answer).1
        delivered := c.delivered ++ (c.adapter.writeOutput answer).2.toList } is es' held' := by
  obtain ⟨⟨item, n⟩, rfl⟩ := Option.isSome_iff_exists.1 hheld
  have hpending : c.adapter.pendingOutput = some item := h.holds
  have harrive : Samples codec node written { c with delivered := c.delivered ++ [item] } is (es ++ [.arrived item])
      (some ⟨item, n + 1⟩) := {
    run := h.run.snoc (.arrive item n)
    holds := hpending
    input := h.input
    decoded := by simp [Relay.taken, ← h.decoded]
    sampled := h.sampled
    delivered := by simp [Relay.arrived, ← h.delivered]
    discarded := by simp [Relay.discarded, ← h.discarded] }
  have hfailed : Samples codec node written { c with delivered := c.delivered ++ [] } is es (some ⟨item, n⟩) :=
    h.congr ⟨rfl, rfl, rfl⟩ rfl (List.append_nil _) rfl
  cases answer with
  | WriteSuccess =>
      refine ⟨es ++ [.arrived item] ++ [.acknowledged item], none, ?_⟩
      simp only [RemotePortAdapter.writeOutput, PortWrite.arrives, if_true, hpending]
      exact {
        run := harrive.run.snoc (.acknowledge item n)
        holds := rfl
        input := h.input
        decoded := by simp [Relay.taken, ← h.decoded]
        sampled := h.sampled
        delivered := by simp [Relay.arrived, ← h.delivered]
        discarded := by simp [Relay.discarded, ← h.discarded] }
  | WriteFailure | NotConnected => exact ⟨_, _, hfailed.congr ⟨rfl, rfl, rfl⟩ rfl rfl rfl⟩
  | threw arrives what =>
      cases arrives with
      | false => exact ⟨_, _, hfailed.congr ⟨rfl, rfl, rfl⟩ rfl rfl rfl⟩
      | true =>
          simp only [RemotePortAdapter.writeOutput, PortWrite.arrives, if_true, hpending]
          exact ⟨_, _, harrive.congr ⟨rfl, rfl, rfl⟩ rfl rfl rfl⟩

/-- Without a sample the port has no value. -/
def Waits (node : OutputPortValueDataSource T X) : Prop :=
  ∀ published, node.codec = some published → ∀ x, published.portValue (some none) ≠ .value x

/-- A value that is read is that of the last sample. -/
theorem read_eq_ok (hwaits : Waits node) {lease : Bool} {encoded : X}
    (h : node.read false lease (some written.getLast?) = .ok encoded) {v : T} (hv : codec.makeDataSource encoded = some v) :
    ∃ sample, written.getLast? = some sample ∧ readable codec node sample = some v := by
  simp only [OutputPortValueDataSource.read] at h
  split at h
  case isTrue => cases h
  case isFalse =>
    split at h
    case isTrue => cases h
    case isFalse =>
      split at h
      case h_1 => cases h
      case h_2 published hpublished =>
        split at h
        case h_2 => cases h
        case h_3 => cases h
        case h_1 x hvalue =>
          obtain rfl := Except.ok.inj h
          cases hlast : written.getLast? with
          | none =>
              rw [hlast] at hvalue
              exact absurd hvalue (hwaits published hpublished x)
          | some sample =>
              rw [hlast] at hvalue
              exact ⟨sample, rfl, by simp [readable, hpublished, hvalue, hv]⟩

/-- A read that is answered with a value. -/
theorem readWire_good {statusName : PortStatus → Str} {lease : Bool} {delivery : Delivery} {port : OutputPort T X}
    {encoded : X} (h : (readWire statusName lease delivery port).1 = .good encoded) :
    port.node.read false lease (some port.written.getLast?) = .ok encoded := by
  cases delivery with
  | requestLost lost | answerLost lost => cases lost <;> cases h
  | answered isConnected =>
      simp only [readWire, Delivery.response] at h
      cases hread : port.node.read false lease (some port.written.getLast?) with
      | ok x =>
          rw [hread] at h
          rw [Response.good.inj h]
      | error status =>
          rw [hread] at h
          cases h

/-- Before the write of a pump. -/
theorem Samples.fetch {port : OutputPort T X} (h : Samples codec port.node port.written c is es held)
    (hwaits : Waits port.node) (statusName : PortStatus → Str) (lease : Bool) (delivery : Delivery) :
    let fetched := c.adapter.fetchOutput codec c.session (readWire statusName lease delivery) port
    ∃ is' es' held', Samples codec port.node port.written
      { c with
        adapter := fetched.1.1
        decoded := c.decoded ++
          if c.adapter.pendingOutput = none then fetched.1.1.pendingOutput.toList else [] } is' es' held' ∧
      (fetched.1.2 = true → held'.isSome = true) := by
  intro fetched
  cases held with
  | some held =>
      have hpending : c.adapter.pendingOutput = some held.item := h.holds
      refine ⟨is, es, some held, ?_, fun _ => rfl⟩
      have hfetched : fetched = ((c.adapter, true), c.session, port) := by
        simp [fetched, RemotePortAdapter.fetchOutput, hpending]
      rw [hfetched]
      exact h.congr ⟨rfl, rfl, rfl⟩ (by simp [hpending]) rfl rfl
  | none =>
      have hpending : c.adapter.pendingOutput = none := h.holds
      have hstays : ∀ error, Samples codec port.node port.written
          { c with
            adapter := c.adapter.setError error
            decoded := c.decoded ++ (c.adapter.setError error).pendingOutput.toList } is es none := by
        intro error
        refine h.congr ⟨rfl, rfl, rfl⟩ ?_ rfl rfl
        simp [RemotePortAdapter.setError, hpending]
      have hperform := c.session.perform_cases .readPortValue (readWire statusName lease delivery) port
      simp only [fetched, RemotePortAdapter.fetchOutput, hpending, Option.isSome_none, Bool.false_eq_true, if_false,
        ClientSession.readPortValue, if_true]
      cases hresult : c.session.perform .readPortValue (readWire statusName lease delivery) port with
      | mk result rest =>
          rw [hresult] at hperform
          cases result with
          | waiting => exact ⟨is, es, none, hstays [], fun hgo => by cases hgo⟩
          | failed error => exact ⟨is, es, none, hstays error, fun hgo => by cases hgo⟩
          | value encoded =>
              obtain ⟨⟨error, herror⟩, -⟩ | ⟨hanswer, -⟩ := hperform
              · cases herror
              · have hread := readWire_good (ClientSession.answer_eq_value.1 hanswer.symm)
                cases hdecoded : codec.makeDataSource encoded with
                | none =>
                    simp only [hdecoded]
                    exact ⟨is, es, none, hstays _, fun hgo => by cases hgo⟩
                | some v =>
                    simp only [hdecoded]
                    obtain ⟨sample, hlast, hv⟩ := read_eq_ok hwaits hread hdecoded
                    exact ⟨_, _, _, h.take hlast hv, fun _ => rfl⟩

theorem RemotePortAdapter.pumpOutput_eq {σ : Type} (codec : Methods T X) (x : RemotePortAdapter T X) (connected : Bool)
    (answer : PortWrite) (session : ClientSession) (wire : σ → Response X × σ) (far : σ) :
    x.pumpOutput codec connected answer session wire far =
      if connected then
        let fetched := x.fetchOutput codec session wire far
        (if fetched.1.2 then fetched.1.1.writeOutput answer else (fetched.1.1, none), fetched.2)
      else ((x, none), session, far) := by
  unfold pumpOutput
  cases connected with
  | false => rfl
  | true =>
      simp only [not_true_eq_false, if_false, if_true]
      obtain ⟨⟨fetched, go⟩, rest⟩ := x.fetchOutput codec session wire far
      cases go <;> rfl

/-- A pump of a client. -/
theorem Samples.pump {port : OutputPort T X} (h : Samples codec port.node port.written c is es held)
    (hwaits : Waits port.node) (statusName : PortStatus → Str) (connected : Bool) (answer : PortWrite) (lease : Bool)
    (delivery : Delivery) :
    ∃ is' es' held', Samples codec port.node port.written
      (c.pump codec connected answer (readWire statusName lease delivery) port) is' es' held' := by
  simp only [OutputClient.pump, RemotePortAdapter.pumpOutput_eq]
  cases connected with
  | false =>
      refine ⟨is, es, held, h.congr ⟨rfl, rfl, rfl⟩ ?_ ?_ rfl⟩
      · simp
      · simp
  | true =>
      obtain ⟨is', es', held', hfetched, hheld⟩ := h.fetch hwaits statusName lease delivery
      simp only [if_true, true_and]
      split
      case isTrue hgo =>
        obtain ⟨es'', held'', hwritten⟩ := hfetched.write (hheld hgo) answer
        exact ⟨is', es'', held'', hwritten.congr ⟨rfl, rfl, rfl⟩ rfl rfl rfl⟩
      case isFalse => exact ⟨is', es', held', hfetched.congr ⟨rfl, rfl, rfl⟩ rfl (List.append_nil _) rfl⟩

/-- What is pending is discarded. -/
theorem Samples.discard (h : Samples codec node written c is es held) :
    ∃ es', Samples codec node written
      { c with
        adapter := c.adapter.discardPendingState
        discarded := c.discarded + if c.adapter.hasPendingState then 1 else 0 } is es' none := by
  have hpending : c.adapter.hasPendingState = held.isSome := by
    simp [RemotePortAdapter.hasPendingState, h.input, h.holds]
  rw [hpending]
  cases held with
  | none => exact ⟨es, h.congr ⟨h.holds.symm, h.input.1.symm, h.input.2.symm⟩ rfl rfl rfl⟩
  | some held =>
      exact ⟨es ++ [.discarded held.item], {
        run := h.run.snoc (.discard held.item held.arrivals)
        holds := rfl
        input := ⟨rfl, rfl⟩
        decoded := by simp [Relay.taken, ← h.decoded]
        sampled := h.sampled
        delivered := by simp [Relay.arrived, ← h.delivered]
        discarded := by simp [Relay.discarded, ← h.discarded] }⟩

end Pump

/-! ## Runs -/

section Runs

variable {T X : Type} {codec : Methods T X} {node : OutputPortValueDataSource T X} {s : OutputSystem T X}

structure OutputSystem.Mirrors (codec : Methods T X) (node : OutputPortValueDataSource T X) (s : OutputSystem T X) :
    Prop where
  same : s.port.node = node
  client : ∀ i, ∃ is es held, Samples codec node s.port.written (s.client i) is es held

theorem OutputSystem.Mirrors.update (h : s.Mirrors codec node) (i : Nat) {c : OutputClient T X}
    (hc : ∃ is es held, Samples codec node s.port.written c is es held) :
    ({ s with client := Function.update s.client i c } : OutputSystem T X).Mirrors codec node where
  same := h.same
  client j := by
    by_cases hj : j = i
    · subst hj
      simpa using hc
    · simpa [hj] using h.client j

theorem OutputSystem.Mirrors.step (h : s.Mirrors codec node) (hwaits : Waits node) (statusName : PortStatus → Str)
    (action : OutputAction T) : (s.step codec statusName action).Mirrors codec node := by
  cases action with
  | pump i connected answer lease delivery =>
      obtain ⟨is, es, held, hsamples⟩ := h.client i
      obtain rfl := h.same
      exact h.update i (hsamples.pump hwaits statusName connected answer lease delivery)
  | write sample =>
      refine ⟨h.same, fun i => ?_⟩
      obtain ⟨is, es, held, hsamples⟩ := h.client i
      exact ⟨is, es, held, { hsamples with sampled := hsamples.sampled.append [sample] }⟩
  | session i session =>
      obtain ⟨is, es, held, hsamples⟩ := h.client i
      exact h.update i ⟨is, es, held, hsamples.congr ⟨rfl, rfl, rfl⟩ rfl rfl rfl⟩
  | replace i =>
      obtain ⟨is, es, held, hsamples⟩ := h.client i
      refine h.update i ⟨is, es, held, hsamples.congr ⟨?_, ?_, ?_⟩ rfl rfl rfl⟩
      all_goals simp [RemotePortAdapter.replaced, RemotePortAdapter.transferPendingStateTo,
        RemotePortAdapter.hasSameIdentity]
  | discard i =>
      obtain ⟨is, es, held, hsamples⟩ := h.client i
      obtain ⟨es', hdiscarded⟩ := hsamples.discard
      exact h.update i ⟨is, es', none, hdiscarded⟩

theorem OutputSystem.Mirrors.run (h : s.Mirrors codec node) (hwaits : Waits node) (statusName : PortStatus → Str)
    (actions : List (OutputAction T)) : (s.run codec statusName actions).Mirrors codec node := by
  induction actions generalizing s with
  | nil => exact h
  | cons action actions ih => exact ih (h.step hwaits statusName action)

theorem OutputSystem.Mirrors.initial (codec : Methods T X) (node : OutputPortValueDataSource T X)
    (descriptions : Nat → Proxy.PortDescription) (sessions : Nat → ClientSession) :
    (OutputSystem.initial node descriptions sessions).Mirrors codec node where
  same := rfl
  client _ := ⟨[], [], none, .nil, rfl, ⟨rfl, rfl⟩, rfl, .nil _ _, rfl, rfl⟩

end Runs

end RttOpcua.Remote
