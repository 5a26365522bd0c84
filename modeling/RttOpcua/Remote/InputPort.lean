import RttOpcua.Lib.Relay
import RttOpcua.Remote.Port
import RttOpcua.Values.Lemmas.Codecs

/-!
# Mirrored input ports

An input port of a component and the clients that mirror it. What a client writes to its mirrored port goes to the port of
the component. A pump touches the server once, so it is one step of a run; between two pumps anything may happen to
the session of a client.
-/

namespace RttOpcua.Remote

open RttOpcua.Lib RttOpcua.Values

/-! ## The port and its clients -/

/-- The port of a component with its value node, and every sample that came in there, with the client that sent it. -/
structure InputPort (T X : Type) where
  node : InputPortValueDataSource T X
  received : List (Option Nat × T) := []

/-- A write of the value, by a client that mirrors the port or by another one. -/
def InputPort.write {T X : Type} (port : InputPort T X) (client : Option Nat) (range : Bool) (value : Option X)
    (lease : Bool) (answer : PortWrite) : InputPort T X × PortStatus :=
  let written := port.node.write range value lease answer
  ({ node := written.1, received := port.received ++ written.2.2.toList.map (client, ·) }, written.2.1)

/-- The samples of one client. -/
def InputPort.receivedFrom {T X : Type} (port : InputPort T X) (client : Nat) : List T :=
  port.received.filterMap fun e => if e.1 = some client then some e.2 else none

/-- A client that mirrors an input port. The last three fields are history: the samples that the pump has read, those
whose write was acknowledged, and how many were discarded. -/
structure InputClient (T X : Type) where
  adapter : RemotePortAdapter T X
  session : ClientSession
  read : List T := []
  acknowledged : List X := []
  discarded : Nat := 0

/-- The sample of a read. -/
def LocalRead.sample {T : Type} : LocalRead T → Option T
  | .newData sample => some sample
  | _ => none

/-- What happens at the port or at a client: a pump, a write by somebody else, a change of the session by other threads,
the replacement of the adapter by `synchronize`, and the loss of the interface. -/
inductive InputAction (T X : Type) where
  | pump (client : Nat) (input : LocalRead T) (lease : Bool) (answer : PortWrite) (delivery : Delivery)
  | write (range : Bool) (value : Option X) (lease : Bool) (answer : PortWrite)
  | session (client : Nat) (session : ClientSession)
  | replace (client : Nat)
  | discard (client : Nat)

structure InputSystem (T X : Type) where
  port : InputPort T X
  client : Nat → InputClient T X

section Input

variable {T X : Type} (codec : Methods T X) (statusName : PortStatus → Str)

/-- The write request of a client. -/
def writeWire (client : Nat) (lease : Bool) (answer : PortWrite) (delivery : Delivery) (encoded : X)
    (port : InputPort T X) : Response Unit × InputPort T X :=
  delivery.response (fun port =>
    let written := port.write (some client) false (some encoded) lease answer
    (PortStatus.respond statusName (if written.2 = .Good then .ok () else .error written.2), written.1)) port

/-- The sample that a pump reads, if none is pending. -/
def RemotePortAdapter.reads (x : RemotePortAdapter T X) (input : LocalRead T) : Option T :=
  if x.pendingInputSource.isSome ∨ x.pendingInput.isSome then none else input.sample

/-- A pump of a client. -/
def InputClient.pump (c : InputClient T X) (input : LocalRead T)
    (wire : X → InputPort T X → Response Unit × InputPort T X) (port : InputPort T X) : InputClient T X × InputPort T X :=
  let ready := c.adapter.prepareInput codec input
  let pumped := c.adapter.pumpInput codec input c.session wire port
  ({ adapter := pumped.1
     session := pumped.2.1
     read := c.read ++ (c.adapter.reads input).toList
     acknowledged := c.acknowledged ++
      if ready.2 ∧ pumped.1.pendingInput.isNone then ready.1.pendingInput.toList else []
     discarded := c.discarded }, pumped.2.2)

def InputSystem.step (s : InputSystem T X) : InputAction T X → InputSystem T X
  | .pump i input lease answer delivery =>
      let pumped := (s.client i).pump codec input (writeWire statusName i lease answer delivery) s.port
      ⟨pumped.2, Function.update s.client i pumped.1⟩
  | .write range value lease answer => { s with port := (s.port.write none range value lease answer).1 }
  | .session i session => { s with client := Function.update s.client i { s.client i with session } }
  | .replace i =>
      { s with client := Function.update s.client i { s.client i with adapter := (s.client i).adapter.replaced } }
  | .discard i =>
      { s with
        client := Function.update s.client i
          { s.client i with
            adapter := (s.client i).adapter.discardPendingState
            discarded := (s.client i).discarded + if (s.client i).adapter.hasPendingState then 1 else 0 } }

def InputSystem.run (s : InputSystem T X) (actions : List (InputAction T X)) : InputSystem T X :=
  actions.foldl (InputSystem.step codec statusName) s

/-- Nothing was sent, and nothing came in. -/
def InputSystem.initial (bridge : Option (PortBridge T X)) (descriptions : Nat → Proxy.PortDescription)
    (sessions : Nat → ClientSession) : InputSystem T X where
  port := { node := { bridge } }
  client i := { adapter := { description := descriptions i }, session := sessions i }

end Input

/-! ## One relay for each client -/

section Relayed

variable {T X : Type} (codec : Methods T X) (bridge : Option (PortBridge T X))

/-- What comes in at the port of the component when `x` is written to its node. -/
def decodedBy (x : X) : Option T := (bridge.bind PortBridge.codec).bind fun codec => codec.makeDataSource x

/-- What comes in for a sample of a mirrored port. -/
def carried (sample : T) : Option T := (codec.toVariant (some sample)).bind (decodedBy bridge)

/-- The sample that an adapter holds is that of its relay, encoded or not. Before it is encoded it has not been sent. -/
def Holds (x : RemotePortAdapter T X) : Option (Relay.Held T) → Prop
  | none => x.pendingInputSource = none ∧ x.pendingInput = none
  | some held => x.pendingInputSource = some held.item ∧ x.pendingInput = none ∧ held.arrivals = 0 ∨
      x.pendingInputSource = none ∧ x.pendingInput.isSome = true ∧ codec.toVariant (some held.item) = x.pendingInput

/-- The history of a client is that of a relay: `got` came in at the port. -/
structure Relayed (x : RemotePortAdapter T X) (read : List T) (acknowledged : List X) (discarded : Nat) (got : List T)
    (es : List (Relay.Event T)) (held : Option (Relay.Held T)) : Prop where
  run : Relay.Run es held
  holds : Holds codec x held
  output : x.pendingOutput = none
  read : Relay.taken es = read
  got : got.map some = (Relay.arrived es).map (carried codec bridge)
  acknowledged : acknowledged.map some = (Relay.acknowledged es).map fun sample => codec.toVariant (some sample)
  discarded : (Relay.discarded es).length = discarded

end Relayed

section Moves

variable {T X : Type} {codec : Methods T X} {bridge : Option (PortBridge T X)} {x : RemotePortAdapter T X} {read : List T}
  {acknowledged : List X} {discarded : Nat} {got : List T} {es : List (Relay.Event T)} {held : Option (Relay.Held T)}

/-- Errors do not matter. -/
theorem Relayed.congr (h : Relayed codec bridge x read acknowledged discarded got es held) {y : RemotePortAdapter T X}
    (hsource : y.pendingInputSource = x.pendingInputSource) (hinput : y.pendingInput = x.pendingInput)
    (houtput : y.pendingOutput = x.pendingOutput) : Relayed codec bridge y read acknowledged discarded got es held :=
  { h with
    holds := by
      have hholds := h.holds
      unfold Holds at hholds ⊢
      rwa [hsource, hinput]
    output := houtput.trans h.output }

theorem Relayed.take (h : Relayed codec bridge x read acknowledged discarded got es none) (sample : T) :
    Relayed codec bridge { x with pendingInputSource := some sample } (read ++ [sample]) acknowledged discarded got
      (es ++ [.taken sample]) (some ⟨sample, 0⟩) where
  run := h.run.snoc (.take sample)
  holds := .inl ⟨rfl, h.holds.2, rfl⟩
  output := h.output
  read := by simp [Relay.taken, ← h.read]
  got := by simp [Relay.arrived, h.got]
  acknowledged := by simp [Relay.acknowledged, h.acknowledged]
  discarded := by simp [Relay.discarded, ← h.discarded]

theorem Relayed.encode {sample : T} {n : Nat} {encoded : X}
    (h : Relayed codec bridge x read acknowledged discarded got es (some ⟨sample, n⟩))
    (hencoded : codec.toVariant (some sample) = some encoded) :
    Relayed codec bridge { x with pendingInput := some encoded, pendingInputSource := none } read acknowledged discarded
      got es (some ⟨sample, n⟩) :=
  { h with holds := .inr ⟨rfl, rfl, hencoded⟩ }

theorem Relayed.arrive {sample : T} {n : Nat}
    (h : Relayed codec bridge x read acknowledged discarded got es (some ⟨sample, n⟩)) (hinput : x.pendingInput.isSome)
    {v : T} (hv : x.pendingInput.bind (decodedBy bridge) = some v) :
    Relayed codec bridge x read acknowledged discarded (got ++ [v]) (es ++ [.arrived sample])
      (some ⟨sample, n + 1⟩) := by
  obtain ⟨-, hnone, -⟩ | ⟨hsource, hsome, hencoded⟩ := h.holds
  · simp [hnone] at hinput
  · exact {
      run := h.run.snoc (.arrive sample n)
      holds := .inr ⟨hsource, hsome, hencoded⟩
      output := h.output
      read := by simp [Relay.taken, ← h.read]
      got := by simp [Relay.arrived, h.got, carried, hencoded, hv]
      acknowledged := by simp [Relay.acknowledged, h.acknowledged]
      discarded := by simp [Relay.discarded, ← h.discarded] }

theorem Relayed.acknowledge {sample : T} {n : Nat}
    (h : Relayed codec bridge x read acknowledged discarded got es (some ⟨sample, n + 1⟩)) :
    Relayed codec bridge { x with pendingInput := none, lastError := [] } read (acknowledged ++ x.pendingInput.toList)
      discarded got (es ++ [.acknowledged sample]) none := by
  obtain ⟨-, -, hzero⟩ | ⟨hsource, hsome, hencoded⟩ := h.holds
  · cases hzero
  · obtain ⟨encoded, hinput⟩ := Option.isSome_iff_exists.1 hsome
    exact {
      run := h.run.snoc (.acknowledge sample n)
      holds := ⟨hsource, rfl⟩
      output := h.output
      read := by simp [Relay.taken, ← h.read]
      got := by simp [Relay.arrived, h.got]
      acknowledged := by simp [Relay.acknowledged, h.acknowledged, hencoded, hinput]
      discarded := by simp [Relay.discarded, ← h.discarded] }

/-- What is pending is discarded. -/
theorem Relayed.discard (h : Relayed codec bridge x read acknowledged discarded got es held) :
    ∃ es', Relayed codec bridge x.discardPendingState read acknowledged
      (discarded + if x.hasPendingState then 1 else 0) got es' none := by
  cases held with
  | none =>
      obtain ⟨hsource, hinput⟩ := h.holds
      refine ⟨es, ?_⟩
      have hpending : x.hasPendingState = false := by
        simp [RemotePortAdapter.hasPendingState, hsource, hinput, h.output]
      rw [hpending]
      exact h.congr hsource.symm hinput.symm h.output.symm
  | some held =>
      have hpending : x.hasPendingState = true := by
        obtain ⟨hsource, -, -⟩ | ⟨-, hsome, -⟩ := h.holds
        · simp [RemotePortAdapter.hasPendingState, hsource]
        · simp [RemotePortAdapter.hasPendingState, hsome]
      rw [hpending]
      exact ⟨es ++ [.discarded held.item], {
        run := h.run.snoc (.discard held.item held.arrivals)
        holds := ⟨rfl, rfl⟩
        output := rfl
        read := by simp [Relay.taken, ← h.read]
        got := by simp [Relay.arrived, h.got]
        acknowledged := by simp [Relay.acknowledged, h.acknowledged]
        discarded := by simp [Relay.discarded, ← h.discarded] }⟩

end Moves

/-! ## Pumps of input ports -/

section Pump

variable {T X : Type} {codec : Methods T X} {bridge : Option (PortBridge T X)} {x : RemotePortAdapter T X} {read : List T}
  {acknowledged : List X} {discarded : Nat} {got : List T} {es : List (Relay.Event T)} {held : Option (Relay.Held T)}

theorem Relayed.takeInput (h : Relayed codec bridge x read acknowledged discarded got es held) (input : LocalRead T) :
    ∃ es' held', Relayed codec bridge (x.takeInput input).1 (read ++ (x.reads input).toList) acknowledged discarded got
      es' held' ∧ ((x.takeInput input).2 = true → held'.isSome = true) := by
  cases held with
  | some held =>
      have hpending : x.pendingInputSource.isSome = true ∨ x.pendingInput.isSome = true := by
        obtain ⟨hsource, -, -⟩ | ⟨-, hsome, -⟩ := h.holds
        · exact .inl (by rw [hsource]; rfl)
        · exact .inr hsome
      refine ⟨es, some held, ?_, fun _ => rfl⟩
      simpa [RemotePortAdapter.takeInput, RemotePortAdapter.reads, if_pos hpending] using h
  | none =>
      have hnot : ¬ (x.pendingInputSource.isSome = true ∨ x.pendingInput.isSome = true) := by
        simp [h.holds.1, h.holds.2]
      simp only [RemotePortAdapter.takeInput, RemotePortAdapter.reads, if_neg hnot]
      cases input with
      | newData sample => exact ⟨_, _, h.take sample, fun _ => rfl⟩
      | threw what =>
          refine ⟨es, none, ?_, fun hgo => by cases hgo⟩
          simp only [LocalRead.sample, Option.toList_none, List.append_nil]
          exact h.congr rfl rfl rfl
      | notConnected | noValue | noData =>
          exact ⟨es, none, by simpa [LocalRead.sample] using h, fun hgo => by cases hgo⟩

theorem Relayed.encodeInput (h : Relayed codec bridge x read acknowledged discarded got es held)
    (hheld : held.isSome = true) :
    Relayed codec bridge (x.encodeInput codec).1 read acknowledged discarded got es held ∧
      ((x.encodeInput codec).2 = true → (x.encodeInput codec).1.pendingInput.isSome = true) := by
  obtain ⟨⟨sample, n⟩, rfl⟩ := Option.isSome_iff_exists.1 hheld
  obtain ⟨hsource, hinput, -⟩ | ⟨-, hsome, -⟩ := h.holds
  · have hnot : ¬ x.pendingInput.isSome = true := by simp [hinput]
    simp only [RemotePortAdapter.encodeInput, if_neg hnot, hsource]
    cases hencoded : codec.toVariant (some sample) with
    | none => exact ⟨h.congr rfl rfl rfl, fun hgo => by cases hgo⟩
    | some encoded => exact ⟨h.encode hencoded, fun _ => rfl⟩
  · simp only [RemotePortAdapter.encodeInput, if_pos hsome]
    exact ⟨h, fun _ => hsome⟩

/-- Before the request of a pump. -/
theorem Relayed.prepareInput (h : Relayed codec bridge x read acknowledged discarded got es held)
    (input : LocalRead T) :
    ∃ es' held', Relayed codec bridge (x.prepareInput codec input).1 (read ++ (x.reads input).toList) acknowledged
      discarded got es' held' ∧ ((x.prepareInput codec input).2 = true →
        held'.isSome = true ∧ (x.prepareInput codec input).1.pendingInput.isSome = true) := by
  obtain ⟨es', held', htaken, hgo⟩ := h.takeInput input
  unfold RemotePortAdapter.prepareInput
  split
  case h_1 y hy =>
    rw [hy] at htaken
    exact ⟨es', held', htaken, fun hfalse => by cases hfalse⟩
  case h_2 y hy =>
    rw [hy] at htaken hgo
    obtain ⟨hencoded, hsome⟩ := htaken.encodeInput (hgo rfl)
    exact ⟨es', held', hencoded, fun htrue => ⟨hgo rfl, hsome htrue⟩⟩

/-- A write of a value node: the sample that comes in is what the value decodes to, and without one it is not good. -/
theorem InputPort.write_cases {T X : Type} (port : InputPort T X) (client : Option Nat) (range : Bool) (value : Option X)
    (lease : Bool) (answer : PortWrite) :
    ∃ sample : Option T,
      (port.write client range value lease answer).1.received =
        port.received ++ sample.toList.map (client, ·) ∧
      (∀ v, sample = some v → value.bind (decodedBy port.node.bridge) = some v) ∧
      ((port.write client range value lease answer).2 = .Good → sample.isSome = true) ∧
      (port.write client range value lease answer).1.node.bridge = port.node.bridge ∧
      ((port.write client range value lease answer).1.node.lastValue = port.node.lastValue ∨
        (port.write client range value lease answer).1.node.lastValue = value ∧ sample.isSome = true) := by
  refine ⟨_, rfl, ?_⟩
  simp only [InputPort.write, InputPortValueDataSource.write]
  split
  case isTrue => simp
  case isFalse =>
    cases value with
    | none => simp
    | some value =>
        cases hbridge : port.node.bridge with
        | none => cases lease <;> simp [hbridge]
        | some bridge =>
            cases lease with
            | false => simp [hbridge]
            | true =>
                simp only [PortBridge.write]
                split
                case isTrue => simp [hbridge]
                case isFalse =>
                  cases hdecoded : bridge.codec.bind fun codec => codec.makeDataSource value with
                  | none => simp [hbridge]
                  | some v =>
                      cases answer with
                      | WriteSuccess => simp [PortWrite.arrives, decodedBy, hdecoded]
                      | WriteFailure | NotConnected => simp [PortWrite.arrives, hbridge]
                      | threw arrives what => cases arrives <;> simp [PortWrite.arrives, decodedBy, hdecoded, hbridge]

/-- The write request of a client: it reaches the node or not, and is good only if the node has taken the value. -/
theorem writeWire_cases {T X : Type} (statusName : PortStatus → Str) (client : Nat) (lease : Bool) (answer : PortWrite)
    (delivery : Delivery) (encoded : X) (port : InputPort T X) :
    let served := port.write (some client) false (some encoded) lease answer
    let sent := writeWire statusName client lease answer delivery encoded port
    (sent.2 = port ∨ sent.2 = served.1) ∧ (sent.1 = .good () → sent.2 = served.1 ∧ served.2 = .Good) := by
  intro served sent
  cases delivery with
  | requestLost lost => exact ⟨.inl rfl, fun hgood => by cases lost <;> cases hgood⟩
  | answerLost lost => exact ⟨.inr rfl, fun hgood => by cases lost <;> cases hgood⟩
  | answered isConnected =>
      refine ⟨.inr rfl, fun hgood => ⟨rfl, ?_⟩⟩
      by_contra hbad
      have hsent : sent.1 = .bad served.2.code (statusName served.2) isConnected := by
        simp only [sent, writeWire, Delivery.response, served] at hbad ⊢
        rw [if_neg hbad]
        rfl
      cases hsent.symm.trans hgood

/-- What a request of a client leaves at the port: at most one more sample, of this client. -/
structure Arrives {T X : Type} (port port' : InputPort T X) (client : Option Nat) (x : Option X) (sample : Option T) :
    Prop where
  received : port'.received = port.received ++ sample.toList.map (client, ·)
  decoded : ∀ v, sample = some v → x.bind (decodedBy port.node.bridge) = some v
  bridge : port'.node.bridge = port.node.bridge
  kept : port'.node.lastValue = port.node.lastValue ∨ port'.node.lastValue = x ∧ sample.isSome = true

theorem Arrives.write {T X : Type} (port : InputPort T X) (client : Option Nat) (range : Bool) (value : Option X)
    (lease : Bool) (answer : PortWrite) :
    ∃ sample, Arrives port (port.write client range value lease answer).1 client value sample ∧
      ((port.write client range value lease answer).2 = .Good → sample.isSome = true) := by
  obtain ⟨sample, hreceived, hdecoded, hgood, hbridge, hkept⟩ := port.write_cases client range value lease answer
  exact ⟨sample, ⟨hreceived, hdecoded, hbridge, hkept⟩, hgood⟩

theorem Arrives.refl {T X : Type} (port : InputPort T X) (client : Option Nat) (x : Option X) :
    Arrives port port client x none :=
  ⟨by simp, fun v hv => (by cases hv), rfl, .inl rfl⟩

theorem Arrives.receivedFrom {T X : Type} {port port' : InputPort T X} {client : Option Nat} {x : Option X}
    {sample : Option T} (h : Arrives port port' client x sample) (i : Nat) :
    port'.receivedFrom i = port.receivedFrom i ++ if client = some i then sample.toList else [] := by
  simp only [InputPort.receivedFrom, h.received, List.filterMap_append]
  cases sample with
  | none => simp
  | some v => by_cases hclient : client = some i <;> simp [hclient]

/-- The request of a pump: it is acknowledged only if its sample came in. -/
theorem Relayed.sendInput {port : InputPort T X} {i : Nat}
    (h : Relayed codec port.node.bridge x read acknowledged discarded (port.receivedFrom i) es held)
    (hheld : held.isSome = true) (hinput : x.pendingInput.isSome = true) (session : ClientSession)
    (statusName : PortStatus → Str) (lease : Bool) (answer : PortWrite) (delivery : Delivery) :
    let sent := x.sendInput session (writeWire statusName i lease answer delivery) port
    ∃ sample es' held', Arrives port sent.2.2 (some i) x.pendingInput sample ∧
      Relayed codec port.node.bridge sent.1 read
        (acknowledged ++ if sent.1.pendingInput.isNone then x.pendingInput.toList else []) discarded
        (port.receivedFrom i ++ sample.toList) es' held' := by
  intro sent
  obtain ⟨encoded, hencoded⟩ := Option.isSome_iff_exists.1 hinput
  obtain ⟨⟨item, n⟩, rfl⟩ := Option.isSome_iff_exists.1 hheld
  obtain ⟨hfar, hgood⟩ := writeWire_cases statusName i lease answer delivery encoded port
  obtain ⟨sample, harrives, hsample⟩ := Arrives.write port (some i) false (some encoded) lease answer
  have hperform := session.perform_cases .writePortValue (writeWire statusName i lease answer delivery encoded) port
  -- The sample comes in, or nothing does.
  have harrive : ∀ v, sample = some v →
      Relayed codec port.node.bridge x read acknowledged discarded (port.receivedFrom i ++ [v])
        (es ++ [.arrived item]) (some ⟨item, n + 1⟩) := by
    intro v hv
    exact h.arrive hinput (by rw [hencoded]; exact harrives.decoded v hv)
  simp only [sent, RemotePortAdapter.sendInput, hencoded, ClientSession.writePortValue]
  cases hresult : session.perform .writePortValue (writeWire statusName i lease answer delivery encoded) port with
  | mk result rest =>
      rw [hresult] at hperform
      cases result with
      | value a =>
          obtain ⟨⟨error, herror⟩, -⟩ | ⟨hanswer, hport⟩ := hperform
          · cases herror
          · obtain ⟨hserved, hstatus⟩ := hgood (ClientSession.answer_eq_value.1 hanswer.symm)
            obtain ⟨v, rfl⟩ := Option.isSome_iff_exists.1 (hsample hstatus)
            have hleft := (harrive v rfl).acknowledge
            rw [hencoded] at hleft
            rw [← hserved, ← hport] at harrives
            exact ⟨some v, _, none, harrives, by simpa using hleft⟩
      | waiting | failed error =>
          have hkept : ∀ s es' held', Relayed codec port.node.bridge x read acknowledged discarded
              (port.receivedFrom i ++ s) es' held' →
              Relayed codec port.node.bridge (x.setError rest.1.lastError) read
                (acknowledged ++ if (x.setError rest.1.lastError).pendingInput.isNone then [encoded] else []) discarded
                (port.receivedFrom i ++ s) es' held' := by
            intro s es' held' hrelayed
            have hsome : (x.setError rest.1.lastError).pendingInput = some encoded := hencoded
            simp only [hsome, Option.isNone_some, Bool.false_eq_true, if_false, List.append_nil]
            exact hrelayed.congr rfl rfl rfl
          have hport : rest.2 = port ∨ rest.2 = (port.write (some i) false (some encoded) lease answer).1 := by
            obtain ⟨-, hsame⟩ | ⟨-, hsame⟩ := hperform
            · exact .inl hsame
            · rw [hsame]
              exact hfar
          obtain hsame | hsame := hport
          · refine ⟨none, es, some ⟨item, n⟩, ?_, hkept _ _ _ (by simpa using h)⟩
            rw [hsame]
            exact .refl port _ _
          · rw [← hsame] at harrives
            cases sample with
            | none => exact ⟨none, es, some ⟨item, n⟩, harrives, hkept _ _ _ (by simpa using h)⟩
            | some v => exact ⟨some v, _, _, harrives, hkept _ _ _ (harrive v rfl)⟩

theorem RemotePortAdapter.pumpInput_eq {σ : Type} (x : RemotePortAdapter T X) (input : LocalRead T)
    (session : ClientSession) (wire : X → σ → Response Unit × σ) (far : σ) :
    x.pumpInput codec input session wire far =
      if (x.prepareInput codec input).2 then (x.prepareInput codec input).1.sendInput session wire far
      else ((x.prepareInput codec input).1, session, far) := by
  unfold pumpInput
  cases x.prepareInput codec input with
  | mk ready go => cases go <;> rfl

/-- A pump of a client. -/
theorem Relayed.pump {port : InputPort T X} {i : Nat} {c : InputClient T X}
    (h : Relayed codec port.node.bridge c.adapter c.read c.acknowledged c.discarded (port.receivedFrom i) es held)
    (input : LocalRead T) (statusName : PortStatus → Str) (lease : Bool) (answer : PortWrite) (delivery : Delivery) :
    let pumped := c.pump codec input (writeWire statusName i lease answer delivery) port
    ∃ x sample es' held', Arrives port pumped.2 (some i) x sample ∧
      Relayed codec port.node.bridge pumped.1.adapter pumped.1.read pumped.1.acknowledged pumped.1.discarded
        (port.receivedFrom i ++ sample.toList) es' held' := by
  intro pumped
  obtain ⟨es', held', hready, hgo⟩ := h.prepareInput input
  simp only [pumped, InputClient.pump, c.adapter.pumpInput_eq]
  by_cases hrequest : (c.adapter.prepareInput codec input).2 = true
  · obtain ⟨hheld, hinput⟩ := hgo hrequest
    obtain ⟨sample, es'', held'', harrives, hsent⟩ :=
      hready.sendInput hheld hinput c.session statusName lease answer delivery
    simp only [hrequest, if_true, true_and]
    exact ⟨_, sample, es'', held'', harrives, hsent⟩
  · simp only [hrequest, if_false, Bool.false_eq_true, false_and, List.append_nil]
    exact ⟨none, none, es', held', .refl port _ _, by simpa using hready⟩

end Pump

/-! ## Runs of input ports -/

section Runs

variable {T X : Type} {codec : Methods T X} {bridge : Option (PortBridge T X)} {s : InputSystem T X}

/-- Every client is a relay, and the node keeps a value that came in. -/
structure InputSystem.Relays (codec : Methods T X) (bridge : Option (PortBridge T X)) (s : InputSystem T X) : Prop where
  same : s.port.node.bridge = bridge
  client : ∀ i, ∃ es held, Relayed codec bridge (s.client i).adapter (s.client i).read (s.client i).acknowledged
    (s.client i).discarded (s.port.receivedFrom i) es held
  kept : ∀ x, s.port.node.lastValue = some x → ∃ e ∈ s.port.received, decodedBy bridge x = some e.2

/-- A request of one client, which may have changed. -/
theorem InputSystem.Relays.arrives (h : s.Relays codec bridge) {port : InputPort T X} {client : Option Nat}
    {x : Option X} {sample : Option T} (harrives : Arrives s.port port client x sample)
    {clients : Nat → InputClient T X} (hothers : ∀ i, client ≠ some i → clients i = s.client i)
    (hclient : ∀ i, client = some i → ∃ es held, Relayed codec bridge (clients i).adapter (clients i).read
      (clients i).acknowledged (clients i).discarded (s.port.receivedFrom i ++ sample.toList) es held) :
    (InputSystem.mk port clients).Relays codec bridge where
  same := harrives.bridge.trans h.same
  client i := by
    simp only [harrives.receivedFrom i]
    by_cases hi : client = some i
    · rw [if_pos hi]
      exact hclient i hi
    · rw [if_neg hi, List.append_nil, hothers i hi]
      exact h.client i
  kept y hy := by
    obtain hsame | ⟨hx, hsome⟩ := harrives.kept
    · obtain ⟨e, he, hdecoded⟩ := h.kept y (hsame.symm.trans hy)
      exact ⟨e, by rw [harrives.received]; exact List.mem_append_left _ he, hdecoded⟩
    · obtain ⟨v, rfl⟩ := Option.isSome_iff_exists.1 hsome
      refine ⟨(client, v), by simp [harrives.received], ?_⟩
      have hv := harrives.decoded v rfl
      rwa [← hx, show port.node.lastValue = some y from hy, h.same] at hv

/-- A client changes, and the port does not. -/
theorem InputSystem.Relays.update (h : s.Relays codec bridge) (i : Nat) {c : InputClient T X}
    (hc : ∃ es held, Relayed codec bridge c.adapter c.read c.acknowledged c.discarded (s.port.receivedFrom i) es held) :
    ({ s with client := Function.update s.client i c } : InputSystem T X).Relays codec bridge where
  same := h.same
  client j := by
    by_cases hj : j = i
    · subst hj
      simpa using hc
    · simpa [hj] using h.client j
  kept := h.kept

theorem InputSystem.Relays.step (h : s.Relays codec bridge) (statusName : PortStatus → Str) (action : InputAction T X) :
    (s.step codec statusName action).Relays codec bridge := by
  cases action with
  | pump i input lease answer delivery =>
      obtain ⟨es, held, hrelayed⟩ := h.client i
      rw [← h.same] at hrelayed
      obtain ⟨x, sample, es', held', harrives, hpumped⟩ := hrelayed.pump input statusName lease answer delivery
      refine h.arrives harrives (fun j hj => ?_) fun j hj => ?_
      · exact Function.update_of_ne (fun heq => hj (congrArg some heq.symm)) _ _
      · obtain rfl := Option.some.inj hj
        rw [h.same] at hpumped
        exact ⟨es', held', by simpa using hpumped⟩
  | write range value lease answer =>
      obtain ⟨sample, harrives, -⟩ := Arrives.write s.port none range value lease answer
      exact h.arrives harrives (fun _ _ => rfl) fun i hi => by cases hi
  | session i session =>
      exact h.update i (h.client i)
  | replace i =>
      obtain ⟨es, held, hrelayed⟩ := h.client i
      refine h.update i ⟨es, held, hrelayed.congr ?_ ?_ ?_⟩
      all_goals simp [RemotePortAdapter.replaced, RemotePortAdapter.transferPendingStateTo,
        RemotePortAdapter.hasSameIdentity]
  | discard i =>
      obtain ⟨es, held, hrelayed⟩ := h.client i
      obtain ⟨es', hdiscarded⟩ := hrelayed.discard
      exact h.update i ⟨es', none, hdiscarded⟩

theorem InputSystem.Relays.run (h : s.Relays codec bridge) (statusName : PortStatus → Str)
    (actions : List (InputAction T X)) : (s.run codec statusName actions).Relays codec bridge := by
  induction actions generalizing s with
  | nil => exact h
  | cons action actions ih => exact ih (h.step statusName action)

theorem InputSystem.Relays.initial (codec : Methods T X) (bridge : Option (PortBridge T X))
    (descriptions : Nat → Proxy.PortDescription) (sessions : Nat → ClientSession) :
    (InputSystem.initial bridge descriptions sessions).Relays codec bridge where
  same := rfl
  client _ := ⟨[], none, .nil, ⟨rfl, rfl⟩, rfl, rfl, rfl, rfl, rfl⟩
  kept x hx := by cases hx

/-- A request that is answered by a node whose port takes the sample. -/
theorem RemotePortAdapter.sendInput_answered {x : RemotePortAdapter T X} {session : ClientSession} (hopen : session.Open)
    (statusName : PortStatus → Str) (i : Nat) (isConnected : Bool) {encoded : X} (hencoded : x.pendingInput = some encoded)
    {port : InputPort T X} {b : PortBridge T X} (hbridge : port.node.bridge = some b) (houtput : b.output = true) {w : T}
    (hw : decodedBy port.node.bridge encoded = some w) :
    let sent := x.sendInput session (writeWire statusName i true .WriteSuccess (.answered isConnected)) port
    sent.1 = { x with pendingInput := none, lastError := [] } ∧ sent.2.2.received = port.received ++ [(some i, w)] := by
  intro sent
  have hdecoded : b.codec.bind (fun codec => codec.makeDataSource encoded) = some w := by
    simpa [decodedBy, hbridge] using hw
  have hwritten : port.write (some i) false (some encoded) true .WriteSuccess =
      ({ node := { port.node with lastValue := some encoded }, received := port.received ++ [(some i, w)] }, .Good) := by
    simp [InputPort.write, InputPortValueDataSource.write, hbridge, PortBridge.write, houtput, hdecoded, PortWrite.arrives]
  simp only [sent, sendInput, hencoded, ClientSession.writePortValue, hopen.perform, ClientSession.send, writeWire,
    Delivery.response, hwritten, if_true]
  exact ⟨rfl, rfl⟩

/-- The sample that the next pump sends: the pending one, or a new one. -/
def InputClient.Sends (c : InputClient T X) (input : LocalRead T) (sample : T) : Prop :=
  c.adapter.hasPendingState = true ∧ c.read.getLast? = some sample ∨
    c.adapter.hasPendingState = false ∧ input = .newData sample

theorem Relayed.sends {port : InputPort T X} {i : Nat} {c : InputClient T X} {es : List (Relay.Event T)}
    {held : Option (Relay.Held T)}
    (h : Relayed codec bridge c.adapter c.read c.acknowledged c.discarded (port.receivedFrom i) es held)
    {input : LocalRead T} {sample : T} (hsends : c.Sends input sample) {encoded : X}
    (hencoded : codec.toVariant (some sample) = some encoded) :
    (c.adapter.prepareInput codec input).2 = true ∧
      (c.adapter.prepareInput codec input).1.pendingInput = some encoded ∧
      (c.adapter.prepareInput codec input).1.pendingInputSource = none := by
  cases held with
  | none =>
      obtain ⟨hsource, hinput⟩ := h.holds
      obtain ⟨hpending, -⟩ | ⟨-, rfl⟩ := hsends
      · simp [RemotePortAdapter.hasPendingState, hsource, hinput, h.output] at hpending
      · simp [RemotePortAdapter.prepareInput, RemotePortAdapter.takeInput, hsource, hinput,
          RemotePortAdapter.encodeInput, hencoded]
  | some held =>
      have hlast : c.read.getLast? = some held.item := by
        obtain ⟨old, htold⟩ := h.run.told
        rw [← h.read, htold.taken]
        simp
      obtain ⟨hsource, hinput, -⟩ | ⟨hsource, hsome, hheld⟩ := h.holds
      · obtain ⟨-, hread⟩ | ⟨hpending, -⟩ := hsends
        · obtain rfl := Option.some.inj (hlast.symm.trans hread)
          simp [RemotePortAdapter.prepareInput, RemotePortAdapter.takeInput, hsource, hinput,
            RemotePortAdapter.encodeInput, hencoded]
        · simp [RemotePortAdapter.hasPendingState, hsource] at hpending
      · obtain ⟨-, hread⟩ | ⟨hpending, -⟩ := hsends
        · obtain rfl := Option.some.inj (hlast.symm.trans hread)
          rw [hencoded] at hheld
          simp [RemotePortAdapter.prepareInput, RemotePortAdapter.takeInput, hsource, ← hheld,
            RemotePortAdapter.encodeInput]
        · simp [RemotePortAdapter.hasPendingState, hsome] at hpending

end Runs

/-- The samples of a mirrored input port come in at the port of the component in the order in which they were read, each
of them any number of times in a row; one that was acknowledged came in at least once, and one that did not was
discarded with the interface or is still pending. What a client reads of the node has come in. A pump that is answered
by a port that takes the sample delivers it. -/
theorem input_samples_at_least_once {T X : Type} (codec : Methods T X) (bridge : Option (PortBridge T X))
    (descriptions : Nat → Proxy.PortDescription) (sessions : Nat → ClientSession) (statusName : PortStatus → Str)
    (actions : List (InputAction T X)) :
    let s := (InputSystem.initial bridge descriptions sessions).run codec statusName actions
    (∀ i, ∃ (old : List (Relay.Fate T)) (held : Option (Relay.Held T)),
      let fates := old ++ held.toList.map Relay.Held.fate
      (s.client i).read = fates.map Relay.Fate.item ∧
      (s.port.receivedFrom i).map some = (fates.flatMap Relay.Fate.copies).map (carried codec bridge) ∧
      (s.client i).acknowledged.map some =
        (Relay.having .acknowledged old).map (fun sample => codec.toVariant (some sample)) ∧
      (s.client i).discarded = (Relay.having .discarded old).length ∧
      (∀ fate ∈ old, fate.outcome ≠ .held) ∧ held.isSome = (s.client i).adapter.hasPendingState) ∧
    (∀ range lease x, s.port.node.read range lease = .ok x → ∃ e ∈ s.port.received, decodedBy bridge x = some e.2) ∧
    ∀ i input sample v b isConnected, (s.client i).session.Open → (s.client i).Sends input sample →
      carried codec bridge sample = some v → bridge = some b → b.output = true →
      let s' := s.step codec statusName (.pump i input true .WriteSuccess (.answered isConnected))
      s'.port.receivedFrom i = s.port.receivedFrom i ++ [v] ∧ (s'.client i).adapter.hasPendingState = false := by
  intro s
  have hrelays : s.Relays codec bridge :=
    (InputSystem.Relays.initial codec bridge descriptions sessions).run statusName actions
  refine ⟨fun i => ?_, fun range lease x hx => ?_, fun i input sample v b isConnected hopen hsends hv hbridge houtput => ?_⟩
  · obtain ⟨es, held, h⟩ := hrelays.client i
    obtain ⟨old, told⟩ := h.run.told
    refine ⟨old, held, ?_, ?_, ?_, ?_, told.settled, ?_⟩
    · rw [← h.read, told.taken, List.map_append, List.map_map]
      rfl
    · rw [h.got, told.arrived, List.flatMap_append, List.flatMap_map]
      rfl
    · rw [h.acknowledged, told.acknowledged]
    · rw [← h.discarded, told.discarded]
    · cases held with
      | none => simp [RemotePortAdapter.hasPendingState, h.holds.1, h.holds.2, h.output]
      | some held =>
          obtain ⟨hsource, -, -⟩ | ⟨-, hsome, -⟩ := h.holds
          · simp [RemotePortAdapter.hasPendingState, hsource]
          · simp [RemotePortAdapter.hasPendingState, hsome]
  · refine hrelays.kept x ?_
    simp only [InputPortValueDataSource.read] at hx
    split at hx
    · cases hx
    · split at hx
      · cases hx
      · split at hx
        · cases hx
        · obtain rfl := Except.ok.inj hx
          assumption
  · intro s'
    obtain ⟨es, held, h⟩ := hrelays.client i
    obtain ⟨encoded, hencoded, hdecoded⟩ := Option.bind_eq_some_iff.1 hv
    obtain ⟨hrequest, hinput, hsource⟩ := h.sends hsends hencoded
    rw [← hrelays.same] at hdecoded hbridge
    obtain ⟨hadapter, hreceived⟩ := RemotePortAdapter.sendInput_answered hopen statusName i isConnected hinput hbridge
      houtput hdecoded
    obtain ⟨_, _, hready, -⟩ := h.prepareInput input
    simp only [s', InputSystem.step, InputClient.pump, RemotePortAdapter.pumpInput_eq, hrequest, if_true,
      Function.update_self]
    constructor
    · simp [InputPort.receivedFrom, hreceived]
    · simp [hadapter, RemotePortAdapter.hasPendingState, hsource, hready.output]

/-- The answer to 5 is lost, so it is delivered twice, and then 7 is delivered. -/
theorem input_samples_at_least_once_int32 :
    let codec := CanonicalType.int32.methods ⟨true, 0, none⟩
    let statusName : PortStatus → Str := fun _ => []
    let pump : LocalRead CanonicalType.int32.Value → Delivery → InputAction CanonicalType.int32.Value (Variant WireValue) :=
      fun input => .pump 0 input true .WriteSuccess
    let s := (InputSystem.initial (some ⟨true, some codec⟩) (fun _ => ⟨[], [], [], .input⟩)
      fun _ => ⟨true, true, .connected, []⟩).run codec statusName
        [pump (.newData 5) (.answerLost (.bad (.other 0) [] true)), pump .noData (.answered true)]
    s.port.receivedFrom 0 = [5, 5] ∧
      (s.step codec statusName (pump (.newData 7) (.answered true))).port.receivedFrom 0 = [5, 5, 7] := by
  intro codec statusName pump s
  obtain ⟨-, -, hpump⟩ := input_samples_at_least_once codec (some ⟨true, some codec⟩) (fun _ => ⟨[], [], [], .input⟩)
    (fun _ => ⟨true, true, .connected, []⟩) statusName
    [pump (.newData 5) (.answerLost (.bad (.other 0) [] true)), pump .noData (.answered true)]
  have hreceived : s.port.receivedFrom 0 = [5, 5] := by decide +kernel
  obtain ⟨hnext, -⟩ := hpump 0 (.newData 7) 7 7 ⟨true, some codec⟩ true
    ⟨by decide +kernel, by decide +kernel, by decide +kernel⟩ (.inr ⟨by decide +kernel, rfl⟩) (by decide +kernel) rfl rfl
  exact ⟨hreceived, hnext.trans (congrArg (· ++ [7]) hreceived)⟩

end RttOpcua.Remote
