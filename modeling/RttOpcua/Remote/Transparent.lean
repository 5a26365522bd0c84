import RttOpcua.Dispatch.Theorems
import RttOpcua.Remote.Access
import RttOpcua.Remote.Theorems

/-!
# Remote calls from end to end

The way of a call from the data sources of an application, through the mirror of an operation, the session and the
method node, to the operation of the component, and back.
-/

namespace RttOpcua.Remote

open RttOpcua.Lib RttOpcua.Model RttOpcua.Values RttOpcua.Dispatch

/-! ## The component -/

/-- An operation of a component with the state `σ` that its body reads and changes. -/
structure Component (σ V : Type) where
  operation : Operation
  references : List Nat
  body : σ → List V → Completion V × σ

/-- What RTT runs in a state. -/
def Component.callable {σ V : Type} (component : Component σ V) (s : σ) : Callable V where
  operation := component.operation
  references := component.references
  body arguments := (component.body s arguments).1

/-! ## The method node -/

/-- What the callback of a method node finds: whether the component is there, the local operation that was published,
the one that the service has now, and what `invoke` finds then. -/
structure MethodNode where
  alive : Bool := true
  expectedOperation : Option Nat
  currentOperation : Option (Option Nat)
  sends : Bool
  leased : Bool := true
  timeout : Int
  deriving DecidableEq, Repr

/-- The codes that the session does not tell apart. -/
def statusOf : Dispatch.StatusCode → Proxy.StatusCode
  | .BadNotConnected => .notConnected
  | .BadInvalidArgument => .invalidArgument
  | .BadTimeout => .timeout
  | .BadConfigurationError => .other 0x80890000
  | .BadInternalError => .other 0x80020000
  | .BadNotSupported => .other 0x803D0000
  | .BadResourceUnavailable => .other 0x80040000
  | .BadUnexpectedError => .other 0x80010000
  | .Good => .other 0

section Serve

variable {σ V X : Type} (registry : ValueRegistry V X) (fresh : Nat → V) (component : Component σ V)
  (node : MethodNode)

/-- The callback of the node. -/
def methodCallback (callable : Callable V) (inputs : List X) (outputs : Nat) : Invocation X :=
  if ¬ node.alive ∨ node.expectedOperation = none ∨ node.currentOperation ≠ some node.expectedOperation then
    { status := .BadNotConnected }
  else invoke registry fresh callable node.sends node.leased node.timeout inputs outputs

/-- A call that arrives: open62541 gives the callback one place for each output argument. -/
def serve (inputs : List X) (s : σ) : Invocation X × σ :=
  let invocation := methodCallback registry fresh node (component.callable s) inputs
    (describe registry.toTypeRegistry component.operation).outputs.length
  match invocation.started, makeInputs registry component.operation.types inputs with
  | true, some values => (invocation, (component.body s (values.map Value.value)).2)
  | _, _ => (invocation, s)

/-- `services::call` of the client, for a server whose status codes have these names. -/
def callWire (statusName : Dispatch.StatusCode → Str) (delivery : Delivery) (inputs : List X) (s : σ) :
    Response (List X) × σ :=
  delivery.response (fun s =>
    let served := serve registry fresh component node inputs s
    (fun isConnected =>
      match served.1.status with
      | .Good => .good served.1.outputs
      | status => .bad (statusOf status) (statusName status) isConnected,
    served.2)) s

end Serve

/-! ## Calls -/

section Calls

variable {σ V X : Type}

/-- The data source of the return value. -/
def returnSlot (remote : RemoteOperation) (slot : Nat) : Source := ⟨slot, remote.returnType, true⟩

/-- An application calls a remote operation: `produce`, and then `readArguments` and `execute` of the action. -/
def remoteCall (client : ValueRegistry V X) (remote : RemoteOperation) (session : ClientSession)
    (wire : List X → σ → Response (List X) × σ) (arguments : List (Option Source)) (slot : Nat) (memory : Memory V)
    (s : σ) : Except ProduceError ((Memory V × Bool) × σ) := do
  let action ← RemoteOperation.produce client remote arguments slot
  let action := action.readArguments client memory
  match action.prepared with
  | none => .ok (action.execute client {} memory, s)
  | some inputs =>
      let called := session.callLocked true (wire inputs) s
      .ok (action.execute client called.1 memory, called.2.2)

/-- Where the results of a call go: the return value, if there is one, and the reference arguments. -/
def resultDestinations (component : Component σ V) (returnValue : Option Source) (arguments : List (Option Source)) :
    List (Option Source) :=
  returnValue.toList.map some ++ component.references.map fun i => (arguments[i]?).join

/-- The values of data sources, each with its type. -/
def readSources (convert : Nat → V → Option V) (memory : Memory V) (types : List (Option Nat))
    (arguments : List (Option Source)) : Option (List V) :=
  (types.zip arguments).mapM fun e => do
    let type ← e.1
    let source ← e.2
    convert type (memory.value source.id)

/-- RTT calls an operation with data sources: the body runs on their values, and what it returns is set in them. The
values go there and back through `convert`; one that does not come through fails the call. -/
def callWith (convert : Nat → V → Option V) (component : Component σ V) (returnValue : Option Source)
    (arguments : List (Option Source)) (memory : Memory V) (s : σ) : (Memory V × Bool) × σ :=
  match readSources convert memory component.operation.types arguments with
  | none => ((memory, false), s)
  | some values =>
      match component.body s values with
      | (.returned result finals, s') =>
          match (results (component.callable s) result finals).mapM fun v => convert v.typeInfo v.value with
          | none => ((memory, false), s')
          | some stored =>
              ((memory.setAll ((resultDestinations component returnValue arguments).zip stored), true), s')
      | (_, s') => ((memory, false), s')

/-- A call in the component's own process, with data sources that store what is set in them: RTT writes through a
reference to a writable proxy, which then keeps what its writer refuses. -/
def localCall (component : Component σ V) (returnValue : Option Source) (arguments : List (Option Source))
    (memory : Memory V) (s : σ) : (Memory V × Bool) × σ :=
  callWith (fun _ v => some v) component returnValue arguments memory s

/-- The way of a value to the other side. -/
def trip (registry : ValueRegistry V X) (type : Nat) (v : V) : Option V := do
  let codec ← registry.codecForTypeInfo type
  let x ← codec.toVariant v
  codec.fromVariant x

/-- The two ends have the same codecs: types of the same name convert the same values, and what is encoded can be
decoded. A registry finds the codec of a type by the type and by its name. -/
structure Converts (registry client : ValueRegistry V X) : Prop where
  agrees : Agrees registry.toTypeRegistry client.toTypeRegistry
  codecs : ∀ t t' codec codec', registry.codecForTypeInfo t = some codec → client.codecForTypeInfo t' = some codec' →
    client.getTypeName t' = registry.getTypeName t →
    codec'.toVariant = codec.toVariant ∧ codec'.fromVariant = codec.fromVariant
  decodes : ∀ t codec v x, registry.codecForTypeInfo t = some codec → codec.toVariant v = some x →
    (codec.fromVariant x).isSome = true
  typeInfo : ∀ t codec, registry.codecForTypeInfo t = some codec → codec.typeInfo = t
  clientTypeInfo : ∀ t codec, client.codecForTypeInfo t = some codec → codec.typeInfo = t
  names : ∀ t codec, client.codecForTypeInfo t = some codec → client.codecForTypeName (client.getTypeName t) = some codec

end Calls

/-! ## Values on their way -/

section Trips

variable {σ V X : Type} {registry client : ValueRegistry V X}

def encode (registry : ValueRegistry V X) (type : Nat) (v : V) : Option X :=
  (registry.codecForTypeInfo type).bind fun codec => codec.toVariant v

def decode (registry : ValueRegistry V X) (type : Nat) (x : X) : Option V :=
  (registry.codecForTypeInfo type).bind fun codec => codec.fromVariant x

theorem trip_eq (type : Nat) (v : V) : trip registry type v = (encode registry type v).bind (decode registry type) := by
  simp only [trip, encode, Option.bind_eq_bind]
  cases hcodec : registry.codecForTypeInfo type with
  | none => rfl
  | some codec =>
      have hdecode : decode registry type = codec.fromVariant := by
        funext x
        simp [decode, hcodec]
      simp [hdecode]

/-- Twins have codecs that convert alike. -/
theorem Converts.codec_of_twin (h : Converts registry client) {t t' : Nat}
    (ht : Twin registry.toTypeRegistry client.toTypeRegistry t t') :
    ∃ codec codec', registry.codecForTypeInfo t = some codec ∧ client.codecForTypeInfo t' = some codec' ∧
      codec'.toVariant = codec.toVariant ∧ codec'.fromVariant = codec.fromVariant ∧
      client.getTypeName t' = registry.getTypeName t := by
  obtain ⟨_, hserver, hclient, -, hname⟩ := ht
  obtain ⟨codec, hcodec, -⟩ := Option.map_eq_some_iff.1 hserver
  obtain ⟨codec', hcodec', -⟩ := Option.map_eq_some_iff.1 hclient
  obtain ⟨hto, hfrom⟩ := h.codecs t t' codec codec' hcodec hcodec' hname
  exact ⟨codec, codec', hcodec, hcodec', hto, hfrom, hname⟩

/-- What the client encodes of an argument. -/
theorem encodeArguments_cons (h : Converts registry client) {t t' : Nat}
    (ht : Twin registry.toTypeRegistry client.toTypeRegistry t t') (memory : Memory V) {source : Source}
    (hsource : source.typeInfo = t') (rest : List (Option Source)) :
    encodeArguments client memory (some source :: rest) = (encode registry t (memory.value source.id)).bind fun x =>
      (encodeArguments client memory rest).map (x :: ·) := by
  obtain ⟨codec, codec', hcodec, hcodec', hto, -, -⟩ := h.codec_of_twin ht
  have htype : source.typeInfo = codec'.typeInfo := by rw [hsource, h.clientTypeInfo t' codec' hcodec']
  simp only [encodeArguments, codecForDataSource, encode, hcodec, Option.bind_eq_bind, Option.bind_some, hsource,
    hcodec', ← htype, if_true, hto]
  cases codec.toVariant (memory.value source.id) with
  | none => rfl
  | some x => cases encodeArguments client memory rest <;> rfl

/-- What the server makes of an input. -/
theorem makeInputs_cons {t : Nat} (types : List (Option Nat)) (x : X) (inputs : List X) :
    (makeInputs registry (some t :: types) (x :: inputs)).map (List.map Value.value) =
      (decode registry t x).bind fun v => ((makeInputs registry types inputs).map (List.map Value.value)).map (v :: ·) := by
  simp only [makeInputs, decode, Option.bind_eq_bind, Option.bind_some]
  cases registry.codecForTypeInfo t with
  | none => rfl
  | some codec =>
      simp only [Option.bind_some]
      cases codec.fromVariant x with
      | none => rfl
      | some v => cases makeInputs registry types inputs <;> rfl

/-- The data sources of an application, with the types of the arguments. -/
abbrev HasType (type : Nat) (argument : Option Source) : Prop :=
  ∃ source, argument = some source ∧ source.typeInfo = type

/-- The arguments arrive as they come through their codecs. -/
theorem readSources_trip (h : Converts registry client) (memory : Memory V) {ts ts' : List Nat}
    (hts : List.Forall₂ (Twin registry.toTypeRegistry client.toTypeRegistry) ts ts') :
    ∀ {arguments : List (Option Source)}, List.Forall₂ HasType ts' arguments →
      readSources (trip registry) memory (ts.map some) arguments =
        (encodeArguments client memory arguments).bind fun inputs =>
          (makeInputs registry (ts.map some) inputs).map (List.map Value.value) := by
  induction hts with
  | nil =>
      intro arguments harguments
      cases harguments
      rfl
  | @cons t t' ts ts' ht _ ih =>
      intro arguments harguments
      cases harguments with
      | cons hargument hrest =>
          obtain ⟨source, rfl, hsource⟩ := hargument
          have ih := ih hrest
          rw [encodeArguments_cons h ht memory hsource]
          simp only [readSources, List.map_cons, List.zip_cons_cons, List.mapM_cons, Option.bind_eq_bind,
            Option.bind_some, trip_eq] at ih ⊢
          cases encode registry t (memory.value source.id) with
          | none => rfl
          | some x =>
              simp only [Option.bind_some, Option.bind_map, Function.comp_def, makeInputs_cons, ih]
              cases encodeArguments client memory _ with
              | none => cases decode registry t x <;> rfl
              | some inputs =>
                  simp only [Option.bind_some]
                  cases decode registry t x with
                  | none => rfl
                  | some v => cases (makeInputs registry (ts.map some) inputs) <;> rfl

end Trips

/-! ## What `produce` has checked -/

section Produce

variable {V X : Type} {client : ValueRegistry V X} {remote : RemoteOperation}

theorem validateArgumentTypes_hasType (pairs : List (Option Source × Nat)) : ∀ {index : Nat},
    RemoteOperation.validateArgumentTypes client remote index pairs = .ok () → ∀ pair ∈ pairs, HasType pair.2 pair.1 := by
  induction pairs with
  | nil => exact fun _ pair hpair => absurd hpair List.not_mem_nil
  | cons pair rest ih =>
      obtain ⟨argument, type⟩ := pair
      intro index h
      simp only [RemoteOperation.validateArgumentTypes] at h
      split at h
      case isTrue => cases h
      case isFalse hvalid =>
        split at h
        case isTrue => cases h
        case isFalse =>
          refine List.forall_mem_cons.2 ⟨?_, ih h⟩
          cases argument with
          | none => exact absurd (.inl rfl) hvalid
          | some source =>
              have hname : RemoteOperation.sourceTypeName client (some source) = client.getTypeName type := by
                by_contra hne
                exact hvalid (.inr (.inl hne))
              exact ⟨source, rfl, RemoteOperation.typeInfo_of_name hname⟩

theorem produce_hasType {arguments : List (Option Source)} {slot : Nat} {action : RemoteCallAction X}
    (h : RemoteOperation.produce client remote arguments slot = .ok action) :
    List.Forall₂ HasType remote.inputTypes arguments ∧
      action.returnValue =
        if client.getTypeName remote.returnType = lit "Void" then none else some (returnSlot remote slot) := by
  simp only [RemoteOperation.produce, bind, Except.bind] at h
  split at h
  case h_1 => cases h
  case h_2 hvalidate =>
    simp only [RemoteOperation.validateArguments] at hvalidate
    split at hvalidate
    case isTrue => cases hvalidate
    case isFalse harity =>
      have hpairs := validateArgumentTypes_hasType _ hvalidate
      constructor
      · rw [List.forall₂_iff_zip]
        refine ⟨(not_not.1 harity).symm, fun {type argument} hmem => hpairs (argument, type) ?_⟩
        rw [← List.zip_swap, List.mem_map]
        exact ⟨(type, argument), hmem, rfl⟩
      · split at h
        case isTrue hvoid =>
          cases h
          rw [if_pos hvoid]
        case isFalse hvoid =>
          split at h
          case isTrue => cases h
          case isFalse =>
            split at h
            case isTrue => cases h
            case isFalse =>
              cases h
              rw [if_neg hvoid]
              rfl

end Produce

/-! ## What the server does -/

section Server

variable {σ V X : Type} {registry : ValueRegistry V X} (fresh : Nat → V) {component : Component σ V}
  {passing : List Passing} {returnsValue : Bool}

/-- RTT's part of the operation in every state. -/
def Component.Collects (component : Component σ V) (registry : ValueRegistry V X) (passing : List Passing)
    (returnsValue : Bool) : Prop :=
  ∀ s, Dispatch.Collects registry (component.callable s) passing returnsValue

/-- The node is that of the operation, and a call finds it ready. -/
structure MethodNode.Ready (node : MethodNode) : Prop where
  alive : node.alive = true
  operation : node.expectedOperation.isSome = true ∧ node.currentOperation = some node.expectedOperation
  leased : node.leased = true
  timeout : 0 < node.timeout

/-- A call with the right number of inputs: they are decoded, or the call is refused. -/
theorem serve_eq {node : MethodNode} (hnode : node.Ready) (h : component.Collects registry passing returnsValue)
    (hsupported : (describe registry.toTypeRegistry component.operation).supported = true)
    (hmaps : MapsOutputs registry.toTypeRegistry component.operation passing returnsValue
      (describe registry.toTypeRegistry component.operation))
    (hcodecs : ∀ t codec, registry.codecForTypeInfo t = some codec → codec.typeInfo = t) {inputs : List X}
    (hlength : inputs.length = component.operation.types.length) (s : σ) :
    serve registry fresh component node inputs s =
      match makeInputs registry component.operation.types inputs with
      | none => ({ status := .BadInvalidArgument }, s)
      | some values =>
          (complete registry (component.body s (values.map Value.value)).1 (results (component.callable s))
            component.operation.collect.length, (component.body s (values.map Value.value)).2) := by
  have hready : ¬ (¬ node.alive = true ∨ node.expectedOperation = none ∨
      node.currentOperation ≠ some node.expectedOperation) := by
    rintro (hno | hno | hno)
    · exact hno hnode.alive
    · have hsome := hnode.operation.1
      simp [hno] at hsome
    · exact hno hnode.operation.2
  have hcount : (describe registry.toTypeRegistry component.operation).outputs.length =
      component.operation.collect.length := hmaps.lengths.1
  have hcounts : ¬ (inputs.length ≠ (component.callable s).operation.types.length ∨
      component.operation.collect.length ≠ (component.callable s).operation.collect.length) := by
    rintro (hno | hno)
    · exact hno hlength
    · exact hno rfl
  have htimeout : ¬ node.timeout ≤ 0 := Int.not_le.2 hnode.timeout
  simp only [serve, methodCallback, if_neg hready, hcount, invoke, hnode.leased, not_true_eq_false, ↓reduceIte,
    htimeout, if_neg hcounts]
  cases hvalues : makeInputs registry component.operation.types inputs with
  | none => simp [Component.callable, hvalues]
  | some values =>
      have htypes := typeInfo_makeInputs hcodecs hlength hvalues
      have hboth : (if node.sends = true then
            invokeSend registry fresh (component.callable s) values component.operation.collect.length
          else invokeCall registry fresh (component.callable s) values component.operation.collect.length) =
          complete registry (component.body s (values.map Value.value)).1 (results (component.callable s))
            component.operation.collect.length := by
        split
        · exact invokeSend_eq (h s) htypes component.operation.collect.length
        · exact invokeCall_eq (h s) hsupported hmaps.sources htypes
      have hstarted : (complete registry (component.body s (values.map Value.value)).1 (results (component.callable s))
          component.operation.collect.length).started = true := by
        cases (component.body s (values.map Value.value)).1 <;> rfl
      simp only [Component.callable] at htypes hboth hstarted ⊢
      simp only [hvalues, htypes, ne_eq, not_true_eq_false, ↓reduceIte, hboth, hstarted]

end Server

/-! ## Results -/

section Results

variable {V X : Type} {registry client : ValueRegistry V X}

theorem encodeValue_eq (hcodecs : ∀ t codec, registry.codecForTypeInfo t = some codec → codec.typeInfo = t)
    (value : Value V) : encodeValue registry value = encode registry value.typeInfo value.value := by
  simp only [encodeValue, encode, Option.bind_eq_bind]
  cases hcodec : registry.codecForTypeInfo value.typeInfo with
  | none => rfl
  | some codec => simp [hcodecs _ _ hcodec]

/-- Values of which one does not encode do not come through. -/
theorem mapM_trip_eq_none {values : List (Value V)} {value : Value V} (hmem : value ∈ values)
    (h : encode registry value.typeInfo value.value = none) :
    values.mapM (fun v => trip registry v.typeInfo v.value) = none := by
  induction values with
  | nil => exact absurd hmem List.not_mem_nil
  | cons first rest ih =>
      rw [List.mapM_cons, Option.bind_eq_bind]
      obtain rfl | hmem := List.mem_cons.1 hmem
      · simp [trip_eq, h]
      · simp [ih hmem]

/-- The client decodes what the server has encoded. -/
theorem decodedOutputs_twins (h : Converts registry client) {us us' : List Nat}
    (hus : List.Forall₂ (Twin registry.toTypeRegistry client.toTypeRegistry) us us') :
    ∀ {values : List (Value V)} {outputs : List X}, values.map Value.typeInfo = us →
      outputs.map some = values.map (encodeValue registry) →
      values.mapM (fun v => trip registry v.typeInfo v.value) =
          some (decodedOutputs client ((us.map registry.getTypeName).zip (us'.zip outputs))) ∧
        (decodedOutputs client ((us.map registry.getTypeName).zip (us'.zip outputs))).length = us'.length := by
  induction hus with
  | nil =>
      intro values outputs htypes _
      obtain rfl := List.map_eq_nil_iff.1 htypes
      exact ⟨rfl, rfl⟩
  | @cons u u' us us' hu _ ih =>
      intro values outputs htypes houtputs
      obtain ⟨value, values, rfl, rfl, hrest⟩ := List.map_eq_cons_iff.1 htypes
      rw [List.map_cons] at houtputs
      obtain ⟨x, outputs, rfl, hx, hxs⟩ := List.map_eq_cons_iff.1 houtputs
      obtain ⟨ihvalues, ihlength⟩ := ih hrest hxs
      obtain ⟨codec, codec', hcodec, hcodec', -, hfrom, hname⟩ := h.codec_of_twin hu
      have hencode : encode registry value.typeInfo value.value = some x := by
        rw [← encodeValue_eq h.typeInfo, hx]
      have hto : codec.toVariant value.value = some x := by simpa [encode, hcodec] using hencode
      obtain ⟨w, hw⟩ := Option.isSome_iff_exists.1 (h.decodes _ _ _ _ hcodec hto)
      have hdecode : decodeOutput client (registry.getTypeName value.typeInfo) u' x = some w := by
        simp [decodeOutput, ← hname, h.names u' codec' hcodec', h.clientTypeInfo u' codec' hcodec', hfrom, hw]
      have htrip : trip registry value.typeInfo value.value = some w := by
        simp [trip_eq, hencode, decode, hcodec, hw]
      simp only [List.map_cons, List.zip_cons_cons, decodedOutputs, hdecode, List.mapM_cons, htrip, ihvalues,
        List.length_cons, ihlength]
      exact ⟨rfl, trivial⟩

/-- `Void` has no values to encode. -/
theorem encode_void (h : Converts registry client) {t t' : Nat}
    (ht : Twin registry.toTypeRegistry client.toTypeRegistry t t') (hvoid : client.getTypeName t' = lit "Void") (v : V) :
    encode registry t v = none := by
  obtain ⟨codec, codec', hcodec, hcodec', -, hfrom, hname⟩ := h.codec_of_twin ht
  by_contra hne
  obtain ⟨x, hx⟩ := Option.ne_none_iff_exists'.1 hne
  have hto : codec.toVariant v = some x := by simpa [encode, hcodec] using hx
  have hsome := h.decodes t codec v x hcodec hto
  have hnone := client.void _ _ (h.names t' codec' hcodec') (by rwa [h.clientTypeInfo t' codec' hcodec']) x
  simp [← hfrom, hnone] at hsome

end Results

/-! ## Mirrors -/

section Mirrored

variable {V X : Type} {registry client : TypeRegistry} {operation : Operation} {passing : List Passing}
  {returnsValue : Bool}

/-- A schema with the right outputs can be mirrored. -/
theorem mirrorable_of_maps (h : Reports registry operation passing returnsValue)
    (hsupported : (describe registry operation).supported = true)
    (hmaps : MapsOutputs registry operation passing returnsValue (describe registry operation)) :
    Mirrorable registry operation where
  supported := hsupported
  outputTypes k source name hsource hne hname := by
    obtain ⟨arguments, inputs, hasReturnValue, outputs, -, hinputs, -, -, hschema⟩ := describe_supported hsupported
    obtain ⟨ts, htypes, hnames, -⟩ := types_of_has (describeInputs_eq_ok _ hinputs).1
    have hinputNames : (describe registry operation).inputTypeNames = ts.map registry.getTypeName := by
      rw [hschema, hnames]
    have hlt : k < (describe registry operation).outputs.length := by
      rw [hmaps.lengths.1, ← hmaps.lengths.2.1]
      exact (List.getElem?_eq_some_iff.1 hname).1
    obtain ⟨t, codec, htype, -, rfl, -, -⟩ := hmaps.types k source _ name hsource (List.getElem?_eq_getElem hlt) hname
    simp only [Operation.sourceType, if_neg hne, htypes, List.getElem?_map] at htype
    rw [hinputNames, List.getElem?_map]
    cases hts : ts[source.toNat]? with
    | none => simp [hts] at htype
    | some u =>
        obtain rfl : u = t := by simpa [hts] using htype
        rfl
  returns t codec ht hcodec hvalue := by
    have hreturns := h.returns t codec ht hcodec
    rw [hvalue] at hreturns
    simp [h.collect, ← hreturns, ht]

/-- The return value is the one output that is not an argument. -/
theorem returns_of_sources {a b : Bool} {is js : List Nat} (h : (if a then [(-1 : Int)] else []) ++ is.map Int.ofNat =
    (if b then [(-1 : Int)] else []) ++ js.map Int.ofNat) : a = b := by
  have hmem : ∀ (c : Bool) (l : List Nat), (-1 : Int) ∈ (if c then [(-1 : Int)] else []) ++ l.map Int.ofNat ↔ c = true := by
    intro c l
    have hnot : (-1 : Int) ∉ l.map Int.ofNat := by
      intro hl
      obtain ⟨i, -, hi⟩ := List.mem_map.1 hl
      cases hi
    cases c <;> simp [hnot]
  rw [Bool.eq_iff_iff, ← hmem a is, ← hmem b js, h]

/-- What a client has made of a published operation, with the types of both ends. -/
structure Mirrored (registry client : TypeRegistry) (operation : Operation) (remote : RemoteOperation)
    (references : List Nat) (returnsValue : Bool) (ts us us' : List Nat) (description : RemoteOperationDescription) :
    Prop where
  made : RemoteOperation.construct client description = .ok remote
  types : operation.types = ts.map some
  inputs : List.Forall₂ (Twin registry client) ts remote.inputTypes
  collect : operation.collect = us.map some
  outputs : List.Forall₂ (Twin registry client) us us'
  outputTypes : remote.outputTypes = us'
  names : description.outputTypes = us.map registry.getTypeName
  sources : description.outputSources = (if returnsValue then [-1] else []) ++ references.map Int.ofNat
  returns : returnsValue = true → ∃ t, Twin registry client t remote.returnType ∧ us.head? = some t

theorem mirrored (h : Reports registry operation passing returnsValue)
    (hsupported : (describe registry operation).supported = true)
    (hmaps : MapsOutputs registry operation passing returnsValue (describe registry operation))
    (hc : Agrees registry client) (p : Publication registry operation) {remote : RemoteOperation}
    (hremote : p.mirror client = some (.ok remote)) :
    ∃ ts us us' description,
      Mirrored registry client operation remote (referenceIndexes passing) returnsValue ts us us' description := by
  have hmirrorable := mirrorable_of_maps h hsupported hmaps
  obtain ⟨ts, t, returned, taken, cs, -, -, -, S, -⟩ := hmirrorable.signature
  obtain ⟨tcodec, htcodec⟩ := S.codecs t (by simp)
  obtain ⟨t', ht⟩ := hc.twin t tcodec htcodec
  obtain ⟨ts', hts⟩ : ∃ ts', List.Forall₂ (Twin registry client) ts ts' :=
    hc.twins fun u hu => S.codecs u (by simp [hu])
  obtain ⟨cs', hcs⟩ : ∃ cs', List.Forall₂ (Twin registry client) cs cs' :=
    hc.twins fun u hu => S.codecs u (by simp [hu])
  have hmake := construct_signature S hts ht hcs p.record.name
  rw [hmirrorable.mirror_eq p client, Option.some.injEq] at hremote
  have hconstruct : RemoteOperation.construct client
      (descriptionOf p.record.name operation.description (describe registry operation)) = .ok remote := hremote
  obtain rfl := Except.ok.inj (hconstruct.symm.trans hmake)
  have hreturnsValue : returned.isSome = returnsValue := returns_of_sources (S.sources.symm.trans hmaps.sources)
  have hreturned : List.Forall₂ (Twin registry client) returned.toList (returned.map fun _ => t').toList := by
    obtain rfl | ⟨rfl, -⟩ := S.returns
    · exact .cons ht .nil
    · exact .nil
  refine ⟨ts, returned.toList ++ cs, _, _, ⟨hconstruct, S.types, hts, S.collect, List.rel_append hreturned hcs, rfl,
    S.outputNames, hmaps.sources, fun hvalue => ⟨t, ht, ?_⟩⟩⟩
  obtain rfl | ⟨rfl, -⟩ := S.returns
  · rfl
  · simp [hvalue] at hreturnsValue

end Mirrored

/-! ## Calls -/

section Calls

variable {σ V X : Type} {registry client : ValueRegistry V X} (fresh : Nat → V) {component : Component σ V}
  {passing : List Passing} {returnsValue : Bool} {remote : RemoteOperation} {ts us us' : List Nat}
  {description : RemoteOperationDescription} {arguments : List (Option Source)} {slot : Nat}
  {action : RemoteCallAction X} {memory : Memory V}

theorem ClientSession.Open.callLocked {session : ClientSession} (h : session.Open)
    (wire : σ → Response (List X) × σ) (s : σ) :
    (session.callLocked true wire s).1 =
        (match (wire s).1 with
        | .good outputs => { success := true, outputs }
        | _ => {}) ∧
      (session.callLocked true wire s).2.2 = (wire s).2 := by
  simp only [ClientSession.callLocked, if_true, h.perform, ClientSession.send]
  cases (wire s).1 with
  | good outputs => exact ⟨rfl, rfl⟩
  | bad status name isConnected => exact ⟨rfl, rfl⟩
  | threw what => exact ⟨rfl, rfl⟩

/-- A call without a result changes nothing. -/
theorem execute_failed (M : Mirrored registry.toTypeRegistry client.toTypeRegistry component.operation remote
      component.references returnsValue ts us us' description)
    (h : RemoteOperation.produce client remote arguments slot = .ok action) :
    (action.readArguments client memory).execute client {} memory = (memory, false) := by
  cases hprepared : (action.readArguments client memory).prepared with
  | none => simp [RemoteCallAction.execute, hprepared]
  | some inputs =>
      rw [execute_eq M.made h (by rw [hprepared]; rfl)]
      simp [decoded, Decodes, Accepted, Memory.setAll]

/-- The destinations of a call are those of the results. -/
theorem callDestinations_eq (M : Mirrored registry.toTypeRegistry client.toTypeRegistry component.operation remote
      component.references returnsValue ts us us' description) (returnValue : Option Source)
    (hreturn : returnsValue = true → returnValue = some (returnSlot remote slot)) :
    description.outputSources.map (callDestination arguments returnValue) =
      resultDestinations component (if returnsValue then some (returnSlot remote slot) else none) arguments := by
  have hargument : ∀ i : Nat, callDestination arguments returnValue (Int.ofNat i) = (arguments[i]?).join := by
    intro i
    have hne : Int.ofNat i ≠ -1 := fun hneg => by cases hneg
    by_cases hlt : i < arguments.length
    · have hrange : 0 ≤ Int.ofNat i ∧ (Int.ofNat i).toNat < arguments.length := ⟨Int.natCast_nonneg i, hlt⟩
      simp only [callDestination, if_neg hne, if_pos hrange]
      rfl
    · have hrange : ¬ (0 ≤ Int.ofNat i ∧ (Int.ofNat i).toNat < arguments.length) := fun hno => hlt hno.2
      simp [callDestination, hlt]
  have hreferences : (component.references.map Int.ofNat).map (callDestination arguments returnValue) =
      component.references.map fun i => (arguments[i]?).join := by
    rw [List.map_map]
    exact List.map_congr_left fun i _ => hargument i
  rw [M.sources, List.map_append, hreferences, resultDestinations]
  cases returnsValue with
  | false => rfl
  | true => simp [callDestination, hreturn rfl]

/-- The results that the server encodes are stored as they come through. -/
theorem execute_results (hc : Converts registry client)
    (M : Mirrored registry.toTypeRegistry client.toTypeRegistry component.operation remote
      component.references returnsValue ts us us' description)
    (h : RemoteOperation.produce client remote arguments slot = .ok action)
    (hprepared : (action.readArguments client memory).prepared.isSome = true) {values : List (Value V)}
    {outputs : List X} (htypes : values.map Value.typeInfo = us)
    (houtputs : outputs.map some = values.map (encodeValue registry)) :
    ∃ stored, values.mapM (fun v => trip registry v.typeInfo v.value) = some stored ∧
      (action.readArguments client memory).execute client { success := true, outputs } memory =
        (memory.setAll ((resultDestinations component
          (if returnsValue then some (returnSlot remote slot) else none) arguments).zip stored), true) := by
  obtain ⟨hstored, hlength⟩ := decodedOutputs_twins hc M.outputs htypes houtputs
  obtain ⟨rfl, -, -, -⟩ := RemoteOperation.construct_eq_ok M.made
  have hcount : outputs.length = us'.length := by
    have hsame := congrArg List.length houtputs
    rw [List.length_map, List.length_map] at hsame
    rw [hsame, ← List.length_map Value.typeInfo, htypes, M.outputs.length_eq]
  have haccepted : Accepted remote { success := true, outputs } := ⟨rfl, by rw [M.outputTypes]; exact hcount⟩
  have hdecoded : decoded client remote { success := true, outputs } =
      decodedOutputs client ((us.map registry.getTypeName).zip (us'.zip outputs)) := by
    rw [decoded, if_pos haccepted, outputsOf, M.outputTypes, M.names]
    rfl
  have hdecodes : Decodes client remote { success := true, outputs } :=
    ⟨haccepted, by rw [hdecoded, hlength, M.outputTypes]⟩
  have hreturn : returnsValue = true → action.returnValue = some (returnSlot remote slot) := by
    intro hvalue
    obtain ⟨t, ht, hhead⟩ := M.returns hvalue
    rw [(produce_hasType h).2]
    split
    case isFalse => rfl
    case isTrue hvoid =>
      -- A return value of `Void` is never encoded.
      exfalso
      rw [← htypes] at hhead
      cases values with
      | nil => cases hhead
      | cons value values =>
          obtain rfl : value.typeInfo = t := Option.some.inj hhead
          cases outputs with
          | nil => cases houtputs
          | cons x outputs =>
              have hx : some x = encodeValue registry value := (List.cons.inj houtputs).1
              rw [encodeValue_eq hc.typeInfo, encode_void hc ht hvoid] at hx
              cases hx
  refine ⟨_, hstored, ?_⟩
  rw [execute_eq M.made h hprepared, callDestinations_eq M action.returnValue hreturn, hdecoded,
    decide_eq_true hdecodes]

/-- What an application gets of a call. -/
def delivered (component : Component σ V) (convert : Nat → V → Option V) (delivery : Delivery)
    (returnValue : Option Source) (arguments : List (Option Source)) (memory : Memory V) (s : σ) :
    (Memory V × Bool) × σ :=
  match delivery with
  | .answered _ => callWith convert component returnValue arguments memory s
  | .requestLost _ => ((memory, false), s)
  | .answerLost _ => ((memory, false), (callWith convert component returnValue arguments memory s).2)

theorem encodeArguments_length (registry : ValueRegistry V X) (memory : Memory V) (arguments : List (Option Source)) :
    ∀ {inputs : List X}, encodeArguments registry memory arguments = some inputs → inputs.length = arguments.length := by
  induction arguments with
  | nil =>
      intro inputs h
      obtain rfl := Option.some.inj h
      rfl
  | cons argument rest ih =>
      intro inputs h
      simp only [encodeArguments, Option.bind_eq_bind] at h
      obtain ⟨source, -, h⟩ := Option.bind_eq_some_iff.1 h
      obtain ⟨codec, -, h⟩ := Option.bind_eq_some_iff.1 h
      split at h
      case isFalse => cases h
      case isTrue =>
        obtain ⟨x, -, h⟩ := Option.bind_eq_some_iff.1 h
        obtain ⟨more, hmore, h⟩ := Option.bind_eq_some_iff.1 h
        obtain rfl := Option.some.inj h
        simp [ih hmore]

theorem map_typeInfo_results {types : List Nat} : ∀ {values : List V}, (List.zipWith Value.mk types values).length =
    types.length → (List.zipWith Value.mk types values).map Value.typeInfo = types := by
  induction types with
  | nil => exact fun _ => rfl
  | cons type types ih =>
      intro values h
      cases values with
      | nil => cases h
      | cons value values =>
          rw [List.zipWith_cons_cons, List.map_cons, ih (Nat.succ.inj h)]

/-- The server runs the body on the values that come through, and the client stores the results that come through. -/
theorem served_call (hcollects : component.Collects registry passing returnsValue)
    (hsupported : (describe registry.toTypeRegistry component.operation).supported = true)
    (hmaps : MapsOutputs registry.toTypeRegistry component.operation passing returnsValue
      (describe registry.toTypeRegistry component.operation)) (hc : Converts registry client)
    (M : Mirrored registry.toTypeRegistry client.toTypeRegistry component.operation remote component.references
      returnsValue ts us us' description) {node : MethodNode} (hnode : node.Ready)
    (h : RemoteOperation.produce client remote arguments slot = .ok action) {inputs : List X}
    (hprepared : (action.readArguments client memory).prepared = some inputs) (s : σ) :
    let served := serve registry fresh component node inputs s
    ((action.readArguments client memory).execute client
        (if served.1.status = .Good then { success := true, outputs := served.1.outputs } else {}) memory, served.2) =
      callWith (trip registry) component (if returnsValue then some (returnSlot remote slot) else none) arguments memory
        s := by
  intro served
  obtain ⟨hargs, -⟩ := produce_hasType h
  have hencoded : encodeArguments client memory arguments = some inputs := by
    rw [← hprepared, RemoteCallAction.readArguments, (RemoteOperation.produce_eq_ok M.made h).1]
  have hread := readSources_trip hc memory M.inputs hargs
  rw [hencoded, Option.bind_some, ← M.types] at hread
  have hlength : inputs.length = component.operation.types.length := by
    rw [encodeArguments_length client memory arguments hencoded, ← hargs.length_eq, ← M.inputs.length_eq, M.types,
      List.length_map]
  have hserved := serve_eq fresh hnode hcollects hsupported hmaps hc.typeInfo hlength s
  simp only [served, callWith, hread]
  cases hvalues : makeInputs registry component.operation.types inputs with
  | none =>
      rw [hvalues] at hserved
      rw [hserved]
      simp [execute_failed M h]
  | some values =>
      rw [hvalues] at hserved
      simp only [hserved, Option.map_some]
      have htypes := typeInfo_makeInputs hc.typeInfo hlength hvalues
      cases hbody : component.body s (values.map Value.value) with
      | mk completion s' =>
          cases completion with
          | failed | threw | late => simp [complete, execute_failed M h]
          | returned result finals =>
              have hcallable : (component.callable s).body (values.map Value.value) = .returned result finals := by
                simp [Component.callable, hbody]
              have hcount : (results (component.callable s) result finals).length = component.operation.collect.length :=
                length_results (hcollects s) htypes hcallable
              obtain ⟨hgood, houtputs, -⟩ := @encodeValues_spec V X registry
                (results (component.callable s) result finals)
              simp only [complete, encodeOutputs, hcount, ne_eq, not_true_eq_false, ↓reduceIte]
              have husTypes : (results (component.callable s) result finals).map Value.typeInfo = us := by
                have hcollect : (component.callable s).operation.collect.filterMap id = us := by
                  simp [Component.callable, M.collect]
                rw [M.collect, List.length_map] at hcount
                rw [results, hcollect] at hcount ⊢
                exact map_typeInfo_results hcount
              by_cases hall : (encodeValues registry (results (component.callable s) result finals)).1 = .Good
              · obtain ⟨stored, hstored, hexecute⟩ := execute_results hc M h (by rw [hprepared]; rfl) husTypes
                  (houtputs hall)
                rw [if_pos hall, hexecute, hstored]
              · have hnot := mt hgood.2 hall
                simp only [not_forall] at hnot
                obtain ⟨value, hmem, hvalue⟩ := hnot
                rw [encodeValue_eq hc.typeInfo] at hvalue
                rw [if_neg hall, execute_failed M h, mapM_trip_eq_none hmem (by simpa using hvalue)]

/-- The values of a call come through as they are, and the data sources store what is set in them. -/
structure Kept (registry : ValueRegistry V X) (component : Component σ V) (arguments : List (Option Source))
    (memory : Memory V) (s : σ) : Prop where
  sent : ∀ e ∈ component.operation.types.zip arguments, ∀ type source, e = (some type, some source) →
    trip registry type (memory.value source.id) = some (memory.value source.id)
  returned : ∀ values, readSources (fun _ v => some v) memory component.operation.types arguments = some values →
    ∀ result finals s', component.body s values = (.returned result finals, s') →
    ∀ v ∈ results (component.callable s) result finals, trip registry v.typeInfo v.value = some v.value
  stores : ∀ id n, memory.drops id n = false

theorem mapM_congr_mem {α β : Type} {f g : α → Option β} {xs : List α} (h : ∀ x ∈ xs, f x = g x) :
    xs.mapM f = xs.mapM g := by
  induction xs with
  | nil => rfl
  | cons x xs ih =>
      obtain ⟨hx, hxs⟩ := List.forall_mem_cons.1 h
      simp only [List.mapM_cons, hx, ih hxs]

/-- A call whose values come through as they are is a call in the component's own process. -/
theorem Kept.callWith_eq (h : Kept registry component arguments memory s) (returnValue : Option Source) :
    callWith (trip registry) component returnValue arguments memory s =
      localCall component returnValue arguments memory s := by
  have hread : readSources (trip registry) memory component.operation.types arguments =
      readSources (fun _ v => some v) memory component.operation.types arguments := by
    refine mapM_congr_mem fun e he => ?_
    obtain ⟨type, argument⟩ := e
    cases type with
    | none => rfl
    | some type =>
        cases argument with
        | none => rfl
        | some source => exact h.sent _ he type source rfl
  simp only [localCall, callWith, hread]
  cases hvalues : readSources (fun _ v => some v) memory component.operation.types arguments with
  | none => rfl
  | some values =>
      cases hbody : component.body s values with
      | mk completion s' =>
          cases completion with
          | failed | threw | late => simp only [hbody]
          | returned result finals =>
              have hresults : (results (component.callable s) result finals).mapM
                  (fun v => trip registry v.typeInfo v.value) =
                  (results (component.callable s) result finals).mapM fun v => some v.value :=
                mapM_congr_mem (h.returned values hvalues result finals s' hbody)
              simp only [hbody, hresults]

/-- A call of a remote operation is a call of the operation itself, with every argument and every result converted to its
`Variant` and back: it sets the same values in the same data sources, and the component is left in the same state. A
request that is lost has no effect at all, and a call whose answer is lost has had its effect once and sets nothing.
Where the codecs keep the values and nothing that is set is dropped, this is the call that the component's own process
makes. -/
theorem remote_call_is_local_call {σ V X : Type} (registry client : ValueRegistry V X) (fresh : Nat → V)
    (component : Component σ V) (passing : List Passing) (returnsValue : Bool)
    (hcollects : component.Collects registry passing returnsValue)
    (hsupported : (describe registry.toTypeRegistry component.operation).supported = true)
    (hspelled : passing.Pairwise fun a b => a = .constLast → b ≠ .reference) (hconverts : Converts registry client)
    (p : Publication registry.toTypeRegistry component.operation) (remote : RemoteOperation)
    (hremote : p.mirror client.toTypeRegistry = some (.ok remote)) (node : MethodNode) (hnode : node.Ready)
    (session : ClientSession) (hsession : session.Open) (statusName : Dispatch.StatusCode → Str)
    (delivery : Delivery) (arguments : List (Option Source)) (slot : Nat)
    (memory : Memory V) (s : σ) :
    let returnValue := if returnsValue then some (returnSlot remote slot) else none
    let call := remoteCall client remote session (callWire registry fresh component node statusName delivery) arguments
      slot memory s
    call = (RemoteOperation.produce (X := X) client remote arguments slot).map (fun _ =>
        delivered component (trip registry) delivery returnValue arguments memory s) ∧
      (Kept registry component arguments memory s →
        call = (RemoteOperation.produce (X := X) client remote arguments slot).map fun _ =>
          delivered component (fun _ v => some v) delivery returnValue arguments memory s) := by
  intro returnValue call
  suffices hcall : call = (RemoteOperation.produce (X := X) client remote arguments slot).map (fun _ =>
      delivered component (trip registry) delivery returnValue arguments memory s) by
    refine ⟨hcall, fun hkept => hcall.trans ?_⟩
    have hsame := hkept.callWith_eq returnValue
    rw [localCall] at hsame
    cases delivery <;> simp only [delivered, hsame]
  have hmaps := (mapsOutputs_iff (hcollects s).reports hsupported).2 hspelled
  have hreferences : component.references = referenceIndexes passing := (hcollects s).references
  obtain ⟨ts, us, us', description, M⟩ := mirrored (hcollects s).reports hsupported hmaps hconverts.agrees p hremote
  rw [Component.callable] at M
  rw [← hreferences] at M
  simp only [call, returnValue]
  cases hproduce : RemoteOperation.produce (X := X) client remote arguments slot with
  | error e => simp [remoteCall, hproduce, bind, Except.bind, Except.map]
  | ok action =>
      simp only [remoteCall, hproduce, bind, Except.bind, Except.map]
      cases hprepared : (action.readArguments client memory).prepared with
      | none =>
          have hencoded : encodeArguments client memory arguments = none := by
            rw [← hprepared, RemoteCallAction.readArguments, (RemoteOperation.produce_eq_ok M.made hproduce).1]
          have hread := readSources_trip hconverts memory M.inputs (produce_hasType hproduce).1
          rw [hencoded, Option.bind_none, ← M.types] at hread
          rw [execute_failed M hproduce]
          cases delivery <;> simp [delivered, callWith, hread]
      | some inputs =>
          obtain ⟨hresult, hfar⟩ := hsession.callLocked
            (callWire registry fresh component node statusName delivery inputs) s
          have hcall := served_call fresh hcollects hsupported hmaps hconverts M hnode hproduce hprepared s
          simp only [hresult, hfar, Except.ok.injEq]
          cases delivery with
          | requestLost lost =>
              cases lost <;> simp [callWire, Delivery.response, Lost.response, delivered, execute_failed M hproduce]
          | answerLost lost =>
              have hstate := congrArg Prod.snd hcall
              cases lost <;>
                simpa [callWire, Delivery.response, Lost.response, delivered, execute_failed M hproduce] using hstate
          | answered isConnected =>
              rw [delivered, ← hcall]
              simp only [callWire, Delivery.response]
              cases (serve registry fresh component node inputs s).1.status <;> simp

/-- `bool f(int &)` of a component that counts its calls. -/
def countedOperation : Operation where
  description := []
  argumentList := some [⟨lit "x", [], lit "Int32 &"⟩]
  returnType := some 0
  types := [some 1]
  collect := [some 0, some 1]

def counter : Component Nat SampleValue where
  operation := countedOperation
  references := [0]
  body calls arguments := (.returned (some (.inl true)) (arguments.map fun _ => .inr 5), calls + 1)

theorem isType_samples : IsType (lit "Bool") ∧ IsType (lit "Int32") := by
  constructor <;> exact ⟨by decide, fun c hc => by cases hc; decide, fun c hc => by cases hc; decide, by decide⟩

theorem sampleCodec_cases {t : Nat} {codec : TypeCodec SampleValue (Variant SampleValue)}
    (h : sampleCodec t = some codec) :
    t = 0 ∧ codec = ScalarTypeCodec (ScalarType.plain Bool) 0 1 ∨
      t = 1 ∧ codec = ScalarTypeCodec (ScalarType.plain Int) 1 6 := by
  cases t with
  | zero => exact .inl ⟨rfl, (Option.some.inj h).symm⟩
  | succ t =>
      cases t with
      | zero => exact .inr ⟨rfl, (Option.some.inj h).symm⟩
      | succ t => cases h

theorem sampleRegistry_converts : Converts sampleRegistry sampleRegistry where
  agrees := by
    have hcases : ∀ t (codec : Codec), sampleRegistry.toTypeRegistry.codecForTypeInfo t = some codec → t = 0 ∨ t = 1 := by
      intro t codec h
      obtain ⟨c, hc, -⟩ := Option.map_eq_some_iff.1 h
      exact (sampleCodec_cases hc).imp And.left And.left
    constructor
    · intro t codec h
      refine ⟨t, codec, h, h, ?_, rfl⟩
      obtain rfl | rfl := hcases t codec h <;> rfl
    · intro t codec h
      obtain rfl | rfl := hcases t codec h
      · exact isType_samples.1
      · exact isType_samples.2
  codecs t t' codec codec' h h' hname := by
    obtain rfl : t' = t := sampleTypeName_inj _ _ hname
    obtain rfl := Option.some.inj (h.symm.trans h')
    exact ⟨rfl, rfl⟩
  decodes t codec v x h hx := by
    obtain ⟨rfl, rfl⟩ | ⟨rfl, rfl⟩ := sampleCodec_cases h
    all_goals
      obtain ⟨value, -, hvalue⟩ := Option.bind_eq_some_iff.1 hx
      obtain rfl := Option.some.inj hvalue
      rfl
  typeInfo t codec h := by obtain ⟨rfl, rfl⟩ | ⟨rfl, rfl⟩ := sampleCodec_cases h <;> rfl
  clientTypeInfo t codec h := by obtain ⟨rfl, rfl⟩ | ⟨rfl, rfl⟩ := sampleCodec_cases h <;> rfl
  names t codec h := by obtain ⟨rfl, rfl⟩ | ⟨rfl, rfl⟩ := sampleCodec_cases h <;> rfl

theorem counter_collects : counter.Collects sampleRegistry [.reference] true := fun calls => {
  reports := {
    arguments := ⟨_, rfl, .cons (@Spells.reference (lit "Int32") [] (lit " ") [] isType_samples.2 (fun _ hd => by cases hd)
      (by decide) (fun _ hd => by cases hd)) .nil⟩
    types := rfl
    returns := fun t codec ht hcodec => by
      obtain rfl : 0 = t := Option.some.inj ht
      cases hcodec
      rfl
    collect := rfl }
  references := rfl
  body := fun arguments result finals h => by
    cases h
    exact ⟨rfl, List.length_map _⟩
  builds := fun type htype => by
    simp only [Component.callable, counter, countedOperation, List.mem_cons, List.not_mem_nil, or_false] at htype
    obtain rfl | rfl := htype
    · exact ⟨0, rfl, rfl⟩
    · exact ⟨1, rfl, rfl⟩ }

def counterNode : MethodNode where
  expectedOperation := some 0
  currentOperation := some (some 0)
  sends := true
  timeout := 100

theorem counter_kept : Kept sampleRegistry counter [some sampleInt] sampleMemory 3 where
  sent e he type source heq := by
    obtain rfl := List.mem_singleton.1 he
    cases heq
    decide +kernel
  returned values hvalues result finals s' hbody := by
    obtain rfl : [Sum.inr 7] = values := Option.some.inj hvalues
    cases hbody
    decide +kernel
  stores _ _ := rfl

/-- A call of the counter stores both of its results. One whose answer is lost stores none, and is counted. -/
theorem remote_call_is_local_call_counted :
    ∃ p : Publication sampleRegistry.toTypeRegistry countedOperation,
      p.mirror sampleRegistry.toTypeRegistry = some (.ok sampleRemote) ∧
      ∀ (statusName : Dispatch.StatusCode → Str) (delivery : Delivery),
        (remoteCall sampleRegistry sampleRemote ⟨true, true, .connected, []⟩
            (callWire sampleRegistry (fun _ => .inl false) counter counterNode statusName delivery) [some sampleInt] 2
            sampleMemory 3).map (fun r => (r.1.1.assigned, r.1.2, r.2)) =
          .ok (match delivery with
            | .answered _ => ([(2, .inl true), (0, .inr 5)], true, 4)
            | .requestLost _ => ([], false, 3)
            | .answerLost _ => ([], false, 4)) := by
  have hsupported : (describe sampleRegistry.toTypeRegistry countedOperation).supported = true := by decide +kernel
  let service : Service := { operationNames := [lit "f"], getOperation := fun _ => some countedOperation }
  obtain ⟨specs, hspecs⟩ : ∃ specs, operationBundle (lit "component") (fun _ => service) sampleRegistry.toTypeRegistry
      sampleRecord = .ok specs := operationBundle_isOk _ rfl rfl hsupported (by decide)
  let p : Publication sampleRegistry.toTypeRegistry countedOperation :=
    { component := lit "component", services := fun _ => service, record := sampleRecord, servicePath := [], specs
      placed := rfl, kind := rfl, owner := rfl, found := rfl, bundle := hspecs }
  have hmaps : MapsOutputs sampleRegistry.toTypeRegistry countedOperation [.reference] true
      (describe sampleRegistry.toTypeRegistry countedOperation) :=
    (mapsOutputs_iff (counter_collects 0).reports hsupported).2 (.cons (fun _ hb => by cases hb) .nil)
  have hdescription : descriptionOf (lit "f") [] (describe sampleRegistry.toTypeRegistry countedOperation) =
      sampleDescription := by decide +kernel
  have hremote : p.mirror sampleRegistry.toTypeRegistry = some (.ok sampleRemote) := by
    have hmirror := (mirrorable_of_maps (counter_collects 0).reports hsupported hmaps).mirror_eq p
      sampleRegistry.toTypeRegistry
    refine hmirror.trans ?_
    exact congrArg (fun d => some (RemoteOperation.make (some sampleRegistry.toTypeRegistry) d)) hdescription
  refine ⟨p, hremote, fun statusName delivery => ?_⟩
  obtain ⟨-, hcall⟩ := remote_call_is_local_call sampleRegistry sampleRegistry (fun _ => .inl false) counter [.reference]
    true counter_collects hsupported (.cons (fun _ hb => by cases hb) .nil) sampleRegistry_converts p sampleRemote hremote
    counterNode ⟨rfl, ⟨rfl, rfl⟩, rfl, by decide⟩ ⟨true, true, .connected, []⟩ ⟨rfl, rfl, rfl⟩ statusName delivery
    [some sampleInt] 2 sampleMemory 3
  rw [hcall counter_kept, sample_made.2.1]
  cases delivery <;> rfl

end Calls

end RttOpcua.Remote
