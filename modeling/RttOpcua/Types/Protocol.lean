import RttOpcua.Lib.Threads
import RttOpcua.Types.Endpoint

/-!
# Type protocols

`registerTypeProtocol`, `registerCanonicalTypeProtocol` (`src/type_protocol.cpp`, `src/conn_policy_protocol.cpp`) and
the freeze, called by any threads. `registration_mutex` is held over the statements of
`registerTypeProtocolUnlocked`; each access to the registry of datatypes holds the mutex of the registry for itself.
-/

namespace RttOpcua.Types

open RttOpcua.Lib

/-! ## Canonical types -/

/-- What is outside: the `TypeInfo`s, the registry when the threads begin, and how this build was configured. -/
structure Environment (F T : Type) where
  typeName : T → Str
  transporter : T → Option Transporter
  -- a stored protocol went through the test of `registerTypeProtocolUnlocked`
  fingerprint : ∀ t p, transporter t = some (.typeProtocol p) → p.registrationFingerprint ≠ []
  registry : RegistryState F
  materializeConnPolicy : F
  charSigned : Bool
  rtMalloc : Bool

section Canonical

variable {F T : Type} (env : Environment F T)

/-- `canonicalTypeDescriptors`: the name of each type and the number of its `DataTypeId`. -/
def canonicalTypeDescriptors : List (Str × Nat) :=
  [(lit "Bool", 1), (lit "Int8", 2), (lit "UInt8", 3), (lit "Int16", 4), (lit "UInt16", 5), (lit "Int32", 6),
    (lit "UInt32", 7), (lit "Int64", 8), (lit "UInt64", 9), (lit "Float32", 10), (lit "Float64", 11),
    (lit "Char", if env.charSigned then 2 else 3), (lit "String", 12), (lit "Void", 24), (lit "Float64Array", 11),
    (lit "Int32Array", 6), (lit "StringArray", 12)] ++
  (if env.rtMalloc then [(lit "RtString", 12)] else []) ++
  [(lit "FlowStatus", 6), (lit "WriteStatus", 6), (lit "TaskState", 6)]

def descriptorForType (typeName : Str) : Option (Str × Nat) :=
  (canonicalTypeDescriptors env).find? fun d => d.1 = typeName

/-- What `makeCanonicalProtocol` makes has this datatype and this fingerprint. -/
def makeCanonicalProtocol (typeName : Str) : Option TypeProtocol :=
  (descriptorForType env typeName).map fun d =>
    ⟨.builtin ⟨0, .numeric d.2⟩, lit "rtt-opcua/builtin/" ++ typeName ++ lit "/v1"⟩

def connPolicyDataTypeId : LogicalDataTypeId :=
  ⟨lit "urn:orocos:rtt", lit "types/ConnPolicy", lit "encodings/ConnPolicy/Binary"⟩

/-- `ConnPolicyTypeProtocol`. -/
def connPolicyProtocol : TypeProtocol := ⟨.logical connPolicyDataTypeId, lit "rtt-opcua/ConnPolicy/v1"⟩

def makeConnPolicyProvider : DataTypeProvider F where
  name := lit "rtt-foundation"
  namespaceUri := lit "urn:orocos:rtt"
  dependencies := []
  dataTypes := [{
    name := lit "ConnPolicy"
    id := connPolicyDataTypeId
    schemaFingerprint := lit "rtt-opcua/ConnPolicy/v1"
    materialize := some env.materializeConnPolicy }]

end Canonical

def sameRegistration (lhs rhs : TypeProtocol) : Bool :=
  lhs.dataType = rhs.dataType && lhs.registrationFingerprint = rhs.registrationFingerprint

/-! ## Threads -/

/-- A registration under way. `held` is history: what the `TypeInfo` held when the call began. -/
structure Registration (T : Type) where
  type : Option T
  protocol : Option TypeProtocol
  held : Option Transporter := none

inductive ProtocolCall (F T : Type) where
  | registerTypeProtocol (type : Option T) (protocol : Option TypeProtocol)
  | registerCanonicalTypeProtocol (typeName : Str) (type : Option T)
  | registerDataTypeProvider (provider : DataTypeProvider F)
  | freezeDataTypeRegistry

/-- Where a thread is. -/
inductive ProtocolPc (F T : Type) where
  | idle
  -- `registerConnPolicyProtocol`, before its protocol is registered
  | provider (r : Registration T)
  | lock (r : Registration T)
  -- `registerTypeProtocolUnlocked`
  | has (r : Registration T)
  | frozen (r : Registration T)
  | add (r : Registration T)
  | unlock (r : Registration T) (result : Except Str Unit)
  | registered (r : Registration T) (result : Except Str Unit)
  | registerProvider (provider : DataTypeProvider F)
  | freeze
  -- the registry is left, the call not yet
  | leave (result : Except Str (List Str))
  | done

/-- `freezeReturned` is history: a freeze has returned successfully. -/
structure ProtocolState (F T : Type) where
  registrationMutex : Option Nat := none
  registry : RegistryState F
  transporter : T → Option Transporter
  freezeReturned : Bool := false

/-- What the code does not decide: the next call, and what `TypeInfo::addProtocol` returns. -/
inductive ProtocolChoice (F T : Type) where
  | call (c : ProtocolCall F T)
  | go (added : Bool)

section Program

variable {F T : Type} [DecidableEq T] (env : Environment F T)

/-- A `TypeInfo` with its transporter, or none. -/
def heldBy (s : ProtocolState F T) (type : Option T) : Option Transporter := type.bind s.transporter

/-- The tests of `registerCanonicalTypeProtocol` and `registerConnPolicyProtocol` before the first access to what the
threads share. -/
def beginCanonical (s : ProtocolState F T) (typeName : Str) (type : Option T) : ProtocolPc F T :=
  let rejected (message : Str) : ProtocolPc F T := .registered ⟨type, none, heldBy s type⟩ (.error message)
  if typeName = lit "ConnPolicy" then
    if type.map env.typeName = some (lit "ConnPolicy") then .provider ⟨type, some connPolicyProtocol, heldBy s type⟩
    else rejected (lit "invalid OPC UA ConnPolicy protocol registration")
  else if (descriptorForType env typeName).isNone then
    rejected (lit "unsupported canonical RTT type '" ++ typeName ++ lit "' for OPC UA protocol registration")
  else
    match type with
    | none => rejected (lit "missing canonical RTT type '" ++ typeName ++ lit "' for OPC UA protocol registration")
    | some t =>
        if env.typeName t ≠ typeName then
          rejected (lit "canonical RTT type name mismatch for OPC UA protocol registration: requested '" ++ typeName ++
            lit "', actual '" ++ env.typeName t ++ lit "'")
        else .lock ⟨type, makeCanonicalProtocol env typeName, heldBy s type⟩

def beginCall (s : ProtocolState F T) : ProtocolCall F T → ProtocolPc F T
  | .registerTypeProtocol type protocol => .lock ⟨type, protocol, heldBy s type⟩
  | .registerCanonicalTypeProtocol typeName type => beginCanonical env s typeName type
  | .registerDataTypeProvider provider => .registerProvider provider
  | .freezeDataTypeRegistry => .freeze

/-- `registerTypeProtocolUnlocked` up to its access to the registry. -/
def hasAction (s : ProtocolState F T) (r : Registration T) : ProtocolPc F T :=
  match r.type, r.protocol with
  | some t, some p =>
      if p.registrationFingerprint = [] then .unlock r (.error (lit "invalid OPC UA type protocol registration"))
      else
        match s.transporter t with
        | none => .frozen r
        | some existing =>
            let conflicting : Except Str Unit := .error (lit "conflicting OPC UA type protocol registration for '" ++
              env.typeName t ++ lit "'")
            match existing with
            | .typeProtocol q => if sameRegistration q p then .unlock r (.ok ()) else .unlock r conflicting
            | .foreign => .unlock r conflicting
  | _, _ => .unlock r (.error (lit "invalid OPC UA type protocol registration"))

/-- An error about the type of a registration. -/
def Registration.failure (r : Registration T) (what : Str) : Except Str Unit :=
  .error (what ++ ((r.type.map env.typeName).getD []) ++ lit "'")

/-- `dataTypeRegistryFrozen()` and the branch on it. -/
def frozenAction (s : ProtocolState F T) (r : Registration T) : ProtocolPc F T :=
  if s.registry.frozen then .unlock r (r.failure env (lit "late OPC UA type protocol registration for '")) else .add r

/-- `addProtocol` stores the protocol if it returns true. -/
def addAction (s : ProtocolState F T) (r : Registration T) (added : Bool) : ProtocolState F T × ProtocolPc F T :=
  match r.type, r.protocol with
  | some t, some p =>
      if added then
        ({ s with transporter := Function.update s.transporter t (some (.typeProtocol p)) }, .unlock r (.ok ()))
      else (s, .unlock r (r.failure env (lit "invalid OPC UA type protocol registration for '")))
  | _, _ => (s, .unlock r (.error (lit "invalid OPC UA type protocol registration")))

/-- An action of thread `i`. A mutex that is taken stops it. -/
def protocolAction (i : Nat) :
    ProtocolChoice F T → ProtocolState F T → ProtocolPc F T → Option (ProtocolState F T × ProtocolPc F T)
  | .call c, s, .idle => some (s, beginCall env s c)
  | .call c, s, .registered _ _ => some (s, beginCall env s c)
  | .call c, s, .done => some (s, beginCall env s c)
  | .go _, s, .provider r =>
      match registerDataTypeProvider s.registry (makeConnPolicyProvider env) with
      | (registry, .ok ()) => some ({ s with registry }, .lock r)
      | (registry, .error message) => some ({ s with registry }, .registered r (.error message))
  | .go _, s, .lock r =>
      if s.registrationMutex.isNone then some ({ s with registrationMutex := some i }, .has r) else none
  | .go _, s, .has r => some (s, hasAction env s r)
  | .go _, s, .frozen r => some (s, frozenAction env s r)
  | .go added, s, .add r => some (addAction env s r added)
  | .go _, s, .unlock r result => some ({ s with registrationMutex := none }, .registered r result)
  | .go _, s, .registerProvider provider =>
      some ({ s with registry := (registerDataTypeProvider s.registry provider).1 }, .done)
  | .go _, s, .freeze =>
      some ({ s with registry := (freezeDataTypeRegistry s.registry).1 }, .leave (freezeDataTypeRegistry s.registry).2)
  | .go _, s, .leave result => some ({ s with freezeReturned := s.freezeReturned || result.toBool }, .done)
  | _, _, _ => none

/-- Any number of threads. -/
def protocolProgram : Threads Nat (ProtocolState F T) (ProtocolPc F T) (ProtocolChoice F T) where
  shared₀ := { registry := env.registry, transporter := env.transporter }
  frame₀ _ := .idle
  action := protocolAction env

end Program

end RttOpcua.Types
