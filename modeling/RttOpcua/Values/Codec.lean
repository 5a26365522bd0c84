import RttOpcua.Model.Interface

/-!
# Codecs

`Variant`s and the codecs of `src/type_protocol.cpp` and `src/conn_policy_protocol.cpp`. The values of RTT and those
that open62541 stores are parameters: `V` and `W`. A codec is what it makes of a value (`toVariant`) and of a
`Variant` (`assignVariant` and `makeDataSource`).
-/

namespace RttOpcua.Values

/-- The values of a C++ type among others: how one is stored, and what is found again. -/
class Stored (U : Type) (T : Type) where
  put : T → U
  get : U → Option T
  get_put : ∀ x, get (put x) = some x

/-- A C++ type that open62541pp can store, with its datatype. -/
class Native (W : Type) (T : Type) extends Stored W T where
  dataType : Nat

/-- A type that is stored as it is. -/
@[reducible]
def Native.self (T : Type) (dataType : Nat) : Native T T where
  put := id
  get := some
  get_put _ := rfl
  dataType := dataType

/-- `opcua::Variant`. -/
inductive Variant (W : Type) where
  | empty
  | scalar (dataType : Nat) (value : W)
  | array (dataType : Nat) (values : List W) (dimensions : List Nat)
  deriving DecidableEq, Repr

namespace Variant

variable {W : Type} (v : Variant W)

def isScalar : Bool :=
  match v with
  | .scalar _ _ => true
  | _ => false

def isArray : Bool :=
  match v with
  | .array _ _ _ => true
  | _ => false

def isType (dataType : Nat) : Bool :=
  match v with
  | .empty => false
  | .scalar type _ => type = dataType
  | .array type _ _ => type = dataType

def arrayDimensions : List Nat :=
  match v with
  | .array _ _ dimensions => dimensions
  | _ => []

variable (T : Type) [Native W T]

/-- `to<T>()`; what it throws is `none`. -/
def toScalar : Option T :=
  match v with
  | .scalar _ value => Stored.get value
  | _ => none

/-- `to<std::vector<T>>()`. -/
def toVector : Option (List T) :=
  match v with
  | .array _ values _ => values.mapM Stored.get
  | _ => none

variable {T}

/-- A `Variant` of a value, with the datatype of its C++ type. -/
def of (value : T) : Variant W := .scalar (Native.dataType W T) (Stored.put value)

def ofVector (values : List T) : Variant W := .array (Native.dataType W T) (values.map Stored.put) []

end Variant

/-! ## Scalars -/

/-- What the templates of the scalars do for `T` and `Wire`. -/
structure ScalarType (T Wire : Type) where
  encodeScalar : T → Wire
  decodeScalarValue : Wire → T
  isValidScalarValue : T → Bool := fun _ => true
  isValidScalarWireValue : Wire → Bool := fun _ => true

namespace ScalarType

/-- A type that is stored as it is: `static_cast` changes no value. -/
def plain (T : Type) : ScalarType T T where
  encodeScalar := id
  decodeScalarValue := id

/-- `RTT::rt_string`, which goes through `c_str()`. -/
def rtString : ScalarType Str Str where
  encodeScalar s := s.takeWhile (· ≠ 0)
  decodeScalarValue s := s.takeWhile (· ≠ 0)

/-- `isTaskStateCode`: from `Init` to `RunTimeError`. -/
def isTaskStateCode (value : Int) : Bool := 0 ≤ value && value ≤ 6

/-- `TaskCore::TaskState`, by its codes. -/
def taskState : ScalarType Int Int where
  encodeScalar := id
  decodeScalarValue := id
  isValidScalarValue := isTaskStateCode
  isValidScalarWireValue := isTaskStateCode

end ScalarType

section Scalars

variable {W T Wire : Type} [Native W Wire] (s : ScalarType T Wire)

def decodeScalar (dataType : Nat) (value : Variant W) : Option T :=
  if ¬ value.isScalar ∨ ¬ value.isType dataType then none
  else
    match value.toScalar Wire with
    | none => none
    | some wireValue =>
        if ¬ s.isValidScalarWireValue wireValue then none else some (s.decodeScalarValue wireValue)

/-- The `Variant` of a valid value. -/
def scalarVariant (value : T) : Option (Variant W) :=
  if ¬ s.isValidScalarValue value then none else some (.of (s.encodeScalar value))

end Scalars

/-! ## Arrays -/

section Arrays

variable {W : Type}

def isCompatibleArray (value : Variant W) (elementType : Nat) : Bool :=
  value.isArray && value.isType elementType && value.arrayDimensions.length ≤ 1

/-- The array in a compatible `Variant`. -/
def decodeArray (T : Type) [Native W T] (elementType : Nat) (value : Variant W) : Option (List T) :=
  if ¬ isCompatibleArray value elementType then none else value.toVector T

end Arrays

/-! ## Connection policies -/

/-- `int` and `std::int32_t`, which have the same values here. -/
abbrev Int32 := BitVec 32

/-- `RTT::ConnPolicy`. -/
structure ConnPolicy where
  type : Int32
  size : Int32
  lockPolicy : Int32
  init : Bool
  pull : Bool
  bufferPolicy : Int32
  maxThreads : Int32
  mandatory : Bool
  transport : Int32
  dataSize : Int32
  nameId : Str
  deriving DecidableEq, Repr

structure ConnPolicyWire where
  type : Int32
  size : Int32
  lockPolicy : Int32
  init : Bool
  pull : Bool
  bufferPolicy : Int32
  maxThreads : Int32
  mandatory : Bool
  transport : Int32
  dataSize : Int32
  nameId : Str
  deriving DecidableEq, Repr

def toWire (policy : ConnPolicy) : ConnPolicyWire :=
  ⟨policy.type, policy.size, policy.lockPolicy, policy.init, policy.pull, policy.bufferPolicy, policy.maxThreads,
    policy.mandatory, policy.transport, policy.dataSize, policy.nameId⟩

def fromWire (wire : ConnPolicyWire) : ConnPolicy :=
  ⟨wire.type, wire.size, wire.lockPolicy, wire.init, wire.pull, wire.bufferPolicy, wire.maxThreads, wire.mandatory,
    wire.transport, wire.dataSize, wire.nameId⟩

section Policies

variable {W : Type} [Stored W ConnPolicyWire]

def decodeConnPolicy (dataType : Nat) (value : Variant W) : Option ConnPolicy :=
  if ¬ value.isScalar ∨ ¬ value.isType dataType then none
  else
    match value with
    | .scalar _ data => (Stored.get data : Option ConnPolicyWire).map fromWire
    | _ => none

/-- `Variant(toWire(policy), *native_type_)`. -/
def connPolicyVariant (nativeType : Option Nat) (policy : ConnPolicy) : Option (Variant W) :=
  nativeType.map fun type => .scalar type (Stored.put (toWire policy))

end Policies

/-! ## Codecs -/

/-- `TypeCodec`. `typeInfo` is the C++ type of the values: the casts to its data sources succeed for that type only. -/
structure TypeCodec (V X : Type) where
  typeInfo : Nat
  dataType : Nat
  valueRank : Int
  hasValue : Bool
  toVariant : V → Option X
  fromVariant : X → Option V

section Codecs

variable {V W : Type}

def ScalarTypeCodec {T Wire : Type} [Stored V T] [Native W Wire] (s : ScalarType T Wire) (typeInfo dataType : Nat) :
    TypeCodec V (Variant W) where
  typeInfo
  dataType
  valueRank := -1
  hasValue := true
  toVariant v := (Stored.get v).bind (scalarVariant s)
  fromVariant x := (decodeScalar s dataType x).map Stored.put

def ArrayTypeCodec (T : Type) [Stored V (List T)] [Native W T] (typeInfo elementType : Nat) :
    TypeCodec V (Variant W) where
  typeInfo
  dataType := elementType
  valueRank := 1
  hasValue := true
  toVariant v := (Stored.get v : Option (List T)).map Variant.ofVector
  fromVariant x := (decodeArray T elementType x).map Stored.put

def ConnPolicyTypeCodec [Stored V ConnPolicy] [Stored W ConnPolicyWire] (typeInfo dataType : Nat)
    (nativeType : Option Nat) : TypeCodec V (Variant W) where
  typeInfo
  dataType
  valueRank := -1
  hasValue := true
  toVariant v := (Stored.get v).bind (connPolicyVariant nativeType)
  fromVariant x := (decodeConnPolicy dataType x).map Stored.put

def VoidTypeCodec (V X : Type) (typeInfo dataType : Nat) : TypeCodec V X where
  typeInfo
  dataType
  valueRank := -1
  hasValue := false
  toVariant _ := none
  fromVariant _ := none

end Codecs

/-! ## Registries -/

/-- What is asked of a codec without values. -/
def TypeCodec.toCodec {V X : Type} (codec : TypeCodec V X) : Model.Codec where
  hasValue := codec.hasValue
  dataType := codec.dataType
  valueRank := codec.valueRank

/-- The RTT type system and an `EndpointTypeRegistry`, with the values that the codecs convert. RTT gives each type a name
of its own, and there are no values of `Void`. -/
structure ValueRegistry (V X : Type) where
  getTypeName : Nat → Str
  type : Str → Option Nat
  /-- Whether `TypeInfo::buildValue` makes a data source. -/
  buildValue : Nat → Bool
  /-- Whether `TypeInfo::buildActionAlias` makes one. -/
  buildActionAlias : Nat → Bool
  codecForTypeInfo : Nat → Option (TypeCodec V X)
  codecForTypeName : Str → Option (TypeCodec V X)
  getTypeName_inj : ∀ t u, getTypeName t = getTypeName u → t = u
  void : ∀ name codec, codecForTypeName name = some codec → getTypeName codec.typeInfo = lit "Void" →
    ∀ x, codec.fromVariant x = none

/-- What is asked of the registry without values. -/
def ValueRegistry.toTypeRegistry {V X : Type} (registry : ValueRegistry V X) : Model.TypeRegistry where
  getTypeName := registry.getTypeName
  type := registry.type
  codecForTypeInfo type := (registry.codecForTypeInfo type).map fun codec => codec.toCodec
  codecForTypeName name := (registry.codecForTypeName name).map fun codec => codec.toCodec

end RttOpcua.Values
