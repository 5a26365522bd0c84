import RttOpcua.Values.Methods

/-!
# The canonical codecs

`makeCanonicalProtocol` of `src/type_protocol.cpp` and the codec of `ConnPolicy`, for one build and one endpoint, with
the C++ types of their values. Floating-point values are their bits.
-/

namespace RttOpcua.Values

/-- `float`. -/
structure Float32Bits where
  bits : UInt32
  deriving DecidableEq, Repr

/-- `double`. -/
structure Float64Bits where
  bits : UInt64
  deriving DecidableEq, Repr

/-- What open62541 stores. -/
inductive WireValue where
  | boolean (value : Bool)
  | sbyte (value : Int8)
  | byte (value : UInt8)
  | int16 (value : Int16)
  | uint16 (value : UInt16)
  | int32 (value : Int32)
  | uint32 (value : UInt32)
  | int64 (value : Int64)
  | uint64 (value : UInt64)
  | float (value : Float32Bits)
  | double (value : Float64Bits)
  | string (value : Str)
  | connPolicy (value : ConnPolicyWire)
  deriving DecidableEq, Repr

/-! ## Native types -/

/-- What is found was stored so. -/
class Stored.Exact (U T : Type) [Stored U T] : Prop where
  put_get : ∀ (u : U) (x : T), Stored.get u = some x → Stored.put x = u

section Native

/-- A `Native` type that is one of the alternatives of `WireValue`. -/
@[reducible]
def nativeAlternative {T : Type} (dataType : Nat) (make : T → WireValue) (found : WireValue → Option T)
    (h : ∀ x, found (make x) = some x) : Native WireValue T where
  put := make
  get := found
  get_put := h
  dataType := dataType

instance : Native WireValue Bool :=
  nativeAlternative 1 .boolean (fun | .boolean x => some x | _ => none) fun _ => rfl

instance : Native WireValue Int8 := nativeAlternative 2 .sbyte (fun | .sbyte x => some x | _ => none) fun _ => rfl

instance : Native WireValue UInt8 := nativeAlternative 3 .byte (fun | .byte x => some x | _ => none) fun _ => rfl

instance : Native WireValue Int16 := nativeAlternative 4 .int16 (fun | .int16 x => some x | _ => none) fun _ => rfl

instance : Native WireValue UInt16 := nativeAlternative 5 .uint16 (fun | .uint16 x => some x | _ => none) fun _ => rfl

instance : Native WireValue Int32 := nativeAlternative 6 .int32 (fun | .int32 x => some x | _ => none) fun _ => rfl

instance : Native WireValue UInt32 := nativeAlternative 7 .uint32 (fun | .uint32 x => some x | _ => none) fun _ => rfl

instance : Native WireValue Int64 := nativeAlternative 8 .int64 (fun | .int64 x => some x | _ => none) fun _ => rfl

instance : Native WireValue UInt64 := nativeAlternative 9 .uint64 (fun | .uint64 x => some x | _ => none) fun _ => rfl

instance : Native WireValue Float32Bits :=
  nativeAlternative 10 .float (fun | .float x => some x | _ => none) fun _ => rfl

instance : Native WireValue Float64Bits :=
  nativeAlternative 11 .double (fun | .double x => some x | _ => none) fun _ => rfl

instance : Native WireValue Str := nativeAlternative 12 .string (fun | .string x => some x | _ => none) fun _ => rfl

instance : Stored WireValue ConnPolicyWire where
  put := .connPolicy
  get
    | .connPolicy x => some x
    | _ => none
  get_put _ := rfl

end Native

/-! ## Types -/

/-- The types of `canonicalTypeDescriptors`, and `ConnPolicy`. -/
inductive CanonicalType where
  | bool
  | int8
  | uint8
  | int16
  | uint16
  | int32
  | uint32
  | int64
  | uint64
  | float32
  | float64
  | char
  | string
  | void
  | float64Array
  | int32Array
  | stringArray
  | rtString
  | flowStatus
  | writeStatus
  | taskState
  | connPolicy
  deriving DecidableEq, Repr

namespace CanonicalType

/-- The types of `canonicalTypeDescriptors`, in their order, with or without `OS_RT_MALLOC`. -/
def described (rtMalloc : Bool) : List CanonicalType :=
  [.bool, .int8, .uint8, .int16, .uint16, .int32, .uint32, .int64, .uint64, .float32, .float64, .char, .string, .void,
    .float64Array, .int32Array, .stringArray] ++ (if rtMalloc then [.rtString] else []) ++
  [.flowStatus, .writeStatus, .taskState]

/-- The values of the C++ type. `char` is a byte, an enumeration its code. -/
@[reducible]
def Value : CanonicalType → Type
  | .bool => Bool
  | .int8 => Int8
  | .uint8 => UInt8
  | .int16 => Int16
  | .uint16 => UInt16
  | .int32 => Int32
  | .uint32 => UInt32
  | .int64 => Int64
  | .uint64 => UInt64
  | .float32 => Float32Bits
  | .float64 => Float64Bits
  | .char => UInt8
  | .string => Str
  | .void => Empty
  | .float64Array => List Float64Bits
  | .int32Array => List Int32
  | .stringArray => List Str
  | .rtString => Str
  | .flowStatus => Int32
  | .writeStatus => Int32
  | .taskState => Int32
  | .connPolicy => ConnPolicy

def rttName : CanonicalType → Str
  | .bool => lit "Bool"
  | .int8 => lit "Int8"
  | .uint8 => lit "UInt8"
  | .int16 => lit "Int16"
  | .uint16 => lit "UInt16"
  | .int32 => lit "Int32"
  | .uint32 => lit "UInt32"
  | .int64 => lit "Int64"
  | .uint64 => lit "UInt64"
  | .float32 => lit "Float32"
  | .float64 => lit "Float64"
  | .char => lit "Char"
  | .string => lit "String"
  | .void => lit "Void"
  | .float64Array => lit "Float64Array"
  | .int32Array => lit "Int32Array"
  | .stringArray => lit "StringArray"
  | .rtString => lit "RtString"
  | .flowStatus => lit "FlowStatus"
  | .writeStatus => lit "WriteStatus"
  | .taskState => lit "TaskState"
  | .connPolicy => lit "ConnPolicy"

end CanonicalType

/-! ## Codecs -/

namespace ScalarType

/-- A `char` that is signed: `static_cast` to `std::int8_t` and back. -/
def signedChar : ScalarType UInt8 Int8 where
  encodeScalar value := value.toInt8
  decodeScalarValue value := value.toUInt8

/-- `TaskCore::TaskState` with codes of 32 bits. -/
def taskState32 : ScalarType Int32 Int32 where
  encodeScalar := id
  decodeScalarValue := id
  isValidScalarValue value := isTaskStateCode value.toInt
  isValidScalarWireValue value := isTaskStateCode value.toInt

end ScalarType

/-- How the program was built and what an endpoint has bound: whether `char` is signed, the datatype of `ConnPolicy`, and
the native type that its codec points to, if any. -/
structure Binding where
  charSigned : Bool
  connPolicyType : Nat
  connPolicyNative : Option Nat
  deriving DecidableEq, Repr

def CanonicalType.methods (b : Binding) : (t : CanonicalType) → Methods t.Value (Variant WireValue)
  | .bool => ScalarTypeCodec.methods (.plain Bool) 1
  | .int8 => ScalarTypeCodec.methods (.plain Int8) 2
  | .uint8 => ScalarTypeCodec.methods (.plain UInt8) 3
  | .int16 => ScalarTypeCodec.methods (.plain Int16) 4
  | .uint16 => ScalarTypeCodec.methods (.plain UInt16) 5
  | .int32 => ScalarTypeCodec.methods (.plain Int32) 6
  | .uint32 => ScalarTypeCodec.methods (.plain UInt32) 7
  | .int64 => ScalarTypeCodec.methods (.plain Int64) 8
  | .uint64 => ScalarTypeCodec.methods (.plain UInt64) 9
  | .float32 => ScalarTypeCodec.methods (.plain Float32Bits) 10
  | .float64 => ScalarTypeCodec.methods (.plain Float64Bits) 11
  | .char =>
      if b.charSigned then ScalarTypeCodec.methods .signedChar 2 else ScalarTypeCodec.methods (.plain UInt8) 3
  | .string => ScalarTypeCodec.methods (.plain Str) 12
  | .void => VoidTypeCodec.methods Empty (Variant WireValue) 24
  | .float64Array => ArrayTypeCodec.methods Float64Bits 11
  | .int32Array => ArrayTypeCodec.methods Int32 6
  | .stringArray => ArrayTypeCodec.methods Str 12
  | .rtString => ScalarTypeCodec.methods .rtString 12
  | .flowStatus => ScalarTypeCodec.methods (.plain Int32) 6
  | .writeStatus => ScalarTypeCodec.methods (.plain Int32) 6
  | .taskState => ScalarTypeCodec.methods .taskState32 6
  | .connPolicy => ConnPolicyTypeCodec.methods b.connPolicyType b.connPolicyNative

end RttOpcua.Values
