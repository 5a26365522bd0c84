import RttOpcua.Values.ProxySource

/-!
# The methods of the codecs

What the codec classes of `src/type_protocol.cpp` and `src/conn_policy_protocol.cpp` do with the values of their C++
type, each method as its class writes it out.
-/

namespace RttOpcua.Values

/-! ## Data sources -/

/-- A data source that the codec for `T` is given to assign to: `other` is none at all, or one that the cast to
`AssignableDataSource<T>` rejects; `plain` stores what is set; `proxy` is made by `makeProxyDataSource`. -/
inductive Destination (T X : Type) where
  | other
  | plain (value : T)
  | proxy (class_ : ProxyClass T X) (source : ProxySource T)

namespace Destination

variable {T X : Type}

/-- `value()`. -/
def value : Destination T X → Option T
  | .other => none
  | .plain value => some value
  | .proxy _ source => some source.lastValue

/-- `set(value)`; `false` is an exception that leaves it, and `outcome` what the writer of a proxy does. -/
def set (d : Destination T X) (value : T) (outcome : WriterOutcome) : Destination T X × Bool :=
  match d with
  | .other => (d, true)
  | .plain _ => (.plain value, true)
  | .proxy class_ source => (.proxy class_ (source.set class_ value outcome).1, (source.set class_ value outcome).2)

/-- The tail of `assignVariant`: set, then return true. -/
def assign (d : Destination T X) (value : T) (outcome : WriterOutcome) : Destination T X × Except Unit Bool :=
  ((d.set value outcome).1, if (d.set value outcome).2 then .ok true else .error ())

def isAssignable : Destination T X → Bool
  | .other => false
  | _ => true

end Destination

/-- What the classes of read-only proxies do in their own way. -/
structure ReadOnlyClass (T X : Type) where
  decode : X → Option T
  catchesReader : Bool

/-- `refresh` of a read-only proxy that holds `last`. -/
def ReadOnlyClass.refresh {T X : Type} (p : ReadOnlyClass T X) (last : T) : ReaderOutcome X → T × Except Unit Bool
  | .failed => (last, .ok false)
  | .read value =>
      match p.decode value with
      | none => (last, .ok false)
      | some decoded => (decoded, .ok true)
  | .threw std => (last, if std ∧ p.catchesReader then .ok false else .error ())

/-- `PortValueStatus`, with the `Variant` of a value. -/
inductive PortValue (X : Type) where
  | value (x : X)
  | waitingForInitialData
  | error
  deriving DecidableEq, Repr

/-- The virtual functions of a `TypeCodec` for `T`. A source is given by its `value()` after `evaluate()`, a port by its
last written value; `none` is one that the cast rejects. -/
structure Methods (T X : Type) where
  dataType : Nat
  valueRank : Int
  hasValue : Bool
  toVariant : Option T → Option X
  assignVariant : X → Destination T X → WriterOutcome → Destination T X × Except Unit Bool
  makeDataSource : X → Option T
  /-- `makeProxyDataSource` without a writer. -/
  readOnlyProxy : Option (ReadOnlyClass T X)
  /-- `makeProxyDataSource` with a writer. -/
  assignableProxy : Option (ProxyClass T X)
  portValue : Option (Option T) → PortValue X

/-! ## `ScalarTypeCodec` -/

section Scalar

variable {W T Wire : Type} [Native W Wire] (s : ScalarType T Wire) (dataType : Nat)

def ScalarProxyDataSource : ReadOnlyClass T (Variant W) where
  decode := decodeScalar s dataType
  catchesReader := true

namespace ScalarTypeCodec

def isCompatible (value : Variant W) : Bool := value.isScalar && value.isType dataType

def toVariant (source : Option T) : Option (Variant W) :=
  match source with
  | none => none
  | some localValue =>
      if ¬ s.isValidScalarValue localValue then none else some (.of (s.encodeScalar localValue))

def assignVariant (value : Variant W) (destination : Destination T (Variant W)) (outcome : WriterOutcome) :
    Destination T (Variant W) × Except Unit Bool :=
  if ¬ destination.isAssignable ∨ ¬ isCompatible dataType value then (destination, .ok false)
  else
    match value.toScalar Wire with
    | none => (destination, .ok false)
    | some wireValue =>
        if ¬ s.isValidScalarWireValue wireValue then (destination, .ok false)
        else destination.assign (s.decodeScalarValue wireValue) outcome

def makeDataSource (value : Variant W) : Option T :=
  if ¬ isCompatible dataType value then none
  else
    match value.toScalar Wire with
    | none => none
    | some wireValue => if ¬ s.isValidScalarWireValue wireValue then none else some (s.decodeScalarValue wireValue)

def portValue (port : Option (Option T)) : PortValue (Variant W) :=
  match port with
  | none => .error
  | some none => .waitingForInitialData
  | some (some sample) =>
      if ¬ s.isValidScalarValue sample then .error else .value (.of (s.encodeScalar sample))

def methods : Methods T (Variant W) where
  dataType
  valueRank := -1
  hasValue := true
  toVariant := toVariant s
  assignVariant := assignVariant s dataType
  makeDataSource := makeDataSource s dataType
  readOnlyProxy := some (ScalarProxyDataSource s dataType)
  assignableProxy := some (ScalarAssignableProxyDataSource s dataType)
  portValue := portValue s

end ScalarTypeCodec

end Scalar

/-! ## `ArrayTypeCodec` -/

section Array

variable {W : Type} (T : Type) [Native W T] (elementType : Nat)

def ArrayProxyDataSource : ReadOnlyClass (List T) (Variant W) where
  decode := decodeArray T elementType
  catchesReader := true

namespace ArrayTypeCodec

variable {T} in
def toVariant (source : Option (List T)) : Option (Variant W) :=
  match source with
  | none => none
  | some value => some (.ofVector value)

def assignVariant (value : Variant W) (destination : Destination (List T) (Variant W)) (outcome : WriterOutcome) :
    Destination (List T) (Variant W) × Except Unit Bool :=
  if ¬ destination.isAssignable ∨ ¬ isCompatibleArray value elementType then (destination, .ok false)
  else
    match value.toVector T with
    | none => (destination, .ok false)
    | some values => destination.assign values outcome

def makeDataSource (value : Variant W) : Option (List T) :=
  if ¬ isCompatibleArray value elementType then none else value.toVector T

variable {T} in
def portValue (port : Option (Option (List T))) : PortValue (Variant W) :=
  match port with
  | none => .error
  | some none => .waitingForInitialData
  | some (some sample) => .value (.ofVector sample)

def methods : Methods (List T) (Variant W) where
  dataType := elementType
  valueRank := 1
  hasValue := true
  toVariant := toVariant
  assignVariant := assignVariant T elementType
  makeDataSource := makeDataSource T elementType
  readOnlyProxy := some (ArrayProxyDataSource T elementType)
  assignableProxy := some (ArrayAssignableProxyDataSource T elementType)
  portValue := portValue

end ArrayTypeCodec

end Array

/-! ## `ConnPolicyTypeCodec` -/

section Policy

variable {W : Type} [Stored W ConnPolicyWire] (dataType : Nat) (nativeType : Option Nat)

def ConnPolicyProxyDataSource : ReadOnlyClass ConnPolicy (Variant W) where
  decode := decodeConnPolicy dataType
  catchesReader := false

namespace ConnPolicyTypeCodec

def toVariant (source : Option ConnPolicy) : Option (Variant W) :=
  match source, nativeType with
  | some policy, some type => some (.scalar type (Stored.put (toWire policy)))
  | _, _ => none

def assignVariant (value : Variant W) (destination : Destination ConnPolicy (Variant W)) (outcome : WriterOutcome) :
    Destination ConnPolicy (Variant W) × Except Unit Bool :=
  if ¬ destination.isAssignable then (destination, .ok false)
  else
    match decodeConnPolicy dataType value with
    | none => (destination, .ok false)
    | some decoded => destination.assign decoded outcome

def makeDataSource (value : Variant W) : Option ConnPolicy := decodeConnPolicy dataType value

def portValue (port : Option (Option ConnPolicy)) : PortValue (Variant W) :=
  match port, nativeType with
  | none, _ => .error
  | _, none => .error
  | some none, some _ => .waitingForInitialData
  | some (some sample), some type => .value (.scalar type (Stored.put (toWire sample)))

def methods : Methods ConnPolicy (Variant W) where
  dataType
  valueRank := -1
  hasValue := true
  toVariant := toVariant nativeType
  assignVariant := assignVariant dataType
  makeDataSource := makeDataSource dataType
  readOnlyProxy := some (ConnPolicyProxyDataSource dataType)
  assignableProxy := some (ConnPolicyAssignableProxyDataSource dataType nativeType)
  portValue := portValue nativeType

end ConnPolicyTypeCodec

end Policy

/-! ## `VoidTypeCodec` -/

def VoidTypeCodec.methods (T X : Type) (dataType : Nat) : Methods T X where
  dataType
  valueRank := -1
  hasValue := false
  toVariant _ := none
  assignVariant _ destination _ := (destination, .ok false)
  makeDataSource _ := none
  readOnlyProxy := none
  assignableProxy := none
  portValue _ := .error

/-! ## Published values -/

/-- The `StatusCode`s of a value node. -/
inductive AccessStatus where
  | good
  | badIndexRangeInvalid
  | badNotWritable
  | badTypeMismatch
  | badNotConnected
  deriving DecidableEq, Repr

/-- `GuardedValueDataSource`, without the source that it publishes. -/
structure GuardedValueDataSource (T X : Type) where
  codec : Option (Methods T X)
  writable : Bool

/-- `read`, for a request with an index range or without, and with a lease or without. -/
def GuardedValueDataSource.read {T X : Type} (node : GuardedValueDataSource T X) (range lease : Bool)
    (source : Destination T X) : Except AccessStatus X :=
  if range then .error .badIndexRangeInvalid
  else if ¬ lease then .error .badNotConnected
  else
    match node.codec.bind fun codec => codec.toVariant source.value with
    | none => .error .badTypeMismatch
    | some encoded => .ok encoded

/-- `write`, for a request with an index range or without, with a value or without, and with a lease or without; an
exception of the writer goes through. -/
def GuardedValueDataSource.write {T X : Type} (node : GuardedValueDataSource T X) (range : Bool) (value : Option X)
    (lease : Bool) (source : Destination T X) (outcome : WriterOutcome) :
    Destination T X × Except Unit AccessStatus :=
  if range then (source, .ok .badIndexRangeInvalid)
  else if ¬ node.writable then (source, .ok .badNotWritable)
  else
    match value with
    | none => (source, .ok .badTypeMismatch)
    | some value =>
        if ¬ lease then (source, .ok .badNotConnected)
        else
          match node.codec with
          | none => (source, .ok .badTypeMismatch)
          | some codec =>
              match codec.assignVariant value source outcome with
              | (source', .ok assigned) => (source', .ok (if assigned then .good else .badTypeMismatch))
              | (source', .error e) => (source', .error e)

/-! ## Codecs for all values -/

/-- The codec with these methods, among the values of all types. -/
def Methods.toTypeCodec {V T X : Type} [Stored V T] (m : Methods T X) (typeInfo : Nat) : TypeCodec V X where
  typeInfo
  dataType := m.dataType
  valueRank := m.valueRank
  hasValue := m.hasValue
  toVariant v := m.toVariant (Stored.get v)
  fromVariant x := (m.makeDataSource x).map Stored.put

end RttOpcua.Values
