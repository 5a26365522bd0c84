import RttOpcua.Basic

/-!
# RTT interfaces

What the object model asks of an RTT component: its graph of services with their members, and the types
of these. Types, services and component instances are objects with an identity; here they are numbers.
-/

namespace RttOpcua.Model

/-- The part of a `TypeCodec` that a publication reads. -/
structure Codec where
  hasValue : Bool
  dataType : Nat
  valueRank : Int
  deriving DecidableEq, Repr

/-- The RTT type system and an `EndpointTypeRegistry`. -/
structure TypeRegistry where
  /-- `TypeInfo::getTypeName`. -/
  getTypeName : Nat → Str
  /-- `Types()->type`. -/
  type : Str → Option Nat
  codecForTypeInfo : Nat → Option Codec
  codecForTypeName : Str → Option Codec

structure DataSource where
  typeInfo : Option Nat
  isAssignable : Bool
  deriving DecidableEq, Repr

structure ArgumentDescription where
  name : Str
  description : Str
  /-- The type as RTT spells it, with its qualifiers. -/
  type : Str
  deriving DecidableEq, Repr

/-- `OperationInterfacePart`. `types` are the types of the return value and of the arguments, `collect` those
of the collected outputs. `describe` catches what these functions throw: `argumentList` is `none` then. -/
structure Operation where
  description : Str
  argumentList : Option (List ArgumentDescription)
  returnType : Option Nat
  types : List (Option Nat)
  collect : List (Option Nat)
  deriving DecidableEq, Repr

structure Property where
  description : Str
  dataSource : Option DataSource
  deriving DecidableEq, Repr

structure Attribute where
  dataSource : Option DataSource
  deriving DecidableEq, Repr

/-- `PortInterface`; whether it is an input or an output is what two dynamic casts say. -/
structure Port where
  description : Str
  typeInfo : Option Nat
  isInput : Bool
  isOutput : Bool
  keepsLastWrittenValue : Bool
  deriving DecidableEq, Repr

/-- `RTT::Service`: names, and what is found under a name. -/
structure Service where
  doc : Str := []
  operationNames : List Str := []
  getOperation : Str → Option Operation := fun _ => none
  propertyNames : List Str := []
  getProperty : Str → Option Property := fun _ => none
  attributeNames : List Str := []
  getValue : Str → Option Attribute := fun _ => none
  portNames : List Str := []
  getPort : Str → Option Port := fun _ => none
  providerNames : List Str := []
  getService : Str → Option Nat := fun _ => none

/-- `RTT::TaskContext`. `root` is `provides()`. -/
structure Component where
  self : Nat
  name : Str
  root : Option Nat
  service : Nat → Service

end RttOpcua.Model
