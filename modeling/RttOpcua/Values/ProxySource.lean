import RttOpcua.Values.Codec

/-!
# Writable proxy data sources

`ScalarAssignableProxyDataSource`, `ArrayAssignableProxyDataSource` and `ConnPolicyAssignableProxyDataSource`: the
same code but for the conversion, and for the exceptions of the reader, which the last does not catch. The reader and
the writer are code of the caller; what they do is an input of each call.
-/

namespace RttOpcua.Values

/-! ## The three classes -/

/-- What the classes do in their own way. `none` is a value that does not decode, or that `set` does not write. -/
structure ProxyClass (T X : Type) where
  decode : X → Option T
  encode : T → Option X
  catchesReader : Bool

section Classes

variable {W : Type}

def ScalarAssignableProxyDataSource {T Wire : Type} [Native W Wire] (s : ScalarType T Wire) (dataType : Nat) :
    ProxyClass T (Variant W) where
  decode := decodeScalar s dataType
  encode := scalarVariant s
  catchesReader := true

def ArrayAssignableProxyDataSource (T : Type) [Native W T] (elementType : Nat) : ProxyClass (List T) (Variant W) where
  decode := decodeArray T elementType
  encode value := some (.ofVector value)
  catchesReader := true

def ConnPolicyAssignableProxyDataSource [Stored W ConnPolicyWire] (dataType : Nat) (nativeType : Option Nat) :
    ProxyClass ConnPolicy (Variant W) where
  decode := decodeConnPolicy dataType
  encode := connPolicyVariant nativeType
  catchesReader := false

end Classes

/-! ## The data source -/

/-- What the reader does: it is empty or returns `false`, returns a `Variant`, or throws a `std::exception` or
anything else. -/
inductive ReaderOutcome (X : Type) where
  | failed
  | read (value : X)
  | threw (std : Bool)
  deriving DecidableEq, Repr

/-- What the writer does. -/
inductive WriterOutcome where
  | failed
  | acknowledged
  | threw (std : Bool)
  deriving DecidableEq, Repr

/-- `lastValue` is what `value` and `rvalue` return, and what `set()` refers to. The other fields are history, which
the code does not have: the default, the last value read or the last one acknowledged, whichever came last; whether a
reference has been handed out; whether it was written through since the last `updated`. -/
structure ProxySource (T : Type) where
  lastValue : T
  remote : T
  handedOut : Bool := false
  edited : Bool := false
  deriving DecidableEq, Repr

namespace ProxySource

variable {T X : Type} (p : ProxyClass T X) (s : ProxySource T)

/-- A new data source. -/
def new (default : T) : ProxySource T := { lastValue := default, remote := default }

/-- `refresh`: whether it read a value, or what the reader threw. -/
def refresh : ReaderOutcome X → ProxySource T × Except Unit Bool
  | .failed => (s, .ok false)
  | .read value =>
      match p.decode value with
      | none => (s, .ok false)
      | some decoded => ({ s with lastValue := decoded }, .ok true)
  | .threw std => (s, if std ∧ p.catchesReader then .ok false else .error ())

/-- `set(value)`; `false` is an exception that leaves it. -/
def set (value : T) (outcome : WriterOutcome) : ProxySource T × Bool :=
  match p.encode value with
  | none => (s, true)
  | some _ =>
      match outcome with
      | .failed => (s, true)
      | .acknowledged => ({ s with lastValue := value }, true)
      | .threw std => (s, std)

def get (outcome : ReaderOutcome X) : ProxySource T × Except Unit T :=
  match s.refresh p outcome with
  | (s, .ok _) => (s, .ok s.lastValue)
  | (s, .error e) => (s, .error e)

def evaluate (outcome : ReaderOutcome X) : ProxySource T × Except Unit Bool := s.refresh p outcome

/-- `set()`. The reference is handed out if nothing is thrown. -/
def setReference (outcome : ReaderOutcome X) : ProxySource T × Except Unit Unit :=
  match s.refresh p outcome with
  | (s, .ok _) => ({ s with handedOut := true }, .ok ())
  | (s, .error e) => (s, .error e)

def updated (outcome : WriterOutcome) : ProxySource T × Bool := s.set p s.lastValue outcome

end ProxySource

/-! ## Runs -/

/-- A call, or a write through the reference that `set()` returned. -/
inductive ProxyCall (T X : Type) where
  | get (outcome : ReaderOutcome X)
  | evaluate (outcome : ReaderOutcome X)
  | set (value : T) (outcome : WriterOutcome)
  | setReference (outcome : ReaderOutcome X)
  | edit (value : T)
  | updated (outcome : WriterOutcome)
  deriving DecidableEq, Repr

namespace ProxySource

variable {T X : Type} (p : ProxyClass T X)

/-- The value that a call reads, or that it writes and the writer acknowledges. -/
def confirms (s : ProxySource T) : ProxyCall T X → Option T
  | .get (.read value) => p.decode value
  | .evaluate (.read value) => p.decode value
  | .setReference (.read value) => p.decode value
  | .set value .acknowledged => (p.encode value).map fun _ => value
  | .updated .acknowledged => (p.encode s.lastValue).map fun _ => s.lastValue
  | _ => none

/-- The call itself. -/
def perform (s : ProxySource T) : ProxyCall T X → ProxySource T
  | .get outcome => (s.get p outcome).1
  | .evaluate outcome => (s.evaluate p outcome).1
  | .set value outcome => (s.set p value outcome).1
  | .setReference outcome => (s.setReference p outcome).1
  | .edit value => { s with lastValue := value, edited := true }
  | .updated outcome => { (s.updated p outcome).1 with edited := false }

/-- A call with its history; there is nothing to write through before a `set()`. -/
def step (s : ProxySource T) (call : ProxyCall T X) : Option (ProxySource T) :=
  match call with
  | .edit _ => if s.handedOut then some (s.perform p call) else none
  | _ => some { s.perform p call with remote := (s.confirms p call).getD s.remote }

/-- The states of a run, from the first to the last. -/
def states (s : ProxySource T) : List (ProxyCall T X) → Option (List (ProxySource T))
  | [] => some [s]
  | call :: rest => do
      let s' ← s.step p call
      let more ← states s' rest
      some (s :: more)

end ProxySource

end RttOpcua.Values
