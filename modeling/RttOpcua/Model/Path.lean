import RttOpcua.Basic

/-!
# Node paths

`src/node_id.cpp` escapes the segments of a NodeId; the server grows paths segment by segment
(`src/object_model.cpp`), the client makes them at once (`modelPath` of `src/client_session.cpp`).
-/

namespace RttOpcua.Model

/-- `'/'`. -/
def slash : UInt8 := 47

/-- `'%'`. -/
def percent : UInt8 := 37

def isUnreserved (value : UInt8) : Bool :=
  97 ≤ value && value ≤ 122 || 65 ≤ value && value ≤ 90 || 48 ≤ value && value ≤ 57 ||
    value == 45 || value == 46 || value == 95 || value == 126

def kHexDigits : Str := lit "0123456789ABCDEF"

def hexDigit (value : UInt8) : UInt8 := kHexDigits.getD value.toNat 0

def escapeByte (value : UInt8) : Str :=
  if isUnreserved value then [value] else [percent, hexDigit (value >>> 4), hexDigit (value &&& 0x0F)]

def escapeNodeIdSegment (segment : Str) : Str :=
  if segment = [] then lit "%00" else segment.flatMap escapeByte

def appendNodeSegment (path segment : Str) : Str := path ++ slash :: escapeNodeIdSegment segment

def makeNodePath (segments : List Str) : Str := segments.foldl appendNodeSegment (lit "rtt")

def pathDepth (path : Str) : Nat := path.count slash

/-! ## The server's paths -/

inductive ResourceKind where
  | operation
  | property
  | attribute
  | port
  | service
  deriving DecidableEq, Repr

def resourceCategory : ResourceKind → Str
  | .operation => lit "operations"
  | .property => lit "properties"
  | .attribute => lit "attributes"
  | .port => lit "ports"
  | .service => lit "services"

def resourceKindName : ResourceKind → Str
  | .operation => lit "operation"
  | .property => lit "property"
  | .attribute => lit "attribute"
  | .port => lit "port"
  | .service => lit "service"

/-- The browse names of `kResourceCategories`. -/
def categoryBrowseName : ResourceKind → Str
  | .operation => lit "Operations"
  | .property => lit "Properties"
  | .attribute => lit "Attributes"
  | .port => lit "Ports"
  | .service => lit "Services"

/-- The path of a resource below its component. -/
def resourcePath (ownerPath : Str) (kind : ResourceKind) (name : Str) : Str :=
  appendNodeSegment ((if ownerPath = [] then [] else ownerPath ++ [slash]) ++ resourceCategory kind) name

def resourceNodePath (componentPath path : Str) : Str := componentPath ++ slash :: path

def componentsPath : Str := appendNodeSegment (lit "rtt") (lit "components")

def componentPath (component : Str) : Str := appendNodeSegment componentsPath component

/-! ## The client's paths -/

def modelPath (component : Str) (servicePath trailing : List Str) : Str :=
  makeNodePath ([lit "components", component] ++ servicePath.flatMap (fun name => [lit "services", name]) ++ trailing)

end RttOpcua.Model
