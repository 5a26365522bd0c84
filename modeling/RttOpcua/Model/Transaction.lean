import RttOpcua.Model.Snapshot

/-!
# Creating and rolling back nodes

`createCandidate` and `closeAndRollback` of `src/object_model.cpp` over an OPC UA address space. The services
of open62541 that the rollback uses are a parameter, `Native`; what is assumed of them is `Native.Documented`.
While nodes are created, the callbacks of other code may add nodes and references of their own.
-/

namespace RttOpcua.Model

open RttOpcua.Lib

/-! ## Address spaces -/

/-- Nodes of the model have string identifiers in its namespace. -/
inductive NodeId where
  | path (p : Str)
  | other (n : Nat)
  deriving DecidableEq, Repr

inductive ReferenceType where
  | organizes
  | hasComponent
  | hasProperty
  | otherHierarchical
  | nonHierarchical
  deriving DecidableEq, Repr

def ReferenceType.isHierarchical : ReferenceType → Bool
  | .nonHierarchical => false
  | _ => true

/-- A reference, kept once for both directions. The target may be on another server. -/
structure Reference where
  source : NodeId
  target : NodeId
  type : ReferenceType
  isLocal : Bool := true
  deriving DecidableEq, Repr

structure Node where
  nodeClass : NodeKind
  browseNamespace : Nat
  browseName : Str
  deriving DecidableEq, Repr

structure AddressSpace where
  nodes : NodeId → Option Node
  references : List Reference

namespace AddressSpace

variable (s : AddressSpace)

def exists? (id : NodeId) : Bool := (s.nodes id).isSome

/-- An identifier that is taken stays with its node. -/
def addNode (id : NodeId) (node : Node) : AddressSpace :=
  if s.exists? id then s else { s with nodes := Function.update s.nodes id (some node) }

/-- Both ends must be there. -/
def addReference (r : Reference) : AddressSpace :=
  if s.exists? r.source ∧ (r.isLocal → s.exists? r.target) ∧ r ∉ s.references then
    { s with references := s.references ++ [r] }
  else s

/-- Local references have both ends, others a source, and none is kept twice. -/
structure WellFormed : Prop where
  source : ∀ r ∈ s.references, s.exists? r.source = true
  target : ∀ r ∈ s.references, r.isLocal = true → s.exists? r.target = true
  nodup : s.references.Nodup

/-- `y` is a hierarchical child of `x`. -/
def Child (x y : NodeId) : Prop :=
  ∃ r ∈ s.references, r.source = x ∧ r.target = y ∧ r.isLocal = true ∧ r.type.isHierarchical = true

/-- The nodes that go with `id`: hierarchical children left with no other hierarchical parent. -/
inductive Cascade (id : NodeId) : NodeId → Prop where
  | root : Cascade id id
  | child {x y : NodeId} : s.Child x y → (∀ z, s.Child z y → Cascade id z) → Cascade id y

end AddressSpace

/-! ## The services of open62541 -/

/-- The filters of the two kinds of browse requests, both forward. -/
inductive BrowseFilter where
  | hierarchical
  | properties
  deriving DecidableEq, Repr

/-- The node class is known of local targets only. -/
def BrowseFilter.accepts (s : AddressSpace) (r : Reference) : BrowseFilter → Bool
  | .hierarchical => r.type.isHierarchical
  | .properties =>
      r.type = .hasProperty && (!r.isLocal || (s.nodes r.target).any fun node => node.nodeClass = .variable)

inductive DeleteStatus where
  | good
  | nodeIdUnknown
  | bad
  deriving DecidableEq, Repr

structure Native where
  browse : AddressSpace → NodeId → BrowseFilter → Option (List Reference)
  deleteReference : AddressSpace → Reference → AddressSpace × Bool
  deleteNode : AddressSpace → NodeId → AddressSpace × DeleteStatus

/-- The services succeed on nodes and references that exist. `deleteNode` also removes the nodes that are
left without a hierarchical parent, and the references of all removed nodes. -/
structure Native.Documented (native : Native) : Prop where
  browse : ∀ s id f, s.exists? id = true → ∃ refs, native.browse s id f = some refs ∧ refs.Nodup ∧
    ∀ r, r ∈ refs ↔ r ∈ s.references ∧ r.source = id ∧ f.accepts s r = true
  deleteReference : ∀ s r, r ∈ s.references → s.exists? r.source = true →
    native.deleteReference s r = ({ s with references := s.references.filter (· ≠ r) }, true)
  deleteNode_unknown : ∀ s id, s.exists? id = false → native.deleteNode s id = (s, .nodeIdUnknown)
  deleteNode : ∀ s id, s.exists? id = true → ∃ s', native.deleteNode s id = (s', .good) ∧
    (∀ x, s.Cascade id x → s'.nodes x = none) ∧ (∀ x, ¬ s.Cascade id x → s'.nodes x = s.nodes x) ∧
    (∀ r, r ∈ s'.references ↔ r ∈ s.references ∧ ¬ s.Cascade id r.source ∧
      (r.isLocal = true → ¬ s.Cascade id r.target)) ∧
    s'.references.Sublist s.references

/-! ## Creation -/

structure CreatedNode where
  id : NodeId
  recursiveRoot : Bool := false
  deriving DecidableEq, Repr

structure Transaction where
  space : AddressSpace
  ledger : List CreatedNode := []

def Transaction.ids (tx : Transaction) : List NodeId := tx.ledger.map CreatedNode.id

/-- What callbacks add. -/
structure Additions where
  nodes : List (NodeId × Node) := []
  references : List Reference := []

def AddressSpace.addAll (s : AddressSpace) (a : Additions) : AddressSpace :=
  a.references.foldl addReference (a.nodes.foldl (fun s p => s.addNode p.1 p.2) s)

/-- What the code does not decide about one call of `create`: whether open62541 adds the node and the
backend is installed, the identifiers it gives to the argument nodes of a method, whether the arguments
read back as expected, and what callbacks add before and after. -/
structure Creation where
  added : Bool := true
  installed : Bool := true
  inputArgumentsId : Nat := 0
  outputArgumentsId : Nat := 0
  validates : Str → Bool := fun _ => true
  before : Additions := {}
  after : Additions := {}

def nodeId (path : Str) : NodeId := .path path

def NodeSpec.reference (spec : NodeSpec) : ReferenceType :=
  match spec.content with
  | .staticString _ true => .hasProperty
  | .stringArray _ => .hasProperty
  | .int32Array _ => .hasProperty
  | _ => .hasComponent

def inputArguments : Node := ⟨.variable, 0, lit "InputArguments"⟩

def outputArguments : Node := ⟨.variable, 0, lit "OutputArguments"⟩

/-- The argument nodes that open62541 adds to a method. -/
def argumentNodes (spec : NodeSpec) (e : Creation) : List (NodeId × Node) :=
  (if spec.expectsInputArguments then [(.other e.inputArgumentsId, inputArguments)] else []) ++
  (if spec.expectsOutputArguments then [(.other e.outputArgumentsId, outputArguments)] else [])

/-- open62541 adds a node if its identifier is free, its parent exists, and unused identifiers are found for
its argument nodes. -/
def canAdd (s : AddressSpace) (spec : NodeSpec) (e : Creation) : Bool :=
  e.added && !s.exists? (nodeId spec.path) && s.exists? (nodeId spec.parentPath) &&
    (argumentNodes spec e).all (fun a => !s.exists? a.1) && decide ((argumentNodes spec e).map Prod.fst).Nodup

/-- The node with its reference from the parent, and a method with its argument nodes. -/
def addSpec (s : AddressSpace) (spec : NodeSpec) (e : Creation) : AddressSpace :=
  let s := (s.addNode (nodeId spec.path) ⟨spec.kind, 1, spec.browseName⟩).addReference
    { source := nodeId spec.parentPath, target := nodeId spec.path, type := spec.reference }
  (argumentNodes spec e).foldl (fun s a => (s.addNode a.1 a.2).addReference
    { source := nodeId spec.path, target := a.1, type := .hasProperty }) s

/-- `createNode`: the space, `created` and the result. -/
def createNode (s : AddressSpace) (spec : NodeSpec) (e : Creation) : AddressSpace × Bool × Bool :=
  let s := s.addAll e.before
  if canAdd s spec e then ((addSpec s spec e).addAll e.after, true, e.installed)
  else (s.addAll e.after, false, false)

def isMethodArgument (node : Node) : Bool :=
  node.nodeClass = .variable && node.browseNamespace = 0 &&
    (node.browseName = lit "InputArguments" || node.browseName = lit "OutputArguments")

/-- The target of a reference is an argument node on this server. -/
def isArgumentReference (s : AddressSpace) (r : Reference) : Bool :=
  r.isLocal && (s.nodes r.target).any isMethodArgument

/-- The check of the recorded arguments: expected, found once and valid. -/
def checkArguments (spec : NodeSpec) (e : Creation) (names : List Str) : Bool :=
  names.all (fun name =>
    (name = lit "InputArguments" && spec.expectsInputArguments ||
      name = lit "OutputArguments" && spec.expectsOutputArguments) && e.validates name) &&
    decide names.Nodup &&
    names.length == spec.expectsInputArguments.toNat + spec.expectsOutputArguments.toNat

def recordMethodArgumentNodes (native : Native) (spec : NodeSpec) (e : Creation) (tx : Transaction) :
    Transaction × Bool :=
  match native.browse tx.space (nodeId spec.path) .properties with
  | none => (tx, false)
  | some refs =>
      let found := refs.filter (isArgumentReference tx.space)
      let tx' := { tx with ledger := tx.ledger ++ found.map fun r => { id := r.target } }
      if refs.any (fun r => !isArgumentReference tx.space r) then (tx', false)
      else (tx', checkArguments spec e (refs.filterMap fun r => (tx.space.nodes r.target).map Node.browseName))

/-- The order of creation: path depth, then path. -/
def creationOrder (a b : NodeSpec) : Bool :=
  if pathDepth a.path = pathDepth b.path then (compare a.path b.path).isLE else pathDepth a.path < pathDepth b.path

/-- The body of the loop of `createCandidate`; the creation goes on while it is `true`. -/
def createSpec (native : Native) (componentRoot : Str) (effects : Str → Creation) (spec : NodeSpec)
    (tx : Transaction) : Transaction × Bool :=
  let e := effects spec.path
  let (space, created, ready) := createNode tx.space spec e
  if created then
    let primary : CreatedNode := ⟨nodeId spec.path, spec.path = componentRoot || spec.kind = .method⟩
    let tx : Transaction := ⟨space, tx.ledger ++ [primary]⟩
    if spec.kind = .method then
      let (tx, recorded) := recordMethodArgumentNodes native spec e tx
      (tx, recorded && ready)
    else (tx, ready)
  else (⟨space, tx.ledger⟩, false)

def createSpecs (native : Native) (componentRoot : Str) (effects : Str → Creation) :
    List NodeSpec → Transaction → Transaction × Bool
  | [], tx => (tx, true)
  | spec :: rest, tx =>
      let (tx, ok) := createSpec native componentRoot effects spec tx
      if ok then createSpecs native componentRoot effects rest tx else (tx, false)

def createCandidate (native : Native) (component : Str) (nodes : NodeMap) (effects : Str → Creation)
    (space : AddressSpace) : Transaction × Bool :=
  createSpecs native (componentPath component) effects
    ((nodes.entries.map Prod.snd).insertionSort fun a b => creationOrder a b = true) { space }

/-! ## Rollback -/

/-- The loop of `collectDescendantNodeIds`, for as many rounds as there is fuel. -/
def collectLoop (native : Native) (s : AddressSpace) : Nat → List NodeId → List NodeId → Option (List NodeId)
  | _, [], descendants => some descendants
  | 0, _ :: _, _ => none
  | fuel + 1, current :: pending, descendants =>
      match native.browse s current .hierarchical with
      | none => none
      | some refs =>
          let children := ((refs.filter Reference.isLocal).map Reference.target).dedup.filter (· ∉ descendants)
          collectLoop native s fuel (children.reverse ++ pending) (descendants ++ children)

def collectDescendantNodeIds (native : Native) (fuel : Nat) (s : AddressSpace) (root : NodeId) :
    Option (List NodeId) :=
  (collectLoop native s fuel [root] []).map fun descendants => descendants.filter (· ≠ root)

/-- The first loop of `detachForeignHierarchicalReferences`. The source goes through a `std::set`, here the
identifiers come in the order of the ledger. -/
def foreignReferences (native : Native) (s : AddressSpace) (createdIds : List NodeId) :
    List NodeId → Option (List Reference)
  | [] => some []
  | id :: rest =>
      match native.browse s id .hierarchical, foreignReferences native s createdIds rest with
      | some refs, some more => some (refs.filter (fun r => r.isLocal && r.target ∉ createdIds) ++ more)
      | _, _ => none

/-- Its second loop. -/
def deleteReferences (native : Native) : List Reference → AddressSpace → AddressSpace × Bool
  | [], s => (s, true)
  | r :: rest, s =>
      match native.deleteReference s r with
      | (s', true) => deleteReferences native rest s'
      | (s', false) => (s', false)

def detachForeignHierarchicalReferences (native : Native) (createdIds : List NodeId) (s : AddressSpace) :
    AddressSpace × Bool :=
  match foreignReferences native s createdIds createdIds with
  | none => (s, false)
  | some refs => deleteReferences native refs s

structure Rollback where
  space : AddressSpace
  recursivelyRemoved : List NodeId := []
  complete : Bool := true

/-- A created descendant of a recursive root. -/
def removeDescendant (native : Native) (r : Rollback) (id : NodeId) : Rollback :=
  match native.deleteNode r.space id with
  | (space, .bad) => { r with space, complete := false }
  | (space, _) => { r with space, recursivelyRemoved := r.recursivelyRemoved ++ [id] }

/-- The body of the loop over the ledger. The descendants come in the order of the browse, where the source goes through
a `std::set`. If a browse fails, the source still deletes the descendants that it has found so far and here none are
deleted, which makes a difference only where a server fails to browse a node that exists. -/
def rollbackNode (native : Native) (fuel : Nat) (createdIds : List NodeId) (r : Rollback) (created : CreatedNode) :
    Rollback :=
  let r :=
    if created.recursiveRoot then
      match collectDescendantNodeIds native fuel r.space created.id with
      | none => { r with complete := false }
      | some descendants => (descendants.filter (· ∈ createdIds)).foldl (removeDescendant native) r
    else r
  match native.deleteNode r.space created.id with
  | (space, .good) => { r with space }
  | (space, .nodeIdUnknown) =>
      if created.id ∈ r.recursivelyRemoved then { r with space } else { r with space, complete := false }
  | (space, .bad) => { r with space, complete := false }

def rollbackCreatedNodes (native : Native) (fuel : Nat) (ledger : List CreatedNode) (s : AddressSpace) :
    AddressSpace × Bool :=
  let createdIds := (ledger.map CreatedNode.id).dedup
  match detachForeignHierarchicalReferences native createdIds s with
  | (s, false) => (s, false)
  | (s, true) =>
      let r := ledger.reverse.foldl (rollbackNode native fuel createdIds) { space := s }
      (r.space, r.complete)

/-- `deactivate` does not touch the address space, but it waits for calls in flight, and these may still add
to it. -/
def closeAndRollback (native : Native) (fuel : Nat) (ledger : List CreatedNode) (late : Additions)
    (s : AddressSpace) : AddressSpace × Bool :=
  rollbackCreatedNodes native fuel ledger (s.addAll late)

end RttOpcua.Model
