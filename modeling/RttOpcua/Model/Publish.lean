import RttOpcua.Model.Transaction

/-!
# Publications of an object model

`ObjectModelImpl` of `src/object_model.cpp`: `publishComponent`, `publishComponentSelected`, `beginShutdown`
and `shutdown`. `command_mutex` is held through a publication and through the swap of `shutdown`; only
`admission_closed` is stored without it, and a publication reads that flag once, at its start. So calls of any
threads have the effect of a sequence of calls.

Several object models may share one server. Its address space, with the value of the node
`rtt/model/revision`, belongs to none of them, and other code may change it between calls.
-/

namespace RttOpcua.Model

open RttOpcua.Lib

/-! ## State -/

/-- `component` is the instance. The callback state is in the model of leases. -/
structure PublishedComponent where
  component : Nat
  mode : PublicationMode
  effectiveResources : OrdSet Str
  nodes : NodeMap

structure ObjectModelOptions where
  /-- In milliseconds. -/
  operationTimeout : Int
  /-- `type_registry`, taken from the server when the model is made. -/
  typeRegistry : Option TypeRegistry

/-- The revision does not wrap: a `std::map` cannot hold 2^64 components. -/
structure ObjectModelImpl where
  components : OrdMap Str PublishedComponent := ∅
  abandoned : List NodeMap := []
  failedPublications : OrdMap Str (List UnsupportedResource) := ∅
  publicationDiagnostics : OrdMap Str (List PublicationDiagnostic) := ∅
  rootsReady : Bool := false
  revision : Nat := 0
  lastError : Str := []
  admissionClosed : Bool := false
  shutdownOnce : Bool := false

/-- What the models of one server share. The value of the revision node means nothing until the node is
there. -/
structure ServerSpace where
  space : AddressSpace
  revision : Nat := 0

/-- What a call writes to its outputs, and returns. `publishComponent` has no output for diagnostics and
`publishComponentSelected` none for unsupported resources. -/
structure PublishResult where
  ok : Bool
  error : Str := []
  unsupported : List UnsupportedResource := []
  diagnostics : List PublicationDiagnostic := []

/-- What the code does not decide about one call: whether the server runs and executes the task, with
which error; whether the namespace index is known; which root nodes it fails to add; whether something
throws before the commit; how nodes are created and what callbacks add before the rollback; whether the
revision is written. -/
structure Attempt where
  running : Bool := true
  executed : Bool := true
  serverError : Str := []
  namespaceIndex : Bool := true
  rootFails : Str → Bool := fun _ => false
  throws : Bool := false
  effects : Str → Creation := fun _ => {}
  late : Additions := {}
  transactionError : Str := []
  revisionWritten : Bool := true

/-! ## Exits of a publication -/

namespace ObjectModelImpl

def setFailure (m : ObjectModelImpl) (failure : Str) : ObjectModelImpl × PublishResult :=
  ({ m with lastError := failure }, { ok := false, error := failure })

/-- The exit of a commit and of a replay. -/
def setSuccess (m : ObjectModelImpl) (name : Str) : ObjectModelImpl × PublishResult :=
  ({ m with
    failedPublications := m.failedPublications.erase name
    publicationDiagnostics := m.publicationDiagnostics.erase name
    lastError := [] }, { ok := true })

def rejectPublicationConflict (m : ObjectModelImpl) (name reason : Str) : ObjectModelImpl × PublishResult :=
  let diagnostics : List PublicationDiagnostic := [{ kind := .publicationConflict, component := name, reason }]
  let failure := lit "RTT component publication conflict for '" ++ name ++ lit "': " ++ reason
  ({ m with
    publicationDiagnostics := m.publicationDiagnostics.insertOrAssign name diagnostics
    lastError := failure }, { ok := false, error := failure, diagnostics })

def selectiveFailure (name : Str) (diagnostics : List PublicationDiagnostic) : Str :=
  lit "selective OPC UA publication rejected component '" ++ name ++ lit "' with " ++
    lit (toString diagnostics.length) ++ lit " diagnostic(s)"

/-- A replay whose selectors have diagnostics. -/
def rejectReplay (m : ObjectModelImpl) (name : Str) (diagnostics : List PublicationDiagnostic) :
    ObjectModelImpl × PublishResult :=
  let failure := selectiveFailure name diagnostics
  ({ m with
    failedPublications := m.failedPublications.erase name
    publicationDiagnostics := m.publicationDiagnostics.insertOrAssign name diagnostics
    lastError := failure }, { ok := false, error := failure, diagnostics })

/-- A first publication whose snapshot has diagnostics. -/
def rejectSnapshot (m : ObjectModelImpl) (name : Str) (mode : PublicationMode) (snapshot : ComponentSnapshot) :
    ObjectModelImpl × PublishResult :=
  let failure :=
    match mode with
    | .full => lit "strict OPC UA publication rejected component '" ++ name ++ lit "'"
    | .selected => selectiveFailure name snapshot.diagnostics
  ({ m with
    failedPublications := m.failedPublications.insertOrAssign name snapshot.unsupported
    publicationDiagnostics := m.publicationDiagnostics.insertOrAssign name snapshot.diagnostics
    lastError := failure },
    { ok := false, error := failure, unsupported := snapshot.unsupported, diagnostics := snapshot.diagnostics })

/-- A publication of a name that has been published. -/
def replay (m : ObjectModelImpl) (existing : PublishedComponent) (c : Component) (mode : PublicationMode)
    (selectors : List Str) : ObjectModelImpl × PublishResult :=
  if existing.component ≠ c.self then
    m.rejectPublicationConflict c.name (lit "already published by a different RTT component instance")
  else if existing.mode ≠ mode then
    m.rejectPublicationConflict c.name (lit "publication mode differs from the first successful publication")
  else
    match mode with
    | .full => m.setSuccess c.name
    | .selected =>
        let plan := buildPublicationPlan mode (discoverComponent c) c.name selectors
        if existing.effectiveResources ≠ plan.effectiveResources then
          m.rejectPublicationConflict c.name (lit "selection resolves to a different effective resource set")
        else if plan.diagnostics ≠ [] then m.rejectReplay c.name plan.diagnostics
        else m.setSuccess c.name

end ObjectModelImpl

/-! ## The task on the server thread -/

structure RootNode where
  path : Str
  parent : NodeId
  reference : ReferenceType
  node : Node

/-- `UA_NS0ID_OBJECTSFOLDER`. -/
def objectsFolder : NodeId := .other 85

def modelFolderPath : Str := appendNodeSegment (lit "rtt") (lit "model")

def revisionPath : Str := appendNodeSegment modelFolderPath (lit "revision")

def rootNodes : List RootNode :=
  [⟨lit "rtt", objectsFolder, .organizes, ⟨.object, 1, lit "RTT"⟩⟩,
    ⟨componentsPath, nodeId (lit "rtt"), .hasComponent, ⟨.object, 1, lit "Components"⟩⟩,
    ⟨modelFolderPath, nodeId (lit "rtt"), .hasComponent, ⟨.object, 1, lit "Model"⟩⟩,
    ⟨revisionPath, nodeId modelFolderPath, .hasComponent, ⟨.variable, 1, lit "revision"⟩⟩]

/-- One root; a root that exists stays as it is. A new revision node gets the revision of the model that
adds it. -/
def ensureRoot (revision : Nat) (server : ServerSpace) (root : RootNode) : ServerSpace :=
  if server.space.exists? (nodeId root.path) then server
  else
    { space := (server.space.addNode (nodeId root.path) root.node).addReference
        { source := root.parent, target := nodeId root.path, type := root.reference }
      revision := if root.path = revisionPath then revision else server.revision }

def ensureRootNodes (revision : Nat) (fails : Str → Bool) : List RootNode → ServerSpace → ServerSpace × Bool
  | [], server => (server, true)
  | root :: rest, server =>
      if fails root.path then (server, false)
      else ensureRootNodes revision fails rest (ensureRoot revision server root)

def ensureRoots (m : ObjectModelImpl) (fails : Str → Bool) (server : ServerSpace) :
    ObjectModelImpl × ServerSpace × Bool :=
  if m.rootsReady then (m, server, true)
  else
    match ensureRootNodes m.revision fails rootNodes server with
    | (server, true) => ({ m with rootsReady := true }, server, true)
    | (server, false) => (m, server, false)

def advanceRevision (m : ObjectModelImpl) (written : Bool) (server : ServerSpace) : ObjectModelImpl × ServerSpace :=
  ({ m with revision := m.revision + 1 },
    if written then { server with revision := m.revision + 1 } else server)

/-- What the task leaves. -/
structure TaskOutcome where
  model : ObjectModelImpl
  server : ServerSpace
  committed : Bool := false
  rollbackComplete : Bool := true

section Publish

variable (native : Native) (fuel : Nat)

/-- The exits of the task that roll back. -/
def rollBack (m : ObjectModelImpl) (server : ServerSpace) (tx : Transaction) (late : Additions) : TaskOutcome :=
  match closeAndRollback native fuel tx.ledger late tx.space with
  | (space, complete) => { model := m, server := { server with space }, rollbackComplete := complete }

/-- The task that `publishComponentInternal` invokes. -/
def publicationTask (m : ObjectModelImpl) (server : ServerSpace) (name : Str) (candidate : PublishedComponent)
    (a : Attempt) : TaskOutcome :=
  if ¬ a.namespaceIndex then rollBack native fuel m server { space := server.space } a.late
  else
    match ensureRoots m a.rootFails server with
    | (m, server, false) => rollBack native fuel m server { space := server.space } a.late
    | (m, server, true) =>
        match createCandidate native name candidate.nodes a.effects server.space with
        | (tx, created) =>
            if ¬ created ∨ a.throws ∨ m.components.contains name then rollBack native fuel m server tx a.late
            else
              let m := { m with components := m.components.emplace name candidate }
              match advanceRevision m a.revisionWritten { server with space := tx.space } with
              | (m, server) => { model := m, server, committed := true }

/-- A publication of a name that has not been published. -/
def publishNew (options : ObjectModelOptions) (m : ObjectModelImpl) (server : ServerSpace) (c : Component)
    (mode : PublicationMode) (selectors : List Str) (a : Attempt) : (ObjectModelImpl × PublishResult) × ServerSpace :=
  if ¬ a.running then
    (m.setFailure (lit "OPC UA server must be running before components are published"), server)
  else
    match options.typeRegistry with
    | none => (m.setFailure (lit "OPC UA server type registry is unavailable"), server)
    | some registry =>
        if options.operationTimeout ≤ 0 then
          (m.setFailure (lit "object model operation timeout must be positive"), server)
        else
          let snapshot := snapshotComponent c registry mode selectors
          if snapshot.diagnostics ≠ [] then (m.rejectSnapshot c.name mode snapshot, server)
          else
            let candidate : PublishedComponent := ⟨c.self, mode, snapshot.effectiveResources, snapshot.nodes⟩
            let outcome : TaskOutcome :=
              if a.executed then publicationTask native fuel m server c.name candidate a
              else { model := m, server }
            if outcome.committed then (outcome.model.setSuccess c.name, outcome.server)
            else
              let m := outcome.model
              let m :=
                if outcome.rollbackComplete then m else { m with abandoned := m.abandoned ++ [candidate.nodes] }
              let failure := if a.serverError = [] then a.transactionError else a.serverError
              (m.setFailure (if failure = [] then lit "failed to publish the OPC UA component" else failure),
                outcome.server)

def publishComponentInternal (options : ObjectModelOptions) (m : ObjectModelImpl) (server : ServerSpace)
    (c : Component) (mode : PublicationMode) (selectors : List Str) (a : Attempt) :
    (ObjectModelImpl × PublishResult) × ServerSpace :=
  if m.admissionClosed then (m.setFailure (lit "OPC UA object model is shutting down"), server)
  else
    match m.components.find? c.name with
    | some existing => (m.replay existing c mode selectors, server)
    | none => publishNew native fuel options m server c mode selectors a

end Publish

/-! ## Shutdown -/

def beginShutdown (m : ObjectModelImpl) : ObjectModelImpl := { m with admissionClosed := true }

def shutdown (m : ObjectModelImpl) : ObjectModelImpl :=
  let m := beginShutdown m
  if m.shutdownOnce then m
  else
    { m with
      shutdownOnce := true
      components := ∅
      abandoned := []
      failedPublications := ∅
      publicationDiagnostics := ∅ }

def unsupportedResources (m : ObjectModelImpl) (name : Str) : List UnsupportedResource :=
  (m.failedPublications.find? name).getD []

def publicationDiagnostics (m : ObjectModelImpl) (name : Str) : List PublicationDiagnostic :=
  (m.publicationDiagnostics.find? name).getD []

/-! ## Calls and runs -/

inductive Call where
  | publishComponent (c : Component) (a : Attempt)
  | publishComponentSelected (c : Component) (selectors : List Str) (a : Attempt)
  | beginShutdown
  | shutdown

/-- What a call publishes, if it does. -/
def Call.publication : Call → Option (Component × PublicationMode × List Str × Attempt)
  | .publishComponent c a => some (c, .full, [], a)
  | .publishComponentSelected c selectors a => some (c, .selected, selectors, a)
  | _ => none

/-- The models of one server, by number. -/
structure System where
  models : Nat → ObjectModelImpl := fun _ => {}
  server : ServerSpace

/-- A call of a model, or a change that other code makes to the address space. -/
inductive Event where
  | call (model : Nat) (call : Call)
  | foreign (space : AddressSpace)

section Run

variable (native : Native) (fuel : Nat) (options : Nat → ObjectModelOptions)

/-- One call on one model; `none` is the result of the calls that return nothing. -/
def perform (options : ObjectModelOptions) (m : ObjectModelImpl) (server : ServerSpace) :
    Call → (ObjectModelImpl × Option PublishResult) × ServerSpace
  | .publishComponent c a =>
      match publishComponentInternal native fuel options m server c .full [] a with
      | ((m, result), server) => ((m, some { result with diagnostics := [] }), server)
  | .publishComponentSelected c selectors a =>
      match publishComponentInternal native fuel options m server c .selected selectors a with
      | ((m, result), server) => ((m, some { result with unsupported := [] }), server)
  | .beginShutdown => ((beginShutdown m, none), server)
  | .shutdown => ((shutdown m, none), server)

def step (s : System) : Event → System × Option PublishResult
  | .call i call =>
      match perform native fuel (options i) (s.models i) s.server call with
      | ((m, result), server) => ({ models := Function.update s.models i m, server }, result)
  | .foreign space => ({ s with server := { s.server with space } }, none)

def run (s : System) (events : List Event) : System := events.foldl (fun s e => (step native fuel options s e).1) s

/-- The entry that a call added to the published components of a model. -/
def committed (m m' : ObjectModelImpl) (call : Call) : Option (Str × PublishedComponent) :=
  match call.publication with
  | some (c, _) => if m.components.contains c.name then none else (m'.components.find? c.name).map (c.name, ·)
  | none => none

def commitOf (s : System) : Event → Option (Nat × Str × PublishedComponent)
  | .call i call =>
      (committed (s.models i) ((step native fuel options s (.call i call)).1.models i) call).map (i, ·)
  | .foreign _ => none

/-- The commits of a run, in order. -/
def commits (s : System) : List Event → List (Nat × Str × PublishedComponent)
  | [] => []
  | e :: rest => (commitOf native fuel options s e).toList ++ commits (step native fuel options s e).1 rest

end Run

/-- The commits of one model. -/
def commitsOf (i : Nat) (log : List (Nat × Str × PublishedComponent)) : List (Str × PublishedComponent) :=
  log.filterMap fun e => if e.1 = i then some e.2 else none

end RttOpcua.Model
