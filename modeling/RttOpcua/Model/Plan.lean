import RttOpcua.Model.Interface
import RttOpcua.Model.Selector

/-!
# Inventory and publication plan

`discoverComponent` and `buildPublicationPlan` of `src/object_model.cpp`.
-/

namespace RttOpcua.Model

open RttOpcua.Lib

inductive PublicationDiagnosticKind where
  | malformedSelector
  | unmatchedSelector
  | inventoryFailure
  | unsupportedResource
  | mandatoryResource
  | publicationConflict
  deriving DecidableEq, Repr, Ord

structure PublicationDiagnostic where
  kind : PublicationDiagnosticKind
  component : Str
  selector : Str := []
  resourcePath : Str := []
  reason : Str
  deriving DecidableEq, Repr, Ord

inductive PublicationMode where
  | full
  | selected
  deriving DecidableEq, Repr

/-! ## Inventory -/

/-- `owner` and `service` are services of the component. -/
structure ResourceRecord where
  kind : ResourceKind
  path : Str
  ownerPath : Str
  legacyPath : Str
  name : Str
  owner : Nat
  service : Option Nat := none
  discoveryError : Str
  deriving DecidableEq, Repr

structure ComponentInventory where
  resources : OrdMap Str ResourceRecord := ∅
  fatalDiagnostics : List PublicationDiagnostic := []

def kMaximumServiceDepth : Nat := 32

def appendDiagnosticSegment (path segment : Str) : Str :=
  if path = [] then segment else path ++ lit "." ++ segment

def addInventoryRecord (component : Str) (inventory : ComponentInventory) (record : ResourceRecord) :
    ComponentInventory :=
  if inventory.resources.contains record.path then
    { inventory with fatalDiagnostics := inventory.fatalDiagnostics ++ [{
        kind := .inventoryFailure
        component
        reason := lit "duplicate canonical resource path '" ++ record.path ++ lit "'" }] }
  else { inventory with resources := inventory.resources.emplace record.path record }

/-- The record of an operation, a property, an attribute or a port. -/
def memberRecord (kind : ResourceKind) (service : Nat) (ownerPath legacyPath name : Str) (available : Bool) :
    ResourceRecord where
  kind
  path := resourcePath ownerPath kind name
  ownerPath
  legacyPath := appendDiagnosticSegment legacyPath name
  name
  owner := service
  discoveryError :=
    if available then [] else lit "RTT " ++ resourceKindName kind ++ lit " is unavailable during inventory discovery"

def memberRecords (service : Nat) (s : Service) (ownerPath legacyPath : Str) : List ResourceRecord :=
  s.operationNames.map (fun name =>
    memberRecord .operation service ownerPath legacyPath name (s.getOperation name).isSome) ++
  s.propertyNames.map (fun name =>
    memberRecord .property service ownerPath legacyPath name (s.getProperty name).isSome) ++
  s.attributeNames.map (fun name =>
    memberRecord .attribute service ownerPath legacyPath name (s.getValue name).isSome) ++
  s.portNames.map (fun name => memberRecord .port service ownerPath legacyPath name (s.getPort name).isSome)

/-- What `discoverService` changes: the inventory, and the set of the services it is in. -/
structure Discovery where
  inventory : ComponentInventory := {}
  ancestry : OrdSet Nat := ∅

/-- The body of the loop over child services. `descend` is the recursive call; there is none at the
maximum depth. -/
def discoverChild (component : Str) (descend : Option (Nat → Str → Str → Discovery → Discovery)) (service : Nat)
    (s : Service) (ownerPath legacyPath : Str) (d : Discovery) (name : Str) : Discovery :=
  if name = lit "this" then d
  else
    let childPath := resourcePath ownerPath .service name
    let childLegacyPath := appendDiagnosticSegment legacyPath name
    let record (service : Nat) (child : Option Nat) (discoveryError : Str) : ResourceRecord :=
      { kind := .service, path := childPath, ownerPath, legacyPath := childLegacyPath, name, owner := service,
        service := child, discoveryError }
    let add (r : ResourceRecord) : Discovery := { d with inventory := addInventoryRecord component d.inventory r }
    match s.getService name with
    | none => add (record service none (lit "RTT service is unavailable during inventory discovery"))
    | some child =>
        if d.ancestry.contains child then add (record service child (lit "forms a cycle in the RTT service graph"))
        else
          match descend with
          | none => add (record service child (lit "exceeds the maximum supported service depth of 32"))
          | some descend => descend child childPath childLegacyPath (add (record service child []))

/-- `discoverService`. `remaining` is `kMaximumServiceDepth - depth`. -/
def discoverService (component : Str) (services : Nat → Service) : Nat → Nat → Str → Str → Discovery → Discovery
  | remaining, service, ownerPath, legacyPath, d =>
      let s := services service
      let d : Discovery :=
        { inventory := (memberRecords service s ownerPath legacyPath).foldl (addInventoryRecord component) d.inventory
          ancestry := OrdSet.insert d.ancestry service }
      let descend : Option (Nat → Str → Str → Discovery → Discovery) :=
        match remaining with
        | 0 => none
        | remaining + 1 => some (discoverService component services remaining)
      let d := s.providerNames.foldl (discoverChild component descend service s ownerPath legacyPath) d
      { d with ancestry := d.ancestry.erase service }

def discoverComponent (c : Component) : ComponentInventory :=
  match c.root with
  | none =>
      { fatalDiagnostics := [{
          kind := .inventoryFailure
          component := c.name
          reason := lit "RTT component root service is unavailable" }] }
  | some root =>
      let inventory := (discoverService c.name c.service kMaximumServiceDepth root [] [] {}).inventory
      { inventory with fatalDiagnostics := sortUnique inventory.fatalDiagnostics }

/-! ## Plan -/

structure PublicationPlan where
  mode : PublicationMode
  effectiveResources : OrdSet Str
  diagnostics : List PublicationDiagnostic

/-- The services that own a path, found by taking its segments in pairs. -/
def serviceAncestors (done : Str) : List Str → List Str
  | category :: name :: rest =>
      if category = lit "services" then
        let ancestor := done ++ category ++ slash :: name
        ancestor :: serviceAncestors (ancestor ++ [slash]) rest
      else []
  | _ => []

def addServiceAncestors (ownerPath : Str) (effectiveResources : OrdSet Str) : OrdSet Str :=
  OrdSet.insertAll effectiveResources (serviceAncestors [] (splitPath ownerPath))

def kMandatoryOperations : List (Str × Str) :=
  [(lit "getTaskState", lit "TaskState"), (lit "getTargetState", lit "TaskState"),
    (lit "isConfigured", lit "Bool"), (lit "isActive", lit "Bool"), (lit "isRunning", lit "Bool"),
    (lit "inFatalError", lit "Bool"), (lit "inException", lit "Bool"), (lit "inRunTimeError", lit "Bool")]

/-- The loop over the mandatory operations. -/
def addMandatory (inventory : ComponentInventory) (component : Str) (plan : PublicationPlan) (name : Str) :
    PublicationPlan :=
  let path := resourcePath [] .operation name
  if inventory.resources.contains path then
    { plan with effectiveResources := OrdSet.insert plan.effectiveResources path }
  else
    { plan with diagnostics := plan.diagnostics ++ [{
        kind := .mandatoryResource
        component
        resourcePath := path
        reason := lit "mandatory RTT proxy operation is unavailable" }] }

def selectorDiagnostic (component : Str) (issue : SelectorIssue) : PublicationDiagnostic where
  kind := if issue.kind = .malformed then .malformedSelector else .unmatchedSelector
  component
  selector := issue.selector
  reason := issue.reason

/-- The plan before the mandatory operations are added. -/
def selectResources (mode : PublicationMode) (inventory : ComponentInventory) (component : Str)
    (selectors : List Str) : PublicationPlan :=
  match mode with
  | .full => ⟨mode, OrdSet.insertAll ∅ inventory.resources.keys, inventory.fatalDiagnostics⟩
  | .selected =>
      if selectors = [] then
        ⟨mode, ∅, inventory.fatalDiagnostics ++ [{
          kind := .malformedSelector
          component
          reason := lit "at least one publication selector is required" }]⟩
      else
        let found := matchPublicationSelectors selectors inventory.resources.keys
        let addOwners (effective : OrdSet Str) (path : Str) : OrdSet Str :=
          match inventory.resources.find? path with
          | some record => addServiceAncestors record.ownerPath effective
          | none => effective
        ⟨mode, found.resourcePaths.keys.foldl addOwners found.resourcePaths,
          inventory.fatalDiagnostics ++ found.issues.map (selectorDiagnostic component)⟩

def buildPublicationPlan (mode : PublicationMode) (inventory : ComponentInventory) (component : Str)
    (selectors : List Str) : PublicationPlan :=
  (kMandatoryOperations.map Prod.fst).foldl (addMandatory inventory component)
    (selectResources mode inventory component selectors)

end RttOpcua.Model
