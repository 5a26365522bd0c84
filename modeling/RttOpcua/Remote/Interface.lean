import RttOpcua.Model.Signature
import RttOpcua.Remote.Lemmas.Interface

/-!
# Mirrored interfaces

Publishing a component, discovering it and staging what was discovered.
-/

namespace RttOpcua.Remote

open RttOpcua.Lib RttOpcua.Model

/-- A proxy stages exactly the published services at every depth, each with exactly its published operations,
properties, attributes and ports, if and only if the arguments that `describe` takes for mutable references have the
types that RTT collects in their places. Server and client require the same operations with the same schema. -/
theorem staged_mirrors_published_iff (native : Native) (fuel : Nat) (options : ObjectModelOptions) (m : ObjectModelImpl)
    (server : ServerSpace) (c : Component) (mode : PublicationMode) (selectors : List Str) (a : Attempt)
    (registry client : TypeRegistry) (factories : TypeFactories) (store : RemoteStore)
    (h : Mirroring native fuel options m server c mode selectors a registry client factories store) :
    ((∃ tree, stageComponent client factories store c.name = .ok tree ∧
        MirrorsTree c registry client mode selectors [] tree) ↔
      ∀ record, Effective c mode selectors record → record.kind = .operation → ∀ operation,
        (c.service record.owner).getOperation record.name = some operation → CollectsArguments registry operation) ∧
    kRequiredRootOperations = kMandatoryOperations ∧
    ∀ (operation : Operation) (name description type : Str), (describe registry operation).supported = true →
      acceptsMandatory (describe registry operation) type =
        acceptsRequired (descriptionOf name description (describe registry operation)) type :=
  ⟨h.staged_iff, kRequiredRootOperations_eq, fun _ name description type hs => acceptsRequired_eq hs name description type⟩

/-! ## A tree -/

/-- The child service `s`: a property, an attribute that cannot be assigned, and an output port without a value node. -/
def sampleChild : Service where
  doc := lit "child"
  propertyNames := [lit "p"]
  getProperty _ := some ⟨lit "property", some ⟨some 0, true⟩⟩
  attributeNames := [lit "a"]
  getValue _ := some ⟨some ⟨some 1, false⟩⟩
  portNames := [lit "o"]
  getPort _ := some ⟨lit "port", some 0, false, true, false⟩

/-- The mandatory operations, an operation `f` that spells its first argument with `text`, and the child. -/
def sampleRoot (text : Str) : Service where
  operationNames := lit "f" :: kMandatoryOperations.map Prod.fst
  getOperation name :=
    if name = lit "f" then some (twoArguments text)
    else
      (kMandatoryOperations.find? fun m => m.1 = name).map fun m =>
        ⟨[], some [], sampleRegistry.type m.2, [], [sampleRegistry.type m.2]⟩
  providerNames := [lit "s", lit "this"]
  getService name := if name = lit "s" then some 1 else none

def sampleTree (text : Str) : Component where
  self := 0
  name := lit "c"
  root := some 0
  service id := if id = 0 then sampleRoot text else sampleChild

/-- A server with the nodes of the tree, in the order of their paths. -/
def sampleStore (text : Str) : RemoteStore where
  nodes := (snapshotComponent (sampleTree text) sampleRegistry .full []).nodes
  browse folder kind :=
    ((snapshotComponent (sampleTree text) sampleRegistry .full []).nodes.entries.map Prod.snd).filter fun spec =>
      decide (spec.parentPath = folder ∧ spec.reference = .hasComponent ∧ spec.kind = kind)
  browse_perm _ _ := .refl _

def sampleFactories : TypeFactories := ⟨fun _ => true, fun _ => true, fun _ => true, fun _ => true, fun _ => true⟩

theorem sampleRegistry_sameTypes : SameTypes sampleRegistry sampleRegistry := by
  have hcodec : ∀ t codec, sampleRegistry.codecForTypeInfo t = some codec → t = 0 ∨ t = 1 := by
    intro t codec h
    simp only [sampleRegistry] at h
    split at h
    · omega
    · cases h
  refine ⟨⟨fun t codec h => ⟨t, codec, h, h, ?_, rfl⟩, fun t codec h => ?_⟩, fun t codec h => ?_⟩
  · obtain rfl | rfl := hcodec t codec h
    all_goals decide
  · obtain rfl | rfl := hcodec t codec h
    · exact isType_sample.1
    · exact isType_sample.2
  · obtain rfl | rfl := hcodec t codec h
    all_goals
      rw [← h]
      decide

theorem sampleTree_names (text : Str) (record : ResourceRecord)
    (h : Effective (sampleTree text) .full [] record) : record.name ≠ [] := by
  have hfound := h.found
  rw [find?_discoverComponent] at hfound
  obtain ⟨above, service, owner, legacy, -, -, hmem⟩ := mem_componentOffers.1 (List.mem_of_find?_eq_some hfound)
  obtain ⟨-, -, -, hname, -⟩ := mem_ownRecords hmem
  have hroot : ∀ kind, ∀ name ∈ resourceNames (sampleRoot text) kind, name ≠ [] := by
    intro kind
    change ∀ name ∈ resourceNames (sampleRoot []) kind, name ≠ []
    cases kind
    all_goals decide
  have hchild : ∀ kind, ∀ name ∈ resourceNames sampleChild kind, name ≠ [] := by
    intro kind
    cases kind
    all_goals decide
  simp only [sampleTree] at hname
  split at hname
  · exact hroot _ _ hname
  · exact hchild _ _ hname

/-- The operations of the tree: `f`, and those without arguments that return a value. -/
theorem sampleTree_operation {text : Str} {id : Nat} {name : Str} {operation : Operation}
    (h : ((sampleTree text).service id).getOperation name = some operation) :
    operation = twoArguments text ∨ ∃ type, operation = ⟨[], some [], type, [], [type]⟩ := by
  simp only [sampleTree] at h
  split at h
  · simp only [sampleRoot] at h
    split at h
    · exact .inl (Option.some.inj h).symm
    · obtain ⟨required, -, hoperation⟩ := Option.map_eq_some_iff.1 h
      exact .inr ⟨_, hoperation.symm⟩
  · cases h

theorem sampleStore_nodes (text : Str) :
    (sampleStore text).nodes = (snapshotComponent (sampleTree text) sampleRegistry .full []).nodes := by
  simp only [sampleStore]

theorem sampleTree_new {text : Str} : ({} : ObjectModelImpl).components.find? (sampleTree text).name = none := by
  simp

theorem sampleTree_mirroring {text : Str} (hpublished : (publishComponentInternal documentedNative 1 sampleOptions {}
      bareServer (sampleTree text) .full [] sampleAttempt).1.2.ok = true) :
    Mirroring documentedNative 1 sampleOptions {} bareServer (sampleTree text) .full [] sampleAttempt sampleRegistry
      sampleRegistry sampleFactories (sampleStore text) where
  typeRegistry := rfl
  new := sampleTree_new
  published := hpublished
  stored := by
    rw [sampleStore_nodes]
    exact (stored_of_published rfl sampleTree_new hpublished).2
  names := sampleTree_names text
  assignable record _ _ property source hproperty hsource := by
    simp only [sampleTree] at hproperty
    split at hproperty
    · cases hproperty
    · obtain rfl := Option.some.inj hproperty
      obtain rfl := Option.some.inj hsource
      rfl
  returns record _ _ operation hfound t codec ht _ _ := by
    rcases sampleTree_operation hfound with rfl | ⟨type, rfl⟩
    · obtain rfl := Option.some.inj ht
      rfl
    · exact congrArg some ht
  types := sampleRegistry_sameTypes
  build := ⟨fun _ _ => rfl, fun _ _ => rfl, fun _ _ => rfl, fun _ _ => rfl, fun _ _ => rfl⟩

theorem staged_mirrors_published_iff_constFirst :
    ∃ tree, stageComponent sampleRegistry sampleFactories (sampleStore (lit "const TaskState &")) (lit "c") = .ok tree ∧
      MirrorsTree (sampleTree (lit "const TaskState &")) sampleRegistry sampleRegistry .full [] [] tree := by
  obtain ⟨hstaged, -⟩ := staged_mirrors_published_iff documentedNative 1 sampleOptions {} bareServer
    (sampleTree (lit "const TaskState &")) .full [] sampleAttempt sampleRegistry sampleRegistry sampleFactories
    (sampleStore (lit "const TaskState &")) (sampleTree_mirroring (by decide +kernel))
  refine hstaged.2 fun record _ _ operation hfound arguments harguments k i type hk htype => ?_
  rcases sampleTree_operation hfound with rfl | ⟨type, rfl⟩
  · obtain rfl := Option.some.inj harguments
    have hmutable : mutableArguments [⟨lit "in", [], lit "const TaskState &"⟩, ⟨lit "out", [], lit "Bool &"⟩] = [1] := by
      decide +kernel
    rw [hmutable] at hk
    cases k with
    | zero =>
        cases hk
        cases htype
        exact ⟨some 0, rfl, rfl⟩
    | succ k => cases hk
  · obtain rfl := Option.some.inj harguments
    cases hk

/-- `describe` takes `TaskState const&` for a mutable reference. The tree is published, and no proxy can stage it. -/
theorem constLast_cannot_be_staged :
    Mirroring documentedNative 1 sampleOptions {} bareServer (sampleTree (lit "TaskState const&")) .full [] sampleAttempt
      sampleRegistry sampleRegistry sampleFactories (sampleStore (lit "TaskState const&")) ∧
    (stageComponent sampleRegistry sampleFactories (sampleStore (lit "TaskState const&")) (lit "c")).map (fun _ => ()) =
      .error (lit "inconsistent mutable output for remote RTT operation 'f'") :=
  ⟨sampleTree_mirroring (by decide +kernel), by decide +kernel⟩

end RttOpcua.Remote
