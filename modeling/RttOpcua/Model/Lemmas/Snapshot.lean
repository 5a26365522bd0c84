import RttOpcua.Model.Lemmas.Bundle
import RttOpcua.Model.Lemmas.Creation
import RttOpcua.Model.Lemmas.Discovery
import RttOpcua.Model.Lemmas.Plan
import Mathlib.Data.List.Pairwise

/-!
# Snapshots

What goes into the nodes of a snapshot, and in which order they are created.
-/

namespace RttOpcua.Model

open RttOpcua.Lib

/-! ## Insertions -/

section Insertions

variable (c : Component) (registry : TypeRegistry)

/-- The nodes that the bundle of a resource asks for. -/
def resourceSpecs (inventory : ComponentInventory) (path : Str) : List NodeSpec :=
  match inventory.resources.find? path with
  | none => []
  | some record =>
      match bundle c.name c.service registry record with
      | .ok specs => specs
      | .error _ => []

def resourceFailures (inventory : ComponentInventory) (path : Str) : List PublicationDiagnostic :=
  match inventory.resources.find? path with
  | none => []
  | some record =>
      match bundle c.name c.service registry record with
      | .ok _ => []
      | .error failure => [failure.diagnostic]

theorem foldl_appendResource (inventory : ComponentInventory) (paths : List Str) : ∀ snapshot : ComponentSnapshot,
    let final := paths.foldl (appendResource c registry inventory) snapshot
    final.nodes = (paths.flatMap (resourceSpecs c registry inventory)).foldl insertNode snapshot.nodes ∧
      final.diagnostics = snapshot.diagnostics ++ paths.flatMap (resourceFailures c registry inventory) := by
  induction paths with
  | nil => simp
  | cons path rest ih =>
      intro snapshot
      have hstep : (appendResource c registry inventory snapshot path).nodes =
          (resourceSpecs c registry inventory path).foldl insertNode snapshot.nodes ∧
          (appendResource c registry inventory snapshot path).diagnostics =
            snapshot.diagnostics ++ resourceFailures c registry inventory path := by
        unfold appendResource resourceSpecs resourceFailures
        cases inventory.resources.find? path with
        | none => simp
        | some record =>
            simp only
            cases bundle c.name c.service registry record <;> simp [appendBundle]
      obtain ⟨hnodes, hdiagnostics⟩ := ih (appendResource c registry inventory snapshot path)
      simp only [List.foldl_cons, List.flatMap_cons, List.foldl_append]
      rw [hnodes, hdiagnostics, hstep.1, hstep.2, List.append_assoc]
      exact ⟨rfl, rfl⟩

variable (mode : PublicationMode) (selectors : List Str)

/-- The effective resources. -/
def effectivePaths : List Str :=
  (buildPublicationPlan mode (discoverComponent c) c.name selectors).effectiveResources.keys

/-- What is inserted into the nodes of the snapshot, in order. -/
def insertions : List NodeSpec :=
  rootSpec c :: (effectivePaths c mode selectors).flatMap (resourceSpecs c registry (discoverComponent c))

theorem snapshot_nodes : (snapshotComponent c registry mode selectors).nodes =
    (insertions c registry mode selectors).foldl insertNode ∅ :=
  (foldl_appendResource c registry (discoverComponent c) (effectivePaths c mode selectors) _).1

theorem snapshot_effectiveResources : (snapshotComponent c registry mode selectors).effectiveResources.keys =
    effectivePaths c mode selectors := by
  have hfold : ∀ (inventory : ComponentInventory) (paths : List Str) (snapshot : ComponentSnapshot),
      (paths.foldl (appendResource c registry inventory) snapshot).effectiveResources = snapshot.effectiveResources := by
    intro inventory paths
    induction paths with
    | nil => exact fun _ => rfl
    | cons path rest ih =>
        intro snapshot
        rw [List.foldl_cons, ih]
        unfold appendResource
        split
        · cases bundle c.name c.service registry _ <;> rfl
        · rfl
  exact congrArg OrdMap.keys (hfold _ _ _)

/-- Nothing is wrong with a snapshot. -/
structure Complete : Prop where
  fatal : (discoverComponent c).fatalDiagnostics = []
  bundle : ∀ path ∈ effectivePaths c mode selectors, ∃ record specs,
    (discoverComponent c).resources.find? path = some record ∧
      bundle c.name c.service registry record = .ok specs

variable {c registry mode selectors}

/-- Then neither the plan nor a bundle has a diagnostic. -/
theorem no_diagnostics (h : (snapshotComponent c registry mode selectors).diagnostics = [])
    (d : PublicationDiagnostic) :
    d ∉ (buildPublicationPlan mode (discoverComponent c) c.name selectors).diagnostics ∧
      d ∉ (effectivePaths c mode selectors).flatMap (resourceFailures c registry (discoverComponent c)) := by
  rw [← not_or, ← List.mem_append]
  intro hd
  have hmem : d ∈ (snapshotComponent c registry mode selectors).diagnostics := by
    refine mem_sortUnique.2 ?_
    rw [(foldl_appendResource c registry (discoverComponent c) _ _).2]
    exact hd
  rw [h] at hmem
  cases hmem

theorem complete_of_diagnostics (h : (snapshotComponent c registry mode selectors).diagnostics = []) :
    Complete c registry mode selectors := by
  refine ⟨List.eq_nil_iff_forall_not_mem.2 fun d hd => (no_diagnostics h d).1 ?_, fun path hpath => ?_⟩
  · rw [buildPublicationPlan_diagnostics]
    refine List.mem_append_left _ ?_
    unfold selectResources
    cases mode with
    | full => exact hd
    | selected =>
        simp only
        split
        · exact List.mem_append_left _ hd
        · exact List.mem_append_left _ hd
  · obtain ⟨record, hrecord⟩ : ∃ record, (discoverComponent c).resources.find? path = some record :=
      Option.isSome_iff_exists.1 (effective_contains (discoverComponent_inv c) mode (OrdMap.mem_keys.1 hpath))
    cases hbundle : bundle c.name c.service registry record with
    | ok specs => exact ⟨record, specs, hrecord, hbundle⟩
    | error failure =>
        refine absurd (List.mem_flatMap.2 ⟨path, hpath, ?_⟩) (no_diagnostics h failure.diagnostic).2
        simp [resourceFailures, hrecord, hbundle]

/-- The mandatory operations are effective. -/
theorem mandatory_effective (h : (snapshotComponent c registry mode selectors).diagnostics = []) {name : Str}
    (hname : name ∈ kMandatoryOperations.map Prod.fst) :
    resourcePath [] .operation name ∈ effectivePaths c mode selectors := by
  refine OrdMap.mem_keys.2 ((buildPublicationPlan_effective mode _).2 (.inr ⟨name, hname, rfl, ?_⟩))
  by_contra hmissing
  refine (no_diagnostics h
    { kind := .mandatoryResource, component := c.name, resourcePath := resourcePath [] .operation name
      reason := lit "mandatory RTT proxy operation is unavailable" }).1 ?_
  rw [buildPublicationPlan_diagnostics]
  refine List.mem_append_right _ (List.mem_flatMap.2 ⟨name, hname, ?_⟩)
  rw [missingMandatory, if_neg hmissing]
  exact List.mem_singleton_self _

/-! ## Nodes and insertions -/

theorem find?_foldl_insertNode {path : Str} (specs : List NodeSpec) : ∀ nodes : NodeMap,
    (specs.foldl insertNode nodes).find? path = (specs.reverse.find? fun spec => spec.path = path).or (nodes.find? path) := by
  induction specs with
  | nil => exact fun _ => rfl
  | cons spec rest ih =>
      intro nodes
      rw [List.foldl_cons, ih, insertNode, OrdMap.find?_insertOrAssign, List.reverse_cons, List.find?_append,
        Option.or_assoc]
      by_cases hpath : path = spec.path
      · simp [hpath]
      · simp [hpath, Ne.symm hpath]

theorem mem_of_find?_insertNode {specs : List NodeSpec} {path : Str} {spec : NodeSpec}
    (h : (specs.foldl insertNode ∅).find? path = some spec) : spec ∈ specs ∧ spec.path = path := by
  rw [find?_foldl_insertNode, OrdMap.find?_empty, Option.or_none] at h
  exact ⟨List.mem_reverse.1 (List.mem_of_find?_eq_some h), by simpa using List.find?_some h⟩

/-- Where equal paths mean equal nodes, every node stays. -/
theorem find?_of_mem {specs : List NodeSpec} (hsame : ∀ a ∈ specs, ∀ b ∈ specs, a.path = b.path → a = b)
    {spec : NodeSpec} (h : spec ∈ specs) : (specs.foldl insertNode ∅).find? spec.path = some spec := by
  cases hfind : (specs.foldl insertNode ∅).find? spec.path with
  | none =>
      rw [find?_foldl_insertNode, OrdMap.find?_empty, Option.or_none, List.find?_eq_none] at hfind
      exact absurd (decide_eq_true rfl) (hfind spec (List.mem_reverse.2 h))
  | some other =>
      obtain ⟨hmem, hpath⟩ := mem_of_find?_insertNode hfind
      rw [hsame other hmem spec h hpath]

/-! ## Complete snapshots -/

theorem Complete.offered (h : Complete c registry mode selectors) : (offered c).fatalDiagnostics = [] := by
  refine List.eq_nil_iff_forall_not_mem.2 fun d hd => ?_
  have hmem := fatalDiagnostics_discoverComponent c hd
  rw [h.fatal] at hmem
  cases hmem

theorem resourceSpecs_eq {path : Str} {record : ResourceRecord} {specs : List NodeSpec}
    (hrecord : (discoverComponent c).resources.find? path = some record)
    (hbundle : bundle c.name c.service registry record = .ok specs) :
    resourceSpecs c registry (discoverComponent c) path = specs := by
  simp [resourceSpecs, hrecord, hbundle]

theorem record_path {path : Str} {record : ResourceRecord}
    (hrecord : (discoverComponent c).resources.find? path = some record) : record.path = path ∧ Placed record := by
  obtain ⟨rfl, hplaced⟩ := (discoverComponent_inv c).path _ record hrecord
  exact ⟨rfl, hplaced⟩

theorem Complete.shape (h : Complete c registry mode selectors) {path : Str}
    (hpath : path ∈ effectivePaths c mode selectors) : ∃ record,
      (discoverComponent c).resources.find? path = some record ∧ record.path = path ∧ Placed record ∧
      BundleShape c.name c.service record (resourceSpecs c registry (discoverComponent c) path) := by
  obtain ⟨record, specs, hrecord, hbundle⟩ := h.bundle path hpath
  obtain ⟨rfl, hplaced⟩ := record_path hrecord
  refine ⟨record, hrecord, rfl, hplaced, ?_⟩
  rw [resourceSpecs_eq hrecord hbundle]
  exact bundle_shape hplaced hbundle

/-- Both are the category of resources with one owner and one kind. -/
def SameCategory (c : Component) (a b : NodeSpec) : Prop :=
  a = b ∧ ∃ record record', (discoverComponent c).resources.find? record.path = some record ∧
    (discoverComponent c).resources.find? record'.path = some record' ∧
    record.ownerPath = record'.ownerPath ∧ record.kind = record'.kind ∧
    a = categorySpec c.name c.service record ∧ b = categorySpec c.name c.service record'

theorem Complete.root_path (h : Complete c registry mode selectors) {path : Str}
    (hpath : path ∈ effectivePaths c mode selectors) {spec : NodeSpec}
    (hspec : spec ∈ resourceSpecs c registry (discoverComponent c) path) : (rootSpec c).path ≠ spec.path := by
  intro hroot
  obtain ⟨record, -, -, hplaced, hshape⟩ := h.shape hpath
  obtain ⟨-, tail, hsplit, htail⟩ := hshape.mem hplaced hspec
  rw [← hroot] at hsplit
  have hnil : tail = [] := List.self_eq_append_right.1 hsplit
  have hrecord := segments_of_placed hplaced
  cases htail with
  | category => simp at hnil
  | primary => simp [hrecord] at hnil
  | leaf => simp at hnil

/-- Two insertions with one path are of the same category. -/
theorem Complete.pairwise (h : Complete c registry mode selectors) :
    (insertions c registry mode selectors).Pairwise fun a b => a.path = b.path → SameCategory c a b := by
  refine List.pairwise_cons.2 ⟨fun spec hspec hroot => ?_, List.pairwise_flatMap.2 ⟨fun path hpath => ?_, ?_⟩⟩
  · obtain ⟨path, hpath, hspec⟩ := List.mem_flatMap.1 hspec
    exact absurd hroot (h.root_path hpath hspec)
  · obtain ⟨record, -, -, hplaced, hshape⟩ := h.shape hpath
    exact (List.pairwise_map.1 (hshape.nodup hplaced)).imp fun hne heq => absurd heq hne
  · have hkeys : (effectivePaths c mode selectors).Nodup := OrdMap.keys_nodup
    refine hkeys.imp_of_mem fun {path path'} hpath hpath' hne a ha b hb hab => ?_
    obtain ⟨record, hrecord, rfl, hplaced, hshape⟩ := h.shape hpath
    obtain ⟨record', hrecord', rfl, hplaced', hshape'⟩ := h.shape hpath'
    rcases collision (discoverComponent_inv c) hrecord hrecord' hshape hshape' ha hb hab with
      rfl | ⟨hcat, hcat', howner, hkind⟩
    · exact absurd rfl hne
    · refine ⟨?_, record, record', hrecord, hrecord', howner, hkind, hcat, hcat'⟩
      rw [hcat, hcat', categorySpec, categorySpec, ownerNodePath, ownerNodePath, howner, hkind,
        owner_unique h.offered hrecord hrecord' howner]

theorem Complete.same (h : Complete c registry mode selectors) :
    ∀ a ∈ insertions c registry mode selectors, ∀ b ∈ insertions c registry mode selectors, a.path = b.path → a = b := by
  have hpairwise : (insertions c registry mode selectors).Pairwise fun a b => a.path = b.path → a = b :=
    h.pairwise.imp fun hsame hpath => (hsame hpath).1
  have hsymm : Std.Symm fun a b : NodeSpec => a.path = b.path → a = b :=
    ⟨fun _ _ hsame hpath => (hsame hpath.symm).symm⟩
  exact fun a ha b hb => hpairwise.forall_of_forall (fun _ _ _ => rfl) ha hb

/-- The nodes of the snapshot are the insertions. -/
theorem Complete.find?_iff (h : Complete c registry mode selectors) {path : Str} {spec : NodeSpec} :
    (snapshotComponent c registry mode selectors).nodes.find? path = some spec ↔
      spec ∈ insertions c registry mode selectors ∧ spec.path = path := by
  rw [snapshot_nodes]
  constructor
  · exact mem_of_find?_insertNode
  · rintro ⟨hspec, rfl⟩
    exact find?_of_mem h.same hspec

/-! ## Parents -/

/-- Every node lies one segment below its parent, and the parent is inserted. -/
theorem Complete.parent (h : Complete c registry mode selectors) {spec : NodeSpec}
    (hspec : spec ∈ insertions c registry mode selectors) :
    pathDepth spec.path = pathDepth spec.parentPath + 1 ∧ (spec.parentPath = componentsPath ∨
      ∃ parent ∈ insertions c registry mode selectors, parent.path = spec.parentPath) := by
  rcases List.mem_cons.1 hspec with rfl | hspec
  · exact ⟨pathDepth_appendNodeSegment _ _, .inl rfl⟩
  · obtain ⟨path, hpath, hspec⟩ := List.mem_flatMap.1 hspec
    obtain ⟨record, hrecord, rfl, hplaced, hshape⟩ := h.shape hpath
    obtain ⟨⟨name, hname⟩, tail, -, htail⟩ := hshape.mem hplaced hspec
    have hinserted : ∀ {path parent}, path ∈ effectivePaths c mode selectors →
        parent ∈ resourceSpecs c registry (discoverComponent c) path → parent ∈ insertions c registry mode selectors :=
      fun hpath hparent => List.mem_cons_of_mem _ (List.mem_flatMap.2 ⟨_, hpath, hparent⟩)
    obtain ⟨primary, names, leaves, hprimary, -, hperm⟩ := id hshape
    refine ⟨(congrArg pathDepth hname).trans (pathDepth_appendNodeSegment _ _), .inr ?_⟩
    cases htail with
    | primary hparent =>
        refine ⟨_, hinserted hpath (hperm.mem_iff.2 List.mem_cons_self), ?_⟩
        rw [hparent, categorySpec_path]
    | leaf _ _ hparent =>
        refine ⟨primary, hinserted hpath (hperm.mem_iff.2 (List.mem_cons_of_mem _ List.mem_cons_self)), ?_⟩
        rw [hparent, hprimary.path]
    | category hcategory =>
        -- the owner is the component, or an effective service
        by_cases howner : record.ownerPath = []
        · refine ⟨rootSpec c, List.mem_cons_self, ?_⟩
          rw [hcategory]
          simp [categorySpec, objectSpec, rootSpec, ownerNodePath, howner]
        · have heffective : record.ownerPath ∈ effectivePaths c mode selectors :=
            OrdMap.mem_keys.2 (effective_closed (discoverComponent_inv c) mode _ record (OrdMap.mem_keys.1 hpath)
              hrecord howner)
          obtain ⟨owner, -, hownerPath, -, hownerShape⟩ := h.shape heffective
          obtain ⟨node, _, _, hnode, -, hnodes⟩ := hownerShape
          refine ⟨node, hinserted heffective (hnodes.mem_iff.2 (List.mem_cons_of_mem _ List.mem_cons_self)), ?_⟩
          rw [hnode.path, hcategory, recordNodePath, hownerPath]
          simp [categorySpec, objectSpec, ownerNodePath, howner]

end Insertions

/-! ## The order of creation -/

section Order

instance : Std.Total fun a b : NodeSpec => creationOrder a b = true where
  total a b := by
    unfold creationOrder
    by_cases hdepth : pathDepth a.path = pathDepth b.path
    · rw [if_pos hdepth, if_pos hdepth.symm]
      exact Std.Total.total (r := AtMost) a.path b.path
    · rw [if_neg hdepth, if_neg (Ne.symm hdepth), decide_eq_true_iff, decide_eq_true_iff]
      omega

instance : IsTrans NodeSpec fun a b => creationOrder a b = true where
  trans a b c hab hbc := by
    unfold creationOrder at hab hbc ⊢
    split at hab <;> split at hbc <;> split
    case isTrue.isTrue.isTrue => exact Std.TransCmp.isLE_trans hab hbc
    all_goals simp only [decide_eq_true_iff] at *
    all_goals omega

/-- The nodes in the order in which `createCandidate` makes them. -/
def creationSequence (nodes : NodeMap) : List NodeSpec :=
  (nodes.entries.map Prod.snd).insertionSort fun a b => creationOrder a b = true

theorem creationSequence_pairwise (nodes : NodeMap) :
    (creationSequence nodes).Pairwise fun a b => pathDepth a.path ≤ pathDepth b.path := by
  refine (List.pairwise_insertionSort (fun a b : NodeSpec => creationOrder a b = true) _).imp fun {a b} hab => ?_
  unfold creationOrder at hab
  split at hab
  · omega
  · rw [decide_eq_true_iff] at hab
    omega

theorem mem_creationSequence {nodes : NodeMap} {spec : NodeSpec} :
    spec ∈ creationSequence nodes ↔ ∃ path, nodes.find? path = some spec := by
  simp only [creationSequence, List.mem_insertionSort, List.mem_map, Prod.exists, exists_eq_right, OrdMap.mem_entries]

end Order

end RttOpcua.Model
