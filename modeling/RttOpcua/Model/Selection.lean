import RttOpcua.Model.Lemmas.Snapshot
import RttOpcua.Model.Theorems

/-!
# Inventory, selection and snapshots: theorems

What discovery records, what selectors select, and that the plan and the snapshot are complete.
-/

namespace RttOpcua.Model

open RttOpcua.Lib

/-! ## Discovery -/

/-- Discovery records the resources at the ends of the walks of at most 32 steps, one entry for each path. A service entry
has an error exactly where the walks do not go on. -/
theorem discovery_exact (c : Component) :
    let inventory := discoverComponent c
    (∀ remaining service owner legacy (d : Discovery), d.ancestry.contains service = false →
      (discoverService c.name c.service remaining service owner legacy d).ancestry = d.ancestry) ∧
    inventory.resources.keys.Nodup ∧
    (∀ path, path ∈ inventory.resources.keys ↔ ∃ above service owner legacy,
      Walk c above service owner legacy ∧ above.length ≤ kMaximumServiceDepth ∧
      ∃ kind, ∃ name ∈ resourceNames (c.service service) kind, path = resourcePath owner kind name) ∧
    (∀ path r, inventory.resources.find? path = some r →
      r.path = path ∧ path = resourcePath r.ownerPath r.kind r.name ∧
      ∃ above legacy, Walk c above r.owner r.ownerPath legacy ∧ above.length ≤ kMaximumServiceDepth ∧
        r.name ∈ resourceNames (c.service r.owner) r.kind ∧
        (r.kind = .service →
          r.service = (c.service r.owner).getService r.name ∧
          (r.discoveryError ≠ [] ↔ Blocked above r.owner r.service) ∧
          (r.discoveryError = [] ↔ ∃ child, r.service = some child ∧
            Walk c (r.owner :: above) child path (appendDiagnosticSegment legacy r.name) ∧
            (r.owner :: above).length ≤ kMaximumServiceDepth))) ∧
    (∀ above service owner legacy, Walk c above service owner legacy → above.length ≤ kMaximumServiceDepth →
      ∀ kind a b, [a, b].Sublist (resourceNames (c.service service) kind) →
        resourcePath owner kind a = resourcePath owner kind b →
        duplicateDiagnostic c.name (resourcePath owner kind a) ∈ inventory.fatalDiagnostics) := by
  intro inventory
  refine ⟨fun remaining service owner legacy d hnew => ?_, OrdMap.keys_nodup, fun path => ?_, fun path r hr => ?_,
    fun above service owner legacy hwalk hlength kind a b hnames hpath => ?_⟩
  · have hd : Ancestry d d.ancestry.keys := fun x => OrdMap.mem_keys.symm
    rw [discoverService_eq c.name c.service remaining d.ancestry.keys service owner legacy d hd]
    rw [OrdMap.mem_keys, hnew]
    exact Bool.false_ne_true
  · rw [OrdMap.mem_keys, OrdMap.contains, find?_discoverComponent, List.find?_isSome]
    constructor
    · rintro ⟨r, hr, hpath⟩
      obtain ⟨above, service, owner, legacy, hwalk, hlength, hr⟩ := mem_componentOffers.1 hr
      obtain ⟨-, -, hrecord, hname, -⟩ := mem_ownRecords hr
      exact ⟨above, service, owner, legacy, hwalk, hlength, r.kind, r.name, hname,
        (of_decide_eq_true hpath).symm.trans hrecord⟩
    · rintro ⟨above, service, owner, legacy, hwalk, hlength, kind, name, hname, rfl⟩
      obtain ⟨record, hrecord, hsublist⟩ :=
        kind_sublist (stepsLeft above) above service (c.service service) owner legacy kind
      refine ⟨record name, mem_componentOffers.2 ⟨above, service, owner, legacy, hwalk, hlength, ?_⟩, ?_⟩
      · exact hsublist.subset (List.mem_map_of_mem hname)
      · simpa using hrecord name
  · have hpath := (discoverComponent_inv c).path path r hr
    refine ⟨hpath.1, hpath.2, ?_⟩
    rw [find?_discoverComponent] at hr
    obtain ⟨above, service, owner, legacy, hwalk, hlength, hmem⟩ := mem_componentOffers.1 (List.mem_of_find?_eq_some hr)
    obtain ⟨rfl, rfl, -, hname, hservice⟩ := mem_ownRecords hmem
    refine ⟨above, legacy, hwalk, hlength, hname, fun hkind => ?_⟩
    obtain ⟨hchild, herror⟩ := hservice hkind
    have hblocked : r.discoveryError ≠ [] ↔ Blocked above r.owner r.service := by
      rw [herror]
      exact childError_ne_nil r.service
    refine ⟨hchild, hblocked, ?_⟩
    rw [← not_not (a := r.discoveryError = []), ← ne_eq, hblocked, hpath.2, hkind, hchild]
    exact hwalk.goesOn_iff (hkind ▸ hname)
  · obtain ⟨record, hrecord, hsublist⟩ :=
      kind_sublist (stepsLeft above) above service (c.service service) owner legacy kind
    have hall := (hnames.map record).trans (hsublist.trans ((ownRecords_sublist _ _).trans (hwalk.sublist hlength)))
    have hdup : duplicateDiagnostic c.name (record a).path ∈ (offered c).fatalDiagnostics :=
      duplicate_of_sublist _ hall ((hrecord a).trans (hpath.trans (hrecord b).symm))
    rw [hrecord a] at hdup
    exact fatalDiagnostics_discoverComponent c hdup

/-! ## Selectors -/

/-- `matchPublicationSelectors` against the meaning of selectors: what it accepts, what it matches, one issue for each
selector that is malformed or matches nothing, and a result that depends on the sets of selectors and paths only. -/
theorem matchPublicationSelectors_spec (selectors resourcePaths : List Str) :
    let result := matchPublicationSelectors selectors resourcePaths
    (∀ selector, (∃ parsed, parseSelector selector = .ok parsed) ↔ WellFormedSelector selector) ∧
    (∀ path, result.resourcePaths.contains path = true ↔ path ∈ resourcePaths ∧ CanonicalPath path ∧
      ∃ selector ∈ selectors, WellFormedSelector selector ∧ SelectorMatches selector path) ∧
    result.issues.Pairwise (fun a b => compare a b = .lt) ∧
    (∀ issue, issue ∈ result.issues ↔ ∃ selector ∈ selectors, IssueOf resourcePaths selector issue) ∧
    (∀ selector ∈ selectors, (∃! issue, issue ∈ result.issues ∧ issue.selector = selector) ↔
      ¬ WellFormedSelector selector ∨
        ∀ path ∈ resourcePaths, CanonicalPath path → ¬ SelectorMatches selector path) ∧
    (∀ selectors' resourcePaths', (∀ s, s ∈ selectors' ↔ s ∈ selectors) →
      (∀ p, p ∈ resourcePaths' ↔ p ∈ resourcePaths) →
      matchPublicationSelectors selectors' resourcePaths' = result) ∧
    ∀ a b da db, decodeCanonicalSegment a = some da → decodeCanonicalSegment b = some db → (da = db ↔ a = b) := by
  intro result
  refine ⟨parseSelector_isOk, contains_matchPublicationSelectors, pairwise_sortUnique _, fun issue => mem_issues,
    fun selector hselector => ?_, fun _ _ => matchPublicationSelectors_congr, fun a b da db => decode_inj⟩
  constructor
  · rintro ⟨issue, ⟨hmem, rfl⟩, -⟩
    obtain ⟨selector, -, hissue⟩ := mem_issues.1 hmem
    exact hissue.cause
  · intro hcause
    obtain ⟨issue, hissue⟩ := IssueOf.of_cause hcause
    refine ⟨issue, ⟨mem_issues.2 ⟨selector, hselector, hissue⟩, hissue.selector⟩, ?_⟩
    rintro issue' ⟨hmem, hsame⟩
    obtain ⟨selector', -, hissue'⟩ := mem_issues.1 hmem
    obtain rfl : selector' = selector := hissue'.selector.symm.trans hsame
    exact hissue'.unique hissue

/-! ## Plans -/

/-- What is selected is the least set with the matched resources and the mandatory operations that has the owner of
every member; `**` selects what the full mode publishes. -/
theorem selected_least (c : Component) (component : Str) (selectors : List Str) :
    let inventory := discoverComponent c
    let plan := buildPublicationPlan .selected inventory component
    IsLeast (CompleteSets inventory selectors) (plan selectors).effective ∧
    (∀ path ∈ (plan selectors).effective, path ∈ inventory.resources.keys) ∧
    (plan [lit "**"]).effectiveResources =
      (buildPublicationPlan .full inventory component selectors).effectiveResources ∧
    (inventory.resources.keys ≠ [] →
      (matchPublicationSelectors [lit "**"] inventory.resources.keys).issues = [] ∧
      (plan [lit "**"]).diagnostics = (buildPublicationPlan .full inventory component selectors).diagnostics) := by
  intro inventory plan
  have h : InventoryInv inventory := discoverComponent_inv c
  refine ⟨effective_isLeast h, fun path hpath => ?_, effectiveResources_all h, fun hne => ?_⟩
  · exact OrdMap.mem_keys.2 (effective_contains h .selected hpath)
  · exact ⟨issues_all h hne, diagnostics_all h hne⟩

/-! ## Snapshots -/

/-- The parent of every node is `rtt/components` or a node of the snapshot, and it is created first. -/
theorem parents_created_first (c : Component) (registry : TypeRegistry) (mode : PublicationMode) (selectors : List Str)
    (h : (snapshotComponent c registry mode selectors).diagnostics = []) :
    let nodes := (snapshotComponent c registry mode selectors).nodes
    (∀ path spec, nodes.find? path = some spec →
      spec.path = path ∧ (spec.parentPath = componentsPath ∨ nodes.contains spec.parentPath = true)) ∧
    (∀ before spec after, creationSequence nodes = before ++ spec :: after →
      spec.parentPath = componentsPath ∨ ∃ parent ∈ before, parent.path = spec.parentPath) ∧
    (∀ native effects space, createCandidate native c.name nodes effects space =
      createSpecs native (componentPath c.name) effects (creationSequence nodes) { space }) ∧
    ∀ native effects (space : AddressSpace) before spec after tx, creationSequence nodes = before ++ spec :: after →
      space.exists? (nodeId componentsPath) = true →
      createSpecs native (componentPath c.name) effects before { space } = (tx, true) →
      (tx.space.addAll (effects spec.path).before).exists? (nodeId spec.parentPath) = true := by
  intro nodes
  have hcomplete := complete_of_diagnostics h
  have hfind : ∀ {path spec}, nodes.find? path = some spec ↔
      spec ∈ insertions c registry mode selectors ∧ spec.path = path := hcomplete.find?_iff
  have hbefore : ∀ before spec after, creationSequence nodes = before ++ spec :: after →
      spec.parentPath = componentsPath ∨ ∃ parent ∈ before, parent.path = spec.parentPath := by
    intro before spec after hsequence
    have hmem : spec ∈ creationSequence nodes := by simp [hsequence]
    obtain ⟨path, hpath⟩ := mem_creationSequence.1 hmem
    obtain ⟨hdepth, hroot | ⟨parent, hparent, heq⟩⟩ := hcomplete.parent (hfind.1 hpath).1
    · exact .inl hroot
    · refine .inr ⟨parent, ?_, heq⟩
      have hsorted := creationSequence_pairwise nodes
      have hin : parent ∈ creationSequence nodes := mem_creationSequence.2 ⟨_, hfind.2 ⟨hparent, rfl⟩⟩
      rw [hsequence] at hsorted hin
      rcases List.mem_append.1 hin with hin | hin
      · exact hin
      · -- a later node, or the node itself, is no higher in the tree
        have hlater : pathDepth spec.path ≤ pathDepth parent.path := by
          rcases List.mem_cons.1 hin with rfl | hin
          · exact Nat.le_refl _
          · exact (List.pairwise_cons.1 (List.pairwise_append.1 hsorted).2.1).1 parent hin
        rw [heq] at hlater
        omega
  refine ⟨fun path spec hspec => ?_, hbefore, fun _ _ _ => rfl, ?_⟩
  · obtain ⟨hmem, rfl⟩ := hfind.1 hspec
    obtain ⟨-, hroot | ⟨parent, hparent, heq⟩⟩ := hcomplete.parent hmem
    · exact ⟨rfl, .inl hroot⟩
    · exact ⟨rfl, .inr (by rw [OrdMap.contains, hfind.2 ⟨hparent, heq⟩]; rfl)⟩
  · intro native effects space before spec after tx hsequence hcomponents hcreated
    refine (AddressSpace.Extends.addAll _ _).exists_of ?_
    have hok := congrArg Prod.snd hcreated
    obtain rfl : (createSpecs native (componentPath c.name) effects before { space }).1 = tx := congrArg Prod.fst hcreated
    rcases hbefore before spec after hsequence with hroot | ⟨parent, hparent, heq⟩
    · rw [hroot]
      exact (createSpecs_grows before { space }).space.exists_of hcomponents
    · rw [← heq]
      exact createSpecs_exists before { space } hok parent hparent

/-- The sample component with an arm that has a port. -/
def armedComponent : Component where
  self := 0
  name := lit "robot"
  root := some 0
  service id :=
    if id = 0 then
      { (sampleComponent 0 (lit "robot")).service 0 with
        providerNames := [lit "arm"]
        getService := fun name => if name = lit "arm" then some 1 else none }
    else
      { portNames := [lit "value"]
        getPort := fun name => if name = lit "value" then some ⟨[], some 0, true, false, false⟩ else none }

theorem armedComponent_diagnostics :
    (snapshotComponent armedComponent sampleRegistry .selected [lit "services/arm/**"]).diagnostics = [] := by
  decide +kernel

theorem parents_created_first_armed :
    (snapshotComponent armedComponent sampleRegistry .selected [lit "services/arm/**"]).diagnostics = [] ∧
    ∀ path spec, (snapshotComponent armedComponent sampleRegistry .selected [lit "services/arm/**"]).nodes.find? path =
      some spec → spec.path = path ∧ (spec.parentPath = componentsPath ∨
        (snapshotComponent armedComponent sampleRegistry .selected [lit "services/arm/**"]).nodes.contains
          spec.parentPath = true) :=
  ⟨armedComponent_diagnostics,
    (parents_created_first armedComponent sampleRegistry .selected [lit "services/arm/**"]
      armedComponent_diagnostics).1⟩

/-- An insertion replaces nothing but an equal category, so the snapshot has the nodes of all bundles. -/
theorem bundles_keep (c : Component) (registry : TypeRegistry) (mode : PublicationMode) (selectors : List Str)
    (h : (snapshotComponent c registry mode selectors).diagnostics = []) :
    let snapshot := snapshotComponent c registry mode selectors
    let inventory := discoverComponent c
    snapshot.nodes = (insertions c registry mode selectors).foldl insertNode ∅ ∧
    (∀ before spec after old, insertions c registry mode selectors = before ++ spec :: after →
      (before.foldl insertNode ∅).find? spec.path = some old → spec.kind = .object ∧ SameCategory c old spec) ∧
    (∀ path ∈ snapshot.effectiveResources.keys, ∃ record specs, inventory.resources.find? path = some record ∧
      bundle c.name c.service registry record = .ok specs ∧ (specs.map NodeSpec.path).Nodup ∧
      ∀ spec ∈ specs, snapshot.nodes.find? spec.path = some spec) ∧
    (∀ path ∈ snapshot.effectiveResources.keys, ∀ path' ∈ snapshot.effectiveResources.keys,
      ∀ record record' specs specs',
        inventory.resources.find? path = some record → bundle c.name c.service registry record = .ok specs →
        inventory.resources.find? path' = some record' → bundle c.name c.service registry record' = .ok specs' →
        ∀ a ∈ specs, ∀ b ∈ specs', a.path = b.path → a = b ∧ (path ≠ path' → a.kind = .object ∧ SameCategory c a b)) ∧
    snapshot.nodes.find? (componentPath c.name) = some (rootSpec c) := by
  intro snapshot inventory
  have hcomplete := complete_of_diagnostics h
  have hcategory : ∀ {a b}, SameCategory c a b → b.kind = .object := by
    rintro a b ⟨-, -, record', -, -, -, -, -, rfl⟩
    rfl
  have hinserted : ∀ {path record specs}, path ∈ effectivePaths c mode selectors →
      inventory.resources.find? path = some record → bundle c.name c.service registry record = .ok specs →
      ∀ spec ∈ specs, spec ∈ insertions c registry mode selectors := by
    intro path record specs hpath hrecord hbundle spec hspec
    refine List.mem_cons_of_mem _ (List.mem_flatMap.2 ⟨path, hpath, ?_⟩)
    rw [resourceSpecs_eq hrecord hbundle]
    exact hspec
  refine ⟨snapshot_nodes c registry mode selectors, fun before spec after old hsplit hold => ?_, ?_, ?_,
    hcomplete.find?_iff.2 ⟨List.mem_cons_self, rfl⟩⟩
  · obtain ⟨hmem, hpath⟩ := mem_of_find?_insertNode hold
    have hpairwise := hcomplete.pairwise
    rw [hsplit] at hpairwise
    have hsame := (List.pairwise_append.1 hpairwise).2.2 old hmem spec List.mem_cons_self hpath
    exact ⟨hcategory hsame, hsame⟩
  · rw [snapshot_effectiveResources]
    intro path hpath
    obtain ⟨record, specs, hrecord, hbundle⟩ := hcomplete.bundle path hpath
    obtain ⟨-, hplaced⟩ := record_path hrecord
    exact ⟨record, specs, hrecord, hbundle, (bundle_shape hplaced hbundle).nodup hplaced,
      fun spec hspec => hcomplete.find?_iff.2 ⟨hinserted hpath hrecord hbundle spec hspec, rfl⟩⟩
  · rw [snapshot_effectiveResources]
    intro path hpath path' hpath' record record' specs specs' hrecord hbundle hrecord' hbundle' a ha b hb hab
    have heq := hcomplete.same a (hinserted hpath hrecord hbundle a ha) b (hinserted hpath' hrecord' hbundle' b hb) hab
    refine ⟨heq, fun hne => ?_⟩
    obtain ⟨rfl, hplaced⟩ := record_path hrecord
    obtain ⟨rfl, hplaced'⟩ := record_path hrecord'
    rcases collision (discoverComponent_inv c) hrecord hrecord' (bundle_shape hplaced hbundle)
      (bundle_shape hplaced' hbundle') ha hb hab with rfl | ⟨hcat, hcat', howner, hkind⟩
    · exact absurd rfl hne
    · have hsame : SameCategory c a b := ⟨heq, record, record', hrecord, hrecord', howner, hkind, hcat, hcat'⟩
      exact ⟨heq ▸ hcategory hsame, hsame⟩

theorem bundles_keep_armed :
    (snapshotComponent armedComponent sampleRegistry .selected [lit "services/arm/**"]).diagnostics = [] ∧
    (snapshotComponent armedComponent sampleRegistry .selected [lit "services/arm/**"]).nodes =
      (insertions armedComponent sampleRegistry .selected [lit "services/arm/**"]).foldl insertNode ∅ :=
  ⟨armedComponent_diagnostics,
    (bundles_keep armedComponent sampleRegistry .selected [lit "services/arm/**"] armedComponent_diagnostics).1⟩

end RttOpcua.Model
