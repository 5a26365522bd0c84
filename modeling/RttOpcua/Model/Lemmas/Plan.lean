import RttOpcua.Model.Lemmas.Inventory
import RttOpcua.Model.Lemmas.Selector
import Mathlib.Order.Bounds.Basic

/-!
# The plan

What `buildPublicationPlan` selects: the least set with the matched resources and the mandatory operations that is
closed under owners.
-/

namespace RttOpcua.Model

open RttOpcua.Lib

variable {inventory : ComponentInventory} {component : Str} {selectors : List Str}

/-! ## Effective sets -/

/-- The mandatory root operations that were found. -/
def MandatoryPath (inventory : ComponentInventory) (path : Str) : Prop :=
  ∃ name ∈ kMandatoryOperations.map Prod.fst, path = resourcePath [] .operation name ∧
    inventory.resources.contains path = true

/-- The matched resources. -/
def MatchedPath (inventory : ComponentInventory) (selectors : List Str) (path : Str) : Prop :=
  (matchPublicationSelectors selectors inventory.resources.keys).resourcePaths.contains path = true

/-- With a member comes the service that owns it. -/
def OwnerClosed (inventory : ComponentInventory) (S : Set Str) : Prop :=
  ∀ path r, path ∈ S → inventory.resources.find? path = some r → r.ownerPath ≠ [] → r.ownerPath ∈ S

/-- The closed sets with the matched and the mandatory resources. -/
def CompleteSets (inventory : ComponentInventory) (selectors : List Str) : Set (Set Str) :=
  {S | (∀ path, MatchedPath inventory selectors path → path ∈ S) ∧ (∀ path, MandatoryPath inventory path → path ∈ S) ∧
    OwnerClosed inventory S}

def PublicationPlan.effective (plan : PublicationPlan) : Set Str :=
  {path | plan.effectiveResources.contains path = true}

/-! ## The steps of the plan -/

/-- The diagnostics of mandatory operations that are missing. -/
def missingMandatory (inventory : ComponentInventory) (component name : Str) : List PublicationDiagnostic :=
  if inventory.resources.contains (resourcePath [] .operation name) then [] else [{
    kind := .mandatoryResource
    component
    resourcePath := resourcePath [] .operation name
    reason := lit "mandatory RTT proxy operation is unavailable" }]

theorem foldl_addMandatory (names : List Str) : ∀ plan : PublicationPlan,
    let final := names.foldl (addMandatory inventory component) plan
    final.diagnostics = plan.diagnostics ++ names.flatMap (missingMandatory inventory component) ∧
    ∀ path, final.effectiveResources.contains path = true ↔ plan.effectiveResources.contains path = true ∨
      ∃ name ∈ names, path = resourcePath [] .operation name ∧ inventory.resources.contains path = true := by
  induction names with
  | nil => simp
  | cons name rest ih =>
      intro plan
      obtain ⟨hdiagnostics, hpaths⟩ := ih (addMandatory inventory component plan name)
      rw [List.foldl_cons]
      refine ⟨hdiagnostics.trans ?_, fun path => (hpaths path).trans ?_⟩
      · simp only [addMandatory, missingMandatory, List.flatMap_cons]
        split <;> simp
      · simp only [addMandatory, List.mem_cons, exists_eq_or_imp]
        split
        · rename_i hcontains
          simp only [OrdSet.contains_insert, Bool.or_eq_true, decide_eq_true_eq]
          constructor
          · rintro ((rfl | h) | h)
            · exact .inr (.inl ⟨rfl, hcontains⟩)
            · exact .inl h
            · exact .inr (.inr h)
          · rintro (h | ⟨rfl, -⟩ | h)
            · exact .inl (.inr h)
            · exact .inl (.inl rfl)
            · exact .inr h
        · rename_i hmissing
          refine or_congr Iff.rfl ⟨.inr, ?_⟩
          rintro (⟨rfl, h⟩ | h)
          · exact absurd h hmissing
          · exact h

theorem buildPublicationPlan_effective (mode : PublicationMode) (path : Str) :
    path ∈ (buildPublicationPlan mode inventory component selectors).effective ↔
      (selectResources mode inventory component selectors).effectiveResources.contains path = true ∨
        MandatoryPath inventory path :=
  (foldl_addMandatory _ _).2 path

theorem buildPublicationPlan_diagnostics (mode : PublicationMode) :
    (buildPublicationPlan mode inventory component selectors).diagnostics =
      (selectResources mode inventory component selectors).diagnostics ++
        (kMandatoryOperations.map Prod.fst).flatMap (missingMandatory inventory component) :=
  (foldl_addMandatory _ _).1

/-- The resources of full mode. -/
theorem selectResources_full (path : Str) :
    (selectResources .full inventory component selectors).effectiveResources.contains path = true ↔
      inventory.resources.contains path = true := by
  simp only [selectResources, OrdSet.contains_insertAll, OrdMap.mem_keys, Bool.or_eq_true, decide_eq_true_eq]
  simp [OrdMap.contains]

theorem contains_addServiceAncestors (owner : Str) (effective : OrdSet Str) (path : Str) :
    (addServiceAncestors owner effective).contains path = true ↔
      effective.contains path = true ∨ path ∈ ownerServices owner := by
  simp [addServiceAncestors, OrdSet.contains_insertAll, ownerServices, or_comm]

/-- The loop over the matched members adds the owners of each. -/
theorem contains_foldl_addServiceAncestors (members : List Str) (path : Str) (effective : OrdSet Str) :
    (members.foldl (fun (effective : OrdSet Str) path =>
      match inventory.resources.find? path with
      | some record => addServiceAncestors record.ownerPath effective
      | none => effective) effective).contains path = true ↔
    effective.contains path = true ∨ ∃ member ∈ members, ∃ r, inventory.resources.find? member = some r ∧
      path ∈ ownerServices r.ownerPath := by
  induction members generalizing effective with
  | nil => simp
  | cons member rest ih =>
      rw [List.foldl_cons, ih]
      cases hr : inventory.resources.find? member with
      | none => simp [hr]
      | some r => simp [hr, contains_addServiceAncestors, or_assoc]

/-- The resources of selected mode: what is matched, and its owners. -/
theorem selectResources_selected (path : Str) :
    (selectResources .selected inventory component selectors).effectiveResources.contains path = true ↔
      MatchedPath inventory selectors path ∨ ∃ member r, MatchedPath inventory selectors member ∧
        inventory.resources.find? member = some r ∧ path ∈ ownerServices r.ownerPath := by
  unfold selectResources
  simp only
  split
  · rename_i hempty
    subst hempty
    have hnone : ∀ path, ¬ MatchedPath inventory [] path := by
      intro path h
      obtain ⟨-, -, selector, hselector, -⟩ := (contains_matchPublicationSelectors path).1 h
      cases hselector
    constructor
    · intro h
      cases h
    · rintro (h | ⟨member, -, h, -⟩)
      · exact absurd h (hnone path)
      · exact absurd h (hnone member)
  · refine (contains_foldl_addServiceAncestors _ _ _).trans (or_congr Iff.rfl ?_)
    constructor
    · rintro ⟨member, hmember, r, hr, hpath⟩
      exact ⟨member, r, OrdMap.mem_keys.1 hmember, hr, hpath⟩
    · rintro ⟨member, r, hmember, hr, hpath⟩
      exact ⟨member, OrdMap.mem_keys.2 hmember, r, hr, hpath⟩

theorem MatchedPath.contains {path : Str} (h : MatchedPath inventory selectors path) :
    inventory.resources.contains path = true :=
  OrdMap.mem_keys.1 ((contains_matchPublicationSelectors path).1 h).1

theorem MandatoryPath.contains {path : Str} (h : MandatoryPath inventory path) :
    inventory.resources.contains path = true := by
  obtain ⟨-, -, -, h⟩ := h
  exact h

/-! ## Owners -/

/-- A closed set with a member has the services above it. -/
theorem OwnerClosed.services {S : Set Str} (h : InventoryInv inventory) (hS : OwnerClosed inventory S) {owner : Str}
    (hk : Known inventory owner) (hmem : owner ≠ [] → owner ∈ S) : ∀ a ∈ ownerServices owner, a ∈ S := by
  refine Known.induct h (P := fun owner => (owner ≠ [] → owner ∈ S) → ∀ a ∈ ownerServices owner, a ∈ S) ?_ ?_ hk hmem
  · exact fun _ a ha => absurd ha (by simp [ownerServices, splitPath, serviceAncestors])
  · intro r hr hkind howner ih hmem a ha
    have hpath := (h.path _ r hr).2
    rw [hkind] at hpath
    have hself := hmem (resourcePath_ne_nil _ _ _)
    rw [ownerServices_resourcePath h howner] at ha
    rcases List.mem_append.1 ha with ha | ha
    · exact ih (fun hne => hS _ r hself (hpath ▸ hr) hne) a ha
    · rw [List.mem_singleton.1 ha]
      exact hself

/-- Mandatory operations belong to the component itself. -/
theorem MandatoryPath.owner (h : InventoryInv inventory) {path : Str} {r : ResourceRecord}
    (hm : MandatoryPath inventory path) (hr : inventory.resources.find? path = some r) : r.ownerPath = [] := by
  obtain ⟨name, -, rfl, -⟩ := hm
  exact (resourcePath_inj (h.path _ r hr).2).1.symm

/-- The effective resources are recorded. -/
theorem effective_contains (h : InventoryInv inventory) (mode : PublicationMode) {path : Str}
    (hpath : path ∈ (buildPublicationPlan mode inventory component selectors).effective) :
    inventory.resources.contains path = true := by
  rcases (buildPublicationPlan_effective mode path).1 hpath with hselected | hmandatory
  · cases mode with
    | full => exact (selectResources_full path).1 hselected
    | selected =>
        rcases (selectResources_selected path).1 hselected with hmatched | ⟨member, r, -, hr, ha⟩
        · exact hmatched.contains
        · obtain ⟨hne, hknown⟩ := known_of_mem_ownerServices h (h.owner member r hr) ha
          obtain ⟨q, hq, -⟩ := hknown.resolve_left hne
          rw [OrdMap.contains, hq]
          rfl
  · exact hmandatory.contains

/-- The effective resources are closed under owners. -/
theorem effective_closed (h : InventoryInv inventory) (mode : PublicationMode) :
    OwnerClosed inventory (buildPublicationPlan mode inventory component selectors).effective := by
  intro path r hpath hr hne
  have hknown := h.owner path r hr
  rw [buildPublicationPlan_effective]
  rcases (buildPublicationPlan_effective mode path).1 hpath with hselected | hmandatory
  · refine .inl ?_
    cases mode with
    | full =>
        rw [selectResources_full]
        obtain ⟨q, hq, -⟩ := hknown.resolve_left hne
        rw [OrdMap.contains, hq]
        rfl
    | selected =>
        rw [selectResources_selected]
        rcases (selectResources_selected path).1 hselected with hmatched | ⟨member, q, hmatched, hq, ha⟩
        · exact .inr ⟨path, r, hmatched, hr, mem_ownerServices_self h hknown hne⟩
        · exact .inr ⟨member, q, hmatched, hq, owner_mem_ownerServices h (h.owner member q hq) ha hr hne⟩
  · exact absurd (hmandatory.owner h hr) hne

/-- What is selected is the least closed set. -/
theorem effective_isLeast (h : InventoryInv inventory) :
    IsLeast (CompleteSets inventory selectors)
      (buildPublicationPlan .selected inventory component selectors).effective := by
  refine ⟨⟨fun path hpath => ?_, fun path hpath => ?_, effective_closed h .selected⟩, ?_⟩
  · exact (buildPublicationPlan_effective .selected path).2 (.inl ((selectResources_selected path).2 (.inl hpath)))
  · exact (buildPublicationPlan_effective .selected path).2 (.inr hpath)
  · rintro S ⟨hmatched, hmandatory, hclosed⟩ path hpath
    rcases (buildPublicationPlan_effective .selected path).1 hpath with hselected | hm
    · rcases (selectResources_selected path).1 hselected with hm | ⟨member, r, hm, hr, ha⟩
      · exact hmatched path hm
      · exact hclosed.services h (h.owner member r hr) (hclosed member r (hmatched member hm) hr) path ha
    · exact hmandatory path hm

/-! ## All resources -/

/-- Every recorded path is matched by `**`. -/
theorem matched_all (h : InventoryInv inventory) {path : Str} (hpath : inventory.resources.contains path = true) :
    MatchedPath inventory [lit "**"] path := by
  obtain ⟨r, hr⟩ := Option.isSome_iff_exists.1 hpath
  refine (contains_matchPublicationSelectors path).2 ⟨OrdMap.mem_keys.2 hpath, canonicalPath_of_record h hr, lit "**",
    by simp, (parseSelector_isOk _).1 ⟨_, rfl⟩, ?_⟩
  have hsplit : splitPath (lit "**") = [lit "**"] := by decide
  rw [SelectorMatches, hsplit]
  exact .recursive _

/-- With `**` nothing is malformed, and nothing unmatched where there is a resource. -/
theorem issues_all (h : InventoryInv inventory) (hne : inventory.resources.keys ≠ []) :
    (matchPublicationSelectors [lit "**"] inventory.resources.keys).issues = [] := by
  refine List.eq_nil_iff_forall_not_mem.2 fun issue hissue => ?_
  obtain ⟨selector, hselector, hissue⟩ := mem_issues.1 hissue
  obtain rfl := List.mem_singleton.1 hselector
  obtain ⟨path, hpath⟩ := List.exists_mem_of_ne_nil _ hne
  obtain ⟨-, hcanonical, selector, hselector, hwell, hmatch⟩ :=
    (contains_matchPublicationSelectors path).1 (matched_all h (OrdMap.mem_keys.1 hpath))
  obtain rfl := List.mem_singleton.1 hselector
  have hcause := hissue.cause
  rw [hissue.selector] at hcause
  rcases hcause with hmalformed | hunmatched
  · exact hmalformed hwell
  · exact hunmatched path hpath hcanonical hmatch

theorem effectiveResources_all (h : InventoryInv inventory) :
    (buildPublicationPlan .selected inventory component [lit "**"]).effectiveResources =
      (buildPublicationPlan .full inventory component selectors).effectiveResources := by
  refine OrdSet.ext_contains fun path => Bool.eq_iff_iff.2 ⟨fun hpath => ?_, fun hpath => ?_⟩
  · exact (buildPublicationPlan_effective .full path).2
      (.inl ((selectResources_full path).2 (effective_contains h .selected hpath)))
  · exact (buildPublicationPlan_effective .selected path).2
      (.inl ((selectResources_selected path).2 (.inl (matched_all h (effective_contains h .full hpath)))))

theorem diagnostics_all (h : InventoryInv inventory) (hne : inventory.resources.keys ≠ []) :
    (buildPublicationPlan .selected inventory component [lit "**"]).diagnostics =
      (buildPublicationPlan .full inventory component selectors).diagnostics := by
  rw [buildPublicationPlan_diagnostics, buildPublicationPlan_diagnostics]
  simp [selectResources, issues_all h hne]

end RttOpcua.Model
