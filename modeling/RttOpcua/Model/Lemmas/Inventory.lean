import RttOpcua.Model.Plan
import RttOpcua.Model.Lemmas.Path

/-!
# The inventory

Every record lies at the path that its owner, its kind and its name make, and the owner is the component or a recorded
service. So `addServiceAncestors`, which takes a path apart, finds the services that discovery went through.
-/

namespace RttOpcua.Model

open RttOpcua.Lib

/-! ## The invariant -/

/-- The component itself or a recorded service. -/
def Known (inventory : ComponentInventory) (owner : Str) : Prop :=
  owner = [] ∨ ∃ r, inventory.resources.find? owner = some r ∧ r.kind = .service

structure InventoryInv (inventory : ComponentInventory) : Prop where
  path : ∀ path r, inventory.resources.find? path = some r → r.path = path ∧ path = resourcePath r.ownerPath r.kind r.name
  owner : ∀ path r, inventory.resources.find? path = some r → Known inventory r.ownerPath

/-- Discovery keeps the invariant and the records. -/
structure Grown (inventory inventory' : ComponentInventory) : Prop where
  inv : InventoryInv inventory'
  kept : ∀ path r, inventory.resources.find? path = some r → inventory'.resources.find? path = some r

section Grown

variable {inventory inventory' inventory'' : ComponentInventory}

theorem Grown.refl (h : InventoryInv inventory) : Grown inventory inventory := ⟨h, fun _ _ hr => hr⟩

theorem Grown.trans (h : Grown inventory inventory') (h' : Grown inventory' inventory'') : Grown inventory inventory'' :=
  ⟨h'.inv, fun path r hr => h'.kept path r (h.kept path r hr)⟩

theorem Grown.known (h : Grown inventory inventory') {owner : Str} (hk : Known inventory owner) :
    Known inventory' owner := by
  rcases hk with rfl | ⟨r, hr, hkind⟩
  · exact .inl rfl
  · exact .inr ⟨r, h.kept owner r hr, hkind⟩

/-- A record at the path of its owner, kind and name. -/
theorem addInventoryRecord_grown (component : Str) (record : ResourceRecord) (h : InventoryInv inventory)
    (hpath : record.path = resourcePath record.ownerPath record.kind record.name)
    (howner : Known inventory record.ownerPath) :
    Grown inventory (addInventoryRecord component inventory record) ∧
      (record.kind = .service → Known (addInventoryRecord component inventory record) record.path) := by
  unfold addInventoryRecord
  split
  · rename_i hcontains
    refine ⟨⟨⟨h.path, h.owner⟩, fun _ _ hr => hr⟩, fun hkind => .inr ?_⟩
    obtain ⟨r, hr⟩ := Option.isSome_iff_exists.1 hcontains
    refine ⟨r, hr, ?_⟩
    have hsame := (h.path _ r hr).2
    rw [hpath] at hsame
    rw [← (resourcePath_inj hsame).2, hkind]
  · rename_i hnew
    have hnone : inventory.resources.find? record.path = none := by
      simpa [OrdMap.contains] using hnew
    have hfind : ∀ path, (inventory.resources.emplace record.path record).find? path =
        if path = record.path then some record else inventory.resources.find? path := by
      intro path
      simp [OrdMap.find?_emplace, hnew]
    have hkept : ∀ path r, inventory.resources.find? path = some r →
        (inventory.resources.emplace record.path record).find? path = some r := by
      intro path r hr
      rw [hfind, if_neg]
      · exact hr
      · rintro rfl
        rw [hnone] at hr
        cases hr
    have hknown : ∀ owner, Known inventory owner →
        Known { inventory with resources := inventory.resources.emplace record.path record } owner := by
      rintro owner (rfl | ⟨r, hr, hkind⟩)
      · exact .inl rfl
      · exact .inr ⟨r, hkept owner r hr, hkind⟩
    refine ⟨⟨⟨fun path r hr => ?_, fun path r hr => ?_⟩, hkept⟩, fun hkind => .inr ⟨record, ?_, hkind⟩⟩
    · simp only [hfind] at hr
      split at hr
      · rename_i heq
        obtain rfl := Option.some.inj hr
        exact ⟨heq.symm, heq.trans hpath⟩
      · exact h.path path r hr
    · simp only [hfind] at hr
      split at hr
      · obtain rfl := Option.some.inj hr
        exact hknown _ howner
      · exact hknown _ (h.owner path r hr)
    · simp only [hfind, if_true]

end Grown

/-! ## Discovery -/

section Discovery

variable {component : Str} {services : Nat → Service} {ownerPath legacyPath : Str} {service : Nat}

theorem mem_memberRecords {s : Service} {r : ResourceRecord} (h : r ∈ memberRecords service s ownerPath legacyPath) :
    r.path = resourcePath r.ownerPath r.kind r.name ∧ r.ownerPath = ownerPath := by
  simp only [memberRecords, List.mem_append, List.mem_map] at h
  rcases h with ((⟨_, _, rfl⟩ | ⟨_, _, rfl⟩) | ⟨_, _, rfl⟩) | ⟨_, _, rfl⟩
  all_goals exact ⟨rfl, rfl⟩

/-- Records of one owner. -/
theorem foldl_records_grown (records : List ResourceRecord) : ∀ {inventory : ComponentInventory},
    InventoryInv inventory → Known inventory ownerPath →
    (∀ r ∈ records, r.path = resourcePath r.ownerPath r.kind r.name ∧ r.ownerPath = ownerPath) →
    Grown inventory (records.foldl (addInventoryRecord component) inventory) := by
  induction records with
  | nil => exact fun h _ _ => .refl h
  | cons r rest ih =>
      intro inventory h hk hrecords
      obtain ⟨hpath, howner⟩ := hrecords r (by simp)
      have hgrown := (addInventoryRecord_grown component r h hpath (howner ▸ hk)).1
      exact hgrown.trans (ih hgrown.inv (hgrown.known hk) fun r hr => hrecords r (by simp [hr]))

/-- What the recursive call gives. -/
def Descends (descend : Nat → Str → Str → Discovery → Discovery) : Prop :=
  ∀ service ownerPath legacyPath (d : Discovery), InventoryInv d.inventory → Known d.inventory ownerPath →
    Grown d.inventory (descend service ownerPath legacyPath d).inventory

variable {descend : Option (Nat → Str → Str → Discovery → Discovery)}

theorem discoverChild_grown (hdescend : ∀ f, descend = some f → Descends f) {s : Service} {d : Discovery}
    (h : InventoryInv d.inventory) (hk : Known d.inventory ownerPath) (name : Str) :
    Grown d.inventory (discoverChild component descend service s ownerPath legacyPath d name).inventory := by
  unfold discoverChild
  split
  · exact .refl h
  · simp only
    split
    · exact (addInventoryRecord_grown _ _ h rfl hk).1
    · rename_i child _
      split
      · exact (addInventoryRecord_grown _ _ h rfl hk).1
      · split
        · exact (addInventoryRecord_grown _ _ h rfl hk).1
        · rename_i f
          obtain ⟨hgrown, hchild⟩ := addInventoryRecord_grown component {
            kind := .service, path := resourcePath ownerPath .service name, ownerPath
            legacyPath := appendDiagnosticSegment legacyPath name, name, owner := service, service := some child
            discoveryError := [] } h rfl hk
          exact hgrown.trans (hdescend f rfl _ _ _ ⟨_, d.ancestry⟩ hgrown.inv (hchild rfl))

theorem foldl_children_grown (hdescend : ∀ f, descend = some f → Descends f) {s : Service} (names : List Str) :
    ∀ d : Discovery, InventoryInv d.inventory → Known d.inventory ownerPath →
    Grown d.inventory (names.foldl (discoverChild component descend service s ownerPath legacyPath) d).inventory := by
  induction names with
  | nil => exact fun d h _ => .refl h
  | cons name rest ih =>
      intro d h hk
      have hgrown : Grown d.inventory
          (discoverChild component descend service s ownerPath legacyPath d name).inventory :=
        discoverChild_grown hdescend h hk name
      exact hgrown.trans (ih _ hgrown.inv (hgrown.known hk))

theorem discoverService_descends (component : Str) (services : Nat → Service) (remaining : Nat) :
    Descends (discoverService component services remaining) := by
  induction remaining with
  | zero =>
      intro service ownerPath legacyPath d h hk
      have hgrown : Grown d.inventory ((memberRecords service (services service) ownerPath legacyPath).foldl
          (addInventoryRecord component) d.inventory) :=
        foldl_records_grown _ h hk fun r hr => mem_memberRecords hr
      have hnone : ∀ f, (none : Option (Nat → Str → Str → Discovery → Discovery)) = some f → Descends f := nofun
      unfold discoverService
      exact hgrown.trans (foldl_children_grown hnone _ ⟨_, _⟩ hgrown.inv (hgrown.known hk))
  | succ remaining ih =>
      intro service ownerPath legacyPath d h hk
      have hgrown : Grown d.inventory ((memberRecords service (services service) ownerPath legacyPath).foldl
          (addInventoryRecord component) d.inventory) :=
        foldl_records_grown _ h hk fun r hr => mem_memberRecords hr
      have hsome : ∀ f, some (discoverService component services remaining) = some f → Descends f := by
        rintro f hf
        obtain rfl := Option.some.inj hf
        exact ih
      unfold discoverService
      exact hgrown.trans (foldl_children_grown hsome _ ⟨_, _⟩ hgrown.inv (hgrown.known hk))

theorem discoverComponent_inv (c : Component) : InventoryInv (discoverComponent c) := by
  unfold discoverComponent
  split
  · exact ⟨nofun, nofun⟩
  · rename_i root _
    have hgrown := discoverService_descends c.name c.service kMaximumServiceDepth root [] [] {} ⟨nofun, nofun⟩ (.inl rfl)
    exact ⟨hgrown.inv.path, hgrown.inv.owner⟩

end Discovery

/-! ## Owners -/

section Owners

variable {inventory : ComponentInventory} {owner : Str}

theorem length_resourcePath (owner : Str) (kind : ResourceKind) (name : Str) :
    owner.length < (resourcePath owner kind name).length := by
  unfold resourcePath appendNodeSegment
  split
  · rename_i h
    simp only [h, List.length_nil, List.nil_append, List.length_append, List.length_cons]
    omega
  · simp only [List.length_append, List.length_cons, List.length_nil]
    omega

/-- Induction along the services that own one another. -/
theorem Known.induct (h : InventoryInv inventory) {P : Str → Prop} (root : P [])
    (child : ∀ r : ResourceRecord, inventory.resources.find? r.path = some r → r.kind = .service →
      Known inventory r.ownerPath → P r.ownerPath → P (resourcePath r.ownerPath .service r.name)) :
    ∀ {owner : Str}, Known inventory owner → P owner := by
  have hlength : ∀ n (owner : Str), owner.length = n → Known inventory owner → P owner := by
    intro n
    induction n using Nat.strong_induction_on with
    | _ n ih =>
        rintro owner rfl (rfl | ⟨r, hr, hkind⟩)
        · exact root
        · obtain ⟨rfl, hpath⟩ := h.path owner r hr
          have hknown := h.owner _ r hr
          have hlt : r.ownerPath.length < r.path.length := by
            rw [hpath]
            exact length_resourcePath _ _ _
          rw [hpath, hkind]
          exact child r hr hkind hknown (ih _ hlt _ rfl hknown)
  exact fun {owner} hk => hlength _ owner rfl hk

/-- What `addServiceAncestors` adds. -/
def ownerServices (owner : Str) : List Str := serviceAncestors [] (splitPath owner)

theorem ownerServices_eq (owner : Str) : ownerServices owner = serviceAncestors [] (segments owner) := by
  unfold ownerServices segments
  split
  · rename_i h
    subst h
    rfl
  · rfl

theorem serviceAncestors_append (h : InventoryInv inventory) (hk : Known inventory owner) : ∀ rest : List Str,
    serviceAncestors [] (segments owner ++ rest) =
      ownerServices owner ++ serviceAncestors (if owner = [] then [] else owner ++ [slash]) rest := by
  refine Known.induct h (P := fun owner => ∀ rest : List Str, serviceAncestors [] (segments owner ++ rest) =
    ownerServices owner ++ serviceAncestors (if owner = [] then [] else owner ++ [slash]) rest) ?_ ?_ hk
  · exact fun rest => rfl
  · intro r _ _ _ ih rest
    have hstep : ∀ rest : List Str,
        serviceAncestors [] (segments (resourcePath r.ownerPath .service r.name) ++ rest) =
          ownerServices r.ownerPath ++ (resourcePath r.ownerPath .service r.name ::
            serviceAncestors (resourcePath r.ownerPath .service r.name ++ [slash]) rest) := by
      intro rest
      rw [segments_resourcePath, List.append_assoc, ih]
      rfl
    have hself := hstep []
    rw [List.append_nil, ← ownerServices_eq] at hself
    rw [hstep, hself, if_neg (resourcePath_ne_nil _ _ _)]
    simp [serviceAncestors]

/-- The services of an owner: those of its own owner, and itself. -/
theorem ownerServices_resourcePath (h : InventoryInv inventory) (hk : Known inventory owner) (name : Str) :
    ownerServices (resourcePath owner .service name) =
      ownerServices owner ++ [resourcePath owner .service name] := by
  have happend := serviceAncestors_append h hk [resourceCategory .service, escapeNodeIdSegment name]
  rw [← segments_resourcePath, ← ownerServices_eq] at happend
  rw [happend]
  rfl

/-- They are recorded services. -/
theorem known_of_mem_ownerServices (h : InventoryInv inventory) (hk : Known inventory owner) {a : Str}
    (ha : a ∈ ownerServices owner) : a ≠ [] ∧ Known inventory a := by
  refine Known.induct h (P := fun owner => ∀ a ∈ ownerServices owner, a ≠ [] ∧ Known inventory a) ?_ ?_ hk a ha
  · exact fun a ha => absurd ha (by simp [ownerServices, splitPath, serviceAncestors])
  · intro r hr hkind howner ih a ha
    rw [ownerServices_resourcePath h howner] at ha
    rcases List.mem_append.1 ha with ha | ha
    · exact ih a ha
    · obtain rfl := List.mem_singleton.1 ha
      refine ⟨resourcePath_ne_nil _ _ _, .inr ⟨r, ?_, hkind⟩⟩
      have hpath := (h.path _ r hr).2
      rw [hkind] at hpath
      rw [← hpath]
      exact hr

/-- An owner is one of its services. -/
theorem mem_ownerServices_self (h : InventoryInv inventory) (hk : Known inventory owner) (hne : owner ≠ []) :
    owner ∈ ownerServices owner := by
  rcases hk with rfl | ⟨r, hr, hkind⟩
  · exact absurd rfl hne
  · have hpath := (h.path owner r hr).2
    rw [hkind] at hpath
    rw [hpath, ownerServices_resourcePath h (h.owner owner r hr)]
    simp

/-- The owner of one of the services is one of them. -/
theorem owner_mem_ownerServices (h : InventoryInv inventory) (hk : Known inventory owner) {a : Str} {r : ResourceRecord}
    (ha : a ∈ ownerServices owner) (hr : inventory.resources.find? a = some r) (hne : r.ownerPath ≠ []) :
    r.ownerPath ∈ ownerServices owner := by
  refine Known.induct h (P := fun owner => a ∈ ownerServices owner → r.ownerPath ∈ ownerServices owner) ?_ ?_ hk ha
  · exact fun ha => absurd ha (by simp [ownerServices, splitPath, serviceAncestors])
  · intro q _ _ hq ih ha
    rw [ownerServices_resourcePath h hq] at ha ⊢
    rcases List.mem_append.1 ha with ha | ha
    · exact List.mem_append_left _ (ih ha)
    · have hsame := (h.path a r hr).2
      rw [List.mem_singleton.1 ha] at hsame
      have howner := (resourcePath_inj hsame).1
      exact List.mem_append_left _ (howner ▸ mem_ownerServices_self h hq (howner ▸ hne))

/-- All segments of a recorded path are canonical. -/
theorem canonicalPath_of_record (h : InventoryInv inventory) {path : Str} {r : ResourceRecord}
    (hr : inventory.resources.find? path = some r) :
    path ≠ [] ∧ ∀ segment ∈ splitPath path, ∃ name, escapeNodeIdSegment name = segment := by
  have hcategory : ∀ kind, ∃ name, escapeNodeIdSegment name = resourceCategory kind := fun kind =>
    ⟨_, escape_resourceCategory kind⟩
  have howner : ∀ segment ∈ segments r.ownerPath, ∃ name, escapeNodeIdSegment name = segment := by
    refine Known.induct h (P := fun owner => ∀ segment ∈ segments owner, ∃ name, escapeNodeIdSegment name = segment)
      ?_ ?_ (h.owner path r hr)
    · exact fun segment hsegment => absurd hsegment (by simp [segments])
    · intro q _ _ _ ih segment hsegment
      rw [segments_resourcePath] at hsegment
      rcases List.mem_append.1 hsegment with hsegment | hsegment
      · exact ih segment hsegment
      · simp only [List.mem_cons, List.not_mem_nil, or_false] at hsegment
        rcases hsegment with rfl | rfl
        · exact hcategory _
        · exact ⟨_, rfl⟩
  rw [(h.path path r hr).2]
  refine ⟨resourcePath_ne_nil _ _ _, fun segment hsegment => ?_⟩
  rw [splitPath_resourcePath] at hsegment
  rcases List.mem_append.1 hsegment with hsegment | hsegment
  · exact howner segment hsegment
  · simp only [List.mem_cons, List.not_mem_nil, or_false] at hsegment
    rcases hsegment with rfl | rfl
    · exact hcategory _
    · exact ⟨_, rfl⟩

end Owners

end RttOpcua.Model
