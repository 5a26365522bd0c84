import RttOpcua.Model.Lemmas.Inventory
import RttOpcua.Model.Lemmas.Selector

/-!
# Discovery

`discoverService` offers the records of the services on its way in a fixed order, and each record goes into the inventory
unless its path is there. What is offered is described by the walks of the service graph.
-/

namespace RttOpcua.Model

open RttOpcua.Lib

/-! ## Walks -/

/-- The names of the resources of one kind. The provider `this` is the service itself. -/
def resourceNames (s : Service) : ResourceKind → List Str
  | .operation => s.operationNames
  | .property => s.propertyNames
  | .attribute => s.attributeNames
  | .port => s.portNames
  | .service => s.providerNames.filter (· ≠ lit "this")

/-- A path of the service graph from the root that repeats no service: the services passed, the service reached, its
path and its path in diagnostics. -/
inductive Walk (c : Component) : List Nat → Nat → Str → Str → Prop
  | root {service} : c.root = some service → Walk c [] service [] []
  | child {above service owner legacy name child} : Walk c above service owner legacy →
      name ∈ resourceNames (c.service service) .service → (c.service service).getService name = some child →
      child ∉ service :: above →
      Walk c (service :: above) child (resourcePath owner .service name) (appendDiagnosticSegment legacy name)

theorem Walk.nodup {c : Component} {above service owner legacy} (h : Walk c above service owner legacy) :
    (service :: above).Nodup := by
  induction h with
  | root => exact List.nodup_singleton _
  | child _ _ _ hnew ih => exact List.nodup_cons.2 ⟨hnew, ih⟩

/-- The child is missing, closes a cycle or lies too deep. -/
def Blocked (above : List Nat) (service : Nat) (child : Option Nat) : Prop :=
  child = none ∨ (∃ id, child = some id ∧ id ∈ service :: above) ∨ kMaximumServiceDepth < above.length + 1

/-- A walk goes on to a child that is not blocked, and only to such. -/
theorem Walk.goesOn_iff {c : Component} {above service owner legacy name} (h : Walk c above service owner legacy)
    (hname : name ∈ resourceNames (c.service service) .service) :
    ¬ Blocked above service ((c.service service).getService name) ↔ ∃ child,
      (c.service service).getService name = some child ∧
      Walk c (service :: above) child (resourcePath owner .service name) (appendDiagnosticSegment legacy name) ∧
      (service :: above).length ≤ kMaximumServiceDepth := by
  constructor
  · intro hopen
    simp only [Blocked, not_or] at hopen
    obtain ⟨hsome, hnew, hdepth⟩ := hopen
    obtain ⟨child, hchild⟩ := Option.ne_none_iff_exists'.1 hsome
    exact ⟨child, hchild, .child h hname hchild fun hmem => hnew ⟨child, hchild, hmem⟩, Nat.not_lt.1 hdepth⟩
  · rintro ⟨child, hchild, hstep, hdepth⟩ (hnone | ⟨id, hid, hmem⟩ | hdeep)
    · rw [hnone] at hchild
      cases hchild
    · obtain rfl : child = id := Option.some.inj (hchild.symm.trans hid)
      exact (List.nodup_cons.1 hstep.nodup).1 hmem
    · exact Nat.not_lt.2 hdepth hdeep

/-! ## Offers -/

def childError (remaining : Nat) (above : List Nat) (service : Nat) : Option Nat → Str
  | none => lit "RTT service is unavailable during inventory discovery"
  | some child =>
      if child ∈ service :: above then lit "forms a cycle in the RTT service graph"
      else if remaining = 0 then lit "exceeds the maximum supported service depth of 32"
      else []

def childRecord (remaining : Nat) (above : List Nat) (service : Nat) (s : Service) (owner legacy name : Str) :
    ResourceRecord :=
  { kind := .service, path := resourcePath owner .service name, ownerPath := owner
    legacyPath := appendDiagnosticSegment legacy name, name, owner := service, service := s.getService name
    discoveryError := childError remaining above service (s.getService name) }

/-- What a service offers itself. -/
def ownRecords (remaining : Nat) (above : List Nat) (service : Nat) (s : Service) (owner legacy : Str) :
    List ResourceRecord :=
  memberRecords service s owner legacy ++
    (resourceNames s .service).map (childRecord remaining above service s owner legacy)

/-- What is offered for a child: its record, and the offers of `descend` where nothing is wrong. -/
def childOffers (descend : Option (Nat → Str → Str → List ResourceRecord)) (remaining : Nat) (above : List Nat)
    (service : Nat) (s : Service) (owner legacy name : Str) : List ResourceRecord :=
  childRecord remaining above service s owner legacy name ::
    match s.getService name, descend with
    | some child, some descend =>
        if child ∈ service :: above then []
        else descend child (resourcePath owner .service name) (appendDiagnosticSegment legacy name)
    | _, _ => []

/-- The records in the order in which discovery comes to them. -/
def offers (services : Nat → Service) : Nat → List Nat → Nat → Str → Str → List ResourceRecord
  | remaining, above, service, owner, legacy =>
      let descend : Option (Nat → Str → Str → List ResourceRecord) :=
        match remaining with
        | 0 => none
        | remaining + 1 => some (offers services remaining (service :: above))
      memberRecords service (services service) owner legacy ++
        (resourceNames (services service) .service).flatMap
          (childOffers descend remaining above service (services service) owner legacy)

/-! ## Discovery is a run over the offers -/

section Run

variable {component : Str} {services : Nat → Service} {above : List Nat} {service : Nat} {s : Service}
  {owner legacy : Str}

/-- `above` are the services of the ancestry. -/
def Ancestry (d : Discovery) (above : List Nat) : Prop := ∀ x, d.ancestry.contains x = true ↔ x ∈ above

/-- The recursive call goes over its offers and leaves the ancestry. -/
def Offers (descend : Nat → Str → Str → Discovery → Discovery) (offered : Nat → Str → Str → List ResourceRecord)
    (component : Str) (above : List Nat) : Prop :=
  ∀ service owner legacy d, Ancestry d above → service ∉ above →
    descend service owner legacy d =
      ⟨(offered service owner legacy).foldl (addInventoryRecord component) d.inventory, d.ancestry⟩

variable {descend : Option (Nat → Str → Str → Discovery → Discovery)}
  {offered : Option (Nat → Str → Str → List ResourceRecord)} {remaining : Nat}

theorem discoverChild_eq (hdepth : descend = none ↔ remaining = 0) (hsame : offered.isSome = descend.isSome)
    (hdescend : ∀ f g, descend = some f → offered = some g → Offers f g component (service :: above)) {d : Discovery}
    (hd : Ancestry d (service :: above)) {name : Str} (hname : name ≠ lit "this") :
    discoverChild component descend service s owner legacy d name =
      ⟨(childOffers offered remaining above service s owner legacy name).foldl (addInventoryRecord component)
        d.inventory, d.ancestry⟩ := by
  unfold discoverChild childOffers
  rw [if_neg hname]
  cases hchild : s.getService name with
  | none => simp only [childRecord, childError, hchild, List.foldl_cons, List.foldl_nil]
  | some child =>
      by_cases hcycle : child ∈ service :: above
      · simp only [(hd child).2 hcycle, if_true]
        cases offered <;> simp only [childRecord, childError, hchild, if_pos hcycle, List.foldl_cons, List.foldl_nil]
      · have hnot : d.ancestry.contains child = false := by
          rw [← Bool.not_eq_true, hd]
          exact hcycle
        simp only [hnot, Bool.false_eq_true, if_false]
        cases hf : descend with
        | none =>
            have hnone : offered = none := by simpa [hf] using hsame
            simp only [hnone, childRecord, childError, hchild, if_neg hcycle, if_pos (hdepth.1 hf), List.foldl_cons,
              List.foldl_nil]
        | some f =>
            obtain ⟨g, hg⟩ : ∃ g, offered = some g := Option.isSome_iff_exists.1 (by rw [hsame, hf]; rfl)
            have hpos : remaining ≠ 0 := fun h => by simp [hdepth.2 h] at hf
            simp only [hg, childRecord, childError, hchild, if_neg hcycle, if_neg hpos, List.foldl_cons]
            exact hdescend f g hf hg child _ _ ⟨_, d.ancestry⟩ hd hcycle

theorem foldl_discoverChild_eq (hdepth : descend = none ↔ remaining = 0) (hsame : offered.isSome = descend.isSome)
    (hdescend : ∀ f g, descend = some f → offered = some g → Offers f g component (service :: above))
    (names : List Str) : ∀ d : Discovery, Ancestry d (service :: above) →
    names.foldl (discoverChild component descend service s owner legacy) d =
      ⟨((names.filter (· ≠ lit "this")).flatMap
        (childOffers offered remaining above service s owner legacy)).foldl (addInventoryRecord component)
        d.inventory, d.ancestry⟩ := by
  induction names with
  | nil => exact fun d _ => rfl
  | cons name rest ih =>
      intro d hd
      rw [List.foldl_cons]
      by_cases hthis : name = lit "this"
      · have hskip : discoverChild component descend service s owner legacy d name = d := by
          unfold discoverChild
          rw [if_pos hthis]
        rw [hskip, ih d hd, List.filter_cons_of_neg (by simpa using hthis)]
      · rw [discoverChild_eq hdepth hsame hdescend hd hthis, List.filter_cons_of_pos (by simpa using hthis),
          List.flatMap_cons, List.foldl_append]
        exact ih ⟨_, d.ancestry⟩ hd

/-- The body of `discoverService`, for any recursive call that goes over its offers. -/
theorem discoverService_body (hdepth : descend = none ↔ remaining = 0) (hsame : offered.isSome = descend.isSome)
    (hdescend : ∀ f g, descend = some f → offered = some g → Offers f g component (service :: above)) {d : Discovery}
    (hd : Ancestry d above) (hnew : service ∉ above) :
    let final := s.providerNames.foldl (discoverChild component descend service s owner legacy)
      ⟨(memberRecords service s owner legacy).foldl (addInventoryRecord component) d.inventory,
        OrdSet.insert d.ancestry service⟩
    ({ final with ancestry := final.ancestry.erase service } : Discovery) =
      ⟨(memberRecords service s owner legacy ++ (resourceNames s .service).flatMap
        (childOffers offered remaining above service s owner legacy)).foldl (addInventoryRecord component)
        d.inventory, d.ancestry⟩ := by
  intro final
  have henter : Ancestry ⟨(memberRecords service s owner legacy).foldl (addInventoryRecord component) d.inventory,
      OrdSet.insert d.ancestry service⟩ (service :: above) := by
    intro x
    simp [OrdSet.contains_insert, hd x]
  have hleave : (OrdSet.insert d.ancestry service).erase service = d.ancestry := by
    refine OrdMap.ext_find fun x => ?_
    have hfree : d.ancestry.find? service = none := by
      rw [← Option.not_isSome_iff_eq_none]
      exact fun h => hnew ((hd service).1 h)
    rw [OrdMap.find?_erase, OrdSet.insert, OrdMap.find?_insertOrAssign]
    split
    · rename_i h
      rw [h, hfree]
    · rfl
  have hfinal : final = _ := foldl_discoverChild_eq hdepth hsame hdescend s.providerNames _ henter
  rw [hfinal, hleave, List.foldl_append]
  rfl

/-- A service outside of the ancestry adds its offers, and the ancestry is what it was. -/
theorem discoverService_eq (component : Str) (services : Nat → Service) (remaining : Nat) : ∀ above,
    Offers (discoverService component services remaining) (offers services remaining above) component above := by
  induction remaining with
  | zero =>
      intro above service owner legacy d hd hnew
      unfold discoverService offers
      exact discoverService_body (by simp) rfl (fun _ _ h => by cases h) hd hnew
  | succ remaining ih =>
      intro above service owner legacy d hd hnew
      unfold discoverService offers
      refine discoverService_body (by simp) rfl ?_ hd hnew
      rintro f g hf hg
      obtain rfl := Option.some.inj hf
      obtain rfl := Option.some.inj hg
      exact ih (service :: above)

end Run

/-! ## What is offered -/

section Membership

variable {c : Component} {above : List Nat} {service : Nat} {owner legacy : Str} {r : ResourceRecord}

/-- The steps left after a walk. -/
def stepsLeft (above : List Nat) : Nat := kMaximumServiceDepth - above.length

/-- The records that a walk's end offers itself. -/
def walkRecords (c : Component) (above : List Nat) (service : Nat) (owner legacy : Str) : List ResourceRecord :=
  ownRecords (stepsLeft above) above service (c.service service) owner legacy

/-- All the records that are offered. -/
def componentOffers (c : Component) : List ResourceRecord :=
  c.root.elim [] fun root => offers c.service kMaximumServiceDepth [] root [] []

theorem map_sublist_childOffers {descend : Option (Nat → Str → Str → List ResourceRecord)} {remaining : Nat}
    {s : Service} (names : List Str) :
    (names.map (childRecord remaining above service s owner legacy)).Sublist
      (names.flatMap (childOffers descend remaining above service s owner legacy)) := by
  induction names with
  | nil => exact .slnil
  | cons name rest ih => exact List.Sublist.cons_cons _ (ih.trans (List.sublist_append_right _ _))

theorem ownRecords_sublist (services : Nat → Service) (remaining : Nat) :
    (ownRecords remaining above service (services service) owner legacy).Sublist
      (offers services remaining above service owner legacy) := by
  unfold offers ownRecords
  exact (List.Sublist.refl _).append (map_sublist_childOffers _)

/-- The records of one kind, in the order of the names. -/
theorem kind_sublist (remaining : Nat) (above : List Nat) (service : Nat) (s : Service) (owner legacy : Str)
    (kind : ResourceKind) : ∃ record : Str → ResourceRecord,
    (∀ name, (record name).path = resourcePath owner kind name) ∧
    ((resourceNames s kind).map record).Sublist (ownRecords remaining above service s owner legacy) := by
  have hmember : (memberRecords service s owner legacy).Sublist (ownRecords remaining above service s owner legacy) :=
    List.sublist_append_left _ _
  match kind with
  | .operation =>
      refine ⟨fun name => memberRecord .operation service owner legacy name (s.getOperation name).isSome,
        fun _ => rfl, .trans ?_ hmember⟩
      exact .trans (List.sublist_append_left _ _) (.trans (List.sublist_append_left _ _) (List.sublist_append_left _ _))
  | .property =>
      refine ⟨fun name => memberRecord .property service owner legacy name (s.getProperty name).isSome,
        fun _ => rfl, .trans ?_ hmember⟩
      exact .trans (List.sublist_append_right _ _) (.trans (List.sublist_append_left _ _) (List.sublist_append_left _ _))
  | .attribute =>
      refine ⟨fun name => memberRecord .attribute service owner legacy name (s.getValue name).isSome,
        fun _ => rfl, .trans ?_ hmember⟩
      exact .trans (List.sublist_append_right _ _) (List.sublist_append_left _ _)
  | .port =>
      refine ⟨fun name => memberRecord .port service owner legacy name (s.getPort name).isSome,
        fun _ => rfl, .trans ?_ hmember⟩
      exact List.sublist_append_right _ _
  | .service => exact ⟨childRecord remaining above service s owner legacy, fun _ => rfl, List.sublist_append_right _ _⟩

theorem mem_ownRecords {remaining : Nat} {s : Service} (h : r ∈ ownRecords remaining above service s owner legacy) :
    r.owner = service ∧ r.ownerPath = owner ∧ r.path = resourcePath owner r.kind r.name ∧
      r.name ∈ resourceNames s r.kind ∧
      (r.kind = .service → r.service = s.getService r.name ∧
        r.discoveryError = childError remaining above service r.service) := by
  simp only [ownRecords, memberRecords, List.mem_append, List.mem_map] at h
  rcases h with (((⟨name, hname, rfl⟩ | ⟨name, hname, rfl⟩) | ⟨name, hname, rfl⟩) | ⟨name, hname, rfl⟩) |
    ⟨name, hname, rfl⟩
  case inr => exact ⟨rfl, rfl, rfl, hname, fun _ => ⟨rfl, rfl⟩⟩
  all_goals exact ⟨rfl, rfl, rfl, hname, fun hkind => by cases hkind⟩

theorem childError_ne_nil (child : Option Nat) :
    childError (stepsLeft above) above service child ≠ [] ↔ Blocked above service child := by
  unfold childError Blocked
  cases child with
  | none => simp [show lit "RTT service is unavailable during inventory discovery" ≠ [] by decide]
  | some id =>
      simp only
      split
      · rename_i hcycle
        simp [show lit "forms a cycle in the RTT service graph" ≠ [] by decide, List.mem_cons.1 hcycle]
      · rename_i hnew
        have hdepth : stepsLeft above = 0 ↔ kMaximumServiceDepth < above.length + 1 := by
          rw [stepsLeft]
          omega
        split
        · rename_i hzero
          simp [show lit "exceeds the maximum supported service depth of 32" ≠ [] by decide, hdepth.1 hzero]
        · rename_i hpos
          have hnew' := fun h => hnew (List.mem_cons.2 h)
          simpa [← hdepth, hpos] using not_or.1 hnew'

/-- The offers of a walk's end are among all the offers, in their order. -/
theorem Walk.sublist (h : Walk c above service owner legacy) (hlength : above.length ≤ kMaximumServiceDepth) :
    (offers c.service (stepsLeft above) above service owner legacy).Sublist (componentOffers c) := by
  induction h with
  | root hroot => rw [componentOffers, hroot]; exact .refl _
  | @child above service owner legacy name child _ hname hchild hnew ih =>
      refine .trans ?_ (ih (by simp only [List.length_cons] at hlength; omega))
      have hleft : stepsLeft above = stepsLeft (service :: above) + 1 := by
        simp only [stepsLeft, List.length_cons] at hlength ⊢
        omega
      have hmember := List.sublist_flatten_of_mem (List.mem_map_of_mem (f := childOffers
        (some (offers c.service (stepsLeft (service :: above)) (service :: above))) (stepsLeft above) above service
        (c.service service) owner legacy) hname)
      refine .trans ?_ (.trans hmember ?_)
      · unfold childOffers
        rw [hchild]
        simp only [if_neg hnew]
        exact List.sublist_cons_self _ _
      · rw [hleft]
        conv_rhs => unfold offers
        exact List.sublist_append_right _ _

/-- What is offered is offered at the end of a walk. -/
theorem exists_walk (remaining : Nat) : ∀ {above : List Nat} {service : Nat} {owner legacy : Str},
    Walk c above service owner legacy → above.length + remaining = kMaximumServiceDepth →
    r ∈ offers c.service remaining above service owner legacy →
    ∃ above service owner legacy, Walk c above service owner legacy ∧ above.length ≤ kMaximumServiceDepth ∧
      r ∈ walkRecords c above service owner legacy := by
  induction remaining with
  | zero =>
      intro above service owner legacy hwalk hlength hr
      refine ⟨above, service, owner, legacy, hwalk, by omega, ?_⟩
      have hzero : stepsLeft above = 0 := by rw [stepsLeft]; omega
      unfold offers at hr
      rw [walkRecords, hzero, ownRecords]
      rcases List.mem_append.1 hr with hr | hr
      · exact List.mem_append_left _ hr
      · obtain ⟨name, hname, hr⟩ := List.mem_flatMap.1 hr
        refine List.mem_append_right _ (List.mem_map.2 ⟨name, hname, ?_⟩)
        unfold childOffers at hr
        cases hchild : (c.service service).getService name with
        | none => simpa [hchild, eq_comm] using hr
        | some child => simpa [hchild, eq_comm] using hr
  | succ remaining ih =>
      intro above service owner legacy hwalk hlength hr
      have hown : r ∈ ownRecords (remaining + 1) above service (c.service service) owner legacy →
          ∃ above service owner legacy, Walk c above service owner legacy ∧ above.length ≤ kMaximumServiceDepth ∧
            r ∈ walkRecords c above service owner legacy := by
        refine fun hr => ⟨above, service, owner, legacy, hwalk, by omega, ?_⟩
        have hleft : stepsLeft above = remaining + 1 := by rw [stepsLeft]; omega
        rw [walkRecords, hleft]
        exact hr
      unfold offers at hr
      rcases List.mem_append.1 hr with hr | hr
      · exact hown (List.mem_append_left _ hr)
      · obtain ⟨name, hname, hr⟩ := List.mem_flatMap.1 hr
        rcases List.mem_cons.1 hr with rfl | hr
        · exact hown (List.mem_append_right _ (List.mem_map.2 ⟨name, hname, rfl⟩))
        · cases hchild : (c.service service).getService name with
          | none => simp [hchild] at hr
          | some child =>
              simp only [hchild] at hr
              split at hr
              · cases hr
              · rename_i hnew
                refine ih (.child hwalk hname hchild hnew) ?_ hr
                simp only [List.length_cons]
                omega

/-- What is offered: the records at the ends of the walks. -/
theorem mem_componentOffers : r ∈ componentOffers c ↔
    ∃ above service owner legacy, Walk c above service owner legacy ∧ above.length ≤ kMaximumServiceDepth ∧
      r ∈ walkRecords c above service owner legacy := by
  constructor
  · intro h
    cases hroot : c.root with
    | none => simp [componentOffers, hroot] at h
    | some root =>
        rw [componentOffers, hroot] at h
        exact exists_walk kMaximumServiceDepth (.root hroot) (by simp) h
  · rintro ⟨above, service, owner, legacy, hwalk, hlength, hr⟩
    exact ((ownRecords_sublist _ _).trans (hwalk.sublist hlength)).subset hr

end Membership

/-! ## What is recorded -/

section Recorded

variable {component : Str} {a b : ResourceRecord} {path : Str}

def duplicateDiagnostic (component path : Str) : PublicationDiagnostic where
  kind := .inventoryFailure
  component
  reason := lit "duplicate canonical resource path '" ++ path ++ lit "'"

/-- The first record with a path stays. -/
theorem find?_foldl_records (records : List ResourceRecord) : ∀ inventory : ComponentInventory,
    (records.foldl (addInventoryRecord component) inventory).resources.find? path =
      (inventory.resources.find? path).or (records.find? fun r => r.path = path) := by
  induction records with
  | nil => simp
  | cons r rest ih =>
      intro inventory
      have hadd : (addInventoryRecord component inventory r).resources = inventory.resources.emplace r.path r := by
        unfold addInventoryRecord OrdMap.emplace
        split <;> rfl
      rw [List.foldl_cons, ih, hadd, OrdMap.find?_emplace, List.find?_cons, OrdMap.contains]
      by_cases hpath : path = r.path
      · subst hpath
        cases inventory.resources.find? r.path <;> simp
      · simp [hpath, Ne.symm hpath]

theorem fatalDiagnostics_foldl (records : List ResourceRecord) : ∀ {inventory : ComponentInventory}
    {d : PublicationDiagnostic}, d ∈ inventory.fatalDiagnostics →
    d ∈ (records.foldl (addInventoryRecord component) inventory).fatalDiagnostics := by
  induction records with
  | nil => exact id
  | cons r rest ih =>
      intro inventory d hd
      refine ih ?_
      unfold addInventoryRecord
      split
      · exact List.mem_append_left _ hd
      · exact hd

theorem duplicate_of_contains (records : List ResourceRecord) : ∀ {inventory : ComponentInventory},
    inventory.resources.contains b.path = true → b ∈ records →
    duplicateDiagnostic component b.path ∈
      (records.foldl (addInventoryRecord component) inventory).fatalDiagnostics := by
  induction records with
  | nil => exact fun _ h => absurd h List.not_mem_nil
  | cons r rest ih =>
      intro inventory hcontains hb
      rw [List.foldl_cons]
      rcases List.mem_cons.1 hb with rfl | hb
      · refine fatalDiagnostics_foldl rest ?_
        unfold addInventoryRecord
        rw [if_pos hcontains]
        exact List.mem_append_right _ (List.mem_singleton_self _)
      · refine ih ?_ hb
        have hkept : (addInventoryRecord component inventory r).resources.find? b.path = _ :=
          find?_foldl_records [r] inventory
        rw [OrdMap.contains] at hcontains ⊢
        rw [hkept, Option.isSome_or, hcontains, Bool.true_or]

/-- Two records with one path leave a diagnostic. -/
theorem duplicate_of_sublist (records : List ResourceRecord) : ∀ {inventory : ComponentInventory},
    [a, b].Sublist records → a.path = b.path →
    duplicateDiagnostic component a.path ∈
      (records.foldl (addInventoryRecord component) inventory).fatalDiagnostics := by
  induction records with
  | nil => exact fun h => absurd h (by simp)
  | cons r rest ih =>
      intro inventory hsublist hpath
      rw [List.foldl_cons]
      cases hsublist with
      | cons _ hrest => exact ih hrest hpath
      | cons_cons _ hrest =>
          rw [hpath]
          refine duplicate_of_contains rest ?_ (List.singleton_sublist.1 hrest)
          have hadded : (addInventoryRecord component inventory a).resources.find? b.path = _ :=
            find?_foldl_records [a] inventory
          rw [OrdMap.contains, hadded]
          simp [hpath]

theorem nodup_of_fatalDiagnostics {records : List ResourceRecord} {inventory : ComponentInventory}
    (h : (records.foldl (addInventoryRecord component) inventory).fatalDiagnostics = []) :
    (records.map (·.path)).Nodup := by
  refine List.nodup_iff_sublist.2 fun path hpath => ?_
  obtain ⟨pair, hsublist, hpair⟩ := List.sublist_map_iff.1 hpath
  obtain ⟨x, y, rfl⟩ : ∃ x y, pair = [x, y] := List.length_eq_two.1 (by simpa using congrArg List.length hpair.symm)
  simp only [List.map_cons, List.map_nil, List.cons.injEq, and_true] at hpair
  obtain ⟨hx, hy⟩ := hpair
  have hdup : duplicateDiagnostic component x.path ∈
      (records.foldl (addInventoryRecord component) inventory).fatalDiagnostics :=
    duplicate_of_sublist records hsublist (hx.symm.trans hy)
  rw [h] at hdup
  cases hdup

end Recorded

/-! ## Components -/

section Components

variable (c : Component)

/-- The inventory before its diagnostics are sorted. -/
def offered : ComponentInventory := (componentOffers c).foldl (addInventoryRecord c.name) {}

theorem discovery_root {root : Nat} (hroot : c.root = some root) :
    discoverService c.name c.service kMaximumServiceDepth root [] [] {} = ⟨offered c, ∅⟩ := by
  have hempty : Ancestry {} [] := fun x => by simp [OrdMap.contains, OrdMap.find?_empty]
  rw [discoverService_eq c.name c.service kMaximumServiceDepth [] root [] [] {} hempty List.not_mem_nil, offered,
    componentOffers, hroot]
  rfl

theorem resources_discoverComponent : (discoverComponent c).resources = (offered c).resources := by
  unfold discoverComponent
  split
  · rename_i hroot
    rw [offered, componentOffers, hroot]
    rfl
  · rename_i root hroot
    rw [discovery_root c hroot]

theorem fatalDiagnostics_discoverComponent {d : PublicationDiagnostic} (h : d ∈ (offered c).fatalDiagnostics) :
    d ∈ (discoverComponent c).fatalDiagnostics := by
  unfold discoverComponent
  split
  · rename_i hroot
    rw [offered, componentOffers, hroot] at h
    cases h
  · rename_i root hroot
    rw [discovery_root c hroot]
    exact mem_sortUnique.2 h

/-- The record at a path is the first that was offered. -/
theorem find?_discoverComponent {path : Str} : (discoverComponent c).resources.find? path =
    (componentOffers c).find? fun r => r.path = path := by
  rw [resources_discoverComponent, offered, find?_foldl_records]
  rfl

variable {c}

/-- Without duplicates a path belongs to one walk. -/
theorem Walk.unique (hfatal : (offered c).fatalDiagnostics = []) {above : List Nat} {service : Nat} {owner legacy : Str}
    (h : Walk c above service owner legacy) : above.length ≤ kMaximumServiceDepth →
    ∀ {above' service' legacy'}, Walk c above' service' owner legacy' → above'.length ≤ kMaximumServiceDepth →
    above = above' ∧ service = service' := by
  have hnodup := nodup_of_fatalDiagnostics hfatal
  induction h with
  | root hroot =>
      intro _ above' service' legacy' h' _
      generalize howner : ([] : Str) = owner' at h'
      cases h' with
      | root hroot' => exact ⟨rfl, Option.some.inj (hroot.symm.trans hroot')⟩
      | child => exact absurd howner.symm (resourcePath_ne_nil _ _ _)
  | @child above service owner legacy name child hwalk hname hchild hnew ih =>
      intro hlength above' service' legacy' h' hlength'
      generalize howner : resourcePath owner .service name = owner' at h'
      cases h' with
      | root => exact absurd howner (resourcePath_ne_nil _ _ _)
      | @child above' service' owner' legacy' name' child' hwalk' hname' hchild' hnew' =>
          simp only [List.length_cons] at hlength hlength'
          obtain rfl := (resourcePath_inj howner).1
          obtain ⟨rfl, rfl⟩ := ih (by omega) hwalk' (by omega)
          -- the entries of the two children are offered by one service, with one path
          have hentry : ∀ {legacy name}, Walk c above service owner legacy →
              name ∈ resourceNames (c.service service) .service →
              childRecord (stepsLeft above) above service (c.service service) owner legacy name ∈ componentOffers c :=
            fun {legacy name} hwalk hname => mem_componentOffers.2 ⟨above, service, owner, legacy, hwalk, by omega,
              List.mem_append_right _ (List.mem_map.2 ⟨name, hname, rfl⟩)⟩
          have hsame := List.inj_on_of_nodup_map hnodup (hentry hwalk hname) (hentry hwalk' hname') howner
          obtain rfl := (congrArg ResourceRecord.name hsame : name = name')
          exact ⟨rfl, Option.some.inj (hchild.symm.trans hchild')⟩

/-- Then the path of an owner determines the service. -/
theorem owner_unique (hfatal : (offered c).fatalDiagnostics = []) {path path' : Str} {r r' : ResourceRecord}
    (hr : (discoverComponent c).resources.find? path = some r)
    (hr' : (discoverComponent c).resources.find? path' = some r') (howner : r.ownerPath = r'.ownerPath) :
    r.owner = r'.owner := by
  rw [find?_discoverComponent] at hr hr'
  obtain ⟨above, service, owner, legacy, hwalk, hlength, hmem⟩ := mem_componentOffers.1 (List.mem_of_find?_eq_some hr)
  obtain ⟨above', service', owner', legacy', hwalk', hlength', hmem'⟩ :=
    mem_componentOffers.1 (List.mem_of_find?_eq_some hr')
  obtain ⟨rfl, rfl, -⟩ := mem_ownRecords hmem
  obtain ⟨rfl, rfl, -⟩ := mem_ownRecords hmem'
  rw [← howner] at hwalk'
  exact (hwalk.unique hfatal hlength hwalk' hlength').2

end Components

end RttOpcua.Model
