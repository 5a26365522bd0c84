import RttOpcua.Model.Lemmas.Creation
import Mathlib.Data.List.Dedup
import Mathlib.Data.List.Induction

/-!
# Rolling back a ledger

Once the references from created nodes to foreign ones are gone, a created node is a hierarchical parent of
later created nodes only. So the reverse of the ledger deletes one childless node after another, and the
cascade of `deleteNode` never takes a second node along.
-/

namespace RttOpcua.Model

open AddressSpace

variable {native : Native} {s t : AddressSpace}

/-! ## Services as documented -/

open Classical in
/-- `s` without the nodes that go with `id`. -/
noncomputable def AddressSpace.cascadeDelete (s : AddressSpace) (id : NodeId) : AddressSpace where
  nodes x := if s.Cascade id x then none else s.nodes x
  references := s.references.filter fun r =>
    ¬ s.Cascade id r.source ∧ (r.isLocal = true → ¬ s.Cascade id r.target)

/-- The services of a server that keeps to the assumptions. -/
noncomputable def documentedNative : Native where
  browse s id f :=
    if s.exists? id then some (s.references.dedup.filter fun r => r.source = id && f.accepts s r) else none
  deleteReference s r :=
    if r ∈ s.references then ({ s with references := s.references.filter (· ≠ r) }, true) else (s, false)
  deleteNode s id := if s.exists? id then (s.cascadeDelete id, .good) else (s, .nodeIdUnknown)

theorem documentedNative_documented : documentedNative.Documented where
  browse s id f hid := by
    refine ⟨s.references.dedup.filter fun r => r.source = id && f.accepts s r, ?_, ?_, fun r => ?_⟩
    · simp [documentedNative, hid]
    · exact (List.nodup_dedup _).filter _
    · simp
  deleteReference s r hr _ := by simp [documentedNative, hr]
  deleteNode_unknown s id hid := by simp [documentedNative, hid]
  deleteNode s id hid := by
    refine ⟨s.cascadeDelete id, by simp [documentedNative, hid], ?_, ?_, ?_, List.filter_sublist⟩
    · intro x hx
      simp [cascadeDelete, hx]
    · intro x hx
      simp [cascadeDelete, hx]
    · intro r
      simp [cascadeDelete]

/-! ## Childless nodes -/

theorem cascade_of_childless {id x : NodeId} (h : ∀ y, ¬ s.Child id y) (hx : s.Cascade id x) : x = id := by
  induction hx with
  | root => rfl
  | @child x y hchild _ ih =>
      obtain rfl := ih x hchild
      exact absurd hchild (h y)

/-- `t` is `s` without the nodes of `gone` and without their references. -/
structure Without (s : AddressSpace) (gone : List NodeId) (t : AddressSpace) : Prop where
  removed : ∀ id ∈ gone, t.nodes id = none
  kept : ∀ id, id ∉ gone → t.nodes id = s.nodes id
  references : ∀ r, r ∈ t.references ↔
    r ∈ s.references ∧ r.source ∉ gone ∧ (r.isLocal = true → r.target ∉ gone)

theorem Without.refl (s : AddressSpace) : Without s [] s := ⟨by simp, by simp, by simp⟩

theorem Without.deleteNode (hdoc : native.Documented) {gone : List NodeId} (h : Without s gone t) {id : NodeId}
    (hid : t.exists? id = true) (hchild : ∀ y, ¬ t.Child id y) :
    ∃ t', native.deleteNode t id = (t', .good) ∧ Without s (id :: gone) t' := by
  obtain ⟨t', hdel, hgone, hkept, hrefs, -⟩ := hdoc.deleteNode t id hid
  have hcascade : ∀ x, t.Cascade id x ↔ x = id :=
    fun x => ⟨cascade_of_childless hchild, by rintro rfl; exact .root⟩
  simp only [hcascade] at hgone hkept hrefs
  refine ⟨t', hdel, ⟨fun x hx => ?_, fun x hx => ?_, fun r => ?_⟩⟩
  · by_cases heq : x = id
    · exact hgone x heq
    · rw [hkept x heq]
      exact h.removed x (by simpa [heq] using hx)
  · simp only [List.mem_cons, not_or] at hx
    rw [hkept x hx.1, h.kept x hx.2]
  · rw [hrefs, h.references]
    simp only [List.mem_cons, not_or]
    constructor
    · rintro ⟨⟨hr, hs, ht⟩, hs', ht'⟩
      exact ⟨hr, ⟨hs', hs⟩, fun hl => ⟨ht' hl, ht hl⟩⟩
    · rintro ⟨hr, ⟨hs', hs⟩, ht⟩
      exact ⟨⟨hr, hs, fun hl => (ht hl).2⟩, hs', fun hl => (ht hl).1⟩

theorem collectDescendantNodeIds_childless (hdoc : native.Documented) (fuel : Nat) {id : NodeId}
    (hid : s.exists? id = true) (hchild : ∀ y, ¬ s.Child id y) :
    collectDescendantNodeIds native (fuel + 1) s id = some [] := by
  obtain ⟨refs, hbrowse, -, hmem⟩ := hdoc.browse s id .hierarchical hid
  have hnone : refs.filter Reference.isLocal = [] := by
    refine List.filter_eq_nil_iff.2 fun r hr hlocal => ?_
    obtain ⟨hin, hsource, haccepts⟩ := (hmem r).1 hr
    exact hchild r.target ⟨r, hin, hsource, rfl, hlocal, haccepts⟩
  simp [collectDescendantNodeIds, collectLoop, hbrowse, hnone]

/-! ## Detaching foreign nodes -/

/-- The references that `detachForeignHierarchicalReferences` removes. -/
def isForeignReference (createdIds : List NodeId) (r : Reference) : Prop :=
  r.source ∈ createdIds ∧ r.isLocal = true ∧ r.type.isHierarchical = true ∧ r.target ∉ createdIds

theorem foreignReferences_spec (hdoc : native.Documented) (createdIds : List NodeId) (ids : List NodeId)
    (hids : ids.Nodup) (hexists : ∀ id ∈ ids, s.exists? id = true) :
    ∃ refs, foreignReferences native s createdIds ids = some refs ∧ refs.Nodup ∧
      ∀ r, r ∈ refs ↔ r ∈ s.references ∧ r.source ∈ ids ∧ r.isLocal = true ∧ r.type.isHierarchical = true ∧
        r.target ∉ createdIds := by
  induction ids with
  | nil => exact ⟨[], rfl, List.nodup_nil, by simp⟩
  | cons id ids ih =>
      obtain ⟨hnot, hnodup⟩ := List.nodup_cons.1 hids
      obtain ⟨more, hmore, hmoreNodup, hmoreMem⟩ := ih hnodup fun x hx => hexists x (List.mem_cons_of_mem _ hx)
      obtain ⟨refs, hbrowse, hrefsNodup, hmem⟩ := hdoc.browse s id .hierarchical (hexists id (by simp))
      refine ⟨_, by rw [foreignReferences, hbrowse, hmore], ?_, fun r => ?_⟩
      · refine List.nodup_append.2 ⟨hrefsNodup.filter _, hmoreNodup, ?_⟩
        rintro a ha b hb rfl
        have hsource := ((hmem a).1 (List.mem_of_mem_filter ha)).2.1
        exact hnot (hsource ▸ ((hmoreMem a).1 hb).2.1)
      · simp only [List.mem_append, List.mem_filter, hmem, hmoreMem, List.mem_cons, Bool.and_eq_true,
          decide_eq_true_eq, BrowseFilter.accepts]
        tauto

theorem deleteReferences_spec (hdoc : native.Documented) (refs : List Reference) :
    ∀ s : AddressSpace, refs.Nodup → (∀ r ∈ refs, r ∈ s.references ∧ s.exists? r.source = true) →
      ∃ t, deleteReferences native refs s = (t, true) ∧ t.nodes = s.nodes ∧
        ∀ r, r ∈ t.references ↔ r ∈ s.references ∧ r ∉ refs := by
  induction refs with
  | nil => exact fun s _ _ => ⟨s, rfl, rfl, by simp⟩
  | cons r refs ih =>
      intro s hnodup hrefs
      obtain ⟨hnot, hnodup⟩ := List.nodup_cons.1 hnodup
      obtain ⟨hin, hsource⟩ := hrefs r (by simp)
      have hdel := hdoc.deleteReference s r hin hsource
      obtain ⟨t, ht, hnodes, hmem⟩ := ih { s with references := s.references.filter (· ≠ r) } hnodup (by
        intro q hq
        have hne : q ≠ r := by
          rintro rfl
          exact hnot hq
        obtain ⟨hqin, hqsource⟩ := hrefs q (List.mem_cons_of_mem _ hq)
        exact ⟨by simp [hqin, hne], hqsource⟩)
      refine ⟨t, by simp only [deleteReferences, hdel, ht], hnodes, fun q => ?_⟩
      simp only [hmem, List.mem_filter, decide_eq_true_eq, List.mem_cons, not_or]
      tauto

theorem detachForeign_spec (hdoc : native.Documented) (createdIds : List NodeId) (hnodup : createdIds.Nodup)
    (hexists : ∀ id ∈ createdIds, s.exists? id = true) :
    ∃ t, detachForeignHierarchicalReferences native createdIds s = (t, true) ∧ t.nodes = s.nodes ∧
      ∀ r, r ∈ t.references ↔ r ∈ s.references ∧ ¬ isForeignReference createdIds r := by
  obtain ⟨refs, hrefs, hrefsNodup, hmem⟩ := foreignReferences_spec hdoc createdIds createdIds hnodup hexists
  obtain ⟨t, ht, hnodes, htmem⟩ := deleteReferences_spec hdoc refs s hrefsNodup fun r hr =>
    ⟨((hmem r).1 hr).1, hexists _ ((hmem r).1 hr).2.1⟩
  refine ⟨t, by simp only [detachForeignHierarchicalReferences, hrefs, ht], hnodes, fun r => ?_⟩
  rw [htmem, hmem, isForeignReference]
  tauto

/-! ## The loop over the ledger -/

theorem rollbackNode_childless (hdoc : native.Documented) (fuel : Nat) (createdIds gone : List NodeId)
    (h : Without s gone t) {created : CreatedNode} (hid : t.exists? created.id = true)
    (hchild : ∀ y, ¬ t.Child created.id y) :
    ∃ t', rollbackNode native (fuel + 1) createdIds { space := t } created = { space := t' } ∧
      Without s (created.id :: gone) t' := by
  obtain ⟨t', hdel, hwithout⟩ := h.deleteNode hdoc hid hchild
  have hdescendants := collectDescendantNodeIds_childless hdoc fuel hid hchild
  refine ⟨t', ?_, hwithout⟩
  cases hroot : created.recursiveRoot <;> simp [rollbackNode, hroot, hdescendants, hdel]

/-- Induction from the end of the ledger: `l` is still to be deleted, `gone` is. -/
theorem rollback_run (hdoc : native.Documented) (fuel : Nat) (createdIds : List NodeId)
    (hnodup : createdIds.Nodup) (hexists : ∀ id ∈ createdIds, s.exists? id = true)
    (hinside : ∀ x ∈ createdIds, ∀ y, s.Child x y → y ∈ createdIds)
    (horder : createdIds.Pairwise fun a b => ¬ s.Child b a) (hirrefl : ∀ a ∈ createdIds, ¬ s.Child a a)
    (l : List CreatedNode) :
    ∀ gone t, l.map CreatedNode.id ++ gone = createdIds → Without s gone t →
      ∃ t', l.reverse.foldl (rollbackNode native (fuel + 1) createdIds) { space := t } = { space := t' } ∧
        Without s createdIds t' := by
  induction l using List.reverseRecOn with
  | nil =>
      intro gone t hl h
      obtain rfl : gone = createdIds := by simpa using hl
      exact ⟨t, rfl, h⟩
  | append_singleton l c ih =>
      intro gone t hl h
      simp only [List.map_append, List.map_cons, List.map_nil, List.append_assoc, List.singleton_append] at hl
      have hcIn : c.id ∈ createdIds := by rw [← hl]; simp
      have hparts := hl ▸ hnodup
      have hcGone : c.id ∉ gone := (List.nodup_cons.1 (List.nodup_append.1 hparts).2.1).1
      have hthere : t.exists? c.id = true := exists_of_nodes (h.kept _ hcGone) (hexists _ hcIn)
      have hchildless : ∀ y, ¬ t.Child c.id y := by
        rintro y ⟨r, hr, hsource, rfl, hlocal, hhier⟩
        obtain ⟨hr, -, htarget⟩ := (h.references r).1 hr
        have hchild : s.Child c.id r.target := ⟨r, hr, hsource, rfl, hlocal, hhier⟩
        have hin := hinside _ hcIn _ hchild
        rw [← hl] at hin horder
        rcases List.mem_append.1 hin with hin | hin
        · -- an earlier node of the ledger is no child of a later one
          exact (List.pairwise_append.1 horder).2.2 _ hin _ (by simp) hchild
        · rcases List.mem_cons.1 hin with heq | hin
          · exact hirrefl _ hcIn (by rwa [heq] at hchild)
          · exact htarget hlocal hin
      obtain ⟨t', hstep, h'⟩ := rollbackNode_childless hdoc fuel createdIds gone h hthere hchildless
      obtain ⟨t'', hrun, h''⟩ := ih (c.id :: gone) t' hl h'
      exact ⟨t'', by rw [List.reverse_append, List.reverse_singleton, List.singleton_append, List.foldl_cons,
        hstep, hrun], h''⟩

/-- The rollback of an owned transaction. -/
theorem rollbackCreatedNodes_owned (hdoc : native.Documented) (fuel : Nat) {prior : AddressSpace}
    {tx : Transaction} (h : tx.Owned prior) :
    ∃ t, rollbackCreatedNodes native (fuel + 1) tx.ledger tx.space = (t, true) ∧
      Without tx.space tx.ids t := by
  have hdedup : (tx.ledger.map CreatedNode.id).dedup = tx.ids := List.dedup_eq_self.2 h.nodup
  obtain ⟨s, hdetach, hnodes, hrefs⟩ := detachForeign_spec hdoc tx.ids h.nodup h.present
  have hchild : ∀ x y, s.Child x y → tx.space.Child x y := by
    rintro x y ⟨r, hr, hrest⟩
    exact ⟨r, ((hrefs r).1 hr).1, hrest⟩
  have hinside : ∀ x ∈ tx.ids, ∀ y, s.Child x y → y ∈ tx.ids := by
    rintro x hx y ⟨r, hr, rfl, rfl, hlocal, hhier⟩
    by_contra hy
    exact ((hrefs r).1 hr).2 ⟨hx, hlocal, hhier, hy⟩
  obtain ⟨t, hrun, hwithout⟩ := rollback_run hdoc fuel tx.ids h.nodup
    (fun id hid => exists_of_nodes (congrFun hnodes id) (h.present id hid)) hinside
    (h.order.imp fun hab hba => hab (hchild _ _ hba)) (fun a ha haa => h.irrefl a ha (hchild _ _ haa))
    tx.ledger [] s (List.append_nil _) (Without.refl s)
  refine ⟨t, by simp only [rollbackCreatedNodes, hdedup, hdetach, hrun], hwithout.removed, ?_, fun r => ?_⟩
  · intro id hid
    rw [hwithout.kept id hid, hnodes]
  · rw [hwithout.references, hrefs, isForeignReference]
    tauto

end RttOpcua.Model
