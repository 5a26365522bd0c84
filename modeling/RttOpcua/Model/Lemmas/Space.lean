import RttOpcua.Model.Lemmas.Rollback
import RttOpcua.Model.Lemmas.Publish
import RttOpcua.Model.Lemmas.Snapshot

/-!
# The nodes of the model in the address space

What publications leave in the address space of their server, where several models publish, some publications fail and
other code adds nodes of its own. The identifiers of the model's nodes are their paths.
-/

namespace RttOpcua.Model

open RttOpcua.Lib AddressSpace

/-! ## Other code -/

/-- A client that browses a node of the model sees the target. -/
def Reference.Seen (r : Reference) : Prop :=
  (∃ q, r.source = nodeId q) ∧ r.type = .hasComponent ∧ r.isLocal = true

/-- Callbacks use no identifier of the model, and give its nodes no components. -/
structure Additions.Apart (a : Additions) : Prop where
  nodes : ∀ n ∈ a.nodes, ∀ q, nodeId q ≠ n.1
  references : ∀ r ∈ a.references, ¬ r.Seen

def rootPaths : List Str := rootNodes.map RootNode.path

/-- The node that `createNode` adds. -/
def NodeSpec.node (spec : NodeSpec) : Node := ⟨spec.kind, 1, spec.browseName⟩

/-- `s'` is `s` with more nodes and references, and the model's nodes below the roots are the same. -/
structure LeavesModel (s s' : AddressSpace) : Prop where
  wellFormed : s'.WellFormed
  extend : s.Extends s'
  references : s.references ⊆ s'.references
  nodes : ∀ q, q ∉ rootPaths → s'.nodes (nodeId q) = s.nodes (nodeId q)
  seen : ∀ r ∈ s'.references, r.Seen → r ∈ s.references ∨ ∃ q ∈ rootPaths, r.source = nodeId q

section Spaces

variable {s s' s'' : AddressSpace}

theorem LeavesModel.refl (h : s.WellFormed) : LeavesModel s s :=
  ⟨h, Extends.refl s, fun _ h => h, fun _ _ => rfl, fun _ h _ => .inl h⟩

theorem LeavesModel.trans (h : LeavesModel s s') (h' : LeavesModel s' s'') : LeavesModel s s'' where
  wellFormed := h'.wellFormed
  extend := h.extend.trans h'.extend
  references := fun _ hr => h'.references (h.references hr)
  nodes q hq := (h'.nodes q hq).trans (h.nodes q hq)
  seen r hr hseen := by
    rcases h'.seen r hr hseen with hr | hroot
    · exact h.seen r hr hseen
    · exact .inr hroot

/-! ## Adding nodes and references -/

theorem references_addReference (r : Reference) : s.references ⊆ (s.addReference r).references := by
  unfold AddressSpace.addReference
  split
  · exact List.subset_append_left _ _
  · exact fun _ h => h

theorem addReference_self {r : Reference} (hsource : s.exists? r.source = true) (htarget : s.exists? r.target = true) :
    r ∈ (s.addReference r).references := by
  unfold AddressSpace.addReference
  split
  · simp
  · rename_i hnot
    by_contra hr
    exact hnot ⟨hsource, fun _ => htarget, hr⟩

theorem foldl_references {α : Type} (f : AddressSpace → α → AddressSpace) (xs : List α)
    (hf : ∀ s x, s.references ⊆ (f s x).references) : ∀ s, s.references ⊆ (xs.foldl f s).references := by
  induction xs with
  | nil => exact fun _ _ h => h
  | cons x xs ih => exact fun s _ hr => ih (f s x) (hf s x hr)

theorem foldl_nodes {α : Type} (f : AddressSpace → α → AddressSpace) (xs : List α) (id : NodeId)
    (hf : ∀ s, ∀ x ∈ xs, (f s x).nodes id = s.nodes id) : ∀ s, (xs.foldl f s).nodes id = s.nodes id := by
  induction xs with
  | nil => exact fun _ => rfl
  | cons x xs ih =>
      intro s
      exact (ih (fun s y hy => hf s y (List.mem_cons_of_mem _ hy)) (f s x)).trans (hf s x List.mem_cons_self)

theorem references_addAll (a : Additions) : s.references ⊆ (s.addAll a).references := by
  intro r hr
  refine foldl_references _ a.references (fun _ r => references_addReference r) _ ?_
  rw [foldl_addNode_references]
  exact hr

theorem Additions.Apart.nodes_addAll {a : Additions} (ha : a.Apart) (q : Str) :
    (s.addAll a).nodes (nodeId q) = s.nodes (nodeId q) := by
  refine (foldl_nodes _ a.references (nodeId q) (fun s r _ => by rw [addReference_nodes]) _).trans ?_
  exact foldl_nodes _ a.nodes (nodeId q) (fun s n hn => addNode_nodes_of_ne (ha.nodes n hn q)) s

theorem Additions.Apart.seen_addAll {a : Additions} (ha : a.Apart) {r : Reference} (hr : r ∈ (s.addAll a).references)
    (hseen : r.Seen) : r ∈ s.references := by
  rcases mem_addAll hr with hr | hr
  · exact hr
  · exact absurd hseen (ha.references r hr)

/-! ## The node of a specification -/

variable {spec : NodeSpec} {e : Creation}

theorem references_addSpec : s.references ⊆ (addSpec s spec e).references := by
  intro r hr
  refine foldl_references _ _ (fun s a r hr => references_addReference _ ?_) _ (references_addReference _ ?_)
  all_goals rw [addNode_references]
  all_goals exact hr

theorem parentReference_addSpec (h : canAdd s spec e = true) :
    spec.parentReference ∈ (addSpec s spec e).references := by
  obtain ⟨-, hfree, hparent, -, -⟩ := canAdd_iff.1 h
  refine foldl_references _ _ (fun s a r hr => references_addReference _ (by rwa [addNode_references])) _ ?_
  refine addReference_self ?_ ?_
  · exact (Extends.addNode _ _).exists_of hparent
  · simp [exists?, addNode_nodes_self hfree]

theorem addSpec_nodes_of_ne {q : Str} (hq : q ≠ spec.path) :
    (addSpec s spec e).nodes (nodeId q) = s.nodes (nodeId q) := by
  refine (foldl_nodes _ _ (nodeId q) (fun s a ha => ?_) _).trans ?_
  · rw [addReference_nodes]
    exact addNode_nodes_of_ne (argumentNodes_ne ha q).symm
  · rw [addReference_nodes]
    exact addNode_nodes_of_ne (by simpa [nodeId] using hq)

end Spaces

/-! ## What a transaction makes -/

/-- A node of the model is from `prior` or was made from one of `specs`, and a client sees the references of `prior` and
those to the nodes that were made. -/
structure Transaction.Made (prior : AddressSpace) (specs : List NodeSpec) (tx : Transaction) : Prop where
  references : prior.references ⊆ tx.space.references
  nodes : ∀ q, tx.space.nodes (nodeId q) = prior.nodes (nodeId q) ∨ ∃ spec ∈ specs, spec.path = q ∧
    nodeId q ∈ tx.ids ∧ tx.space.nodes (nodeId q) = some spec.node ∧ spec.parentReference ∈ tx.space.references
  seen : ∀ r ∈ tx.space.references, r.Seen → r ∈ prior.references ∨
    ∃ spec ∈ specs, r = spec.parentReference ∧ nodeId spec.path ∈ tx.ids

namespace Transaction.Made

variable {prior : AddressSpace} {specs : List NodeSpec} {tx : Transaction}

theorem init (specs : List NodeSpec) : Made prior specs { space := prior } :=
  ⟨fun _ h => h, fun _ => .inl rfl, fun _ h _ => .inl h⟩

theorem addAll (h : Made prior specs tx) {a : Additions} (ha : a.Apart) :
    Made prior specs ⟨tx.space.addAll a, tx.ledger⟩ where
  references := fun _ hr => references_addAll a (h.references hr)
  nodes q := by
    rw [ha.nodes_addAll q]
    rcases h.nodes q with hq | ⟨spec, hspec, hpath, hid, hnode, hparent⟩
    · exact .inl hq
    · exact .inr ⟨spec, hspec, hpath, hid, hnode, references_addAll a hparent⟩
  seen r hr hseen := h.seen r (ha.seen_addAll hr hseen) hseen

theorem record (h : Made prior specs tx) (new : List CreatedNode) : Made prior specs ⟨tx.space, tx.ledger ++ new⟩ where
  references := h.references
  nodes q := by
    rcases h.nodes q with hq | ⟨spec, hspec, hpath, hid, hmade⟩
    · exact .inl hq
    · exact .inr ⟨spec, hspec, hpath, by simpa [ids] using .inl (List.mem_map.1 hid), hmade⟩
  seen r hr hseen := by
    rcases h.seen r hr hseen with hr | ⟨spec, hspec, hr, hid⟩
    · exact .inl hr
    · exact .inr ⟨spec, hspec, hr, by simpa [ids] using .inl (List.mem_map.1 hid)⟩

/-- One node more. -/
theorem primary (h : Made prior specs tx) {spec : NodeSpec} (hspec : spec ∈ specs) {e : Creation}
    (hadd : canAdd tx.space spec e = true) (componentRoot : Str) :
    Made prior specs ⟨addSpec tx.space spec e, tx.ledger ++ [primaryNode componentRoot spec]⟩ where
  references := fun _ hr => references_addSpec (h.references hr)
  nodes q := by
    by_cases hq : q = spec.path
    · subst hq
      refine .inr ⟨spec, hspec, rfl, by simp [ids, primaryNode], ?_, parentReference_addSpec hadd⟩
      exact addSpec_node (canAdd_iff.1 hadd).2.1
    · rw [addSpec_nodes_of_ne hq]
      rcases h.nodes q with hq | ⟨other, hother, hpath, hid, hnode, hparent⟩
      · exact .inl hq
      · exact .inr ⟨other, hother, hpath, by simpa [ids] using .inl (List.mem_map.1 hid), hnode, references_addSpec hparent⟩
  seen r hr hseen := by
    rcases mem_addSpec hr with hr | rfl | ⟨a, -, rfl⟩
    · rcases h.seen r hr hseen with hr | ⟨other, hother, hr, hid⟩
      · exact .inl hr
      · exact .inr ⟨other, hother, hr, by simpa [ids] using .inl (List.mem_map.1 hid)⟩
    · exact .inr ⟨spec, hspec, rfl, by simp [ids, primaryNode]⟩
    · cases hseen.2.1

variable {native : Native} {componentRoot : Str} {effects : Str → Creation}

theorem createSpec (h : Made prior specs tx) (heffects : ∀ p, (effects p).before.Apart ∧ (effects p).after.Apart)
    {spec : NodeSpec} (hspec : spec ∈ specs) : Made prior specs (createSpec native componentRoot effects spec tx).1 := by
  have hbefore := h.addAll (heffects spec.path).1
  have hmade : ∀ hadd : canAdd (tx.space.addAll (effects spec.path).before) spec (effects spec.path) = true,
      Made prior specs ⟨spaceWith effects spec tx.space, tx.ledger ++ [primaryNode componentRoot spec]⟩ :=
    fun hadd => (hbefore.primary hspec hadd componentRoot).addAll (heffects spec.path).2
  rcases createSpec_cases native componentRoot effects spec tx with hc | ⟨hadd, hc | ⟨-, refs, -, hc⟩⟩
  all_goals rw [hc]
  · exact hbefore.addAll (heffects spec.path).2
  · exact hmade hadd
  · exact (hmade hadd).record _

theorem createSpecs (heffects : ∀ p, (effects p).before.Apart ∧ (effects p).after.Apart) (rest : List NodeSpec)
    (hrest : rest ⊆ specs) : ∀ tx, Made prior specs tx →
      Made prior specs (createSpecs native componentRoot effects rest tx).1 := by
  induction rest with
  | nil => exact fun _ h => h
  | cons spec rest ih =>
      intro tx h
      have hnext : Made prior specs (Model.createSpec native componentRoot effects spec tx).1 :=
        h.createSpec heffects (hrest List.mem_cons_self)
      simp only [Model.createSpecs]
      split
      · exact ih (fun _ hs => hrest (List.mem_cons_of_mem _ hs)) _ hnext
      · exact hnext

end Transaction.Made

section Candidate

variable {native : Native} {component : Str} {nodes : NodeMap} {effects : Str → Creation} {prior : AddressSpace}

theorem createCandidate_made (heffects : ∀ p, (effects p).before.Apart ∧ (effects p).after.Apart) :
    (createCandidate native component nodes effects prior).1.Made prior (creationSequence nodes) :=
  Transaction.Made.createSpecs heffects _ (fun _ h => h) _ (Transaction.Made.init _)

theorem createSpec_recorded {componentRoot : Str} {spec : NodeSpec} {tx : Transaction}
    (h : (createSpec native componentRoot effects spec tx).2 = true) :
    nodeId spec.path ∈ (createSpec native componentRoot effects spec tx).1.ids := by
  rcases createSpec_cases native componentRoot effects spec tx with hc | ⟨-, hc | ⟨-, refs, -, hc⟩⟩
  · rw [hc] at h
    cases h
  all_goals rw [hc]
  all_goals simp [Transaction.ids, primaryNode]

theorem createSpecs_recorded {componentRoot : Str} (specs : List NodeSpec) : ∀ tx : Transaction,
    (createSpecs native componentRoot effects specs tx).2 = true → ∀ spec ∈ specs,
      nodeId spec.path ∈ (createSpecs native componentRoot effects specs tx).1.ids := by
  induction specs with
  | nil => exact fun _ _ spec hspec => absurd hspec List.not_mem_nil
  | cons first rest ih =>
      intro tx h spec hspec
      simp only [createSpecs] at h ⊢
      split at h
      · rename_i hok
        rw [if_pos hok]
        rcases List.mem_cons.1 hspec with rfl | hspec
        · exact (createSpecs_grows rest _).ids.subset (createSpec_recorded hok)
        · exact ih _ h spec hspec
      · cases h

/-- The ledger of a candidate that is created has all its nodes. -/
theorem createCandidate_recorded (h : (createCandidate native component nodes effects prior).2 = true) {path : Str}
    {spec : NodeSpec} (hspec : nodes.find? path = some spec) :
    nodeId spec.path ∈ (createCandidate native component nodes effects prior).1.ids :=
  createSpecs_recorded _ _ h spec (mem_creationSequence.2 ⟨path, hspec⟩)

end Candidate

/-! ## Rolling back -/

section Rollback

variable {native : Native} {s t prior : AddressSpace} {tx : Transaction}

theorem deleteNode_sublist (hdoc : native.Documented) (s : AddressSpace) (id : NodeId) :
    (native.deleteNode s id).1.references.Sublist s.references := by
  cases hid : s.exists? id with
  | false =>
      rw [hdoc.deleteNode_unknown s id hid]
  | true =>
      obtain ⟨s', hdelete, -, -, -, hsublist⟩ := hdoc.deleteNode s id hid
      rw [hdelete]
      exact hsublist

theorem deleteReferences_sublist (hdoc : native.Documented) (refs : List Reference) : ∀ s : AddressSpace, refs.Nodup →
    (∀ r ∈ refs, r ∈ s.references ∧ s.exists? r.source = true) →
      (deleteReferences native refs s).1.references.Sublist s.references := by
  induction refs with
  | nil => exact fun _ _ _ => List.Sublist.refl _
  | cons r refs ih =>
      intro s hnodup hrefs
      obtain ⟨hnot, hnodup⟩ := List.nodup_cons.1 hnodup
      obtain ⟨hr, hsource⟩ := hrefs r List.mem_cons_self
      have hrest : (deleteReferences native refs { s with references := s.references.filter (· ≠ r) }).1.references.Sublist
          (s.references.filter (· ≠ r)) := by
        refine ih _ hnodup fun x hx => ⟨List.mem_filter.2 ⟨(hrefs x (List.mem_cons_of_mem _ hx)).1, ?_⟩, ?_⟩
        · simpa using fun heq : x = r => hnot (heq ▸ hx)
        · exact (hrefs x (List.mem_cons_of_mem _ hx)).2
      simp only [deleteReferences, hdoc.deleteReference s r hr hsource]
      exact hrest.trans List.filter_sublist

/-- A loop removes references if its body does. -/
theorem foldl_references_sublist {β : Type} {f : Rollback → β → Rollback}
    (hf : ∀ r x, (f r x).space.references.Sublist r.space.references) (l : List β) (r : Rollback) :
    (l.foldl f r).space.references.Sublist r.space.references := by
  induction l generalizing r with
  | nil => exact List.Sublist.refl _
  | cons x l ih => exact (ih _).trans (hf r x)

theorem removeDescendant_sublist (hdoc : native.Documented) (r : Rollback) (id : NodeId) :
    (removeDescendant native r id).space.references.Sublist r.space.references := by
  have hdelete := deleteNode_sublist hdoc r.space id
  unfold removeDescendant
  split
  all_goals rename_i heq
  all_goals rwa [heq] at hdelete

theorem rollbackNode_sublist (hdoc : native.Documented) (fuel : Nat) (createdIds : List NodeId) (r : Rollback)
    (created : CreatedNode) :
    (rollbackNode native fuel createdIds r created).space.references.Sublist r.space.references := by
  unfold rollbackNode
  extract_lets r'
  have hr' : r'.space.references.Sublist r.space.references := by
    unfold r'
    split
    · split
      · exact List.Sublist.refl _
      · exact foldl_references_sublist (removeDescendant_sublist hdoc) _ r
    · exact List.Sublist.refl _
  have hdelete := (deleteNode_sublist hdoc r'.space created.id).trans hr'
  split
  case h_2 heq =>
    rw [heq] at hdelete
    split
    all_goals exact hdelete
  all_goals rename_i heq
  all_goals rwa [heq] at hdelete

theorem rollbackCreatedNodes_sublist (hdoc : native.Documented) (fuel : Nat) {ledger : List CreatedNode}
    (hexists : ∀ id ∈ ledger.map CreatedNode.id, s.exists? id = true) :
    (rollbackCreatedNodes native fuel ledger s).1.references.Sublist s.references := by
  have hids : ∀ id ∈ (ledger.map CreatedNode.id).dedup, s.exists? id = true :=
    fun id hid => hexists id (List.mem_dedup.1 hid)
  obtain ⟨refs, hrefs, hnodup, hmem⟩ := foreignReferences_spec hdoc (ledger.map CreatedNode.id).dedup
    (ledger.map CreatedNode.id).dedup (List.nodup_dedup _) hids
  have hdetach := deleteReferences_sublist hdoc refs s hnodup fun r hr =>
    ⟨((hmem r).1 hr).1, hids _ ((hmem r).1 hr).2.1⟩
  simp only [rollbackCreatedNodes, detachForeignHierarchicalReferences, hrefs]
  split
  all_goals rename_i heq
  all_goals rw [heq] at hdetach
  · exact hdetach
  · exact (foldl_references_sublist (rollbackNode_sublist hdoc fuel _) _ _).trans hdetach

/-- After a rollback the model's nodes are those from before the transaction. -/
theorem closeAndRollback_leavesModel (hdoc : native.Documented) (fuel : Nat) {specs : List NodeSpec}
    (howned : tx.Owned prior) (hmade : tx.Made prior specs) (hprior : prior.WellFormed) {late : Additions}
    (hforeign : late.Foreign tx) (hlate : late.Apart) :
    (closeAndRollback native (fuel + 1) tx.ledger late tx.space).2 = true ∧
      LeavesModel prior (closeAndRollback native (fuel + 1) tx.ledger late tx.space).1 := by
  have hlast := howned.addAll hforeign fun _ h => h
  have hadded := hmade.addAll hlate
  obtain ⟨t, hroll, hwithout⟩ := rollbackCreatedNodes_owned hdoc fuel hlast
  have hsublist : (rollbackCreatedNodes native (fuel + 1) tx.ledger (tx.space.addAll late)).1.references.Sublist
      (tx.space.addAll late).references := rollbackCreatedNodes_sublist hdoc (fuel + 1) hlast.present
  have hids : Transaction.ids ⟨tx.space.addAll late, tx.ledger⟩ = tx.ids := rfl
  have hold : ∀ id, prior.exists? id = true → id ∉ tx.ids := by
    intro id hid hmem
    rw [howned.fresh id hmem] at hid
    cases hid
  rw [closeAndRollback, hroll]
  rw [hroll] at hsublist
  simp only [hids] at hwithout
  refine ⟨rfl, ⟨fun r hr => ?_, fun r hr hlocal => ?_, ?_⟩, fun id hid => ?_, fun r hr => ?_, fun q _ => ?_,
    fun r hr hseen => ?_⟩
  · obtain ⟨hbefore, hsource, -⟩ := (hwithout.references r).1 hr
    exact exists_of_nodes (hwithout.kept _ hsource) (hlast.wellFormed.source r hbefore)
  · obtain ⟨hbefore, -, htarget⟩ := (hwithout.references r).1 hr
    exact exists_of_nodes (hwithout.kept _ (htarget hlocal)) (hlast.wellFormed.target r hbefore hlocal)
  · exact hsublist.nodup hlast.wellFormed.nodup
  · rw [hwithout.kept id (hold id hid)]
    exact hlast.extends_prior id hid
  · exact (hwithout.references r).2 ⟨hadded.references hr, hold _ (hprior.source r hr),
      fun hlocal => hold _ (hprior.target r hr hlocal)⟩
  · by_cases hq : nodeId q ∈ tx.ids
    · have hnone := howned.fresh _ hq
      rw [hwithout.removed _ hq]
      have hprior' : prior.nodes (nodeId q) = none := by simpa [exists?] using hnone
      exact hprior'.symm
    · rw [hwithout.kept _ hq]
      rcases hadded.nodes q with hsame | ⟨-, -, -, hmem, -⟩
      · exact hsame
      · exact absurd hmem hq
  · obtain ⟨hbefore, -, htarget⟩ := (hwithout.references r).1 hr
    rcases hadded.seen r hbefore hseen with hr | ⟨spec, -, rfl, hmem⟩
    · exact .inl hr
    · exact absurd hmem (htarget rfl)

end Rollback

/-! ## The roots -/

section Roots

variable {server : ServerSpace}

theorem ensureRoot_leavesModel (revision : Nat) (hs : server.space.WellFormed) {root : RootNode}
    (hroot : root ∈ rootNodes) : LeavesModel server.space (ensureRoot revision server root).space ∧
      (ensureRoot revision server root).space.exists? (nodeId root.path) = true := by
  unfold ensureRoot
  split
  · exact ⟨LeavesModel.refl hs, ‹_›⟩
  · rename_i hnew
    simp only [Bool.not_eq_true] at hnew
    refine ⟨⟨(hs.addNode _ _).addReference _, (Extends.addNode _ _).trans (Extends.addReference _), fun r hr => ?_,
      fun q hq => ?_, fun r hr hseen => ?_⟩, ?_⟩
    · refine references_addReference _ ?_
      rwa [addNode_references]
    · rw [addReference_nodes]
      refine addNode_nodes_of_ne ?_
      rintro ⟨rfl⟩
      exact hq (List.mem_map_of_mem hroot)
    · rcases mem_addReference hr with hr | rfl
      · rw [addNode_references] at hr
        exact .inl hr
      · -- the parent of a root is another root, or the objects folder, which is none of the model's nodes
        obtain ⟨⟨q, hq⟩, -⟩ := hseen
        refine .inr ⟨q, ?_, hq⟩
        simp only [rootNodes, List.mem_cons, List.not_mem_nil, or_false] at hroot
        rcases hroot with rfl | rfl | rfl | rfl
        · cases hq
        all_goals cases hq
        all_goals decide
    · simp [exists?, addNode_nodes_self hnew]

theorem ensureRootNodes_leavesModel (revision : Nat) (fails : Str → Bool) (roots : List RootNode)
    (hroots : roots ⊆ rootNodes) : ∀ server : ServerSpace, server.space.WellFormed →
      LeavesModel server.space (ensureRootNodes revision fails roots server).1.space ∧
        ((ensureRootNodes revision fails roots server).2 = true →
          ∀ root ∈ roots, (ensureRootNodes revision fails roots server).1.space.exists? (nodeId root.path) = true) := by
  induction roots with
  | nil => exact fun _ hs => ⟨LeavesModel.refl hs, fun _ _ hroot => absurd hroot List.not_mem_nil⟩
  | cons root roots ih =>
      intro server hs
      simp only [ensureRootNodes]
      split
      · exact ⟨LeavesModel.refl hs, nofun⟩
      · obtain ⟨hfirst, hexists⟩ := ensureRoot_leavesModel revision hs (hroots List.mem_cons_self)
        obtain ⟨hrest, hall⟩ := ih (fun _ h => hroots (List.mem_cons_of_mem _ h)) _ hfirst.wellFormed
        refine ⟨hfirst.trans hrest, fun hok r hr => ?_⟩
        rcases List.mem_cons.1 hr with rfl | hr
        · exact hrest.extend.exists_of hexists
        · exact hall hok r hr

def RootsExist (s : AddressSpace) : Prop := ∀ q ∈ rootPaths, s.exists? (nodeId q) = true

/-- A model has added the roots, or has not. -/
theorem ensureRoots_leavesModel (m : ObjectModelImpl) (fails : Str → Bool) (hs : server.space.WellFormed)
    (hready : m.rootsReady = true → RootsExist server.space) :
    LeavesModel server.space (ensureRoots m fails server).2.1.space ∧
      ((ensureRoots m fails server).1.rootsReady = true → RootsExist (ensureRoots m fails server).2.1.space) ∧
      ((ensureRoots m fails server).2.2 = true → RootsExist (ensureRoots m fails server).2.1.space) ∧
      (ensureRoots m fails server).1.abandoned = m.abandoned := by
  obtain ⟨hleaves, hexist⟩ := ensureRootNodes_leavesModel m.revision fails rootNodes (fun _ h => h) server hs
  have hroots : (ensureRootNodes m.revision fails rootNodes server).2 = true →
      RootsExist (ensureRootNodes m.revision fails rootNodes server).1.space := by
    intro hok q hq
    obtain ⟨root, hroot, rfl⟩ := List.mem_map.1 hq
    exact hexist hok root hroot
  unfold ensureRoots
  split
  · rename_i hm
    exact ⟨LeavesModel.refl hs, fun _ => hready hm, fun _ => hready hm, rfl⟩
  · rename_i hm
    split
    all_goals rename_i heq
    all_goals rw [heq] at hleaves hroots
    · exact ⟨hleaves, fun _ => hroots rfl, fun _ => hroots rfl, rfl⟩
    · exact ⟨hleaves, fun h => absurd h hm, nofun, rfl⟩

end Roots

/-! ## The task on the server thread -/

/-- Other code keeps apart from a publication: what its callbacks add is foreign to the transaction and to the model. -/
structure Attempt.KeepsApart (tx : Transaction) (a : Attempt) : Prop where
  before : ∀ p, (a.effects p).before.Foreign tx ∧ (a.effects p).before.Apart
  after : ∀ p, (a.effects p).after.Foreign tx ∧ (a.effects p).after.Apart
  late : a.late.Foreign tx ∧ a.late.Apart

/-- `s'` is `s` with the nodes of a candidate, and perhaps roots and what other code added. -/
structure AddsNodes (nodes : NodeMap) (s s' : AddressSpace) : Prop where
  wellFormed : s'.WellFormed
  extend : s.Extends s'
  roots : RootsExist s'
  references : s.references ⊆ s'.references
  fresh : ∀ q spec, nodes.find? q = some spec → q ∉ rootPaths ∧ s.exists? (nodeId q) = false
  contents : ∀ q, q ∉ rootPaths → s'.nodes (nodeId q) = ((nodes.find? q).map NodeSpec.node).or (s.nodes (nodeId q))
  parents : ∀ q spec, nodes.find? q = some spec → spec.parentReference ∈ s'.references
  seen : ∀ r ∈ s'.references, r.Seen → r ∈ s.references ∨ (∃ q ∈ rootPaths, r.source = nodeId q) ∨
    ∃ q spec, nodes.find? q = some spec ∧ r = spec.parentReference

section Task

variable {native : Native} {m : ObjectModelImpl} {server : ServerSpace} {name : Str} {a : Attempt} {nodes : NodeMap}

theorem createCandidate_adds (hdoc : native.Documented) {s s' : AddressSpace} {effects : Str → Creation}
    (hkeys : ∀ q spec, nodes.find? q = some spec → spec.path = q) (hs : LeavesModel s s') (hroots : RootsExist s')
    (hforeign : ∀ p, (effects p).before.Foreign (createCandidate native name nodes effects s').1 ∧
      (effects p).after.Foreign (createCandidate native name nodes effects s').1)
    (hapart : ∀ p, (effects p).before.Apart ∧ (effects p).after.Apart)
    (hok : (createCandidate native name nodes effects s').2 = true) :
    AddsNodes nodes s (createCandidate native name nodes effects s').1.space := by
  have howned := createCandidate_owned hdoc hs.wellFormed hforeign
  have hmade : (createCandidate native name nodes effects s').1.Made s' (creationSequence nodes) :=
    createCandidate_made hapart
  have hrecorded : ∀ q spec, nodes.find? q = some spec →
      nodeId spec.path ∈ (createCandidate native name nodes effects s').1.ids := fun _ _ => createCandidate_recorded hok
  generalize (createCandidate native name nodes effects s').1 = tx at howned hmade hrecorded
  have hlisted : ∀ q spec, nodes.find? q = some spec → nodeId q ∈ tx.ids := by
    intro q spec hspec
    rw [← hkeys q spec hspec]
    exact hrecorded q spec hspec
  have hspecs : ∀ q, (∃ spec ∈ creationSequence nodes, spec.path = q ∧ nodeId q ∈ tx.ids ∧
      tx.space.nodes (nodeId q) = some spec.node ∧ spec.parentReference ∈ tx.space.references) →
        ∃ spec, nodes.find? q = some spec ∧ tx.space.nodes (nodeId q) = some spec.node ∧
          spec.parentReference ∈ tx.space.references := by
    rintro q ⟨spec, hspec, rfl, -, hnode, hparent⟩
    obtain ⟨path, hpath⟩ := mem_creationSequence.1 hspec
    rw [← hkeys path spec hpath] at hpath
    exact ⟨spec, hpath, hnode, hparent⟩
  -- a node of the ledger was made
  have hmadeOf : ∀ q spec, nodes.find? q = some spec → tx.space.nodes (nodeId q) = some spec.node ∧
      spec.parentReference ∈ tx.space.references := by
    intro q spec hspec
    have hmem := hlisted q spec hspec
    rcases hmade.nodes q with hsame | hmadeq
    · have hpresent := howned.present _ hmem
      rw [exists?, hsame] at hpresent
      have hfresh := howned.fresh _ hmem
      rw [exists?, hpresent] at hfresh
      cases hfresh
    · obtain ⟨other, hother, hnode, hparent⟩ := hspecs q hmadeq
      rw [hspec] at hother
      obtain rfl := Option.some.inj hother
      exact ⟨hnode, hparent⟩
  refine ⟨howned.wellFormed, hs.extend.trans howned.extends_prior, fun q hq => ?_, fun r hr => ?_, fun q spec hspec => ?_,
    fun q hq => ?_, fun q spec hspec => (hmadeOf q spec hspec).2, fun r hr hseen => ?_⟩
  · exact howned.extends_prior.exists_of (hroots q hq)
  · exact hmade.references (hs.references hr)
  · have hfresh := howned.fresh _ (hlisted q spec hspec)
    refine ⟨fun hroot => ?_, ?_⟩
    · rw [hroots q hroot] at hfresh
      cases hfresh
    · by_contra hold
      rw [hs.extend.exists_of (by simpa using hold)] at hfresh
      cases hfresh
  · cases hfind : nodes.find? q with
    | some spec => simp [(hmadeOf q spec hfind).1]
    | none =>
        simp only [Option.map_none, Option.none_or]
        rcases hmade.nodes q with hsame | hmadeq
        · rw [hsame, hs.nodes q hq]
        · obtain ⟨other, hother, -⟩ := hspecs q hmadeq
          rw [hfind] at hother
          cases hother
  · rcases hmade.seen r hr hseen with hr | ⟨spec, hspec, rfl, -⟩
    · rcases hs.seen r hr hseen with hr | hroot
      · exact .inl hr
      · exact .inr (.inl hroot)
    · obtain ⟨path, hpath⟩ := mem_creationSequence.1 hspec
      exact .inr (.inr ⟨path, spec, hpath, rfl⟩)

end Task

end RttOpcua.Model
