import RttOpcua.Model.Transaction

/-!
# What a transaction owns

While the nodes of a candidate are created, the ledger lists nodes that exist, were not there before, and of
which no later one is a hierarchical parent of an earlier one.
-/

namespace RttOpcua.Model

namespace AddressSpace

variable {s : AddressSpace}

/-! ## Adding nodes and references -/

theorem addNode_nodes_of_exists {id x : NodeId} {node : Node} (h : s.exists? x = true) :
    (s.addNode id node).nodes x = s.nodes x := by
  unfold addNode
  split
  · rfl
  · rename_i hid
    have hne : x ≠ id := by
      rintro rfl
      exact hid h
    simp [Function.update_of_ne hne]

@[simp] theorem addNode_references (id : NodeId) (node : Node) :
    (s.addNode id node).references = s.references := by
  unfold addNode; split <;> rfl

theorem addNode_nodes_self {id : NodeId} {node : Node} (h : s.exists? id = false) :
    (s.addNode id node).nodes id = some node := by
  simp [addNode, h]

theorem addNode_nodes_of_ne {id x : NodeId} {node : Node} (h : x ≠ id) :
    (s.addNode id node).nodes x = s.nodes x := by
  unfold addNode
  split
  · rfl
  · simp [Function.update_of_ne h]

@[simp] theorem addReference_nodes (r : Reference) : (s.addReference r).nodes = s.nodes := by
  unfold addReference; split <;> rfl

@[simp] theorem addReference_exists (r : Reference) (id : NodeId) :
    (s.addReference r).exists? id = s.exists? id := by
  simp [exists?]

theorem mem_addReference {r x : Reference} (h : x ∈ (s.addReference r).references) :
    x ∈ s.references ∨ x = r := by
  unfold addReference at h
  split at h
  · simpa using h
  · exact .inl h

theorem exists_of_nodes {t : AddressSpace} {id : NodeId} (h : t.nodes id = s.nodes id)
    (hs : s.exists? id = true) : t.exists? id = true := by
  unfold exists? at hs ⊢; rwa [h]

theorem WellFormed.addNode (h : s.WellFormed) (id : NodeId) (node : Node) : (s.addNode id node).WellFormed where
  source r hr := by
    rw [addNode_references] at hr
    exact exists_of_nodes (addNode_nodes_of_exists (h.source r hr)) (h.source r hr)
  target r hr hl := by
    rw [addNode_references] at hr
    exact exists_of_nodes (addNode_nodes_of_exists (h.target r hr hl)) (h.target r hr hl)
  nodup := by rw [addNode_references]; exact h.nodup

theorem WellFormed.addReference (h : s.WellFormed) (r : Reference) : (s.addReference r).WellFormed := by
  unfold AddressSpace.addReference
  split
  · rename_i hr
    obtain ⟨hsource, htarget, hnew⟩ := hr
    refine ⟨fun x hx => ?_, fun x hx hl => ?_, ?_⟩
    · rcases List.mem_append.1 hx with hx | hx
      · exact h.source x hx
      · rw [List.mem_singleton.1 hx]; exact hsource
    · rcases List.mem_append.1 hx with hx | hx
      · exact h.target x hx hl
      · rw [List.mem_singleton.1 hx] at hl ⊢; exact htarget hl
    · exact List.nodup_append.2 ⟨h.nodup, by simp, by rintro a ha b hb rfl; simp_all⟩
  · exact h

/-! ## What callbacks add -/

/-- `t` has the nodes of `s`, and perhaps more. -/
def Extends (s t : AddressSpace) : Prop := ∀ id, s.exists? id = true → t.nodes id = s.nodes id

theorem Extends.refl (s : AddressSpace) : s.Extends s := fun _ _ => rfl

theorem Extends.exists_of {t : AddressSpace} (h : s.Extends t) {id : NodeId} (hid : s.exists? id = true) :
    t.exists? id = true :=
  exists_of_nodes (h id hid) hid

theorem Extends.trans {t u : AddressSpace} (h : s.Extends t) (h' : t.Extends u) : s.Extends u :=
  fun id hid => (h' id (h.exists_of hid)).trans (h id hid)

theorem Extends.addNode (id : NodeId) (node : Node) : s.Extends (s.addNode id node) :=
  fun _ h => addNode_nodes_of_exists h

theorem Extends.addReference (r : Reference) : s.Extends (s.addReference r) :=
  fun id _ => congrFun (addReference_nodes r) id

/-- A fold whose steps extend the space and keep it well formed does so. -/
theorem foldl_extends {α : Type} (step : AddressSpace → α → AddressSpace) (xs : List α)
    (hstep : ∀ s x, Extends s (step s x)) : ∀ s, Extends s (xs.foldl step s) := by
  induction xs with
  | nil => exact Extends.refl
  | cons x xs ih => exact fun s => (hstep s x).trans (ih _)

theorem foldl_wellFormed {α : Type} (step : AddressSpace → α → AddressSpace) (xs : List α)
    (hstep : ∀ s x, WellFormed s → WellFormed (step s x)) :
    ∀ s, WellFormed s → WellFormed (xs.foldl step s) := by
  induction xs with
  | nil => exact fun _ h => h
  | cons x xs ih => exact fun s h => ih _ (hstep s x h)

theorem Extends.addAll (s : AddressSpace) (a : Additions) : s.Extends (s.addAll a) :=
  (foldl_extends _ _ (fun _ (p : NodeId × Node) => Extends.addNode p.1 p.2) s).trans
    (foldl_extends _ _ (fun _ r => Extends.addReference r) _)

theorem WellFormed.addAll (h : s.WellFormed) (a : Additions) : (s.addAll a).WellFormed :=
  foldl_wellFormed _ _ (fun _ r h => h.addReference r) _
    (foldl_wellFormed _ _ (fun _ (p : NodeId × Node) h => h.addNode p.1 p.2) s h)

theorem mem_foldl_addReference {rs : List Reference} {x : Reference} :
    ∀ {s : AddressSpace}, x ∈ (rs.foldl AddressSpace.addReference s).references → x ∈ s.references ∨ x ∈ rs := by
  induction rs with
  | nil => exact fun h => .inl h
  | cons r rs ih =>
      intro s h
      rcases ih h with h | h
      · rcases mem_addReference h with h | rfl
        · exact .inl h
        · exact .inr (by simp)
      · exact .inr (List.mem_cons_of_mem _ h)

theorem foldl_addNode_references (ns : List (NodeId × Node)) :
    ∀ s : AddressSpace, (ns.foldl (fun s p => s.addNode p.1 p.2) s).references = s.references := by
  induction ns with
  | nil => exact fun _ => rfl
  | cons n ns ih => intro s; simp [ih]

theorem mem_addAll {a : Additions} {x : Reference} (h : x ∈ (s.addAll a).references) :
    x ∈ s.references ∨ x ∈ a.references := by
  rcases mem_foldl_addReference h with h | h
  · rw [foldl_addNode_references] at h
    exact .inl h
  · exact .inr h

end AddressSpace

open AddressSpace

/-! ## The node of a specification -/

/-- The references that `addSpec` makes. -/
def NodeSpec.parentReference (spec : NodeSpec) : Reference :=
  { source := nodeId spec.parentPath, target := nodeId spec.path, type := spec.reference }

def NodeSpec.argumentReference (spec : NodeSpec) (a : NodeId × Node) : Reference :=
  { source := nodeId spec.path, target := a.1, type := .hasProperty }

section addSpec

variable {s : AddressSpace} {spec : NodeSpec} {e : Creation}

theorem argumentNodes_ne {a : NodeId × Node} (h : a ∈ argumentNodes spec e) (p : Str) : a.1 ≠ nodeId p := by
  unfold argumentNodes at h
  rcases List.mem_append.1 h with h | h <;> split at h <;> simp_all [nodeId]

/-- What must hold for a node to be added. -/
theorem canAdd_iff : canAdd s spec e = true ↔ e.added = true ∧ s.exists? (nodeId spec.path) = false ∧
    s.exists? (nodeId spec.parentPath) = true ∧ (∀ a ∈ argumentNodes spec e, s.exists? a.1 = false) ∧
    ((argumentNodes spec e).map Prod.fst).Nodup := by
  simp [canAdd, and_assoc]

theorem addSpec_extends : s.Extends (addSpec s spec e) :=
  (Extends.addNode _ _).trans <| (Extends.addReference _).trans <|
    foldl_extends _ _ (fun _ (a : NodeId × Node) => (Extends.addNode a.1 a.2).trans (Extends.addReference _)) _

theorem addSpec_wellFormed (h : s.WellFormed) : (addSpec s spec e).WellFormed :=
  foldl_wellFormed _ _ (fun _ (a : NodeId × Node) h => (h.addNode a.1 a.2).addReference _) _
    ((h.addNode _ _).addReference _)

theorem addSpec_node (h : s.exists? (nodeId spec.path) = false) :
    (addSpec s spec e).nodes (nodeId spec.path) = some ⟨spec.kind, 1, spec.browseName⟩ := by
  have hnode : (s.addNode (nodeId spec.path) ⟨spec.kind, 1, spec.browseName⟩).nodes (nodeId spec.path) = _ :=
    addNode_nodes_self h
  have hext := foldl_extends
    (fun (s : AddressSpace) (a : NodeId × Node) => (s.addNode a.1 a.2).addReference (spec.argumentReference a))
    (argumentNodes spec e) (fun _ a => (Extends.addNode a.1 a.2).trans (Extends.addReference _))
    ((s.addNode (nodeId spec.path) ⟨spec.kind, 1, spec.browseName⟩).addReference spec.parentReference)
    (nodeId spec.path) (by simp [exists?, hnode])
  rw [addReference_nodes, hnode] at hext
  exact hext

theorem mem_foldl_argumentReference {as : List (NodeId × Node)} {x : Reference} :
    ∀ {s : AddressSpace},
      x ∈ (as.foldl (fun s a => (s.addNode a.1 a.2).addReference (spec.argumentReference a)) s).references →
      x ∈ s.references ∨ ∃ a ∈ as, x = spec.argumentReference a := by
  induction as with
  | nil => exact fun h => .inl h
  | cons a as ih =>
      intro s h
      rcases ih h with h | ⟨b, hb, rfl⟩
      · rcases mem_addReference h with h | rfl
        · rw [addNode_references] at h
          exact .inl h
        · exact .inr ⟨a, by simp, rfl⟩
      · exact .inr ⟨b, List.mem_cons_of_mem _ hb, rfl⟩

theorem mem_addSpec {x : Reference} (h : x ∈ (addSpec s spec e).references) :
    x ∈ s.references ∨ x = spec.parentReference ∨ ∃ a ∈ argumentNodes spec e, x = spec.argumentReference a := by
  rcases mem_foldl_argumentReference h with h | h
  · rcases mem_addReference h with h | rfl
    · rw [addNode_references] at h
      exact .inl h
    · exact .inr (.inl rfl)
  · exact .inr (.inr h)

end addSpec

/-! ## The invariant -/

/-- The callbacks of other code make no reference to a node of the transaction, and attach no node that looks
like a method argument to a method of it. -/
structure Additions.Foreign (tx : Transaction) (a : Additions) : Prop where
  target : ∀ r ∈ a.references, r.isLocal = true → r.type.isHierarchical = true → r.target ∉ tx.ids
  argument : ∀ r ∈ a.references, r.source ∈ tx.ids → (tx.space.nodes r.source).any (·.nodeClass = .method) →
    r.type = .hasProperty → isArgumentReference tx.space r = false

/-- The transaction goes on to `tx'`. -/
structure Transaction.Grows (tx tx' : Transaction) : Prop where
  ids : tx.ids <+: tx'.ids
  space : tx.space.Extends tx'.space

/-- The transaction owns the nodes of its ledger, which began at `prior`. -/
structure Transaction.Owned (prior : AddressSpace) (tx : Transaction) : Prop where
  wellFormed : tx.space.WellFormed
  extends_prior : prior.Extends tx.space
  nodup : tx.ids.Nodup
  present : ∀ id ∈ tx.ids, tx.space.exists? id = true
  fresh : ∀ id ∈ tx.ids, prior.exists? id = false
  order : tx.ids.Pairwise fun a b => ¬ tx.space.Child b a
  irrefl : ∀ a ∈ tx.ids, ¬ tx.space.Child a a

namespace Transaction

variable {prior : AddressSpace} {tx tx' tf : Transaction}

theorem Grows.refl (tx : Transaction) : tx.Grows tx := ⟨List.prefix_rfl, Extends.refl _⟩

theorem Grows.trans (h : tx.Grows tx') (h' : tx'.Grows tf) : tx.Grows tf :=
  ⟨h.ids.trans h'.ids, h.space.trans h'.space⟩

theorem Owned.init (h : prior.WellFormed) : Owned prior { space := prior } where
  wellFormed := h
  extends_prior := Extends.refl _
  nodup := List.nodup_nil
  present := by simp [ids]
  fresh := by simp [ids]
  order := List.Pairwise.nil
  irrefl := by simp [ids]

/-- More nodes and references, none of them to a node of the ledger. -/
theorem Owned.extend (h : Owned prior tx) {space : AddressSpace} (hwf : space.WellFormed)
    (hext : tx.space.Extends space) (hchild : ∀ x, ∀ y ∈ tx.ids, space.Child x y → tx.space.Child x y) :
    Owned prior ⟨space, tx.ledger⟩ where
  wellFormed := hwf
  extends_prior := h.extends_prior.trans hext
  nodup := h.nodup
  present id hid := hext.exists_of (h.present id hid)
  fresh := h.fresh
  order := h.order.imp_of_mem fun ha _ hab hba => hab (hchild _ _ ha hba)
  irrefl a ha haa := h.irrefl a ha (hchild _ _ ha haa)

/-- New nodes at the end of the ledger are parents of no node of the transaction. -/
theorem Owned.record (h : Owned prior tx) (new : List CreatedNode)
    (hnodup : (new.map CreatedNode.id).Nodup)
    (hnew : ∀ n ∈ new, n.id ∉ tx.ids ∧ tx.space.exists? n.id = true ∧ prior.exists? n.id = false)
    (hchild : ∀ n ∈ new, ∀ y ∈ tx.ids ++ new.map CreatedNode.id, ¬ tx.space.Child n.id y) :
    Owned prior ⟨tx.space, tx.ledger ++ new⟩ := by
  have hids : ids ⟨tx.space, tx.ledger ++ new⟩ = tx.ids ++ new.map CreatedNode.id := List.map_append
  have hmem : ∀ id ∈ new.map CreatedNode.id, ∃ n ∈ new, n.id = id := fun _ hid => List.mem_map.1 hid
  refine ⟨h.wellFormed, h.extends_prior, ?_, ?_, ?_, ?_, ?_⟩ <;> rw [hids]
  · refine List.nodup_append.2 ⟨h.nodup, hnodup, ?_⟩
    rintro a ha b hb rfl
    obtain ⟨n, hn, rfl⟩ := hmem _ hb
    exact (hnew n hn).1 ha
  · intro id hid
    rcases List.mem_append.1 hid with hid | hid
    · exact h.present id hid
    · obtain ⟨n, hn, rfl⟩ := hmem _ hid
      exact (hnew n hn).2.1
  · intro id hid
    rcases List.mem_append.1 hid with hid | hid
    · exact h.fresh id hid
    · obtain ⟨n, hn, rfl⟩ := hmem _ hid
      exact (hnew n hn).2.2
  · refine List.pairwise_append.2 ⟨h.order, ?_, ?_⟩
    · refine List.Pairwise.imp_of_mem (fun ha hb _ => ?_) hnodup
      obtain ⟨n, hn, rfl⟩ := hmem _ hb
      exact hchild n hn _ (List.mem_append_right _ ha)
    · intro a ha b hb
      obtain ⟨n, hn, rfl⟩ := hmem _ hb
      exact hchild n hn _ (List.mem_append_left _ ha)
  · intro a ha
    rcases List.mem_append.1 ha with hold | hnew'
    · exact h.irrefl a hold
    · obtain ⟨n, hn, rfl⟩ := hmem _ hnew'
      exact hchild n hn _ ha

theorem Owned.addAll (h : Owned prior tx) {a : Additions} (ha : a.Foreign tf) (hids : tx.ids ⊆ tf.ids) :
    Owned prior ⟨tx.space.addAll a, tx.ledger⟩ := by
  refine h.extend (h.wellFormed.addAll a) (Extends.addAll _ a) ?_
  rintro x y hy ⟨r, hr, hx, rfl, hlocal, hhier⟩
  rcases mem_addAll hr with hr | hr
  · exact ⟨r, hr, hx, rfl, hlocal, hhier⟩
  · exact absurd (hids hy) (ha.target r hr hlocal hhier)

end Transaction

/-! ## One node -/

section createSpec

variable {native : Native} {componentRoot : Str} {effects : Str → Creation} {spec : NodeSpec}
  {prior : AddressSpace} {tx tf : Transaction}

/-- The space after the node of `spec` and what callbacks add around it. -/
def spaceWith (effects : Str → Creation) (spec : NodeSpec) (s : AddressSpace) : AddressSpace :=
  (addSpec (s.addAll (effects spec.path).before) spec (effects spec.path)).addAll (effects spec.path).after

def primaryNode (componentRoot : Str) (spec : NodeSpec) : CreatedNode :=
  ⟨nodeId spec.path, spec.path = componentRoot || spec.kind = .method⟩

/-- What one round of the loop can do: add no node, add one, or add a method with its argument nodes. -/
theorem createSpec_cases (native : Native) (componentRoot : Str) (effects : Str → Creation) (spec : NodeSpec)
    (tx : Transaction) :
    let e := effects spec.path
    createSpec native componentRoot effects spec tx =
        (⟨(tx.space.addAll e.before).addAll e.after, tx.ledger⟩, false) ∨
    canAdd (tx.space.addAll e.before) spec e = true ∧
      ((createSpec native componentRoot effects spec tx).1 =
          ⟨spaceWith effects spec tx.space, tx.ledger ++ [primaryNode componentRoot spec]⟩ ∨
        spec.kind = .method ∧ ∃ refs,
          native.browse (spaceWith effects spec tx.space) (nodeId spec.path) .properties = some refs ∧
          (createSpec native componentRoot effects spec tx).1 =
            ⟨spaceWith effects spec tx.space, tx.ledger ++ [primaryNode componentRoot spec] ++
              (refs.filter (isArgumentReference (spaceWith effects spec tx.space))).map fun r =>
                { id := r.target }⟩) := by
  intro e
  unfold createSpec createNode
  cases hadd : canAdd (tx.space.addAll e.before) spec e with
  | false => exact .inl (by simp only [e] at hadd; simp [hadd, e])
  | true =>
      refine .inr ⟨rfl, ?_⟩
      simp only [e] at hadd
      simp only [hadd, ↓reduceIte]
      by_cases hmethod : spec.kind = .method
      · simp only [hmethod, ↓reduceIte, recordMethodArgumentNodes]
        cases hb : native.browse (spaceWith effects spec tx.space) (nodeId spec.path) .properties with
        | none =>
            refine .inl ?_
            simp only [spaceWith] at hb
            simp [hb, spaceWith, primaryNode, hmethod]
        | some refs =>
            refine .inr ⟨trivial, refs, rfl, ?_⟩
            simp only [spaceWith] at hb
            simp only [hb]
            split <;> simp [spaceWith, primaryNode, hmethod]
      · exact .inl (by simp [hmethod, spaceWith, primaryNode])

theorem spaceWith_extends (s : AddressSpace) : s.Extends (spaceWith effects spec s) :=
  (Extends.addAll _ _).trans (addSpec_extends.trans (Extends.addAll _ _))

theorem createSpec_grows : tx.Grows (createSpec native componentRoot effects spec tx).1 := by
  rcases createSpec_cases native componentRoot effects spec tx with h | ⟨-, h | ⟨-, refs, -, h⟩⟩ <;> rw [h]
  · exact ⟨List.prefix_rfl, (Extends.addAll _ _).trans (Extends.addAll _ _)⟩
  · exact ⟨by simp [Transaction.ids], spaceWith_extends _⟩
  · exact ⟨by simp [Transaction.ids], spaceWith_extends _⟩

/-- A creation that goes on has made its node. -/
theorem createSpec_exists (h : (createSpec native componentRoot effects spec tx).2 = true) :
    (createSpec native componentRoot effects spec tx).1.space.exists? (nodeId spec.path) = true := by
  have hnode : canAdd (tx.space.addAll (effects spec.path).before) spec (effects spec.path) = true →
      (spaceWith effects spec tx.space).exists? (nodeId spec.path) = true := by
    intro hadd
    refine (Extends.addAll _ _).exists_of ?_
    rw [exists?, addSpec_node (canAdd_iff.1 hadd).2.1]
    rfl
  rcases createSpec_cases native componentRoot effects spec tx with hc | ⟨hadd, hc | ⟨-, refs, -, hc⟩⟩
  · rw [hc] at h
    cases h
  · rw [hc]
    exact hnode hadd
  · rw [hc]
    exact hnode hadd

theorem mem_spaceWith {s : AddressSpace} {x : Reference} (h : x ∈ (spaceWith effects spec s).references) :
    x ∈ (s.addAll (effects spec.path).before).references ∨ x = spec.parentReference ∨
      (∃ a ∈ argumentNodes spec (effects spec.path), x = spec.argumentReference a) ∨
      x ∈ (effects spec.path).after.references := by
  rcases mem_addAll h with h | h
  · rcases mem_addSpec h with h | h | h
    · exact .inl h
    · exact .inr (.inl h)
    · exact .inr (.inr (.inl h))
  · exact .inr (.inr (.inr h))

/-- The parents that a new node gets, and a new node as a parent: only the references of `addSpec` and those of
callbacks, which have no target in the transaction. -/
theorem not_child_of_new (hwf : tx.space.WellFormed)
    (hforeign : ∀ p, (effects p).before.Foreign tf ∧ (effects p).after.Foreign tf)
    (hadd : canAdd (tx.space.addAll (effects spec.path).before) spec (effects spec.path) = true)
    {x y : NodeId} (hx : (tx.space.addAll (effects spec.path).before).exists? x = false)
    (hy : y ∈ tf.ids) (hne : x = nodeId spec.path → ∀ a ∈ argumentNodes spec (effects spec.path), y ≠ a.1) :
    ¬ (spaceWith effects spec tx.space).Child x y := by
  rintro ⟨r, hr, rfl, rfl, hlocal, hhier⟩
  rcases mem_spaceWith hr with h | rfl | ⟨a, ha, rfl⟩ | h
  · rw [(hwf.addAll _).source r h] at hx
    cases hx
  · rw [NodeSpec.parentReference, (canAdd_iff.1 hadd).2.2.1] at hx
    cases hx
  · exact hne rfl a ha rfl
  · exact (hforeign _).2.target r h hlocal hhier hy

/-- The new node is in the ledger. -/
theorem owned_primary (h : tx.Owned prior)
    (hforeign : ∀ p, (effects p).before.Foreign tf ∧ (effects p).after.Foreign tf)
    (hadd : canAdd (tx.space.addAll (effects spec.path).before) spec (effects spec.path) = true)
    (hids : tx.ids ++ [nodeId spec.path] ⊆ tf.ids) :
    Transaction.Owned prior
      ⟨spaceWith effects spec tx.space, tx.ledger ++ [primaryNode componentRoot spec]⟩ := by
  have hids' : tx.ids ⊆ tf.ids := fun x hx => hids (List.mem_append_left _ hx)
  have h0 := h.addAll (hforeign spec.path).1 hids'
  obtain ⟨-, hpath, -, hargs, -⟩ := canAdd_iff.1 hadd
  have hwf : (spaceWith effects spec tx.space).WellFormed := (addSpec_wellFormed h0.wellFormed).addAll _
  have hext : (tx.space.addAll (effects spec.path).before).Extends (spaceWith effects spec tx.space) :=
    addSpec_extends.trans (Extends.addAll _ _)
  have hold : Transaction.Owned prior ⟨spaceWith effects spec tx.space, tx.ledger⟩ := by
    refine h0.extend hwf hext ?_
    rintro x y hy ⟨r, hr, hx, rfl, hlocal, hhier⟩
    have hthere := h0.present _ hy
    rcases mem_spaceWith hr with h | rfl | ⟨a, ha, rfl⟩ | h
    · exact ⟨r, h, hx, rfl, hlocal, hhier⟩
    · rw [show spec.parentReference.target = nodeId spec.path from rfl, hpath] at hthere
      cases hthere
    · rw [show (spec.argumentReference a).target = a.1 from rfl, hargs a ha] at hthere
      cases hthere
    · exact absurd (hids' hy) ((hforeign _).2.target r h hlocal hhier)
  refine hold.record [primaryNode componentRoot spec] (by simp) ?_ ?_ <;>
    simp only [List.mem_singleton, forall_eq, primaryNode, List.map_cons, List.map_nil]
  · refine ⟨fun hmem => ?_, ?_, ?_⟩
    · have hthere := h0.present _ hmem
      rw [hpath] at hthere
      cases hthere
    · refine (Extends.addAll _ _).exists_of ?_
      simp [exists?, addSpec_node hpath]
    · by_contra hprior
      have hthere := h0.extends_prior.exists_of (by simpa using hprior)
      rw [hpath] at hthere
      cases hthere
  · intro y hy
    refine not_child_of_new h.wellFormed hforeign hadd hpath (hids hy) ?_
    rintro - a ha rfl
    rcases List.mem_append.1 hy with hy | hy
    · have hthere := h0.present _ hy
      rw [hargs a ha] at hthere
      cases hthere
    · exact argumentNodes_ne ha spec.path (List.mem_singleton.1 hy)

/-- A browsed argument of the new method is one that open62541 added with it. -/
theorem argument_of_browsed (h : tx.Owned prior)
    (hforeign : ∀ p, (effects p).before.Foreign tf ∧ (effects p).after.Foreign tf)
    (hadd : canAdd (tx.space.addAll (effects spec.path).before) spec (effects spec.path) = true)
    (hmethod : spec.kind = .method) (hpath : nodeId spec.path ∈ tf.ids)
    (hspace : (spaceWith effects spec tx.space).Extends tf.space) {r : Reference}
    (hr : r ∈ (spaceWith effects spec tx.space).references) (hsource : r.source = nodeId spec.path)
    (htype : r.type = .hasProperty) (harg : isArgumentReference (spaceWith effects spec tx.space) r = true) :
    ∃ a ∈ argumentNodes spec (effects spec.path), r = spec.argumentReference a := by
  obtain ⟨-, hfree, hparent, -, -⟩ := canAdd_iff.1 hadd
  rcases mem_spaceWith hr with hr | rfl | hr | hr
  · have hthere := (h.wellFormed.addAll _).source r hr
    rw [hsource, hfree] at hthere
    cases hthere
  · rw [show nodeId spec.parentPath = nodeId spec.path from hsource, hfree] at hparent
    cases hparent
  · exact hr
  · -- a callback would have attached an argument to the method
    have hnode : (spaceWith effects spec tx.space).nodes (nodeId spec.path) =
        some ⟨spec.kind, 1, spec.browseName⟩ := by
      rw [spaceWith, Extends.addAll _ _ _ (by simp [exists?, addSpec_node hfree])]
      exact addSpec_node hfree
    have hmethod' : (tf.space.nodes r.source).any (·.nodeClass = .method) := by
      rw [hsource, hspace _ (by simp [exists?, hnode]), hnode]
      simpa using hmethod
    have hnot := (hforeign _).2.argument r hr (hsource ▸ hpath) hmethod' htype
    have hsame : isArgumentReference tf.space r = true := by
      unfold isArgumentReference at harg ⊢
      rw [Bool.and_eq_true] at harg ⊢
      refine ⟨harg.1, ?_⟩
      rw [hspace _ (by unfold exists?; cases hn : (spaceWith effects spec tx.space).nodes r.target <;> simp_all)]
      exact harg.2
    rw [hsame] at hnot
    cases hnot

theorem createSpec_owned (hdoc : native.Documented) (h : tx.Owned prior)
    (hforeign : ∀ p, (effects p).before.Foreign tf ∧ (effects p).after.Foreign tf)
    (hgrows : (createSpec native componentRoot effects spec tx).1.Grows tf) :
    (createSpec native componentRoot effects spec tx).1.Owned prior := by
  have hids := (createSpec_grows.trans hgrows).ids.subset
  rcases createSpec_cases native componentRoot effects spec tx with
    hc | ⟨hadd, hc | ⟨hmethod, refs, hbrowse, hc⟩⟩ <;> rw [hc] at hgrows ⊢
  · exact (h.addAll (hforeign _).1 hids).addAll (hforeign _).2 hids
  · exact owned_primary h hforeign hadd (by simpa [Transaction.ids, primaryNode] using hgrows.ids.subset)
  · have hall : tx.ids ++ [nodeId spec.path] ++
        (refs.filter (isArgumentReference (spaceWith effects spec tx.space))).map Reference.target ⊆ tf.ids := by
      simpa [Transaction.ids, primaryNode, Function.comp_def] using hgrows.ids.subset
    have hprimary : Transaction.Owned prior ⟨_, tx.ledger ++ [primaryNode componentRoot spec]⟩ :=
      owned_primary h hforeign hadd fun x hx => hall (List.mem_append_left _ hx)
    have hpids : Transaction.ids ⟨spaceWith effects spec tx.space, tx.ledger ++ [primaryNode componentRoot spec]⟩ =
        tx.ids ++ [nodeId spec.path] := by simp [Transaction.ids, primaryNode]
    obtain ⟨-, hfree, -, hargs, -⟩ := canAdd_iff.1 hadd
    have hpathIn : nodeId spec.path ∈ tf.ids := hall (by simp)
    obtain ⟨refs', hbrowse', hnodup, hmem⟩ := hdoc.browse (spaceWith effects spec tx.space) (nodeId spec.path)
      .properties (hprimary.present _ (by simp [Transaction.ids, primaryNode]))
    rw [hbrowse] at hbrowse'
    obtain rfl := Option.some.inj hbrowse'
    have hfound : ∀ r ∈ refs.filter (isArgumentReference (spaceWith effects spec tx.space)),
        r ∈ (spaceWith effects spec tx.space).references ∧
        ∃ a ∈ argumentNodes spec (effects spec.path), r = spec.argumentReference a := by
      intro r hr
      obtain ⟨hr, harg⟩ := List.mem_filter.1 hr
      obtain ⟨hin, hsource, haccepts⟩ := (hmem r).1 hr
      have htype : r.type = .hasProperty := by
        simp only [BrowseFilter.accepts, Bool.and_eq_true, decide_eq_true_eq] at haccepts
        exact haccepts.1
      exact ⟨hin, argument_of_browsed h hforeign hadd hmethod hpathIn hgrows.space hin hsource htype harg⟩
    refine hprimary.record _ ?_ ?_ ?_
    · simp only [List.map_map, Function.comp_def]
      refine List.Nodup.map_on (fun r hr q hq heq => ?_) (hnodup.filter _)
      obtain ⟨-, a, -, rfl⟩ := hfound r hr
      obtain ⟨-, b, -, rfl⟩ := hfound q hq
      simp only [NodeSpec.argumentReference] at heq ⊢
      rw [heq]
    · intro n hn
      obtain ⟨r, hr, rfl⟩ := List.mem_map.1 hn
      obtain ⟨hin, a, ha, rfl⟩ := hfound r hr
      have h0 := h.addAll (hforeign spec.path).1 hids
      refine ⟨fun hold => ?_, hprimary.wellFormed.target _ hin rfl, ?_⟩
      · rw [hpids] at hold
        rcases List.mem_append.1 hold with hold | hold
        · have hthere := h0.present _ hold
          rw [show (spec.argumentReference a).target = a.1 from rfl, hargs a ha] at hthere
          cases hthere
        · exact argumentNodes_ne ha spec.path (List.mem_singleton.1 hold)
      · by_contra hprior
        have hthere := h0.extends_prior.exists_of (by simpa using hprior)
        rw [show (spec.argumentReference a).target = a.1 from rfl, hargs a ha] at hthere
        cases hthere
    · intro n hn y hy
      obtain ⟨r, hr, rfl⟩ := List.mem_map.1 hn
      obtain ⟨-, a, ha, rfl⟩ := hfound r hr
      rw [hpids] at hy
      exact not_child_of_new h.wellFormed hforeign hadd (hargs a ha)
        (hall (by simpa [Function.comp_def] using hy)) fun heq => absurd heq (argumentNodes_ne ha spec.path)

end createSpec

/-! ## The whole candidate -/

theorem createSpecs_grows {native : Native} {componentRoot : Str} {effects : Str → Creation}
    (specs : List NodeSpec) : ∀ tx : Transaction, tx.Grows (createSpecs native componentRoot effects specs tx).1 := by
  induction specs with
  | nil => exact Transaction.Grows.refl
  | cons spec specs ih =>
      intro tx
      simp only [createSpecs]
      split
      · exact createSpec_grows.trans (ih _)
      · exact createSpec_grows

/-- So have all that went on. -/
theorem createSpecs_exists {native : Native} {componentRoot : Str} {effects : Str → Creation} (specs : List NodeSpec) :
    ∀ tx : Transaction, (createSpecs native componentRoot effects specs tx).2 = true → ∀ spec ∈ specs,
      (createSpecs native componentRoot effects specs tx).1.space.exists? (nodeId spec.path) = true := by
  induction specs with
  | nil => exact fun _ _ spec hspec => absurd hspec List.not_mem_nil
  | cons first rest ih =>
      intro tx h spec hspec
      simp only [createSpecs] at h ⊢
      split at h
      · rename_i hok
        rw [if_pos hok]
        rcases List.mem_cons.1 hspec with rfl | hspec
        · exact (createSpecs_grows rest _).space.exists_of (createSpec_exists hok)
        · exact ih _ h spec hspec
      · cases h

theorem createSpecs_owned {native : Native} {componentRoot : Str} {effects : Str → Creation}
    {prior : AddressSpace} {tf : Transaction} (hdoc : native.Documented)
    (hforeign : ∀ p, (effects p).before.Foreign tf ∧ (effects p).after.Foreign tf) (specs : List NodeSpec) :
    ∀ tx : Transaction, tx.Owned prior → (createSpecs native componentRoot effects specs tx).1.Grows tf →
      (createSpecs native componentRoot effects specs tx).1.Owned prior := by
  induction specs with
  | nil => exact fun _ h _ => h
  | cons spec specs ih =>
      intro tx h hgrows
      simp only [createSpecs] at hgrows ⊢
      split at hgrows
      · rename_i hok
        simp only [hok, ↓reduceIte]
        exact ih _ (createSpec_owned hdoc h hforeign ((createSpecs_grows specs _).trans hgrows)) hgrows
      · rename_i hok
        simp only [hok]
        exact createSpec_owned hdoc h hforeign hgrows

theorem createCandidate_owned {native : Native} {component : Str} {nodes : NodeMap} {effects : Str → Creation}
    {prior : AddressSpace} (hdoc : native.Documented) (hwf : prior.WellFormed)
    (hforeign : ∀ p, (effects p).before.Foreign (createCandidate native component nodes effects prior).1 ∧
      (effects p).after.Foreign (createCandidate native component nodes effects prior).1) :
    (createCandidate native component nodes effects prior).1.Owned prior :=
  createSpecs_owned hdoc hforeign _ _ (Transaction.Owned.init hwf) (Transaction.Grows.refl _)

end RttOpcua.Model
