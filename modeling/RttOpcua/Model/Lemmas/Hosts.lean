import RttOpcua.Model.Lemmas.Space

/-!
# The server hosts what was committed

An invariant of runs: below the roots, the nodes of the model are those of the committed publications, however many models
made them and however many publications failed.
-/

namespace RttOpcua.Model

open RttOpcua.Lib AddressSpace

/-! ## One publication -/

section Publish

variable {native : Native} {m : ObjectModelImpl} {server : ServerSpace} {name : Str} {a : Attempt}

/-- The transaction of a publication that comes to create its candidate. -/
def candidateTransaction (native : Native) (m : ObjectModelImpl) (server : ServerSpace) (name : Str) (nodes : NodeMap)
    (a : Attempt) : Transaction :=
  (createCandidate native name nodes a.effects (ensureRoots m a.rootFails server).2.1.space).1

/-- The transaction that `publishNew` comes to. -/
def publicationTransaction (native : Native) (options : ObjectModelOptions) (m : ObjectModelImpl) (server : ServerSpace)
    (c : Component) (mode : PublicationMode) (selectors : List Str) (a : Attempt) : Transaction :=
  match options.typeRegistry with
  | none => { space := server.space }
  | some registry => candidateTransaction native m server c.name (snapshotComponent c registry mode selectors).nodes a

/-- What a publication leaves of the model and of the space. -/
structure Left (m m' : ObjectModelImpl) (s s' : AddressSpace) : Prop where
  ready : m'.rootsReady = true → RootsExist s'
  abandoned : m'.abandoned = m.abandoned
  extend : s.Extends s'

theorem publicationTask_space (hdoc : native.Documented) (fuel : Nat) (candidate : PublishedComponent)
    (hkeys : ∀ q spec, candidate.nodes.find? q = some spec → spec.path = q) (hs : server.space.WellFormed)
    (hready : m.rootsReady = true → RootsExist server.space)
    (ha : a.KeepsApart (candidateTransaction native m server name candidate.nodes a)) :
    let outcome := publicationTask native (fuel + 1) m server name candidate a
    Left m outcome.model server.space outcome.server.space ∧
      (outcome.committed = false ∧ outcome.rollbackComplete = true ∧
          LeavesModel server.space outcome.server.space ∨
        outcome.committed = true ∧ AddsNodes candidate.nodes server.space outcome.server.space) := by
  obtain ⟨hleaves, hready', hroots, habandoned⟩ := ensureRoots_leavesModel m a.rootFails hs hready
  -- a rollback of an empty ledger
  have hempty : ∀ {s : AddressSpace}, s.WellFormed →
      (closeAndRollback native (fuel + 1) [] a.late s).2 = true ∧
        LeavesModel s (closeAndRollback native (fuel + 1) [] a.late s).1 := by
    intro s hs
    have hforeign : a.late.Foreign { space := s } :=
      ⟨fun _ _ _ _ h => absurd h List.not_mem_nil, fun _ _ h => absurd h List.not_mem_nil⟩
    exact closeAndRollback_leavesModel hdoc fuel (Transaction.Owned.init hs) (Transaction.Made.init []) hs hforeign
      ha.late.2
  simp only [publicationTask]
  split
  · obtain ⟨hcomplete, hroll⟩ := hempty hs
    exact ⟨⟨fun h q hq => hroll.extend.exists_of (hready h q hq), rfl, hroll.extend⟩, .inl ⟨rfl, hcomplete, hroll⟩⟩
  · split
    · rename_i m' server' heq
      rw [heq] at hleaves hready' habandoned
      obtain ⟨hcomplete, hroll⟩ := hempty hleaves.wellFormed
      exact ⟨⟨fun h q hq => hroll.extend.exists_of (hready' h q hq), habandoned, (hleaves.trans hroll).extend⟩,
        .inl ⟨rfl, hcomplete, hleaves.trans hroll⟩⟩
    · rename_i m' server' heq
      simp only [candidateTransaction, heq] at ha
      rw [heq] at hleaves hready' hroots habandoned
      have hforeign := fun p => And.intro (ha.before p).1 (ha.after p).1
      have hapart := fun p => And.intro (ha.before p).2 (ha.after p).2
      have howned := createCandidate_owned hdoc hleaves.wellFormed hforeign
      split
      · have hmade : (createCandidate native name candidate.nodes a.effects server'.space).1.Made server'.space
            (creationSequence candidate.nodes) := createCandidate_made hapart
        obtain ⟨hcomplete, hroll⟩ := closeAndRollback_leavesModel hdoc fuel howned hmade hleaves.wellFormed ha.late.1
          ha.late.2
        exact ⟨⟨fun h q hq => hroll.extend.exists_of (hready' h q hq), habandoned, (hleaves.trans hroll).extend⟩,
          .inl ⟨rfl, hcomplete, hleaves.trans hroll⟩⟩
      · rename_i hcommit
        simp only [not_or, Decidable.not_not] at hcommit
        have hadds := createCandidate_adds hdoc hkeys hleaves (hroots rfl) hforeign hapart hcommit.1
        have hspace : (advanceRevision { m' with components := m'.components.emplace name candidate } a.revisionWritten
            { server' with space := (createCandidate native name candidate.nodes a.effects server'.space).1.space }).2.space =
              (createCandidate native name candidate.nodes a.effects server'.space).1.space := by
          unfold advanceRevision
          split
          all_goals rfl
        refine ⟨⟨fun _ => ?_, habandoned, ?_⟩, .inr ⟨rfl, ?_⟩⟩
        all_goals rw [hspace]
        · exact hadds.roots
        · exact hadds.extend
        · exact hadds

theorem Left.same {s : AddressSpace} {m' : ObjectModelImpl} (hready : m.rootsReady = true → RootsExist s)
    (hroots : m'.rootsReady = m.rootsReady) (habandoned : m'.abandoned = m.abandoned) : Left m m' s s :=
  ⟨fun h => hready (hroots ▸ h), habandoned, Extends.refl s⟩

theorem snapshot_keys {c : Component} {registry : TypeRegistry} {mode : PublicationMode} {selectors : List Str}
    (h : (snapshotComponent c registry mode selectors).diagnostics = []) (q : Str) (spec : NodeSpec)
    (hspec : (snapshotComponent c registry mode selectors).nodes.find? q = some spec) : spec.path = q :=
  ((complete_of_diagnostics h).find?_iff.1 hspec).2

/-- A publication commits, or leaves the model's nodes. -/
inductive Published (options : ObjectModelOptions) (m m' : ObjectModelImpl) (c : Component) (mode : PublicationMode)
    (selectors : List Str) (s s' : AddressSpace) : Prop where
  | failed : m'.components = m.components → LeavesModel s s' → Published options m m' c mode selectors s s'
  | committed (p : PublishedComponent) (registry : TypeRegistry) :
      options.typeRegistry = some registry → m.components.find? c.name = none →
      m'.components = m.components.emplace c.name p →
      (snapshotComponent c registry mode selectors).diagnostics = [] →
      p.nodes = (snapshotComponent c registry mode selectors).nodes → AddsNodes p.nodes s s' →
      Published options m m' c mode selectors s s'

theorem publishNew_space (hdoc : native.Documented) (fuel : Nat) (options : ObjectModelOptions) {c : Component}
    (hnew : m.components.find? c.name = none) (mode : PublicationMode) (selectors : List Str)
    (hs : server.space.WellFormed) (hready : m.rootsReady = true → RootsExist server.space)
    (ha : a.KeepsApart (publicationTransaction native options m server c mode selectors a)) :
    let out := publishNew native (fuel + 1) options m server c mode selectors a
    Left m out.1.1 server.space out.2.space ∧
      Published options m out.1.1 c mode selectors server.space out.2.space := by
  have hfail : ∀ {m' : ObjectModelImpl}, m'.components = m.components → m'.rootsReady = m.rootsReady →
      m'.abandoned = m.abandoned → Left m m' server.space server.space ∧
        Published options m m' c mode selectors server.space server.space :=
    fun hcomponents hroots habandoned =>
      ⟨Left.same hready hroots habandoned, .failed hcomponents (LeavesModel.refl hs)⟩
  simp only [publishNew]
  split
  · exact hfail rfl rfl rfl
  · split
    · exact hfail rfl rfl rfl
    · rename_i registry hregistry
      split
      · exact hfail rfl rfl rfl
      · split
        · exact hfail rfl rfl rfl
        · rename_i hdiag
          simp only [ne_eq, Decidable.not_not] at hdiag
          cases hexec : a.executed with
          | false => exact hfail rfl rfl rfl
          | true =>
              simp only [publicationTransaction, hregistry] at ha
              simp only [↓reduceIte]
              have htask := publicationTask_space hdoc fuel (⟨c.self, mode,
                (snapshotComponent c registry mode selectors).effectiveResources,
                (snapshotComponent c registry mode selectors).nodes⟩) (snapshot_keys hdiag) hs hready ha
              have hcases := publicationTask_cases native (fuel + 1) m server c.name ⟨c.self, mode,
                (snapshotComponent c registry mode selectors).effectiveResources,
                (snapshotComponent c registry mode selectors).nodes⟩ a
              generalize publicationTask native (fuel + 1) m server c.name _ a = outcome at htask hcases
              obtain ⟨hleft, ⟨hcommitted, hcomplete, hleaves⟩ | ⟨hcommitted, hadds⟩⟩ := htask
              · simp only [hcommitted, hcomplete, Bool.false_eq_true, ↓reduceIte]
                obtain ⟨-, hkeeps⟩ | ⟨hnot, -⟩ := hcases
                · exact ⟨⟨hleft.ready, hleft.abandoned, hleft.extend⟩, .failed hkeeps.components hleaves⟩
                · rw [hcommitted] at hnot
                  cases hnot
              · simp only [hcommitted, ↓reduceIte]
                obtain ⟨hnot, -⟩ | ⟨-, hcomponents, -⟩ := hcases
                · rw [hcommitted] at hnot
                  cases hnot
                · exact ⟨⟨hleft.ready, hleft.abandoned, hleft.extend⟩,
                    .committed _ registry hregistry hnew hcomponents hdiag rfl hadds⟩

theorem publish_space (hdoc : native.Documented) (fuel : Nat) (options : ObjectModelOptions) (c : Component) (mode : PublicationMode)
    (selectors : List Str) (hs : server.space.WellFormed) (hready : m.rootsReady = true → RootsExist server.space)
    (ha : a.KeepsApart (publicationTransaction native options m server c mode selectors a)) :
    let out := publishComponentInternal native (fuel + 1) options m server c mode selectors a
    Left m out.1.1 server.space out.2.space ∧
      Published options m out.1.1 c mode selectors server.space out.2.space := by
  simp only [publishComponentInternal]
  cases hopen : m.admissionClosed with
  | true => exact ⟨Left.same hready rfl rfl, .failed rfl (LeavesModel.refl hs)⟩
  | false =>
      simp only [Bool.false_eq_true, ↓reduceIte]
      cases hfind : m.components.find? c.name with
      | none => exact publishNew_space hdoc fuel options hfind mode selectors hs hready ha
      | some existing =>
          have hsame : (m.replay existing c mode selectors).1.components = m.components ∧
              (m.replay existing c mode selectors).1.rootsReady = m.rootsReady ∧
              (m.replay existing c mode selectors).1.abandoned = m.abandoned := by
            simp only [ObjectModelImpl.replay]
            repeat' split
            all_goals exact ⟨rfl, rfl, rfl⟩
          exact ⟨Left.same hready hsame.2.1 hsame.2.2, .failed hsame.1 (LeavesModel.refl hs)⟩

end Publish

/-! ## Below a component -/

/-- The node is the object of the component, or lies below it. -/
def Below (name q : Str) : Prop := splitPath (componentPath name) <+: splitPath q

theorem splitPath_componentPath (name : Str) :
    splitPath (componentPath name) = [lit "rtt", lit "components", escapeNodeIdSegment name] := by
  have hroot : splitPath componentsPath = [lit "rtt", lit "components"] := by decide +kernel
  rw [componentPath, appendNodeSegment, splitPath_append, hroot, splitPath_of_not_mem (slash_not_mem_escape name)]
  rfl

theorem Below.not_root {name q : Str} (h : Below name q) : q ∉ rootPaths := by
  intro hroot
  have hroots : ∀ q ∈ rootPaths, (splitPath q).take 2 ≠ [lit "rtt", lit "components"] ∨ (splitPath q).length < 3 := by
    decide +kernel
  obtain ⟨tail, htail⟩ := h
  rw [splitPath_componentPath] at htail
  rcases hroots q hroot with hne | hlength
  · rw [← htail] at hne
    exact hne rfl
  · have hthree := congrArg List.length htail
    simp only [List.cons_append, List.nil_append, List.length_cons] at hthree
    omega

/-- A node lies below one component. -/
theorem Below.unique {name name' q : Str} (h : Below name q) (h' : Below name' q) : componentPath name = componentPath name' := by
  obtain ⟨tail, htail⟩ := h
  obtain ⟨tail', htail'⟩ := h'
  refine splitPath_inj (List.append_inj_left (htail.trans htail'.symm) ?_)
  rw [splitPath_componentPath, splitPath_componentPath]
  rfl

/-! ## Runs -/

/-- What the snapshot of a published component is like. -/
structure Snapshotted (name : Str) (nodes : NodeMap) : Prop where
  keys : ∀ q spec, nodes.find? q = some spec → spec.path = q
  below : ∀ q spec, nodes.find? q = some spec → Below name q
  parents : ∀ q spec, nodes.find? q = some spec → spec.parentPath = componentsPath ∨ nodes.contains spec.parentPath = true
  root : nodes.contains (componentPath name) = true

theorem snapshotted {c : Component} {registry : TypeRegistry} {mode : PublicationMode} {selectors : List Str}
    (h : (snapshotComponent c registry mode selectors).diagnostics = []) :
    Snapshotted c.name (snapshotComponent c registry mode selectors).nodes := by
  have hcomplete := complete_of_diagnostics h
  have hroot : (snapshotComponent c registry mode selectors).nodes.find? (componentPath c.name) = some (rootSpec c) :=
    hcomplete.find?_iff.2 ⟨List.mem_cons_self, rfl⟩
  refine ⟨snapshot_keys h, fun q spec hspec => ?_, fun q spec hspec => ?_, by simp [OrdMap.contains, hroot]⟩
  all_goals obtain ⟨hmem, rfl⟩ := hcomplete.find?_iff.1 hspec
  · rcases List.mem_cons.1 hmem with rfl | hmem
    · exact List.prefix_rfl
    · obtain ⟨path, hpath, hmem⟩ := List.mem_flatMap.1 hmem
      obtain ⟨record, -, -, hplaced, hshape⟩ := hcomplete.shape hpath
      obtain ⟨-, tail, hsplit, -⟩ := hshape.mem hplaced hmem
      exact ⟨tail, hsplit.symm⟩
  · obtain ⟨-, hroot | ⟨parent, hparent, heq⟩⟩ := hcomplete.parent hmem
    · exact .inl hroot
    · refine .inr ?_
      rw [← heq, OrdMap.contains, hcomplete.find?_iff.2 ⟨hparent, rfl⟩]
      rfl

/-- The server has the nodes of the commits of `log`, and below the roots no others. -/
structure Hosts (s : System) (log : List (Nat × Str × PublishedComponent)) : Prop where
  wellFormed : s.server.space.WellFormed
  ready : ∀ i, (s.models i).rootsReady = true → RootsExist s.server.space
  abandoned : ∀ i, (s.models i).abandoned = []
  snapshotted : ∀ e ∈ log, Snapshotted e.2.1 e.2.2.nodes
  apart : ∀ e ∈ log, ∀ q spec, e.2.2.nodes.find? q = some spec → q ∉ rootPaths
  contents : ∀ q, q ∉ rootPaths → ∀ node, s.server.space.nodes (nodeId q) = some node ↔
    ∃ e ∈ log, ∃ spec, e.2.2.nodes.find? q = some spec ∧ spec.node = node
  parents : ∀ e ∈ log, ∀ q spec, e.2.2.nodes.find? q = some spec → spec.parentReference ∈ s.server.space.references
  seen : ∀ e ∈ log, ∀ q spec, e.2.2.nodes.find? q = some spec → ∀ r ∈ s.server.space.references, r.Seen →
    r.source = nodeId q → ∃ q' child, e.2.2.nodes.find? q' = some child ∧ r = child.parentReference
  roots : (log.map fun e => componentPath e.2.1).Nodup

namespace Hosts

variable {s s' : System} {log : List (Nat × Str × PublishedComponent)}

/-- The model's nodes stay. -/
theorem leaves (h : Hosts s log) (hspace : LeavesModel s.server.space s'.server.space)
    (hready : ∀ i, (s'.models i).rootsReady = true → RootsExist s'.server.space)
    (habandoned : ∀ i, (s'.models i).abandoned = []) : Hosts s' log where
  wellFormed := hspace.wellFormed
  ready := hready
  abandoned := habandoned
  snapshotted := h.snapshotted
  apart := h.apart
  contents q hq := by
    rw [hspace.nodes q hq]
    exact h.contents q hq
  parents e he q spec hspec := hspace.references (h.parents e he q spec hspec)
  seen e he q spec hspec r hr hseen hsource := by
    rcases hspace.seen r hr hseen with hr | ⟨root, hroot, hroots⟩
    · exact h.seen e he q spec hspec r hr hseen hsource
    · rw [hsource] at hroots
      obtain rfl := NodeId.path.inj hroots
      exact absurd hroot (h.apart e he q spec hspec)
  roots := h.roots

/-- What is committed exists. -/
theorem exists_of (h : Hosts s log) {e : Nat × Str × PublishedComponent} (he : e ∈ log) {q : Str} {spec : NodeSpec}
    (hspec : e.2.2.nodes.find? q = some spec) : s.server.space.exists? (nodeId q) = true := by
  rw [exists?, (h.contents q (h.apart e he q spec hspec) spec.node).2 ⟨e, he, spec, hspec, rfl⟩]
  rfl

/-- A commit. -/
theorem commits (h : Hosts s log) {i : Nat} {name : Str} {p : PublishedComponent} (hsnapshot : Snapshotted name p.nodes)
    (hspace : AddsNodes p.nodes s.server.space s'.server.space)
    (hready : ∀ i, (s'.models i).rootsReady = true → RootsExist s'.server.space)
    (habandoned : ∀ i, (s'.models i).abandoned = []) : Hosts s' (log ++ [(i, name, p)]) := by
  have hmem : ∀ e, e ∈ log ++ [(i, name, p)] ↔ e ∈ log ∨ e = (i, name, p) := by simp
  -- no path is in an earlier commit as well
  have hnew : ∀ q spec, p.nodes.find? q = some spec → ∀ e ∈ log, e.2.2.nodes.find? q = none := by
    intro q spec hspec e he
    cases hfind : e.2.2.nodes.find? q with
    | none => rfl
    | some other =>
        have hthere := h.exists_of he hfind
        rw [(hspace.fresh q spec hspec).2] at hthere
        cases hthere
  refine ⟨hspace.wellFormed, hready, habandoned, fun e he => ?_, fun e he q spec hspec => ?_, fun q hq node => ?_,
    fun e he q spec hspec => ?_, fun e he q spec hspec r hr hseen hsource => ?_, ?_⟩
  · rcases (hmem e).1 he with he | rfl
    · exact h.snapshotted e he
    · exact hsnapshot
  · rcases (hmem e).1 he with he | rfl
    · exact h.apart e he q spec hspec
    · exact (hspace.fresh q spec hspec).1
  · rw [hspace.contents q hq]
    cases hfind : p.nodes.find? q with
    | none =>
        simp only [Option.map_none, Option.none_or, h.contents q hq node]
        refine ⟨fun ⟨e, he, hrest⟩ => ⟨e, (hmem e).2 (.inl he), hrest⟩, fun ⟨e, he, spec, hspec, hnode⟩ => ?_⟩
        rcases (hmem e).1 he with he | rfl
        · exact ⟨e, he, spec, hspec, hnode⟩
        · rw [hfind] at hspec
          cases hspec
    | some spec =>
        simp only [Option.map_some, Option.some_or, Option.some.injEq]
        refine ⟨fun hnode => ⟨_, (hmem _).2 (.inr rfl), spec, hfind, hnode⟩, fun ⟨e, he, other, hother, hnode⟩ => ?_⟩
        rcases (hmem e).1 he with he | rfl
        · rw [hnew q spec hfind e he] at hother
          cases hother
        · rw [hfind] at hother
          obtain rfl := Option.some.inj hother
          exact hnode
  · rcases (hmem e).1 he with he | rfl
    · exact hspace.references (h.parents e he q spec hspec)
    · exact hspace.parents q spec hspec
  · rcases (hmem e).1 he with he | rfl
    · rcases hspace.seen r hr hseen with hr | ⟨root, hroot, hroots⟩ | ⟨path, child, hchild, rfl⟩
      · exact h.seen e he q spec hspec r hr hseen hsource
      · rw [hsource] at hroots
        obtain rfl := NodeId.path.inj hroots
        exact absurd hroot (h.apart e he q spec hspec)
      · -- the parent of a new node is new or a root
        have hparent : child.parentPath = q := NodeId.path.inj hsource
        rcases hsnapshot.parents path child hchild with hroot | hcontains
        · refine absurd ?_ (h.apart e he q spec hspec)
          rw [← hparent, hroot]
          decide
        · obtain ⟨parent, hfind⟩ := Option.isSome_iff_exists.1 hcontains
          rw [hparent] at hfind
          rw [hnew q parent hfind e he] at hspec
          cases hspec
    · rcases hspace.seen r hr hseen with hr | ⟨root, hroot, hroots⟩ | hchild
      · have hthere := h.wellFormed.source r hr
        rw [hsource, (hspace.fresh q spec hspec).2] at hthere
        cases hthere
      · rw [hsource] at hroots
        obtain rfl := NodeId.path.inj hroots
        exact absurd hroot (hspace.fresh q spec hspec).1
      · exact hchild
  · rw [List.map_append]
    refine List.nodup_append.2 ⟨h.roots, by simp, ?_⟩
    rintro other hother new hnewRoot rfl
    obtain ⟨e, he, rfl⟩ := List.mem_map.1 hother
    have hsame : componentPath e.2.1 = componentPath name := by simpa using hnewRoot
    obtain ⟨spec, hspec⟩ := Option.isSome_iff_exists.1 hsnapshot.root
    obtain ⟨old, hold⟩ := Option.isSome_iff_exists.1 (h.snapshotted e he).root
    rw [hsame, hnew _ spec hspec e he] at hold
    cases hold

/-- Below a committed component are the nodes of its snapshot. -/
theorem nodes_below (h : Hosts s log) {e : Nat × Str × PublishedComponent} (he : e ∈ log) {q : Str} (hq : Below e.2.1 q) :
    s.server.space.nodes (nodeId q) = (e.2.2.nodes.find? q).map NodeSpec.node := by
  ext node
  rw [h.contents q hq.not_root node, Option.map_eq_some_iff]
  refine ⟨fun ⟨other, hother, spec, hspec, hnode⟩ => ?_, fun ⟨spec, hspec, hnode⟩ => ⟨e, he, spec, hspec, hnode⟩⟩
  -- a node below it that is of some commit is of this one
  have hsame := hq.unique ((h.snapshotted other hother).below q spec hspec)
  obtain rfl := List.inj_on_of_nodup_map h.roots he hother hsame
  exact ⟨spec, hspec, hnode⟩

/-- Below a component that is not committed there is nothing. -/
theorem nothing_below (h : Hosts s log) {name q : Str} (hname : componentPath name ∉ log.map fun e => componentPath e.2.1)
    (hq : Below name q) : s.server.space.exists? (nodeId q) = false := by
  rw [Bool.eq_false_iff]
  intro hthere
  obtain ⟨node, hnode⟩ := Option.isSome_iff_exists.1 hthere
  obtain ⟨e, he, spec, hspec, -⟩ := (h.contents q hq.not_root node).1 hnode
  refine hname (List.mem_map.2 ⟨e, he, ?_⟩)
  exact ((h.snapshotted e he).below q spec hspec).unique hq

end Hosts

/-! ## Events -/

section Run

variable (native : Native) (fuel : Nat) (options : Nat → ObjectModelOptions)

/-- Other code keeps apart from the models: during a call, and between calls. -/
def Civil (s : System) : Event → Prop
  | .call i call => ∀ c mode selectors a, call.publication = some (c, mode, selectors, a) →
      a.KeepsApart (publicationTransaction native (options i) (s.models i) s.server c mode selectors a)
  | .foreign space => LeavesModel s.server.space space

def CivilRun (s : System) : List Event → Prop
  | [] => True
  | e :: rest => Civil native options s e ∧ CivilRun (step native fuel options s e).1 rest

variable {native fuel options} {s : System} {log : List (Nat × Str × PublishedComponent)}

theorem hosts_step (hdoc : native.Documented) (hfuel : 0 < fuel) (h : Hosts s log) {e : Event}
    (hcivil : Civil native options s e) :
    Hosts (step native fuel options s e).1 (log ++ (commitOf native fuel options s e).toList) := by
  obtain ⟨fuel, rfl⟩ : ∃ n, fuel = n + 1 := ⟨fuel - 1, by omega⟩
  cases e with
  | foreign space =>
      have hspace : LeavesModel s.server.space space := hcivil
      have hready : ∀ i, (s.models i).rootsReady = true → RootsExist space :=
        fun i hi q hq => hspace.extend.exists_of (h.ready i hi q hq)
      have hnext : Hosts ⟨s.models, { s.server with space }⟩ log := h.leaves hspace hready h.abandoned
      simpa [commitOf, step] using hnext
  | call i call =>
      cases hpub : call.publication with
      | none =>
          have hnone : commitOf native (fuel + 1) options s (.call i call) = none := by
            simp [commitOf, committed, hpub]
          have hsame : ((step native (fuel + 1) options s (.call i call)).1).server = s.server ∧
              ∀ j, ((step native (fuel + 1) options s (.call i call)).1.models j).rootsReady = (s.models j).rootsReady ∧
                (((step native (fuel + 1) options s (.call i call)).1.models j).abandoned = (s.models j).abandoned ∨
                  ((step native (fuel + 1) options s (.call i call)).1.models j).abandoned = []) := by
            cases call with
            | publishComponent | publishComponentSelected => cases hpub
            | beginShutdown =>
                refine ⟨rfl, fun j => ?_⟩
                by_cases hj : j = i
                · subst hj
                  simp [step, perform, beginShutdown]
                · simp [step, hj]
            | shutdown =>
                refine ⟨rfl, fun j => ?_⟩
                by_cases hj : j = i
                · subst hj
                  simp only [step, perform, shutdown, Function.update_self]
                  split
                  all_goals simp [beginShutdown]
                · simp [step, hj]
          obtain ⟨hserver, hmodels⟩ := hsame
          rw [hnone, Option.toList_none, List.append_nil]
          refine h.leaves ?_ (fun j hj => ?_) fun j => ?_
          · rw [hserver]
            exact LeavesModel.refl h.wellFormed
          · rw [hserver]
            exact h.ready j ((hmodels j).1 ▸ hj)
          · rcases (hmodels j).2 with hsame | hnil
            · rw [hsame, h.abandoned j]
            · exact hnil
      | some x =>
          obtain ⟨c, mode, selectors, a⟩ := x
          obtain ⟨hmodel, hserver, -⟩ := perform_internal native (fuel + 1) (options i) (s.models i) s.server hpub
          have hspace := publish_space hdoc fuel (options i) c mode selectors h.wellFormed (h.ready i)
            (hcivil c mode selectors a hpub)
          generalize publishComponentInternal native (fuel + 1) (options i) (s.models i) s.server c mode selectors a = out
            at hmodel hserver hspace
          have hstep : (step native (fuel + 1) options s (.call i call)).1 =
              ⟨Function.update s.models i out.1.1, out.2⟩ := by
            rw [← hmodel, ← hserver]
            rfl
          obtain ⟨hleft, hpublished⟩ := hspace
          have hready : ∀ j, (Function.update s.models i out.1.1 j).rootsReady = true → RootsExist out.2.space := by
            intro j hj
            by_cases hji : j = i
            · subst hji
              exact hleft.ready (by simpa using hj)
            · rw [Function.update_of_ne hji] at hj
              exact fun q hq => hleft.extend.exists_of (h.ready j hj q hq)
          have habandoned : ∀ j, (Function.update s.models i out.1.1 j).abandoned = [] := by
            intro j
            by_cases hji : j = i
            · subst hji
              simpa using hleft.abandoned.trans (h.abandoned j)
            · rw [Function.update_of_ne hji, h.abandoned j]
          have hcommit : commitOf native (fuel + 1) options s (.call i call) =
              (committed (s.models i) out.1.1 call).map (i, ·) := by
            simp [commitOf, hstep]
          rw [hstep, hcommit]
          cases hpublished with
          | failed hcomponents hleaves =>
              have hnone : committed (s.models i) out.1.1 call = none := by
                simp only [committed, hpub, hcomponents, OrdMap.contains]
                cases (s.models i).components.find? c.name
                all_goals simp
              rw [hnone, Option.map_none, Option.toList_none, List.append_nil]
              exact h.leaves hleaves hready habandoned
          | committed p registry hregistry hnew hcomponents hdiag hnodes hadds =>
              have hsome : committed (s.models i) out.1.1 call = some (c.name, p) := by
                simp [committed, hpub, hcomponents, OrdMap.find?_emplace, OrdMap.contains, hnew]
              rw [hsome]
              refine h.commits ?_ hadds hready habandoned
              rw [hnodes]
              exact snapshotted hdiag

theorem hosts_run (hdoc : native.Documented) (hfuel : 0 < fuel) (events : List Event) :
    ∀ {s : System} {log : List (Nat × Str × PublishedComponent)}, Hosts s log →
      CivilRun native fuel options s events →
        Hosts (run native fuel options s events) (log ++ commits native fuel options s events) := by
  induction events with
  | nil =>
      intro s log h _
      simpa [run, commits] using h
  | cons e rest ih =>
      intro s log h hcivil
      have hnext := ih (hosts_step hdoc hfuel h hcivil.1) hcivil.2
      simpa [run, commits] using hnext

/-- A server that no model has published on yet. -/
theorem hosts_init {server : ServerSpace} (hs : server.space.WellFormed)
    (hnew : ∀ q, server.space.exists? (nodeId q) = false) : Hosts { server } [] where
  wellFormed := hs
  ready i hi := by cases hi
  abandoned i := rfl
  snapshotted e he := absurd he List.not_mem_nil
  apart e he := absurd he List.not_mem_nil
  contents q _ node := by
    have hnone : server.space.nodes (nodeId q) = none := by simpa [exists?] using hnew q
    simp [hnone]
  parents e he := absurd he List.not_mem_nil
  seen e he := absurd he List.not_mem_nil
  roots := List.nodup_nil

end Run

end RttOpcua.Model
