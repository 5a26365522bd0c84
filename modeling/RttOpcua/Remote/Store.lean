import Mathlib.Data.List.Perm.Basic
import RttOpcua.Model.Lemmas.Hosts
import RttOpcua.Model.Theorems
import RttOpcua.Remote.Discovery

/-!
# The server of a client

Discovery asks a server for nodes below a component and for the components of a folder. After any run of publications,
by any models and with any failures, the server answers with the nodes of the snapshot that was committed.
-/

namespace RttOpcua.Remote

open RttOpcua.Lib RttOpcua.Model

/-- A browse request of a client: forward, `HasComponent` without its subtypes, and targets of one class. A client passes
over targets on other servers. -/
def clientBrowse (native : Native) (s : AddressSpace) (folder : Str) (kind : NodeKind) : Option (List NodeId) :=
  (native.browse s (nodeId folder) .hierarchical).map fun refs =>
    (refs.filter fun r => r.isLocal && decide (r.type = .hasComponent) &&
      (s.nodes r.target).any fun node => decide (node.nodeClass = kind)).map Reference.target

section Store

variable {native : Native} {s : System} {log : List (Nat × Str × PublishedComponent)}
  {e : Nat × Str × PublishedComponent}

/-- What the server has of a node of the snapshot. -/
theorem node_of_find (h : Hosts s log) (he : e ∈ log) {q : Str} {spec : NodeSpec}
    (hspec : e.2.2.nodes.find? q = some spec) : s.server.space.nodes (nodeId q) = some spec.node := by
  rw [h.nodes_below he ((h.snapshotted e he).below q spec hspec), hspec]
  rfl

/-- The references that a client is told of lead to the components of the folder in the snapshot. -/
theorem seen_iff (h : Hosts s log) (he : e ∈ log) {folder : Str} (hfolder : e.2.2.nodes.contains folder = true)
    (kind : NodeKind) (r : Reference) :
    (r ∈ s.server.space.references ∧ r.source = nodeId folder ∧ r.isLocal = true ∧ r.type = .hasComponent ∧
        (s.server.space.nodes r.target).any (fun node => decide (node.nodeClass = kind)) = true) ↔
      ∃ q spec, e.2.2.nodes.find? q = some spec ∧ r = spec.parentReference ∧ spec.parentPath = folder ∧
        spec.reference = .hasComponent ∧ spec.kind = kind := by
  have hkeys := (h.snapshotted e he).keys
  constructor
  · rintro ⟨hr, hsource, hlocal, htype, hclass⟩
    obtain ⟨owner, howner⟩ := Option.isSome_iff_exists.1 hfolder
    obtain ⟨q, spec, hspec, rfl⟩ := h.seen e he folder owner howner r hr ⟨⟨folder, hsource⟩, htype, hlocal⟩ hsource
    obtain rfl := hkeys q spec hspec
    have hnode : s.server.space.nodes spec.parentReference.target = some spec.node := node_of_find h he hspec
    rw [hnode] at hclass
    exact ⟨spec.path, spec, hspec, rfl, NodeId.path.inj hsource, htype, by simpa [NodeSpec.node] using hclass⟩
  · rintro ⟨q, spec, hspec, rfl, rfl, htype, rfl⟩
    obtain rfl := hkeys q spec hspec
    have hnode : s.server.space.nodes spec.parentReference.target = some spec.node := node_of_find h he hspec
    refine ⟨h.parents e he _ spec hspec, rfl, rfl, htype, ?_⟩
    rw [hnode]
    simp [NodeSpec.node]

/-- A client browses the components of the folder in the snapshot, in some order. -/
theorem clientBrowse_perm (hdoc : native.Documented) (h : Hosts s log) (he : e ∈ log) {folder : Str}
    (hfolder : e.2.2.nodes.contains folder = true) (kind : NodeKind) :
    ∃ specs : List NodeSpec, clientBrowse native s.server.space folder kind = some (specs.map fun spec => nodeId spec.path) ∧
      specs.Perm ((e.2.2.nodes.entries.map Prod.snd).filter fun spec =>
        decide (spec.parentPath = folder ∧ spec.reference = .hasComponent ∧ spec.kind = kind)) := by
  obtain ⟨owner, howner⟩ := Option.isSome_iff_exists.1 hfolder
  have hkeys := (h.snapshotted e he).keys
  obtain ⟨refs, hbrowse, hnodup, hmem⟩ := hdoc.browse s.server.space (nodeId folder) .hierarchical
    (h.exists_of he howner)
  have hspecs : ∀ spec, spec ∈ e.2.2.nodes.entries.map Prod.snd ↔ ∃ q, e.2.2.nodes.find? q = some spec := by
    intro spec
    simp only [List.mem_map, Prod.exists, exists_eq_right, OrdMap.mem_entries]
  have hinj : ∀ a ∈ e.2.2.nodes.entries.map Prod.snd, ∀ b ∈ e.2.2.nodes.entries.map Prod.snd, a.path = b.path → a = b := by
    intro a ha b hb hab
    obtain ⟨q, hq⟩ := (hspecs a).1 ha
    obtain ⟨q', hq'⟩ := (hspecs b).1 hb
    rw [← hkeys q a hq] at hq
    rw [← hkeys q' b hq', ← hab, hq] at hq'
    exact Option.some.inj hq'
  have hentries : (e.2.2.nodes.entries.map Prod.snd).Nodup := by
    refine List.Nodup.map_on (fun a ha b hb hab => ?_) e.2.2.nodes.sorted.nodup
    have ha' := hkeys a.1 a.2 (OrdMap.mem_entries.1 ha)
    have hb' := hkeys b.1 b.2 (OrdMap.mem_entries.1 hb)
    exact Prod.ext (ha'.symm.trans ((congrArg NodeSpec.path hab).trans hb')) hab
  have hperm : (refs.filter fun r => r.isLocal && decide (r.type = .hasComponent) &&
        (s.server.space.nodes r.target).any fun node => decide (node.nodeClass = kind)).Perm
      (((e.2.2.nodes.entries.map Prod.snd).filter fun spec =>
        decide (spec.parentPath = folder ∧ spec.reference = .hasComponent ∧ spec.kind = kind)).map
          NodeSpec.parentReference) := by
    refine (List.perm_ext_iff_of_nodup (hnodup.filter _) ?_).2 fun r => ?_
    · refine List.Nodup.map_on (fun a ha b hb hab => ?_) (hentries.filter _)
      refine hinj a (List.mem_filter.1 ha).1 b (List.mem_filter.1 hb).1 ?_
      exact NodeId.path.inj (congrArg Reference.target hab)
    · have hseen := seen_iff h he hfolder kind r
      simp only [List.mem_filter, List.mem_map, hspecs, Bool.and_eq_true, decide_eq_true_eq, hmem]
      constructor
      · rintro ⟨⟨hr, hsource, -⟩, ⟨hlocal, htype⟩, hclass⟩
        obtain ⟨q, spec, hspec, rfl, hconditions⟩ := hseen.1 ⟨hr, hsource, hlocal, htype, hclass⟩
        exact ⟨spec, ⟨⟨q, hspec⟩, hconditions⟩, rfl⟩
      · rintro ⟨spec, ⟨⟨q, hspec⟩, hconditions⟩, rfl⟩
        obtain ⟨hr, hsource, hlocal, htype, hclass⟩ := hseen.2 ⟨q, spec, hspec, rfl, hconditions⟩
        refine ⟨⟨hr, hsource, ?_⟩, ⟨hlocal, htype⟩, hclass⟩
        simp [BrowseFilter.accepts, htype, ReferenceType.isHierarchical]
  obtain ⟨specs, heq, hspecsPerm⟩ := (congrFun₂ (List.eq_map_comp_perm NodeSpec.parentReference) _ _).mpr hperm
  refine ⟨specs, ?_, hspecsPerm⟩
  rw [clientBrowse, hbrowse, Option.map_some, heq, List.map_map]
  rfl

/-- The store that discovery takes for the server. -/
theorem exists_store (hdoc : native.Documented) (h : Hosts s log) (he : e ∈ log) :
    ∃ store : RemoteStore, store.nodes = e.2.2.nodes ∧ ∀ folder kind, store.nodes.contains folder = true →
      clientBrowse native s.server.space folder kind =
        some ((store.browse folder kind).map fun spec => nodeId spec.path) := by
  have hbrowse : ∀ folder kind, ∃ specs : List NodeSpec,
      (e.2.2.nodes.contains folder = true →
        clientBrowse native s.server.space folder kind = some (specs.map fun spec => nodeId spec.path)) ∧
      specs.Perm ((e.2.2.nodes.entries.map Prod.snd).filter fun spec =>
        decide (spec.parentPath = folder ∧ spec.reference = .hasComponent ∧ spec.kind = kind)) := by
    intro folder kind
    by_cases hfolder : e.2.2.nodes.contains folder = true
    · obtain ⟨specs, hspecs, hperm⟩ := clientBrowse_perm hdoc h he hfolder kind
      exact ⟨specs, fun _ => hspecs, hperm⟩
    · exact ⟨_, fun h => absurd h hfolder, List.Perm.refl _⟩
  choose browse hbrowses hperm using hbrowse
  exact ⟨⟨e.2.2.nodes, browse, hperm⟩, rfl, hbrowses⟩

/-- The server hosts what was committed. After any calls of any models of one server, with any outcomes, on a server that
had no nodes of the model: no component is committed twice, whichever model commits it; no publication is left half rolled
back; below a component that is not committed there is no node, and below one that is committed are the nodes of its
snapshot, each at its parent, so that a client finds the store that discovery reads. Other code may add nodes and
references of its own, but removes none, takes no identifier of the model and gives its nodes no components. -/
theorem server_hosts_commits (native : Native) (hdoc : native.Documented) (fuel : Nat) (hfuel : 0 < fuel)
    (options : Nat → ObjectModelOptions) (server : ServerSpace) (hserver : server.space.WellFormed)
    (hnew : ∀ q, server.space.exists? (nodeId q) = false) (events : List Event)
    (hcivil : CivilRun native fuel options { server } events) :
    let s := run native fuel options { server } events
    let log := commits native fuel options { server } events
    (log.map fun e => componentPath e.2.1).Nodup ∧ (∀ i, (s.models i).abandoned = []) ∧
    (∀ name, (componentPath name ∉ log.map fun e => componentPath e.2.1) → ∀ q, Below name q →
      s.server.space.exists? (nodeId q) = false) ∧
    ∀ e ∈ log,
      (∀ q, Below e.2.1 q → s.server.space.nodes (nodeId q) = (e.2.2.nodes.find? q).map NodeSpec.node) ∧
      (∀ q spec, e.2.2.nodes.find? q = some spec → spec.parentReference ∈ s.server.space.references) ∧
      ∃ store : RemoteStore, store.nodes = e.2.2.nodes ∧ ∀ folder kind, store.nodes.contains folder = true →
        clientBrowse native s.server.space folder kind =
          some ((store.browse folder kind).map fun spec => nodeId spec.path) := by
  intro s log
  have hhosts : Hosts s log := by
    have hrun := hosts_run hdoc hfuel events (hosts_init hserver hnew) hcivil
    rwa [List.nil_append] at hrun
  refine ⟨hhosts.roots, hhosts.abandoned, fun name hname q hq => hhosts.nothing_below hname hq, fun e he => ?_⟩
  exact ⟨fun q hq => hhosts.nodes_below he hq, hhosts.parents e he, exists_store hdoc hhosts he⟩

/-- Other code adds nothing. -/
theorem keepsApart_of_silent {a : Attempt} (heffects : ∀ p, (a.effects p).before = {} ∧ (a.effects p).after = {})
    (hlate : a.late = {}) (tx : Transaction) : a.KeepsApart tx := by
  have hsilent : ({} : Additions).Foreign tx ∧ ({} : Additions).Apart :=
    ⟨foreign_of_no_references rfl, fun _ h => absurd h List.not_mem_nil, fun _ h => absurd h List.not_mem_nil⟩
  refine ⟨fun p => ?_, fun p => ?_, ?_⟩
  · rw [(heffects p).1]
    exact hsilent
  · rw [(heffects p).2]
    exact hsilent
  · rw [hlate]
    exact hsilent

/-- The calls of `twoModels`. -/
def crowded : List Event :=
  [.call 0 (.publishComponent (sampleComponent 0 (lit "a")) sampleAttempt),
    .call 1 (.publishComponent (sampleComponent 1 (lit "b")) sampleAttempt)]

theorem crowded_civil : CivilRun documentedNative 1 (fun _ => sampleOptions) { server := bareServer } crowded := by
  refine ⟨?_, ?_, trivial⟩
  all_goals intro c mode selectors a hcall
  all_goals cases hcall
  all_goals exact keepsApart_of_silent (fun _ => ⟨rfl, rfl⟩) rfl _

/-- A call that commits has the component that it publishes. -/
theorem commitOf_name {s : System} {i : Nat} {call : Call} {c : Component} {mode : PublicationMode}
    {selectors : List Str} {a : Attempt} (hcall : call.publication = some (c, mode, selectors, a))
    (h : (commitOf native fuel options s (.call i call)).isSome = true) :
    (commitOf native fuel options s (.call i call)).toList.map (fun e => (e.1, e.2.1)) = [(i, c.name)] := by
  obtain ⟨e, he⟩ := Option.isSome_iff_exists.1 h
  rw [he]
  simp only [commitOf, committed, hcall, Option.map_eq_some_iff] at he
  obtain ⟨found, hfound, rfl⟩ := he
  split at hfound
  · cases hfound
  · obtain ⟨p, -, rfl⟩ := Option.map_eq_some_iff.1 hfound
    rfl

theorem crowded_commits :
    (commits documentedNative 1 (fun _ => sampleOptions) { server := bareServer } crowded).map (fun e => (e.1, e.2.1)) =
      [(0, lit "a"), (1, lit "b")] := by
  have htrace := twoModels_trace
  simp only [twoModels, trace, List.cons.injEq, Prod.mk.injEq, and_true] at htrace
  obtain ⟨⟨-, ha, -⟩, -, hb, -⟩ := htrace
  simp only [crowded, commits, List.map_append, List.append_nil]
  rw [commitOf_name rfl ha, commitOf_name rfl hb]
  rfl

theorem crowded_roots :
    (commits documentedNative 1 (fun _ => sampleOptions) { server := bareServer } crowded).map
      (fun e => componentPath e.2.1) = [componentPath (lit "a"), componentPath (lit "b")] := by
  have hmap := congrArg (List.map fun e => componentPath e.2) crowded_commits
  rw [List.map_map] at hmap
  exact hmap

theorem bareServer_wellFormed : bareServer.space.WellFormed := ⟨by simp [bareServer], by simp [bareServer], List.nodup_nil⟩

theorem bareServer_new (q : Str) : bareServer.space.exists? (nodeId q) = false := by
  simp [bareServer, AddressSpace.exists?, nodeId, objectsFolder]

theorem server_hosts_commits_crowded :
    (commits documentedNative 1 (fun _ => sampleOptions) { server := bareServer } crowded).map (fun e => (e.1, e.2.1)) =
      [(0, lit "a"), (1, lit "b")] ∧
    (∀ q, Below (lit "c") q → (run documentedNative 1 (fun _ => sampleOptions) { server := bareServer }
      crowded).server.space.exists? (nodeId q) = false) ∧
    ∀ e ∈ commits documentedNative 1 (fun _ => sampleOptions) { server := bareServer } crowded,
      ∃ store : RemoteStore, store.nodes = e.2.2.nodes ∧ ∀ folder kind, store.nodes.contains folder = true →
        clientBrowse documentedNative (run documentedNative 1 (fun _ => sampleOptions) { server := bareServer }
            crowded).server.space folder kind =
          some ((store.browse folder kind).map fun spec => nodeId spec.path) := by
  obtain ⟨-, -, hnothing, hstores⟩ := server_hosts_commits documentedNative documentedNative_documented 1 (by decide)
    (fun _ => sampleOptions) bareServer bareServer_wellFormed bareServer_new crowded crowded_civil
  have hc : componentPath (lit "c") ∉ [componentPath (lit "a"), componentPath (lit "b")] := by decide +kernel
  rw [← crowded_roots] at hc
  exact ⟨crowded_commits, hnothing (lit "c") hc, fun e he => (hstores e he).2.2⟩

end Store

end RttOpcua.Remote
