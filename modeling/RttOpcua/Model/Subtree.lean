import RttOpcua.Lib.Worklist
import RttOpcua.Model.Transaction

/-!
# The search for a rollback subtree

`collectDescendantNodeIds` of `src/object_model.cpp` is a worklist search of the hierarchical children.
-/

namespace RttOpcua.Model

open Relation RttOpcua.Lib RttOpcua.Lib.Worklist

/-- A browse that succeeds returns the forward hierarchical references of the node. -/
def Native.BrowsesHierarchy (native : Native) (s : AddressSpace) : Prop :=
  ∀ id refs, native.browse s id .hierarchical = some refs →
    ∀ r, r ∈ refs ↔ r ∈ s.references ∧ r.source = id ∧ r.type.isHierarchical = true

/-- The local targets of the references of a node. -/
def localTargets (native : Native) (s : AddressSpace) (id : NodeId) : Option (List NodeId) :=
  (native.browse s id .hierarchical).map fun refs => (refs.filter Reference.isLocal).map Reference.target

variable {native : Native} {s : AddressSpace}

theorem collectLoop_eq_search (fuel : Nat) : ∀ pending found : List NodeId,
    collectLoop native s fuel pending found = search (localTargets native s) fuel pending found := by
  induction fuel with
  | zero =>
      intro pending found
      cases pending with
      | nil => simp [collectLoop, search]
      | cons x pending => simp [collectLoop, search]
  | succ fuel ih =>
      intro pending found
      cases pending with
      | nil => simp [collectLoop, search]
      | cons x pending =>
          cases hbrowse : native.browse s x .hierarchical with
          | none => simp [collectLoop, search, localTargets, hbrowse]
          | some refs =>
              simp only [collectLoop, search, localTargets, hbrowse, Option.map_some, ih]
              rfl

/-- The successors of a search are the children of the nodes that can be browsed. -/
theorem successor_iff (h : native.BrowsesHierarchy s) (x y : NodeId) :
    Successor (localTargets native s) x y ↔ native.browse s x .hierarchical ≠ none ∧ s.Child x y := by
  constructor
  · rintro ⟨ys, hys, hy⟩
    obtain ⟨refs, hbrowse, rfl⟩ := Option.map_eq_some_iff.1 hys
    obtain ⟨r, hr, rfl⟩ := List.mem_map.1 hy
    obtain ⟨hr, hlocal⟩ := List.mem_filter.1 hr
    obtain ⟨hin, hsource, htype⟩ := (h x refs hbrowse r).1 hr
    exact ⟨by simp [hbrowse], r, hin, hsource, rfl, hlocal, htype⟩
  · rintro ⟨hne, r, hin, hsource, rfl, hlocal, htype⟩
    obtain ⟨refs, hbrowse⟩ := Option.ne_none_iff_exists'.1 hne
    have hr : r ∈ refs := (h x refs hbrowse r).2 ⟨hin, hsource, htype⟩
    exact ⟨_, by rw [localTargets, hbrowse, Option.map_some], List.mem_map_of_mem (List.mem_filter.2 ⟨hr, hlocal⟩)⟩

theorem reach_of_successor (h : native.BrowsesHierarchy s) {root x : NodeId}
    (hreach : ReflTransGen (Successor (localTargets native s)) root x) : ReflTransGen s.Child root x :=
  ReflTransGen.mono (fun a b hab => ((successor_iff h a b).1 hab).2) _ _ hreach

/-- Where every browse succeeds, the search reaches what the children reach. -/
theorem transGen_successor_iff (h : native.BrowsesHierarchy s) {root : NodeId}
    (hbrowse : ∀ x, ReflTransGen s.Child root x → native.browse s x .hierarchical ≠ none) (x : NodeId) :
    TransGen (Successor (localTargets native s)) root x ↔ TransGen s.Child root x := by
  constructor
  · exact TransGen.mono (fun a b hab => ((successor_iff h a b).1 hab).2) _ _
  · intro hreach
    induction hreach with
    | single hstep => exact .single ((successor_iff h _ _).2 ⟨hbrowse root .refl, hstep⟩)
    | tail hreach hstep ih => exact .tail ih ((successor_iff h _ _).2 ⟨hbrowse _ hreach.to_reflTransGen, hstep⟩)

/-- Fuel for all rounds of a search: one for the root and one for each reference. -/
theorem rounds_le (root : NodeId) :
    rounds (s.references.map Reference.target).toFinset [root] [] ≤ s.references.length + 1 := by
  have hcard := List.toFinset_card_le (s.references.map Reference.target)
  rw [List.length_map] at hcard
  simp only [rounds, List.toFinset_nil, Finset.sdiff_empty, List.length_singleton]
  omega

/-- On any references, `collectDescendantNodeIds` ends after at most one round for the root and one for each reference,
whatever the browses do. It fails only on a node whose browse fails. If no browse fails, it finds each local node but
the root that forward hierarchical references reach from the root through local nodes, and no other. -/
theorem descendants_exact (native : Native) (s : AddressSpace) (root : NodeId) (h : native.BrowsesHierarchy s) :
    (∀ fuel, s.references.length + 1 ≤ fuel →
      collectDescendantNodeIds native fuel s root = collectDescendantNodeIds native (s.references.length + 1) s root) ∧
    (collectDescendantNodeIds native (s.references.length + 1) s root = none →
      ∃ x, ReflTransGen s.Child root x ∧ native.browse s x .hierarchical = none) ∧
    ((∀ x, ReflTransGen s.Child root x → native.browse s x .hierarchical ≠ none) →
      ∃ found, collectDescendantNodeIds native (s.references.length + 1) s root = some found ∧ found.Nodup ∧
        ∀ x, x ∈ found ↔ x ≠ root ∧ TransGen s.Child root x) := by
  have hbound : ∀ x y, Successor (localTargets native s) x y → y ∈ (s.references.map Reference.target).toFinset := by
    intro x y hstep
    obtain ⟨-, r, hr, -, rfl, -⟩ := (successor_iff h x y).1 hstep
    exact List.mem_toFinset.2 (List.mem_map_of_mem hr)
  have hcases := search_cases hbound ((Searching.init root)) (rounds_le root)
  refine ⟨fun fuel hfuel => ?_, fun hnone => ?_, fun hbrowse => ?_⟩
  · have hfuel' := search_fuel hbound ((rounds_le root).trans hfuel) (rounds_le root)
    simp only [collectDescendantNodeIds, collectLoop_eq_search, hfuel']
  · rcases hcases with ⟨x, hreach, hfails, -⟩ | ⟨found, hfound, -⟩
    · exact ⟨x, reach_of_successor h hreach, by simpa [localTargets] using hfails⟩
    · simp [collectDescendantNodeIds, collectLoop_eq_search, hfound] at hnone
  · rcases hcases with ⟨x, hreach, hfails, -⟩ | ⟨found, hfound, hsearching⟩
    · exact absurd (by simpa [localTargets] using hfails) (hbrowse x (reach_of_successor h hreach))
    · refine ⟨found.filter (· ≠ root), ?_, hsearching.nodup.filter _, fun x => ?_⟩
      · simp [collectDescendantNodeIds, collectLoop_eq_search, hfound]
      · rw [List.mem_filter, hsearching.mem_iff, transGen_successor_iff h hbrowse]
        simp [and_comm]

/-! ## A cycle through the root -/

/-- Nodes 1 and 2 are children of the root and share the child 3, which leads back to the root and to a node of another
server. -/
def cyclicSpace : AddressSpace where
  nodes
    | .other n => if n ≤ 3 then some ⟨.object, 0, []⟩ else none
    | .path _ => none
  references :=
    [⟨.other 0, .other 1, .hasComponent, true⟩, ⟨.other 0, .other 2, .organizes, true⟩,
      ⟨.other 1, .other 3, .hasComponent, true⟩, ⟨.other 2, .other 3, .organizes, true⟩,
      ⟨.other 3, .other 0, .organizes, true⟩, ⟨.other 3, .other 4, .organizes, false⟩]

/-- Browses succeed on every node, and nothing is deleted. -/
def browsing : Native where
  browse s id f := some (s.references.filter fun r => r.source = id && f.accepts s r)
  deleteReference s _ := (s, false)
  deleteNode s _ := (s, .bad)

theorem browsing_browsesHierarchy (s : AddressSpace) : browsing.BrowsesHierarchy s := by
  intro id refs hbrowse r
  cases hbrowse
  simp [BrowseFilter.accepts]

theorem descendants_exact_cycle :
    ∃ found, collectDescendantNodeIds browsing 7 cyclicSpace (.other 0) = some found ∧
      ∀ x, x ∈ found ↔ x ≠ .other 0 ∧ TransGen cyclicSpace.Child (.other 0) x := by
  obtain ⟨-, -, hfound⟩ := descendants_exact browsing cyclicSpace (.other 0) (browsing_browsesHierarchy cyclicSpace)
  obtain ⟨found, hsome, -, hmem⟩ := hfound fun x _ hnone => by cases hnone
  exact ⟨found, hsome, hmem⟩

end RttOpcua.Model
