import RttOpcua.Model.Lemmas.Creation
import RttOpcua.Model.Lemmas.Publish

/-!
# The revision node

What successful publications do to `rtt/model/revision`: the model that adds the node gives it its own
revision, and every commit writes the revision of the committing model.
-/

namespace RttOpcua.Model

open RttOpcua.Lib AddressSpace

/-- The value of the revision node, if it is there. -/
def revisionNode (server : ServerSpace) : Option Nat :=
  if server.space.exists? (nodeId revisionPath) then some server.revision else none

/-! ## The roots -/

theorem ensureRoot_extends (revision : Nat) (server : ServerSpace) (root : RootNode) :
    server.space.Extends (ensureRoot revision server root).space := by
  unfold ensureRoot
  split
  · exact Extends.refl _
  · exact (Extends.addNode _ _).trans (Extends.addReference _)

theorem ensureRoot_exists (revision : Nat) (server : ServerSpace) (root : RootNode) :
    (ensureRoot revision server root).space.exists? (nodeId root.path) = true := by
  unfold ensureRoot
  split
  · assumption
  · rename_i hnew
    simp [exists?, addNode_nodes_self (show server.space.exists? (nodeId root.path) = false by simpa using hnew)]

theorem ensureRootNodes_extends (revision : Nat) (fails : Str → Bool) (roots : List RootNode) :
    ∀ server : ServerSpace, server.space.Extends (ensureRootNodes revision fails roots server).1.space := by
  induction roots with
  | nil => exact fun _ => Extends.refl _
  | cons root rest ih =>
      intro server
      simp only [ensureRootNodes]
      split
      · exact Extends.refl _
      · exact (ensureRoot_extends revision server root).trans (ih _)

/-- With all roots ensured, each is there. -/
theorem ensureRootNodes_exists (revision : Nat) (fails : Str → Bool) (roots : List RootNode) :
    ∀ server : ServerSpace, (ensureRootNodes revision fails roots server).2 = true → ∀ root ∈ roots,
      (ensureRootNodes revision fails roots server).1.space.exists? (nodeId root.path) = true := by
  induction roots with
  | nil => simp
  | cons first rest ih =>
      intro server hok root hroot
      simp only [ensureRootNodes] at hok ⊢
      split at hok
      · cases hok
      · rename_i hfails
        simp only [hfails, Bool.false_eq_true, ↓reduceIte]
        rcases List.mem_cons.1 hroot with rfl | hroot
        · exact (ensureRootNodes_extends revision fails rest _).exists_of (ensureRoot_exists revision server root)
        · exact ih _ hok root hroot

/-! ## A successful publication -/

section Publish

variable (native : Native) (fuel : Nat)

/-- A commit writes the revision of its model. -/
theorem publicationTask_server (m : ObjectModelImpl) (server : ServerSpace) (name : Str)
    (candidate : PublishedComponent) (a : Attempt) (hwritten : a.revisionWritten = true)
    (hroots : m.rootsReady = true → server.space.exists? (nodeId revisionPath) = true)
    (hcommitted : (publicationTask native fuel m server name candidate a).committed = true) :
    (publicationTask native fuel m server name candidate a).model.rootsReady = true ∧
      revisionNode (publicationTask native fuel m server name candidate a).server = some (m.revision + 1) := by
  have hensure : ∀ m' server', ensureRoots m a.rootFails server = (m', server', true) →
      m'.rootsReady = true ∧ m'.revision = m.revision ∧ server'.space.exists? (nodeId revisionPath) = true := by
    intro m' server' heq
    unfold ensureRoots at heq
    split at heq
    · rename_i hready
      simp only [Prod.mk.injEq] at heq
      obtain ⟨rfl, rfl, -⟩ := heq
      exact ⟨hready, rfl, hroots hready⟩
    · split at heq
      · rename_i server'' hnodes
        simp only [Prod.mk.injEq] at heq
        obtain ⟨rfl, rfl, -⟩ := heq
        have hall := ensureRootNodes_exists m.revision a.rootFails rootNodes server (by rw [hnodes])
        rw [hnodes] at hall
        exact ⟨rfl, rfl, hall ⟨revisionPath, nodeId modelFolderPath, .hasComponent,
          ⟨.variable, 1, lit "revision"⟩⟩ (by simp [rootNodes])⟩
      · cases heq
  simp only [publicationTask] at hcommitted ⊢
  split at hcommitted
  · cases hcommitted
  · rename_i hindex
    simp only [hindex, ↓reduceIte]
    split at hcommitted
    · cases hcommitted
    · rename_i m' server' heq
      obtain ⟨hready, hrevision, hexists⟩ := hensure m' server' heq
      split at hcommitted
      · cases hcommitted
      · rename_i hcreated
        simp only [hcreated, ↓reduceIte, advanceRevision, hwritten]
        refine ⟨hready, ?_⟩
        simp only [revisionNode, hrevision]
        exact if_pos ((createSpecs_grows _ { space := server'.space }).space.exists_of hexists)

/-- A successful publication replays and leaves the server alone, or commits and writes the revision. -/
theorem publish_server (options : ObjectModelOptions) (m : ObjectModelImpl) (server : ServerSpace) (c : Component)
    (mode : PublicationMode) (selectors : List Str) (a : Attempt) (hwritten : a.revisionWritten = true)
    (hroots : m.rootsReady = true → server.space.exists? (nodeId revisionPath) = true)
    (hok : (publishComponentInternal native fuel options m server c mode selectors a).1.2.ok = true) :
    let out := publishComponentInternal native fuel options m server c mode selectors a
    (m.components.contains c.name = true ∧ out.1.1.rootsReady = m.rootsReady ∧ out.2 = server) ∨
    (m.components.contains c.name = false ∧ out.1.1.rootsReady = true ∧
      revisionNode out.2 = some (m.revision + 1)) := by
  intro out
  simp only [publishComponentInternal] at hok
  simp only [out, publishComponentInternal]
  cases hopen : m.admissionClosed with
  | true => simp [hopen, ObjectModelImpl.setFailure] at hok
  | false =>
      simp only [hopen, Bool.false_eq_true, ↓reduceIte] at hok ⊢
      cases hfind : m.components.find? c.name with
      | some existing =>
          simp only [hfind] at hok
          refine .inl ⟨by simp [OrdMap.contains, hfind], ?_, rfl⟩
          rcases replay_cases hopen hfind mode selectors with ⟨hfalse, -⟩ | ⟨-, heq, -⟩
          · rw [hok] at hfalse
            cases hfalse
          · simp only [heq]
            rfl
      | none =>
          simp only [hfind, publishNew] at hok
          refine .inr ⟨by simp [OrdMap.contains, hfind], ?_⟩
          simp only [publishNew]
          split at hok
          · cases hok
          · rename_i hrunning
            simp only [hrunning, ↓reduceIte]
            split at hok
            · cases hok
            · rename_i registry hregistry
              split at hok
              · cases hok
              · rename_i htimeout
                simp only [htimeout, ↓reduceIte]
                split at hok
                · cases hok
                · rename_i hdiag
                  rw [if_neg hdiag]
                  cases hexec : a.executed with
                  | false => simp [hexec, ObjectModelImpl.setFailure] at hok
                  | true =>
                      simp only [hexec, ↓reduceIte] at hok ⊢
                      split at hok
                      · rename_i hcommitted
                        simp only [hcommitted, ↓reduceIte]
                        exact publicationTask_server native fuel m server c.name _ a hwritten hroots hcommitted
                      · cases hok

end Publish

/-! ## Runs of successful publications -/

section Run

variable (native : Native) (fuel : Nat) (options : Nat → ObjectModelOptions)

/-- Every publication returns true and writes the revision. -/
def Succeed (s : System) : List (Nat × Call) → Prop
  | [] => True
  | (i, call) :: rest =>
      (∀ c mode selectors a, call.publication = some (c, mode, selectors, a) → a.revisionWritten = true ∧
        ∃ r, (step native fuel options s (.call i call)).2 = some r ∧ r.ok = true) ∧
      Succeed (step native fuel options s (.call i call)).1 rest

/-- The value of the node never decreases, and every commit increases it. -/
def RevisionMonotonic (s : System) : List (Nat × Call) → Prop
  | [] => True
  | (i, call) :: rest =>
      let s' := (step native fuel options s (.call i call)).1
      (∀ v, revisionNode s.server = some v → ∃ v', revisionNode s'.server = some v' ∧ v ≤ v') ∧
      (commitOf native fuel options s (.call i call) ≠ none → ∃ v', revisionNode s'.server = some v' ∧
        ∀ v, revisionNode s.server = some v → v < v') ∧
      RevisionMonotonic s' rest

/-- A model commits only while no other model of the server has committed anything. -/
def SoleCommitter (s : System) : List (Nat × Call) → Prop
  | [] => True
  | (i, call) :: rest =>
      (commitOf native fuel options s (.call i call) ≠ none → ∀ j ≠ i, (s.models j).revision = 0) ∧
      SoleCommitter (step native fuel options s (.call i call)).1 rest

/-- What can be seen of a run: for every call its result, whether it commits, and the node after it. -/
def trace (s : System) : List (Nat × Call) → List (Option Bool × Bool × Option Nat)
  | [] => []
  | (i, call) :: rest =>
      ((step native fuel options s (.call i call)).2.map PublishResult.ok,
        (commitOf native fuel options s (.call i call)).isSome,
        revisionNode (step native fuel options s (.call i call)).1.server) ::
      trace (step native fuel options s (.call i call)).1 rest

theorem succeed_of_trace (calls : List (Nat × Call))
    (hwritten : ∀ e ∈ calls, ∀ c mode selectors a, e.2.publication = some (c, mode, selectors, a) →
      a.revisionWritten = true) :
    ∀ s : System, (∀ e ∈ trace native fuel options s calls, e.1 = some true) →
      Succeed native fuel options s calls := by
  induction calls with
  | nil => exact fun _ _ => trivial
  | cons e rest ih =>
      obtain ⟨i, call⟩ := e
      intro s htrace
      simp only [trace, List.mem_cons, forall_eq_or_imp] at htrace hwritten
      refine ⟨fun c mode selectors a hpub => ⟨hwritten.1 c mode selectors a hpub, ?_⟩, ih hwritten.2 _ htrace.2⟩
      simpa using htrace.1

/-- At most one model has committed, and the node has its revision. -/
structure RevisionInv (s : System) : Prop where
  roots : ∀ i, (s.models i).rootsReady = true → s.server.space.exists? (nodeId revisionPath) = true
  sole : ∀ i j, 0 < (s.models i).revision → 0 < (s.models j).revision → i = j
  node : ∀ v, revisionNode s.server = some v ↔ ∃ i, (s.models i).revision = v ∧ 0 < v

theorem RevisionInv.init {server : ServerSpace} (h : server.space.exists? (nodeId revisionPath) = false) :
    RevisionInv { server } where
  roots _ hi := by cases hi
  sole _ _ hi := absurd hi (Nat.lt_irrefl 0)
  node v := by simp [revisionNode, h]; omega

variable {native fuel options} {s : System}

theorem exists_of_revisionNode {server : ServerSpace} {v : Nat} (h : revisionNode server = some v) :
    server.space.exists? (nodeId revisionPath) = true := by
  unfold revisionNode at h
  split at h
  · assumption
  · cases h

/-- A successful call commits and writes the revision of its model, or it changes no revision. -/
theorem step_revision (h : RevisionInv s) {i : Nat} {call : Call}
    (hok : ∀ c mode selectors a, call.publication = some (c, mode, selectors, a) → a.revisionWritten = true ∧
      ∃ r, (step native fuel options s (.call i call)).2 = some r ∧ r.ok = true) :
    let s' := (step native fuel options s (.call i call)).1
    (commitOf native fuel options s (.call i call) = none ∧ s'.server = s.server ∧
      (∀ j, (s'.models j).revision = (s.models j).revision) ∧
      ∀ j, (s'.models j).rootsReady = (s.models j).rootsReady) ∨
    (commitOf native fuel options s (.call i call) ≠ none ∧
      revisionNode s'.server = some ((s.models i).revision + 1) ∧
      ∀ j, (s'.models j).revision = if j = i then (s.models i).revision + 1 else (s.models j).revision) := by
  intro s'
  have hmodel : s'.models i = (perform native fuel (options i) (s.models i) s.server call).1.1 := by
    simp [s', step]
  have hother : ∀ j, j ≠ i → s'.models j = s.models j := fun j hj => by simp [s', step, hj]
  have hserver : s'.server = (perform native fuel (options i) (s.models i) s.server call).2 := rfl
  have hcommit : commitOf native fuel options s (.call i call) =
      (committed (s.models i) (perform native fuel (options i) (s.models i) s.server call).1.1 call).map (i, ·) := by
    rw [commitOf, ← hmodel]
  -- the revisions and the roots of all models, from those of the model that is called
  have hall : ∀ {α : Type} (f : ObjectModelImpl → α),
      f (perform native fuel (options i) (s.models i) s.server call).1.1 = f (s.models i) →
      ∀ j, f (s'.models j) = f (s.models j) := by
    intro α f hf j
    by_cases hj : j = i
    · rw [hj, hmodel, hf]
    · rw [hother j hj]
  cases hpub : call.publication with
  | none =>
      left
      have hnone : commitOf native fuel options s (.call i call) = none := by simp [hcommit, committed, hpub]
      cases call with
      | publishComponent | publishComponentSelected => cases hpub
      | beginShutdown => exact ⟨hnone, rfl, hall (·.revision) rfl, hall (·.rootsReady) rfl⟩
      | shutdown =>
          refine ⟨hnone, rfl, hall (·.revision) ?_, hall (·.rootsReady) ?_⟩ <;>
            cases honce : (s.models i).shutdownOnce <;> simp [perform, shutdown, beginShutdown, honce]
  | some x =>
      obtain ⟨c, mode, selectors, a⟩ := x
      obtain ⟨hwritten, r, hr, hrok⟩ := hok c mode selectors a hpub
      obtain ⟨r', hr', hcases⟩ := perform_publication native fuel (options i) (s.models i) s.server hpub
      obtain rfl : r' = r := Option.some.inj (hr'.symm.trans hr)
      obtain ⟨hm, hs, r'', hr'', hokInternal⟩ := perform_internal native fuel (options i) (s.models i) s.server hpub
      obtain rfl : r'' = r' := Option.some.inj (hr''.symm.trans hr')
      rcases publish_server native fuel (options i) (s.models i) s.server c mode selectors a hwritten
          (h.roots i) (hokInternal.symm.trans hrok) with ⟨hthere, hready, hkept⟩ | ⟨hnew, hready, hnode⟩
      · left
        refine ⟨by simp [hcommit, committed, hpub, hthere], by rw [hserver, hs, hkept], hall (·.revision) ?_,
          hall (·.rootsReady) (by rw [hm, hready])⟩
        rcases hcases with ⟨-, hk, -⟩ | ⟨-, hk, -⟩ | ⟨-, p, hc⟩
        · exact hk.revision
        · exact hk.revision
        · simp [OrdMap.contains, hc.new] at hthere
      · right
        rcases hcases with ⟨hfalse, -⟩ | ⟨-, -, -, p, hp, -⟩ | ⟨-, p, hc⟩
        · rw [hrok] at hfalse
          cases hfalse
        · simp [OrdMap.contains, hp] at hnew
        · refine ⟨?_, by rw [hserver, hs, hnode], fun j => ?_⟩
          · simp [hcommit, committed, hpub, hc.components, OrdMap.find?_emplace, OrdMap.contains, hc.new]
          · by_cases hj : j = i
            · rw [hj, hmodel, hc.revision, if_pos rfl]
            · rw [hother j hj, if_neg hj]

/-- The node is monotonic in a run of successful publications exactly when one model makes all commits. -/
theorem revisionMonotonic_iff (calls : List (Nat × Call)) :
    ∀ s : System, RevisionInv s → Succeed native fuel options s calls →
      (RevisionMonotonic native fuel options s calls ↔ SoleCommitter native fuel options s calls) := by
  induction calls with
  | nil => exact fun _ _ _ => Iff.rfl
  | cons e rest ih =>
      obtain ⟨i, call⟩ := e
      intro s h hsucceed
      obtain ⟨hok, hrest⟩ := hsucceed
      simp only [RevisionMonotonic, SoleCommitter]
      rcases step_revision h hok with ⟨hnone, hserver, hrevision, hready⟩ | ⟨hsome, hnode, hrevision⟩
      · have hinv : RevisionInv (step native fuel options s (.call i call)).1 := by
          refine ⟨fun j hj => ?_, fun j k hj hk => ?_, fun v => ?_⟩
          · rw [hserver]
            exact h.roots j (hready j ▸ hj)
          · rw [hrevision] at hj hk
            exact h.sole j k hj hk
          · simp only [hserver, hrevision]
            exact h.node v
        rw [ih _ hinv hrest, hserver]
        simp only [hnone, ne_eq, not_true_eq_false, false_implies, true_and]
        exact ⟨fun hm => hm.2, fun hm => ⟨fun v hv => ⟨v, hv, Nat.le_refl v⟩, hm⟩⟩
      · -- a commit increases the node if and only if no other model has committed
        have hstep : (∀ v, revisionNode s.server = some v → v < (s.models i).revision + 1) ↔
            ∀ j ≠ i, (s.models j).revision = 0 := by
          constructor
          · intro hv j hj
            by_contra hpos
            have hlt := hv _ ((h.node _).2 ⟨j, rfl, by omega⟩)
            exact hj (h.sole j i (by omega) (by omega))
          · intro hzero v hv
            obtain ⟨j, hj, hpos⟩ := (h.node v).1 hv
            by_cases hji : j = i
            · subst hji; omega
            · have := hzero j hji; omega
        simp only [hnode, hsome, ne_eq, not_false_eq_true, forall_const, Option.some.injEq, exists_eq_left',
          hstep]
        have hinv : (∀ j ≠ i, (s.models j).revision = 0) →
            RevisionInv (step native fuel options s (.call i call)).1 := by
          intro hzero
          have hvalue : ∀ j, ((step native fuel options s (.call i call)).1.models j).revision =
              if j = i then (s.models i).revision + 1 else 0 := by
            intro j
            rw [hrevision]
            split
            · rfl
            · rename_i hj
              exact hzero j hj
          refine ⟨fun _ _ => exists_of_revisionNode hnode, fun j k hj hk => ?_, fun v => ?_⟩
          · rw [hvalue] at hj hk
            split at hj
            · split at hk
              · simp_all
              · omega
            · omega
          · simp only [hnode, hvalue, Option.some.injEq]
            constructor
            · rintro rfl
              exact ⟨i, by simp, Nat.succ_pos _⟩
            · rintro ⟨j, hj, hpos⟩
              split at hj
              · exact hj
              · omega
        constructor
        · rintro ⟨-, hzero, hm⟩
          exact ⟨hzero, (ih _ (hinv hzero) hrest).1 hm⟩
        · rintro ⟨hzero, hm⟩
          exact ⟨fun v hv => Nat.le_of_lt (hstep.2 hzero v hv), hzero, (ih _ (hinv hzero) hrest).2 hm⟩

end Run

end RttOpcua.Model
