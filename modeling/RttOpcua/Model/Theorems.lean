import RttOpcua.Model.Lemmas.Rollback
import RttOpcua.Model.Lemmas.Revision
import RttOpcua.Model.Lemmas.Diagnostics

/-!
# The object model
-/

namespace RttOpcua.Model

open RttOpcua.Lib

/-! ## The history of publications -/

/-- A model of a server after any calls on any models of the server, and its next publication. Its components
are what it committed, until its shutdown; a publication commits, replays or fails, and only a commit changes
the components and the revision. -/
theorem publication_history (native : Native) (fuel : Nat) (options : Nat → ObjectModelOptions)
    (server : ServerSpace) (events : List Event) (i : Nat) :
    let m := (run native fuel options { server } events).models i
    let log := commitsOf i (commits native fuel options { server } events)
    m.revision = log.length ∧ (log.map Prod.fst).Nodup ∧
    (.call i .shutdown ∉ events →
      m.components.size = m.revision ∧ ∀ name p, m.components.find? name = some p ↔ (name, p) ∈ log) ∧
    (.call i .shutdown ∈ events → m.components = ∅) ∧
    (∀ later name p, .call i .shutdown ∉ later → m.components.find? name = some p →
      ((run native fuel options { server } (events ++ later)).models i).components.find? name = some p) ∧
    (∀ name, m.components.contains name = true →
      m.failedPublications.find? name = none ∧ unsupportedResources m name = []) ∧
    (.call i .beginShutdown ∈ events ∨ .call i .shutdown ∈ events → m.admissionClosed = true) ∧
    ∀ (space : ServerSpace) (call : Call) (c : Component) (mode : PublicationMode) (selectors : List Str)
      (a : Attempt), call.publication = some (c, mode, selectors, a) →
      let m' := (perform native fuel (options i) m space call).1.1
      ∃ r, (perform native fuel (options i) m space call).1.2 = some r ∧
        (r.ok = true → m.admissionClosed = false ∧
          ((Matches m c mode selectors ∧ m'.components = m.components ∧ m'.revision = m.revision) ∨
            ∃ p, Commits (options i) m m' c mode selectors p)) ∧
        (r.ok = false →
          ¬ Matches m c mode selectors ∧ m'.components = m.components ∧ m'.revision = m.revision) ∧
        (Matches m c mode selectors →
          r.ok = true ∧ m'.components = m.components ∧ m'.revision = m.revision) := by
  intro m log
  have hrec : Recorded m log := by
    have hinit : Recorded (({ server } : System).models i) [] := Recorded.init
    simpa [log] using run_recorded native fuel options events hinit
  obtain ⟨hadm, honce⟩ := run_flags native fuel options i events { server }
  simp only [Bool.false_eq_true, false_or] at hadm honce
  refine ⟨hrec.revision, hrec.nodup, fun hopen => ?_, fun hclosed => (hrec.closed (honce.2 hclosed)).2, ?_,
    fun name hname => ?_, hadm.2, ?_⟩
  · have hfalse : m.shutdownOnce = false := by rw [Bool.eq_false_iff, ne_eq, honce]; exact hopen
    exact ⟨hrec.size hfalse, hrec.published hfalse⟩
  · intro later name p hopen hp
    rw [run, List.foldl_append]
    exact run_published native fuel options hrec later hopen hp
  · exact ⟨hrec.failed name hname, by simp [unsupportedResources, hrec.failed name hname]⟩
  · intro space call c mode selectors a hcall m'
    obtain ⟨r, hr, hcases⟩ := perform_publication native fuel (options i) m space hcall
    refine ⟨r, hr, ?_⟩
    rcases hcases with ⟨hok, hk, hnot⟩ | ⟨hok, hk, hmatch⟩ | ⟨hok, p, hc⟩
    · exact ⟨by simp [hok], fun _ => ⟨hnot, hk.components, hk.revision⟩, fun h => absurd h hnot⟩
    · exact ⟨fun _ => ⟨hmatch.1, .inl ⟨hmatch, hk.components, hk.revision⟩⟩, by simp [hok],
        fun _ => ⟨hok, hk.components, hk.revision⟩⟩
    · refine ⟨fun _ => ⟨hc.admitted, .inr ⟨p, hc⟩⟩, by simp [hok], fun h => ?_⟩
      obtain ⟨-, q, hq, -⟩ := h
      rw [hc.new] at hq
      cases hq

/-! ## The revision node -/

/-- Each model counts its own commits and writes that count to the node of all. On a server whose revision
node is still to be added, the node is monotonic exactly if one model makes all commits. -/
theorem revision_monotonic_iff (native : Native) (fuel : Nat) (options : Nat → ObjectModelOptions)
    (server : ServerSpace) (hnew : server.space.exists? (nodeId revisionPath) = false) (calls : List (Nat × Call))
    (hok : Succeed native fuel options { server } calls) :
    RevisionMonotonic native fuel options { server } calls ↔ SoleCommitter native fuel options { server } calls :=
  revisionMonotonic_iff calls { server } (RevisionInv.init hnew) hok

def sampleRegistry : TypeRegistry where
  getTypeName type := if type = 0 then lit "Bool" else lit "TaskState"
  type name := if name = lit "Bool" then some 0 else if name = lit "TaskState" then some 1 else none
  codecForTypeInfo type := if type < 2 then some ⟨true, type + 1, -1⟩ else none
  codecForTypeName name :=
    if name = lit "Bool" then some ⟨true, 1, -1⟩ else if name = lit "TaskState" then some ⟨true, 2, -1⟩ else none

/-- A component with the mandatory operations only. -/
def sampleComponent (self : Nat) (name : Str) : Component where
  self
  name
  root := some 0
  service _ :=
    { operationNames := kMandatoryOperations.map Prod.fst
      getOperation := fun operation =>
        (kMandatoryOperations.find? fun m => m.1 = operation).map fun m =>
          ⟨[], some [], sampleRegistry.type m.2, [], [sampleRegistry.type m.2]⟩ }

def sampleOptions : ObjectModelOptions := ⟨1000, some sampleRegistry⟩

/-- Argument nodes get identifiers of their own. -/
def sampleAttempt : Attempt where
  effects path := { outputArgumentsId := path.foldl (fun n b => 256 * n + b.toNat) 1 }

/-- A server with its objects folder. -/
def bareServer : ServerSpace where
  space :=
    { nodes := Function.update (fun _ => none) objectsFolder (some ⟨.object, 0, lit "Objects"⟩), references := [] }

/-- Two models publish a component each. -/
def twoModels : List (Nat × Call) :=
  [(0, .publishComponent (sampleComponent 0 (lit "a")) sampleAttempt),
    (1, .publishComponent (sampleComponent 1 (lit "b")) sampleAttempt)]

theorem twoModels_trace : trace documentedNative 1 (fun _ => sampleOptions) { server := bareServer } twoModels =
    [(some true, true, some 1), (some true, true, some 1)] := by
  decide +kernel

theorem twoModels_written {e : Nat × Call} (he : e ∈ twoModels) {c : Component} {mode : PublicationMode}
    {selectors : List Str} {a : Attempt} (hpub : e.2.publication = some (c, mode, selectors, a)) :
    a.revisionWritten = true := by
  simp only [twoModels, List.mem_cons, List.not_mem_nil, or_false] at he
  rcases he with rfl | rfl <;> simp only [Call.publication, Option.some.injEq, Prod.mk.injEq] at hpub <;>
    rw [← hpub.2.2.2] <;> rfl

theorem twoModels_succeed : Succeed documentedNative 1 (fun _ => sampleOptions) { server := bareServer } twoModels :=
  succeed_of_trace _ _ _ _ (fun _ he _ _ _ _ hpub => twoModels_written he hpub) _ (by simp [twoModels_trace])

/-- The second model commits, and the node stays at 1. -/
theorem revision_repeats : Succeed documentedNative 1 (fun _ => sampleOptions) { server := bareServer } twoModels ∧
    ¬ RevisionMonotonic documentedNative 1 (fun _ => sampleOptions) { server := bareServer } twoModels := by
  refine ⟨twoModels_succeed, fun h => ?_⟩
  have htrace := twoModels_trace
  simp only [twoModels, trace, List.cons.injEq, Prod.mk.injEq, and_true] at htrace
  obtain ⟨⟨-, -, hone⟩, -, hcommits, hagain⟩ := htrace
  simp only [twoModels, RevisionMonotonic] at h
  obtain ⟨v, hv, hlt⟩ := h.2.2.2.1 (Option.isSome_iff_ne_none.1 hcommits)
  have hless := hlt 1 hone
  rw [hagain] at hv
  cases hv
  exact Nat.lt_irrefl 1 hless

theorem revision_monotonic_iff_twoModels :
    Succeed documentedNative 1 (fun _ => sampleOptions) { server := bareServer } twoModels ∧
    (RevisionMonotonic documentedNative 1 (fun _ => sampleOptions) { server := bareServer } twoModels ↔
      SoleCommitter documentedNative 1 (fun _ => sampleOptions) { server := bareServer } twoModels) :=
  ⟨twoModels_succeed, revision_monotonic_iff documentedNative 1 (fun _ => sampleOptions) bareServer
    (by decide +kernel) twoModels twoModels_succeed⟩

/-! ## What a model stores about failures -/

/-- After a publication, in any run, the maps of a model have under its name what the call reported, unless it was
interrupted and something was stored before. So without such a call they have the last report of every name. -/
theorem stores_last_report (native : Native) (fuel : Nat) (options : Nat → ObjectModelOptions)
    (server : ServerSpace) (events : List Event) (i : Nat) :
    (∀ (call : Call) (c : Component) (mode : PublicationMode) (selectors : List Str) (a : Attempt),
      call.publication = some (c, mode, selectors, a) →
      let s := run native fuel options { server } events
      let reported :=
        (publishComponentInternal native fuel (options i) (s.models i) s.server c mode selectors a).1.2
      let m' := (step native fuel options s (.call i call)).1.models i
      publicationDiagnostics m' c.name = reported.diagnostics ∧ unsupportedResources m' c.name = reported.unsupported ↔
        ¬ (Interrupted native (options i) (s.models i) s.server c mode selectors a ∧
          (publicationDiagnostics (s.models i) c.name ≠ [] ∨ unsupportedResources (s.models i) c.name ≠ []))) ∧
    (.call i .shutdown ∉ events → Undisturbed native fuel options i { server } events → ∀ name,
      let m := (run native fuel options { server } events).models i
      let last := lastReport native fuel options i { server } name { ok := false } events
      publicationDiagnostics m name = last.diagnostics ∧ unsupportedResources m name = last.unsupported) := by
  have hinit : Recorded (({ server } : System).models i) [] := Recorded.init
  refine ⟨fun call c mode selectors a hcall => ?_, fun hopen hall name => ?_⟩
  · exact (step_stores native fuel options (run_recorded native fuel options events hinit) hcall).1
  · exact run_stores native fuel options events hinit hopen hall ⟨rfl, rfl⟩

/-- A selector that matches nothing. -/
def unmatched : Call := .publishComponentSelected (sampleComponent 0 (lit "a")) [lit "operations/none"] {}

/-- The same publication while the server is stopped. -/
def unmatchedStopped : Call :=
  .publishComponentSelected (sampleComponent 0 (lit "a")) [lit "operations/none"] { running := false }

theorem stores_last_report_unmatched :
    let s := run documentedNative 1 (fun _ => sampleOptions) { server := bareServer } []
    let m' := (step documentedNative 1 (fun _ => sampleOptions) s (.call 0 unmatched)).1.models 0
    publicationDiagnostics m' (lit "a") ≠ [] ∧
      publicationDiagnostics m' (lit "a") = (publishComponentInternal documentedNative 1 sampleOptions (s.models 0)
        s.server (sampleComponent 0 (lit "a")) .selected [lit "operations/none"] {}).1.2.diagnostics := by
  have hcall := (stores_last_report documentedNative 1 (fun _ => sampleOptions) bareServer [] 0).1 unmatched
    (sampleComponent 0 (lit "a")) .selected [lit "operations/none"] {} rfl
  have hnew := not_hasStored_new (lit "a")
  refine ⟨by decide +kernel, ?_⟩
  have hstores := Iff.mpr hcall
  have h2 := hstores (fun h => hnew h.2)
  exact And.left h2

/-- The diagnostics of the first call stay after the second, which reports none. -/
theorem diagnostics_outlive_call :
    let s := run documentedNative 1 (fun _ => sampleOptions) { server := bareServer } [.call 0 unmatched]
    let after := step documentedNative 1 (fun _ => sampleOptions) s (.call 0 unmatchedStopped)
    after.2.map PublishResult.diagnostics = some [] ∧ publicationDiagnostics (after.1.models 0) (lit "a") ≠ [] := by
  exact ⟨by decide +kernel, by decide +kernel⟩

/-! ## A failed publication -/

/-- Wherever `createCandidate` stops, the rollback is complete and removes the nodes of the ledger only: nodes
from before and nodes of other code stay, with every reference that has no end in the ledger. The loop of
`collectDescendantNodeIds` needs one round. -/
theorem closeAndRollback_exact (native : Native) (hdoc : native.Documented) (component : Str) (nodes : NodeMap)
    (effects : Str → Creation) (prior : AddressSpace) (hprior : prior.WellFormed) (late : Additions)
    (fuel : Nat) (hfuel : 0 < fuel)
    (hforeign : ∀ p, (effects p).before.Foreign (createCandidate native component nodes effects prior).1 ∧
      (effects p).after.Foreign (createCandidate native component nodes effects prior).1)
    (hlate : late.Foreign (createCandidate native component nodes effects prior).1) :
    let tx := (createCandidate native component nodes effects prior).1
    let before := tx.space.addAll late
    let after := (closeAndRollback native fuel tx.ledger late tx.space).1
    (closeAndRollback native fuel tx.ledger late tx.space).2 = true ∧
    (∀ created ∈ tx.ledger, after.exists? created.id = false) ∧
    (∀ id, prior.exists? id = true → id ∉ tx.ids ∧ after.nodes id = prior.nodes id) ∧
    (∀ id, id ∉ tx.ids → after.nodes id = before.nodes id) ∧
    (∀ r, r ∈ after.references ↔
      r ∈ before.references ∧ r.source ∉ tx.ids ∧ (r.isLocal = true → r.target ∉ tx.ids)) := by
  intro tx before after
  obtain ⟨n, rfl⟩ : ∃ n, fuel = n + 1 := ⟨fuel - 1, by omega⟩
  have howned := createCandidate_owned hdoc hprior hforeign
  have hlast := howned.addAll hlate fun _ h => h
  obtain ⟨t, hroll, hwithout⟩ := rollbackCreatedNodes_owned hdoc n hlast
  have hclose : closeAndRollback native (n + 1) tx.ledger late tx.space = (t, true) := hroll
  have hafter : after = t := by simp only [after, hclose]
  have hold : ∀ id, prior.exists? id = true → id ∉ tx.ids := by
    intro id hid hmem
    rw [howned.fresh id hmem] at hid
    cases hid
  refine ⟨by rw [hclose], fun created hc => ?_, fun id hid => ⟨hold id hid, ?_⟩, fun id hid => ?_, fun r => ?_⟩
  · rw [hafter, AddressSpace.exists?, hwithout.removed created.id (List.mem_map_of_mem hc)]
    rfl
  · rw [hafter, hwithout.kept id (hold id hid)]
    exact hlast.extends_prior id hid
  · rw [hafter, hwithout.kept id hid]
  · rw [hafter]
    exact hwithout.references r

/-- An address space with the folder of the components only. -/
def emptyModel : AddressSpace where
  nodes := Function.update (fun _ => none) (nodeId componentsPath) (some ⟨.object, 1, lit "components"⟩)
  references := []

theorem emptyModel_wellFormed : emptyModel.WellFormed := ⟨by simp [emptyModel], by simp [emptyModel], List.nodup_nil⟩

/-- A component with one method, which has one input. -/
def oneMethod : NodeMap :=
  insertNode (insertNode OrdMap.empty (objectSpec (componentPath (lit "c")) componentsPath (lit "c") []))
    (operationSpec (componentPath (lit "c")) (lit "m") [] { inputs := [⟨lit "a", [], 1, 1⟩] })

/-- A callback puts a foreign node under the component, and the arguments of the method do not read back. -/
def graftedArgument (p : Str) : Creation :=
  if p = appendNodeSegment (componentPath (lit "c")) (lit "m") then
    { validates := fun _ => false
      inputArgumentsId := 1
      after := ⟨[(.other 7, ⟨.variable, 1, lit "foreign"⟩)],
        [{ source := nodeId (componentPath (lit "c")), target := .other 7, type := .organizes }]⟩ }
  else {}

theorem foreign_of_no_references {tx : Transaction} {a : Additions} (h : a.references = []) : a.Foreign tx :=
  ⟨by simp [h], by simp [h]⟩

theorem graftedArgument_foreign (p : Str) :
    (graftedArgument p).before.Foreign
        (createCandidate documentedNative (lit "c") oneMethod graftedArgument emptyModel).1 ∧
      (graftedArgument p).after.Foreign
        (createCandidate documentedNative (lit "c") oneMethod graftedArgument emptyModel).1 := by
  by_cases hp : p = appendNodeSegment (componentPath (lit "c")) (lit "m")
  · simp only [graftedArgument, hp, ↓reduceIte]
    refine ⟨foreign_of_no_references rfl, ⟨?_, ?_⟩⟩
    · simp only [List.mem_singleton, forall_eq]
      intro _ _
      decide +kernel
    · simp
  · simp only [graftedArgument, hp, ↓reduceIte]
    exact ⟨foreign_of_no_references rfl, foreign_of_no_references rfl⟩

/-- The component, its method and the argument node go, and the foreign node stays. -/
theorem closeAndRollback_exact_grafted :
    let tx := (createCandidate documentedNative (lit "c") oneMethod graftedArgument emptyModel).1
    let after := (closeAndRollback documentedNative 1 tx.ledger {} tx.space).1
    (createCandidate documentedNative (lit "c") oneMethod graftedArgument emptyModel).2 = false ∧
    tx.ids = [nodeId (componentPath (lit "c")), nodeId (appendNodeSegment (componentPath (lit "c")) (lit "m")),
      .other 1] ∧
    (closeAndRollback documentedNative 1 tx.ledger {} tx.space).2 = true ∧
    (∀ created ∈ tx.ledger, after.exists? created.id = false) ∧
    after.nodes (.other 7) = some ⟨.variable, 1, lit "foreign"⟩ := by
  intro tx after
  obtain ⟨hcomplete, hgone, -, hkept, -⟩ := closeAndRollback_exact documentedNative documentedNative_documented
    (lit "c") oneMethod graftedArgument emptyModel emptyModel_wellFormed {} 1 (by decide) graftedArgument_foreign
    (foreign_of_no_references rfl)
  refine ⟨by decide +kernel, by decide +kernel, hcomplete, hgone, ?_⟩
  rw [hkept (.other 7) (by decide +kernel)]
  decide +kernel

end RttOpcua.Model
