import RttOpcua.Model.Lemmas.Publish

/-!
# What a publication stores

The two maps of a model against what the call reports. The exits through `setFailure` leave both maps alone, and
report nothing.
-/

namespace RttOpcua.Model

open RttOpcua.Lib

/-- The maps have for `name` what the call reported. -/
def Stores (m : ObjectModelImpl) (name : Str) (reported : PublishResult) : Prop :=
  publicationDiagnostics m name = reported.diagnostics ∧ unsupportedResources m name = reported.unsupported

/-- The maps have something for `name`. -/
def HasStored (m : ObjectModelImpl) (name : Str) : Prop :=
  publicationDiagnostics m name ≠ [] ∨ unsupportedResources m name ≠ []

/-- The maps have the same for `name`. -/
structure SameStored (m m' : ObjectModelImpl) (name : Str) : Prop where
  failed : m'.failedPublications.find? name = m.failedPublications.find? name
  diagnostics : m'.publicationDiagnostics.find? name = m.publicationDiagnostics.find? name

/-- The transaction of a candidate commits: the server executes the task, knows the namespace, has or adds the roots
and all nodes of the candidate, and nothing throws. -/
def CommitsTransaction (native : Native) (m : ObjectModelImpl) (server : ServerSpace) (name : Str) (nodes : NodeMap)
    (a : Attempt) : Prop :=
  a.executed = true ∧ a.namespaceIndex = true ∧ (ensureRoots m a.rootFails server).2.2 = true ∧
    (createCandidate native name nodes a.effects (ensureRoots m a.rootFails server).2.1.space).2 = true ∧
    a.throws = false

/-- The call ends without a look at the selectors and resources, or after they were found valid and without a commit. -/
def Interrupted (native : Native) (options : ObjectModelOptions) (m : ObjectModelImpl) (server : ServerSpace)
    (c : Component) (mode : PublicationMode) (selectors : List Str) (a : Attempt) : Prop :=
  m.admissionClosed = true ∨
    m.components.find? c.name = none ∧
      (a.running = false ∨ options.typeRegistry = none ∨ options.operationTimeout ≤ 0 ∨
        ∃ registry, options.typeRegistry = some registry ∧
          (snapshotComponent c registry mode selectors).diagnostics = [] ∧
          ¬ CommitsTransaction native m server c.name (snapshotComponent c registry mode selectors).nodes a)

theorem not_hasStored_new (name : Str) : ¬ HasStored {} name := by
  simp [HasStored, publicationDiagnostics, unsupportedResources]

/-! ## The exits -/

section Exits

variable {m m' : ObjectModelImpl} {name : Str}

theorem SameStored.refl (m : ObjectModelImpl) (name : Str) : SameStored m m name := ⟨rfl, rfl⟩

/-- An exit that reports nothing and leaves the maps is right exactly if they have nothing. -/
theorem SameStored.stores_iff (h : SameStored m m' name) {reported : PublishResult} (hd : reported.diagnostics = [])
    (hu : reported.unsupported = []) : Stores m' name reported ↔ ¬ HasStored m name := by
  simp only [Stores, HasStored, publicationDiagnostics, unsupportedResources, h.failed, h.diagnostics, hd, hu]
  tauto

theorem setSuccess_stores (m : ObjectModelImpl) (name : Str) :
    Stores (m.setSuccess name).1 name (m.setSuccess name).2 := by
  simp [Stores, ObjectModelImpl.setSuccess, publicationDiagnostics, unsupportedResources]

theorem rejectReplay_stores (m : ObjectModelImpl) (name : Str) (diagnostics : List PublicationDiagnostic) :
    Stores (m.rejectReplay name diagnostics).1 name (m.rejectReplay name diagnostics).2 := by
  simp [Stores, ObjectModelImpl.rejectReplay, publicationDiagnostics, unsupportedResources]

theorem rejectSnapshot_stores (m : ObjectModelImpl) (name : Str) (mode : PublicationMode)
    (snapshot : ComponentSnapshot) :
    Stores (m.rejectSnapshot name mode snapshot).1 name (m.rejectSnapshot name mode snapshot).2 := by
  simp [Stores, ObjectModelImpl.rejectSnapshot, publicationDiagnostics, unsupportedResources]

/-- A conflict leaves the unsupported resources; a published component has none. -/
theorem rejectPublicationConflict_stores (hf : m.failedPublications.find? name = none) (reason : Str) :
    Stores (m.rejectPublicationConflict name reason).1 name (m.rejectPublicationConflict name reason).2 := by
  simp [Stores, ObjectModelImpl.rejectPublicationConflict, publicationDiagnostics, unsupportedResources, hf]

theorem replay_stores {c : Component} (existing : PublishedComponent) (mode : PublicationMode) (selectors : List Str)
    (hf : m.failedPublications.find? c.name = none) :
    Stores (m.replay existing c mode selectors).1 c.name (m.replay existing c mode selectors).2 := by
  simp only [ObjectModelImpl.replay]
  split
  · exact rejectPublicationConflict_stores hf _
  · split
    · exact rejectPublicationConflict_stores hf _
    · cases mode with
      | full => exact setSuccess_stores m c.name
      | selected =>
          simp only
          split
          · exact rejectPublicationConflict_stores hf _
          · split
            · exact rejectReplay_stores m c.name _
            · exact setSuccess_stores m c.name

section Others

variable {other : Str}

theorem setSuccess_others (hother : other ≠ name) : SameStored m (m.setSuccess name).1 other := by
  constructor <;> simp [ObjectModelImpl.setSuccess, hother]

theorem rejectPublicationConflict_others (hother : other ≠ name) (reason : Str) :
    SameStored m (m.rejectPublicationConflict name reason).1 other := by
  constructor <;> simp [ObjectModelImpl.rejectPublicationConflict, hother]

theorem rejectReplay_others (hother : other ≠ name) (diagnostics : List PublicationDiagnostic) :
    SameStored m (m.rejectReplay name diagnostics).1 other := by
  constructor <;> simp [ObjectModelImpl.rejectReplay, hother]

theorem rejectSnapshot_others (hother : other ≠ name) (mode : PublicationMode) (snapshot : ComponentSnapshot) :
    SameStored m (m.rejectSnapshot name mode snapshot).1 other := by
  constructor <;> simp [ObjectModelImpl.rejectSnapshot, hother]

end Others

theorem replay_others {c : Component} (existing : PublishedComponent) (mode : PublicationMode) (selectors : List Str)
    {other : Str} (hother : other ≠ c.name) : SameStored m (m.replay existing c mode selectors).1 other := by
  simp only [ObjectModelImpl.replay]
  split
  · exact rejectPublicationConflict_others hother _
  · split
    · exact rejectPublicationConflict_others hother _
    · cases mode with
      | full => exact setSuccess_others hother
      | selected =>
          simp only
          split
          · exact rejectPublicationConflict_others hother _
          · split
            · exact rejectReplay_others hother _
            · exact setSuccess_others hother

end Exits

/-! ## The calls -/

section Calls

variable (native : Native) (fuel : Nat) {m : ObjectModelImpl}

theorem ensureRoots_model (m : ObjectModelImpl) (fails : Str → Bool) (server : ServerSpace) :
    ∃ ready, (ensureRoots m fails server).1 = { m with rootsReady := ready } := by
  unfold ensureRoots
  split
  · exact ⟨m.rootsReady, rfl⟩
  · split
    · exact ⟨true, rfl⟩
    · exact ⟨m.rootsReady, rfl⟩

/-- The task touches neither map, and commits as its steps succeed. -/
theorem publicationTask_stores (server : ServerSpace) (candidate : PublishedComponent) (a : Attempt) {name : Str}
    (hnew : m.components.find? name = none) (hexec : a.executed = true) :
    let outcome := publicationTask native fuel m server name candidate a
    (∀ other, SameStored m outcome.model other) ∧
      (outcome.committed = true ↔ CommitsTransaction native m server name candidate.nodes a) := by
  obtain ⟨ready, hm⟩ := ensureRoots_model m a.rootFails server
  simp only [publicationTask, CommitsTransaction, hexec, true_and]
  cases hindex : a.namespaceIndex with
  | false => simp [rollBack, SameStored.refl]
  | true =>
      rcases hroots : ensureRoots m a.rootFails server with ⟨m', server', ok⟩
      rw [hroots] at hm
      obtain rfl : m' = { m with rootsReady := ready } := hm
      have hcontains : m.components.contains name = false := by simp [OrdMap.contains, hnew]
      cases ok with
      | false => exact ⟨fun _ => ⟨rfl, rfl⟩, by simp [rollBack]⟩
      | true =>
          simp only [not_true_eq_false, ↓reduceIte]
          split
          case isTrue hstop =>
            refine ⟨fun _ => ⟨rfl, rfl⟩, ?_⟩
            simp only [rollBack, Bool.false_eq_true, false_iff, true_and, not_and, Bool.not_eq_false]
            intro hcreated
            simpa [hcreated, hcontains] using hstop
          case isFalse hstop =>
            simp only [not_or, Bool.not_eq_true] at hstop
            exact ⟨fun _ => ⟨rfl, rfl⟩, by simp [hstop]⟩

/-- A first publication: the maps have what it reported, unless it was interrupted and they had something before. -/
theorem publishNew_stores (options : ObjectModelOptions) (server : ServerSpace) (c : Component)
    (mode : PublicationMode) (selectors : List Str) (a : Attempt) (hopen : m.admissionClosed = false)
    (hnew : m.components.find? c.name = none) :
    let out := publishNew native fuel options m server c mode selectors a
    Stores out.1.1 c.name out.1.2 ↔
      ¬ (Interrupted native options m server c mode selectors a ∧ HasStored m c.name) := by
  have interrupted : ∀ {m' reported}, SameStored m m' c.name → reported.diagnostics = [] → reported.unsupported = [] →
      Interrupted native options m server c mode selectors a →
      (Stores m' c.name reported ↔ ¬ (Interrupted native options m server c mode selectors a ∧ HasStored m c.name)) :=
    fun h hd hu hint => by rw [h.stores_iff hd hu]; simp [hint]
  have complete : ∀ {m' reported}, Stores m' c.name reported →
      ¬ Interrupted native options m server c mode selectors a →
      (Stores m' c.name reported ↔ ¬ (Interrupted native options m server c mode selectors a ∧ HasStored m c.name)) :=
    fun h hint => by simp [h, hint]
  simp only [publishNew]
  split
  case isTrue hrun =>
    exact interrupted ⟨rfl, rfl⟩ rfl rfl (.inr ⟨hnew, .inl (by simpa using hrun)⟩)
  case isFalse hrun =>
    simp only [Bool.not_eq_true, Bool.not_eq_false] at hrun
    split
    case h_1 hregistry => exact interrupted ⟨rfl, rfl⟩ rfl rfl (.inr ⟨hnew, .inr (.inl hregistry)⟩)
    case h_2 registry hregistry =>
      split
      case isTrue htime => exact interrupted ⟨rfl, rfl⟩ rfl rfl (.inr ⟨hnew, .inr (.inr (.inl htime))⟩)
      case isFalse htime =>
        -- Only the transaction is left to interrupt the call.
        have hint : Interrupted native options m server c mode selectors a ↔
            (snapshotComponent c registry mode selectors).diagnostics = [] ∧
              ¬ CommitsTransaction native m server c.name (snapshotComponent c registry mode selectors).nodes a := by
          simp [Interrupted, hopen, hnew, hrun, hregistry, htime]
        split
        case isTrue hdiag => exact complete (rejectSnapshot_stores m c.name mode _) (by simp [hint, hdiag])
        case isFalse hdiag =>
          simp only [ne_eq, Decidable.not_not] at hdiag
          cases hexec : a.executed with
          | false => exact interrupted ⟨rfl, rfl⟩ rfl rfl (hint.2 ⟨hdiag, by simp [CommitsTransaction, hexec]⟩)
          | true =>
              simp only [↓reduceIte]
              obtain ⟨hsame, hcommitted⟩ := publicationTask_stores native fuel server ⟨c.self, mode,
                (snapshotComponent c registry mode selectors).effectiveResources,
                (snapshotComponent c registry mode selectors).nodes⟩ a hnew hexec
              split
              case isTrue hc => exact complete (setSuccess_stores _ c.name) (by simp [hint, hcommitted.1 hc])
              case isFalse hc =>
                have hfails := hint.2 ⟨hdiag, fun h => hc (hcommitted.2 h)⟩
                obtain ⟨hfailed, hdiagnostics⟩ := hsame c.name
                split
                all_goals exact interrupted ⟨hfailed, hdiagnostics⟩ rfl rfl hfails

/-- The same for every publication, if a published component has no unsupported resources. -/
theorem publish_stores (options : ObjectModelOptions) (server : ServerSpace) (c : Component)
    (mode : PublicationMode) (selectors : List Str) (a : Attempt)
    (hfailed : m.components.contains c.name = true → m.failedPublications.find? c.name = none) :
    let out := publishComponentInternal native fuel options m server c mode selectors a
    Stores out.1.1 c.name out.1.2 ↔
      ¬ (Interrupted native options m server c mode selectors a ∧ HasStored m c.name) := by
  simp only [publishComponentInternal]
  cases hopen : m.admissionClosed with
  | true =>
      have hsame : SameStored m (m.setFailure (lit "OPC UA object model is shutting down")).1 c.name := ⟨rfl, rfl⟩
      simp only [↓reduceIte]
      rw [hsame.stores_iff rfl rfl]
      simp [Interrupted, hopen]
  | false =>
      simp only [Bool.false_eq_true, ↓reduceIte]
      cases hfind : m.components.find? c.name with
      | some existing =>
          have hstores := replay_stores existing mode selectors (hfailed (by simp [OrdMap.contains, hfind]))
          simp [hstores, Interrupted, hopen, hfind]
      | none => exact publishNew_stores native fuel options server c mode selectors a hopen hfind

/-- A call leaves what the maps have for other names. -/
theorem publish_others (options : ObjectModelOptions) (server : ServerSpace) (c : Component)
    (mode : PublicationMode) (selectors : List Str) (a : Attempt) {name : Str} (hname : name ≠ c.name) :
    SameStored m (publishComponentInternal native fuel options m server c mode selectors a).1.1 name := by
  simp only [publishComponentInternal]
  split
  · exact ⟨rfl, rfl⟩
  split
  case h_1 existing hfind => exact replay_others existing mode selectors hname
  case h_2 hfind =>
    simp only [publishNew]
    split
    · exact ⟨rfl, rfl⟩
    split
    · exact ⟨rfl, rfl⟩
    split
    · exact ⟨rfl, rfl⟩
    split
    · exact rejectSnapshot_others hname mode _
    cases hexec : a.executed with
    | false => exact ⟨rfl, rfl⟩
    | true =>
        obtain ⟨hsame, -⟩ := publicationTask_stores native fuel server ⟨c.self, mode, _, _⟩ a hfind hexec
        obtain ⟨hfailed, hdiagnostics⟩ := hsame name
        simp only [↓reduceIte]
        split
        · obtain ⟨hf, hd⟩ := setSuccess_others (m := _) hname
          exact ⟨hf.trans hfailed, hd.trans hdiagnostics⟩
        · split <;> exact ⟨hfailed, hdiagnostics⟩

end Calls

/-! ## Runs -/

section Run

variable (native : Native) (fuel : Nat) (options : Nat → ObjectModelOptions) (i : Nat)

/-- What the model `i` reports about `name` in an event, if it publishes under that name. -/
def report (s : System) (name : Str) : Event → Option PublishResult
  | .call j call =>
      match call.publication with
      | some (c, mode, selectors, a) =>
          if j = i ∧ c.name = name then
            some (publishComponentInternal native fuel (options i) (s.models i) s.server c mode selectors a).1.2
          else none
      | none => none
  | .foreign _ => none

/-- The last report about `name`. -/
def lastReport (s : System) (name : Str) (last : PublishResult) : List Event → PublishResult
  | [] => last
  | e :: rest =>
      lastReport (step native fuel options s e).1 name ((report native fuel options i s name e).getD last) rest

/-- No publication of the model `i` is interrupted under a name that has something stored. -/
def Undisturbed (s : System) : List Event → Prop
  | [] => True
  | e :: rest =>
      (∀ call c mode selectors a, e = .call i call → call.publication = some (c, mode, selectors, a) →
        ¬ (Interrupted native (options i) (s.models i) s.server c mode selectors a ∧
          HasStored (s.models i) c.name)) ∧
      Undisturbed (step native fuel options s e).1 rest

variable {i}

/-- A publication in a run. -/
theorem step_stores {s : System} {log : List (Str × PublishedComponent)} (h : Recorded (s.models i) log) {call : Call}
    {c : Component} {mode : PublicationMode} {selectors : List Str} {a : Attempt}
    (hcall : call.publication = some (c, mode, selectors, a)) :
    let reported :=
      (publishComponentInternal native fuel (options i) (s.models i) s.server c mode selectors a).1.2
    let m' := (step native fuel options s (.call i call)).1.models i
    (Stores m' c.name reported ↔
      ¬ (Interrupted native (options i) (s.models i) s.server c mode selectors a ∧ HasStored (s.models i) c.name)) ∧
      ∀ name ≠ c.name, SameStored (s.models i) m' name := by
  intro reported m'
  obtain ⟨hmodel, -, -⟩ := perform_internal native fuel (options i) (s.models i) s.server hcall
  have hm' : m' = (publishComponentInternal native fuel (options i) (s.models i) s.server c mode selectors a).1.1 := by
    simp [m', step, hmodel]
  rw [hm']
  exact ⟨publish_stores native fuel (options i) s.server c mode selectors a (h.failed c.name),
    fun name hname => publish_others native fuel (options i) s.server c mode selectors a hname⟩

/-- One event keeps what is stored in line with the last report. -/
theorem event_stores {s : System} {log : List (Str × PublishedComponent)} (h : Recorded (s.models i) log) {e : Event}
    (hopen : e ≠ .call i .shutdown)
    (hcond : ∀ call c mode selectors a, e = .call i call → call.publication = some (c, mode, selectors, a) →
      ¬ (Interrupted native (options i) (s.models i) s.server c mode selectors a ∧ HasStored (s.models i) c.name))
    {name : Str} {last : PublishResult} (hs : Stores (s.models i) name last) :
    Stores ((step native fuel options s e).1.models i) name ((report native fuel options i s name e).getD last) := by
  cases e with
  | foreign space => exact hs
  | call j call =>
      by_cases hij : j = i
      · subst hij
        cases hpub : call.publication with
        | none =>
            have hquiet : SameStored (s.models j) ((step native fuel options s (.call j call)).1.models j) name := by
              cases call with
              | publishComponent => cases hpub
              | publishComponentSelected => cases hpub
              | beginShutdown => constructor <;> simp [step, perform, beginShutdown]
              | shutdown => exact absurd rfl hopen
            simpa [report, hpub, Stores, publicationDiagnostics, unsupportedResources, hquiet.failed,
              hquiet.diagnostics] using hs
        | some publication =>
            obtain ⟨c, mode, selectors, a⟩ := publication
            obtain ⟨hown, hothers⟩ := step_stores native fuel options h hpub
            by_cases hname : c.name = name
            · subst hname
              simpa [report, hpub] using hown.2 (hcond call c mode selectors a rfl hpub)
            · obtain ⟨hfailed, hdiagnostics⟩ := hothers name (Ne.symm hname)
              simpa [report, hpub, hname, Stores, publicationDiagnostics, unsupportedResources, hfailed,
                hdiagnostics] using hs
      · have hmodel : (step native fuel options s (.call j call)).1.models i = s.models i := by
          simp [step, Ne.symm hij]
        have hreport : report native fuel options i s name (.call j call) = none := by
          cases hpub : call.publication <;> simp [report, hpub, hij]
        simpa [hmodel, hreport] using hs

theorem run_stores (events : List Event) :
    ∀ {s : System} {log : List (Str × PublishedComponent)}, Recorded (s.models i) log →
      .call i .shutdown ∉ events → Undisturbed native fuel options i s events →
      ∀ {name : Str} {last : PublishResult}, Stores (s.models i) name last →
        Stores ((run native fuel options s events).models i) name
          (lastReport native fuel options i s name last events) := by
  induction events with
  | nil => exact fun _ _ _ _ _ hs => hs
  | cons e rest ih =>
      intro s log h hopen hall name last hs
      simp only [List.mem_cons, not_or] at hopen
      obtain ⟨hcond, hrest⟩ := hall
      have hnext := event_stores native fuel options h (Ne.symm hopen.1) hcond hs
      exact ih (step_recorded native fuel options h e) hopen.2 hrest hnext

end Run

end RttOpcua.Model
