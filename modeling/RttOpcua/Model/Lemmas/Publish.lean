import RttOpcua.Model.Publish

/-!
# What a publication can do

A publication fails and keeps the published components, replays a published one, or commits a new one
(`publish_cases`). The invariants over runs follow from that.
-/

namespace RttOpcua.Model

open RttOpcua.Lib

/-! ## The cases of a publication -/

/-- `m'` has the published components of `m`, and names no published component as failed that `m` does not. -/
structure Keeps (m m' : ObjectModelImpl) : Prop where
  components : m'.components = m.components
  revision : m'.revision = m.revision
  admissionClosed : m'.admissionClosed = m.admissionClosed
  shutdownOnce : m'.shutdownOnce = m.shutdownOnce
  failed : ∀ name, m.components.contains name = true → m.failedPublications.find? name = none →
    m'.failedPublications.find? name = none

/-- A call that the model answers as a replay. -/
def Matches (m : ObjectModelImpl) (c : Component) (mode : PublicationMode) (selectors : List Str) : Prop :=
  m.admissionClosed = false ∧ ∃ p, m.components.find? c.name = some p ∧ p.component = c.self ∧ p.mode = mode ∧
    (mode = .selected →
      (buildPublicationPlan mode (discoverComponent c) c.name selectors).effectiveResources = p.effectiveResources ∧
      (buildPublicationPlan mode (discoverComponent c) c.name selectors).diagnostics = [])

/-- `m'` is `m` with `p` published under the name of `c`. -/
structure Commits (options : ObjectModelOptions) (m m' : ObjectModelImpl) (c : Component) (mode : PublicationMode)
    (selectors : List Str) (p : PublishedComponent) : Prop where
  admitted : m.admissionClosed = false
  new : m.components.find? c.name = none
  instance_eq : p.component = c.self
  mode_eq : p.mode = mode
  snapshot : ∃ registry, options.typeRegistry = some registry ∧
    p.effectiveResources = (snapshotComponent c registry mode selectors).effectiveResources ∧
    p.nodes = (snapshotComponent c registry mode selectors).nodes ∧
    (snapshotComponent c registry mode selectors).diagnostics = []
  components : m'.components = m.components.emplace c.name p
  revision : m'.revision = m.revision + 1
  admissionClosed : m'.admissionClosed = m.admissionClosed
  shutdownOnce : m'.shutdownOnce = m.shutdownOnce
  failed : m'.failedPublications = m.failedPublications.erase c.name

namespace Keeps

variable {m m' m'' : ObjectModelImpl}

theorem refl (m : ObjectModelImpl) : Keeps m m := ⟨rfl, rfl, rfl, rfl, fun _ _ h => h⟩

theorem trans (h : Keeps m m') (h' : Keeps m' m'') : Keeps m m'' where
  components := h'.components.trans h.components
  revision := h'.revision.trans h.revision
  admissionClosed := h'.admissionClosed.trans h.admissionClosed
  shutdownOnce := h'.shutdownOnce.trans h.shutdownOnce
  failed name hc hf := h'.failed name (h.components ▸ hc) (h.failed name hc hf)

theorem setFailure (failure : Str) : Keeps m (m.setFailure failure).1 := ⟨rfl, rfl, rfl, rfl, fun _ _ h => h⟩

theorem setSuccess (name : Str) : Keeps m (m.setSuccess name).1 where
  components := rfl
  revision := rfl
  admissionClosed := rfl
  shutdownOnce := rfl
  failed n _ hf := by simp [ObjectModelImpl.setSuccess, hf]

theorem rejectPublicationConflict (name reason : Str) : Keeps m (m.rejectPublicationConflict name reason).1 :=
  ⟨rfl, rfl, rfl, rfl, fun _ _ h => h⟩

theorem rejectReplay (name : Str) (diagnostics : List PublicationDiagnostic) :
    Keeps m (m.rejectReplay name diagnostics).1 where
  components := rfl
  revision := rfl
  admissionClosed := rfl
  shutdownOnce := rfl
  failed n _ hf := by simp [ObjectModelImpl.rejectReplay, hf]

theorem rejectSnapshot {name : Str} (hnew : m.components.find? name = none) (mode : PublicationMode)
    (snapshot : ComponentSnapshot) : Keeps m (m.rejectSnapshot name mode snapshot).1 where
  components := rfl
  revision := rfl
  admissionClosed := rfl
  shutdownOnce := rfl
  failed n hc hf := by
    have hne : n ≠ name := by
      rintro rfl
      simp [OrdMap.contains, hnew] at hc
    simp [ObjectModelImpl.rejectSnapshot, hf, hne]

theorem ensureRoots (fails : Str → Bool) (server : ServerSpace) :
    Keeps m (ensureRoots m fails server).1 ∧ (ensureRoots m fails server).1.failedPublications =
      m.failedPublications := by
  unfold Model.ensureRoots
  split
  · exact ⟨refl m, rfl⟩
  · split
    · exact ⟨⟨rfl, rfl, rfl, rfl, fun _ _ h => h⟩, rfl⟩
    · exact ⟨refl m, rfl⟩

end Keeps

/-- A replay fails and keeps everything, or it matches. -/
theorem replay_cases {m : ObjectModelImpl} {existing : PublishedComponent} {c : Component}
    (hopen : m.admissionClosed = false) (hfind : m.components.find? c.name = some existing)
    (mode : PublicationMode) (selectors : List Str) :
    ((m.replay existing c mode selectors).2.ok = false ∧ Keeps m (m.replay existing c mode selectors).1 ∧
      ¬ Matches m c mode selectors) ∨
    ((m.replay existing c mode selectors).2.ok = true ∧
      (m.replay existing c mode selectors).1 = (m.setSuccess c.name).1 ∧ Matches m c mode selectors) := by
  have hmatch : Matches m c mode selectors ↔ existing.component = c.self ∧ existing.mode = mode ∧
      (mode = .selected →
        (buildPublicationPlan mode (discoverComponent c) c.name selectors).effectiveResources =
          existing.effectiveResources ∧
        (buildPublicationPlan mode (discoverComponent c) c.name selectors).diagnostics = []) := by
    simp [Matches, hopen, hfind]
  unfold ObjectModelImpl.replay
  by_cases hself : existing.component = c.self
  · by_cases hmode : existing.mode = mode
    · simp only [hself, hmode, ne_eq, not_true_eq_false, ↓reduceIte]
      cases mode with
      | full => exact .inr ⟨rfl, rfl, hmatch.2 ⟨hself, hmode, by simp⟩⟩
      | selected =>
          by_cases hset : existing.effectiveResources =
              (buildPublicationPlan .selected (discoverComponent c) c.name selectors).effectiveResources
          · by_cases hdiag : (buildPublicationPlan .selected (discoverComponent c) c.name selectors).diagnostics = []
            · simp only [hset, hdiag, not_true_eq_false, ↓reduceIte]
              exact .inr ⟨rfl, trivial, hmatch.2 ⟨hself, hmode, fun _ => ⟨hset.symm, hdiag⟩⟩⟩
            · simp only [hset, hdiag, not_true_eq_false, not_false_eq_true, ↓reduceIte]
              exact .inl ⟨rfl, Keeps.rejectReplay _ _, fun h => hdiag ((hmatch.1 h).2.2 rfl).2⟩
          · simp only [hset, not_false_eq_true, ↓reduceIte]
            exact .inl ⟨rfl, Keeps.rejectPublicationConflict _ _,
              fun h => hset ((hmatch.1 h).2.2 rfl).1.symm⟩
    · simp only [hself, hmode, ne_eq, not_true_eq_false, not_false_eq_true, ↓reduceIte]
      exact .inl ⟨rfl, Keeps.rejectPublicationConflict _ _, fun h => hmode (hmatch.1 h).2.1⟩
  · simp only [hself, ne_eq, not_false_eq_true, ↓reduceIte]
    exact .inl ⟨rfl, Keeps.rejectPublicationConflict _ _, fun h => hself (hmatch.1 h).1⟩

section Task

variable (native : Native) (fuel : Nat)

/-- The task keeps everything, or commits. -/
theorem publicationTask_cases (m : ObjectModelImpl) (server : ServerSpace) (name : Str)
    (candidate : PublishedComponent) (a : Attempt) :
    let outcome := publicationTask native fuel m server name candidate a
    (outcome.committed = false ∧ Keeps m outcome.model) ∨
    (outcome.committed = true ∧ outcome.model.components = m.components.emplace name candidate ∧
      outcome.model.revision = m.revision + 1 ∧ outcome.model.admissionClosed = m.admissionClosed ∧
      outcome.model.shutdownOnce = m.shutdownOnce ∧
      outcome.model.failedPublications = m.failedPublications) := by
  have hroots := Keeps.ensureRoots (m := m) a.rootFails server
  simp only [publicationTask]
  split
  · exact .inl ⟨rfl, Keeps.refl m⟩
  · split
    · rename_i m' server' heq
      rw [heq] at hroots
      exact .inl ⟨rfl, hroots.1⟩
    · rename_i m' server' heq
      rw [heq] at hroots
      split
      · exact .inl ⟨rfl, hroots.1⟩
      · refine .inr ⟨rfl, ?_, ?_, hroots.1.admissionClosed, hroots.1.shutdownOnce, hroots.2⟩
        · exact congrArg (OrdMap.emplace · name candidate) hroots.1.components
        · exact congrArg (· + 1) hroots.1.revision

/-- A first publication fails and keeps everything, or commits. -/
theorem publishNew_cases (options : ObjectModelOptions) {m : ObjectModelImpl} (hopen : m.admissionClosed = false)
    {c : Component} (hnew : m.components.find? c.name = none) (server : ServerSpace) (mode : PublicationMode)
    (selectors : List Str) (a : Attempt) :
    let out := publishNew native fuel options m server c mode selectors a
    (out.1.2.ok = false ∧ Keeps m out.1.1) ∨
    (out.1.2.ok = true ∧ ∃ p, Commits options m out.1.1 c mode selectors p) := by
  simp only [publishNew]
  split
  · exact .inl ⟨rfl, Keeps.setFailure _⟩
  · split
    · exact .inl ⟨rfl, Keeps.setFailure _⟩
    · rename_i registry hregistry
      split
      · exact .inl ⟨rfl, Keeps.setFailure _⟩
      · split
        · exact .inl ⟨rfl, Keeps.rejectSnapshot hnew _ _⟩
        · rename_i hdiag
          simp only [ne_eq, Decidable.not_not] at hdiag
          cases hexec : a.executed with
          | false => exact .inl ⟨rfl, (Keeps.refl m).trans (Keeps.setFailure _)⟩
          | true =>
              simp only [↓reduceIte]
              rcases publicationTask_cases native fuel m server c.name ⟨c.self, mode,
                  (snapshotComponent c registry mode selectors).effectiveResources,
                  (snapshotComponent c registry mode selectors).nodes⟩ a with
                ⟨hcommitted, hkeeps⟩ | ⟨hcommitted, hcomponents, hrevision, hadm, honce, hfailed⟩
              · simp only [hcommitted, Bool.false_eq_true, ↓reduceIte]
                refine .inl ⟨rfl, hkeeps.trans ?_⟩
                split
                · exact Keeps.setFailure _
                · exact ⟨rfl, rfl, rfl, rfl, fun _ _ h => h⟩
              · simp only [hcommitted, ↓reduceIte]
                refine .inr ⟨rfl, ⟨c.self, mode, _, _⟩, hopen, hnew, rfl, rfl,
                  ⟨registry, hregistry, rfl, rfl, hdiag⟩, hcomponents, hrevision, hadm, honce, ?_⟩
                exact congrArg (OrdMap.erase · c.name) hfailed

/-- The cases of a publication. -/
theorem publish_cases (options : ObjectModelOptions) (m : ObjectModelImpl) (server : ServerSpace) (c : Component)
    (mode : PublicationMode) (selectors : List Str) (a : Attempt) :
    let out := publishComponentInternal native fuel options m server c mode selectors a
    (out.1.2.ok = false ∧ Keeps m out.1.1 ∧ ¬ Matches m c mode selectors) ∨
    (out.1.2.ok = true ∧ Keeps m out.1.1 ∧ Matches m c mode selectors) ∨
    (out.1.2.ok = true ∧ ∃ p, Commits options m out.1.1 c mode selectors p) := by
  intro out
  simp only [out, publishComponentInternal]
  cases hopen : m.admissionClosed with
  | true => exact .inl ⟨rfl, Keeps.setFailure _, fun h => by simp [Matches, hopen] at h⟩
  | false =>
      simp only [Bool.false_eq_true, ↓reduceIte]
      cases hfind : m.components.find? c.name with
      | some existing =>
          rcases replay_cases hopen hfind mode selectors with ⟨hok, hkeeps, hnot⟩ | ⟨hok, heq, hmatch⟩
          · exact .inl ⟨hok, hkeeps, hnot⟩
          · refine .inr (.inl ⟨hok, ?_, hmatch⟩)
            simp only [heq]
            exact Keeps.setSuccess _
      | none =>
          rcases publishNew_cases native fuel options hopen hfind server mode selectors a with
            ⟨hok, hkeeps⟩ | hcommit
          · refine .inl ⟨hok, hkeeps, fun h => ?_⟩
            obtain ⟨-, p, hp, -⟩ := h
            rw [hfind] at hp
            cases hp
          · exact .inr (.inr hcommit)

/-- Both publication calls go through `publishComponentInternal`. -/
theorem perform_internal (options : ObjectModelOptions) (m : ObjectModelImpl) (server : ServerSpace)
    {call : Call} {c : Component} {mode : PublicationMode} {selectors : List Str} {a : Attempt}
    (h : call.publication = some (c, mode, selectors, a)) :
    let out := publishComponentInternal native fuel options m server c mode selectors a
    (perform native fuel options m server call).1.1 = out.1.1 ∧
      (perform native fuel options m server call).2 = out.2 ∧
      ∃ r, (perform native fuel options m server call).1.2 = some r ∧ r.ok = out.1.2.ok := by
  cases call with
  | publishComponent | publishComponentSelected =>
      simp only [Call.publication, Option.some.injEq, Prod.mk.injEq] at h
      obtain ⟨rfl, rfl, rfl, rfl⟩ := h
      exact ⟨rfl, rfl, _, rfl, rfl⟩
  | beginShutdown => cases h
  | shutdown => cases h

/-- A publication call, by its cases. -/
theorem perform_publication (options : ObjectModelOptions) (m : ObjectModelImpl) (server : ServerSpace)
    {call : Call} {c : Component} {mode : PublicationMode} {selectors : List Str} {a : Attempt}
    (h : call.publication = some (c, mode, selectors, a)) :
    ∃ r, (perform native fuel options m server call).1.2 = some r ∧
      ((r.ok = false ∧ Keeps m (perform native fuel options m server call).1.1 ∧ ¬ Matches m c mode selectors) ∨
        (r.ok = true ∧ Keeps m (perform native fuel options m server call).1.1 ∧ Matches m c mode selectors) ∨
        (r.ok = true ∧
          ∃ p, Commits options m (perform native fuel options m server call).1.1 c mode selectors p)) := by
  obtain ⟨hmodel, -, r, hr, hok⟩ := perform_internal native fuel options m server h
  refine ⟨r, hr, ?_⟩
  rw [hmodel, hok]
  exact publish_cases native fuel options m server c mode selectors a

end Task

/-! ## Runs -/

/-- The state of a model after the commits of `log`. -/
structure Recorded (m : ObjectModelImpl) (log : List (Str × PublishedComponent)) : Prop where
  revision : m.revision = log.length
  failed : ∀ name, m.components.contains name = true → m.failedPublications.find? name = none
  nodup : (log.map Prod.fst).Nodup
  published : m.shutdownOnce = false → ∀ name p, m.components.find? name = some p ↔ (name, p) ∈ log
  closed : m.shutdownOnce = true → m.admissionClosed = true ∧ m.components = ∅

namespace Recorded

variable {m m' : ObjectModelImpl} {log : List (Str × PublishedComponent)}

theorem init : Recorded {} [] where
  revision := rfl
  failed _ h := by simp [OrdMap.contains] at h
  nodup := List.nodup_nil
  published _ := by simp
  closed h := by cases h

theorem keeps (h : Recorded m log) (hk : Keeps m m') : Recorded m' log where
  revision := hk.revision.trans h.revision
  failed name hc := hk.failed name (hk.components ▸ hc) (h.failed name (hk.components ▸ hc))
  nodup := h.nodup
  published ho := by
    rw [hk.components]
    exact h.published (hk.shutdownOnce ▸ ho)
  closed ho := by
    rw [hk.components, hk.admissionClosed]
    exact h.closed (hk.shutdownOnce ▸ ho)

theorem commits (h : Recorded m log) {options : ObjectModelOptions} {c : Component} {mode : PublicationMode}
    {selectors : List Str} {p : PublishedComponent} (hc : Commits options m m' c mode selectors p) :
    Recorded m' (log ++ [(c.name, p)]) := by
  have hopen : m.shutdownOnce = false := by
    by_contra hclosed
    have hadm := (h.closed (by simpa using hclosed)).1
    rw [hc.admitted] at hadm
    cases hadm
  have hfind : ∀ name, m'.components.find? name = if name = c.name then some p else m.components.find? name := by
    intro name
    rw [hc.components, OrdMap.find?_emplace]
    simp [OrdMap.contains, hc.new]
  have hfresh : c.name ∉ log.map Prod.fst := by
    intro hmem
    obtain ⟨⟨name, q⟩, hq, heq⟩ := List.mem_map.1 hmem
    have hthere := (h.published hopen name q).2 hq
    rw [show name = c.name from heq, hc.new] at hthere
    cases hthere
  refine ⟨?_, fun name hname => ?_, ?_, fun _ name q => ?_, fun hclosed => ?_⟩
  · simp [hc.revision, h.revision]
  · rw [hc.failed, OrdMap.find?_erase]
    split
    · rfl
    · rename_i hne
      refine h.failed name ?_
      simpa [OrdMap.contains, hfind, hne] using hname
  · rw [List.map_append]
    exact List.nodup_append.2 ⟨h.nodup, by simp, by rintro a ha b hb rfl; simp_all⟩
  · rw [hfind, List.mem_append, ← h.published hopen, List.mem_singleton]
    by_cases hname : name = c.name
    · subst hname
      simp [hc.new, eq_comm]
    · simp [hname]
  · rw [hc.shutdownOnce, hopen] at hclosed
    cases hclosed

theorem beginShutdown (h : Recorded m log) : Recorded (beginShutdown m) log :=
  ⟨h.revision, h.failed, h.nodup, h.published, fun ho => ⟨rfl, (h.closed ho).2⟩⟩

theorem shutdown (h : Recorded m log) : Recorded (shutdown m) log := by
  simp only [Model.shutdown]
  split
  · exact h.beginShutdown
  · refine ⟨h.revision, fun name hname => ?_, h.nodup, fun ho => ?_, fun _ => ⟨rfl, rfl⟩⟩
    · simp [OrdMap.contains] at hname
    · cases ho

/-- One call. -/
theorem perform (h : Recorded m log) (native : Native) (fuel : Nat) (options : ObjectModelOptions)
    (server : ServerSpace) (call : Call) :
    Recorded (perform native fuel options m server call).1.1
      (log ++ (committed m (Model.perform native fuel options m server call).1.1 call).toList) := by
  cases hpub : call.publication with
  | none =>
      simp only [committed, hpub, Option.toList_none, List.append_nil]
      cases call with
      | publishComponent | publishComponentSelected => cases hpub
      | beginShutdown => exact h.beginShutdown
      | shutdown => exact h.shutdown
  | some x =>
      obtain ⟨c, mode, selectors, a⟩ := x
      obtain ⟨r, -, hcases⟩ := perform_publication native fuel options m server hpub
      have hkept : Keeps m (Model.perform native fuel options m server call).1.1 →
          Recorded (Model.perform native fuel options m server call).1.1
            (log ++ (committed m (Model.perform native fuel options m server call).1.1 call).toList) := by
        intro hk
        have hnone : committed m (Model.perform native fuel options m server call).1.1 call = none := by
          simp only [committed, hpub, hk.components, OrdMap.contains]
          cases m.components.find? c.name <;> simp
        simpa [hnone] using h.keeps hk
      rcases hcases with ⟨-, hk, -⟩ | ⟨-, hk, -⟩ | ⟨-, p, hc⟩
      · exact hkept hk
      · exact hkept hk
      · have hsome : committed m (Model.perform native fuel options m server call).1.1 call = some (c.name, p) := by
          simp [committed, hpub, hc.components, OrdMap.find?_emplace, OrdMap.contains, hc.new]
        rw [hsome]
        exact h.commits hc

end Recorded

section Run

variable (native : Native) (fuel : Nat) (options : Nat → ObjectModelOptions)

/-- One event, seen from the model `i`. -/
theorem step_recorded {s : System} {log : List (Str × PublishedComponent)} {i : Nat}
    (h : Recorded (s.models i) log) (e : Event) :
    Recorded ((step native fuel options s e).1.models i)
      (log ++ commitsOf i (commitOf native fuel options s e).toList) := by
  cases e with
  | foreign space => simpa [commitOf, commitsOf, step] using h
  | call j call =>
      by_cases hij : i = j
      · subst hij
        have hnext := h.perform native fuel (options i) s.server call
        have hmodel : (step native fuel options s (.call i call)).1.models i =
            (perform native fuel (options i) (s.models i) s.server call).1.1 := by
          simp [step]
        have hlog : commitsOf i (commitOf native fuel options s (.call i call)).toList =
            (committed (s.models i) (perform native fuel (options i) (s.models i) s.server call).1.1 call).toList := by
          rw [commitOf, hmodel]
          cases committed (s.models i) (perform native fuel (options i) (s.models i) s.server call).1.1 call <;>
            simp [commitsOf]
        rw [hmodel, hlog]
        exact hnext
      · have hmodel : (step native fuel options s (.call j call)).1.models i = s.models i := by
          simp [step, hij]
        have hlog : commitsOf i (commitOf native fuel options s (.call j call)).toList = [] := by
          rw [commitOf]
          cases committed (s.models j) ((step native fuel options s (.call j call)).1.models j) call <;>
            simp [commitsOf, Ne.symm hij]
        rw [hmodel, hlog, List.append_nil]
        exact h

theorem run_recorded (events : List Event) :
    ∀ {s : System} {log : List (Str × PublishedComponent)} {i : Nat}, Recorded (s.models i) log →
      Recorded ((run native fuel options s events).models i)
        (log ++ commitsOf i (commits native fuel options s events)) := by
  induction events with
  | nil => intro s log i h; simpa [run, commits, commitsOf] using h
  | cons e rest ih =>
      intro s log i h
      have hnext := ih (step_recorded native fuel options h e)
      simp only [run, List.foldl_cons, commits, commitsOf, List.filterMap_append] at hnext ⊢
      rwa [List.append_assoc] at hnext

/-- A call sets the two flags of a shutdown as it says, and a publication keeps them. -/
theorem perform_flags (options : ObjectModelOptions) (m : ObjectModelImpl) (server : ServerSpace) (call : Call) :
    let m' := (perform native fuel options m server call).1.1
    (m'.admissionClosed = true ↔ m.admissionClosed = true ∨ call = .beginShutdown ∨ call = .shutdown) ∧
    (m'.shutdownOnce = true ↔ m.shutdownOnce = true ∨ call = .shutdown) := by
  cases hpub : call.publication with
  | none =>
      cases call with
      | publishComponent | publishComponentSelected => cases hpub
      | beginShutdown => simp [perform, beginShutdown]
      | shutdown =>
          cases honce : m.shutdownOnce <;> simp [perform, shutdown, beginShutdown, honce]
  | some x =>
      obtain ⟨c, mode, selectors, a⟩ := x
      have hcall : call ≠ .beginShutdown ∧ call ≠ .shutdown := by
        constructor <;> rintro rfl <;> cases hpub
      obtain ⟨r, -, hcases⟩ := perform_publication native fuel options m server hpub
      rcases hcases with ⟨-, hk, -⟩ | ⟨-, hk, -⟩ | ⟨-, p, hc⟩
      · simp [hk.admissionClosed, hk.shutdownOnce, hcall]
      · simp [hk.admissionClosed, hk.shutdownOnce, hcall]
      · simp [hc.admissionClosed, hc.shutdownOnce, hcall]

theorem run_flags (i : Nat) (events : List Event) :
    ∀ s : System,
      (((run native fuel options s events).models i).admissionClosed = true ↔
        (s.models i).admissionClosed = true ∨ .call i .beginShutdown ∈ events ∨ .call i .shutdown ∈ events) ∧
      (((run native fuel options s events).models i).shutdownOnce = true ↔
        (s.models i).shutdownOnce = true ∨ .call i .shutdown ∈ events) := by
  induction events with
  | nil => simp [run]
  | cons e rest ih =>
      intro s
      have hnext := ih (step native fuel options s e).1
      simp only [run, List.foldl_cons] at hnext ⊢
      rw [hnext.1, hnext.2]
      cases e with
      | foreign space => simp [step]
      | call j call =>
          by_cases hij : i = j
          · subst hij
            have hflags := perform_flags native fuel (options i) (s.models i) s.server call
            simp only [step, Function.update_self, hflags.1, hflags.2, List.mem_cons, Event.call.injEq, true_and]
            constructor
            · grind
            · grind
          · simp [step, hij]

/-- What is published stays published until the shutdown of the model. -/
theorem run_published {s : System} {log : List (Str × PublishedComponent)} {i : Nat}
    (h : Recorded (s.models i) log) (events : List Event) (hopen : .call i .shutdown ∉ events) {name : Str}
    {p : PublishedComponent} (hp : (s.models i).components.find? name = some p) :
    ((run native fuel options s events).models i).components.find? name = some p := by
  cases honce : (s.models i).shutdownOnce with
  | true => rw [(h.closed honce).2] at hp; cases hp
  | false =>
      have hlast := run_recorded native fuel options events h
      refine (hlast.published ?_ name p).2 (List.mem_append_left _ ((h.published honce name p).1 hp))
      rw [Bool.eq_false_iff, ne_eq, (run_flags native fuel options i events s).2]
      simp [honce, hopen]

end Run

/-- The number of published components. -/
theorem Recorded.size {m : ObjectModelImpl} {log : List (Str × PublishedComponent)} (h : Recorded m log)
    (hopen : m.shutdownOnce = false) : m.components.size = m.revision := by
  have hmem : ∀ e, e ∈ m.components.entries ↔ e ∈ log := fun e =>
    OrdMap.mem_entries.trans (h.published hopen e.1 e.2)
  have hperm := (List.perm_ext_iff_of_nodup m.components.sorted.nodup (List.Nodup.of_map _ h.nodup)).2 hmem
  rw [OrdMap.size, hperm.length_eq, h.revision]

end RttOpcua.Model
