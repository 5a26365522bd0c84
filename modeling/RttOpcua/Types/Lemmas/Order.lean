import RttOpcua.Types.Lemmas.Endpoint

/-!
# The order of the providers

`computeProviderOrder` as Kahn's algorithm on the graph of dependencies, and registrations in different orders.
-/

namespace RttOpcua.Types

open RttOpcua.Lib

variable {F : Type} {s s' : RegistryState F} {p : DataTypeProvider F}

/-! ## Success -/

theorem missing_eq_none : s.missing = none ↔
    ∀ name p, s.providers.find? name = some p → ∀ d ∈ p.dependencies, s.providers.contains d = true := by
  simp only [RegistryState.missing, List.findSome?_eq_none_iff, Option.map_eq_none_iff, List.find?_eq_none, Prod.forall,
    OrdMap.mem_entries, Bool.not_eq_true', Bool.not_eq_false]

theorem transGen_dependsOn {a b : Str} : Relation.TransGen s.DependsOn a b ↔
    Relation.TransGen (fun a b => b ∈ Kahn.dependenciesOf s.graph a) a b := by
  have hsame : s.DependsOn = fun a b => b ∈ Kahn.dependenciesOf s.graph a := by
    funext a b
    exact propext dependsOn_iff
  rw [hsame]

theorem size_graph : s.graph.size = s.providers.size := by
  simp [RegistryState.graph, OrdMap.size, OrdMap.map]

/-- An order of the providers in which each comes after its dependencies. -/
structure IsOrder (s : RegistryState F) (order : List Str) : Prop where
  perm : order.Perm s.providers.keys
  before : ∀ before n after, order = before ++ n :: after → ∀ d, s.DependsOn n d → d ∈ before

theorem isOrder_of_ok {order : List Str} (h : computeProviderOrder s = .ok order) : IsOrder s order := by
  obtain ⟨hnodup, hmem, hclosed⟩ := computeProviderOrder_spec h
  refine ⟨(List.perm_ext_iff_of_nodup hnodup OrdMap.keys_nodup).2 fun n => ?_, fun before n after heq d hd => ?_⟩
  · rw [hmem, OrdMap.mem_keys]
  · exact hclosed before n after heq d (dependsOn_iff.1 hd)

/-- No provider depends on itself through others. -/
theorem IsOrder.acyclic {order : List Str} (h : IsOrder s order) (n : Str) : ¬ Relation.TransGen s.DependsOn n n := by
  intro hcycle
  obtain ⟨d, ⟨p, hp, -⟩, -⟩ := Relation.TransGen.head'_iff.1 hcycle
  have hn : n ∈ order := h.perm.mem_iff.2 (OrdMap.mem_keys.2 (by rw [OrdMap.contains, hp]; rfl))
  obtain ⟨before, after, rfl⟩ := List.append_of_mem hn
  have hclosed : Kahn.Closed (Kahn.dependenciesOf s.graph) (before ++ n :: after) := fun before n after heq d hd =>
    h.before before n after heq d (dependsOn_iff.2 hd)
  have hbefore := hclosed.transitive (transGen_dependsOn.1 hcycle) before after rfl
  have hnodup := h.perm.nodup_iff.2 OrdMap.keys_nodup
  exact (List.nodup_append.1 hnodup).2.2 n hbefore n List.mem_cons_self rfl

theorem computeProviderOrder_isOk : (∃ order, computeProviderOrder s = .ok order) ↔
    (∀ name p, s.providers.find? name = some p → ∀ d ∈ p.dependencies, s.providers.contains d = true) ∧
      ∀ n, ¬ Relation.TransGen s.DependsOn n n := by
  constructor
  · rintro ⟨order, h⟩
    refine ⟨?_, (isOrder_of_ok h).acyclic⟩
    unfold computeProviderOrder at h
    split at h
    · cases h
    · exact missing_eq_none.1 ‹_›
  · rintro ⟨hregistered, hacyclic⟩
    have hcomplete : (Kahn.result s.graph).order.length = s.graph.size := by
      refine Kahn.result_complete (fun n d hd => ?_) fun n hcycle => hacyclic n (transGen_dependsOn.2 hcycle)
      obtain ⟨p, hp, hd⟩ := dependsOn_iff.2 hd
      rw [RegistryState.graph, OrdMap.contains_map]
      exact hregistered n p hp d hd
    unfold computeProviderOrder
    rw [missing_eq_none.2 hregistered]
    simp only
    rw [if_neg (by rw [hcomplete, size_graph]; exact fun h => h rfl)]
    exact ⟨_, rfl⟩

/-- The order that is computed is the least. -/
theorem order_least {order other : List Str} (h : computeProviderOrder s = .ok order) (hother : IsOrder s other) :
    order = other ∨ List.Lex (fun a b => compare a b = .lt) order other := by
  have horder := isOrder_of_ok h
  have hresult : order = (Kahn.result s.graph).order := by
    unfold computeProviderOrder at h
    split at h
    · cases h
    · simp only at h
      split at h
      · cases h
      · exact (Except.ok.inj h).symm
  have hinv : Kahn.Inv s.graph (Kahn.result s.graph) := Kahn.result_inv.1
  have hleast : Kahn.Least s.graph (Kahn.result s.graph).order := Kahn.result_least
  rw [← hresult] at hleast
  refine hleast.lex (fun n hn => hinv.known n (hresult ▸ hn)) (hresult ▸ hinv.nodup) (fun before n after heq d hd => ?_)
    (hother.perm.trans horder.perm.symm)
  exact hother.before before n after heq d (dependsOn_iff.2 hd)

/-! ## What the order depends on -/

theorem missing_eq_graph : s.missing =
    s.graph.entries.findSome? fun e => (e.2.find? fun d => !s.graph.contains d).map fun d => (e.1, d) := by
  have hentries : s.graph.entries = s.providers.entries.map fun e => (e.1, e.2.dependencies) := rfl
  have hcontains : ∀ d, s.graph.contains d = s.providers.contains d := fun d => OrdMap.contains_map _
  rw [RegistryState.missing, hentries, List.findSome?_map]
  simp only [Function.comp_def, hcontains]

/-- The order, or the error, depends on the names and the dependencies only. -/
theorem computeProviderOrder_graph (h : ∀ name, s'.graph.find? name = s.graph.find? name) :
    computeProviderOrder s' = computeProviderOrder s := by
  have hgraph : s'.graph = s.graph := OrdMap.ext_find h
  unfold computeProviderOrder
  rw [missing_eq_graph, missing_eq_graph, hgraph, ← size_graph, ← size_graph, hgraph]

/-! ## Registrations -/

/-- All providers are accepted, one after the other. -/
def Accepted (s : RegistryState F) : List (DataTypeProvider F) → Prop
  | [] => True
  | p :: rest => (registerDataTypeProvider s p).2 = .ok () ∧ Accepted (registerDataTypeProvider s p).1 rest

/-- What an accepted registration adds to the graph. -/
theorem graph_register (h : Valid s) (hok : (registerDataTypeProvider s p).2 = .ok ()) (name : Str) (ds : List Str) :
    (registerDataTypeProvider s p).1.graph.find? name = some ds ↔
      s.graph.find? name = some ds ∨ p.name = name ∧ sort p.dependencies = ds := by
  have hfind : ∀ {s : RegistryState F}, s.graph.find? name = (s.providers.find? name).map DataTypeProvider.dependencies :=
    OrdMap.find?_map _
  have hnew : ∀ {q : DataTypeProvider F}, q.name = p.name → q.dependencies = sort p.dependencies →
      (registerNew s q).2 = .ok () → ((registerNew s q).1.graph.find? name = some ds ↔
        s.graph.find? name = some ds ∨ p.name = name ∧ sort p.dependencies = ds) := by
    intro q hname hdependencies hok
    unfold registerNew at hok ⊢
    split at hok
    · cases hok
    · rename_i hfrozen
      split at hok
      · cases hok
      · rename_i hcontains
        have hnone : s.providers.find? q.name = none := by simpa [OrdMap.contains] using hcontains
        rw [if_neg hfrozen, if_neg hcontains]
        split at hok
        · cases hok
        · rename_i r hr
          obtain ⟨rfl, -, -⟩ := validateAndNormalize_eq_ok hr h.distinct
          have hsorted : sort q.dependencies = sort p.dependencies :=
            (congrArg sort hdependencies).trans (sort_congr (sort_perm _))
          have hfree : s.providers.contains q.name = false := by simpa using hcontains
          simp only [hfind, OrdMap.find?_emplace, hfree, and_true]
          by_cases heq : name = q.name
          · subst heq
            rw [hname] at hnone
            simp [hnone, hname, hsorted]
          · simp [heq, ← hname, Ne.symm heq]
  unfold registerDataTypeProvider at hok ⊢
  simp only at hok ⊢
  split at hok
  · rename_i existing hexisting
    split at hok
    · rename_i hsame
      rw [if_pos hsame]
      simp only [sameProvider, Bool.and_eq_true, decide_eq_true_eq] at hsame
      obtain ⟨⟨⟨⟨-, -⟩, hdependencies⟩, -⟩, -⟩ := hsame
      refine ⟨.inl, fun h => h.elim id ?_⟩
      rintro ⟨rfl, rfl⟩
      rw [hfind, hexisting, ← hdependencies]
      rfl
    · rename_i hdiffers
      rw [if_neg hdiffers]
      exact hnew rfl rfl hok
  · exact hnew rfl rfl hok

theorem graph_run (ps : List (DataTypeProvider F)) (name : Str) (ds : List Str) : ∀ s : RegistryState F, Valid s →
    Accepted s ps → ((run s (ps.map .register)).graph.find? name = some ds ↔
      s.graph.find? name = some ds ∨ ∃ p ∈ ps, p.name = name ∧ sort p.dependencies = ds) := by
  induction ps with
  | nil => simp [run]
  | cons p rest ih =>
      intro s h haccepted
      obtain ⟨hok, haccepted⟩ := haccepted
      have hrun : run s ((p :: rest).map .register) = run (registerDataTypeProvider s p).1 (rest.map .register) := rfl
      rw [hrun, ih _ (h.register p) haccepted, graph_register h hok, or_assoc]
      simp only [List.mem_cons, exists_eq_or_imp]

/-- The graph does not depend on the order of the registrations. -/
theorem graph_perm {ps ps' : List (DataTypeProvider F)} (hperm : ps.Perm ps') (h : Accepted {} ps)
    (h' : Accepted {} ps') (name : Str) :
    (run {} (ps.map .register)).graph.find? name = (run {} (ps'.map .register)).graph.find? name := by
  refine Option.ext fun ds => ?_
  rw [graph_run ps name ds {} .init h, graph_run ps' name ds {} .init h']
  simp only [hperm.mem_iff]

end RttOpcua.Types
