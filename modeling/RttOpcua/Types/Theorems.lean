import RttOpcua.Types.Lemmas.Codecs
import RttOpcua.Types.Lemmas.Endpoint
import RttOpcua.Types.Lemmas.Order
import RttOpcua.Types.Lemmas.Protocol

/-!
# Types: theorems

The registry of datatype providers over any sequence of calls, and what an endpoint makes of it.
-/

namespace RttOpcua.Types

open RttOpcua.Lib Threads

/-! ## Registration and freeze -/

/-- The registry after any calls. All ids that its providers reserve are distinct, and their dependencies ascend
strictly and do not name the provider. A call that fails changes nothing, and so does a registration of a provider
that is there up to the order of its dependencies. After a freeze that succeeds nothing changes, and every freeze
returns the same order. -/
theorem registry_over_runs {F : Type} (calls : List (Call F)) :
    let s := run {} calls
    s.occupied.Nodup ∧
    (∀ name p, s.providers.find? name = some p →
      p.name = name ∧ p.dependencies.Pairwise (fun a b => compare a b = .lt) ∧ p.name ∉ p.dependencies) ∧
    (∀ p message, (registerDataTypeProvider s p).2 = .error message → (registerDataTypeProvider s p).1 = s) ∧
    (∀ message, (freezeDataTypeRegistry s).2 = .error message → (freezeDataTypeRegistry s).1 = s) ∧
    (∀ p q, s.providers.find? q.name = some q → SameUpToOrder p q → registerDataTypeProvider s p = (s, .ok ())) ∧
    (∀ order, (freezeDataTypeRegistry s).2 = .ok order → ∀ later,
      let s' := run (freezeDataTypeRegistry s).1 later
      s'.providers = s.providers ∧ freezeDataTypeRegistry s' = (s', .ok order)) := by
  intro s
  have hvalid : Valid s := .run calls {} .init
  refine ⟨hvalid.distinct, fun name p hp => ?_, fun p message => register_error, fun message => freeze_error,
    fun p q hq h => register_same hq (hvalid.named _ q hq).2 h, fun order hok later => ?_⟩
  · obtain ⟨hname, hp⟩ := hvalid.named name p hp
    exact ⟨hname, hp.ascending, hp.notSelf⟩
  · intro s'
    obtain ⟨hfrozen, horder, hproviders⟩ := freeze_ok hok
    have hs' : s' = (freezeDataTypeRegistry s).1 := run_frozen hvalid.freeze hfrozen later
    refine ⟨hs' ▸ hproviders, ?_⟩
    rw [← hs'] at hfrozen horder
    exact (freeze_frozen hfrozen).trans (by rw [horder])

/-- The order of a freeze. It exists exactly if all dependencies are registered and none is cyclic, and then it is the
lexicographically least of the orders in which each provider comes after its dependencies. So it does not depend on the
order of the registrations. No counter is counted down below zero, and a freeze that fails changes nothing. -/
theorem freeze_order {F : Type} (calls : List (Call F)) :
    let s := run {} calls
    ((∃ order, computeProviderOrder s = .ok order) ↔
      (∀ name p, s.providers.find? name = some p → ∀ d ∈ p.dependencies, s.providers.contains d = true) ∧
        ∀ n, ¬ Relation.TransGen s.DependsOn n n) ∧
    (∀ order, computeProviderOrder s = .ok order → IsOrder s order ∧
      ∀ other, IsOrder s other → order = other ∨ List.Lex (fun a b => compare a b = .lt) order other) ∧
    (∀ calls', (∀ name, (run {} calls' : RegistryState F).graph.find? name = s.graph.find? name) →
      computeProviderOrder (run {} calls') = computeProviderOrder s) ∧
    (∀ ps ps' : List (DataTypeProvider F), ps.Perm ps' → Accepted {} ps → Accepted {} ps' →
      computeProviderOrder (run {} (ps.map .register)) = computeProviderOrder (run {} (ps'.map .register))) ∧
    (∀ fuel n done m rest, let k := Kahn.run s.graph fuel (Kahn.initial s.graph)
      OrdMap.contains k.ready n = true → Kahn.dependentsOf s.graph n = done ++ m :: rest →
      ∃ count, (done.foldl Kahn.release (Kahn.taken k n)).indegree.find? m = some (count + 1)) ∧
    (∀ message, (freezeDataTypeRegistry s).2 = .error message →
      (freezeDataTypeRegistry s).1 = s ∧ s.frozen = false) := by
  intro s
  refine ⟨computeProviderOrder_isOk, fun order h => ⟨isOrder_of_ok h, fun other => order_least h⟩,
    fun calls' hgraph => computeProviderOrder_graph hgraph,
    fun ps ps' hperm h h' => computeProviderOrder_graph (graph_perm hperm h h'), ?_, fun message h => ?_⟩
  · intro fuel n done m rest k hready hsplit
    exact Kahn.counter_pos (Kahn.inv_run fuel _ Kahn.initial_inv) hready hsplit
  · refine ⟨freeze_error h, ?_⟩
    by_contra hfrozen
    rw [freeze_frozen (by simpa using hfrozen)] at h
    cases h

/-! ## Endpoints -/

/-- Endpoints of a registry that can be frozen. When a definition is materialized, the context has a handle for each
datatype that it may need, the vector of datatypes has room for one more, and what it does until it ends moves no
datatype. A registered type of an endpoint has its registered ids in its namespace, no two ids are equal, and those
of another endpoint differ in the namespace index only. -/
theorem endpoint_binding {F T : Type} [DecidableEq T] (calls : List (Call F)) (namespaces : List (Str × Nat))
    (materialize : Materialize F) (table : OrdMap Str Nat) (providers : List (DataTypeProvider F))
    (hfrozen : (frozenDataTypeProviders (run {} calls)).2 = .ok providers) :
    let s := run {} calls
    (∀ before p after done d rest e, providers = before ++ p :: after → p.dataTypes = done ++ d :: rest →
      EndpointTypes.bindDefinitions materialize (before.flatMap DataTypeProvider.dataTypes ++ done)
        (EndpointTypes.reserved table providers) = .ok e →
      (∀ n, Relation.TransGen s.DependsOn p.name n →
        ∃ q, s.providers.find? n = some q ∧ ∀ x ∈ q.dataTypes, Ready table e x) ∧
      (∀ x ∈ done, Ready table e x) ∧ e.customDataTypes.items.length < e.customDataTypes.capacity ∧
      ∀ next more e', d :: rest ++ after.flatMap DataTypeProvider.dataTypes = next ++ more →
        EndpointTypes.bindDefinitions materialize next e = .ok e' → Keeps e e') ∧
    ∀ repository source (r : EndpointTypeRegistry T),
      (EndpointTypeRegistry.create s namespaces materialize repository source).2 = .ok r →
      (∀ name p d, s.providers.find? name = some p → d ∈ p.dataTypes →
        ∃ index t, (d.id.namespaceUri, index) ∈ namespaces ∧ r.types.dataType d.id = some t ∧
          (t.typeId, t.binaryEncodingId) = EndpointTypes.expected d index) ∧
      (r.types.customDataTypes.items.flatMap fun t => [t.typeId, t.binaryEncodingId]).Nodup ∧
      ∀ later namespaces' materialize' repository' source' (r' : EndpointTypeRegistry T),
        (EndpointTypeRegistry.create
          (run (EndpointTypeRegistry.create s namespaces materialize repository source).1 later)
          namespaces' materialize' repository' source').2 = .ok r' →
        ∀ name p d, s.providers.find? name = some p → d ∈ p.dataTypes →
          ∃ t t', r.types.dataType d.id = some t ∧ r'.types.dataType d.id = some t' ∧
            t'.typeId.identifier = t.typeId.identifier ∧
            t'.binaryEncodingId.identifier = t.binaryEncodingId.identifier := by
  intro s
  have hv : Valid s := .run calls {} .init
  have hfrozen' : frozenDataTypeProviders s = ((frozenDataTypeProviders s).1, .ok providers) := by rw [← hfrozen]
  have hspec := (frozen_spec hv hfrozen').1
  constructor
  · intro before p after done d rest e hp hd hok
    have hds : providers.flatMap DataTypeProvider.dataTypes = before.flatMap DataTypeProvider.dataTypes ++ done ++
        (d :: rest ++ after.flatMap DataTypeProvider.dataTypes) := by
      simp [hp, hd]
    have hinv := bindDefinitions_spec hv hspec hds hok
    refine ⟨fun n hn => ready_before hv hspec hp hd hok hn, fun x hx => hinv.ready (List.mem_append_right _ hx), ?_,
      fun next more e' hnext hok' => bindDefinitions_keeps hv hspec (hnext ▸ hds) hok hok'⟩
    have hlength := congrArg List.length hds
    rw [List.length_flatMap] at hlength
    rw [hinv.length, hinv.sameCapacity, hlength]
    simp
  · intro repository source r hr
    refine ⟨fun name p d hp hd => create_resolves hv hr hp hd, create_nodup hv hr, ?_⟩
    intro later namespaces' materialize' repository' source' r' hr' name p d hp hd
    obtain ⟨hfreeze, hf, hsame⟩ := create_frozen hr
    have hv' : Valid (EndpointTypeRegistry.create s namespaces materialize repository source).1 :=
      hfreeze ▸ hv.freeze
    rw [run_frozen hv' hf later] at hr'
    obtain ⟨i, t, -, ht, hids⟩ := create_resolves hv hr hp hd
    obtain ⟨i', t', -, ht', hids'⟩ := create_resolves hv' hr' (hsame ▸ hp) hd
    obtain ⟨htype, hencoding⟩ := Prod.mk.inj hids
    obtain ⟨htype', hencoding'⟩ := Prod.mk.inj hids'
    exact ⟨t, t', ht, ht', by rw [htype, htype'], by rw [hencoding, hencoding']⟩

section Example

/-- A function that makes a structure with the ids of a logical type. -/
def makeStruct : Materialize LogicalDataTypeId := fun _ id s =>
  let index := (s.namespaceIndexes.find? id.namespaceUri).getD 0
  .ok ⟨⟨index, .string id.typeNodeId⟩, ⟨index, .string id.binaryEncodingNodeId⟩, .struct⟩

def pointId : LogicalDataTypeId := ⟨lit "urn:geometry", lit "Point", lit "Point_Binary"⟩

def poseId : LogicalDataTypeId := ⟨lit "urn:robot", lit "Pose", lit "Pose_Binary"⟩

def geometry : DataTypeProvider LogicalDataTypeId where
  name := lit "geometry"
  namespaceUri := lit "urn:geometry"
  dependencies := []
  dataTypes := [{ name := lit "Point", id := pointId, schemaFingerprint := lit "1", materialize := some pointId }]

def robot : DataTypeProvider LogicalDataTypeId where
  name := lit "robot"
  namespaceUri := lit "urn:robot"
  dependencies := [lit "geometry"]
  dataTypes := [{ name := lit "Pose", id := poseId, schemaFingerprint := lit "1", materialize := some poseId }]

def endpointNamespaces : List (Str × Nat) := [(namespaceZero, 0), (lit "urn:robot", 1), (lit "urn:geometry", 2)]

/-- The point is there when the pose is materialized, although `robot` was registered first. -/
theorem endpoint_binding_robot : ∃ table e, acceptNamespaces endpointNamespaces = .ok table ∧
    EndpointTypes.bindDefinitions makeStruct geometry.dataTypes (EndpointTypes.reserved table [geometry, robot]) = .ok e ∧
    ∀ x ∈ geometry.dataTypes, Ready table e x := by
  have hrun : run {} [.register robot, .register geometry] =
      { providers := (∅ : OrdMap Str (DataTypeProvider LogicalDataTypeId)).emplace (lit "robot") robot
          |>.emplace (lit "geometry") geometry } := by
    with_unfolding_all rfl
  obtain ⟨table, htable⟩ : ∃ table, acceptNamespaces endpointNamespaces = .ok table := ⟨_, rfl⟩
  obtain ⟨e, he⟩ : ∃ e, EndpointTypes.bindDefinitions makeStruct geometry.dataTypes
      (EndpointTypes.reserved table [geometry, robot]) = .ok e := by
    obtain rfl := Except.ok.inj htable
    exact ⟨_, rfl⟩
  refine ⟨table, e, htable, he, ?_⟩
  have hfrozen : (frozenDataTypeProviders (run {} [.register robot, .register geometry])).2 = .ok [geometry, robot] := by
    with_unfolding_all rfl
  have hbind := @endpoint_binding _ Unit _ [.register robot, .register geometry] endpointNamespaces makeStruct table
    [geometry, robot] hfrozen
  have hdepends : (run {} [.register robot, .register geometry]).DependsOn (lit "robot") (lit "geometry") :=
    ⟨robot, by rw [hrun]; rfl, by simp [robot]⟩
  obtain ⟨q, hq, hready⟩ := (hbind.1 [geometry] robot [] [] _ [] e rfl rfl he).1 _ (.single hdepends)
  rw [hrun] at hq
  obtain rfl : geometry = q := Option.some.inj hq
  exact hready

end Example

/-! ## Codecs -/

/-- The codec of a name and the codec of its type are the same, and owned, exactly in those repositories where no type
with a protocol has two names. -/
theorem codecs_agree_iff {F T : Type} [DecidableEq T] (s : RegistryState F) (namespaces : List (Str × Nat))
    (materialize : Materialize F) (repository : TypeRepository T) (source : CodecSource T) (r : EndpointTypeRegistry T)
    (h : (EndpointTypeRegistry.create s namespaces materialize repository source).2 = .ok r) :
    r.codecs.Agree repository ↔ repository.NoAlias := by
  obtain ⟨table, providers, -, -, -, hcodecs⟩ := create_eq_ok h
  exact (CodecsInv.run .init repository.nodup hcodecs).agree_iff

section Example

/-- A repository of one type, `int`, with a protocol. -/
def intRepository (names : List Str) (nodup : names.Nodup) : TypeRepository Unit where
  names
  nodup
  type _ := some ()
  protocol _ := some (.typeProtocol ⟨.builtin ⟨0, .numeric 6⟩, []⟩)

/-- Every `bind` succeeds. -/
def builtinCodecs : CodecSource Unit where
  knows _ := true
  bind _ _ id _ := (some id, [])

def oneName : TypeRepository Unit := intRepository [lit "int"] (by simp)

theorem codecs_agree_iff_oneName : ∃ r, (EndpointTypeRegistry.create ({} : RegistryState LogicalDataTypeId)
    [(namespaceZero, 0)] makeStruct oneName builtinCodecs).2 = .ok r ∧ r.codecs.Agree oneName := by
  refine ⟨_, rfl, (codecs_agree_iff ({} : RegistryState LogicalDataTypeId) [(namespaceZero, 0)] makeStruct oneName
    builtinCodecs _ rfl).2 ?_⟩
  intro name name' t hname hname' _ _
  rw [List.mem_singleton.1 hname, List.mem_singleton.1 hname']

/-- `int` and an alias of it. -/
def twoNames : TypeRepository Unit := intRepository [lit "int", lit "integer"] (by decide)

/-- The alias points to a codec that is gone. -/
theorem alias_dangles : ∃ r, (EndpointTypeRegistry.create ({} : RegistryState LogicalDataTypeId)
    [(namespaceZero, 0)] makeStruct twoNames builtinCodecs).2 = .ok r ∧ ¬ r.codecs.Agree twoNames := by
  refine ⟨_, rfl, fun hagree => ?_⟩
  obtain ⟨t, ht⟩ := hagree.owned (lit "integer") 1 rfl
  have hfirst : (some 0 : Option Nat) = some 1 := ht
  cases hfirst

end Example

/-! ## Protocols -/

/-- Threads that register protocols and freeze the registry. What a `TypeInfo` holds is never replaced. A registration
is answered by the comparison with what the type holds, and leaves it alone if it held something when the call began.
If no freeze returns between the test and the addition of a registration, no type gets a protocol after a freeze has
returned. -/
theorem protocols_fixed {F T : Type} [DecidableEq T] (env : Environment F T)
    (c : Config Nat (ProtocolState F T) (ProtocolPc F T))
    (h : (protocolProgram env).Reach (ProtocolsInOrder env) c) :
    (∀ c', (protocolProgram env).Steps c c' → ∀ t x,
      c.shared.transporter t = some x → c'.shared.transporter t = some x) ∧
    Answered c ∧
    (∀ i r result, c.frame i = .unlock r result → Decided c.shared r result) ∧
    (∀ i a c' r, (c.frame i).registration = some r → r.held.isSome = true →
      (protocolProgram env).next c i a = some c' → c'.shared.transporter = c.shared.transporter) ∧
    (c.shared.freezeReturned = true → ∀ c', (protocolProgram env).Steps c c' →
      ∀ t, c.shared.transporter t = none → c'.shared.transporter t = none) := by
  have hassert := (protocolOutline_reachable h.reachable).2
  refine ⟨fun c' hsteps t x hx => ?_, answered_of_reach h, fun i r result hi => ?_, fun i a c' r hr hheld hn => ?_,
    fun hret c' hsteps t hnone => ?_⟩
  · exact steps_preserve (Q := fun d => d.shared.transporter t = some x)
      (fun d i a d' hd hx hn => transporter_kept hd hn hx) h.reachable hsteps hx
  · have hfacts := (hassert i).2
    rw [hi] at hfacts
    exact hfacts.2
  · refine transporter_same hn fun r' hadd => ?_
    have hfacts := (hassert i).2
    rw [hadd] at hfacts hr
    obtain rfl : r' = r := Option.some.inj hr
    rw [hfacts.2.held hfacts.1] at hheld
    cases hheld
  · have hboth : Sealed c' ∧ c'.shared.transporter t = none := by
      refine steps_preserve (Q := fun d => Sealed d ∧ d.shared.transporter t = none) ?_ h.reachable hsteps
        ⟨sealed_of_returned h hret, hnone⟩
      intro d i a d' hd hs hn
      obtain ⟨hsealed, hsame⟩ := sealed_step hd hs.1 hn
      exact ⟨hsealed, by rw [hsame]; exact hs.2⟩
    exact hboth.2

section Example

/-- One `TypeInfo`, `Int32`, without a protocol. -/
def int32 : Environment LogicalDataTypeId Unit where
  typeName _ := lit "Int32"
  transporter _ := none
  fingerprint _ _ := nofun
  registry := {}
  materializeConnPolicy := connPolicyDataTypeId
  charSigned := true
  rtMalloc := false

def registerInt32 : ProtocolChoice LogicalDataTypeId Unit := .call (.registerCanonicalTypeProtocol (lit "Int32") (some ()))

/-- A thread registers, then another one freezes. -/
def registerThenFreeze : List (Nat × ProtocolChoice LogicalDataTypeId Unit) :=
  [(0, registerInt32), (0, .go true), (0, .go true), (0, .go true), (0, .go true), (0, .go true),
    (1, .call .freezeDataTypeRegistry), (1, .go true)]

/-- The thread is past a call, or in the registration of a provider. -/
def notInOrder : ProtocolPc LogicalDataTypeId Unit → Bool
  | .leave _ | .provider _ => true
  | _ => false

/-- The thread returns from a freeze. -/
def returnsOrder : ProtocolPc LogicalDataTypeId Unit → Bool
  | .leave (.ok _) => true
  | _ => false

theorem protocols_fixed_int32 : ∃ c, (protocolProgram int32).Reach (ProtocolsInOrder int32) c ∧
    c.shared.freezeReturned = true ∧ (c.shared.transporter ()).isSome = true ∧
    ∀ c', (protocolProgram int32).Steps c c' → c'.shared.transporter = c.shared.transporter := by
  -- the freeze returns last, and nobody holds the lock then
  obtain ⟨c, hc, hQ⟩ := reach_of_exec (P := protocolProgram int32)
    (fun c i _ => !notInOrder (c.frame i)) registerThenFreeze
    (fun c => c.shared.registrationMutex.isNone && (c.shared.transporter ()).isSome &&
      returnsOrder (c.frame 1)) (by with_unfolding_all decide)
  simp only [Bool.and_eq_true] at hQ
  obtain ⟨⟨hfree, hsome⟩, hleave⟩ := hQ
  have hr : (protocolProgram int32).Reach (ProtocolsInOrder int32) c := by
    refine hc.weaken fun c i a hok => ?_
    unfold ProtocolsInOrder
    cases hi : c.frame i <;> simp [hi, notInOrder] at hok ⊢
  unfold returnsOrder at hleave
  split at hleave
  · rename_i order hi
    have hstep : (protocolProgram int32).next c 1 (.go true) =
        some ⟨{ c.shared with freezeReturned := c.shared.freezeReturned || true }, Function.update c.frame 1 .done⟩ := by
      rw [next_eq_some]
      exact ⟨_, _, by rw [hi]; rfl, rfl⟩
    have hr' := ReachFrom.step hr (by
      rw [ProtocolsInOrder, hi]
      intro j r hj
      have hlock := ((protocolOutline_reachable hr.reachable).2 j).1 (by rw [hj]; rfl)
      rw [hlock] at hfree
      cases hfree) hstep
    refine ⟨_, hr', by simp, hsome, fun c' hsteps => funext fun t => ?_⟩
    have hfixed := (protocols_fixed int32 _ hr').1 c' hsteps
    obtain ⟨x, hx⟩ := Option.isSome_iff_exists.1 hsome
    exact (hfixed t x hx).trans hx.symm
  · cases hleave

/-- The freeze comes between the test of the registration and its addition. -/
def freezeInBetween : List (Nat × ProtocolChoice LogicalDataTypeId Unit) :=
  [(0, registerInt32), (0, .go true), (0, .go true), (0, .go true),
    (1, .call .freezeDataTypeRegistry), (1, .go true), (1, .go true)]

/-- A protocol is added after a freeze has returned. -/
theorem late_protocol : ∃ c c', (protocolProgram int32).Reachable c ∧ c.shared.freezeReturned = true ∧
    c.shared.transporter () = none ∧ (protocolProgram int32).Steps c c' ∧ c'.shared.transporter () ≠ none := by
  obtain ⟨c, hc, hQ⟩ := reachable_of_exec (P := protocolProgram int32) freezeInBetween
    (fun c => c.shared.freezeReturned && (c.shared.transporter ()).isNone &&
      ((protocolProgram int32).next c 0 (.go true)).any fun c' => (c'.shared.transporter ()).isSome)
    (by with_unfolding_all decide)
  simp only [Bool.and_eq_true, Option.isNone_iff_eq_none] at hQ
  obtain ⟨⟨hret, hnone⟩, hnext⟩ := hQ
  obtain ⟨c', hn, hsome⟩ := (Option.any_eq_true _ _).1 hnext
  exact ⟨c, c', hc, hret, hnone, .step .refl trivial hn, Option.isSome_iff_ne_none.1 hsome⟩

end Example

end RttOpcua.Types
