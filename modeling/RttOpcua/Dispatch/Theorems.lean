import RttOpcua.Dispatch.Invoke
import RttOpcua.Model.Lemmas.Describe

/-!
# The two ways of an invocation
-/

namespace RttOpcua.Dispatch

open RttOpcua.Lib RttOpcua.Model RttOpcua.Values

variable {V X : Type} {registry : ValueRegistry V X}

/-! ## Inputs and outputs -/

/-- The value of an input, `makeDataSource` of the codec of its type. -/
def decodeInput (registry : ValueRegistry V X) (type : Option Nat) (x : X) : Option V := do
  let codec ← type.bind registry.codecForTypeInfo
  codec.fromVariant x

/-- The `Variant` of the value of a data source, with the codec of its type. -/
def encodeValue (registry : ValueRegistry V X) (value : Value V) : Option X := do
  let codec ← registry.codecForTypeInfo value.typeInfo
  if codec.typeInfo = value.typeInfo then codec.toVariant value.value else none

theorem makeInputs_eq_none {type : Option Nat} {x : X} (hdecode : decodeInput registry type x = none) :
    ∀ {types : List (Option Nat)} {inputs : List X} {k : Nat}, types[k]? = some type → inputs[k]? = some x →
      makeInputs registry types inputs = none := by
  intro types
  induction types with
  | nil => exact fun hk => (nomatch hk)
  | cons first types ih =>
      intro inputs k htype hx
      cases inputs with
      | nil => exact nomatch hx
      | cons input inputs =>
          cases k with
          | zero =>
              cases htype
              cases hx
              simp only [decodeInput, Option.bind_eq_bind] at hdecode
              simp only [makeInputs, Option.bind_eq_bind]
              cases hcodec : type.bind registry.codecForTypeInfo with
              | none => rfl
              | some codec =>
                  rw [hcodec, Option.bind_some] at hdecode
                  simp [hdecode]
          | succ k =>
              have hrest := ih htype hx
              simp [makeInputs, hrest]

/-- The data sources of the inputs have the types of the arguments. -/
theorem typeInfo_makeInputs (hcodecs : ∀ t codec, registry.codecForTypeInfo t = some codec → codec.typeInfo = t)
    {types : List (Option Nat)} : ∀ {inputs : List X} {values : List (Value V)}, inputs.length = types.length →
      makeInputs registry types inputs = some values → values.map (fun value => some value.typeInfo) = types := by
  induction types with
  | nil =>
      intro inputs values _ h
      cases h
      rfl
  | cons type types ih =>
      intro inputs values hlength h
      obtain ⟨x, inputs, rfl⟩ := List.exists_cons_of_length_eq_add_one hlength
      simp only [makeInputs, Option.bind_eq_bind, Option.bind_eq_some_iff] at h
      obtain ⟨codec, ⟨t, rfl, hcodec⟩, value, -, rest, hrest, hvalues⟩ := h
      cases hvalues
      rw [List.map_cons, ih (Nat.succ.inj hlength) hrest, hcodecs t codec hcodec]

/-- `encodeOutputs` succeeds exactly if every value encodes, and then it gives their `Variant`s in order. -/
theorem encodeValues_spec (values : List (Value V)) :
    ((encodeValues registry values).1 = .Good ↔ ∀ value ∈ values, (encodeValue registry value).isSome = true) ∧
      ((encodeValues registry values).1 = .Good →
        (encodeValues registry values).2.map some = values.map (encodeValue registry)) ∧
      ((encodeValues registry values).1 ≠ .Good → (encodeValues registry values).1 = .BadInternalError) := by
  induction values with
  | nil => simp [encodeValues]
  | cons value rest ih =>
      obtain ⟨hgood, hvalues, hbad⟩ := ih
      have hstep : encodeValues registry (value :: rest) =
          (encodeValue registry value).elim (.BadInternalError, [])
            fun x => ((encodeValues registry rest).1, x :: (encodeValues registry rest).2) := by
        simp only [encodeValues, encodeValue, Option.bind_eq_bind]
        cases registry.codecForTypeInfo value.typeInfo with
        | none => rfl
        | some codec =>
            simp only [Option.bind_some]
            cases (if codec.typeInfo = value.typeInfo then codec.toVariant value.value else none) with
            | none => rfl
            | some x => rfl
      rw [hstep]
      cases hencode : encodeValue registry value with
      | none => simp [hencode]
      | some x => simpa [hencode] using ⟨hgood, hvalues, hbad⟩

/-! ## Collected values -/

section Collect

variable {inputs : List (Value V)} {result : Option V} {arguments : List V} {fresh : Nat → V}

/-- The references are arguments, and each has a final value. -/
theorem references_spec (hlength : arguments.length = inputs.length) {references : List Nat} :
    ∀ {types : List Nat}, (references.map fun i => (inputs[i]?).map Value.typeInfo) = types.map some →
      (references.filterMap fun i => arguments[i]?).length = types.length ∧ ∀ i ∈ references, i < inputs.length := by
  induction references with
  | nil =>
      intro types h
      obtain rfl : types = [] := by simpa using h.symm
      exact ⟨rfl, nofun⟩
  | cons i references ih =>
      intro types h
      cases types with
      | nil => cases h
      | cons t types =>
          rw [List.map_cons, List.map_cons, List.cons.injEq, Option.map_eq_some_iff] at h
          obtain ⟨⟨input, hinput, -⟩, hrest⟩ := h
          obtain ⟨hcount, hlt⟩ := ih hrest
          obtain ⟨hi, -⟩ := List.getElem?_eq_some_iff.1 hinput
          have ha := List.getElem?_eq_getElem (hlength ▸ hi)
          exact ⟨by simp [ha, hcount], List.forall_mem_cons.2 ⟨hi, hlt⟩⟩

/-- The data sources of the arguments hold what a collect yields for the references. -/
theorem after_references (hlength : arguments.length = inputs.length) {references : List Nat} :
    ∀ {types : List Nat}, (references.map fun i => (inputs[i]?).map Value.typeInfo) = types.map some →
      (references.map Collected.argument).map (Collected.after fresh inputs result arguments) =
        List.zipWith Value.mk types (references.filterMap fun i => arguments[i]?) := by
  induction references with
  | nil =>
      intro types h
      obtain rfl : types = [] := by simpa using h.symm
      rfl
  | cons i references ih =>
      intro types h
      cases types with
      | nil => cases h
      | cons t types =>
          rw [List.map_cons, List.map_cons, List.cons.injEq, Option.map_eq_some_iff] at h
          obtain ⟨⟨input, hinput, rfl⟩, hrest⟩ := h
          obtain ⟨hi, -⟩ := List.getElem?_eq_some_iff.1 hinput
          have ha := List.getElem?_eq_getElem (hlength ▸ hi)
          simp only [List.map_cons, ih hrest, List.filterMap_cons, ha, List.zipWith_cons_cons, Collected.after, hinput,
            List.getD, Option.getD_some]

theorem collectInto_eq {references types : List Nat}
    (hlength : (result.toList ++ references.filterMap fun i => arguments[i]?).length = types.length) :
    collectInto fresh references result arguments types =
      List.zipWith Value.mk types (result.toList ++ references.filterMap fun i => arguments[i]?) := by
  refine List.ext_getElem (by simp [collectInto, ← hlength]) fun k hk hk' => ?_
  have hlt : k < (result.toList ++ references.filterMap fun i => arguments[i]?).length := by
    rw [hlength]
    simpa [collectInto] using hk
  simp only [collectInto, List.getElem_mapIdx, List.getElem_zipWith, List.getElem?_eq_getElem hlt, Option.getD_some]

theorem buildValues_eq_some {types : List Nat} (h : ∀ t ∈ types, registry.buildValue t = true) :
    buildValues registry (types.map some) = some types := by
  induction types with
  | nil => rfl
  | cons t types ih =>
      obtain ⟨ht, hrest⟩ := List.forall_mem_cons.1 h
      simp [buildValues, ht, ih hrest]

theorem collectSources_references {arity : Nat} {references : List Nat} (h : ∀ i ∈ references, i < arity) :
    ∀ {types : List Nat}, references.length = types.length →
      collectSources registry arity ((references.map Int.ofNat).zip (types.map some)) =
        some (references.map Collected.argument) := by
  induction references with
  | nil => exact fun _ => rfl
  | cons i references ih =>
      intro types hlength
      obtain ⟨t, types, rfl⟩ := List.exists_cons_of_length_eq_add_one hlength.symm
      obtain ⟨hi, hrest⟩ := List.forall_mem_cons.1 h
      have hne : Int.ofNat i ≠ -1 := fun hneg => by cases hneg
      have hrange : 0 ≤ Int.ofNat i ∧ (Int.ofNat i).toNat < arity := ⟨Int.natCast_nonneg i, hi⟩
      simp only [List.map_cons, List.zip_cons_cons, collectSources, if_neg hne, if_pos hrange,
        ih hrest (Nat.succ.inj hlength)]
      rfl

end Collect

/-! ## The two ways -/

/-- RTT's part of an operation: it reports its signature, a collect and a call yield the return value and the final
values of the non-const references, and a value can be built of each collected type. -/
structure Collects (registry : ValueRegistry V X) (callable : Callable V) (passing : List Passing)
    (returnsValue : Bool) : Prop where
  reports : Reports registry.toTypeRegistry callable.operation passing returnsValue
  references : callable.references = referenceIndexes passing
  body : ∀ arguments result finals, callable.body arguments = .returned result finals →
    result.isSome = returnsValue ∧ finals.length = arguments.length
  builds : ∀ type ∈ callable.operation.collect, ∃ t, type = some t ∧ registry.buildValue t = true

/-- The return value and the final values of the references, with the collected types. -/
def results (callable : Callable V) (result : Option V) (finals : List V) : List (Value V) :=
  List.zipWith Value.mk (callable.operation.collect.filterMap id)
    (result.toList ++ callable.references.filterMap fun i => finals[i]?)

theorem complete_congr {completion : Completion V} {values values' : Option V → List V → List (Value V)} (outputs : Nat)
    (h : ∀ result finals, completion = .returned result finals → values result finals = values' result finals) :
    complete registry completion values outputs = complete registry completion values' outputs := by
  cases completion with
  | returned result finals => simp only [complete, h result finals rfl]
  | failed => rfl
  | threw => rfl
  | late => rfl

section Ways

variable {callable : Callable V} {passing : List Passing} {returnsValue : Bool} {fresh : Nat → V}
  {inputs : List (Value V)}

/-- The collected types: that of the return value and those of the references. -/
theorem Collects.types (h : Collects registry callable passing returnsValue)
    (htypes : inputs.map (fun value => some value.typeInfo) = callable.operation.types) :
    ∃ (returned : Option Nat) (ts : List Nat), callable.operation.collect = (returned.toList ++ ts).map some ∧
      returned.isSome = returnsValue ∧ callable.references.map (fun i => (inputs[i]?).map Value.typeInfo) = ts.map some ∧
      ∀ t ∈ returned.toList ++ ts, registry.buildValue t = true := by
  have hcollect := h.reports.collect
  have hreferences : (referenceIndexes passing).map (fun i => (callable.operation.types[i]?).join) =
      callable.references.map fun i => (inputs[i]?).map Value.typeInfo := by
    rw [h.references, ← htypes]
    refine List.map_congr_left fun i _ => ?_
    rw [List.getElem?_map]
    cases inputs[i]? <;> rfl
  rw [hreferences] at hcollect
  have hall : ∀ l : List (Option Nat), (∀ type ∈ l, ∃ t, type = some t ∧ registry.buildValue t = true) →
      ∃ ts : List Nat, l = ts.map some ∧ ∀ t ∈ ts, registry.buildValue t = true := by
    intro l
    induction l with
    | nil => exact fun _ => ⟨[], rfl, nofun⟩
    | cons type rest ih =>
        intro hl
        obtain ⟨⟨t, rfl, ht⟩, hrest⟩ := List.forall_mem_cons.1 hl
        obtain ⟨ts, rfl, hts⟩ := ih hrest
        exact ⟨t :: ts, rfl, List.forall_mem_cons.2 ⟨ht, hts⟩⟩
  have hbuilds := h.builds
  rw [hcollect] at hbuilds
  obtain ⟨ts, hts, htsBuild⟩ := hall _ fun type htype => hbuilds type (List.mem_append_right _ htype)
  rw [hts] at hcollect
  cases returnsValue with
  | false => exact ⟨none, ts, by simpa using hcollect, rfl, hts, by simpa using htsBuild⟩
  | true =>
      obtain ⟨t, ht, htBuild⟩ := hbuilds _ (List.mem_append_left _ List.mem_cons_self)
      refine ⟨some t, ts, by simpa [ht] using hcollect, rfl, hts, ?_⟩
      exact List.forall_mem_cons.2 ⟨htBuild, htsBuild⟩

/-- With a send data source: a collect stores the results. -/
theorem invokeSend_eq (h : Collects registry callable passing returnsValue)
    (htypes : inputs.map (fun value => some value.typeInfo) = callable.operation.types) (outputs : Nat) :
    invokeSend registry fresh callable inputs outputs =
      complete registry (callable.body (inputs.map Value.value)) (results callable) outputs := by
  obtain ⟨returned, ts, hcollect, hreturned, hreferences, hbuilds⟩ := h.types htypes
  have hbuilt := buildValues_eq_some hbuilds
  rw [← hcollect] at hbuilt
  simp only [invokeSend, hbuilt]
  refine complete_congr outputs fun result finals hbody => ?_
  obtain ⟨hresult, hlength⟩ := h.body _ _ _ hbody
  rw [List.length_map] at hlength
  obtain ⟨hcount, -⟩ := references_spec hlength hreferences
  have hreturnedLength : result.toList.length = returned.toList.length := by
    rw [Option.length_toList, Option.length_toList, hresult, hreturned]
  rw [collectInto_eq (by rw [List.length_append, List.length_append, hcount, hreturnedLength]), results, hcollect]
  simp

/-- Without one: the results are in the new data source and in those of the arguments. -/
theorem invokeCall_eq (h : Collects registry callable passing returnsValue)
    (hsupported : (describe registry.toTypeRegistry callable.operation).supported = true)
    (hsources : (describe registry.toTypeRegistry callable.operation).outputSources =
      (if returnsValue then [-1] else []) ++ (referenceIndexes passing).map Int.ofNat)
    (htypes : inputs.map (fun value => some value.typeInfo) = callable.operation.types) :
    invokeCall registry fresh callable inputs callable.operation.collect.length =
      complete registry (callable.body (inputs.map Value.value)) (results callable)
        callable.operation.collect.length := by
  obtain ⟨returned, ts, hcollect, hreturned, hreferences, hbuilds⟩ := h.types htypes
  have hcount : callable.references.length = ts.length := by simpa using congrArg List.length hreferences
  have hlt : ∀ i ∈ callable.references, i < inputs.length := by
    intro i hi
    have hsome : (inputs[i]?).map Value.typeInfo ∈ ts.map some := hreferences ▸ List.mem_map_of_mem hi
    obtain ⟨t, -, ht⟩ := List.mem_map.1 hsome
    obtain ⟨input, hinput, -⟩ := Option.map_eq_some_iff.1 ht.symm
    exact (List.getElem?_eq_some_iff.1 hinput).1
  rw [← h.references] at hsources
  have hrest : collectSources registry inputs.length ((callable.references.map Int.ofNat).zip (ts.map some)) =
      some (callable.references.map Collected.argument) := collectSources_references hlt hcount
  have hcollected : collectSources registry inputs.length
      ((describe registry.toTypeRegistry callable.operation).outputSources.zip callable.operation.collect) =
        some (returned.toList.map Collected.returnValue ++ callable.references.map Collected.argument) := by
    rw [hsources, hcollect, ← hreturned]
    cases returned with
    | none => simpa using hrest
    | some t => simp [collectSources, hbuilds t (by simp), hrest]
  have hlength : (describe registry.toTypeRegistry callable.operation).outputSources.length =
      callable.operation.collect.length := by
    rw [hsources, hcollect, ← hreturned]
    cases returned
    all_goals simp [hcount]
  have hadmitted : ¬ (¬ (describe registry.toTypeRegistry callable.operation).supported = true ∨
      (describe registry.toTypeRegistry callable.operation).outputSources.length ≠
        callable.operation.collect.length) := by
    rw [hsupported, hlength]
    simp
  simp only [invokeCall, if_neg hadmitted, hcollected]
  refine complete_congr _ fun result finals hbody => ?_
  obtain ⟨hresult, hfinals⟩ := h.body _ _ _ hbody
  rw [List.length_map] at hfinals
  have hafter : (callable.references.map Collected.argument).map (Collected.after fresh inputs result finals) =
      List.zipWith Value.mk ts (callable.references.filterMap fun i => finals[i]?) := after_references hfinals hreferences
  have hfilter : callable.operation.collect.filterMap id = returned.toList ++ ts := by
    rw [hcollect]
    simp
  rw [← hreturned] at hresult
  have hreturnValue : (returned.toList.map Collected.returnValue).map (Collected.after fresh inputs result finals) =
      List.zipWith Value.mk returned.toList result.toList := by
    cases returned with
    | none => rfl
    | some t =>
        obtain ⟨v, rfl⟩ := Option.isSome_iff_exists.1 hresult
        rfl
  have hreturnedLength : returned.toList.length = result.toList.length := by
    rw [Option.length_toList, Option.length_toList, hresult]
  rw [results, hfilter, List.map_append, hafter, hreturnValue, List.zipWith_append hreturnedLength]

theorem length_results (h : Collects registry callable passing returnsValue)
    (htypes : inputs.map (fun value => some value.typeInfo) = callable.operation.types) {result : Option V}
    {finals : List V} (hbody : callable.body (inputs.map Value.value) = .returned result finals) :
    (results callable result finals).length = callable.operation.collect.length := by
  obtain ⟨returned, ts, hcollect, hreturned, hreferences, -⟩ := h.types htypes
  obtain ⟨hresult, hfinals⟩ := h.body _ _ _ hbody
  rw [List.length_map] at hfinals
  obtain ⟨hcount, -⟩ := references_spec hfinals hreferences
  rw [results, hcollect]
  simp [hcount, Option.length_toList, hreturned, hresult]

end Ways

/-- An invocation is the same with and without a send data source. One with wrong counts or an input that does not decode
is refused before the operation is started; one whose operation returns is good exactly if every output value encodes, and
then the outputs are the `Variant`s of the return value and of the final values of the references. -/
theorem invoke_ways_agree {V X : Type} (registry : ValueRegistry V X)
    (hcodecs : ∀ t codec, registry.codecForTypeInfo t = some codec → codec.typeInfo = t) (fresh : Nat → V)
    (callable : Callable V) (passing : List Passing) (returnsValue : Bool)
    (h : Collects registry callable passing returnsValue)
    (hsupported : (describe registry.toTypeRegistry callable.operation).supported = true)
    (hsources : (describe registry.toTypeRegistry callable.operation).outputSources =
      (if returnsValue then [-1] else []) ++ (referenceIndexes passing).map Int.ofNat)
    (leased : Bool) (timeout : Int) (inputs : List X) (outputs : Nat) :
    let call := invoke registry fresh callable false leased timeout inputs outputs
    invoke registry fresh callable true leased timeout inputs outputs = call ∧
      (leased = true → 0 < timeout →
        ((inputs.length ≠ callable.operation.types.length ∨ outputs ≠ callable.operation.collect.length ∨
            ∃ (k : Nat) (type : Option Nat) (x : X), callable.operation.types[k]? = some type ∧ inputs[k]? = some x ∧
              decodeInput registry type x = none) →
          call.status = .BadInvalidArgument ∧ call.started = false) ∧
        ∀ values result finals, inputs.length = callable.operation.types.length →
          outputs = callable.operation.collect.length → makeInputs registry callable.operation.types inputs = some values →
          callable.body (values.map Value.value) = .returned result finals →
          call.started = true ∧
            (call.status = .Good ↔ ∀ value ∈ results callable result finals,
              (encodeValue registry value).isSome = true) ∧
            (call.status = .Good →
              call.outputs.map some = (results callable result finals).map (encodeValue registry)) ∧
            (call.status ≠ .Good → call.status = .BadInternalError)) := by
  intro call
  have hways : ∀ values, inputs.length = callable.operation.types.length →
      outputs = callable.operation.collect.length → makeInputs registry callable.operation.types inputs = some values →
      values.map (fun value => some value.typeInfo) = callable.operation.types ∧
      invokeSend registry fresh callable values outputs = complete registry (callable.body (values.map Value.value))
        (results callable) outputs ∧
      invokeCall registry fresh callable values outputs = complete registry (callable.body (values.map Value.value))
        (results callable) outputs := by
    intro values hlength hcount hvalues
    have htypes := typeInfo_makeInputs hcodecs hlength hvalues
    subst hcount
    exact ⟨htypes, invokeSend_eq h htypes _, invokeCall_eq h hsupported hsources htypes⟩
  refine ⟨?_, fun hleased htimeout => ⟨fun hwrong => ?_, fun values result finals hlength hcount hvalues hbody => ?_⟩⟩
  · simp only [call, invoke]
    split
    · rfl
    split
    · rfl
    split
    · rfl
    case isFalse hcounts =>
      obtain ⟨hlength, hcount⟩ := not_or.1 hcounts
      split
      · rfl
      case h_2 values hvalues =>
        obtain ⟨htypes, hsend, hcall⟩ := hways values (not_not.1 hlength) (not_not.1 hcount) hvalues
        rw [if_neg (not_not.2 htypes), if_neg (not_not.2 htypes), if_pos trivial, if_neg Bool.false_ne_true, hsend, hcall]
  · have hnone : ¬ (inputs.length ≠ callable.operation.types.length ∨ outputs ≠ callable.operation.collect.length) →
        makeInputs registry callable.operation.types inputs = none := by
      intro hcounts
      rw [not_or] at hcounts
      obtain hlength | hcount | ⟨k, type, x, htype, hx, hdecode⟩ := hwrong
      · exact absurd hlength hcounts.1
      · exact absurd hcount hcounts.2
      · exact makeInputs_eq_none hdecode htype hx
    simp only [call, invoke, hleased, not_true_eq_false, ↓reduceIte, if_neg (Int.not_le.2 htimeout)]
    split
    · exact ⟨rfl, rfl⟩
    case isFalse hcounts =>
      rw [hnone hcounts]
      exact ⟨rfl, rfl⟩
  · obtain ⟨htypes, -, hcall⟩ := hways values hlength hcount hvalues
    have hcounts : ¬ (inputs.length ≠ callable.operation.types.length ∨
        outputs ≠ callable.operation.collect.length) := by
      rw [hlength, hcount]
      simp
    have heq : call =
        { status := (encodeValues registry (results callable result finals)).1
          outputs := (encodeValues registry (results callable result finals)).2, started := true } := by
      simp only [call, invoke, hleased, not_true_eq_false, ↓reduceIte, if_neg (Int.not_le.2 htimeout), if_neg hcounts,
        hvalues, htypes, ne_eq, Bool.false_eq_true, hcall, hbody, complete, encodeOutputs]
      rw [if_neg (by rw [length_results h htypes hbody, hcount]; simp)]
    rw [heq]
    obtain ⟨hgood, houtputs, hbad⟩ := encodeValues_spec (results callable result finals)
    exact ⟨rfl, hgood, houtputs, hbad⟩

/-- `int` and task states, stored as they are. -/
@[reducible]
def sampleNative : Native Int Int := .self Int 6

def sampleCodec : Nat → Option (TypeCodec Int (Variant Int))
  | 0 => some (VoidTypeCodec Int (Variant Int) 0 24)
  | 1 => some (@ScalarTypeCodec Int Int Int Int sampleNative.toStored sampleNative .taskState 1 6)
  | 2 => some (@ScalarTypeCodec Int Int Int Int sampleNative.toStored sampleNative (.plain Int) 2 6)
  | _ => none

def sampleTypeName : Nat → Str
  | 0 => lit "Void"
  | n + 1 => List.replicate (n + 1) 84

theorem sampleTypeName_inj (t u : Nat) (h : sampleTypeName t = sampleTypeName u) : t = u := by
  have hvoid : ∀ n, lit "Void" ≠ List.replicate (n + 1) 84 := by
    intro n heq
    have hhead : (lit "Void").head? = some 84 := by rw [heq]; rfl
    exact absurd hhead (by decide)
  cases t with
  | zero =>
      cases u with
      | zero => rfl
      | succ u => exact absurd h (hvoid u)
  | succ t =>
      cases u with
      | zero => exact absurd h.symm (hvoid t)
      | succ u => simpa [sampleTypeName] using congrArg List.length h

/-- Task states have the type 1, `int` the type 2; `factory` says whether a value of `int` can be built. -/
def sampleValues (factory : Bool) : ValueRegistry Int (Variant Int) where
  getTypeName := sampleTypeName
  type name := if name = lit "Void" then some 0 else none
  buildValue t := t = 1 || t = 2 && factory
  buildActionAlias _ := true
  codecForTypeInfo := sampleCodec
  codecForTypeName name := if name = lit "Void" then sampleCodec 0 else none
  getTypeName_inj := sampleTypeName_inj
  void name codec h _ := by
    split at h
    · cases h
      exact fun _ => rfl
    · cases h

theorem sampleCodec_typeInfo (t : Nat) (codec : TypeCodec Int (Variant Int)) (h : sampleCodec t = some codec) :
    codec.typeInfo = t := by
  match t with
  | 0 => cases h; rfl
  | 1 => cases h; rfl
  | 2 => cases h; rfl
  | _ + 3 => cases h

/-- `int f(int, int &)`, which returns the first argument and increments the second. -/
def sampleCallable : Callable Int where
  operation :=
    { description := lit "increments"
      argumentList := some [⟨lit "x", [], lit "int"⟩, ⟨lit "count", [], lit "int &"⟩]
      returnType := some 2
      types := [some 2, some 2]
      collect := [some 2, some 2] }
  references := [1]
  body arguments := .returned (some (arguments.getD 0 0)) (arguments.modify 1 (· + 1))

theorem isType_int : IsType (lit "int") :=
  ⟨by decide, fun c hc => by cases hc; decide, fun c hc => by cases hc; decide, by decide⟩

theorem spells_int : Spells (lit "int") .value ∧ Spells (lit "int &") .reference :=
  ⟨@Spells.value (lit "int") [] [] isType_int nofun nofun,
    @Spells.reference (lit "int") [] (lit " ") [] isType_int nofun (by decide) nofun⟩

theorem sampleCallable_collects : Collects (sampleValues true) sampleCallable [.value, .reference] true where
  reports :=
    { arguments := ⟨_, rfl, .cons spells_int.1 (.cons spells_int.2 .nil)⟩
      types := rfl
      returns := fun t codec ht hcodec => by
        cases ht
        cases hcodec
        rfl
      collect := rfl }
  references := rfl
  body arguments result finals h := by
    cases h
    exact ⟨rfl, List.length_modify _ _ _⟩
  builds type htype := by
    simp only [sampleCallable, List.mem_cons, List.not_mem_nil, or_false, or_self] at htype
    exact ⟨2, htype, rfl⟩

theorem invoke_ways_agree_good :
    let inputs : List (Variant Int) := [.scalar 6 3, .scalar 6 4]
    let call := invoke (sampleValues true) (fun _ => 0) sampleCallable false true 1 inputs 2
    invoke (sampleValues true) (fun _ => 0) sampleCallable true true 1 inputs 2 = call ∧ call.status = .Good ∧
      call.outputs = [.scalar 6 3, .scalar 6 5] := by
  intro inputs call
  obtain ⟨hsame, hrest⟩ := invoke_ways_agree (sampleValues true) sampleCodec_typeInfo (fun _ => 0) sampleCallable
    [.value, .reference] true sampleCallable_collects (by decide +kernel) (by decide +kernel) true 1 inputs 2
  obtain ⟨-, hcompleted⟩ := hrest rfl (by decide)
  obtain ⟨-, hgood, -, -⟩ := hcompleted [⟨2, 3⟩, ⟨2, 4⟩] (some 3) [3, 5] rfl rfl (by decide +kernel) rfl
  exact ⟨hsame, hgood.2 (by decide +kernel), by decide +kernel⟩

/-- `TaskCore::TaskState f()`, which returns the code 7. -/
def stateCallable : Callable Int where
  operation := { description := [], argumentList := some [], returnType := some 1, types := [], collect := [some 1] }
  references := []
  body arguments := .returned (some 7) arguments

/-- `void f(int &)`. -/
def referenceCallable : Callable Int where
  operation :=
    { description := []
      argumentList := some [⟨lit "count", [], lit "int &"⟩]
      returnType := some 0
      types := [some 2]
      collect := [some 2] }
  references := [0]
  body arguments := .returned none (arguments.map (· + 1))

theorem stateCallable_collects : Collects (sampleValues true) stateCallable [] true where
  reports :=
    { arguments := ⟨_, rfl, .nil⟩
      types := rfl
      returns := fun t codec ht hcodec => by
        cases ht
        cases hcodec
        rfl
      collect := rfl }
  references := rfl
  body arguments result finals h := by
    cases h
    exact ⟨rfl, rfl⟩
  builds type htype := by
    simp only [stateCallable, List.mem_singleton] at htype
    exact ⟨1, htype, rfl⟩

theorem referenceCallable_reports :
    Reports (sampleValues false).toTypeRegistry referenceCallable.operation [.reference] false where
  arguments := ⟨_, rfl, .cons spells_int.2 .nil⟩
  types := rfl
  returns t codec ht hcodec := by
    cases ht
    cases hcodec
    rfl
  collect := rfl

/-- A return value that does not encode is an error on both ways, and a type without a value factory on one of them. -/
theorem completed_invoke_not_good :
    (Collects (sampleValues true) stateCallable [] true ∧
      (describe (sampleValues true).toTypeRegistry stateCallable.operation).supported = true ∧
      (describe (sampleValues true).toTypeRegistry stateCallable.operation).outputSources = [-1] ∧
      (∀ sends, (invoke (sampleValues true) (fun _ => 0) stateCallable sends true 1 [] 1).status = .BadInternalError)) ∧
    (Reports (sampleValues false).toTypeRegistry referenceCallable.operation [.reference] false ∧
      (describe (sampleValues false).toTypeRegistry referenceCallable.operation).supported = true ∧
      (describe (sampleValues false).toTypeRegistry referenceCallable.operation).outputSources = [0] ∧
      (invoke (sampleValues false) (fun _ => 0) referenceCallable false true 1 [.scalar 6 4] 1).status = .Good ∧
      (invoke (sampleValues false) (fun _ => 0) referenceCallable true true 1 [.scalar 6 4] 1).status =
        .BadNotSupported) :=
  ⟨⟨stateCallable_collects, by decide +kernel, by decide +kernel, by decide +kernel⟩,
    referenceCallable_reports, by decide +kernel, by decide +kernel, by decide +kernel, by decide +kernel⟩

end RttOpcua.Dispatch
