import RttOpcua.Remote.Call
import Mathlib.Data.List.Forall2
import Mathlib.Data.List.Zip

/-!
# What a call assigns

A call and a `get` run the same loop, over destinations of the same types: both assign the values of the outputs before
the first one that does not decode.
-/

namespace RttOpcua.Remote

open RttOpcua.Lib RttOpcua.Model RttOpcua.Values

variable {V X : Type} {registry : ValueRegistry V X}

/-! ## Decoded outputs -/

section Decoded

variable (registry)

/-- The value of an output of the type `type`, whose codec is found by `name`. -/
def decodeOutput (name : Str) (type : Nat) (x : X) : Option V :=
  (registry.codecForTypeName name).bind fun codec => if type = codec.typeInfo then codec.fromVariant x else none

/-- The values of the outputs before the first one that does not decode. -/
def decodedOutputs : List (Str × Nat × X) → List V
  | [] => []
  | (name, type, x) :: rest =>
      match decodeOutput registry name type x with
      | none => []
      | some v => v :: decodedOutputs rest

/-- A destination for values of `type`. `Void` needs none. -/
def Fits (type : Nat) : Option Source → Prop
  | none => registry.getTypeName type = lit "Void"
  | some destination => destination.typeInfo = type ∧ destination.isAssignable = true

end Decoded

/-- Assignments to destinations, in order. -/
def Memory.setAll (memory : Memory V) : List (Option Source × V) → Memory V
  | [] => memory
  | (none, _) :: rest => memory.setAll rest
  | (some destination, v) :: rest => (memory.set destination.id v).setAll rest

theorem decodedOutputs_length_le (registry : ValueRegistry V X) (outputs : List (Str × Nat × X)) :
    (decodedOutputs registry outputs).length ≤ outputs.length := by
  induction outputs with
  | nil => exact Nat.le_refl 0
  | cons output rest ih =>
      obtain ⟨name, type, x⟩ := output
      simp only [decodedOutputs]
      split
      · exact Nat.zero_le _
      · exact Nat.succ_le_succ ih

/-- The values are those of the outputs in front, and the next output does not decode. -/
theorem decodedOutputs_spec (outputs : List (Str × Nat × X)) :
    (∀ (k : Nat) (v : V), (decodedOutputs registry outputs)[k]? = some v →
      ∃ name type x, outputs[k]? = some (name, type, x) ∧ decodeOutput registry name type x = some v) ∧
    ((decodedOutputs registry outputs).length < outputs.length →
      ∃ name type x, outputs[(decodedOutputs registry outputs).length]? = some (name, type, x) ∧
        decodeOutput registry name type x = none) := by
  induction outputs with
  | nil => exact ⟨fun _ _ h => (nomatch h), fun h => absurd h (Nat.lt_irrefl 0)⟩
  | cons output rest ih =>
      obtain ⟨name, type, x⟩ := output
      obtain ⟨hvalues, hnext⟩ := ih
      simp only [decodedOutputs]
      cases hdecode : decodeOutput registry name type x with
      | none => exact ⟨fun _ _ h => (nomatch h), fun _ => ⟨name, type, x, rfl, hdecode⟩⟩
      | some v =>
          refine ⟨fun k w hk => ?_, fun hlt => hnext (Nat.lt_of_succ_lt_succ hlt)⟩
          cases k with
          | zero =>
              cases hk
              exact ⟨name, type, x, rfl, hdecode⟩
          | succ k => exact hvalues k w hk

theorem decodeOutput_void {name : Str} {type : Nat} (h : registry.getTypeName type = lit "Void") (x : X) :
    decodeOutput registry name type x = none := by
  cases hcodec : registry.codecForTypeName name with
  | none => simp [decodeOutput, hcodec]
  | some codec =>
      simp only [decodeOutput, hcodec, Option.bind_some]
      split
      case isTrue htype => exact registry.void name codec hcodec (htype ▸ h) x
      case isFalse => rfl

theorem assignOutputs_cons {type : Nat} {destination : Option Source} (h : Fits registry type destination) (name : Str)
    (x : X) (rest : List (Str × X × Option Source)) (memory : Memory V) :
    assignOutputs registry ((name, x, destination) :: rest) memory =
      match decodeOutput registry name type x with
      | none => (memory, false)
      | some v => assignOutputs registry rest (memory.setAll [(destination, v)]) := by
  cases destination with
  | none =>
      rw [decodeOutput_void h]
      simp only [assignOutputs, assignVariant]
      split <;> rfl
  | some destination =>
      obtain ⟨rfl, hassignable⟩ := h
      cases hcodec : registry.codecForTypeName name with
      | none => simp [assignOutputs, decodeOutput, hcodec]
      | some codec =>
          simp only [assignOutputs, decodeOutput, hcodec, Option.bind_some, assignVariant, hassignable, and_true]
          by_cases htype : destination.typeInfo = codec.typeInfo
          · cases hdecode : codec.fromVariant x with
            | none => simp [htype]
            | some v => simp [htype, Memory.setAll]
          · simp [htype]

theorem Memory.setAll_append (l l' : List (Option Source × V)) : ∀ memory : Memory V,
    memory.setAll (l ++ l') = (memory.setAll l).setAll l' := by
  induction l with
  | nil => exact fun _ => rfl
  | cons e rest ih =>
      obtain ⟨destination, v⟩ := e
      intro memory
      cases destination with
      | none => exact ih memory
      | some destination => exact ih _

/-- The loop: a prefix of the outputs is assigned, and it is all of them exactly if the loop succeeds. -/
theorem assignOutputs_eq {types : List Nat} {destinations : List (Option Source)}
    (h : List.Forall₂ (Fits registry) types destinations) :
    ∀ {names : List Str} {outputs : List X} (memory : Memory V), names.length = types.length →
      outputs.length = types.length →
      assignOutputs registry (names.zip (outputs.zip destinations)) memory =
        (memory.setAll (destinations.zip (decodedOutputs registry (names.zip (types.zip outputs)))),
          decide ((decodedOutputs registry (names.zip (types.zip outputs))).length = types.length)) := by
  induction h with
  | nil =>
      intro names outputs memory hnames houtputs
      obtain rfl := List.length_eq_zero_iff.1 hnames
      rfl
  | @cons type destination types destinations hfits _ ih =>
      intro names outputs memory hnames houtputs
      obtain ⟨name, names, rfl⟩ := List.exists_cons_of_length_eq_add_one hnames
      obtain ⟨x, outputs, rfl⟩ := List.exists_cons_of_length_eq_add_one houtputs
      simp only [List.zip_cons_cons, assignOutputs_cons hfits, decodedOutputs]
      cases hdecode : decodeOutput registry name type x with
      | none => simp [Memory.setAll]
      | some v =>
          simp only
          rw [ih _ (Nat.succ.inj hnames) (Nat.succ.inj houtputs), ← Memory.setAll_append]
          simp

/-- The sets of a list of assignments. -/
def sets (l : List (Option Source × V)) : List (Nat × V) :=
  l.filterMap fun e => e.1.map fun destination => (destination.id, e.2)

/-- What was set last in a data source. -/
def lastSet (l : List (Option Source × V)) (id : Nat) : Option V :=
  ((sets l).reverse.find? fun e => e.1 = id).map Prod.snd

/-- What `l` has done to the data sources: everything in it was set. A data source whose sets all take effect holds the
last one, and one in which nothing was set is unchanged. -/
structure Memory.Stores (memory : Memory V) (l : List (Option Source × V)) (after : Memory V) : Prop where
  assigned : after.assigned = memory.assigned ++ sets l
  taken : ∀ id, (∀ n, memory.drops id n = false) → after.value id = (lastSet l id).getD (memory.value id)
  others : ∀ id, (∀ e ∈ sets l, e.1 ≠ id) → after.value id = memory.value id

theorem lastSet_cons (destination : Source) (v : V) (rest : List (Option Source × V)) (id : Nat) :
    lastSet ((some destination, v) :: rest) id = (lastSet rest id).or (if destination.id = id then some v else none) := by
  simp only [lastSet, sets, List.filterMap_cons, Option.map_some, List.reverse_cons, List.find?_append, Option.map_or]
  by_cases hid : destination.id = id
  all_goals simp [hid]

theorem Memory.value_set_of_ne (memory : Memory V) {id id' : Nat} (h : id' ≠ id) (v : V) :
    (memory.set id v).value id' = memory.value id' := by
  simp only [Memory.set]
  split
  · rfl
  · exact Function.update_of_ne h v memory.value

theorem Memory.stores_setAll (l : List (Option Source × V)) (memory : Memory V) : memory.Stores l (memory.setAll l) := by
  induction l generalizing memory with
  | nil => exact ⟨(List.append_nil _).symm, fun _ _ => rfl, fun _ _ => rfl⟩
  | cons e rest ih =>
      obtain ⟨destination, v⟩ := e
      cases destination with
      | none =>
          have hrest := ih memory
          exact ⟨hrest.assigned, hrest.taken, hrest.others⟩
      | some destination =>
          obtain ⟨hassigned, htaken, hothers⟩ := ih (memory.set destination.id v)
          refine ⟨?_, fun id hid => ?_, fun id hid => ?_⟩
          · rw [Memory.setAll, hassigned]
            simp [Memory.set, sets]
          · rw [Memory.setAll, htaken id hid, lastSet_cons]
            by_cases hsame : destination.id = id
            · subst hsame
              simp [Memory.set, hid]
            · rw [memory.value_set_of_ne (Ne.symm hsame), if_neg hsame, Option.or_none]
          · obtain ⟨hne, hrest⟩ := List.forall_mem_cons.1 hid
            rw [Memory.setAll, hothers id hrest, memory.value_set_of_ne (Ne.symm hne)]

/-! ## Destinations -/

namespace RemoteOperation

/-- Each source is the return value or a mutable argument, and has the type of its output. -/
def SourceOf (inputTypes : List Nat) (returnType : Option Nat) (mutableArguments : OrdSet Nat) (source : Int)
    (type : Nat) : Prop :=
  source = -1 ∧ returnType = some type ∨
    source ≠ -1 ∧ 0 ≤ source ∧ inputTypes[source.toNat]? = some type ∧ mutableArguments.contains source.toNat = true

theorem SourceOf.mono {inputTypes : List Nat} {mutableArguments mutableArguments' : OrdSet Nat} {source : Int}
    {type : Nat} {returnType returnType' : Option Nat}
    (h : SourceOf inputTypes returnType mutableArguments source type)
    (hreturn : ∀ t, returnType = some t → returnType' = some t)
    (hmutable : ∀ i, mutableArguments.contains i = true → mutableArguments'.contains i = true) :
    SourceOf inputTypes returnType' mutableArguments' source type := by
  obtain ⟨hsource, htype⟩ | ⟨hsource, hle, htype, hcontains⟩ := h
  · exact .inl ⟨hsource, hreturn _ htype⟩
  · exact .inr ⟨hsource, hle, htype, hmutable _ hcontains⟩

theorem assignSources_eq_ok {name : Str} {inputTypes : List Nat} (outputs : List (Int × Nat)) :
    ∀ {returnType returnType' : Option Nat} {mutableArguments mutableArguments' : OrdSet Nat},
      assignSources name inputTypes outputs returnType mutableArguments = .ok (returnType', mutableArguments') →
      (∀ t, returnType = some t → returnType' = some t) ∧
      (∀ i, mutableArguments.contains i = true → mutableArguments'.contains i = true) ∧
      ∀ e ∈ outputs, SourceOf inputTypes returnType' mutableArguments' e.1 e.2 := by
  induction outputs with
  | nil =>
      intro returnType returnType' mutableArguments mutableArguments' h
      cases h
      exact ⟨fun _ ht => ht, fun _ hi => hi, nofun⟩
  | cons output rest ih =>
      obtain ⟨source, type⟩ := output
      intro returnType returnType' mutableArguments mutableArguments' h
      simp only [assignSources] at h
      split at h
      case isTrue hsource =>
        split at h
        · cases h
        case isFalse hnone =>
          obtain ⟨hreturn, hmutable, hrest⟩ := ih h
          refine ⟨fun t ht => ?_, hmutable, List.forall_mem_cons.2 ⟨.inl ⟨hsource, hreturn _ rfl⟩, hrest⟩⟩
          rw [ht] at hnone
          exact absurd rfl hnone
      case isFalse hsource =>
        split at h
        case isTrue hrange =>
          split at h
          · cases h
          case isFalse hnew =>
            rw [not_or, not_not] at hnew
            obtain ⟨hreturn, hmutable, hrest⟩ := ih h
            have hself : OrdMap.contains (mutableArguments.insert source.toNat) source.toNat = true := by simp
            refine ⟨hreturn, fun i hi => hmutable i (by simp [hi]), List.forall_mem_cons.2 ⟨?_, hrest⟩⟩
            exact .inr ⟨hsource, hrange.1, hnew.1, hmutable _ hself⟩
        case isFalse => cases h

theorem resolveTypes_length {registry : TypeRegistry} {what : Str} (names : List Str) :
    ∀ {types : List Nat}, resolveTypes registry what names = .ok types → names.length = types.length := by
  induction names with
  | nil =>
      intro types h
      cases h
      rfl
  | cons name rest ih =>
      intro types h
      simp only [resolveTypes] at h
      split at h
      · cases h
      split at h
      · cases h
      cases hrest : resolveTypes registry what rest with
      | error => rw [hrest] at h; cases h
      | ok more =>
          rw [hrest] at h
          cases h
          exact congrArg (· + 1) (ih hrest)

theorem construct_eq_ok {registry : TypeRegistry} {description : RemoteOperationDescription}
    {operation : RemoteOperation} (h : construct registry description = .ok operation) :
    operation.description = description ∧ description.outputTypes.length = operation.outputTypes.length ∧
      description.outputSources.length = operation.outputTypes.length ∧
      ∀ e ∈ description.outputSources.zip operation.outputTypes,
        SourceOf operation.inputTypes (some operation.returnType) operation.mutableArguments e.1 e.2 := by
  simp only [construct, bind, Except.bind] at h
  split at h
  · cases h
  split at h
  · cases h
  case h_2 inputTypes hinputs _ outputTypes houtputs =>
    split at h
    · cases h
    case isFalse hlength =>
      split at h
      · cases h
      case h_2 found hassign =>
        obtain ⟨returned, mutableArguments⟩ := found
        simp only at h
        split at h
        · cases h
        case h_2 returnType hreturn =>
          cases h
          obtain ⟨-, -, hsources⟩ := assignSources_eq_ok _ hassign
          refine ⟨rfl, resolveTypes_length _ houtputs, (not_not.1 hlength).symm, fun e he => ?_⟩
          refine (hsources e he).mono (fun t ht => ?_) fun _ hi => hi
          rw [ht] at hreturn
          exact hreturn.symm

section Produce

variable {operation : RemoteOperation}

theorem typeInfo_of_name {source : Source} {type : Nat}
    (h : sourceTypeName registry (some source) = registry.getTypeName type) : source.typeInfo = type :=
  registry.getTypeName_inj _ _ h

theorem validateArgumentTypes_eq_ok (pairs : List (Option Source × Nat)) :
    ∀ {index : Nat}, validateArgumentTypes registry operation index pairs = .ok () →
      ∀ (k : Nat) (argument : Option Source) (type : Nat), pairs[k]? = some (argument, type) →
        operation.mutableArguments.contains (index + k) = true → Fits registry type argument := by
  induction pairs with
  | nil => exact fun _ _ _ _ hk => nomatch hk
  | cons pair rest ih =>
      obtain ⟨argument, type⟩ := pair
      intro index h k argument' type' hk hmutable
      simp only [validateArgumentTypes] at h
      split at h
      · cases h
      case isFalse hvalid =>
        split at h
        · cases h
        case isFalse hlvalue =>
          cases k with
          | succ k => exact ih h k argument' type' hk (by rwa [Nat.add_right_comm])
          | zero =>
              cases hk
              cases argument with
              | none => exact absurd (.inl rfl) hvalid
              | some source =>
                  have hname : sourceTypeName registry (some source) = registry.getTypeName type := by
                    by_contra hne
                    exact hvalid (.inr (.inl hne))
                  refine ⟨typeInfo_of_name hname, ?_⟩
                  by_contra hassignable
                  exact hlvalue ⟨hmutable, by simpa using hassignable⟩

theorem validateDestinations_eq_ok (pairs : List (Option Source × Nat)) :
    ∀ {index : Nat}, validateDestinations registry index pairs = .ok () →
      ∀ pair ∈ pairs, Fits registry pair.2 pair.1 := by
  induction pairs with
  | nil => exact nofun
  | cons pair rest ih =>
      obtain ⟨destination, type⟩ := pair
      intro index h
      simp only [validateDestinations] at h
      split at h
      · cases h
      case isFalse hvalid =>
        refine List.forall_mem_cons.2 ⟨?_, ih h⟩
        cases destination with
        | none => exact absurd (.inl rfl) hvalid
        | some source =>
            obtain ⟨hassignable, hname⟩ := not_or.1 (not_or.1 hvalid).2
            exact ⟨typeInfo_of_name (not_not.1 hname), by simpa using hassignable⟩

theorem fits_of_zip {types : List Nat} {destinations : List (Option Source)}
    (hlength : destinations.length = types.length)
    (h : ∀ pair ∈ destinations.zip types, Fits registry pair.2 pair.1) :
    List.Forall₂ (Fits registry) types destinations := by
  rw [List.forall₂_iff_zip]
  refine ⟨hlength.symm, fun {type destination} hmem => ?_⟩
  refine h (destination, type) ?_
  rw [← List.zip_swap, List.mem_map]
  exact ⟨(type, destination), hmem, rfl⟩

/-- The destinations of a call have the types of the outputs. -/
theorem produce_eq_ok {registry : ValueRegistry V X} {description : RemoteOperationDescription}
    {arguments : List (Option Source)} {slot : Nat} {action : RemoteCallAction X}
    (hconstruct : construct registry.toTypeRegistry description = .ok operation)
    (h : produce registry operation arguments slot = .ok action) :
    action.arguments = arguments ∧ action.outputTypes = description.outputTypes ∧
      action.outputSources = description.outputSources ∧ action.prepared = none ∧
      List.Forall₂ (Fits registry) operation.outputTypes
        (description.outputSources.map (callDestination arguments action.returnValue)) := by
  obtain ⟨rfl, -, hlength, hsources⟩ := construct_eq_ok hconstruct
  simp only [produce, bind, Except.bind] at h
  split at h
  · cases h
  case h_2 hvalidate =>
    simp only [validateArguments] at hvalidate
    split at hvalidate
    · cases hvalidate
    case isFalse harity =>
      -- the slot of the return value
      obtain ⟨returnValue, hreturn, rfl⟩ : ∃ returnValue, Fits registry operation.returnType returnValue ∧ action =
          { arguments, outputTypes := operation.description.outputTypes
            outputSources := operation.description.outputSources, returnValue } := by
        split at h
        case isTrue hvoid =>
          cases h
          exact ⟨none, hvoid, rfl⟩
        case isFalse =>
          split at h
          · cases h
          split at h
          · cases h
          · cases h
            exact ⟨some _, ⟨rfl, rfl⟩, rfl⟩
      refine ⟨rfl, rfl, rfl, rfl, fits_of_zip (by rw [List.length_map, hlength]) fun pair hpair => ?_⟩
      obtain ⟨k, hk⟩ := List.mem_iff_getElem?.1 hpair
      obtain ⟨hdestination, htype⟩ := List.getElem?_zip_eq_some.1 hk
      rw [List.getElem?_map, Option.map_eq_some_iff] at hdestination
      obtain ⟨source, hsource, hdestination⟩ := hdestination
      have hmem : (source, pair.2) ∈ operation.description.outputSources.zip operation.outputTypes :=
        List.mem_iff_getElem?.2 ⟨k, List.getElem?_zip_eq_some.2 ⟨hsource, htype⟩⟩
      rw [← hdestination]
      obtain ⟨rfl, hreturnType⟩ | ⟨hne, hle, hinput, hmutable⟩ := hsources _ hmem
      · exact Option.some.inj hreturnType ▸ hreturn
      · have hlt : source.toNat < arguments.length := by
          rw [not_not.1 harity]
          exact (List.getElem?_eq_some_iff.1 hinput).1
        have hget : arguments[source.toNat]? = some arguments[source.toNat] := List.getElem?_eq_getElem hlt
        have hfits := validateArgumentTypes_eq_ok _ hvalidate source.toNat arguments[source.toNat] pair.2
          (List.getElem?_zip_eq_some.2 ⟨hget, hinput⟩) (by rwa [Nat.zero_add])
        simpa [callDestination, hne, hle, hlt] using hfits

theorem produceCollect_eq_ok {registry : ValueRegistry V X} {description : RemoteOperationDescription}
    {handle : Except Str (Option (Outcome X))} {destinations : List (Option Source)}
    {collect : RemoteCollectDataSource X}
    (hconstruct : construct registry.toTypeRegistry description = .ok operation)
    (h : produceCollect registry operation handle destinations = .ok collect) :
    ∃ invocation, handle = .ok invocation ∧
      collect = { invocation, destinations, outputTypes := description.outputTypes } ∧
      List.Forall₂ (Fits registry) operation.outputTypes destinations := by
  obtain ⟨rfl, -, -, -⟩ := construct_eq_ok hconstruct
  simp only [produceCollect] at h
  split at h
  · cases h
  case isFalse hlength =>
    cases handle with
    | error received => cases h
    | ok invocation =>
        simp only [bind, Except.bind] at h
        split at h
        · cases h
        case h_2 hvalidate =>
          cases h
          exact ⟨invocation, rfl, rfl, fits_of_zip (not_not.1 hlength) (validateDestinations_eq_ok _ hvalidate)⟩

end Produce

end RemoteOperation

/-! ## Results -/

/-- The result of a call has as many outputs as the operation. -/
def Accepted (operation : RemoteOperation) (result : RemoteCallResult X) : Prop :=
  result.success = true ∧ result.outputs.length = operation.outputTypes.length

instance (operation : RemoteOperation) (result : RemoteCallResult X) : Decidable (Accepted operation result) :=
  inferInstanceAs (Decidable (_ ∧ _))

/-- The outputs of an accepted result, each with the name of its codec and its type. -/
def outputsOf (operation : RemoteOperation) (result : RemoteCallResult X) : List (Str × Nat × X) :=
  operation.description.outputTypes.zip (operation.outputTypes.zip result.outputs)

/-- The values of a result that are assigned: none if it is not accepted. -/
def decoded (registry : ValueRegistry V X) (operation : RemoteOperation) (result : RemoteCallResult X) : List V :=
  if Accepted operation result then
    decodedOutputs registry (outputsOf operation result)
  else []

/-- Every output of an accepted result decodes. -/
def Decodes (registry : ValueRegistry V X) (operation : RemoteOperation) (result : RemoteCallResult X) : Prop :=
  Accepted operation result ∧ (decoded registry operation result).length = operation.outputTypes.length

instance (operation : RemoteOperation) (result : RemoteCallResult X) : Decidable (Decodes registry operation result) :=
  inferInstanceAs (Decidable (_ ∧ _))

section Results

variable {description : RemoteOperationDescription} {operation : RemoteOperation} {result : RemoteCallResult X}

theorem execute_eq {arguments : List (Option Source)} {slot : Nat} {action : RemoteCallAction X}
    (hconstruct : RemoteOperation.construct registry.toTypeRegistry description = .ok operation)
    (h : RemoteOperation.produce registry operation arguments slot = .ok action) {before memory : Memory V}
    (hprepared : (action.readArguments registry before).prepared.isSome = true) :
    (action.readArguments registry before).execute registry result memory =
      (memory.setAll ((description.outputSources.map (callDestination arguments action.returnValue)).zip
        (decoded registry operation result)), decide (Decodes registry operation result)) := by
  obtain ⟨rfl, hnames, hlength, -⟩ := RemoteOperation.construct_eq_ok hconstruct
  obtain ⟨harguments, htypes, hsources, -, hfits⟩ := RemoteOperation.produce_eq_ok hconstruct h
  have hsome : (action.readArguments registry before).prepared.isNone = false := by
    rw [← Option.not_isSome, hprepared]
    rfl
  rw [RemoteCallAction.execute, if_neg (by simp [hsome])]
  simp only [RemoteCallAction.readArguments, harguments, htypes, hsources, assignCallOutputs]
  by_cases haccepted : Accepted operation result
  · have hcount : ¬ (¬ result.success = true ∨ result.outputs.length ≠ operation.description.outputTypes.length ∨
        operation.description.outputTypes.length ≠ operation.description.outputSources.length) := by
      rw [haccepted.1, haccepted.2, hnames, hlength]
      simp
    rw [if_neg hcount, assignOutputs_eq hfits memory hnames haccepted.2]
    simp [decoded, Decodes, haccepted, outputsOf]
  · have hcount : ¬ result.success = true ∨ result.outputs.length ≠ operation.description.outputTypes.length ∨
        operation.description.outputTypes.length ≠ operation.description.outputSources.length := by
      rw [hnames]
      exact (Decidable.not_and_iff_or_not.1 haccepted).imp_right .inl
    rw [if_pos hcount]
    simp [decoded, Decodes, haccepted, Memory.setAll]

theorem length_outputsOf {registry : TypeRegistry}
    (hconstruct : RemoteOperation.construct registry description = .ok operation) (haccepted : Accepted operation result) :
    (outputsOf operation result).length = operation.outputTypes.length := by
  obtain ⟨rfl, hnames, -, -⟩ := RemoteOperation.construct_eq_ok hconstruct
  simp [outputsOf, hnames, haccepted.2]

theorem decoded_getElem? {k : Nat} {v : V} (h : (decoded registry operation result)[k]? = some v) :
    ∃ name type x, (outputsOf operation result)[k]? = some (name, type, x) ∧
      decodeOutput registry name type x = some v := by
  rw [decoded] at h
  split at h
  · exact (decodedOutputs_spec _).1 k v h
  · cases h

theorem decoded_failure (hconstruct : RemoteOperation.construct registry.toTypeRegistry description = .ok operation)
    (h : ¬ Decodes registry operation result) :
    (¬ Accepted operation result ∧ decoded registry operation result = []) ∨ ∃ name type x,
      (outputsOf operation result)[(decoded registry operation result).length]? = some (name, type, x) ∧
        decodeOutput registry name type x = none := by
  by_cases haccepted : Accepted operation result
  · right
    have hne : (decoded registry operation result).length ≠ operation.outputTypes.length := fun hall => h ⟨haccepted, hall⟩
    have hlength := length_outputsOf hconstruct haccepted
    rw [decoded, if_pos haccepted] at hne ⊢
    have hle := decodedOutputs_length_le registry (outputsOf operation result)
    exact (decodedOutputs_spec _).2 (by omega)
  · exact .inl ⟨haccepted, if_neg haccepted⟩

theorem isSome_of_decodes {destinations : List (Option Source)}
    (hfits : List.Forall₂ (Fits registry) operation.outputTypes destinations)
    (h : Decodes registry operation result) : ∀ destination ∈ destinations, destination.isSome = true := by
  intro destination hmem
  obtain ⟨haccepted, hall⟩ := h
  obtain ⟨k, hk⟩ := List.mem_iff_getElem?.1 hmem
  obtain ⟨hlt, -⟩ := List.getElem?_eq_some_iff.1 hk
  rw [← hfits.length_eq] at hlt
  rw [decoded, if_pos haccepted] at hall
  have hvalue := List.getElem?_eq_getElem (hall ▸ hlt)
  obtain ⟨name, type, x, houtput, hdecode⟩ := (decodedOutputs_spec _).1 k _ hvalue
  obtain ⟨-, hrest⟩ := List.getElem?_zip_eq_some.1 houtput
  obtain ⟨htype, -⟩ := List.getElem?_zip_eq_some.1 hrest
  cases destination with
  | some destination => rfl
  | none =>
      have hvoid : Fits registry type none := by
        have hpair : (type, none) ∈ operation.outputTypes.zip destinations :=
          List.mem_iff_getElem?.2 ⟨k, List.getElem?_zip_eq_some.2 ⟨htype, hk⟩⟩
        exact (List.forall₂_iff_zip.1 hfits).2 hpair
      rw [decodeOutput_void hvoid] at hdecode
      cases hdecode

theorem get_eq {destinations : List (Option Source)} {blocking ready : Bool}
    (hconstruct : RemoteOperation.construct registry.toTypeRegistry description = .ok operation)
    (hfits : List.Forall₂ (Fits registry) operation.outputTypes destinations) (hwaits : blocking = true ∨ ready = true)
    (memory : Memory V) :
    let collect : RemoteCollectDataSource X :=
      { invocation := some (.returned (some result)), destinations, outputTypes := description.outputTypes }
    collect.get registry blocking ready memory =
      ({ collect with status := if Decodes registry operation result then .SendSuccess else .SendFailure },
        memory.setAll (destinations.zip (decoded registry operation result))) := by
  intro collect
  obtain ⟨rfl, hnames, -, -⟩ := RemoteOperation.construct_eq_ok hconstruct
  have hnotFinal : ¬ (collect.status = .SendSuccess ∨ collect.status = .SendFailure) := by
    rintro (h | h) <;> cases h
  have hask : ¬ (¬ blocking = true ∧ ¬ ready = true) := fun h => hwaits.elim h.1 h.2
  have hdestinations : destinations.length = operation.outputTypes.length := hfits.length_eq.symm
  simp only [RemoteCollectDataSource.get, hnotFinal, hask, ↓reduceIte, collect]
  by_cases haccepted : Accepted operation result
  · have hcount : ¬ (¬ result.success = true ∨ result.outputs.length ≠ destinations.length ∨
        destinations.length ≠ operation.description.outputTypes.length) := by
      rw [haccepted.1, haccepted.2, hdestinations, hnames]
      simp
    rw [if_neg hcount, assignOutputs_eq hfits memory hnames haccepted.2]
    simp only [decoded, Decodes, haccepted, outputsOf, ↓reduceIte, true_and]
    split
    case h_1 heq =>
      obtain ⟨rfl, hall⟩ := Prod.mk.inj heq
      rw [if_pos (of_decide_eq_true hall)]
    case h_2 heq =>
      obtain ⟨rfl, hall⟩ := Prod.mk.inj heq
      rw [if_neg (of_decide_eq_false hall)]
  · have hcount : ¬ result.success = true ∨ result.outputs.length ≠ destinations.length ∨
        destinations.length ≠ operation.description.outputTypes.length := by
      rw [hdestinations]
      exact (Decidable.not_and_iff_or_not.1 haccepted).imp_right .inl
    rw [if_pos hcount]
    simp [decoded, Decodes, haccepted, Memory.setAll]

/-- A status of success or failure stays, and nothing is assigned any more. -/
theorem gets_of_final {collect : RemoteCollectDataSource X}
    (h : collect.status = .SendSuccess ∨ collect.status = .SendFailure) (memory : Memory V) (asks : List (Bool × Bool)) :
    collect.gets registry asks memory = (collect, memory) := by
  induction asks with
  | nil => rfl
  | cons ask rest ih =>
      obtain ⟨blocking, ready⟩ := ask
      have hget : collect.get registry blocking ready memory = (collect, memory) := by
        rw [RemoteCollectDataSource.get, if_pos h]
      simp only [RemoteCollectDataSource.gets, hget]
      exact ih

theorem gets_append (collect : RemoteCollectDataSource X) (memory : Memory V) (asks more : List (Bool × Bool)) :
    collect.gets registry (asks ++ more) memory =
      (collect.gets registry asks memory).1.gets registry more (collect.gets registry asks memory).2 := by
  induction asks generalizing collect memory with
  | nil => rfl
  | cons ask rest ih =>
      obtain ⟨blocking, ready⟩ := ask
      simp only [List.cons_append, RemoteCollectDataSource.gets]
      exact ih _ _

/-- A run of `get`s, one of which does not leave before the result is there. -/
theorem gets_eq {destinations : List (Option Source)}
    (hconstruct : RemoteOperation.construct registry.toTypeRegistry description = .ok operation)
    (hfits : List.Forall₂ (Fits registry) operation.outputTypes destinations) (memory : Memory V)
    (asks : List (Bool × Bool)) (hwaits : ∃ ask ∈ asks, ask.1 = true ∨ ask.2 = true) :
    let collect : RemoteCollectDataSource X :=
      { invocation := some (.returned (some result)), destinations, outputTypes := description.outputTypes }
    collect.gets registry asks memory =
      ({ collect with status := if Decodes registry operation result then .SendSuccess else .SendFailure },
        memory.setAll (destinations.zip (decoded registry operation result))) := by
  intro collect
  induction asks with
  | nil =>
      obtain ⟨ask, hmem, -⟩ := hwaits
      cases hmem
  | cons ask rest ih =>
      obtain ⟨blocking, ready⟩ := ask
      simp only [RemoteCollectDataSource.gets]
      by_cases hask : blocking = true ∨ ready = true
      · rw [get_eq hconstruct hfits hask memory]
        refine gets_of_final ?_ _ rest
        simp only
        split
        · exact .inl rfl
        · exact .inr rfl
      · have hnotReady : collect.get registry blocking ready memory = (collect, memory) := by
          rw [not_or] at hask
          simp [RemoteCollectDataSource.get, collect, hask]
        rw [hnotReady]
        obtain ⟨ask, hmem, hwait⟩ := hwaits
        rcases List.mem_cons.1 hmem with rfl | hmem
        · exact absurd hwait hask
        · exact ih ⟨ask, hmem, hwait⟩

end Results

end RttOpcua.Remote
