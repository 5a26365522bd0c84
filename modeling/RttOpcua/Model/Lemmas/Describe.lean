import RttOpcua.Model.Snapshot
import Mathlib.Data.List.Forall2

/-!
# How `describe` maps outputs to arguments

An operation as RTT reports it: the texts of its arguments, and the types it collects. Each collected output is matched
with the next argument whose text reads as a mutable reference.
-/

namespace RttOpcua.Model

open RttOpcua.Lib

/-! ## Positions -/

section Positions

variable {α : Type} {p q : α → Bool}

/-- The first positions of the elements with `q` are those of the elements with `p`, a part of them, exactly if no
element that has only `q` stands before one that has `p`. -/
theorem take_findIdxs_iff (hpq : ∀ x, p x = true → q x = true) (l : List α) :
    ∀ start, (l.findIdxs q start).take (l.countP p) = l.findIdxs p start ↔
      l.Pairwise fun a b => q a = true → p a = false → p b = false := by
  induction l with
  | nil => simp
  | cons x rest ih =>
      intro start
      rw [List.pairwise_cons, ← ih (start + 1)]
      cases hp : p x with
      | true => simp [hp, hpq x hp]
      | false =>
          cases hq : q x with
          | false => simp [hp, hq]
          | true =>
              simp only [List.findIdxs_cons, hp, hq, ↓reduceIte, Bool.false_eq_true, List.countP_cons, Nat.add_zero,
                forall_const]
              by_cases hnone : ∀ b ∈ rest, p b = false
              · have hcount : rest.countP p = 0 := List.countP_eq_zero.2 fun b hb => by simp [hnone b hb]
                have hnil : rest.findIdxs p (start + 1) = [] := List.findIdxs_eq_nil_iff.2 hnone
                simpa [hcount, hnil] using hnone
              · -- `start` would be the first position of an element of the rest.
                refine iff_of_false (fun h => ?_) fun h => hnone h.1
                obtain ⟨n, hn⟩ : ∃ n, rest.countP p = n + 1 := by
                  refine Nat.exists_eq_add_one.2 (Nat.pos_of_ne_zero fun hzero => hnone fun b hb => ?_)
                  simpa using List.countP_eq_zero.1 hzero b hb
                rw [hn, List.take_succ_cons] at h
                have hmem : start ∈ rest.findIdxs p (start + 1) := by
                  rw [← h]
                  exact List.mem_cons_self
                exact absurd (List.ge_of_mem_findIdxs start hmem) (by omega)

/-- The positions that a filter over the indexes finds. -/
theorem filter_range_eq_findIdxs (l : List α) (d : α) :
    (List.range l.length).filter (fun i => p (l.getD i d)) = l.findIdxs p := by
  induction l with
  | nil => rfl
  | cons x rest ih =>
      rw [List.length_cons, List.range_succ_eq_map, List.findIdxs_cons, Nat.zero_add, List.findIdxs_start, ← ih]
      simp [List.filter_cons, List.filter_map, Function.comp_def]

theorem forall₂_getElem? {β : Type} {R : α → β → Prop} {xs : List α} {ys : List β} (h : List.Forall₂ R xs ys) :
    ∀ {k : Nat} {x : α} {y : β}, xs[k]? = some x → ys[k]? = some y → R x y := by
  induction h with
  | nil => exact nofun
  | cons hr _ ih =>
      intro k x y hx hy
      cases k with
      | zero => cases hx; cases hy; exact hr
      | succ k => exact ih hx hy

end Positions

/-! ## Texts of types -/

/-- Blanks. -/
def Blank (s : Str) : Prop := ∀ c ∈ s, isSpace c = true

instance (s : Str) : Decidable (Blank s) := List.decidableBAll (fun c => isSpace c = true) s

/-- The text of a type without qualifiers: no blanks around it, no `const ` in front, no `&` behind. -/
structure IsType (type : Str) : Prop where
  nonempty : type ≠ []
  first : ∀ c, type.head? = some c → isSpace c = false
  last : ∀ c, type.getLast? = some c → isSpace c = false ∧ c ≠ 38
  unqualified : (lit "const ").isPrefixOf (type ++ lit " ") = false

/-- How an operation takes an argument: by value, by reference to const in one of two spellings, or by reference. -/
inductive Passing where
  | value
  | constFirst
  | constLast
  | reference
  deriving DecidableEq, Repr

/-- The spellings of an argument's type, with blanks where RTT may put them. -/
inductive Spells : Str → Passing → Prop
  | value {type before after : Str} : IsType type → Blank before → Blank after →
      Spells (before ++ type ++ after) .value
  | constFirst {type before between gap after : Str} : IsType type → Blank before → Blank between → Blank gap →
      Blank after → Spells (before ++ lit "const " ++ between ++ type ++ gap ++ lit "&" ++ after) .constFirst
  | constLast {type before between gap after : Str} : IsType type → Blank before → Blank between → between ≠ [] →
      Blank gap → Blank after →
      Spells (before ++ type ++ between ++ lit "const" ++ gap ++ lit "&" ++ after) .constLast
  | reference {type before gap after : Str} : IsType type → Blank before → Blank gap → Blank after →
      Spells (before ++ type ++ gap ++ lit "&" ++ after) .reference

/-- What the text of an argument is read as. -/
def Passing.readAsMutable : Passing → Bool
  | .constLast => true
  | .reference => true
  | _ => false

theorem trimRight_append {s after : Str} (ha : Blank after) (hs : ∀ c, s.getLast? = some c → isSpace c = false) :
    ((s ++ after).reverse.dropWhile isSpace).reverse = s := by
  rw [List.reverse_append, List.dropWhile_append_of_pos fun c hc => ha c (List.mem_reverse.1 hc)]
  cases hrev : s.reverse with
  | nil => simpa using hrev
  | cons c rest =>
      have hc : isSpace c = false := hs c (by rw [List.getLast?_eq_head?_reverse, hrev]; rfl)
      rw [List.dropWhile_cons_of_neg (by simp [hc]), ← hrev, List.reverse_reverse]

theorem trimLeft_append {s before : Str} (hb : Blank before) (hs : ∀ c, s.head? = some c → isSpace c = false) :
    (before ++ s).dropWhile isSpace = s := by
  rw [List.dropWhile_append_of_pos hb]
  cases s with
  | nil => rfl
  | cons c rest => exact List.dropWhile_cons_of_neg (by simp [hs c rfl])

/-- A text that ends with `&` is read by its front. -/
theorem isMutableReference_ampersand {s before after : Str} (hb : Blank before) (ha : Blank after)
    (hs : ∀ c, s.head? = some c → isSpace c = false) :
    isMutableReference (before ++ (s ++ lit "&") ++ after) = !(lit "const ").isPrefixOf (s ++ lit "&") := by
  have hamp : lit "&" = [38] := rfl
  have hlast : (before ++ (s ++ lit "&")).getLast? = some 38 := by simp [hamp]
  have hhead : ∀ c, (s ++ lit "&").head? = some c → isSpace c = false := by
    intro c hc
    cases s with
    | nil =>
        rw [hamp, List.nil_append, List.head?_cons, Option.some.injEq] at hc
        subst hc
        decide
    | cons d rest => exact hs c hc
  have htrim : ∀ c, (before ++ (s ++ lit "&")).getLast? = some c → isSpace c = false := by
    intro c hc
    rw [hlast, Option.some.injEq] at hc
    subst hc
    decide
  simp only [isMutableReference, trimRight_append ha htrim, trimLeft_append hb hhead, hlast, ne_eq, not_true_eq_false,
    ↓reduceIte]

/-- The only blank of `const ` is its last byte. -/
theorem const_boundary : ∀ k : Fin (lit "const ").length, isSpace (lit "const ")[k] = true ∨ (lit "const ")[k] = 38 →
    (lit "const ").take k ++ lit " " = lit "const " := by
  decide

/-- The first byte of a type is that of any text that starts with it. -/
theorem IsType.head?_append {type rest : Str} (h : IsType type) : (type ++ rest).head? = type.head? := by
  cases type with
  | nil => exact absurd rfl h.nonempty
  | cons c type => rfl

/-- `const ` is no prefix of a type with a blank or `&` behind it. -/
theorem IsType.not_isPrefixOf {type : Str} (h : IsType type) (tail : Str)
    (ht : ∀ c, tail.head? = some c → isSpace c = true ∨ c = 38) : (lit "const ").isPrefixOf (type ++ tail) = false := by
  have hun := h.unqualified
  rw [Bool.eq_false_iff, ne_eq, List.isPrefixOf_iff_prefix] at hun ⊢
  rintro ⟨rest, hrest⟩
  obtain ⟨more, htype, -⟩ | ⟨more, hconst, htail⟩ := List.append_eq_append_iff.1 hrest
  · exact hun (htype ▸ (List.prefix_append _ more).trans (List.prefix_append _ _))
  · cases more with
    | nil =>
        rw [List.append_nil] at hconst
        exact hun (hconst ▸ List.prefix_append _ _)
    | cons c more =>
        -- The type is a part of `const `, and `c` is the byte behind it.
        have hc := ht c (by rw [htail]; rfl)
        have hlen : type.length < (lit "const ").length := by simp [hconst]
        have htake : (lit "const ").take type.length = type := by simp [hconst]
        have hget : (lit "const ")[type.length] = c := by simp [hconst]
        have hword := const_boundary ⟨type.length, hlen⟩ (by simpa [hget] using hc)
        rw [htake] at hword
        exact hun (hword ▸ List.prefix_refl _)

theorem isMutableReference_of_spells {text : Str} {passing : Passing} (h : Spells text passing) :
    isMutableReference text = passing.readAsMutable := by
  cases h with
  | @value type before after ht hb ha =>
      have hlast : (before ++ type).getLast? = type.getLast? := by
        rw [List.getLast?_append, Option.or_of_isSome]
        simpa using ht.nonempty
      have htrim := trimRight_append ha (s := before ++ type) fun c hc => (ht.last c (hlast ▸ hc)).1
      have hne : type.getLast? ≠ some 38 := fun hc => (ht.last 38 hc).2 rfl
      simp only [isMutableReference, htrim, hlast, Passing.readAsMutable]
      exact if_pos hne
  | @constFirst type before between gap after ht hb hm hg ha =>
      have hread := isMutableReference_ampersand (s := lit "const " ++ between ++ type ++ gap) hb ha fun c hc => by
        cases hc
        decide
      simp only [List.append_assoc] at hread ⊢
      rw [hread]
      simp [Passing.readAsMutable, List.isPrefixOf_iff_prefix]
  | @constLast type before between gap after ht hb hm hne hg ha =>
      obtain ⟨c, between, rfl⟩ := List.exists_cons_of_ne_nil hne
      have hread := isMutableReference_ampersand (s := type ++ c :: between ++ lit "const" ++ gap) hb ha fun d hd =>
        ht.first d (by simpa only [List.append_assoc, ht.head?_append] using hd)
      have hfront := ht.not_isPrefixOf (c :: between ++ lit "const" ++ gap ++ lit "&") fun d hd => by
        cases hd
        exact .inl (hm c List.mem_cons_self)
      simp only [List.append_assoc] at hread hfront ⊢
      rw [hread, hfront]
      rfl
  | @reference type before gap after ht hb hg ha =>
      have hread := isMutableReference_ampersand (s := type ++ gap) hb ha fun d hd =>
        ht.first d (by simpa only [ht.head?_append] using hd)
      have hfront := ht.not_isPrefixOf (gap ++ lit "&") fun d hd => by
        cases gap with
        | nil => cases hd; exact .inr rfl
        | cons _ gap => cases hd; exact .inl (hg _ List.mem_cons_self)
      simp only [List.append_assoc] at hread hfront ⊢
      rw [hread, hfront]
      rfl

/-! ## The loops of `describe` -/

section Loops

variable {registry : TypeRegistry}

/-- An output has the type `type`. -/
def Described.Has (registry : TypeRegistry) (type : Option Nat) (d : Described) : Prop :=
  ∃ t codec, type = some t ∧ registry.codecForTypeInfo t = some codec ∧ codec.hasValue = true ∧
    d.typeName = registry.getTypeName t ∧ d.argument.dataType = codec.dataType ∧
    d.argument.valueRank = codec.valueRank

theorem valueCodec_eq_ok {type : Option Nat} {t : Nat} {codec : Codec}
    (h : valueCodec registry type = .ok (t, codec)) :
    type = some t ∧ registry.codecForTypeInfo t = some codec ∧ codec.hasValue = true := by
  unfold valueCodec at h
  split at h
  case h_1 _ t' codec' hcodec =>
    split at h
    case isTrue hvalue =>
      obtain ⟨rfl, rfl⟩ : t' = t ∧ codec' = codec := by simpa using h
      exact ⟨rfl, hcodec, hvalue⟩
    case isFalse => cases h
  case h_2 => cases h

/-- The outputs have the types of the collected values; their sources are the return value and then the mutable
arguments, as many as there are outputs. -/
theorem describeOutputs_eq_ok {description : Str} {arguments : List ArgumentDescription} (collect : List (Option Nat)) :
    ∀ {result : Bool} {mutableArguments : List Nat} {outputs : List Described},
      describeOutputs registry description arguments result mutableArguments collect = .ok outputs →
      List.Forall₂ (Described.Has registry) collect outputs ∧
        outputs.map Described.source =
          ((if result then [-1] else []) ++ mutableArguments.map Int.ofNat).take collect.length := by
  induction collect with
  | nil =>
      intro result mutableArguments outputs h
      cases h
      exact ⟨.nil, by simp⟩
  | cons type rest ih =>
      intro result mutableArguments outputs h
      simp only [describeOutputs, bind, Except.bind] at h
      split at h
      case h_1 => cases h
      case h_2 pair hpair =>
        obtain ⟨t, codec⟩ := pair
        obtain ⟨rfl, hcodec, hvalue⟩ := valueCodec_eq_ok hpair
        cases result with
        | true =>
            simp only at h
            split at h
            case h_1 => cases h
            case h_2 more hmore =>
              cases h
              obtain ⟨htypes, hsources⟩ := ih hmore
              exact ⟨.cons ⟨t, codec, rfl, hcodec, hvalue, rfl, rfl, rfl⟩ htypes, by simp [hsources]⟩
        | false =>
            cases mutableArguments with
            | nil => cases h
            | cons index mutableArguments =>
                simp only at h
                split at h
                case h_1 => cases h
                case h_2 more hmore =>
                  cases h
                  obtain ⟨htypes, hsources⟩ := ih hmore
                  exact ⟨.cons ⟨t, codec, rfl, hcodec, hvalue, rfl, rfl, rfl⟩ htypes, by simp [hsources]⟩

/-- The inputs have the types of the arguments, and the names and descriptions of their list. -/
theorem describeInputs_eq_ok {arguments : List ArgumentDescription} (types : List (Option Nat)) :
    ∀ {index : Nat} {inputs : List Described}, describeInputs registry arguments index types = .ok inputs →
      List.Forall₂ (Described.Has registry) types inputs ∧
        inputs.map (fun d => (d.argument.name, d.argument.description)) =
          (List.range' index types.length).map fun i => (argumentName arguments i, argumentDescription arguments i) := by
  induction types with
  | nil =>
      intro index inputs h
      cases h
      exact ⟨.nil, rfl⟩
  | cons type rest ih =>
      intro index inputs h
      simp only [describeInputs, bind, Except.bind] at h
      split at h
      case h_1 => cases h
      case h_2 pair hpair =>
        obtain ⟨t, codec⟩ := pair
        obtain ⟨rfl, hcodec, hvalue⟩ := valueCodec_eq_ok hpair
        simp only at h
        split at h
        case h_1 => cases h
        case h_2 more hmore =>
          cases h
          obtain ⟨htypes, hnames⟩ := ih hmore
          exact ⟨.cons ⟨t, codec, rfl, hcodec, hvalue, rfl, rfl, rfl⟩ htypes, by
            simp [hnames, List.range'_succ]⟩

/-- Whether `describe` expects a return value is what the codec of the type says. -/
theorem describeReturn_eq_ok {type : Option Nat} {hasReturnValue : Bool}
    (h : describeReturn registry type = .ok hasReturnValue) :
    ∃ t codec, type = some t ∧ registry.codecForTypeInfo t = some codec ∧ codec.hasValue = hasReturnValue ∧
      (hasReturnValue = false → registry.getTypeName t = lit "Void") := by
  unfold describeReturn at h
  split at h
  case h_1 _ t codec hcodec =>
    split at h
    case isTrue => cases h
    case isFalse hvoid =>
      simp only [Except.ok.injEq] at h
      refine ⟨t, codec, rfl, hcodec, h, fun hfalse => ?_⟩
      by_contra hname
      exact hvoid ⟨h.trans hfalse, hname⟩
  case h_2 => cases h

/-! What ends a loop early is a schema that is not supported. -/

theorem valueCodec_eq_error {type : Option Nat} {schema : OperationSchema}
    (h : valueCodec registry type = .error schema) : schema.supported = false := by
  unfold valueCodec at h
  split at h
  · split at h
    · cases h
    · cases h
      rfl
  · cases h
    rfl

theorem describeInputs_eq_error {arguments : List ArgumentDescription} {schema : OperationSchema}
    (types : List (Option Nat)) :
    ∀ {index : Nat}, describeInputs registry arguments index types = .error schema → schema.supported = false := by
  induction types with
  | nil => exact nofun
  | cons type rest ih =>
      intro index h
      simp only [describeInputs, bind, Except.bind] at h
      split at h
      case h_1 e he =>
        cases h
        exact valueCodec_eq_error he
      case h_2 =>
        split at h
        case h_1 e he =>
          cases h
          exact ih he
        case h_2 => cases h

theorem describeReturn_eq_error {type : Option Nat} {schema : OperationSchema}
    (h : describeReturn registry type = .error schema) : schema.supported = false := by
  unfold describeReturn at h
  split at h
  · split at h
    · cases h
      rfl
    · cases h
  · cases h
    rfl

theorem describeOutputs_eq_error {description : Str} {arguments : List ArgumentDescription}
    {schema : OperationSchema} (collect : List (Option Nat)) :
    ∀ {result : Bool} {mutableArguments : List Nat},
      describeOutputs registry description arguments result mutableArguments collect = .error schema →
      schema.supported = false := by
  induction collect with
  | nil => exact nofun
  | cons type rest ih =>
      intro result mutableArguments h
      simp only [describeOutputs, bind, Except.bind] at h
      split at h
      case h_1 e he =>
        cases h
        exact valueCodec_eq_error he
      case h_2 =>
        cases result <;> cases mutableArguments <;> simp only at h
        case false.nil =>
          cases h
          rfl
        all_goals
          split at h
          case h_1 e he =>
            cases h
            exact ih he
          case h_2 => cases h

theorem describe_eq {operation : Operation} {arguments : List ArgumentDescription} {inputs outputs : List Described}
    {hasReturnValue : Bool} (harguments : operation.argumentList = some arguments)
    (hinputs : describeInputs registry arguments 0 operation.types = .ok inputs)
    (hreturn : describeReturn registry operation.returnType = .ok hasReturnValue)
    (houtputs : describeOutputs registry operation.description arguments hasReturnValue (mutableArguments arguments)
      operation.collect = .ok outputs) :
    describe registry operation =
      { supported := true
        inputs := inputs.map Described.argument
        outputs := outputs.map Described.argument
        inputTypeNames := inputs.map Described.typeName
        outputTypeNames := outputs.map Described.typeName
        outputSources := outputs.map Described.source } := by
  simp only [describe, harguments, bind, Except.bind, hinputs, hreturn, houtputs]

/-- What the parts of a supported schema come from. -/
theorem describe_supported {operation : Operation} (h : (describe registry operation).supported = true) :
    ∃ arguments inputs hasReturnValue outputs, operation.argumentList = some arguments ∧
      describeInputs registry arguments 0 operation.types = .ok inputs ∧
      describeReturn registry operation.returnType = .ok hasReturnValue ∧
      describeOutputs registry operation.description arguments hasReturnValue (mutableArguments arguments)
        operation.collect = .ok outputs ∧
      describe registry operation =
        { supported := true
          inputs := inputs.map Described.argument
          outputs := outputs.map Described.argument
          inputTypeNames := inputs.map Described.typeName
          outputTypeNames := outputs.map Described.typeName
          outputSources := outputs.map Described.source } := by
  cases harguments : operation.argumentList with
  | none => simp [describe, harguments, unsupportedSchema] at h
  | some arguments =>
      simp only [describe, harguments, bind, Except.bind] at h
      cases hinputs : describeInputs registry arguments 0 operation.types with
      | error schema => simp [hinputs, describeInputs_eq_error _ hinputs] at h
      | ok inputs =>
          cases hreturn : describeReturn registry operation.returnType with
          | error schema => simp [hinputs, hreturn, describeReturn_eq_error hreturn] at h
          | ok hasReturnValue =>
              cases houtputs : describeOutputs registry operation.description arguments hasReturnValue
                  (mutableArguments arguments) operation.collect with
              | error schema => simp [hinputs, hreturn, houtputs, describeOutputs_eq_error _ houtputs] at h
              | ok outputs =>
                  exact ⟨arguments, inputs, hasReturnValue, outputs, rfl, hinputs, rfl, houtputs,
                    describe_eq harguments hinputs hreturn houtputs⟩

end Loops

/-! ## Signatures -/

/-- The positions of the non-const reference arguments. -/
def referenceIndexes (passing : List Passing) : List Nat := passing.findIdxs (· = .reference)

/-- RTT reports an operation: one argument for each type, spelled as it is passed, and collected values for the return
value, if it has one, and for the non-const reference arguments in order. -/
structure Reports (registry : TypeRegistry) (operation : Operation) (passing : List Passing) (returnsValue : Bool) :
    Prop where
  arguments : ∃ arguments, operation.argumentList = some arguments ∧
    List.Forall₂ (fun a p => Spells a.type p) arguments passing
  types : operation.types.length = passing.length
  returns : ∀ t codec, operation.returnType = some t → registry.codecForTypeInfo t = some codec →
    codec.hasValue = returnsValue
  collect : operation.collect = (if returnsValue then [operation.returnType] else []) ++
    (referenceIndexes passing).map fun i => (operation.types[i]?).join

/-- The type of the return value or argument that a source stands for. -/
def Operation.sourceType (operation : Operation) (source : Int) : Option Nat :=
  if source = -1 then operation.returnType else (operation.types[source.toNat]?).join

/-- Each output of a schema is the value it should be. -/
structure MapsOutputs (registry : TypeRegistry) (operation : Operation) (passing : List Passing)
    (returnsValue : Bool) (schema : OperationSchema) : Prop where
  sources : schema.outputSources =
    (if returnsValue then [-1] else []) ++ (referenceIndexes passing).map Int.ofNat
  lengths : schema.outputs.length = operation.collect.length ∧
    schema.outputTypeNames.length = operation.collect.length ∧ schema.outputSources.length = operation.collect.length
  types : ∀ (k : Nat) (source : Int) (argument : Argument) (name : Str), schema.outputSources[k]? = some source → schema.outputs[k]? = some argument →
    schema.outputTypeNames[k]? = some name →
    ∃ t codec, operation.sourceType source = some t ∧ registry.codecForTypeInfo t = some codec ∧
      name = registry.getTypeName t ∧ argument.dataType = codec.dataType ∧ argument.valueRank = codec.valueRank

section Signatures

variable {registry : TypeRegistry} {operation : Operation} {passing : List Passing} {returnsValue : Bool}

theorem mutableArguments_eq {arguments : List ArgumentDescription}
    (h : List.Forall₂ (fun a p => Spells a.type p) arguments passing) :
    mutableArguments arguments = passing.findIdxs Passing.readAsMutable := by
  have hread : ∀ start, arguments.findIdxs (fun a => isMutableReference a.type) start =
      passing.findIdxs Passing.readAsMutable start := by
    induction h with
    | nil => exact fun _ => rfl
    | cons hspells _ ih =>
        intro start
        simp only [List.findIdxs_cons, isMutableReference_of_spells hspells, ih]
  have hrange := filter_range_eq_findIdxs (p := isMutableReference) (arguments.map ArgumentDescription.type) []
  rw [List.length_map, List.findIdxs_map] at hrange
  exact hrange.trans (hread 0)

/-- No const reference argument that is spelled with `const` last comes before a non-const reference argument. -/
def ReadsInOrder (passing : List Passing) : Prop := passing.Pairwise fun a b => a = .constLast → b ≠ .reference

theorem take_readAsMutable_iff :
    (passing.findIdxs Passing.readAsMutable).take (referenceIndexes passing).length = referenceIndexes passing ↔
      ReadsInOrder passing := by
  have hsub : ∀ p : Passing, decide (p = .reference) = true → p.readAsMutable = true := by
    intro p hp
    cases p <;> first | rfl | cases hp
  have htake := take_findIdxs_iff hsub passing 0
  rw [referenceIndexes, List.length_findIdxs, htake, ReadsInOrder]
  have hiff : ∀ a b : Passing, (a.readAsMutable = true → decide (a = .reference) = false →
      decide (b = .reference) = false) ↔ (a = .constLast → b ≠ .reference) := by
    intro a b
    cases a <;> simp [Passing.readAsMutable]
  simp only [hiff]

/-- The sources of a supported schema. -/
theorem describe_sources (h : Reports registry operation passing returnsValue)
    (hs : (describe registry operation).supported = true) :
    (describe registry operation).outputSources = (if returnsValue then [-1] else []) ++
      ((passing.findIdxs Passing.readAsMutable).take (referenceIndexes passing).length).map Int.ofNat := by
  obtain ⟨arguments, inputs, hasReturnValue, outputs, harguments, -, hreturn, houtputs, hschema⟩ :=
    describe_supported hs
  obtain ⟨_, harguments', hspells⟩ := h.arguments
  obtain rfl := Option.some.inj (harguments.symm.trans harguments')
  obtain ⟨t, codec, ht, hcodec, hvalue, -⟩ := describeReturn_eq_ok hreturn
  obtain rfl : hasReturnValue = returnsValue := hvalue.symm.trans (h.returns t codec ht hcodec)
  obtain ⟨-, hsources⟩ := describeOutputs_eq_ok operation.collect houtputs
  rw [hschema, hsources, mutableArguments_eq hspells, h.collect, List.map_take]
  cases hasReturnValue <;> simp

/-- The outputs of a supported schema have the types of the collected values. -/
theorem describe_outputs (hs : (describe registry operation).supported = true) :
    ∃ outputs, List.Forall₂ (Described.Has registry) operation.collect outputs ∧
      (describe registry operation).outputs = outputs.map Described.argument ∧
      (describe registry operation).outputTypeNames = outputs.map Described.typeName := by
  obtain ⟨arguments, inputs, hasReturnValue, outputs, -, -, -, houtputs, hschema⟩ := describe_supported hs
  exact ⟨outputs, (describeOutputs_eq_ok operation.collect houtputs).1, by rw [hschema], by rw [hschema]⟩

/-- A collected value has the type of its source. -/
theorem sourceType_collect (h : Reports registry operation passing returnsValue) :
    operation.collect = ((if returnsValue then [-1] else []) ++
      (referenceIndexes passing).map Int.ofNat).map operation.sourceType := by
  have href : ∀ i : Nat, operation.sourceType (Int.ofNat i) = (operation.types[i]?).join := by
    intro i
    simp [Operation.sourceType]
  have hmap : ((referenceIndexes passing).map Int.ofNat).map operation.sourceType =
      (referenceIndexes passing).map fun i => (operation.types[i]?).join := by
    rw [List.map_map]
    exact List.map_congr_left fun i _ => href i
  rw [h.collect, List.map_append, hmap]
  cases returnsValue <;> simp [Operation.sourceType]

theorem mapsOutputs_iff (h : Reports registry operation passing returnsValue)
    (hs : (describe registry operation).supported = true) :
    MapsOutputs registry operation passing returnsValue (describe registry operation) ↔ ReadsInOrder passing := by
  have hsources := describe_sources h hs
  rw [← take_readAsMutable_iff]
  constructor
  · intro hmaps
    have heq := hsources.symm.trans hmaps.sources
    exact List.map_injective_iff.2 (fun _ _ => Int.ofNat.inj) (List.append_cancel_left heq)
  · intro htake
    rw [htake] at hsources
    obtain ⟨outputs, htypes, houtputs, hnames⟩ := describe_outputs hs
    refine ⟨hsources, ⟨?_, ?_, ?_⟩, ?_⟩
    · rw [houtputs, List.length_map, htypes.length_eq]
    · rw [hnames, List.length_map, htypes.length_eq]
    · rw [hsources, sourceType_collect h, List.length_map]
    · intro k source argument name hk hargument hname
      rw [houtputs, List.getElem?_map, Option.map_eq_some_iff] at hargument
      obtain ⟨d, hd, rfl⟩ := hargument
      have hcollect : operation.collect[k]? = some (operation.sourceType source) := by
        rw [sourceType_collect h, ← hsources, List.getElem?_map, hk, Option.map_some]
      obtain ⟨t, codec, htype, hcodec, -, hdname, hdata, hrank⟩ := forall₂_getElem? htypes hcollect hd
      rw [hnames, List.getElem?_map, hd, Option.map_some, Option.some.injEq] at hname
      exact ⟨t, codec, htype, hcodec, hname ▸ hdname, hdata, hrank⟩

end Signatures

end RttOpcua.Model
