import Mathlib.Data.List.TakeWhile
import RttOpcua.Types.Protocol
import RttOpcua.Values.Canonical

/-!
# Lemmas about the codecs

What each class decodes and encodes, that its methods agree, and when the two directions undo each other.
-/

namespace RttOpcua.Values

/-! ## Paths -/

/-- The decoding methods accept the same `Variant`s with the same values and change nothing otherwise; the encoding
methods refuse the same values and make the same `Variant`s of the others. -/
structure Methods.PathsAgree {T X : Type} (m : Methods T X) : Prop where
  assign : ∀ x last outcome, m.assignVariant x (.plain last) outcome =
    (m.makeDataSource x).elim (.plain last, .ok false) fun v => (.plain v, .ok true)
  readOnly : ∀ p, m.readOnlyProxy = some p → ∀ x last, p.refresh last (.read x) =
    (m.makeDataSource x).elim (last, .ok false) fun v => (v, .ok true)
  assignable : ∀ p, m.assignableProxy = some p → ∀ x source, ProxySource.refresh p source (.read x) =
    (m.makeDataSource x).elim (source, .ok false) fun v => ({ source with lastValue := v }, .ok true)
  written : ∀ p, m.assignableProxy = some p → ∀ v, p.encode v = m.toVariant (some v)
  port : ∀ v, m.portValue (some (some v)) = (m.toVariant (some v)).elim .error .value
  proxies : m.readOnlyProxy.isSome = m.hasValue ∧ m.assignableProxy.isSome = m.hasValue

section Refresh

variable {T X : Type}

theorem readOnly_refresh_read (p : ReadOnlyClass T X) (last : T) (x : X) :
    p.refresh last (.read x) = (p.decode x).elim (last, .ok false) fun v => (v, .ok true) := by
  cases hdecoded : p.decode x with
  | none => simp [ReadOnlyClass.refresh, hdecoded]
  | some v => simp [ReadOnlyClass.refresh, hdecoded]

theorem refresh_read (p : ProxyClass T X) (source : ProxySource T) (x : X) :
    source.refresh p (.read x) =
      (p.decode x).elim (source, .ok false) fun v => ({ source with lastValue := v }, .ok true) := by
  cases hdecoded : p.decode x with
  | none => simp [ProxySource.refresh, hdecoded]
  | some v => simp [ProxySource.refresh, hdecoded]

end Refresh

/-! ## Scalars -/

section Scalar

variable {W T Wire : Type} [Native W Wire] (s : ScalarType T Wire) (dataType : Nat)

/-- The codec and its proxies decode alike. -/
theorem ScalarTypeCodec.makeDataSource_eq (x : Variant W) :
    ScalarTypeCodec.makeDataSource s dataType x = decodeScalar s dataType x := by
  unfold ScalarTypeCodec.makeDataSource ScalarTypeCodec.isCompatible decodeScalar
  by_cases hscalar : x.isScalar = true
  · by_cases htype : x.isType dataType = true
    · cases x.toScalar Wire with
      | none => simp [hscalar, htype]
      | some wire => simp [hscalar, htype]
    · simp [htype]
  · simp [hscalar]

theorem ScalarTypeCodec.assignVariant_eq (x : Variant W) (d : Destination T (Variant W)) (outcome : WriterOutcome) :
    ScalarTypeCodec.assignVariant s dataType x d outcome =
      if d.isAssignable then
        (ScalarTypeCodec.makeDataSource s dataType x).elim (d, .ok false) fun v => d.assign v outcome
      else (d, .ok false) := by
  unfold ScalarTypeCodec.assignVariant ScalarTypeCodec.makeDataSource
  by_cases hassignable : d.isAssignable = true
  · by_cases hcompatible : ScalarTypeCodec.isCompatible dataType x = true
    · simp only [hassignable, hcompatible, not_true_eq_false, or_self, if_false, if_true]
      cases x.toScalar Wire with
      | none => rfl
      | some wire =>
          simp only
          split
          · rfl
          · rfl
    · simp [hassignable, hcompatible]
  · simp [hassignable]

/-- Among the values of all types it is the codec of that name. -/
theorem ScalarTypeCodec.methods_toTypeCodec {V : Type} [Stored V T] (typeInfo : Nat) :
    (ScalarTypeCodec.methods (W := W) s dataType).toTypeCodec (V := V) typeInfo =
      Values.ScalarTypeCodec s typeInfo dataType := by
  unfold Methods.toTypeCodec Values.ScalarTypeCodec
  congr 1
  · funext v
    cases (Stored.get v : Option T) with
    | none => rfl
    | some value => rfl
  · funext x
    simp only [methods, makeDataSource_eq]

theorem ScalarTypeCodec.pathsAgree : (ScalarTypeCodec.methods (W := W) s dataType).PathsAgree where
  assign x last outcome := by
    simp only [methods, assignVariant_eq]
    rfl
  readOnly p hp x last := by
    cases hp
    simp only [readOnly_refresh_read, ScalarProxyDataSource, methods, makeDataSource_eq]
  assignable p hp x source := by
    cases hp
    simp only [refresh_read, ScalarAssignableProxyDataSource, methods, makeDataSource_eq]
  written p hp v := by
    cases hp
    rfl
  port v := by
    simp only [methods, portValue, toVariant]
    split
    · rfl
    · rfl
  proxies := ⟨rfl, rfl⟩

/-- What is decoded: a valid wire value of the right type. -/
theorem ScalarTypeCodec.makeDataSource_eq_some {x : Variant W} {v : T} :
    ScalarTypeCodec.makeDataSource s dataType x = some v ↔ ∃ u wire, x = .scalar dataType u ∧
      Stored.get u = some wire ∧ s.isValidScalarWireValue wire = true ∧ s.decodeScalarValue wire = v := by
  cases x with
  | empty => simp [makeDataSource, isCompatible, Variant.isScalar]
  | array type values dimensions => simp [makeDataSource, isCompatible, Variant.isScalar]
  | scalar type u =>
      by_cases htype : type = dataType
      · subst htype
        cases hget : (Stored.get u : Option Wire) with
        | none => simp [makeDataSource, isCompatible, Variant.isScalar, Variant.isType, Variant.toScalar, hget]
        | some wire =>
            by_cases hvalid : s.isValidScalarWireValue wire = true
            all_goals
              simp [makeDataSource, isCompatible, Variant.isScalar, Variant.isType, Variant.toScalar, hget, hvalid]
      · simp [makeDataSource, isCompatible, Variant.isScalar, Variant.isType, htype]

theorem ScalarTypeCodec.toVariant_eq_some {v : T} {y : Variant W} :
    ScalarTypeCodec.toVariant s (some v) = some y ↔ s.isValidScalarValue v = true ∧ Variant.of (s.encodeScalar v) = y := by
  by_cases hvalid : s.isValidScalarValue v = true
  all_goals simp [toVariant, hvalid]

end Scalar

/-! ## Arrays -/

section Array

variable {W T : Type} [Native W T] (elementType : Nat)

theorem ArrayTypeCodec.assignVariant_eq (x : Variant W) (d : Destination (List T) (Variant W)) (outcome : WriterOutcome) :
    ArrayTypeCodec.assignVariant T elementType x d outcome =
      if d.isAssignable then
        (ArrayTypeCodec.makeDataSource T elementType x).elim (d, .ok false) fun v => d.assign v outcome
      else (d, .ok false) := by
  unfold ArrayTypeCodec.assignVariant ArrayTypeCodec.makeDataSource
  by_cases hassignable : d.isAssignable = true
  · by_cases hcompatible : isCompatibleArray x elementType = true
    · simp only [hassignable, hcompatible, not_true_eq_false, or_self, if_false, if_true]
      cases x.toVector T with
      | none => rfl
      | some values => rfl
    · simp [hassignable, hcompatible]
  · simp [hassignable]

theorem ArrayTypeCodec.methods_toTypeCodec {V : Type} [Stored V (List T)] (typeInfo : Nat) :
    (ArrayTypeCodec.methods (W := W) T elementType).toTypeCodec (V := V) typeInfo =
      Values.ArrayTypeCodec T typeInfo elementType := by
  unfold Methods.toTypeCodec Values.ArrayTypeCodec
  congr 1
  funext v
  cases (Stored.get v : Option (List T)) with
  | none => rfl
  | some value => rfl

theorem ArrayTypeCodec.pathsAgree : (ArrayTypeCodec.methods (W := W) T elementType).PathsAgree where
  assign x last outcome := by
    simp only [methods, assignVariant_eq]
    rfl
  readOnly p hp x last := by
    cases hp
    simp only [readOnly_refresh_read, ArrayProxyDataSource, methods, makeDataSource, decodeArray]
  assignable p hp x source := by
    cases hp
    simp only [refresh_read, ArrayAssignableProxyDataSource, methods, makeDataSource, decodeArray]
  written p hp v := by
    cases hp
    rfl
  port v := rfl
  proxies := ⟨rfl, rfl⟩

theorem mapM_get_put (values : List T) : (values.map (Stored.put : T → W)).mapM Stored.get = some values := by
  induction values with
  | nil => rfl
  | cons v values ih => simp [List.mapM_cons, Stored.get_put, ih]

theorem put_of_mapM_get [Stored.Exact W T] {us : List W} :
    ∀ {values : List T}, us.mapM Stored.get = some values → values.map Stored.put = us := by
  induction us with
  | nil =>
      intro values h
      cases h
      rfl
  | cons u us ih =>
      intro values h
      simp only [List.mapM_cons, Option.bind_eq_bind, Option.bind_eq_some_iff, Option.pure_def, Option.some.injEq] at h
      obtain ⟨v, hv, rest, hrest, rfl⟩ := h
      rw [List.map_cons, Stored.Exact.put_get u v hv, ih hrest]

/-- What is decoded: an array of the right type with one dimension, explicit or not. -/
theorem ArrayTypeCodec.makeDataSource_eq_some {x : Variant W} {values : List T} :
    ArrayTypeCodec.makeDataSource T elementType x = some values ↔ ∃ us dimensions, x = .array elementType us dimensions ∧
      dimensions.length ≤ 1 ∧ us.mapM Stored.get = some values := by
  cases x with
  | empty => simp [makeDataSource, isCompatibleArray, Variant.isArray]
  | scalar type u => simp [makeDataSource, isCompatibleArray, Variant.isArray]
  | array type us dimensions =>
      by_cases htype : type = elementType
      · by_cases hlength : dimensions.length ≤ 1
        all_goals simp [makeDataSource, isCompatibleArray, Variant.isArray, Variant.isType, Variant.arrayDimensions,
          Variant.toVector, htype, hlength]
      · simp [makeDataSource, isCompatibleArray, Variant.isArray, Variant.isType, Variant.arrayDimensions, htype]

end Array

/-! ## Connection policies -/

section Policy

variable {W : Type} [Stored W ConnPolicyWire] (dataType : Nat) (nativeType : Option Nat)

theorem ConnPolicyTypeCodec.assignVariant_eq (x : Variant W) (d : Destination ConnPolicy (Variant W))
    (outcome : WriterOutcome) :
    ConnPolicyTypeCodec.assignVariant dataType x d outcome =
      if d.isAssignable then
        (ConnPolicyTypeCodec.makeDataSource dataType x).elim (d, .ok false) fun v => d.assign v outcome
      else (d, .ok false) := by
  unfold ConnPolicyTypeCodec.assignVariant ConnPolicyTypeCodec.makeDataSource
  by_cases hassignable : d.isAssignable = true
  · simp only [hassignable, not_true_eq_false, if_false, if_true]
    cases decodeConnPolicy dataType x with
    | none => rfl
    | some policy => rfl
  · simp [hassignable]

theorem ConnPolicyTypeCodec.methods_toTypeCodec {V : Type} [Stored V ConnPolicy] (typeInfo : Nat) :
    (ConnPolicyTypeCodec.methods (W := W) dataType nativeType).toTypeCodec (V := V) typeInfo =
      Values.ConnPolicyTypeCodec typeInfo dataType nativeType := by
  unfold Methods.toTypeCodec Values.ConnPolicyTypeCodec
  congr 1
  funext v
  cases (Stored.get v : Option ConnPolicy) with
  | none => rfl
  | some policy =>
      cases nativeType with
      | none => rfl
      | some type => rfl

theorem ConnPolicyTypeCodec.pathsAgree : (ConnPolicyTypeCodec.methods (W := W) dataType nativeType).PathsAgree where
  assign x last outcome := by
    simp only [methods, assignVariant_eq]
    rfl
  readOnly p hp x last := by
    cases hp
    simp only [readOnly_refresh_read, ConnPolicyProxyDataSource, methods, makeDataSource]
  assignable p hp x source := by
    cases hp
    simp only [refresh_read, ConnPolicyAssignableProxyDataSource, methods, makeDataSource]
  written p hp v := by
    cases hp
    cases nativeType with
    | none => rfl
    | some type => rfl
  port v := by
    cases nativeType with
    | none => rfl
    | some type => rfl
  proxies := ⟨rfl, rfl⟩

theorem fromWire_toWire (policy : ConnPolicy) : fromWire (toWire policy) = policy := rfl

theorem ConnPolicyTypeCodec.makeDataSource_eq_some {x : Variant W} {policy : ConnPolicy} :
    ConnPolicyTypeCodec.makeDataSource dataType x = some policy ↔
      ∃ u, x = .scalar dataType u ∧ Stored.get u = some (toWire policy) := by
  cases x with
  | empty => simp [makeDataSource, decodeConnPolicy, Variant.isScalar]
  | array type values dimensions => simp [makeDataSource, decodeConnPolicy, Variant.isScalar]
  | scalar type u =>
      by_cases htype : type = dataType
      · subst htype
        simp only [makeDataSource, decodeConnPolicy, Variant.isScalar, Variant.isType, decide_true, not_true_eq_false,
          or_self, if_false, Option.map_eq_some_iff, Variant.scalar.injEq, true_and, exists_eq_left']
        constructor
        · rintro ⟨wire, hwire, rfl⟩
          exact hwire
        · intro hwire
          exact ⟨_, hwire, fromWire_toWire policy⟩
      · simp [makeDataSource, decodeConnPolicy, Variant.isScalar, Variant.isType, htype]

end Policy

theorem VoidTypeCodec.pathsAgree (T X : Type) (dataType : Nat) : (VoidTypeCodec.methods T X dataType).PathsAgree where
  assign _ _ _ := rfl
  readOnly p hp := by cases hp
  assignable p hp := by cases hp
  written p hp := by cases hp
  port _ := rfl
  proxies := ⟨rfl, rfl⟩

/-! ## Assignments -/

section Assign

variable {T X : Type}

/-- An assignment of `v` that is answered leaves `v` in the destination: a proxy has it already, or its writer takes
it or throws something that goes through. -/
def Destination.TakesEffect (d : Destination T X) (v : T) (outcome : WriterOutcome) : Prop :=
  ∀ class_ source, d = .proxy class_ source →
    source.lastValue = v ∨ (class_.encode v).isSome = true ∧ outcome ≠ .failed ∧ outcome ≠ .threw true

/-- What is answered is true. -/
theorem Destination.assign_ne_false (d : Destination T X) (v : T) (outcome : WriterOutcome) :
    (d.assign v outcome).2 ≠ .ok false := by
  unfold Destination.assign
  by_cases hset : (d.set v outcome).2 = true
  all_goals simp [hset]

theorem Destination.assign_takesEffect {d : Destination T X} (h : d.isAssignable = true) (v : T)
    (outcome : WriterOutcome) :
    ((d.assign v outcome).2 = .ok true → (d.assign v outcome).1.value = some v) ↔ d.TakesEffect v outcome := by
  cases d with
  | other => cases h
  | plain last => exact iff_of_true (fun _ => rfl) (fun class_ source heq => by cases heq)
  | proxy class_ source =>
      have htakes : (Destination.proxy class_ source).TakesEffect v outcome ↔
          (source.lastValue = v ∨ (class_.encode v).isSome = true ∧ outcome ≠ .failed ∧ outcome ≠ .threw true) := by
        constructor
        · intro heffect
          exact heffect class_ source rfl
        · intro heffect class' source' heq
          cases heq
          exact heffect
      rw [htakes]
      cases hencode : class_.encode v with
      | none => simp [assign, set, value, ProxySource.set, hencode]
      | some x =>
          cases outcome with
          | failed => simp [assign, set, value, ProxySource.set, hencode]
          | acknowledged => simp [assign, set, value, ProxySource.set, hencode]
          | threw std =>
              cases std with
              | false => simp [assign, set, value, ProxySource.set, hencode]
              | true => simp [assign, set, value, ProxySource.set, hencode]

end Assign

section Write

variable {T X : Type}

/-- A write is good exactly if nothing stands in its way and the codec assigns the value. -/
theorem GuardedValueDataSource.write_good {node : GuardedValueDataSource T X} {range : Bool} {value : Option X}
    {lease : Bool} {source source' : Destination T X} {outcome : WriterOutcome} :
    node.write range value lease source outcome = (source', .ok .good) ↔
      range = false ∧ node.writable = true ∧ lease = true ∧ ∃ x codec, value = some x ∧ node.codec = some codec ∧
        codec.assignVariant x source outcome = (source', .ok true) := by
  cases range with
  | true => simp [write]
  | false =>
      cases hwritable : node.writable with
      | false => simp [write, hwritable]
      | true =>
          cases value with
          | none => simp [write, hwritable]
          | some x =>
              cases lease with
              | false => simp [write, hwritable]
              | true =>
                  cases hcodec : node.codec with
                  | none => simp [write, hwritable, hcodec]
                  | some codec =>
                      rcases hassign : codec.assignVariant x source outcome with ⟨after, _ | _ | _⟩
                      all_goals simp [write, hwritable, hcodec, hassign]

end Write

/-! ## Round trips -/

section RoundTrip

/-- What is valid on one side is valid on the other and comes back from there. -/
structure ScalarType.Exact {T Wire : Type} (s : ScalarType T Wire) : Prop where
  decode_encode : ∀ v, s.isValidScalarValue v = true →
    s.isValidScalarWireValue (s.encodeScalar v) = true ∧ s.decodeScalarValue (s.encodeScalar v) = v
  encode_decode : ∀ wire, s.isValidScalarWireValue wire = true →
    s.isValidScalarValue (s.decodeScalarValue wire) = true ∧ s.encodeScalar (s.decodeScalarValue wire) = wire

theorem ScalarType.plain_exact (T : Type) : (ScalarType.plain T).Exact where
  decode_encode _ _ := ⟨rfl, rfl⟩
  encode_decode _ _ := ⟨rfl, rfl⟩

theorem ScalarType.signedChar_exact : ScalarType.signedChar.Exact where
  decode_encode _ _ := ⟨rfl, rfl⟩
  encode_decode _ _ := ⟨rfl, rfl⟩

theorem ScalarType.taskState32_exact : ScalarType.taskState32.Exact where
  decode_encode _ h := ⟨h, rfl⟩
  encode_decode _ h := ⟨h, rfl⟩

variable {W T Wire : Type}

/-- A codec whose two directions undo each other. -/
structure Methods.RoundTrips {X : Type} (m : Methods T X) : Prop where
  decode_encode : ∀ v y, m.toVariant (some v) = some y → m.makeDataSource y = some v
  encode_decode : ∀ x v, m.makeDataSource x = some v → m.toVariant (some v) = some x

/-- What comes back through a codec: exactly the values of `value`, and exactly the `Variant`s of `variant` with a
value of `declares`. -/
structure Methods.Keeps {X : Type} (m : Methods T X) (declares value : T → Prop) (variant : X → Prop) : Prop where
  value_iff : ∀ v, (∀ y, m.toVariant (some v) = some y → m.makeDataSource y = some v) ↔ value v
  variant_iff : ∀ x, (∀ v, m.makeDataSource x = some v → m.toVariant (some v) = some x ∧ declares v) ↔ variant x

/-- If the directions undo each other, what comes back depends on what is declared only. -/
theorem Methods.RoundTrips.keeps {X : Type} {m : Methods T X} (h : m.RoundTrips) {declares : T → Prop}
    {variant : X → Prop} (hdeclares : ∀ x, (∀ v, m.makeDataSource x = some v → declares v) ↔ variant x) :
    m.Keeps declares (fun _ => True) variant where
  value_iff v := iff_of_true (h.decode_encode v) trivial
  variant_iff x := by
    rw [← hdeclares x]
    constructor
    · intro hall v hv
      exact (hall v hv).2
    · intro hall v hv
      exact ⟨h.encode_decode x v hv, hall v hv⟩

/-- Everything comes back if everything is declared. -/
theorem Methods.RoundTrips.keeps_all {X : Type} {m : Methods T X} (h : m.RoundTrips) :
    m.Keeps (fun _ => True) (fun _ => True) fun _ => True :=
  h.keeps fun _ => iff_of_true (fun _ _ => trivial) trivial

theorem ScalarTypeCodec.roundTrips [Native W Wire] [Stored.Exact W Wire] {s : ScalarType T Wire} (h : s.Exact) :
    (ScalarTypeCodec.methods (W := W) s (Native.dataType W Wire)).RoundTrips where
  decode_encode v y hy := by
    obtain ⟨hvalid, rfl⟩ := (ScalarTypeCodec.toVariant_eq_some s).1 hy
    obtain ⟨hwire, hback⟩ := h.decode_encode v hvalid
    exact (ScalarTypeCodec.makeDataSource_eq_some s _).2 ⟨_, _, rfl, Stored.get_put _, hwire, hback⟩
  encode_decode x v hv := by
    obtain ⟨u, wire, rfl, hget, hwire, rfl⟩ := (ScalarTypeCodec.makeDataSource_eq_some s _).1 hv
    obtain ⟨hvalid, hback⟩ := h.encode_decode wire hwire
    refine (ScalarTypeCodec.toVariant_eq_some s).2 ⟨hvalid, ?_⟩
    rw [hback, Variant.of, Stored.Exact.put_get u wire hget]

theorem ConnPolicyTypeCodec.roundTrips [Stored W ConnPolicyWire] [Stored.Exact W ConnPolicyWire] (dataType : Nat) :
    (ConnPolicyTypeCodec.methods (W := W) dataType (some dataType)).RoundTrips where
  decode_encode v y hy := by
    cases hy
    exact (ConnPolicyTypeCodec.makeDataSource_eq_some dataType).2 ⟨_, rfl, Stored.get_put _⟩
  encode_decode x v hv := by
    obtain ⟨u, rfl, hget⟩ := (ConnPolicyTypeCodec.makeDataSource_eq_some dataType).1 hv
    simp only [methods, toVariant, Stored.Exact.put_get u _ hget]

/-- An array comes back, and its `Variant` if the dimension is not explicit. -/
theorem ArrayTypeCodec.decode_encode [Native W T] (values : List T) :
    ArrayTypeCodec.makeDataSource T (Native.dataType W T) (Variant.ofVector values : Variant W) = some values :=
  (ArrayTypeCodec.makeDataSource_eq_some _).2 ⟨_, _, rfl, Nat.zero_le 1, mapM_get_put values⟩

theorem ArrayTypeCodec.encode_decode_iff [Native W T] [Stored.Exact W T] {x : Variant W} {values : List T}
    (h : ArrayTypeCodec.makeDataSource T (Native.dataType W T) x = some values) :
    ArrayTypeCodec.toVariant (some values) = some x ↔ x.arrayDimensions.length ≠ 1 := by
  obtain ⟨us, dimensions, rfl, hlength, hus⟩ := (ArrayTypeCodec.makeDataSource_eq_some _).1 h
  simp only [toVariant, Variant.ofVector, put_of_mapM_get hus, Variant.arrayDimensions, Option.some.injEq,
    Variant.array.injEq, true_and]
  constructor
  · rintro rfl
    exact Nat.zero_ne_one
  · intro hne
    exact (List.length_eq_zero_iff.1 (by omega)).symm

/-- The `Variant`s that do not come back are the arrays with an explicit dimension. -/
theorem ArrayTypeCodec.encode_decode_all_iff [Native W T] [Stored.Exact W T] (x : Variant W) :
    (∀ values, ArrayTypeCodec.makeDataSource T (Native.dataType W T) x = some values →
        ArrayTypeCodec.toVariant (some values) = some x) ↔
      ∀ (values : List T) (n : Nat), x ≠ .array (Native.dataType W T) (values.map Stored.put) [n] := by
  constructor
  · rintro hall values n rfl
    have hdecode := (makeDataSource_eq_some (Native.dataType W T)).2
      ⟨values.map (Stored.put : T → W), [n], rfl, Nat.le_refl 1, mapM_get_put values⟩
    exact (encode_decode_iff hdecode).1 (hall values hdecode) rfl
  · intro hne values hdecode
    refine (encode_decode_iff hdecode).2 ?_
    obtain ⟨us, dimensions, rfl, -, hus⟩ := (makeDataSource_eq_some _).1 hdecode
    intro hlength
    obtain ⟨n, rfl⟩ := List.length_eq_one_iff.1 hlength
    exact hne values n (by rw [put_of_mapM_get hus])

theorem Variant.of_injective [Native W T] {v v' : T} (h : (.of v : Variant W) = .of v') : v = v' := by
  have hput : (Stored.put v : W) = Stored.put v' := (Variant.scalar.inj h).2
  have hget := congrArg (Stored.get : W → Option T) hput
  rwa [Stored.get_put, Stored.get_put, Option.some.injEq] at hget

/-- A text comes back from `c_str()` if no byte is 0. -/
theorem ScalarType.takeWhile_ne_zero_eq {text : Str} : text.takeWhile (· ≠ 0) = text ↔ 0 ∉ text := by
  rw [List.takeWhile_eq_self_iff]
  constructor
  · intro h hmem
    simpa using h 0 hmem
  · rintro h byte hbyte
    have hne : byte ≠ 0 := by
      rintro rfl
      exact h hbyte
    simpa using hne

section RtString

variable [Native W Str]

theorem ScalarTypeCodec.rtString_toVariant (v : Str) :
    ScalarTypeCodec.toVariant .rtString (some v) = some (.of (v.takeWhile (· ≠ 0)) : Variant W) := rfl

theorem ScalarTypeCodec.rtString_makeDataSource (text : Str) :
    ScalarTypeCodec.makeDataSource .rtString (Native.dataType W Str) (.of text : Variant W) =
      some (text.takeWhile (· ≠ 0)) :=
  (ScalarTypeCodec.makeDataSource_eq_some .rtString _).2 ⟨_, text, rfl, Stored.get_put _, rfl, rfl⟩

theorem ScalarTypeCodec.rtString_decode_encode_iff (v : Str) :
    (∀ y : Variant W, ScalarTypeCodec.toVariant .rtString (some v) = some y →
        ScalarTypeCodec.makeDataSource .rtString (Native.dataType W Str) y = some v) ↔ 0 ∉ v := by
  rw [← ScalarType.takeWhile_ne_zero_eq]
  constructor
  · intro h
    have hdecode := h _ rfl
    rw [rtString_makeDataSource, Option.some.injEq] at hdecode
    rwa [ScalarType.rtString, List.takeWhile_idem] at hdecode
  · rintro h y hy
    cases hy
    rw [rtString_makeDataSource]
    simp only [ScalarType.rtString, h]

theorem ScalarTypeCodec.rtString_encode_decode_iff [Stored.Exact W Str] (x : Variant W) :
    (∀ v, ScalarTypeCodec.makeDataSource .rtString (Native.dataType W Str) x = some v →
        ScalarTypeCodec.toVariant .rtString (some v) = some x) ↔
      ∀ text : Str, x = .of text → 0 ∉ text := by
  constructor
  · rintro h text rfl
    have hencode := h _ (rtString_makeDataSource text)
    rw [rtString_toVariant, List.takeWhile_idem, Option.some.injEq] at hencode
    exact ScalarType.takeWhile_ne_zero_eq.1 (Variant.of_injective hencode)
  · intro h v hv
    obtain ⟨u, text, rfl, hget, -, rfl⟩ := (makeDataSource_eq_some .rtString _).1 hv
    have hput : Stored.put text = u := Stored.Exact.put_get u text hget
    have hclean := ScalarType.takeWhile_ne_zero_eq.2 (h text (by rw [Variant.of, hput]))
    calc ScalarTypeCodec.toVariant .rtString (some (text.takeWhile (· ≠ 0)))
        = some (.of (text.takeWhile (· ≠ 0))) := by rw [rtString_toVariant, List.takeWhile_idem]
      _ = some (.scalar (Native.dataType W Str) u) := by rw [hclean, Variant.of, hput]

end RtString

end RoundTrip

/-! ## The canonical codecs -/

section Canonical

instance : Stored.Exact WireValue Bool := ⟨fun u x h => by cases u <;> cases h; rfl⟩

instance : Stored.Exact WireValue Int8 := ⟨fun u x h => by cases u <;> cases h; rfl⟩

instance : Stored.Exact WireValue UInt8 := ⟨fun u x h => by cases u <;> cases h; rfl⟩

instance : Stored.Exact WireValue Int16 := ⟨fun u x h => by cases u <;> cases h; rfl⟩

instance : Stored.Exact WireValue UInt16 := ⟨fun u x h => by cases u <;> cases h; rfl⟩

instance : Stored.Exact WireValue Int32 := ⟨fun u x h => by cases u <;> cases h; rfl⟩

instance : Stored.Exact WireValue UInt32 := ⟨fun u x h => by cases u <;> cases h; rfl⟩

instance : Stored.Exact WireValue Int64 := ⟨fun u x h => by cases u <;> cases h; rfl⟩

instance : Stored.Exact WireValue UInt64 := ⟨fun u x h => by cases u <;> cases h; rfl⟩

instance : Stored.Exact WireValue Float32Bits := ⟨fun u x h => by cases u <;> cases h; rfl⟩

instance : Stored.Exact WireValue Float64Bits := ⟨fun u x h => by cases u <;> cases h; rfl⟩

instance : Stored.Exact WireValue Str := ⟨fun u x h => by cases u <;> cases h; rfl⟩

instance : Stored.Exact WireValue ConnPolicyWire := ⟨fun u x h => by cases u <;> cases h; rfl⟩

/-- The descriptors of a build are those of its types, with the datatypes of their codecs. -/
theorem CanonicalType.descriptors {F T : Type} (env : Types.Environment F T) (b : Binding)
    (h : b.charSigned = env.charSigned) :
    Types.canonicalTypeDescriptors env =
      (described env.rtMalloc).map fun t => (t.rttName, (t.methods b).dataType) := by
  unfold Types.canonicalTypeDescriptors
  rw [← h]
  obtain ⟨charSigned, policyType, policyNative⟩ := b
  cases env.rtMalloc with
  | false => cases charSigned <;> rfl
  | true => cases charSigned <;> rfl

/-- The codecs that there are. -/
inductive CodecClass : {T : Type} → Methods T (Variant WireValue) → Prop where
  | scalar {T Wire : Type} [Native WireValue Wire] (s : ScalarType T Wire) (dataType : Nat) :
      CodecClass (ScalarTypeCodec.methods s dataType)
  | array {T : Type} [Native WireValue T] (elementType : Nat) : CodecClass (ArrayTypeCodec.methods T elementType)
  | connPolicy (dataType : Nat) (nativeType : Option Nat) : CodecClass (ConnPolicyTypeCodec.methods dataType nativeType)
  | void (T : Type) (dataType : Nat) : CodecClass (VoidTypeCodec.methods T (Variant WireValue) dataType)

theorem CodecClass.pathsAgree {T : Type} {m : Methods T (Variant WireValue)} (h : CodecClass m) : m.PathsAgree := by
  cases h with
  | scalar s dataType => exact ScalarTypeCodec.pathsAgree s dataType
  | array elementType => exact ArrayTypeCodec.pathsAgree elementType
  | connPolicy dataType nativeType => exact ConnPolicyTypeCodec.pathsAgree dataType nativeType
  | void T dataType => exact VoidTypeCodec.pathsAgree T _ dataType

/-- `assignVariant` assigns what `makeDataSource` decodes. -/
theorem CodecClass.assignVariant_eq {T : Type} {m : Methods T (Variant WireValue)} (h : CodecClass m)
    (x : Variant WireValue) (d : Destination T (Variant WireValue)) (outcome : WriterOutcome) :
    m.assignVariant x d outcome =
      if d.isAssignable then (m.makeDataSource x).elim (d, .ok false) fun v => d.assign v outcome
      else (d, .ok false) := by
  cases h with
  | scalar s dataType => exact ScalarTypeCodec.assignVariant_eq s dataType x d outcome
  | array elementType => exact ArrayTypeCodec.assignVariant_eq elementType x d outcome
  | connPolicy dataType nativeType => exact ConnPolicyTypeCodec.assignVariant_eq dataType x d outcome
  | void T dataType => exact (ite_self _).symm

theorem CanonicalType.methods_codecClass (b : Binding) (t : CanonicalType) : CodecClass (t.methods b) := by
  cases t with
  | void => exact .void _ _
  | float64Array => exact .array _
  | int32Array => exact .array _
  | stringArray => exact .array _
  | connPolicy => exact .connPolicy _ _
  | char =>
      unfold methods
      split
      case isTrue => exact .scalar _ _
      case isFalse => exact .scalar _ _
  | _ => exact .scalar _ _

/-- Nothing is set unless the value decodes and the destination can be assigned to. -/
theorem CodecClass.assignVariant_cases {T : Type} {m : Methods T (Variant WireValue)} (h : CodecClass m)
    (x : Variant WireValue) (d : Destination T (Variant WireValue)) (outcome : WriterOutcome) :
    (m.assignVariant x d outcome = (d, .ok false) ∧ (d.isAssignable = false ∨ m.makeDataSource x = none)) ∨
      ∃ v, d.isAssignable = true ∧ m.makeDataSource x = some v ∧ m.assignVariant x d outcome = d.assign v outcome := by
  rw [h.assignVariant_eq]
  by_cases hassignable : d.isAssignable = true
  · rw [if_pos hassignable]
    cases m.makeDataSource x with
    | none => exact .inl ⟨rfl, .inr rfl⟩
    | some v => exact .inr ⟨v, hassignable, rfl, rfl⟩
  · exact .inl ⟨if_neg hassignable, .inl (Bool.eq_false_iff.2 hassignable)⟩

end Canonical

end RttOpcua.Values
