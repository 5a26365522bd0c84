import RttOpcua.Values.Lemmas.Codecs
import RttOpcua.Values.Lemmas.ProxySource

/-!
# Values

The cache of a proxy data source, and what the codecs do with all values and all `Variant`s.
-/

namespace RttOpcua.Values

namespace ProxySource

variable {T X : Type} (p : ProxyClass T X)

/-- Without a write through the reference that is still to come to the writer, the cache has a remote value. -/
def Cached (s : ProxySource T) : Prop := s.edited = false → s.lastValue = s.remote

/-- An `updated` with this outcome leaves a remote value: the writer takes the cached one, or the cache had the remote
one already. -/
def Confirms (s : ProxySource T) (outcome : WriterOutcome) : Prop :=
  (outcome = .acknowledged ∧ (p.encode s.lastValue).isSome = true) ∨ s.lastValue = s.remote

variable {p}

/-! ## One call -/

/-- A call without edits keeps the cache when it leaves the edits of the reference as they are. -/
theorem cached_of_perform {s : ProxySource T} (h : s.Cached) {call : ProxyCall T X} (hcall : ∀ value, call ≠ .edit value)
    (hedited : (s.perform p call).edited = s.edited) :
    Cached { s.perform p call with remote := (s.confirms p call).getD s.remote } := by
  intro he
  simp only [hedited] at he
  simp only [perform_lastValue s hcall, h he]

/-- A call keeps the cache unless it is an `updated` that leaves an edit behind. -/
theorem step_cached_iff {s s' : ProxySource T} {call : ProxyCall T X} (h : s.Cached) (hstep : s.step p call = some s') :
    s'.Cached ↔ ∀ outcome, call = .updated outcome → s.Confirms p outcome := by
  cases call with
  | get outcome =>
      cases hstep
      refine iff_of_true (cached_of_perform h (by simp) ?_) (by simp)
      rw [perform, get_fst, refresh_edited]
  | evaluate outcome =>
      cases hstep
      exact iff_of_true (cached_of_perform h (by simp) (s.refresh_edited outcome)) (by simp)
  | setReference outcome =>
      cases hstep
      refine iff_of_true (cached_of_perform h (by simp) ?_) (by simp)
      rw [perform, (s.setReference_fst outcome).2, refresh_edited]
  | edit value =>
      simp only [step, Option.ite_none_right_eq_some, Option.some.injEq] at hstep
      obtain ⟨-, rfl⟩ := hstep
      exact iff_of_true (by simp [Cached, perform]) (by simp)
  | set value outcome =>
      cases hstep
      exact iff_of_true (cached_of_perform h (by simp) (s.set_edited value outcome)) (by simp)
  | updated outcome =>
      cases hstep
      -- No edit is outstanding now, so the cache must have what this call confirms, or have had the remote value.
      have hlast : (s.perform p (.updated outcome)).lastValue = s.lastValue := by
        rw [perform_lastValue s (by simp), confirms_updated]
        cases outcome <;> cases hencode : p.encode s.lastValue <;> simp [confirms, hencode]
      simp only [Cached, hlast, ProxyCall.updated.injEq, forall_eq', Confirms]
      cases outcome <;> cases hencode : p.encode s.lastValue <;> simp [confirms, perform, hencode]

/-! ## Runs -/

theorem states_cons {s : ProxySource T} {call : ProxyCall T X} {rest : List (ProxyCall T X)} {all : List (ProxySource T)}
    (h : s.states p (call :: rest) = some all) :
    ∃ s' more, s.step p call = some s' ∧ s'.states p rest = some more ∧ all = s :: more := by
  simp only [states, bind, Option.bind_eq_some_iff, Option.some.injEq] at h
  obtain ⟨s', hstep, more, hmore, rfl⟩ := h
  exact ⟨s', more, hstep, hmore, rfl⟩

theorem head_mem_states {s : ProxySource T} {calls : List (ProxyCall T X)} {all : List (ProxySource T)}
    (h : s.states p calls = some all) : s ∈ all := by
  cases calls with
  | nil => cases h; exact List.mem_singleton_self s
  | cons call rest =>
      obtain ⟨s', more, -, -, rfl⟩ := states_cons h
      exact List.mem_cons_self

theorem states_cached_iff (calls : List (ProxyCall T X)) :
    ∀ {s : ProxySource T} {all : List (ProxySource T)}, s.Cached → s.states p calls = some all →
      ((∀ t ∈ all, t.Cached) ↔ ∀ e ∈ all.zip calls, ∀ outcome, e.2 = .updated outcome → e.1.Confirms p outcome) := by
  induction calls with
  | nil =>
      intro s all hs h
      cases h
      simpa using hs
  | cons call rest ih =>
      intro s all hs h
      obtain ⟨s', more, hstep, hmore, rfl⟩ := states_cons h
      rw [List.zip_cons_cons, List.forall_mem_cons, List.forall_mem_cons, ← step_cached_iff hs hstep]
      constructor
      · rintro ⟨-, hall⟩
        have hs' := hall s' (head_mem_states hmore)
        exact ⟨hs', (ih hs' hmore).1 hall⟩
      · rintro ⟨hs', hall⟩
        exact ⟨hs, (ih hs' hmore).2 hall⟩

end ProxySource

/-- In a run of any calls on a writable proxy data source, `value` and `rvalue` give the default, the last value read
or the last one acknowledged, whichever came last, whenever no write through the reference is outstanding, exactly if
each `updated` is acknowledged or finds the cache as it was. -/
theorem proxy_caches_remote_iff {T X : Type} (p : ProxyClass T X) (default : T) (calls : List (ProxyCall T X))
    (all : List (ProxySource T)) (h : (ProxySource.new default).states p calls = some all) :
    (∀ s ∈ all, s.edited = false → s.lastValue = s.remote) ↔
      ∀ e ∈ all.zip calls, ∀ outcome, e.2 = .updated outcome →
        (outcome = .acknowledged ∧ (p.encode e.1.lastValue).isSome = true) ∨ e.1.lastValue = e.1.remote :=
  ProxySource.states_cached_iff calls (fun _ => rfl) h

/-! ## A failed write -/

/-- Integers, stored as themselves. -/
instance : Native Int Int := .self Int 6

/-- `Int32`. -/
def int32Proxy : ProxyClass Int (Variant Int) := ScalarAssignableProxyDataSource (.plain Int) 6

/-- `set()` reads 1; 2 is written through the reference and given to the writer. -/
def edits (outcome : WriterOutcome) : List (ProxyCall Int (Variant Int)) :=
  [.setReference (.read (.scalar 6 1)), .edit 2, .updated outcome]

theorem proxy_caches_remote_iff_acknowledged :
    ∃ all, (ProxySource.new 0).states int32Proxy (edits .acknowledged) = some all ∧
      ∀ s ∈ all, s.edited = false → s.lastValue = s.remote := by
  obtain ⟨all, hall⟩ : ∃ all, (ProxySource.new 0).states int32Proxy (edits .acknowledged) = some all := ⟨_, rfl⟩
  refine ⟨all, hall, (proxy_caches_remote_iff int32Proxy 0 (edits .acknowledged) all hall).2 ?_⟩
  cases hall
  intro e he outcome hout
  simp only [edits, List.zip_cons_cons, List.mem_cons, List.zip_nil_right, List.not_mem_nil, or_false] at he
  rcases he with rfl | rfl | rfl
  · cases hout
  · cases hout
  · cases hout
    exact .inl ⟨rfl, rfl⟩

/-- The writer fails, and the cache keeps the edit. -/
theorem failed_write_stays_cached :
    ∃ all, (ProxySource.new 0).states int32Proxy (edits .failed) = some all ∧
      ∃ s ∈ all, s.edited = false ∧ s.lastValue = 2 ∧ s.remote = 1 := by
  exact ⟨_, rfl, ⟨2, 1, true, false⟩, by decide, rfl, rfl, rfl⟩

/-! ## Assignments -/

/-- Whatever the destination and its writer do: `assignVariant` answers true only with the decoded value in the
destination, false only with the destination as it was, and a value node answers `Good` only with the value in the
source it publishes, exactly if the value decoded takes effect. -/
theorem assignment_takes_effect_iff (b : Binding) (t : CanonicalType) (x : Variant WireValue)
    (d : Destination t.Value (Variant WireValue)) (outcome : WriterOutcome) :
    ((∀ d', (t.methods b).assignVariant x d outcome = (d', .ok true) →
          ∃ v, (t.methods b).makeDataSource x = some v ∧ d'.value = some v) ∧
        (∀ d', (t.methods b).assignVariant x d outcome = (d', .ok false) → d' = d) ∧
        ∀ (node : GuardedValueDataSource t.Value (Variant WireValue)) range lease d',
          node.codec = some (t.methods b) → node.write range (some x) lease d outcome = (d', .ok .good) →
            ∃ v, (t.methods b).makeDataSource x = some v ∧ d'.value = some v) ↔
      ∀ v, (t.methods b).makeDataSource x = some v → ∀ class_ source, d = .proxy class_ source →
        source.lastValue = v ∨ (class_.encode v).isSome = true ∧ outcome ≠ .failed ∧ outcome ≠ .threw true := by
  have hcases := (t.methods_codecClass b).assignVariant_cases x d outcome
  constructor
  · rintro ⟨htrue, -, -⟩ v hv
    rcases hcases with ⟨-, hother | hnone⟩ | ⟨v', hassignable, hv', hassign⟩
    · rintro class_ source rfl
      cases hother
    · cases hnone.symm.trans hv
    · cases hv'.symm.trans hv
      refine (Destination.assign_takesEffect hassignable v outcome).1 ?_
      intro hanswer
      obtain ⟨w, hw, hvalue⟩ := htrue (d.assign v outcome).1 (by rw [hassign, ← hanswer])
      cases hw.symm.trans hv
      exact hvalue
  · intro heffect
    have htrue : ∀ d', (t.methods b).assignVariant x d outcome = (d', .ok true) →
        ∃ v, (t.methods b).makeDataSource x = some v ∧ d'.value = some v := by
      intro d' hd'
      rcases hcases with ⟨hfalse, -⟩ | ⟨v, hassignable, hv, hassign⟩
      · cases hfalse.symm.trans hd'
      · rw [hassign] at hd'
        have hvalue := (Destination.assign_takesEffect hassignable v outcome).2 (heffect v hv)
        rw [hd'] at hvalue
        exact ⟨v, hv, hvalue rfl⟩
    refine ⟨htrue, ?_, ?_⟩
    · intro d' hd'
      rcases hcases with ⟨hfalse, -⟩ | ⟨v, -, -, hassign⟩
      · cases hfalse.symm.trans hd'
        rfl
      · rw [hassign] at hd'
        exact absurd (congrArg Prod.snd hd') (d.assign_ne_false v outcome)
    · intro node range lease d' hcodec hwrite
      obtain ⟨-, -, -, x', codec, hx, hcodec', hassign⟩ := GuardedValueDataSource.write_good.1 hwrite
      cases hx
      cases hcodec.symm.trans hcodec'
      exact htrue d' hassign

/-- A published proxy whose writer refuses 2 answers `Good` and has 1. -/
theorem refused_write_answers_good :
    let codec := CanonicalType.int32.methods ⟨true, 0, none⟩
    let source : Destination Int32 (Variant WireValue) :=
      .proxy (ScalarAssignableProxyDataSource (.plain Int32) 6) (.new 1)
    GuardedValueDataSource.write ⟨some codec, true⟩ false (some (.scalar 6 (.int32 2))) true source .failed =
        (source, .ok .good) ∧
      codec.makeDataSource (.scalar 6 (.int32 2)) = some 2 ∧ source.value = some 1 :=
  ⟨rfl, rfl, rfl⟩

/-! ## Paths -/

/-- All methods of a codec decode alike and encode alike, and what does not decode changes nothing. -/
theorem codec_paths_agree (b : Binding) (t : CanonicalType) : (t.methods b).PathsAgree :=
  (t.methods_codecClass b).pathsAgree

/-! ## Round trips -/

namespace CanonicalType

/-- The codes of `FlowStatus` and of `WriteStatus`. -/
def isStatusCode (value : Int) : Bool := 0 ≤ value && value ≤ 2

/-- Whether an enumeration declares the code. -/
def Declares : (t : CanonicalType) → t.Value → Prop
  | .flowStatus, code => isStatusCode code.toInt = true
  | .writeStatus, code => isStatusCode code.toInt = true
  | .taskState, code => ScalarType.isTaskStateCode code.toInt = true
  | _, _ => True

/-- The values that come back: an `rt_string` has no byte 0. -/
def KeepsValue : (t : CanonicalType) → t.Value → Prop
  | .rtString, text => 0 ∉ text
  | _, _ => True

/-- The `Variant`s that come back: an `rt_string` has no byte 0, a status a declared code, and an array no explicit
dimension. -/
def KeepsVariant : CanonicalType → Variant WireValue → Prop
  | .rtString, x => ∀ text, x = .scalar 12 (.string text) → 0 ∉ text
  | .flowStatus, x => ∀ code, x = .scalar 6 (.int32 code) → isStatusCode code.toInt = true
  | .writeStatus, x => ∀ code, x = .scalar 6 (.int32 code) → isStatusCode code.toInt = true
  | .float64Array, x => ∀ (values : List Float64Bits) (n : Nat), x ≠ .array 11 (values.map .double) [n]
  | .int32Array, x => ∀ (values : List Int32) (n : Nat), x ≠ .array 6 (values.map .int32) [n]
  | .stringArray, x => ∀ (values : List Str) (n : Nat), x ≠ .array 12 (values.map .string) [n]
  | _, _ => True

section Keeps

variable (charSigned : Bool) (policyType : Nat)

theorem plain_keeps (T : Type) [Native WireValue T] [Stored.Exact WireValue T] :
    (ScalarTypeCodec.methods (W := WireValue) (.plain T) (Native.dataType WireValue T)).Keeps (fun _ => True)
      (fun _ => True) fun _ => True :=
  (ScalarTypeCodec.roundTrips (ScalarType.plain_exact T)).keeps_all

theorem char_keeps (b : Binding) :
    (CanonicalType.char.methods b).Keeps (fun _ => True) (fun _ => True) fun _ => True := by
  unfold methods
  split
  case isTrue => exact (ScalarTypeCodec.roundTrips ScalarType.signedChar_exact).keeps_all
  case isFalse => exact plain_keeps UInt8

theorem void_keeps (b : Binding) : (CanonicalType.void.methods b).Keeps (fun _ => True) (fun _ => True) fun _ => True where
  value_iff v := v.elim
  variant_iff _ := iff_of_true (fun v => v.elim) trivial

theorem array_keeps (T : Type) [Native WireValue T] [Stored.Exact WireValue T] :
    (ArrayTypeCodec.methods (W := WireValue) T (Native.dataType WireValue T)).Keeps (fun _ => True) (fun _ => True)
      fun x => ∀ (values : List T) (n : Nat), x ≠ .array (Native.dataType WireValue T) (values.map Stored.put) [n] where
  value_iff values := by
    refine iff_of_true ?_ trivial
    rintro y hy
    cases hy
    exact ArrayTypeCodec.decode_encode values
  variant_iff x := by
    rw [← ArrayTypeCodec.encode_decode_all_iff x]
    constructor
    · intro hall values hvalues
      exact (hall values hvalues).1
    · intro hall values hvalues
      exact ⟨hall values hvalues, trivial⟩

theorem rtString_keeps (b : Binding) :
    (CanonicalType.rtString.methods b).Keeps (fun _ => True) (fun text => 0 ∉ text)
      fun x => ∀ text, x = .scalar 12 (.string text) → 0 ∉ text where
  value_iff text := ScalarTypeCodec.rtString_decode_encode_iff (W := WireValue) text
  variant_iff x := by
    refine Iff.trans ?_ (ScalarTypeCodec.rtString_encode_decode_iff x)
    constructor
    · intro hall text htext
      exact (hall text htext).1
    · intro hall text htext
      exact ⟨hall text htext, trivial⟩

/-- Every code is decoded, whether it is declared or not. -/
theorem status_keeps :
    (ScalarTypeCodec.methods (W := WireValue) (.plain Int32) 6).Keeps (fun code => isStatusCode code.toInt = true)
      (fun _ => True) fun x => ∀ code, x = .scalar 6 (.int32 code) → isStatusCode code.toInt = true := by
  refine (ScalarTypeCodec.roundTrips (ScalarType.plain_exact Int32)).keeps fun x => ?_
  constructor
  · rintro hall code rfl
    exact hall code rfl
  · intro hall code hcode
    obtain ⟨u, wire, rfl, hget, -, rfl⟩ := (ScalarTypeCodec.makeDataSource_eq_some (.plain Int32) _).1 hcode
    exact hall wire (by rw [← Stored.Exact.put_get u wire hget]; rfl)

/-- No code is decoded that is not declared. -/
theorem taskState_keeps :
    (ScalarTypeCodec.methods (W := WireValue) .taskState32 6).Keeps
      (fun code => ScalarType.isTaskStateCode code.toInt = true) (fun _ => True) fun _ => True := by
  refine (ScalarTypeCodec.roundTrips ScalarType.taskState32_exact).keeps fun x => iff_of_true ?_ trivial
  intro code hcode
  obtain ⟨u, wire, rfl, -, hvalid, rfl⟩ := (ScalarTypeCodec.makeDataSource_eq_some .taskState32 _).1 hcode
  exact hvalid

theorem connPolicy_keeps :
    (ConnPolicyTypeCodec.methods (W := WireValue) policyType (some policyType)).Keeps (fun _ => True) (fun _ => True)
      fun _ => True :=
  (ConnPolicyTypeCodec.roundTrips policyType).keeps_all

theorem keeps (t : CanonicalType) :
    (t.methods ⟨charSigned, policyType, some policyType⟩).Keeps t.Declares t.KeepsValue t.KeepsVariant := by
  cases t with
  | bool => exact plain_keeps Bool
  | int8 => exact plain_keeps Int8
  | uint8 => exact plain_keeps UInt8
  | int16 => exact plain_keeps Int16
  | uint16 => exact plain_keeps UInt16
  | int32 => exact plain_keeps Int32
  | uint32 => exact plain_keeps UInt32
  | int64 => exact plain_keeps Int64
  | uint64 => exact plain_keeps UInt64
  | float32 => exact plain_keeps Float32Bits
  | float64 => exact plain_keeps Float64Bits
  | char => exact char_keeps _
  | string => exact plain_keeps Str
  | void => exact void_keeps _
  | float64Array => exact array_keeps Float64Bits
  | int32Array => exact array_keeps Int32
  | stringArray => exact array_keeps Str
  | rtString => exact rtString_keeps _
  | flowStatus => exact status_keeps
  | writeStatus => exact status_keeps
  | taskState => exact taskState_keeps
  | connPolicy => exact connPolicy_keeps policyType

end Keeps

end CanonicalType

/-- For a codec as an endpoint binds it: the value that it encodes comes back from the `Variant`, and the `Variant`
that it decodes comes back from the value, which the enumeration declares, exactly for those that are kept. -/
theorem codec_round_trips_iff (charSigned : Bool) (policyType : Nat) (t : CanonicalType) :
    (∀ v, (∀ y, (t.methods ⟨charSigned, policyType, some policyType⟩).toVariant (some v) = some y →
          (t.methods ⟨charSigned, policyType, some policyType⟩).makeDataSource y = some v) ↔ t.KeepsValue v) ∧
      ∀ x, (∀ v, (t.methods ⟨charSigned, policyType, some policyType⟩).makeDataSource x = some v →
          (t.methods ⟨charSigned, policyType, some policyType⟩).toVariant (some v) = some x ∧ t.Declares v) ↔
        t.KeepsVariant x :=
  ⟨(t.keeps charSigned policyType).value_iff, (t.keeps charSigned policyType).variant_iff⟩

/-- An `rt_string` loses what stands behind a byte 0, and `FlowStatus` takes the code 7. -/
theorem codecs_lose_bytes_and_take_codes :
    let b : Binding := ⟨true, 0, some 0⟩
    (CanonicalType.rtString.methods b).toVariant (some [97, 0, 98]) = some (.scalar 12 (.string [97])) ∧
      (CanonicalType.rtString.methods b).makeDataSource (.scalar 12 (.string [97])) = some [97] ∧
      (CanonicalType.flowStatus.methods b).makeDataSource (.scalar 6 (.int32 7)) = some 7 ∧
      ¬ CanonicalType.flowStatus.Declares 7 :=
  ⟨rfl, rfl, rfl, (by decide : ¬ CanonicalType.isStatusCode (7 : Int32).toInt = true)⟩

end RttOpcua.Values
