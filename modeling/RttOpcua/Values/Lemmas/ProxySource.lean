import RttOpcua.Values.ProxySource

/-!
# Calls of a proxy data source

Each call but a write through the reference caches what it confirms, and nothing else.
-/

namespace RttOpcua.Values.ProxySource

variable {T X : Type} {p : ProxyClass T X}

theorem refresh_lastValue (s : ProxySource T) (outcome : ReaderOutcome X) :
    (s.refresh p outcome).1.lastValue = (s.confirms p (.evaluate outcome)).getD s.lastValue := by
  cases outcome with
  | failed | threw std => rfl
  | read value => cases hdecode : p.decode value <;> simp [refresh, confirms, hdecode]

theorem refresh_edited (s : ProxySource T) (outcome : ReaderOutcome X) :
    (s.refresh p outcome).1.edited = s.edited := by
  cases outcome with
  | failed | threw std => rfl
  | read value => cases hdecode : p.decode value <;> simp [refresh, hdecode]

theorem get_fst (s : ProxySource T) (outcome : ReaderOutcome X) : (s.get p outcome).1 = (s.refresh p outcome).1 := by
  unfold get
  split <;> simp_all

theorem setReference_fst (s : ProxySource T) (outcome : ReaderOutcome X) :
    (s.setReference p outcome).1.lastValue = (s.refresh p outcome).1.lastValue ∧
      (s.setReference p outcome).1.edited = (s.refresh p outcome).1.edited := by
  unfold setReference
  split <;> simp_all

theorem set_lastValue (s : ProxySource T) (value : T) (outcome : WriterOutcome) :
    (s.set p value outcome).1.lastValue = (s.confirms p (.set value outcome)).getD s.lastValue := by
  cases hencode : p.encode value with
  | none => cases outcome <;> simp [set, confirms, hencode]
  | some x => cases outcome <;> simp [set, confirms, hencode]

theorem set_edited (s : ProxySource T) (value : T) (outcome : WriterOutcome) :
    (s.set p value outcome).1.edited = s.edited := by
  cases hencode : p.encode value with
  | none => simp [set, hencode]
  | some x => cases outcome <;> simp [set, hencode]

/-- `updated` confirms what a `set` of the cached value does. -/
theorem confirms_updated (s : ProxySource T) (outcome : WriterOutcome) :
    s.confirms p (.updated outcome) = s.confirms p (.set s.lastValue outcome) := by
  cases outcome <;> rfl

/-- Without an edit, a call caches what it confirms. -/
theorem perform_lastValue (s : ProxySource T) {call : ProxyCall T X} (hcall : ∀ value, call ≠ .edit value) :
    (s.perform p call).lastValue = (s.confirms p call).getD s.lastValue := by
  cases call with
  | get outcome =>
      rw [perform, get_fst, refresh_lastValue]
      cases outcome <;> rfl
  | evaluate outcome => exact s.refresh_lastValue outcome
  | setReference outcome =>
      rw [perform, (s.setReference_fst outcome).1, refresh_lastValue]
      cases outcome <;> rfl
  | set value outcome => exact s.set_lastValue value outcome
  | updated outcome =>
      rw [confirms_updated]
      exact s.set_lastValue s.lastValue outcome
  | edit value => exact absurd rfl (hcall value)

end RttOpcua.Values.ProxySource
