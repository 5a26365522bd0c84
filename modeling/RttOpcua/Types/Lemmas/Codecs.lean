import RttOpcua.Types.Endpoint

/-!
# The two maps of codecs

`codecs_` owns a codec for each type, `codecs_by_name_` points to one for each name. The loop over the names fills
both, and a second name of a type gets a pointer to a codec that `codecs_` does not take.
-/

namespace RttOpcua.Types

open RttOpcua.Lib

variable {T : Type}

/-- A name whose type has a protocol. -/
def TypeRepository.Encoded (repository : TypeRepository T) (name : Str) (t : T) : Prop :=
  repository.type name = some t ∧ (repository.protocol t).isSome = true

/-- No type with a protocol has two names. -/
def TypeRepository.NoAlias (repository : TypeRepository T) : Prop :=
  ∀ name name' t, name ∈ repository.names → name' ∈ repository.names → repository.Encoded name t →
    repository.Encoded name' t → name = name'

/-- Both maps find the same codec, and it is one that `codecs_` owns. -/
structure Codecs.Agree (repository : TypeRepository T) (c : Codecs T) : Prop where
  same : ∀ name ∈ repository.names, c.codecForTypeName name = c.codecForTypeInfo (repository.type name)
  owned : ∀ name k, c.codecsByName.find? name = some k → ∃ t, c.codecs t = some k

/-- What holds after the names `done`. -/
structure CodecsInv (repository : TypeRepository T) (done : List Str) (c : Codecs T) : Prop where
  named : ∀ name k, c.codecsByName.find? name = some k → k < c.made ∧ name ∈ done ∧ ∃ t, repository.Encoded name t
  total : ∀ name ∈ done, ∀ t, repository.Encoded name t →
    (∃ k, c.codecsByName.find? name = some k) ∧ ∃ k, c.codecs t = some k
  -- the first name of a type
  origin : ∀ t k, c.codecs t = some k → ∃ name, repository.Encoded name t ∧ c.codecsByName.find? name = some k
  injective : ∀ name name' k, c.codecsByName.find? name = some k → c.codecsByName.find? name' = some k → name = name'

section Names

variable {repository : TypeRepository T} {c c' : Codecs T} {done : List Str} {name : Str}

theorem CodecsInv.init : CodecsInv repository [] ({} : Codecs T) := ⟨nofun, nofun, nofun, nofun⟩

/-- After the loop the maps agree if and only if no type has two names. -/
theorem CodecsInv.agree_iff (h : CodecsInv repository repository.names c) :
    c.Agree repository ↔ repository.NoAlias := by
  constructor
  · intro hagree name name' t hname hname' ht ht'
    obtain ⟨⟨k, hk⟩, -⟩ := h.total name hname t ht
    have hsame := hagree.same name hname
    have hsame' := hagree.same name' hname'
    rw [ht.1] at hsame
    rw [ht'.1, ← hsame] at hsame'
    exact h.injective name name' k hk (hsame'.trans hk)
  · intro hno
    constructor
    · intro name hname
      by_cases henc : ∃ t, repository.Encoded name t
      · obtain ⟨t, ht⟩ := henc
        obtain ⟨-, k, hk⟩ := h.total name hname t ht
        obtain ⟨name', ht', hk'⟩ := h.origin t k hk
        obtain rfl := hno name name' t hname (h.named name' k hk').2.1 ht ht'
        rw [Codecs.codecForTypeName, Codecs.codecForTypeInfo, ht.1, Option.bind_some, hk, hk']
      · have hnone : c.codecForTypeName name = none := by
          cases hf : c.codecForTypeName name with
          | none => rfl
          | some k => exact absurd (h.named name k hf).2.2 henc
        have hnone' : c.codecForTypeInfo (repository.type name) = none := by
          cases hf : c.codecForTypeInfo (repository.type name) with
          | none => rfl
          | some k =>
              obtain ⟨t, htype, hk⟩ := Option.bind_eq_some_iff.1 hf
              obtain ⟨name', ht', -⟩ := h.origin t k hk
              exact absurd ⟨t, htype, ht'.2⟩ henc
        rw [hnone, hnone']
    · intro name k hk
      obtain ⟨-, hname, t, ht⟩ := h.named name k hk
      obtain ⟨-, k', hk'⟩ := h.total name hname t ht
      obtain ⟨name', ht', hf⟩ := h.origin t k' hk'
      obtain rfl := hno name name' t hname (h.named name' k' hf).2.1 ht ht'
      obtain rfl : k = k' := Option.some.inj (hk.symm.trans hf)
      exact ⟨t, hk'⟩

variable [DecidableEq T] {source : CodecSource T} {e : EndpointTypes}

/-- A round adds a codec if the type of the name has a protocol, and else nothing. -/
theorem bindName_eq_ok (h : Codecs.bindName repository source e c name = .ok c') :
    (c' = c ∧ ∀ t, ¬ repository.Encoded name t) ∨ ∃ t, repository.Encoded name t ∧ c' = c.add t name := by
  unfold Codecs.bindName at h
  split at h
  · rename_i htype
    exact .inl ⟨(Except.ok.inj h).symm, fun t ht => by simp [TypeRepository.Encoded, htype] at ht⟩
  · rename_i t htype
    split at h
    · rename_i hprotocol
      refine .inl ⟨(Except.ok.inj h).symm, fun t' ht => ?_⟩
      obtain rfl : t = t' := Option.some.inj (htype.symm.trans ht.1)
      simp [TypeRepository.Encoded, hprotocol] at ht
    · cases h
    · rename_i p hprotocol
      split at h
      · cases h
      · simp only at h
        split at h
        · cases h
        · exact .inr ⟨t, ⟨htype, by rw [hprotocol]; rfl⟩, (Except.ok.inj h).symm⟩

theorem CodecsInv.step (h : CodecsInv repository done c) (hnew : name ∉ done)
    (hok : Codecs.bindName repository source e c name = .ok c') : CodecsInv repository (done ++ [name]) c' := by
  rcases bindName_eq_ok hok with ⟨rfl, hnone⟩ | ⟨t, ht, rfl⟩
  · refine ⟨fun n k hk => ?_, fun n hn t ht => ?_, h.origin, h.injective⟩
    · obtain ⟨hlt, hmem, ht⟩ := h.named n k hk
      exact ⟨hlt, List.mem_append_left _ hmem, ht⟩
    · rcases List.mem_append.1 hn with hn | hn
      · exact h.total n hn t ht
      · obtain rfl := List.mem_singleton.1 hn
        exact absurd ht (hnone t)
  · have hfresh : c.codecsByName.find? name = none := by
      cases hf : c.codecsByName.find? name with
      | none => rfl
      | some k => exact absurd (h.named name k hf).2.1 hnew
    have hfind : ∀ n, (c.add t name).codecsByName.find? n = if n = name then some c.made else c.codecsByName.find? n := by
      intro n
      simp [Codecs.add, OrdMap.find?_emplace, OrdMap.contains, hfresh]
    have hcodecs : ∀ t', (c.add t name).codecs t' =
        if t' = t ∧ c.codecs t = none then some c.made else c.codecs t' := by
      intro t'
      simp only [Codecs.add]
      cases hc : c.codecs t with
      | none => by_cases heq : t' = t <;> simp [heq]
      | some k => simp
    refine ⟨fun n k hk => ?_, fun n hn t' ht' => ?_, fun t' k hk => ?_, fun n n' k hk hk' => ?_⟩
    · rw [hfind] at hk
      split at hk
      · rename_i heq
        subst heq
        obtain rfl := Option.some.inj hk
        exact ⟨Nat.lt_succ_self _, by simp, t, ht⟩
      · obtain ⟨hlt, hmem, ht'⟩ := h.named n k hk
        exact ⟨Nat.lt_succ_of_lt hlt, List.mem_append_left _ hmem, ht'⟩
    · rw [hfind, hcodecs]
      rcases List.mem_append.1 hn with hn | hn
      · obtain ⟨⟨k, hk⟩, k', hk'⟩ := h.total n hn t' ht'
        refine ⟨?_, ?_⟩
        · split <;> simp [hk]
        · split <;> simp [hk']
      · obtain rfl := List.mem_singleton.1 hn
        obtain rfl : t = t' := Option.some.inj (ht.1.symm.trans ht'.1)
        refine ⟨by simp, ?_⟩
        cases hc : c.codecs t <;> simp
    · rw [hcodecs] at hk
      split at hk
      · rename_i hcond
        obtain ⟨rfl, -⟩ := hcond
        obtain rfl := Option.some.inj hk
        exact ⟨name, ht, by rw [hfind]; simp⟩
      · obtain ⟨n, hn, hf⟩ := h.origin t' k hk
        have hne : n ≠ name := by
          rintro rfl
          simp [hfresh] at hf
        exact ⟨n, hn, by rw [hfind, if_neg hne]; exact hf⟩
    · rw [hfind] at hk hk'
      split at hk <;> split at hk'
      · rename_i h₁ h₂
        exact h₁.trans h₂.symm
      · obtain rfl := Option.some.inj hk
        exact absurd (h.named n' _ hk').1 (Nat.lt_irrefl _)
      · obtain rfl := Option.some.inj hk'
        exact absurd (h.named n _ hk).1 (Nat.lt_irrefl _)
      · exact h.injective n n' k hk hk'

theorem CodecsInv.run {names : List Str} : ∀ {done : List Str} {c c' : Codecs T}, CodecsInv repository done c →
    (done ++ names).Nodup → Codecs.bindNames repository source e names c = .ok c' →
    CodecsInv repository (done ++ names) c' := by
  induction names with
  | nil =>
      intro done c c' h _ hok
      obtain rfl := Except.ok.inj hok
      rw [List.append_nil]
      exact h
  | cons name rest ih =>
      intro done c c' h hnodup hok
      simp only [Codecs.bindNames] at hok
      cases hname : Codecs.bindName repository source e c name with
      | error message =>
          rw [hname] at hok
          cases hok
      | ok c₁ =>
          rw [hname] at hok
          have hnew : name ∉ done := fun hmem => (List.nodup_append.1 hnodup).2.2 name hmem name (by simp) rfl
          rw [List.append_cons] at hnodup ⊢
          exact ih (h.step hnew hname) hnodup hok

end Names

end RttOpcua.Types
