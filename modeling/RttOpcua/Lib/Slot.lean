import Mathlib.Data.List.Basic

/-!
# Slots

A slot holds one item at most. An item is taken into the empty slot, offered any number of times, and leaves the
slot when an offer is answered with success or when it is discarded. `replay` follows a history of these events;
a history that it can follow loses, reorders and repeats nothing.
-/

namespace RttOpcua.Lib

namespace Slot

variable {α : Type}

inductive Event (α : Type) where
  | taken (x : α)
  | offered (x : α)
  | answered (x : α) (ok : Bool)
  | discarded (x : α)
  deriving DecidableEq, Repr

/-- The items that were taken, in order. -/
def taken (h : List (Event α)) : List α :=
  h.filterMap fun
    | .taken x => some x
    | _ => none

/-- The items that have left, in order. -/
def removed (h : List (Event α)) : List α :=
  h.filterMap fun
    | .answered x true => some x
    | .discarded x => some x
    | _ => none

/-- The items whose offer was answered with success, in order. -/
def acknowledged (h : List (Event α)) : List α :=
  h.filterMap fun
    | .answered x true => some x
    | _ => none

theorem taken_append (h h' : List (Event α)) : taken (h ++ h') = taken h ++ taken h' := List.filterMap_append

section Replay

variable [DecidableEq α]

/-- What the slot holds after an event, if the event fits what it holds. -/
def next : Option α → Event α → Option (Option α)
  | none, .taken x => some (some x)
  | some x, .offered y => if x = y then some (some x) else none
  | some x, .answered y ok => if x = y then some (if ok then none else some x) else none
  | some x, .discarded y => if x = y then some none else none
  | _, _ => none

def replay : List (Event α) → Option α → Option (Option α)
  | [], held => some held
  | e :: rest, held => (next held e).bind (replay rest)

theorem replay_append (h h' : List (Event α)) (held : Option α) :
    replay (h ++ h') held = (replay h held).bind (replay h') := by
  induction h generalizing held with
  | nil => rfl
  | cons e rest ih =>
      simp only [List.cons_append, replay]
      cases next held e with
      | none => rfl
      | some r => exact ih r

/-- Every item that was in the slot has left it in order, or is still there. -/
theorem taken_of_replay {h : List (Event α)} {held r : Option α} (hr : replay h held = some r) :
    held.toList ++ taken h = removed h ++ r.toList := by
  induction h generalizing held with
  | nil =>
      obtain rfl := Option.some.inj hr
      simp [taken, removed]
  | cons e rest ih =>
      simp only [replay] at hr
      obtain ⟨p, hp, hr⟩ := Option.bind_eq_some_iff.1 hr
      have h := ih hr
      cases held with
      | none =>
          cases e
          all_goals simp only [next, Option.some.injEq, reduceCtorEq] at hp
          subst hp
          simpa [taken, removed] using h
      | some x =>
          cases e with
          | taken y => simp [next] at hp
          | answered y ok =>
              simp only [next, Option.ite_none_right_eq_some, Option.some.injEq] at hp
              obtain ⟨rfl, rfl⟩ := hp
              cases ok
              all_goals simpa [taken, removed] using h
          | offered y | discarded y =>
              simp only [next, Option.ite_none_right_eq_some, Option.some.injEq] at hp
              obtain ⟨rfl, rfl⟩ := hp
              simpa [taken, removed] using h

/-- An item is offered, answered or discarded only while it is the last one taken and all others have left. -/
theorem taken_before {h₁ h₂ : List (Event α)} {e : Event α} {x : α} {r : Option α}
    (hr : replay (h₁ ++ e :: h₂) none = some r) (he : e = .offered x ∨ (∃ ok, e = .answered x ok) ∨ e = .discarded x) :
    taken h₁ = removed h₁ ++ [x] := by
  rw [replay_append] at hr
  obtain ⟨p, hp, hr⟩ := Option.bind_eq_some_iff.1 hr
  obtain ⟨q, hq, -⟩ := Option.bind_eq_some_iff.1 hr
  have hpx : p = some x := by
    cases p with
    | none => obtain rfl | ⟨ok, rfl⟩ | rfl := he <;> simp [next] at hq
    | some y =>
        obtain rfl | ⟨ok, rfl⟩ | rfl := he
        all_goals simp only [next, Option.ite_none_right_eq_some] at hq
        all_goals exact congrArg some hq.1
  subst hpx
  simpa using taken_of_replay hp

/-- With nothing taken twice, nothing leaves twice. -/
theorem removed_nodup {h : List (Event α)} {r : Option α} (hr : replay h none = some r) (hn : (taken h).Nodup) :
    (removed h).Nodup := by
  have heq := taken_of_replay hr
  simp only [Option.toList_none, List.nil_append] at heq
  rw [heq] at hn
  exact (List.nodup_append.1 hn).1

end Replay

/-- Acknowledged items have left. -/
theorem acknowledged_sublist (h : List (Event α)) : (acknowledged h).Sublist (removed h) := by
  induction h with
  | nil => exact .slnil
  | cons e rest ih =>
      cases e with
      | answered x ok =>
          cases ok
          · exact ih
          · exact ih.cons_cons x
      | discarded x => exact ih.cons x
      | taken x | offered x => exact ih

end Slot

end RttOpcua.Lib
