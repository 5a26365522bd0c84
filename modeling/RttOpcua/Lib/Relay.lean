import Mathlib.Data.List.Basic

/-!
# Relays

A relay takes items one at a time. What it holds arrives any number of times, and leaves when it is acknowledged, which
only an item is that has arrived, or when it is discarded. The items arrive in the order in which they were taken.

A reader samples a history when it reads its items at places that never go back.
-/

namespace RttOpcua.Lib

namespace Relay

variable {α : Type}

inductive Event (α : Type) where
  | taken (x : α)
  | arrived (x : α)
  | acknowledged (x : α)
  | discarded (x : α)
  deriving DecidableEq, Repr

/-- The item that a relay holds, and how often it has arrived. -/
structure Held (α : Type) where
  item : α
  arrivals : Nat
  deriving DecidableEq, Repr

inductive Step : Option (Held α) → Event α → Option (Held α) → Prop where
  | take (x : α) : Step none (.taken x) (some ⟨x, 0⟩)
  | arrive (x : α) (n : Nat) : Step (some ⟨x, n⟩) (.arrived x) (some ⟨x, n + 1⟩)
  | acknowledge (x : α) (n : Nat) : Step (some ⟨x, n + 1⟩) (.acknowledged x) none
  | discard (x : α) (n : Nat) : Step (some ⟨x, n⟩) (.discarded x) none

/-- The histories of a relay that holds nothing at first. -/
inductive Run : List (Event α) → Option (Held α) → Prop where
  | nil : Run [] none
  | snoc {es : List (Event α)} {held held' : Option (Held α)} {e : Event α} :
      Run es held → Step held e held' → Run (es ++ [e]) held'

/-! ## Histories -/

/-- The items that were taken, in order. -/
def taken (es : List (Event α)) : List α :=
  es.filterMap fun
    | .taken x => some x
    | _ => none

/-- The items that arrived, in order. -/
def arrived (es : List (Event α)) : List α :=
  es.filterMap fun
    | .arrived x => some x
    | _ => none

/-- The items that were acknowledged, in order. -/
def acknowledged (es : List (Event α)) : List α :=
  es.filterMap fun
    | .acknowledged x => some x
    | _ => none

/-- The items that were discarded, in order. -/
def discarded (es : List (Event α)) : List α :=
  es.filterMap fun
    | .discarded x => some x
    | _ => none

inductive Outcome where
  | held
  | acknowledged
  | discarded
  deriving DecidableEq, Repr

/-- What became of an item. One that was acknowledged has arrived. -/
structure Fate (α : Type) where
  item : α
  arrivals : Nat
  outcome : Outcome
  arrives : outcome = .acknowledged → 0 < arrivals

/-- The item, as often as it arrived. -/
def Fate.copies (fate : Fate α) : List α := List.replicate fate.arrivals fate.item

/-- The items with this outcome. -/
def having (outcome : Outcome) (fates : List (Fate α)) : List α :=
  (fates.filter fun fate => fate.outcome = outcome).map Fate.item

/-- What becomes of the item that a relay still holds is open. -/
def Held.fate (held : Held α) : Fate α := ⟨held.item, held.arrivals, .held, fun h => by cases h⟩

/-- A history, told by its items: everything but the item still held was acknowledged or discarded. -/
structure Told (es : List (Event α)) (old : List (Fate α)) (held : Option (Held α)) : Prop where
  settled : ∀ fate ∈ old, fate.outcome ≠ .held
  taken : taken es = old.map Fate.item ++ held.toList.map Held.item
  arrived : arrived es = old.flatMap Fate.copies ++ held.toList.flatMap (Fate.copies ∘ Held.fate)
  acknowledged : acknowledged es = having .acknowledged old
  discarded : discarded es = having .discarded old

theorem Told.step {es : List (Event α)} {old : List (Fate α)} {held held' : Option (Held α)} {e : Event α}
    (h : Told es old held) (hstep : Step held e held') : ∃ old', Told (es ++ [e]) old' held' := by
  obtain ⟨hsettled, htaken, harrived, hacknowledged, hdiscarded⟩ := h
  simp only [Relay.taken, Relay.arrived, Relay.acknowledged, Relay.discarded] at htaken harrived hacknowledged hdiscarded
  cases hstep with
  | take x =>
      refine ⟨old, hsettled, ?_, ?_, ?_, ?_⟩
      all_goals simp_all [Relay.taken, Relay.arrived, Relay.acknowledged, Relay.discarded, Fate.copies, Held.fate]
  | arrive x n =>
      refine ⟨old, hsettled, ?_, ?_, ?_, ?_⟩
      all_goals simp_all [Relay.taken, Relay.arrived, Relay.acknowledged, Relay.discarded, Fate.copies, Held.fate,
        List.replicate_succ']
  | acknowledge x n =>
      refine ⟨old ++ [⟨x, n + 1, .acknowledged, fun _ => Nat.succ_pos n⟩], ?_, ?_, ?_, ?_, ?_⟩
      · intro fate hfate
        obtain hfate | hfate := List.mem_append.1 hfate
        · exact hsettled fate hfate
        · obtain rfl := List.mem_singleton.1 hfate
          exact fun hheld => by cases hheld
      all_goals simp_all [Relay.taken, Relay.arrived, Relay.acknowledged, Relay.discarded, Fate.copies, Held.fate, having]
  | discard x n =>
      refine ⟨old ++ [⟨x, n, .discarded, fun hacknowledged => by cases hacknowledged⟩], ?_, ?_, ?_, ?_, ?_⟩
      · intro fate hfate
        obtain hfate | hfate := List.mem_append.1 hfate
        · exact hsettled fate hfate
        · obtain rfl := List.mem_singleton.1 hfate
          exact fun hheld => by cases hheld
      all_goals simp_all [Relay.taken, Relay.arrived, Relay.acknowledged, Relay.discarded, Fate.copies, Held.fate, having]

theorem Run.told {es : List (Event α)} {held : Option (Held α)} (h : Run es held) : ∃ old, Told es old held := by
  induction h with
  | nil => exact ⟨[], by simp, rfl, rfl, rfl, rfl⟩
  | snoc _ hstep ih =>
      obtain ⟨old, hold⟩ := ih
      exact hold.step hstep

end Relay

/-! ## Sampling -/

/-- `ys` are items of `xs` as they are read at the places `is`, which never go back. -/
structure Sampled {α β : Type} (read : α → Option β) (xs : List α) (is : List Nat) (ys : List β) : Prop where
  ascending : is.Pairwise (· ≤ ·)
  values : ys.map some = is.map fun i => (xs[i]?).bind read

namespace Sampled

variable {α β : Type} {read : α → Option β} {xs : List α} {is : List Nat} {ys : List β}

theorem nil (read : α → Option β) (xs : List α) : Sampled read xs [] [] := ⟨.nil, rfl⟩

theorem lt_length (h : Sampled read xs is ys) {i : Nat} (hi : i ∈ is) : i < xs.length := by
  have hvalue : (xs[i]?).bind read ∈ ys.map some := by
    rw [h.values]
    exact List.mem_map.2 ⟨i, hi, rfl⟩
  obtain ⟨y, -, hy⟩ := List.mem_map.1 hvalue
  obtain ⟨x, hx, -⟩ := Option.bind_eq_some_iff.1 hy.symm
  exact (List.getElem?_eq_some_iff.1 hx).1

/-- The history goes on. -/
theorem append (h : Sampled read xs is ys) (more : List α) : Sampled read (xs ++ more) is ys where
  ascending := h.ascending
  values := by
    rw [h.values]
    refine List.map_congr_left fun i hi => ?_
    rw [List.getElem?_append_left (h.lt_length hi)]

/-- The last item is read. -/
theorem readLast (h : Sampled read xs is ys) {x : α} {y : β} (hx : xs.getLast? = some x) (hy : read x = some y) :
    Sampled read xs (is ++ [xs.length - 1]) (ys ++ [y]) where
  ascending := by
    refine List.pairwise_append.2 ⟨h.ascending, List.pairwise_singleton _ _, fun i hi j hj => ?_⟩
    obtain rfl := List.mem_singleton.1 hj
    have hlt := h.lt_length hi
    omega
  values := by
    rw [List.map_append, List.map_append, h.values, List.map_singleton, List.map_singleton,
      ← List.getLast?_eq_getElem?, hx, Option.bind_some, hy]

end Sampled

end RttOpcua.Lib
