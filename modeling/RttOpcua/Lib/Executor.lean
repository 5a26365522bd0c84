import Mathlib.Data.List.Perm.Basic
import Mathlib.Data.List.Perm.Lattice

/-!
# FIFO executors

An executor with a queue and one place to run a task in. A task is accepted at the back of the queue, begins when it
is at the front and nothing runs, ends, or is withdrawn while it waits. Every history of an executor begins the tasks
in the order in which they were accepted, runs one of them at a time and loses none.
-/

namespace RttOpcua.Lib

namespace Executor

variable {α : Type}

inductive Event (α : Type) where
  | accepted (x : α)
  | begun (x : α)
  | ended (x : α)
  | withdrawn (x : α)
  deriving DecidableEq, Repr

structure State (α : Type) where
  waiting : List α := []
  running : Option α := none
  deriving DecidableEq, Repr

/-- What one event does. Only the task at the front begins, and only if nothing runs. -/
inductive Step : State α → Event α → State α → Prop where
  | accept (x : α) (w : List α) (r : Option α) : Step ⟨w, r⟩ (.accepted x) ⟨w ++ [x], r⟩
  | begin (x : α) (w : List α) : Step ⟨x :: w, none⟩ (.begun x) ⟨w, some x⟩
  | finish (x : α) (w : List α) : Step ⟨w, some x⟩ (.ended x) ⟨w, none⟩
  | withdraw (x : α) (w₁ w₂ : List α) (r : Option α) : Step ⟨w₁ ++ x :: w₂, r⟩ (.withdrawn x) ⟨w₁ ++ w₂, r⟩

inductive Steps : State α → List (Event α) → State α → Prop where
  | nil (s : State α) : Steps s [] s
  | cons {s s' s'' : State α} {e : Event α} {es : List (Event α)} :
      Step s e s' → Steps s' es s'' → Steps s (e :: es) s''

/-- The histories of an executor that begins empty. -/
abbrev Run (es : List (Event α)) (s : State α) : Prop := Steps {} es s

namespace Steps

variable {s s' s'' : State α} {e : Event α} {es es' : List (Event α)}

theorem append (h : Steps s es s') (h' : Steps s' es' s'') : Steps s (es ++ es') s'' := by
  induction h with
  | nil => exact h'
  | cons hs _ ih => exact .cons hs (ih h')

theorem single (h : Step s e s') : Steps s [e] s' := .cons h (.nil s')

/-- A queue may be withdrawn as a whole. -/
theorem withdrawAll (w : List α) (r : Option α) : Steps ⟨w, r⟩ (w.map .withdrawn) ⟨[], r⟩ := by
  induction w with
  | nil => exact .nil _
  | cons x w ih => exact .cons (.withdraw x [] w r) ih

end Steps

/-! ## Histories -/

@[simp]
def Event.accepts : Event α → Option α
  | .accepted x => some x
  | _ => none

@[simp]
def Event.begins : Event α → Option α
  | .begun x => some x
  | _ => none

@[simp]
def Event.ends : Event α → Option α
  | .ended x => some x
  | _ => none

@[simp]
def Event.withdraws : Event α → Option α
  | .withdrawn x => some x
  | _ => none

/-- The tasks that were accepted, in order. -/
def accepted (es : List (Event α)) : List α := es.filterMap Event.accepts

/-- The tasks that began, in order. -/
def begun (es : List (Event α)) : List α := es.filterMap Event.begins

/-- The tasks that ended, in order. -/
def ended (es : List (Event α)) : List α := es.filterMap Event.ends

/-- The tasks that were withdrawn, in order. -/
def withdrawn (es : List (Event α)) : List α := es.filterMap Event.withdraws

section Cons

variable (e : Event α) (es : List (Event α))

@[simp] theorem accepted_nil : accepted ([] : List (Event α)) = [] := rfl
@[simp] theorem begun_nil : begun ([] : List (Event α)) = [] := rfl
@[simp] theorem ended_nil : ended ([] : List (Event α)) = [] := rfl
@[simp] theorem withdrawn_nil : withdrawn ([] : List (Event α)) = [] := rfl

@[simp] theorem accepted_cons : accepted (e :: es) = e.accepts.toList ++ accepted es := by
  cases e <;> rfl

@[simp] theorem begun_cons : begun (e :: es) = e.begins.toList ++ begun es := by
  cases e <;> rfl

@[simp] theorem ended_cons : ended (e :: es) = e.ends.toList ++ ended es := by
  cases e <;> rfl

@[simp] theorem withdrawn_cons : withdrawn (e :: es) = e.withdraws.toList ++ withdrawn es := by
  cases e <;> rfl

end Cons

section Histories

variable {s s' : State α} {es : List (Event α)}

/-- Tasks begin in the order in which they were accepted, each of them once at most. -/
theorem Steps.begun_sublist (h : Steps s es s') :
    (begun es ++ s'.waiting).Sublist (s.waiting ++ accepted es) := by
  induction h with
  | nil s => simp
  | cons hs _ ih =>
      cases hs with
      | withdraw x w₁ w₂ r =>
          refine ih.trans ?_
          exact ((List.sublist_cons_self x w₂).append_left w₁).append_right _
      | _ => simpa using ih

/-- The next task begins when the one before it has ended. -/
theorem Steps.one_at_a_time (h : Steps s es s') :
    s.running.toList ++ begun es = ended es ++ s'.running.toList := by
  induction h with
  | nil s => simp
  | cons hs _ ih => cases hs <;> simpa using ih

/-- No task is lost: it waits, or has begun, or was withdrawn. -/
theorem Steps.conserved (h : Steps s es s') :
    (s.waiting ++ accepted es).Perm (begun es ++ withdrawn es ++ s'.waiting) := by
  induction h with
  | nil s => simp
  | @cons s s₁ s' e es hs _ ih =>
      cases hs with
      | withdraw x w₁ w₂ r =>
          have hfront : (w₁ ++ x :: w₂ ++ accepted es).Perm (x :: (w₁ ++ w₂ ++ accepted es)) := by simp
          have hback : (begun es ++ x :: (withdrawn es ++ s'.waiting)).Perm
              (x :: (begun es ++ withdrawn es ++ s'.waiting)) := by simp
          simpa using hfront.trans ((ih.cons x).trans hback.symm)
      | _ => simpa using ih

end Histories

end Executor

end RttOpcua.Lib
