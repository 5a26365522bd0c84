import Mathlib.Data.List.Basic
import Mathlib.Data.List.Nodup
import Mathlib.Logic.Function.Basic

/-!
# Remote objects

An object behind a wire. A client invokes a request and waits for its answer, or gives up. A request in flight is applied
at any time, even after its client has given up, or never; its answer may be lost. The owner of the object applies
requests of its own. Every history is linearizable: the requests that are applied stand in one order, which an answer
agrees with and which never contradicts the time of the calls.
-/

namespace RttOpcua.Lib

namespace RemoteObject

variable {σ R E A : Type}

/-- A request that was invoked; its ticket is its place among all of them. -/
structure Call (R : Type) where
  client : Nat
  request : R
  invoked : Nat
  deriving DecidableEq, Repr

/-- A request that was applied, with the ticket of its call if it came over the wire, and what else its effect depended
on. -/
structure Applied (R E : Type) where
  ticket : Option Nat
  request : R
  environment : E
  time : Nat
  deriving DecidableEq, Repr

/-- An answer to the call with this ticket, whose request stands at `place` among the applied ones. -/
structure Answer (A : Type) where
  ticket : Nat
  place : Nat
  answer : A
  deriving DecidableEq, Repr

/-- A call that was answered. -/
structure Completed (R A : Type) extends Call R, Answer A where
  completed : Nat
  deriving DecidableEq, Repr

structure State (σ R E A : Type) where
  object : σ
  clock : Nat := 0
  calls : List (Call R) := []
  inFlight : List Nat := []
  applied : List (Applied R E) := []
  answers : List (Answer A) := []
  waiting : Nat → Option Nat := fun _ => none
  completed : List (Completed R A) := []

namespace State

variable (apply : R → E → σ → A × σ) (s : State σ R E A)

def tick : State σ R E A := { s with clock := s.clock + 1 }

/-- A request has its effect. -/
def effect (ticket : Option Nat) (request : R) (environment : E) : State σ R E A :=
  { s with
    object := (apply request environment s.object).2
    applied := s.applied ++ [⟨ticket, request, environment, s.clock⟩] }

/-- The owner applies a request. -/
def own (request : R) (environment : E) : State σ R E A := (s.effect apply none request environment).tick

def invoke (client : Nat) (request : R) : State σ R E A :=
  tick { s with
    calls := s.calls ++ [⟨client, request, s.clock⟩]
    inFlight := s.inFlight ++ [s.calls.length]
    waiting := Function.update s.waiting client (some s.calls.length) }

/-- A request in flight is applied, and its answer goes out. -/
def serve (ticket : Nat) (request : R) (environment : E) : State σ R E A :=
  tick { s.effect apply (some ticket) request environment with
    inFlight := s.inFlight.erase ticket
    answers := s.answers ++ [⟨ticket, s.applied.length, (apply request environment s.object).1⟩] }

def lose (ticket : Nat) : State σ R E A := tick { s with inFlight := s.inFlight.erase ticket }

/-- A client gets the answer that it waits for. -/
def complete (client : Nat) (call : Call R) (answer : Answer A) : State σ R E A :=
  tick { s with
    waiting := Function.update s.waiting client none
    completed := s.completed ++ [⟨call, answer, s.clock⟩] }

def giveUp (client : Nat) : State σ R E A := tick { s with waiting := Function.update s.waiting client none }

end State

/-- The steps of the owner, the clients and the wire. -/
inductive Step (apply : R → E → σ → A × σ) : State σ R E A → State σ R E A → Prop where
  | own (s : State σ R E A) (request : R) (environment : E) : Step apply s (s.own apply request environment)
  | invoke (s : State σ R E A) (client : Nat) (request : R) : Step apply s (s.invoke client request)
  | serve (s : State σ R E A) {ticket : Nat} {call : Call R} (environment : E) (hflight : ticket ∈ s.inFlight)
      (hcall : s.calls[ticket]? = some call) : Step apply s (s.serve apply ticket call.request environment)
  | lose (s : State σ R E A) (ticket : Nat) : Step apply s (s.lose ticket)
  | complete (s : State σ R E A) {client : Nat} {call : Call R} {answer : Answer A}
      (hwaiting : s.waiting client = some answer.ticket) (hanswer : answer ∈ s.answers)
      (hcall : s.calls[answer.ticket]? = some call) : Step apply s (s.complete client call answer)
  | giveUp (s : State σ R E A) (client : Nat) : Step apply s (s.giveUp client)

inductive Reachable (apply : R → E → σ → A × σ) (object : σ) : State σ R E A → Prop where
  | initial : Reachable apply object { object }
  | step {s s' : State σ R E A} : Reachable apply object s → Step apply s s' → Reachable apply object s'

/-! ## The order of the requests -/

/-- The object when the first `place` requests have been applied. -/
def objectAt (apply : R → E → σ → A × σ) (object : σ) (applied : List (Applied R E)) (place : Nat) : σ :=
  (applied.take place).foldl (fun o a => (apply a.request a.environment o).2) object

section Order

variable {apply : R → E → σ → A × σ} {object : σ} {s s' : State σ R E A}

theorem objectAt_append {applied more : List (Applied R E)} {place : Nat} (h : place ≤ applied.length) :
    objectAt apply object (applied ++ more) place = objectAt apply object applied place := by
  rw [objectAt, List.take_append_of_le_length h, objectAt]

theorem objectAt_snoc (applied : List (Applied R E)) (a : Applied R E) :
    objectAt apply object (applied ++ [a]) (applied.length + 1) =
      (apply a.request a.environment (objectAt apply object applied applied.length)).2 := by
  simp [objectAt, List.take_of_length_le]

/-- The request of an answer was applied for its ticket and had this answer. -/
def Answers (apply : R → E → σ → A × σ) (object : σ) (s : State σ R E A) (answer : Answer A) : Prop :=
  ∃ a, s.applied[answer.place]? = some a ∧ a.ticket = some answer.ticket ∧
    answer.answer = (apply a.request a.environment (objectAt apply object s.applied answer.place)).1

theorem Answers.append {answer : Answer A} (h : Answers apply object s answer) {more : List (Applied R E)}
    (hs' : s'.applied = s.applied ++ more) : Answers apply object s' answer := by
  obtain ⟨a, ha, hticket, hanswer⟩ := h
  have hlt := (List.getElem?_eq_some_iff.1 ha).1
  refine ⟨a, ?_, hticket, ?_⟩
  · rw [hs', List.getElem?_append_left hlt, ha]
  · rw [hs', objectAt_append (Nat.le_of_lt hlt), hanswer]

/-- What holds of every history. -/
structure Ordered (apply : R → E → σ → A × σ) (object : σ) (s : State σ R E A) : Prop where
  state : s.object = objectAt apply object s.applied s.applied.length
  times : s.applied.Pairwise fun a b => a.time < b.time
  past : ∀ a ∈ s.applied, a.time < s.clock
  invoked : ∀ call ∈ s.calls, call.invoked < s.clock
  called : ∀ a ∈ s.applied, ∀ ticket, a.ticket = some ticket →
    ∃ call, s.calls[ticket]? = some call ∧ call.request = a.request ∧ call.invoked < a.time
  once : (s.applied.filterMap Applied.ticket ++ s.inFlight).Nodup
  flight : ∀ ticket ∈ s.inFlight, ticket < s.calls.length
  answers : ∀ answer ∈ s.answers, Answers apply object s answer
  completed : ∀ c ∈ s.completed, Answers apply object s c.toAnswer ∧ s.calls[c.ticket]? = some c.toCall ∧
    ∀ a, s.applied[c.place]? = some a → a.time < c.completed
  waiting : ∀ client ticket, s.waiting client = some ticket →
    (∃ call, s.calls[ticket]? = some call ∧ call.client = client) ∧ ∀ c ∈ s.completed, c.ticket ≠ ticket
  finished : (s.completed.map fun c => c.ticket).Nodup

theorem Ordered.initial (apply : R → E → σ → A × σ) (object : σ) :
    Ordered apply object ({ object } : State σ R E A) where
  state := rfl
  times := .nil
  past _ ha := absurd ha List.not_mem_nil
  invoked _ hcall := absurd hcall List.not_mem_nil
  called _ ha := absurd ha List.not_mem_nil
  once := .nil
  flight _ hticket := absurd hticket List.not_mem_nil
  answers _ hanswer := absurd hanswer List.not_mem_nil
  completed _ hc := absurd hc List.not_mem_nil
  waiting _ _ hwaiting := by cases hwaiting
  finished := .nil

/-- The tickets that were applied had been issued. -/
theorem Ordered.issued (h : Ordered apply object s) {ticket : Nat}
    (hticket : ticket ∈ s.applied.filterMap Applied.ticket ++ s.inFlight) : ticket < s.calls.length := by
  obtain hticket | hticket := List.mem_append.1 hticket
  · obtain ⟨a, ha, hsome⟩ := List.mem_filterMap.1 hticket
    obtain ⟨call, hcall, -⟩ := h.called a ha ticket hsome
    exact (List.getElem?_eq_some_iff.1 hcall).1
  · exact h.flight ticket hticket

theorem Ordered.tick (h : Ordered apply object s) : Ordered apply object s.tick :=
  { h with
    past := fun a ha => Nat.lt_succ_of_lt (h.past a ha)
    invoked := fun call hcall => Nat.lt_succ_of_lt (h.invoked call hcall) }

/-- One more request is applied: nobody has applied its ticket, and it is no longer in flight. -/
theorem Ordered.effect (h : Ordered apply object s) {ticket : Option Nat} {request : R} {environment : E}
    (hcalled : ∀ t, ticket = some t → ∃ call, s.calls[t]? = some call ∧ call.request = request)
    {inFlight : List Nat} (hflight : ∀ t ∈ inFlight, t ∈ s.inFlight)
    (honce : (s.applied.filterMap Applied.ticket ++ ticket.toList ++ inFlight).Nodup) :
    Ordered apply object ({ s.effect apply ticket request environment with inFlight }).tick where
  state := by
    simp only [State.tick, State.effect, List.length_append, List.length_singleton]
    rw [objectAt_snoc, ← h.state]
  times := by
    refine List.pairwise_append.2 ⟨h.times, List.pairwise_singleton _ _, fun a ha b hb => ?_⟩
    obtain rfl := List.mem_singleton.1 hb
    exact h.past a ha
  past a ha := by
    obtain ha | ha := List.mem_append.1 ha
    · exact Nat.lt_succ_of_lt (h.past a ha)
    · obtain rfl := List.mem_singleton.1 ha
      exact Nat.lt_succ_self _
  invoked call hcall := Nat.lt_succ_of_lt (h.invoked call hcall)
  called a ha t ht := by
    obtain ha | ha := List.mem_append.1 ha
    · exact h.called a ha t ht
    · obtain rfl := List.mem_singleton.1 ha
      obtain ⟨call, hcall, hrequest⟩ := hcalled t ht
      exact ⟨call, hcall, hrequest, h.invoked call (List.mem_of_getElem? hcall)⟩
  once := by
    cases ticket with
    | none => simpa [State.tick, State.effect] using honce
    | some t => simpa [State.tick, State.effect] using honce
  flight t ht := h.flight t (hflight t ht)
  answers answer hanswer := (h.answers answer hanswer).append rfl
  completed c hc := by
    obtain ⟨hanswers, hcall, htime⟩ := h.completed c hc
    refine ⟨hanswers.append rfl, hcall, fun a ha => htime a ?_⟩
    obtain ⟨b, hb, -⟩ := hanswers
    have hlt := (List.getElem?_eq_some_iff.1 hb).1
    simp only [State.tick, State.effect] at ha
    rwa [List.getElem?_append_left hlt] at ha
  waiting := h.waiting
  finished := h.finished

theorem Ordered.step (h : Ordered apply object s) (hstep : Step apply s s') : Ordered apply object s' := by
  cases hstep with
  | own request environment =>
      exact h.effect (fun t ht => by cases ht) (fun t ht => ht) (by simpa using h.once)
  | invoke client request =>
      have hkept : ∀ {ticket : Nat} {call : Call R}, s.calls[ticket]? = some call →
          (s.calls ++ [⟨client, request, s.clock⟩])[ticket]? = some call := fun hcall => by
        rwa [List.getElem?_append_left (List.getElem?_eq_some_iff.1 hcall).1]
      exact { h with
        past := fun a ha => Nat.lt_succ_of_lt (h.past a ha)
        invoked := fun call hcall => by
          obtain hcall | hcall := List.mem_append.1 hcall
          · exact Nat.lt_succ_of_lt (h.invoked call hcall)
          · obtain rfl := List.mem_singleton.1 hcall
            exact Nat.lt_succ_self _
        called := fun a ha ticket hticket => by
          obtain ⟨call, hcall, hrest⟩ := h.called a ha ticket hticket
          exact ⟨call, hkept hcall, hrest⟩
        once := by
          -- The new ticket is larger than all that were issued.
          have hnew : s.calls.length ∉ s.applied.filterMap Applied.ticket ++ s.inFlight := fun hold =>
            Nat.lt_irrefl _ (h.issued hold)
          have hnodup := (List.perm_append_singleton s.calls.length _).nodup_iff.2 (List.nodup_cons.2 ⟨hnew, h.once⟩)
          rwa [List.append_assoc] at hnodup
        flight := fun ticket hticket => by
          simp only [State.tick, State.invoke, List.length_append, List.length_singleton]
          obtain hticket | hticket := List.mem_append.1 hticket
          · exact Nat.lt_succ_of_lt (h.flight ticket hticket)
          · obtain rfl := List.mem_singleton.1 hticket
            exact Nat.lt_succ_self _
        completed := fun c hc => by
          obtain ⟨hanswers, hcall, htime⟩ := h.completed c hc
          exact ⟨hanswers, hkept hcall, htime⟩
        waiting := fun i ticket hticket => by
          simp only [State.tick, State.invoke, Function.update_apply] at hticket ⊢
          split at hticket
          case isTrue hi =>
            obtain rfl := Option.some.inj hticket
            refine ⟨⟨⟨client, request, s.clock⟩, by simp, hi.symm⟩, fun c hc heq => ?_⟩
            obtain ⟨-, hcall, -⟩ := h.completed c hc
            rw [heq] at hcall
            simp at hcall
          case isFalse =>
            obtain ⟨⟨call, hcall, hclient⟩, hnot⟩ := h.waiting i ticket hticket
            exact ⟨⟨call, hkept hcall, hclient⟩, hnot⟩ }
  | @serve ticket call environment hflight hcall =>
      have honce : (s.applied.filterMap Applied.ticket ++ [ticket] ++ s.inFlight.erase ticket).Nodup := by
        refine (List.Perm.nodup_iff ?_).1 h.once
        rw [List.append_assoc]
        exact (List.perm_cons_erase hflight).append_left _
      have heffect : Ordered apply object (State.tick
          { s.effect apply (some ticket) call.request environment with inFlight := s.inFlight.erase ticket }) :=
        h.effect (fun t ht => ⟨call, by rwa [← Option.some.inj ht], rfl⟩) (fun t ht => List.mem_of_mem_erase ht) honce
      refine { heffect with answers := fun answer hanswer => ?_ }
      obtain hanswer | hanswer := List.mem_append.1 hanswer
      · exact heffect.answers answer hanswer
      · obtain rfl := List.mem_singleton.1 hanswer
        refine ⟨⟨some ticket, call.request, environment, s.clock⟩, by simp [State.serve, State.tick, State.effect], rfl, ?_⟩
        simp only [State.serve, State.tick, State.effect]
        rw [objectAt_append (Nat.le_refl _), ← h.state]
  | lose ticket =>
      exact Ordered.tick { h with
        once := (h.once.sublist ((List.erase_sublist).append_left _))
        flight := fun t ht => h.flight t (List.mem_of_mem_erase ht) }
  | @complete client call answer hwaiting hanswer hcall =>
      obtain ⟨⟨invoked, hinvoked, hclient⟩, hfresh⟩ := h.waiting client answer.ticket hwaiting
      refine Ordered.tick { h with completed := fun c hc => ?_, waiting := fun i ticket hticket => ?_, finished := ?_ }
      · obtain hc | hc := List.mem_append.1 hc
        · exact h.completed c hc
        · obtain rfl := List.mem_singleton.1 hc
          exact ⟨h.answers answer hanswer, hcall, fun a ha => h.past a (List.mem_of_getElem? ha)⟩
      · simp only [Function.update_apply] at hticket
        split at hticket
        case isTrue => cases hticket
        case isFalse hi =>
          obtain ⟨⟨other, hother, hotherClient⟩, hnot⟩ := h.waiting i ticket hticket
          refine ⟨⟨other, hother, hotherClient⟩, fun c hc => ?_⟩
          obtain hc | hc := List.mem_append.1 hc
          · exact hnot c hc
          · obtain rfl := List.mem_singleton.1 hc
            rintro rfl
            obtain rfl := Option.some.inj (hinvoked.symm.trans hother)
            exact hi (hotherClient.symm.trans hclient)
      · rw [List.map_append]
        refine (List.perm_append_singleton _ _).nodup_iff.2 (List.nodup_cons.2 ⟨?_, h.finished⟩)
        intro hmem
        obtain ⟨c, hc, heq⟩ := List.mem_map.1 hmem
        exact hfresh c hc heq
  | giveUp client =>
      refine Ordered.tick { h with waiting := fun i ticket hticket => ?_ }
      simp only [Function.update_apply] at hticket
      split at hticket
      case isTrue => cases hticket
      case isFalse => exact h.waiting i ticket hticket

theorem Reachable.ordered (h : Reachable apply object s) : Ordered apply object s := by
  induction h with
  | initial => exact .initial apply object
  | step _ hstep ih => exact ih.step hstep

/-- Places in the order are places in time. -/
theorem Ordered.lt_of_time (h : Ordered apply object s) {i j : Nat} {a b : Applied R E} (ha : s.applied[i]? = some a)
    (hb : s.applied[j]? = some b) (hlt : a.time < b.time) : i < j := by
  obtain ⟨hi, rfl⟩ := List.getElem?_eq_some_iff.1 ha
  obtain ⟨hj, rfl⟩ := List.getElem?_eq_some_iff.1 hb
  by_contra hle
  obtain heq | hji := Nat.eq_or_lt_of_le (Nat.not_lt.1 hle)
  · subst heq
    exact Nat.lt_irrefl _ hlt
  · exact Nat.lt_asymm hlt (List.pairwise_iff_getElem.1 h.times j i hj hi hji)

theorem objectAt_succ {applied : List (Applied R E)} {place : Nat} {a : Applied R E} (ha : applied[place]? = some a) :
    objectAt apply object applied (place + 1) =
      (apply a.request a.environment (objectAt apply object applied place)).2 := by
  obtain ⟨hlt, rfl⟩ := List.getElem?_eq_some_iff.1 ha
  rw [objectAt, List.take_succ_eq_append_getElem hlt, List.foldl_append]
  rfl

/-- Every history is linearizable. The object is what its requests make of it, one after the other. A call that was
answered has the answer of its request at its own place in this order, and a call that was completed before another one
was invoked stands before it. No call is applied twice. -/
theorem Reachable.linearizable (h : Reachable apply object s) :
    s.object = objectAt apply object s.applied s.applied.length ∧
    (∀ c ∈ s.completed, ∃ a, s.applied[c.place]? = some a ∧ a.ticket = some c.ticket ∧ a.request = c.request ∧
      c.answer = (apply a.request a.environment (objectAt apply object s.applied c.place)).1) ∧
    (∀ b ∈ s.completed, ∀ c ∈ s.completed, b.completed ≤ c.invoked → b.place < c.place) ∧
    (∀ b ∈ s.completed, ∀ c ∈ s.completed, b.place = c.place → b.ticket = c.ticket) ∧
    (s.applied.filterMap Applied.ticket).Nodup := by
  have hordered := h.ordered
  refine ⟨hordered.state, fun c hc => ?_, fun b hb c hc hle => ?_, fun b hb c hc hplace => ?_,
    (List.nodup_append.1 hordered.once).1⟩
  · obtain ⟨⟨a, ha, hticket, hanswer⟩, hcall, -⟩ := hordered.completed c hc
    obtain ⟨call, hcalled, hrequest, -⟩ := hordered.called a (List.mem_of_getElem? ha) c.ticket hticket
    obtain rfl := Option.some.inj (hcall.symm.trans hcalled)
    exact ⟨a, ha, hticket, hrequest.symm, hanswer⟩
  · obtain ⟨⟨a, ha, -, -⟩, -, hbefore⟩ := hordered.completed b hb
    obtain ⟨⟨d, hd, hticket, -⟩, hcall, -⟩ := hordered.completed c hc
    obtain ⟨call, hcalled, -, hafter⟩ := hordered.called d (List.mem_of_getElem? hd) c.ticket hticket
    obtain rfl := Option.some.inj (hcall.symm.trans hcalled)
    have hinvoked : c.invoked < d.time := hafter
    exact hordered.lt_of_time ha hd (Nat.lt_trans (Nat.lt_of_lt_of_le (hbefore a ha) hle) hinvoked)
  · obtain ⟨⟨a, ha, hb', -⟩, -⟩ := hordered.completed b hb
    obtain ⟨⟨d, hd, hc', -⟩, -⟩ := hordered.completed c hc
    rw [hplace] at ha
    obtain rfl := Option.some.inj (ha.symm.trans hd)
    exact Option.some.inj (hb'.symm.trans hc')

end Order

end RemoteObject

end RttOpcua.Lib
