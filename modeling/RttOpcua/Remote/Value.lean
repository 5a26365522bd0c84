import RttOpcua.Lib.RemoteObject
import RttOpcua.Remote.Access
import RttOpcua.Values.Lemmas.Codecs
import RttOpcua.Values.Lemmas.ProxySource

/-!
# Remote values

A value of a component and the clients that mirror it with the data sources of `makeRemoteDataSource`
(`src/task_context_proxy.cpp`), whose reader and writer are requests of their sessions. The value is a remote object:
its owner and any other client change it too, and a request may be applied after its client has given it up.
-/

namespace RttOpcua.Remote

open RttOpcua.Lib RttOpcua.Values

/-! ## The value -/

/-- What is done to a value: a read or a write of its node, with or without an index range, or an assignment by the
component. -/
inductive ValueRequest (T X : Type) where
  | read (range : Bool)
  | write (range : Bool) (value : Option X)
  | assign (value : T)
  deriving DecidableEq, Repr

inductive ValueAnswer (X : Type) where
  | value (encoded : X)
  | done
  | failed (status : AccessStatus)
  | threw
  deriving DecidableEq, Repr

section Object

variable {T X : Type} (node : GuardedValueDataSource T X)

/-- A request, when there is a lease or none. The published source stores what is set itself; it is not a proxy, which
acknowledges a write that its own writer then drops. -/
def applyValue (request : ValueRequest T X) (lease : Bool) (value : T) : ValueAnswer X × T :=
  match request with
  | .assign value => (.done, value)
  | .read range =>
      match node.read range lease (.plain value) with
      | .ok encoded => (.value encoded, value)
      | .error status => (.failed status, value)
  | .write range x =>
      let written := node.write range x lease (.plain value) .acknowledged
      (match written.2 with
        | .ok .good => .done
        | .ok status => .failed status
        | .error _ => .threw,
      written.1.value.getD value)

end Object

/-- The codes as the session tells them apart. -/
def accessCode : AccessStatus → Proxy.StatusCode
  | .badTypeMismatch => .typeMismatch
  | .badNotConnected => .notConnected
  | .badIndexRangeInvalid => .other 0x80360000
  | .badNotWritable => .other 0x803B0000
  | .good => .other 0

/-- The status of an exception in a callback is `BadInternalError`. -/
def ValueAnswer.status {X : Type} : ValueAnswer X → Proxy.StatusCode
  | .failed status => accessCode status
  | _ => .other 0x80020000

/-- `services::readValue` of an answer. -/
def ValueAnswer.readResponse {X : Type} (name : Str) (isConnected : Bool) : ValueAnswer X → Response X
  | .value encoded => .good encoded
  | answer => .bad answer.status name isConnected

/-- `services::writeValue` of an answer. -/
def ValueAnswer.writeResponse {X : Type} (name : Str) (isConnected : Bool) : ValueAnswer X → Response Unit
  | .done => .good ()
  | answer => .bad answer.status name isConnected

/-! ## Clients -/

/-- The calls of a data source that talk to the server. -/
inductive ValueCall (T : Type) where
  | get
  | evaluate
  | setReference
  | set (value : T)
  | updated
  deriving DecidableEq, Repr

namespace ValueCall

variable {T X : Type}

/-- The value that a call writes. -/
def writes (source : ProxySource T) : ValueCall T → Option T
  | .set value => some value
  | .updated => some source.lastValue
  | _ => none

/-- The call with what its reader or its writer has done. -/
def proxyCall (reader : ReaderOutcome X) (writer : WriterOutcome) : ValueCall T → ProxyCall T X
  | .get => .get reader
  | .evaluate => .evaluate reader
  | .setReference => .setReference reader
  | .set value => .set value writer
  | .updated => .updated writer

end ValueCall

/-- A call that has read this value, or had this value acknowledged. -/
structure Confirmed (T X : Type) where
  call : RemoteObject.Completed (ValueRequest T X) (ValueAnswer X)
  wrote : Bool
  value : T

/-- A client, and the call in which it waits for an answer. -/
structure ValueClient (T : Type) where
  source : ProxySource T
  session : ClientSession
  call : Option (ValueCall T) := none

namespace ValueClient

variable {T X : Type} (p : ProxyClass T X) (c : ValueClient T)

/-- The request of a call; a value that does not encode is not written. -/
def request (call : ValueCall T) : Option (ValueRequest T X) :=
  match call.writes c.source with
  | none => some (.read false)
  | some value => (p.encode value).map fun encoded => .write false (some encoded)

/-- The guard of the session. -/
def refused (call : ValueCall T) : Option Str :=
  c.session.refusal (if (call.writes c.source).isNone then .readValue else .writeValue)

/-- What the reader or the writer makes of a response. -/
def outcome (call : ValueCall T) (read : Response X) (write : Response Unit) : ProxyCall T X :=
  if (call.writes c.source).isNone then
    call.proxyCall (match ClientSession.answer .readValue read with
      | .value x => .read x
      | _ => .failed) .failed
  else
    call.proxyCall .failed (match ClientSession.answer .writeValue write with
      | .value _ => .acknowledged
      | _ => .failed)

/-- A call that ends without a request. -/
def fail (call : ValueCall T) : ValueClient T :=
  { c with source := (c.source.step p (call.proxyCall .failed .failed)).getD c.source, call := none }

/-- The session takes a response, and the call ends. -/
def finish (call : ValueCall T) (read : Response X) (write : Response Unit) : ValueClient T where
  source := (c.source.step p (c.outcome call read write)).getD c.source
  session :=
    if (call.writes c.source).isNone then (c.session.send .readValue (fun u => (read, u)) ()).2.1
    else (c.session.send .writeValue (fun u => (write, u)) ()).2.1

/-- What a call has confirmed at its end, if anything. -/
def confirmed (call : ValueCall T) (done : RemoteObject.Completed (ValueRequest T X) (ValueAnswer X))
    (read : Response X) (write : Response Unit) : List (Confirmed T X) :=
  (c.source.confirms p (c.outcome call read write)).toList.map fun v => ⟨done, (call.writes c.source).isSome, v⟩

/-- A read that begins and ends with the session as it was is `readValue`. -/
theorem readValue_eq {call : ValueCall T} (hcall : call.writes c.source = none) (read : Response X)
    (write : Response Unit) :
    c.session.readValue (fun u => (read, u)) () =
      (c.refused call).elim (ClientSession.answer .readValue read, (c.finish p call read write).session, ())
        fun error => (.failed error, { c.session with lastError := error }, ()) := by
  simp only [ClientSession.readValue, ClientSession.perform, refused, finish, hcall, Option.isNone_none, if_true]
  cases c.session.refusal .readValue with
  | none => rfl
  | some error => rfl

/-- A write that begins and ends with the session as it was is `writeValue`. -/
theorem writeValue_eq {call : ValueCall T} {w : T} (hcall : call.writes c.source = some w) (read : Response X)
    (write : Response Unit) :
    c.session.writeValue (fun u => (write, u)) () =
      (c.refused call).elim (ClientSession.answer .writeValue write, (c.finish p call read write).session, ())
        fun error => (.failed error, { c.session with lastError := error }, ()) := by
  simp only [ClientSession.writeValue, ClientSession.perform, refused, finish, hcall, Option.isNone_some,
    Bool.false_eq_true, if_false]
  cases c.session.refusal .writeValue with
  | none => rfl
  | some error => rfl

end ValueClient

/-! ## The system -/

structure ValueSystem (T X : Type) where
  object : RemoteObject.State T (ValueRequest T X) Bool (ValueAnswer X)
  client : Nat → ValueClient T
  confirmed : List (Confirmed T X) := []

/-- What happens: the component or a client without a mirror makes a request, a client calls its data source or writes
through the reference that it was given, the wire applies or loses a request or hands over an answer, a client gives
up, or other threads change its session. -/
inductive ValueAction (T X : Type) where
  | own (request : ValueRequest T X) (lease : Bool)
  | call (client : Nat) (call : ValueCall T)
  | edit (client : Nat) (value : T)
  | serve (ticket : Nat) (lease : Bool)
  | lose (ticket : Nat)
  | answer (client : Nat) (isConnected : Bool)
  | giveUp (client : Nat) (lost : Lost)
  | session (client : Nat) (session : ClientSession)

namespace ValueSystem

variable {T X : Type} (node : GuardedValueDataSource T X) (p : ProxyClass T X) (statusName : ValueAnswer X → Str)
  (s : ValueSystem T X)

def setClient (i : Nat) (c : ValueClient T) : ValueSystem T X := { s with client := Function.update s.client i c }

/-- A call begins: the guard, the encoding, and then the request. -/
def begin (i : Nat) (call : ValueCall T) : ValueSystem T X :=
  let c := s.client i
  match c.request p call with
  | none => s.setClient i (c.fail p call)
  | some request =>
      match c.refused call with
      | some error =>
          s.setClient i { c.fail p call with session := { c.session with lastError := error } }
      | none => { s.setClient i { c with call := some call } with object := s.object.invoke i request }

/-- A client gets the answer of its call. -/
def complete (i : Nat) (isConnected : Bool) (call : ValueCall T)
    (invoked : RemoteObject.Call (ValueRequest T X)) (answer : RemoteObject.Answer (ValueAnswer X)) : ValueSystem T X :=
  let c := s.client i
  let name := statusName answer.answer
  let read := answer.answer.readResponse name isConnected
  let write := answer.answer.writeResponse name isConnected
  { object := s.object.complete i invoked answer
    client := Function.update s.client i (c.finish p call read write)
    confirmed := s.confirmed ++ c.confirmed p call ⟨invoked, answer, s.object.clock⟩ read write }

def step (action : ValueAction T X) : ValueSystem T X :=
  match action with
  | .own request lease => { s with object := s.object.own (applyValue node) request lease }
  | .call i call => if (s.client i).call.isSome then s else s.begin p i call
  | .edit i value =>
      if (s.client i).call.isSome then s
      else
        match (s.client i).source.step p (.edit value) with
        | none => s
        | some source => s.setClient i { s.client i with source }
  | .serve ticket lease =>
      match s.object.calls[ticket]? with
      | none => s
      | some call =>
          if ticket ∈ s.object.inFlight then
            { s with object := s.object.serve (applyValue node) ticket call.request lease }
          else s
  | .lose ticket => { s with object := s.object.lose ticket }
  | .answer i isConnected =>
      match (s.client i).call, s.object.waiting i with
      | some call, some ticket =>
          match s.object.answers.find? (fun answer => answer.ticket = ticket), s.object.calls[ticket]? with
          | some answer, some invoked => s.complete p statusName i isConnected call invoked answer
          | _, _ => s
      | _, _ => s
  | .giveUp i lost =>
      match (s.client i).call with
      | none => s
      | some call =>
          { s.setClient i ((s.client i).finish p call lost.response lost.response) with object := s.object.giveUp i }
  | .session i session => s.setClient i { s.client i with session }

def run (actions : List (ValueAction T X)) : ValueSystem T X := actions.foldl (step node p statusName) s

/-- Every client starts with the default of its data source. -/
def initial (value default : T) (sessions : Nat → ClientSession) : ValueSystem T X where
  object := { object := value }
  client i := { source := .new default, session := sessions i }

end ValueSystem

/-! ## Calls that are confirmed -/

section Confirm

variable {T X : Type} {m : Methods T X} {p : ProxyClass T X} {c : ValueClient T}

theorem confirms_reader {call : ValueCall T} (hcall : call.writes c.source = none) (reader : ReaderOutcome X)
    (writer : WriterOutcome) :
    c.source.confirms p (call.proxyCall reader writer) = c.source.confirms p (.evaluate reader) := by
  cases call with
  | set value | updated => cases hcall
  | get | evaluate | setReference => cases reader <;> rfl

theorem confirms_writer {call : ValueCall T} {w : T} (hcall : call.writes c.source = some w) (reader : ReaderOutcome X)
    (writer : WriterOutcome) :
    c.source.confirms p (call.proxyCall reader writer) = c.source.confirms p (.set w writer) := by
  cases call with
  | get | evaluate | setReference => cases hcall
  | set value =>
      obtain rfl := Option.some.inj hcall
      rfl
  | updated =>
      obtain rfl := Option.some.inj hcall
      cases writer <;> rfl

theorem confirms_read {call : ValueCall T} (hcall : call.writes c.source = none) {read : Response X}
    {write : Response Unit} {v : T} (h : c.source.confirms p (c.outcome call read write) = some v) :
    ∃ x, read = .good x ∧ p.decode x = some v := by
  rw [ValueClient.outcome, hcall, Option.isNone_none, if_pos rfl, confirms_reader hcall] at h
  cases hanswer : ClientSession.answer .readValue read with
  | value x =>
      rw [hanswer] at h
      exact ⟨x, ClientSession.answer_eq_value.1 hanswer, h⟩
  | waiting | failed error =>
      rw [hanswer] at h
      cases h

theorem confirms_write {call : ValueCall T} {w : T} (hcall : call.writes c.source = some w) {read : Response X}
    {write : Response Unit} {v : T} (h : c.source.confirms p (c.outcome call read write) = some v) :
    v = w ∧ write = .good () := by
  rw [ValueClient.outcome, hcall, Option.isNone_some, if_neg Bool.false_ne_true, confirms_writer hcall] at h
  cases hanswer : ClientSession.answer .writeValue write with
  | value u =>
      rw [hanswer] at h
      obtain ⟨x, -, hx⟩ := Option.map_eq_some_iff.1 h
      exact ⟨hx.symm, ClientSession.answer_eq_value.1 hanswer⟩
  | waiting | failed error =>
      rw [hanswer] at h
      cases h

/-- A refused call, or one whose value does not encode, confirms nothing. -/
theorem confirms_failed (source : ProxySource T) (call : ValueCall T) :
    source.confirms p (call.proxyCall (X := X) .failed .failed) = none := by
  cases call <;> rfl

end Confirm

/-! ## Runs -/

section Runs

variable {T X : Type} {node : GuardedValueDataSource T X} {p : ProxyClass T X} {value default : T} {s : ValueSystem T X}

/-- The call of a confirmed value: a read that was answered with it, or a write of it that was done. -/
def Confirmed.Explained (p : ProxyClass T X) (c : Confirmed T X) : Prop :=
  if c.wrote then
    ∃ x, p.encode c.value = some x ∧ c.call.request = .write false (some x) ∧ c.call.answer = .done
  else c.call.request = .read false ∧ ∃ x, c.call.answer = .value x ∧ p.decode x = some c.value

/-- The last value that a client has confirmed. -/
def lastConfirmed (confirmed : List (Confirmed T X)) (default : T) (i : Nat) : T :=
  ((confirmed.filter fun c => c.call.client = i).getLast?.map Confirmed.value).getD default

/-- The clients are those of the remote object. -/
structure ValueSystem.Linked (node : GuardedValueDataSource T X) (p : ProxyClass T X) (value default : T)
    (s : ValueSystem T X) : Prop where
  reachable : RemoteObject.Reachable (applyValue node) value s.object
  waiting : ∀ i ticket, s.object.waiting i = some ticket → ∃ call invoked, (s.client i).call = some call ∧
    s.object.calls[ticket]? = some invoked ∧ (s.client i).request p call = some invoked.request
  confirmed : (s.confirmed.map Confirmed.call).Sublist s.object.completed
  explained : ∀ c ∈ s.confirmed, c.Explained p
  remote : ∀ i, (s.client i).source.remote = lastConfirmed s.confirmed default i

/-- The history of a data source after a call. -/
theorem remote_step (source : ProxySource T) (call : ValueCall T) (reader : ReaderOutcome X) (writer : WriterOutcome) :
    ((source.step p (call.proxyCall reader writer)).getD source).remote =
      (source.confirms p (call.proxyCall reader writer)).getD source.remote := by
  cases call <;> rfl

theorem remote_outcome (c : ValueClient T) (call : ValueCall T) (read : Response X) (write : Response Unit) :
    ((c.source.step p (c.outcome call read write)).getD c.source).remote =
      (c.source.confirms p (c.outcome call read write)).getD c.source.remote := by
  unfold ValueClient.outcome
  split
  · exact remote_step _ _ _ _
  · exact remote_step _ _ _ _

theorem confirmed_cases (p : ProxyClass T X) (c : ValueClient T) (call : ValueCall T)
    (done : RemoteObject.Completed (ValueRequest T X) (ValueAnswer X)) (read : Response X) (write : Response Unit) :
    c.confirmed p call done read write = [] ∧ c.source.confirms p (c.outcome call read write) = none ∨
      ∃ v, c.confirmed p call done read write = [⟨done, (call.writes c.source).isSome, v⟩] ∧
        c.source.confirms p (c.outcome call read write) = some v := by
  unfold ValueClient.confirmed
  cases c.source.confirms p (c.outcome call read write) with
  | none => exact .inl ⟨rfl, rfl⟩
  | some v => exact .inr ⟨v, rfl, rfl⟩

theorem ValueSystem.Linked.initial (node : GuardedValueDataSource T X) (p : ProxyClass T X) (value default : T)
    (sessions : Nat → ClientSession) :
    (ValueSystem.initial (X := X) value default sessions).Linked node p value default where
  reachable := .initial
  waiting _ _ hwaiting := by cases hwaiting
  confirmed := .slnil
  explained _ hc := absurd hc List.not_mem_nil
  remote _ := rfl

/-- A step of the remote object that leaves its clients as they are. -/
theorem ValueSystem.Linked.object (h : s.Linked node p value default)
    {object : RemoteObject.State T (ValueRequest T X) Bool (ValueAnswer X)}
    (hstep : RemoteObject.Step (applyValue node) s.object object) (hwaiting : object.waiting = s.object.waiting)
    (hcalls : object.calls = s.object.calls) (hcompleted : object.completed = s.object.completed) :
    ({ s with object } : ValueSystem T X).Linked node p value default where
  reachable := h.reachable.step hstep
  waiting i ticket hticket := by
    simp only [hwaiting] at hticket
    simp only [hcalls]
    exact h.waiting i ticket hticket
  confirmed := by simpa only [hcompleted] using h.confirmed
  explained := h.explained
  remote := h.remote

/-- A client that waits for no answer changes, or one that keeps its call. -/
theorem ValueSystem.Linked.setClient (h : s.Linked node p value default) (i : Nat) {c : ValueClient T}
    (hremote : c.source.remote = (s.client i).source.remote)
    (hcall : s.object.waiting i = none ∨ c.call = (s.client i).call ∧ c.source = (s.client i).source) :
    (s.setClient i c).Linked node p value default where
  reachable := h.reachable
  waiting j ticket hticket := by
    by_cases hj : j = i
    · subst hj
      obtain hnone | ⟨hsame, hsource⟩ := hcall
      · cases hnone.symm.trans hticket
      · obtain ⟨call, invoked, hsome, hinvoked, hrequest⟩ := h.waiting j ticket hticket
        refine ⟨call, invoked, ?_, hinvoked, ?_⟩
        · simpa [ValueSystem.setClient, hsame] using hsome
        · simpa [ValueSystem.setClient, ValueClient.request, hsource] using hrequest
    · simpa [ValueSystem.setClient, hj] using h.waiting j ticket hticket
  confirmed := h.confirmed
  explained := h.explained
  remote j := by
    by_cases hj : j = i
    · subst hj
      simpa [ValueSystem.setClient] using hremote.trans (h.remote j)
    · simpa [ValueSystem.setClient, hj] using h.remote j

/-- A client without a call waits for nothing. -/
theorem ValueSystem.Linked.idle (h : s.Linked node p value default) {i : Nat} (hi : (s.client i).call = none) :
    s.object.waiting i = none := by
  cases hwaiting : s.object.waiting i with
  | none => rfl
  | some ticket =>
      obtain ⟨call, -, hcall, -⟩ := h.waiting i ticket hwaiting
      cases hi.symm.trans hcall

theorem ValueSystem.Linked.begin (h : s.Linked node p value default) {i : Nat} (hi : (s.client i).call = none)
    (call : ValueCall T) : (s.begin p i call).Linked node p value default := by
  have hidle := h.idle hi
  have hremote : ((s.client i).fail p call).source.remote = (s.client i).source.remote := by
    rw [ValueClient.fail, remote_step, confirms_failed, Option.getD_none]
  simp only [ValueSystem.begin]
  cases hrequest : (s.client i).request p call with
  | none => exact h.setClient i hremote (.inl hidle)
  | some request =>
      cases (s.client i).refused call with
      | some error => exact h.setClient i hremote (.inl hidle)
      | none =>
          have hset := h.setClient i (c := { s.client i with call := some call }) rfl (.inl hidle)
          refine ⟨h.reachable.step (.invoke s.object i request), fun j ticket hticket => ?_, h.confirmed, h.explained,
            hset.remote⟩
          simp only [RemoteObject.State.invoke, RemoteObject.State.tick, Function.update_apply] at hticket ⊢
          split at hticket
          case isTrue hj =>
            subst hj
            obtain rfl := Option.some.inj hticket
            exact ⟨call, ⟨j, request, s.object.clock⟩, by simp [ValueSystem.setClient], by simp,
              by simpa [ValueSystem.setClient, ValueClient.request] using hrequest⟩
          case isFalse hj =>
            obtain ⟨old, invoked, hold, hinvoked, hsame⟩ := hset.waiting j ticket hticket
            refine ⟨old, invoked, hold, ?_, hsame⟩
            have hlt : ticket < s.object.calls.length := (List.getElem?_eq_some_iff.1 hinvoked).1
            rw [List.getElem?_append_left hlt]
            exact hinvoked

theorem readResponse_good {name : Str} {isConnected : Bool} {answer : ValueAnswer X} {x : X}
    (h : answer.readResponse name isConnected = .good x) : answer = .value x := by
  cases answer with
  | value encoded => rw [Response.good.inj h]
  | done | failed status | threw => cases h

theorem writeResponse_good {name : Str} {isConnected : Bool} {answer : ValueAnswer X}
    (h : answer.writeResponse name isConnected = .good ()) : answer = .done := by
  cases answer with
  | done => rfl
  | value encoded | failed status | threw => cases h

/-- What a call confirms is explained by its request and its answer. -/
theorem explained_of_confirms {c : ValueClient T} {call : ValueCall T}
    {invoked : RemoteObject.Call (ValueRequest T X)} {answer : RemoteObject.Answer (ValueAnswer X)} {clock : Nat}
    (hrequest : c.request p call = some invoked.request) {name : Str} {isConnected : Bool} {v : T}
    (h : c.source.confirms p (c.outcome call (answer.answer.readResponse name isConnected)
      (answer.answer.writeResponse name isConnected)) = some v) :
    Confirmed.Explained p ⟨⟨invoked, answer, clock⟩, (call.writes c.source).isSome, v⟩ := by
  simp only [Confirmed.Explained]
  cases hwrites : call.writes c.source with
  | none =>
      obtain ⟨x, hread, hdecode⟩ := confirms_read hwrites h
      simp only [ValueClient.request, hwrites] at hrequest
      exact ⟨(Option.some.inj hrequest).symm, x, readResponse_good hread, hdecode⟩
  | some w =>
      obtain ⟨rfl, hwrite⟩ := confirms_write hwrites h
      simp only [ValueClient.request, hwrites] at hrequest
      obtain ⟨x, hx, hsame⟩ := Option.map_eq_some_iff.1 hrequest
      exact ⟨x, hx, hsame.symm, writeResponse_good hwrite⟩

theorem ValueSystem.Linked.complete (h : s.Linked node p value default) (statusName : ValueAnswer X → Str) {i : Nat}
    (isConnected : Bool) {call : ValueCall T} (hcall : (s.client i).call = some call)
    {answer : RemoteObject.Answer (ValueAnswer X)} (hwaiting : s.object.waiting i = some answer.ticket)
    (hanswer : answer ∈ s.object.answers) {invoked : RemoteObject.Call (ValueRequest T X)}
    (hinvoked : s.object.calls[answer.ticket]? = some invoked) :
    (s.complete p statusName i isConnected call invoked answer).Linked node p value default := by
  obtain ⟨call', invoked', hcall', hinvoked', hrequest⟩ := h.waiting i answer.ticket hwaiting
  obtain rfl := Option.some.inj (hcall.symm.trans hcall')
  obtain rfl := Option.some.inj (hinvoked.symm.trans hinvoked')
  obtain ⟨⟨_, hsame, hclient⟩, -⟩ := h.reachable.ordered.waiting i answer.ticket hwaiting
  obtain rfl := Option.some.inj (hinvoked.symm.trans hsame)
  refine ⟨h.reachable.step (.complete s.object hwaiting hanswer hinvoked), fun j ticket hticket => ?_, ?_, ?_, fun j => ?_⟩
  · simp only [ValueSystem.complete, RemoteObject.State.complete, RemoteObject.State.tick, Function.update_apply] at hticket ⊢
    split at hticket
    case isTrue => cases hticket
    case isFalse hj =>
      rw [if_neg hj]
      exact h.waiting j ticket hticket
  · simp only [ValueSystem.complete, RemoteObject.State.complete, RemoteObject.State.tick, List.map_append]
    refine h.confirmed.append ?_
    obtain ⟨hnew, -⟩ | ⟨v, hnew, -⟩ := confirmed_cases p (s.client i) call ⟨invoked, answer, s.object.clock⟩ _ _
    · rw [hnew]
      exact List.nil_sublist _
    · rw [hnew]
      exact List.Sublist.refl _
  · intro c hc
    obtain hc | hc := List.mem_append.1 hc
    · exact h.explained c hc
    · obtain ⟨v, hv, rfl⟩ := List.mem_map.1 hc
      exact explained_of_confirms hrequest (Option.mem_toList.1 hv)
  · have hremote := h.remote j
    simp only [ValueSystem.complete, Function.update_apply, lastConfirmed, List.filter_append] at hremote ⊢
    by_cases hj : j = i
    · subst hj
      simp only [if_true, ValueClient.finish, remote_outcome]
      obtain ⟨hnew, hnone⟩ | ⟨v, hnew, hsome⟩ :=
        confirmed_cases p (s.client j) call ⟨invoked, answer, s.object.clock⟩ _ _
      · rw [hnew, hnone, Option.getD_none, hremote, List.filter_nil, List.append_nil]
      · simp [hnew, hsome, hclient]
    · rw [if_neg hj]
      obtain ⟨hnew, -⟩ | ⟨v, hnew, -⟩ := confirmed_cases p (s.client i) call ⟨invoked, answer, s.object.clock⟩ _ _
      · rw [hnew, hremote, List.filter_nil, List.append_nil]
      · have hother : ¬ i = j := fun heq => hj heq.symm
        simp [hnew, hclient, hother, hremote]

theorem ValueSystem.Linked.step (h : s.Linked node p value default) (statusName : ValueAnswer X → Str)
    (action : ValueAction T X) : (s.step node p statusName action).Linked node p value default := by
  cases action with
  | own request lease => exact h.object (.own s.object request lease) rfl rfl rfl
  | call i call =>
      simp only [ValueSystem.step]
      cases hi : (s.client i).call with
      | some other => exact h
      | none => exact h.begin hi call
  | edit i v =>
      simp only [ValueSystem.step]
      cases hi : (s.client i).call with
      | some other => exact h
      | none =>
          cases hedit : (s.client i).source.step p (.edit v) with
          | none => exact h
          | some source =>
              refine h.setClient i ?_ (.inl (h.idle hi))
              simp only [ProxySource.step, Option.ite_none_right_eq_some, Option.some.injEq] at hedit
              rw [← hedit.2]
              rfl
  | serve ticket lease =>
      simp only [ValueSystem.step]
      split
      case h_1 => exact h
      case h_2 call hcall =>
        split
        case isTrue hflight => exact h.object (.serve s.object lease hflight hcall) rfl rfl rfl
        case isFalse => exact h
  | lose ticket => exact h.object (.lose s.object ticket) rfl rfl rfl
  | answer i isConnected =>
      simp only [ValueSystem.step]
      split
      case h_2 => exact h
      case h_1 call ticket hcall hwaiting =>
        split
        case h_2 => exact h
        case h_1 answer invoked hfind hinvoked =>
          obtain rfl : answer.ticket = ticket := by simpa using List.find?_some hfind
          exact h.complete statusName isConnected hcall hwaiting (List.mem_of_find?_eq_some hfind) hinvoked
  | giveUp i lost =>
      simp only [ValueSystem.step]
      cases hi : (s.client i).call with
      | none => exact h
      | some call =>
          have hnone : (s.client i).source.confirms p
              ((s.client i).outcome call (lost.response : Response X) lost.response) = none := by
            cases hconfirms : (s.client i).source.confirms p
              ((s.client i).outcome call (lost.response : Response X) lost.response) with
            | none => rfl
            | some v =>
                cases hwrites : call.writes (s.client i).source with
                | none =>
                    obtain ⟨x, hgood, -⟩ := confirms_read hwrites hconfirms
                    cases lost <;> cases hgood
                | some w =>
                    obtain ⟨-, hgood⟩ := confirms_write hwrites hconfirms
                    cases lost <;> cases hgood
          have hobject : ({ s with object := s.object.giveUp i } : ValueSystem T X).Linked node p value default := {
            reachable := h.reachable.step (.giveUp s.object i)
            waiting := fun j ticket hticket => by
              simp only [RemoteObject.State.giveUp, RemoteObject.State.tick, Function.update_apply] at hticket
              split at hticket
              case isTrue => cases hticket
              case isFalse => exact h.waiting j ticket hticket
            confirmed := h.confirmed
            explained := h.explained
            remote := h.remote }
          refine hobject.setClient i ?_ (.inl (by simp [RemoteObject.State.giveUp, RemoteObject.State.tick]))
          rw [ValueClient.finish, remote_outcome, hnone, Option.getD_none]
  | session i session => exact h.setClient i rfl (.inr ⟨rfl, rfl⟩)

theorem ValueSystem.Linked.run (h : s.Linked node p value default) (statusName : ValueAnswer X → Str)
    (actions : List (ValueAction T X)) : (s.run node p statusName actions).Linked node p value default := by
  induction actions generalizing s with
  | nil => exact h
  | cons action actions ih => exact ih (h.step statusName action)

/-! ## The caches -/

/-- A client whose cache has what it confirmed last. -/
def ValueSystem.Caches (s : ValueSystem T X) (i : Nat) : Prop :=
  (s.client i).source.lastValue = (s.client i).source.remote

theorem lastValue_step (source : ProxySource T) (call : ValueCall T) (reader : ReaderOutcome X) (writer : WriterOutcome)
    (h : source.lastValue = source.remote) :
    ((source.step p (call.proxyCall reader writer)).getD source).lastValue =
      ((source.step p (call.proxyCall reader writer)).getD source).remote := by
  have hcall : ∀ value, call.proxyCall reader writer ≠ .edit value := by cases call <;> simp [ValueCall.proxyCall]
  rw [remote_step, ← h, ← ProxySource.perform_lastValue source hcall]
  cases call <;> rfl

theorem ValueClient.fail_caches {c : ValueClient T} (h : c.source.lastValue = c.source.remote) (call : ValueCall T) :
    (c.fail (X := X) p call).source.lastValue = (c.fail (X := X) p call).source.remote :=
  lastValue_step c.source call .failed .failed h

theorem ValueClient.finish_caches {c : ValueClient T} (h : c.source.lastValue = c.source.remote) (call : ValueCall T)
    (read : Response X) (write : Response Unit) :
    (c.finish p call read write).source.lastValue = (c.finish p call read write).source.remote := by
  simp only [ValueClient.finish, ValueClient.outcome]
  split
  · exact lastValue_step c.source call _ _ h
  · exact lastValue_step c.source call _ _ h

theorem ValueSystem.Caches.setClient {i : Nat} (h : s.Caches i) (j : Nat) {c : ValueClient T}
    (hc : j = i → c.source.lastValue = c.source.remote) : (s.setClient j c).Caches i := by
  by_cases hj : j = i
  · subst hj
    simpa [ValueSystem.Caches, ValueSystem.setClient] using hc rfl
  · simpa [ValueSystem.Caches, ValueSystem.setClient, Function.update_of_ne (Ne.symm hj)] using h

/-- Every step but an edit of the client keeps its cache. -/
theorem ValueSystem.Caches.step {i : Nat} (h : s.Caches i) (statusName : ValueAnswer X → Str)
    {action : ValueAction T X} (haction : ∀ v, action ≠ .edit i v) : (s.step node p statusName action).Caches i := by
  have hof : ∀ {j}, j = i → (s.client j).source.lastValue = (s.client j).source.remote := fun hj => hj ▸ h
  cases action with
  | own request lease => exact h
  | lose ticket => exact h
  | serve ticket lease =>
      simp only [ValueSystem.step]
      split
      case h_1 => exact h
      case h_2 => split <;> exact h
  | call j call =>
      simp only [ValueSystem.step]
      split
      case isTrue => exact h
      case isFalse =>
        simp only [ValueSystem.begin]
        split
        case h_1 => exact h.setClient j fun hj => ValueClient.fail_caches (hof hj) call
        case h_2 =>
          split
          case h_1 => exact h.setClient j fun hj => ValueClient.fail_caches (X := X) (p := p) (hof hj) call
          case h_2 => exact h.setClient j fun hj => hof hj
  | edit j v =>
      have hj : j ≠ i := fun hj => haction v (hj ▸ rfl)
      simp only [ValueSystem.step]
      split
      case isTrue => exact h
      case isFalse =>
        split
        case h_1 => exact h
        case h_2 => exact h.setClient j fun heq => absurd heq hj
  | answer j isConnected =>
      simp only [ValueSystem.step]
      split
      case h_2 => exact h
      case h_1 =>
        split
        case h_2 => exact h
        case h_1 => exact h.setClient j fun hj => ValueClient.finish_caches (hof hj) _ _ _
  | giveUp j lost =>
      simp only [ValueSystem.step]
      split
      case h_1 => exact h
      case h_2 => exact h.setClient j fun hj => ValueClient.finish_caches (hof hj) _ _ _
  | session j session => exact h.setClient j fun hj => hof hj

theorem ValueSystem.Caches.run {i : Nat} (h : s.Caches i) (statusName : ValueAnswer X → Str)
    {actions : List (ValueAction T X)} (hactions : ∀ v, .edit i v ∉ actions) :
    (s.run node p statusName actions).Caches i := by
  induction actions generalizing s with
  | nil => exact h
  | cons action actions ih =>
      have hhead : ∀ v, action ≠ .edit i v := fun v heq => hactions v (heq ▸ List.mem_cons_self)
      exact ih (h.step statusName hhead) fun v hv => hactions v (List.mem_cons_of_mem _ hv)

/-! ## The register -/

/-- A read that is answered with a value. -/
theorem applyValue_read {m : Methods T X} {writable lease : Bool} {v : T} {x : X}
    (h : (applyValue ⟨some m, writable⟩ (.read false) lease v).1 = ValueAnswer.value x) :
    m.toVariant (some v) = some x := by
  simp only [applyValue] at h
  cases hread : GuardedValueDataSource.read ⟨some m, writable⟩ false lease (.plain v) with
  | error status =>
      rw [hread] at h
      cases h
  | ok encoded =>
      rw [hread] at h
      obtain rfl := ValueAnswer.value.inj h
      cases lease with
      | false => cases hread
      | true =>
          cases hencoded : m.toVariant (some v) with
          | none => simp [GuardedValueDataSource.read, Destination.value, hencoded] at hread
          | some y =>
              have hsame : y = encoded := by
                simpa [GuardedValueDataSource.read, Destination.value, hencoded] using hread
              rw [hsame]

/-- A write that is done stores what is decoded. -/
theorem applyValue_write {m : Methods T X} (hpaths : m.PathsAgree) {writable lease : Bool} {v : T} {x : X}
    (h : (applyValue ⟨some m, writable⟩ (.write false (some x)) lease v).1 = ValueAnswer.done) :
    m.makeDataSource x = some (applyValue ⟨some m, writable⟩ (.write false (some x)) lease v).2 := by
  simp only [applyValue, GuardedValueDataSource.write, Bool.false_eq_true, if_false] at h ⊢
  cases writable with
  | false => cases h
  | true =>
      cases lease with
      | false => cases h
      | true =>
          simp only [not_true_eq_false, if_false, hpaths.assign] at h ⊢
          cases hdecoded : m.makeDataSource x with
          | none =>
              rw [hdecoded] at h
              cases h
          | some w => rfl

end Runs

/-- A mirrored value is a linearizable register. Over every run of clients, of the component and of other writers, with
requests and answers that are lost or come late, all requests that reach the value stand in one order. A value that a
client reads is the one that its place in the order has, as it comes through the codec, and a write that is acknowledged
has stored its value, as it comes through the codec, at its own place. A call that was completed before another one
was invoked stands before it, and a write that is not acknowledged takes effect once at most. A client that does not
write through the reference of its data source caches the value of its last call that was confirmed, and its default
before the first. -/
theorem remote_values_linearizable {T X : Type} (m : Methods T X) (hpaths : m.PathsAgree) (p : ProxyClass T X)
    (writable : Bool) (statusName : ValueAnswer X → Str) (value default : T) (sessions : Nat → ClientSession)
    (actions : List (ValueAction T X)) :
    let s := (ValueSystem.initial value default sessions).run ⟨some m, writable⟩ p statusName actions
    let valueAt := RemoteObject.objectAt (applyValue ⟨some m, writable⟩) value s.object.applied
    s.object.object = valueAt s.object.applied.length ∧
    (∀ c ∈ s.confirmed,
      if c.wrote then (p.encode c.value).bind m.makeDataSource = some (valueAt (c.call.place + 1))
      else (m.toVariant (some (valueAt c.call.place))).bind p.decode = some c.value) ∧
    (∀ b ∈ s.confirmed, ∀ c ∈ s.confirmed, b.call.completed ≤ c.call.invoked → b.call.place < c.call.place) ∧
    (s.confirmed.map fun c => c.call.place).Nodup ∧ (s.object.applied.filterMap RemoteObject.Applied.ticket).Nodup ∧
    ∀ i, (∀ v, .edit i v ∉ actions) → (s.client i).source.lastValue = lastConfirmed s.confirmed default i := by
  intro s valueAt
  have hlinked : s.Linked ⟨some m, writable⟩ p value default :=
    (ValueSystem.Linked.initial ⟨some m, writable⟩ p value default sessions).run statusName actions
  obtain ⟨hvalue, hanswers, htimes, hplaces, honce⟩ := hlinked.reachable.linearizable
  have hmem : ∀ c ∈ s.confirmed, c.call ∈ s.object.completed := fun c hc =>
    hlinked.confirmed.subset (List.mem_map_of_mem hc)
  refine ⟨hvalue, fun c hc => ?_, fun b hb c hc => htimes b.call (hmem b hb) c.call (hmem c hc), ?_, honce,
    fun i hi => ?_⟩
  · obtain ⟨a, ha, -, hrequest, hanswer⟩ := hanswers c.call (hmem c hc)
    have hnext : valueAt (c.call.place + 1) =
        (applyValue ⟨some m, writable⟩ a.request a.environment (valueAt c.call.place)).2 :=
      RemoteObject.objectAt_succ ha
    have hexplained := hlinked.explained c hc
    unfold Confirmed.Explained at hexplained
    split
    case isTrue hwrote =>
      rw [if_pos hwrote] at hexplained
      obtain ⟨x, hx, hwrite, hdone⟩ := hexplained
      rw [hrequest, hwrite] at hanswer hnext
      rw [hx, Option.bind_some, applyValue_write hpaths (hanswer.symm.trans hdone)]
      exact congrArg some hnext.symm
    case isFalse hwrote =>
      rw [if_neg hwrote] at hexplained
      obtain ⟨hread, x, hx, hdecode⟩ := hexplained
      rw [hrequest, hread] at hanswer
      rw [applyValue_read (hanswer.symm.trans hx), Option.bind_some, hdecode]
  · have htickets : (s.confirmed.map fun c => c.call.ticket).Nodup := by
      have hfinished := hlinked.reachable.ordered.finished.sublist (hlinked.confirmed.map fun c => c.ticket)
      rwa [List.map_map] at hfinished
    rw [List.Nodup, List.pairwise_map] at htickets ⊢
    exact htickets.imp_of_mem fun hb hc hne hplace => hne (hplaces _ (hmem _ hb) _ (hmem _ hc) hplace)
  · have hinitial : (ValueSystem.initial (X := X) value default sessions).Caches i := rfl
    exact (hinitial.run statusName hi).trans (hlinked.remote i)

/-- One client gives up a write of 6, another one reads 5, and then the write is applied. -/
theorem remote_values_linearizable_late :
    let m := CanonicalType.int32.methods ⟨true, 0, none⟩
    let p : ProxyClass CanonicalType.int32.Value (Variant WireValue) := ScalarAssignableProxyDataSource (.plain Values.Int32) 6
    let s := (ValueSystem.initial 5 0 fun _ => ⟨true, true, .connected, []⟩).run ⟨some m, true⟩ p (fun _ => [])
      [.call 0 (.set 6), .giveUp 0 (.threw []), .call 1 .get, .serve 1 true, .answer 1 true, .serve 0 true]
    s.object.object = 6 ∧ (s.client 1).source.lastValue = 5 ∧ (s.client 0).source.lastValue = 0 ∧
      ∃ c ∈ s.confirmed, (m.toVariant (some (RemoteObject.objectAt (applyValue ⟨some m, true⟩) 5 s.object.applied
        c.call.place))).bind p.decode = some c.value := by
  intro m p s
  obtain ⟨-, hconfirmed, -⟩ := remote_values_linearizable m
    (CanonicalType.methods_codecClass ⟨true, 0, none⟩ .int32).pathsAgree p true (fun _ => []) 5 0
    (fun _ => ⟨true, true, .connected, []⟩)
    [.call 0 (.set 6), .giveUp 0 (.threw []), .call 1 .get, .serve 1 true, .answer 1 true, .serve 0 true]
  refine ⟨by decide +kernel, by decide +kernel, by decide +kernel, ?_⟩
  obtain ⟨c, hc, hread⟩ : ∃ c ∈ s.confirmed, c.wrote = false := by
    have hany : s.confirmed.any (fun c => !c.wrote) = true := by decide +kernel
    simpa using hany
  have hvalue := hconfirmed c hc
  rw [hread] at hvalue
  exact ⟨c, hc, hvalue⟩

end RttOpcua.Remote
