import RttOpcua.Proxy.State
import RttOpcua.Remote.Call
import RttOpcua.Values.Methods

/-!
# Requests of a session

`readValue`, `writeValue`, `readPortValue`, `writePortValue` and `callLocked` of `src/client_session.cpp`, each under
`mutex_`. What open62541pp makes of a request is a function of the state of the far side; so are the texts that come
from it.
-/

namespace RttOpcua.Remote

open RttOpcua.Lib RttOpcua.Model RttOpcua.Values

/-- A result with a good status, a bad status with its name and whether the client still is connected, or a
`std::exception` with its text. -/
inductive Response (A : Type) where
  | good (result : A)
  | bad (status : Proxy.StatusCode) (name : Str) (isConnected : Bool)
  | threw (what : Str)
  deriving DecidableEq, Repr

/-- What the session looks at in a response. -/
def Response.reply {A : Type} : Response A → Proxy.Reply
  | .good _ => .good
  | .bad status _ isConnected => .bad status isConnected
  | .threw _ => .threw

/-- What the client library makes of a request that is lost. -/
inductive Lost where
  | bad (status : Proxy.StatusCode) (name : Str) (isConnected : Bool)
  | threw (what : Str)
  deriving DecidableEq, Repr

def Lost.response {A : Type} : Lost → Response A
  | .bad status name isConnected => .bad status name isConnected
  | .threw what => .threw what

/-- What becomes of a request on the wire: it is answered, it never arrives, or its answer does not arrive. -/
inductive Delivery where
  | answered (isConnected : Bool)
  | requestLost (lost : Lost)
  | answerLost (lost : Lost)
  deriving DecidableEq, Repr

/-- What the library makes of a request that the far side serves so. -/
def Delivery.response {A σ : Type} (delivery : Delivery) (serve : σ → (Bool → Response A) × σ) (far : σ) :
    Response A × σ :=
  match delivery with
  | .requestLost lost => (lost.response, far)
  | .answerLost lost => (lost.response, (serve far).2)
  | .answered isConnected => ((serve far).1 isConnected, (serve far).2)

/-- What a request returns. Only `readPortValue` tells that a port waits for its first sample. -/
inductive Answer (A : Type) where
  | value (result : A)
  | waiting
  | failed (error : Str)
  deriving DecidableEq, Repr

/-- What the session keeps of its answer. -/
def Answer.lastError {A : Type} : Answer A → Str
  | .failed error => error
  | _ => []

/-- The members of `ClientSession` that the requests use. -/
structure ClientSession where
  interfaceAccessEnabled : Bool
  client : Bool
  state : Proxy.ProxyConnectionState
  lastError : Str := []
  deriving DecidableEq, Repr

/-! ## Texts -/

def staleError : Proxy.Request → Str
  | .readValue => lit "remote RTT interface is stale; synchronize it before reading values"
  | .writeValue => lit "remote RTT interface is stale; synchronize it before writing values"
  | .readPortValue => lit "remote RTT interface is stale; synchronize it before reading ports"
  | .writePortValue => lit "remote RTT interface is stale; synchronize it before writing ports"
  | .call | .callOperation => lit "remote RTT interface is stale; synchronize it before calling operations"

def statusError : Proxy.Request → Str
  | .readValue => lit "failed to read remote RTT value"
  | .writeValue => lit "failed to write remote RTT value"
  | .readPortValue => lit "failed to read remote RTT output port"
  | .writePortValue => lit "failed to write remote RTT input port"
  | .call | .callOperation => lit "remote RTT operation failed"

def exceptionError : Proxy.Request → Str
  | .call | .callOperation => lit "remote RTT operation call failed"
  | request => statusError request

def notConnectedError : Str := lit "OPC UA client is not connected"

/-- `": "` and what the library says. -/
def withCause (text cause : Str) : Str := text ++ lit ": " ++ cause

/-! ## Requests -/

namespace ClientSession

variable {A σ : Type} (session : ClientSession)

def invalidateInterfaceLocked : ClientSession := { session with interfaceAccessEnabled := false, state := .stale }

/-- What the session says to a response. -/
def answer (request : Proxy.Request) : Response A → Answer A
  | .good result => .value result
  | .bad status name _ =>
      if request = .readPortValue ∧ status = .waitingForInitialData then .waiting
      else .failed (withCause (statusError request) name)
  | .threw what => .failed (withCause (exceptionError request) what)

/-- The request goes out, and the far side answers it. -/
def send (request : Proxy.Request) (wire : σ → Response A × σ) (far : σ) : Answer A × ClientSession × σ :=
  let response := (wire far).1
  let kept : ClientSession := { session with lastError := (answer request response).lastError }
  (answer request response, if request.invalidates response.reply then kept.invalidateInterfaceLocked else kept,
    (wire far).2)

/-- The two guards of a request: what it is refused with. -/
def refusal (request : Proxy.Request) : Option Str :=
  if request.requiresInterfaceAccess ∧ ¬ session.interfaceAccessEnabled then some (staleError request)
  else if ¬ session.client ∨ session.state ≠ .connected then some notConnectedError
  else none

/-- What the five functions have in common: the guards, and then the request. -/
def perform (request : Proxy.Request) (wire : σ → Response A × σ) (far : σ) : Answer A × ClientSession × σ :=
  match session.refusal request with
  | some error => (.failed error, { session with lastError := error }, far)
  | none => session.send request wire far

/-- A destination that is null is refused, which no caller gives. -/
def readValue {X : Type} (wire : σ → Response X × σ) (far : σ) : Answer X × ClientSession × σ :=
  session.perform .readValue wire far

def writeValue (wire : σ → Response Unit × σ) (far : σ) : Answer Unit × ClientSession × σ :=
  session.perform .writeValue wire far

def readPortValue {X : Type} (wire : σ → Response X × σ) (far : σ) : Answer X × ClientSession × σ :=
  session.perform .readPortValue wire far

def writePortValue (wire : σ → Response Unit × σ) (far : σ) : Answer Unit × ClientSession × σ :=
  session.perform .writePortValue wire far

/-- `callLocked`, with what it returns to the callers of `call` and `callOperation`. -/
def callLocked {X : Type} (requireInterfaceAccess : Bool) (wire : σ → Response (List X) × σ) (far : σ) :
    RemoteCallResult X × ClientSession × σ :=
  match session.perform (if requireInterfaceAccess then .call else .callOperation) wire far with
  | (.value outputs, session, far) => ({ success := true, outputs }, session, far)
  | (_, session, far) => ({}, session, far)

/-- A request that is refused does not reach the far side, and one that has a value was answered with it. -/
theorem perform_cases (request : Proxy.Request) (wire : σ → Response A × σ) (far : σ) :
    (∃ error, (session.perform request wire far).1 = .failed error) ∧
        (session.perform request wire far).2.2 = far ∨
      (session.perform request wire far).1 = answer request (wire far).1 ∧
        (session.perform request wire far).2.2 = (wire far).2 := by
  unfold perform
  cases session.refusal request with
  | some error => exact .inl ⟨⟨error, rfl⟩, rfl⟩
  | none => exact .inr ⟨rfl, rfl⟩

theorem answer_eq_value {request : Proxy.Request} {response : Response A} {a : A} :
    answer request response = .value a ↔ response = .good a := by
  cases response with
  | good result => simp [answer]
  | bad status name isConnected =>
      simp only [answer, reduceCtorEq, iff_false]
      split <;> simp
  | threw what => simp [answer]

/-- Requests go out. -/
structure Open : Prop where
  access : session.interfaceAccessEnabled = true
  client : session.client = true
  state : session.state = .connected

theorem Open.refusal {session : ClientSession} (h : session.Open) (request : Proxy.Request) :
    session.refusal request = none := by
  have haccess : ¬ (request.requiresInterfaceAccess = true ∧ ¬ session.interfaceAccessEnabled = true) :=
    fun hno => hno.2 h.access
  have hstate : ¬ (¬ session.client = true ∨ session.state ≠ .connected) := by
    rintro (hno | hno)
    · exact hno h.client
    · exact hno h.state
  rw [ClientSession.refusal, if_neg haccess, if_neg hstate]

theorem Open.perform {session : ClientSession} (h : session.Open) (request : Proxy.Request) (wire : σ → Response A × σ)
    (far : σ) : session.perform request wire far = session.send request wire far := by
  rw [ClientSession.perform, h.refusal]

end ClientSession

end RttOpcua.Remote
