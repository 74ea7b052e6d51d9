import Trialnet.Call.Reply

/-!
# Operations

An operation asks the service for one thing.  It prepares a request, which may fail without
anything being sent, sends it exactly once, and reads the result from the reply.
-/

namespace Trialnet

/-- A request as it is sent. -/
structure Post where
  url : String
  body : Datum
  timeout : Binary64

/-- The headers of every request. -/
def Post.headers : List (String × String) :=
  [("Content-Type", "application/json"), ("Connect-Protocol-Version", "1")]

/-- The course of an operation: what was sent and recorded, and how it ended. -/
structure Exchange (α : Type) where
  sent : List Post
  log : List Event
  outcome : Except Error α

/-- Something that the service can be asked for. -/
structure Operation (α : Type) where
  /-- The method of the service. -/
  method : String
  /-- The body of the request, or why there is none. -/
  request : Logged (Except Error Datum)
  /-- The result that a payload amounts to, unless it does not fit its schema or holds a text that
  is nested too deeply for so many levels. -/
  accept : Nat → Datum → Except Payload.Report (Except Json.TooDeep (Logged α))

namespace Operation

variable {α β : Type}

/-- An operation whose result is put in other terms. -/
def map (f : α → β) (op : Operation α) : Operation β :=
  { method := op.method, request := op.request
    accept := fun levels d =>
      (op.accept levels d).map fun decoded => decoded.map fun result => f <$> result }

/-- An operation whose request always exists. -/
def simple (method : String) (body : Datum)
    (accept : Nat → Datum → Except Payload.Report (Except Json.TooDeep (Logged α))) :
    Operation α :=
  { method, request := pure (.ok body), accept }

/-- The result of an operation, given what became of its request. -/
def conclude (op : Operation α) (s : Client) (reply : Reply) : Logged (Except Error α) := do
  match ← reply.payload s op.method with
  | .error e => return .error e
  | .ok d => match op.accept s.levels d with
    | .error report => return .error (.call (.misfit op.method report))
    | .ok (.error cause) => return .error (.tooDeep cause)
    | .ok (.ok result) => Except.ok <$> result

/-- Carries out an operation, given what becomes of its request if it is sent. -/
def perform (op : Operation α) (s : Client) (reply : Reply) : Exchange α :=
  match op.request.value with
  | .error e => ⟨[], op.request.log, .error e⟩
  | .ok body =>
    let result := op.conclude s reply
    ⟨[⟨s.methodUrl op.method, body, s.timeout⟩], op.request.log ++ result.log, result.value⟩

end Operation

end Trialnet
