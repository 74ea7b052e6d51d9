import Trialnet.LoadTest.Wire
import Trialnet.Launch.Validity
import Trialnet.Error

/-!
# Editing a load test

A load test is put together step by step: messages are added one at a time, each checked
against those already there, and in between the load test can be checked as a whole, made
ready for submission, or stored and loaded again.  A step that fails leaves it as it was.
-/

namespace Trialnet.LoadTest

/-- One step of editing. -/
inductive Edit where
  /-- Looks at the load test as a whole. -/
  | validate
  /-- Looks at a message as if it were to be added. -/
  | validateNew (m : Message)
  /-- Adds a message at the end. -/
  | add (m : Message)
  /-- Clears a timeout that means nothing. -/
  | normalize
  /-- Makes the load test ready for submission. -/
  | check
  /-- Replaces fields. -/
  | set (change : LoadTest → LoadTest)
  /-- Sends the load test to the wire and reads it back. -/
  | reload

/-- What a step shows. -/
inductive Verdict where
  /-- Nothing but the load test. -/
  | done
  /-- The violation that was found, if any. -/
  | found (violation : Option Violation)

/-- The load test with a message added at the end. -/
def add (t : LoadTest) (m : Message) : Except Rejection LoadTest :=
  match t.newMessageViolation? m with
  | some violation => .error (.loadTest violation)
  | none => .ok { t with messages := t.messages ++ [m] }

/-- The load test as it is submitted, if it is valid. -/
def checked (t : LoadTest) : Except Rejection LoadTest := do
  t.check
  return t.normalize

/-- The load test after it has been sent to the wire and read back. -/
def reload (t : LoadTest) : Logged (Except Error LoadTest) :=
  match t.encode with
  | .error e => pure (.error (.encode e))
  | .ok w => match (Wire.LoadTest.read w.payload).toExcept Wire.LoadTest.schema with
    | .error report => pure (.error (.payload report))
    | .ok w => Except.ok <$> decode w

/-- The load test after a step, and what the step shows. -/
def apply (t : LoadTest) : Edit → Logged (Except Error (LoadTest × Verdict))
  | .validate => pure <| match t.violation? with
    | .error cause => .error (.rejection (.weights cause))
    | .ok violation => .ok (t, .found violation)
  | .validateNew m => pure (.ok (t, .found (t.newMessageViolation? m)))
  | .add m => pure <| (t.add m).mapError .rejection |>.map fun t => (t, .done)
  | .normalize => pure (.ok (t.normalize, .done))
  | .check => pure <| t.checked.mapError .rejection |>.map fun t => (t, .done)
  | .set change => pure (.ok (change t, .done))
  | .reload => do
    let result ← t.reload
    return result.map fun t => (t, .done)

/-- What one step of a run leaves: its outcome with its log, and the load test after it. -/
structure Stage where
  outcome : Logged (Except Error Verdict)
  state : LoadTest

/-- One step of a run. -/
def stage (t : LoadTest) (e : Edit) : Stage :=
  let result := t.apply e
  match result.value with
  | .ok (t', verdict) => ⟨⟨.ok verdict, result.log⟩, t'⟩
  | .error err => ⟨⟨.error err, result.log⟩, t⟩

/-- The stages of a run of editing steps. -/
def stages (t : LoadTest) : List Edit → List Stage
  | [] => []
  | e :: es =>
    let s := t.stage e
    s :: stages s.state es

end Trialnet.LoadTest
