import Trialnet.Error
import Trialnet.Event
import Trialnet.Datum.Display
import Trialnet.Call.Settings

/-!
# Replies

What becomes of a request that has been sent.  A reply of status 200 is a result if its body
is JSON; any other status is an error, which the body may describe by a message and a code.  A body
that is nested too deeply for the reader is neither: the reader's failure is let out.
-/

namespace Trialnet

/-- The ways in which a request can fail before it is answered. -/
inductive Failure where
  | timeout | connection | other
  deriving DecidableEq

/-- What becomes of a request. -/
inductive Reply where
  /-- It is answered. -/
  | answered (status : Int) (body reason : String)
  /-- It fails on its way. -/
  | failed (failure : Failure) (reason : String)
  /-- Sending it fails outside the client. -/
  | crashed (text : String)

namespace Reply

/-- The status of a successful answer. -/
def success : Int := 200

/-- The code of an error whose body gives none. -/
def unknownCode : String := "unknown"

/-- The description of an error by its body: a JSON object with a message that is not empty. -/
def described? (levels : Nat) (body : String) :
    Except Json.TooDeep (Option (String × String)) := do
  match ← Json.read levels body with
  | .ok (.object fields) => match fields.lookup "message" with
    | some text =>
      if text.isTruthy then
        return some (((fields.lookup "code").map Datum.display).getD unknownCode, text.display)
      else return none
    | none => return none
  | _ => return none

/-- The code and the text of an error: as its body describes it, or else the body itself, the
reason or the status. -/
def errorDetails (levels : Nat) (status : Int) (body reason : String) :
    Except Json.TooDeep (String × String) := do
  match ← described? levels body with
  | some details => return details
  | none =>
    return (unknownCode,
      if body ≠ "" then body else if reason ≠ "" then reason
      else s!"HTTP {Numeral.text status}")

/-- The payload of a reply to a method, or the error that it amounts to; errors that are not
explained by the payload itself are recorded. -/
def payload (s : Client) (method : String) : Reply → Logged (Except Error Datum)
  | .failed .timeout _ =>
    ⟨.error (.call (.timedOut method s.timeout)), [.callTimedOut method s.timeout]⟩
  | .failed .connection reason =>
    ⟨.error (.call (.unreachable method reason)), [.callUnreachable s.baseUrl reason]⟩
  | .failed .other reason =>
    ⟨.error (.call (.failed method reason)), [.callFailed method reason]⟩
  | .crashed text => ⟨.error (.foreign text), []⟩
  | .answered status body reason =>
    if status ≠ success then
      match errorDetails s.levels status body reason with
      | .error cause => ⟨.error (.tooDeep cause), []⟩
      | .ok (code, text) =>
        ⟨.error (.call (.refused method code text)), [.callRefused method status code text]⟩
    else match Json.read s.levels body with
      | .error cause => ⟨.error (.tooDeep cause), []⟩
      | .ok (.error _) => ⟨.error (.call (.notJson method)), []⟩
      | .ok (.ok d) => ⟨.ok d, []⟩

end Reply

end Trialnet
