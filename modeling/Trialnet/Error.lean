import Trialnet.EncodeError
import Trialnet.Json.Reader
import Trialnet.Launch.Validity
import Trialnet.Binary64.Text

/-!
# Errors

Whatever a user of the client asks for ends in a result or in one of these errors.
-/

namespace Trialnet

/-- Why a call to the service gave no result. -/
inductive CallError where
  /-- No answer came in time. -/
  | timedOut (method : String) (seconds : Binary64)
  /-- The service could not be reached. -/
  | unreachable (method reason : String)
  /-- The call failed in some other way before it was answered. -/
  | failed (method reason : String)
  /-- The service answered by an error. -/
  | refused (method code text : String)
  /-- The answer is not JSON. -/
  | notJson (method : String)
  /-- The answer does not fit its schema. -/
  | misfit (method : String) (report : Payload.Report)
  /-- A failure of which no more is known than its wording. -/
  | unspecified (text : String)

namespace CallError

/-- The wording of the error. -/
def message : CallError → String
  | .timedOut method seconds => s!"{method} timed out after {seconds.text}s"
  | .unreachable _ reason | .failed _ reason => reason
  | .refused _ _ text => text
  | .notJson method => s!"{method} returned a non-JSON body"
  | .misfit method report => s!"{method} returned a malformed response: {report.headline}"
  | .unspecified text => text

/-- The code of the error. -/
def code? : CallError → Option String
  | .timedOut .. => some "deadline_exceeded"
  | .unreachable .. => some "unavailable"
  | .failed .. => some "unknown"
  | .refused _ code _ => some code
  | .notJson _ | .misfit .. => some "internal"
  | .unspecified _ => none

/-- The method that was called. -/
def method? : CallError → Option String
  | .timedOut method _ | .unreachable method _ | .failed method _ | .refused method _ _
  | .notJson method | .misfit method _ => some method
  | .unspecified _ => none

/-- The report behind the error, if there is one. -/
def report? : CallError → Option Payload.Report
  | .misfit _ report => some report
  | _ => none

end CallError

/-- Why something that was asked for has no result. -/
inductive Error where
  /-- A value has no wire form. -/
  | encode (cause : EncodeError)
  /-- A submission is rejected. -/
  | rejection (cause : Rejection)
  /-- A call to the service failed. -/
  | call (cause : CallError)
  /-- A payload does not fit its schema. -/
  | payload (report : Payload.Report)
  /-- A failure outside the client. -/
  | foreign (text : String)
  /-- A failure outside the client: a key was not found. -/
  | missingKey (key : String)
  /-- A text is nested too deeply to be read. -/
  | tooDeep (cause : Json.TooDeep)

namespace Error

/-- The wording of the error. -/
def message : Error → String
  | .encode cause => cause.message
  | .rejection cause => cause.message
  | .call cause => cause.message
  | .payload report => report.headline
  | .foreign text => text
  | .missingKey key => Text.quoted key
  | .tooDeep cause => cause.message

/-- The report behind the error, if there is one. -/
def report? : Error → Option Payload.Report
  | .encode cause => cause.report?
  | .call cause => cause.report?
  | .payload report => some report
  | _ => none

end Error

end Trialnet
