import Trialnet.Json.Printer
import Trialnet.Duration.Basic
import Trialnet.Payload.Reading

/-!
# Why something cannot be encoded

A value of the domain has no wire form if free-form data in it has no JSON text, if a duration
in it is none, or if a number exceeds the range of its field on the wire.
-/

namespace Trialnet

/-- Why a value of the domain has no wire form. -/
inductive EncodeError where
  /-- A value of a type that is none of JSON's. -/
  | foreign (typeName : String)
  /-- Free-form data, described by what it is for, has no JSON text. -/
  | unprintable (what : String) (cause : Json.PrintError)
  /-- The timeout of a load test is no duration. -/
  | timeout (cause : Duration.ReadError)
  /-- The duration of a testnet is none. -/
  | duration (cause : Duration.ReadError)
  /-- Fields do not fit their ranges. -/
  | misfit (report : Payload.Report)
  /-- A payload from outside is no load test. -/
  | notLoadTest (report : Payload.Report)
  deriving DecidableEq

namespace EncodeError

/-- The wording of the error. -/
def message : EncodeError → String
  | .foreign typeName => s!"Value of type {typeName} is not JSON-serializable"
  | .unprintable what cause => s!"Cannot serialize {what}: {cause.message}"
  | .timeout cause => s!"Cannot encode tx_timeout: {cause.message}"
  | .duration cause => s!"Cannot encode testnet_duration: {cause.message}"
  | .misfit report => s!"Cannot encode {report.schema}: {report.headline}"
  | .notLoadTest report => s!"Invalid load test spec: {report.headline}"

/-- The report behind the error, if there is one. -/
def report? : EncodeError → Option Payload.Report
  | .misfit report | .notLoadTest report => some report
  | _ => none

end EncodeError

/-- The JSON text of free-form data, described by what it is for. -/
def Datum.encode (what : String) (d : Datum) : Except EncodeError String :=
  match d.kind with
  | .error typeName => .error (.foreign typeName)
  | .ok _ => (Json.write d).mapError (EncodeError.unprintable what)

/-- The value, or the error that it does not fit a schema. -/
def Payload.Reading.fit {α : Type} (schema : String) (r : Reading α) : Except EncodeError α :=
  (r.toExcept schema).mapError .misfit

end Trialnet
