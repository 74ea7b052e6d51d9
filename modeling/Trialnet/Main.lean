import Trialnet.Monitor

/-!
# The command line

Follows the workflow that the argument names.  The replies to its polls are read from standard
input, one JSON object a line:

* a reply has a `status`, a `body` and a `reason`, each of which may be left out;
* a request that fails has a `failure`, one of `timeout`, `connection` and `other`, and a
  `reason`;
* a `signal` holds the number of a signal that tells the monitor to stop.

The log goes to standard error.
-/

namespace Trialnet.Monitor

/-- A text field, empty if it is left out. -/
def textField (fields : Fields) (key : String) : String :=
  match fields.lookup key with
  | some (.text s) => s
  | _ => ""

/-- The failure of a name. -/
def failureOfName? : String → Option Failure
  | "timeout" => some .timeout
  | "connection" => some .connection
  | "other" => some .other
  | _ => none

/-- What an object of the input stands for. -/
def encounterOfFields (fields : Fields) : Encounter :=
  let reason := textField fields "reason"
  match fields.lookup "signal", failureOfName? (textField fields "failure") with
  | some (.int n), _ => .signal n.toNat
  | _, some failure => .reply (.failed failure reason)
  | _, none =>
    let status := match fields.lookup "status" with
      | some (.int n) => n
      | _ => Reply.success
    .reply (.answered status (textField fields "body") reason)

/-- What a line of the input stands for; lines that are no objects are passed over. -/
def encounter? (line : String) : Option Encounter :=
  match Json.read Json.defaultLevels line with
  | .ok (.ok (.object fields)) => some (encounterOfFields fields)
  | _ => none

/-- The environment variables of the settings. -/
def variableNames : List String :=
  ["IRONBIRD_GRPC_ADDRESS", "IRONBIRD_SERVICE_NAME", "IRONBIRD_REQUEST_TIMEOUT_SECONDS",
   "IRONBIRD_WORKFLOW_POLL_INTERVAL_SECONDS", "IRONBIRD_TEMPLATE_POLL_INTERVAL_SECONDS"]

/-- A line of the log. -/
def logLine (e : Event) : String := s!"{e.level.name} - {e.message}"

end Trialnet.Monitor

open Trialnet Trialnet.Monitor

/-- The lines of standard input. -/
partial def readLines (input : IO.FS.Stream) (lines : List String) : IO (List String) := do
  let line ← input.getLine
  if line.isEmpty then return lines.reverse else readLines input (line :: lines)

/-- Follows a workflow. -/
def main (args : List String) : IO UInt32 := do
  let env ← variableNames.filterMapM fun name => do
    return (← IO.getEnv name).map fun value => (name, value)
  match (Settings.read env []).toExcept Settings.schema with
  | .error report =>
    IO.eprintln report.headline
    return 1
  | .ok settings =>
    let lines ← if args.length = 1 then readLines (← IO.getStdin) [] else pure []
    let outcome := run { toSettings := settings } args (lines.filterMap encounter?)
    IO.print outcome.stdout
    for event in outcome.log do
      IO.eprintln (logLine event)
    return outcome.exitCode.toUInt32
