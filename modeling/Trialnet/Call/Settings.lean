import Trialnet.Json.Reader
import Trialnet.Payload.Record
import Trialnet.Text.Classes

/-!
# Settings

Where the service is, how long to wait for it, and how often to poll it.  A setting is given
by an argument or else by an environment variable whose name is the setting's behind a fixed
beginning; the case of either name does not matter.  A client runs with settings, and on a call
stack that limits how deep the texts it reads may be nested.
-/

namespace Trialnet

open Payload

/-- The settings of a client. -/
structure Settings where
  address : String := "http://localhost:9007"
  service : String := "ironbird.IronbirdService"
  /-- The seconds to wait for an answer. -/
  timeout : Binary64 := .ofInt 30
  /-- The seconds between two looks at a workflow. -/
  workflowInterval : Binary64 := .ofInt 10
  /-- The seconds between two looks at the templates. -/
  templateInterval : Binary64 := .ofInt 30
  deriving DecidableEq

namespace Settings

/-- What the name of an environment variable begins with. -/
def environmentMark : String := "ironbird_"

/-- The value of the argument of a setting; the first one counts. -/
def argument? (args : Fields) (name : String) : Option Datum :=
  (args.find? fun a => Text.lower a.1 = name).map (·.2)

/-- The value of the environment variable of a setting; the last one counts. -/
def lookup? (env : List (String × String)) (name : String) : Option Datum :=
  (env.reverse.find? fun v => Text.lower v.1 = environmentMark ++ name).map fun v => .text v.2

/-- One setting. -/
def setting {α : Type} (env : List (String × String)) (args : Fields) (name : String)
    (read : Datum → Reading α) (value : α) : Reading α :=
  match argument? args name <|> lookup? env name with
  | some d => (read d).under (.key name)
  | none => .ok value

/-- The settings that an environment and arguments give. -/
def read (env : List (String × String)) (args : Fields) : Reading Settings :=
  let base : Settings := {}
  Settings.mk <$> setting env args "grpc_address" text base.address
    <*> setting env args "service_name" text base.service
    <*> setting env args "request_timeout_seconds" float base.timeout
    <*> setting env args "workflow_poll_interval_seconds" float base.workflowInterval
    <*> setting env args "template_poll_interval_seconds" float base.templateInterval

/-- The name of the schema. -/
def schema : String := "ClientSettings"

/-- The address without the slashes at its end. -/
def baseUrl (s : Settings) : String :=
  String.ofList (Text.trimEnd (· == '/') s.address.toList)

/-- The address of a method of the service. -/
def methodUrl (s : Settings) (method : String) : String :=
  s!"{s.baseUrl}/{s.service}/{method}"

end Settings

/-- A client of the service. -/
structure Client extends Settings where
  /-- The levels of nesting that are left when the client reads a text. -/
  levels : Nat := Json.defaultLevels
  deriving DecidableEq

end Trialnet
