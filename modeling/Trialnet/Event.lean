import Trialnet.Json.Document
import Trialnet.Duration.Basic
import Trialnet.Binary64.Text

/-!
# Events and the log

What the client notices while it works is recorded as events.  An event has a level and a
wording, and a `Logged` value carries the events that led to it, in order.  Only the monitor
records what goes as planned, since that is what it is for; elsewhere such records are left out.
-/

namespace Trialnet

/-- How serious an event is. -/
inductive Level where
  | info | warning | error
  deriving DecidableEq

/-- The name of a level. -/
def Level.name : Level → String
  | .info => "INFO"
  | .warning => "WARNING"
  | .error => "ERROR"

/-- Something that the client notices. -/
inductive Event where
  /-- A message of an unknown kind was left out of a mix. -/
  | messageDropped (kind : String)
  /-- A document of a chain's configuration was dropped. -/
  | documentDropped (chain : String) (warning : Json.Warning)
  /-- An unknown runner was taken for the default one. -/
  | runnerAssumed (runner assumed : String)
  /-- The duration of a testnet that runs until it is shut down is none. -/
  | durationIgnored (cause : Duration.ReadError)
  /-- A call took too long. -/
  | callTimedOut (method : String) (seconds : Binary64)
  /-- The service could not be reached. -/
  | callUnreachable (address reason : String)
  /-- A call failed in some other way before it was answered. -/
  | callFailed (method reason : String)
  /-- A call was answered by an error. -/
  | callRefused (method : String) (status : Int) (code message : String)
  /-- A poller could not fetch. -/
  | pollFailed (poller reason : String)
  /-- The recipient of a poller's results failed. -/
  | deliveryFailed (poller reason : String)
  /-- A poller that is running was started. -/
  | alreadyRunning (poller : String)
  /-- A line that sets off the heading of the monitor's log. -/
  | rule
  | endpoint (address : String)
  | watching (workflow : String)
  | pace (seconds : Binary64)
  /-- A workflow was found in a phase. -/
  | observed (workflow phase : String) (nodes validators : Nat)
  /-- A link of a workflow. -/
  | link (name target : String)
  /-- The monitor was told to stop. -/
  | signalled (signal : Nat)

namespace Event

/-- The level of an event. -/
def level : Event → Level
  | .messageDropped _ | .documentDropped .. | .runnerAssumed .. | .durationIgnored _
  | .alreadyRunning _ => .warning
  | .callTimedOut .. | .callUnreachable .. | .callFailed .. | .callRefused ..
  | .pollFailed .. | .deliveryFailed .. => .error
  | .rule | .endpoint _ | .watching _ | .pace _ | .observed .. | .link .. | .signalled _ => .info

/-- The wording of an event. -/
def message : Event → String
  | .messageDropped kind => s!"Dropping load test message with unknown type {Text.quoted kind}"
  | .documentDropped chain warning => s!"[chain {chain}] {warning.message}"
  | .runnerAssumed runner assumed =>
    s!"Unknown runner type {Text.quoted runner}, assuming {assumed}"
  | .durationIgnored cause =>
    s!"Ignoring testnet_duration of long-running testnet: {cause.message}"
  | .callTimedOut method seconds => s!"RPC {method} timed out after {seconds.text}s"
  | .callUnreachable address reason => s!"Cannot connect to {address}: {reason}"
  | .callFailed method reason => s!"RPC {method} failed: {reason}"
  | .callRefused method status code message =>
    s!"RPC {method} error [{Numeral.text status}] {code}: {message}"
  | .pollFailed poller reason => s!"[{poller}] poll failed: {reason}"
  | .deliveryFailed poller reason => s!"[{poller}] result callback failed: {reason}"
  | .alreadyRunning poller => s!"[{poller}] already running"
  | .rule => String.ofList (List.replicate 80 '=')
  | .endpoint address => s!"Endpoint: {address}"
  | .watching workflow => s!"Workflow: {workflow}"
  | .pace seconds => s!"Poll Interval: {seconds.text}s"
  | .observed workflow phase nodes validators =>
    s!"{workflow}: {phase} ({nodes} nodes, {validators} validators)"
  | .link name target => s!"  {name}: {target}"
  | .signalled signal => s!"Received signal {signal}, stopping..."

end Event

/-- A value and the events that led to it, in order. -/
structure Logged (α : Type) where
  value : α
  log : List Event := []

namespace Logged

instance : Monad Logged where
  pure a := ⟨a, []⟩
  bind x f :=
    let y := f x.value
    ⟨y.value, x.log ++ y.log⟩

/-- Records an event. -/
def note (e : Event) : Logged Unit := ⟨(), [e]⟩

variable {α β : Type}

@[simp] theorem value_pure (a : α) : (pure a : Logged α).value = a := rfl

@[simp] theorem log_pure (a : α) : (pure a : Logged α).log = [] := rfl

@[simp] theorem value_bind (x : Logged α) (f : α → Logged β) :
    (x >>= f).value = (f x.value).value := rfl

@[simp] theorem log_bind (x : Logged α) (f : α → Logged β) :
    (x >>= f).log = x.log ++ (f x.value).log := rfl

end Logged

end Trialnet
