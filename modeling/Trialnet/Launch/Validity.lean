import Trialnet.Launch.Basic
import Trialnet.LoadTest.Validity
import Trialnet.Duration.Basic

/-!
# Valid launches

A launch is submitted only if it says how long the testnet runs, unless it runs until it is
shut down, if its counts make a network, if its nodes can find each other, and if its load
test is valid.  The first of these conditions that fails is reported.
-/

namespace Trialnet

/-- Why a submission is rejected. -/
inductive Rejection where
  | durationMissing
  | durationInvalid (raw : String)
  | negativeNodes
  | noValidators
  /-- A region has a negative count. -/
  | negativeRegion (name : String)
  /-- Neither a seed node nor persistent peers are enabled. -/
  | unwired
  /-- The load test breaks a rule. -/
  | loadTest (violation : LoadTest.Violation)
  /-- The weights of the load test have no sum. -/
  | weights (cause : Binary64.SumError)
  deriving DecidableEq

/-- The wording of a rejection. -/
def Rejection.message : Rejection → String
  | .durationMissing => "testnet_duration is required unless the testnet is long-running"
  | .durationInvalid raw => s!"testnet_duration is not a valid duration: {Text.quoted raw}"
  | .negativeNodes => "num_of_nodes must not be negative"
  | .noValidators => "num_of_validators must be at least 1"
  | .negativeRegion name => s!"region {name} has a negative node or validator count"
  | .unwired => "at least one of set_seed_node or set_persistent_peers must be enabled"
  | .loadTest violation => violation.message
  | .weights cause => cause.message

/-- Accepts a load test, or says why it is rejected. -/
def LoadTest.check (t : LoadTest) : Except Rejection Unit :=
  match t.violation? with
  | .error cause => .error (.weights cause)
  | .ok (some violation) => .error (.loadTest violation)
  | .ok none => .ok ()

namespace Launch

/-- The duration of a testnet that does not run until it is shut down. -/
def checkDuration (raw : String) : Except Rejection Unit :=
  if raw = "" then .error .durationMissing
  else match Duration.read raw with
    | .ok (some (_ + 1)) => .ok ()
    | _ => .error (.durationInvalid raw)

/-- Whether a count of a region is negative. -/
def isNegative (r : Region) : Bool := r.nodes < 0 || r.validators < 0

/-- The counts and the wiring of a network. -/
def checkTopology (c : Chain) : Except Rejection Unit :=
  if c.nodes < 0 then .error .negativeNodes
  else if c.validators < 1 then .error .noValidators
  else match c.regions.find? isNegative with
    | some r => .error (.negativeRegion r.name)
    | none => if c.seedNode || c.persistentPeers then .ok () else .error .unwired

/-- Accepts a launch, or says why it is rejected. -/
def check (l : Launch) : Except Rejection Unit := do
  unless l.longRunning do checkDuration l.duration
  checkTopology l.chain
  match l.loadTest with
  | some t => t.check
  | none => return ()

end Launch

end Trialnet
