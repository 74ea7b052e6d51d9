import Trialnet.Launch.Basic
import Trialnet.Text.Classes

/-!
# Workflows

The service runs each launch as a workflow.  A workflow passes through phases, of which some
are final, and shows the nodes, links and wallets of its network.
-/

namespace Trialnet

/-- The phases of a workflow. -/
inductive Phase where
  | pending | running | completed | failed | canceled | terminated | timedOut | unknown
  deriving DecidableEq

namespace Phase

/-- The name of a phase. -/
def name : Phase → String
  | .pending => "pending"
  | .running => "running"
  | .completed => "completed"
  | .failed => "failed"
  | .canceled => "canceled"
  | .terminated => "terminated"
  | .timedOut => "timed_out"
  | .unknown => "unknown"

/-- Every phase. -/
def all : List Phase :=
  [.pending, .running, .completed, .failed, .canceled, .terminated, .timedOut, .unknown]

/-- The phase that the service reports, in any case; `unknown` for anything else. -/
def ofReport (report : String) : Phase :=
  (all.find? fun p => p.name = Text.lower report).getD .unknown

/-- Whether a workflow in this phase has come to its end. -/
def isFinal : Phase → Bool
  | .completed | .failed | .canceled | .terminated | .timedOut => true
  | .pending | .running | .unknown => false

@[simp] theorem ofReport_name (p : Phase) : ofReport p.name = p := by
  cases p <;> decide

end Phase

/-- A node of a network and its endpoints. -/
structure Node where
  name : String := ""
  address : String := ""
  rpc : String := ""
  lcd : String := ""
  grpc : String := ""
  metrics : String := ""
  deriving DecidableEq

/-- A wallet. -/
structure Wallet where
  address : String
  mnemonic : String := ""
  deriving DecidableEq

/-- The faucet and the user wallets of a network. -/
structure Wallets where
  faucet : Wallet
  users : List Wallet := []
  deriving DecidableEq

/-- What is known of a workflow. -/
structure Workflow where
  id : String
  phase : Phase
  nodes : List Node := []
  validators : List Node := []
  loadBalancers : List Node := []
  /-- Links by name, in the order of the report. -/
  monitoring : List (String × String) := []
  wallets : Option Wallets := none
  /-- The launch that started the workflow. -/
  launch : Option Launch := none
  loadTest : Option LoadTest := none
  provider : String := ""
  startTime : String := ""
  endTime : String := ""
  deriving DecidableEq

/-- The acknowledgement of a submission. -/
structure Receipt where
  workflowId : String
  status : String
  data : Fields := []
  deriving DecidableEq

/-- One line of a listing of workflows. -/
structure WorkflowSummary where
  id : String
  phase : Phase
  startTime : String := ""
  repo : String := ""
  sha : String := ""
  deriving DecidableEq

end Trialnet
