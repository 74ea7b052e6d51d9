import Trialnet.Poller

/-!
# The monitor

The command line of the project follows one workflow: it polls the workflow, writes what it
sees to its log, and ends when the workflow has come to its end or when it is told to stop.
-/

namespace Trialnet.Monitor

/-- What the monitor meets at a poll. -/
inductive Encounter where
  /-- A reply to the request. -/
  | reply (reply : Reply)
  /-- A signal that tells the monitor to stop. -/
  | signal (number : Nat)

/-- How a run ends. -/
structure Outcome where
  exitCode : Nat
  stdout : String
  log : List Event

/-- What is printed when the arguments are not one workflow. -/
def usage : String := "usage: python -m testnet_client.run_status_poller <workflow-id>\n"

/-- The heading of the log. -/
def heading (s : Client) (workflowId : String) : List Event :=
  [.rule, .endpoint s.address, .watching workflowId, .pace s.workflowInterval, .rule]

/-- What is written about a workflow. -/
def describe (w : Workflow) : List Event :=
  .observed w.id w.phase.name w.nodes.length w.validators.length
    :: w.monitoring.map fun l => .link l.1 l.2

/-- One poll of the workflow: the cycle of the poller, and what it leaves in the log. -/
structure Cycle where
  outcome : Poller.Outcome Workflow
  log : List Event

namespace Cycle

/-- Whether a cycle has shown that the workflow has come to its end. -/
def isLast (c : Cycle) : Bool := c.outcome.delivered.any (·.phase.isFinal)

/-- Polls the workflow. -/
def run (s : Client) (workflowId : String) (p : Poller Workflow) (reply : Reply) : Cycle :=
  let o := p.cycle (Poller.fetchWorkflow s workflowId reply) .ready
  ⟨o, o.log ++ o.delivered.flatMap describe⟩

end Cycle

/-- The cycles up to the end of the workflow or a signal, and the signal. -/
def watch (s : Client) (workflowId : String) (p : Poller Workflow) :
    List Encounter → List Cycle × Option Nat
  | [] => ([], none)
  | .signal number :: _ => ([], some number)
  | .reply reply :: rest =>
    let c := Cycle.run s workflowId p reply
    if c.isLast then ([c], none)
    else
      let (cs, signal) := watch s workflowId c.outcome.poller rest
      (c :: cs, signal)

/-- Runs the monitor on its arguments, given what it meets at its polls. -/
def run (s : Client) (args : List String) (encounters : List Encounter) : Outcome :=
  match args with
  | [workflowId] =>
    let (cycles, signal) :=
      watch s workflowId (.workflow s.workflowInterval workflowId) encounters
    { exitCode := 0, stdout := ""
      log := heading s workflowId ++ cycles.flatMap (·.log) ++ signal.toList.map .signalled }
  | _ => { exitCode := 2, stdout := usage, log := [] }

end Trialnet.Monitor
