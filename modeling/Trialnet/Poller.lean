import Trialnet.Call.Service

/-!
# Pollers

A poller fetches something again and again and keeps the latest result.  A cycle that fails is
recorded and remembered until one succeeds; a recipient that fails to take a result changes
nothing about the poller.  Starting a poller runs one cycle at once and one more in each of its
turns until it is stopped, and starting it again while it runs does nothing.
-/

namespace Trialnet

/-- How the results of a poller are received. -/
inductive Recipient where
  /-- Nobody receives them. -/
  | absent
  /-- They are received. -/
  | ready
  /-- They are received, and then the recipient fails. -/
  | failing (text : String)
  deriving DecidableEq

/-- The state of a poller. -/
structure Poller (α : Type) where
  name : String
  /-- The seconds between two cycles. -/
  interval : Binary64
  running : Bool := false
  /-- The result of the latest cycle that succeeded. -/
  latest : Option α := none
  /-- The error of the latest cycle, if it failed. -/
  lastError : Option Error := none

namespace Poller

variable {α : Type}

/-- What a cycle or another step leaves. -/
structure Outcome (α : Type) where
  poller : Poller α
  /-- What was handed to the recipient. -/
  delivered : List α := []
  log : List Event := []

/-- One cycle, given what the fetch gives. -/
def cycle (p : Poller α) (fetched : Logged (Except Error α)) (recipient : Recipient) :
    Outcome α :=
  match fetched.value with
  | .error e =>
    { poller := { p with lastError := some e }
      log := fetched.log ++ [.pollFailed p.name e.message] }
  | .ok a =>
    let p := { p with latest := some a, lastError := none }
    match recipient with
    | .absent => { poller := p, log := fetched.log }
    | .ready => { poller := p, delivered := [a], log := fetched.log }
    | .failing text =>
      { poller := p, delivered := [a], log := fetched.log ++ [.deliveryFailed p.name text] }

/-- What is done to a poller. -/
inductive Action where
  /-- Runs one cycle. -/
  | poll
  /-- Starts the poller, which runs its first cycle. -/
  | start
  /-- The interval is over, and the poller runs one more cycle if it has not been stopped. -/
  | turn
  /-- Stops the poller. -/
  | stop
  deriving DecidableEq

/-- The poller after an action, given what a fetch would give. -/
def act (p : Poller α) (action : Action) (fetched : Logged (Except Error α))
    (recipient : Recipient) : Outcome α :=
  match action with
  | .poll => p.cycle fetched recipient
  | .start =>
    if p.running then { poller := p, log := [.alreadyRunning p.name] }
    else { p with running := true }.cycle fetched recipient
  | .turn => if p.running then p.cycle fetched recipient else { poller := p }
  | .stop => { poller := { p with running := false } }

/-- What one action has, apart from the state of the poller. -/
structure Stimulus (α : Type) where
  action : Action
  fetched : Logged (Except Error α)
  recipient : Recipient

/-- The outcomes of a run of actions. -/
def run (p : Poller α) : List (Stimulus α) → List (Outcome α)
  | [] => []
  | x :: xs =>
    let o := p.act x.action x.fetched x.recipient
    o :: run o.poller xs

/-- The seconds between two looks at a workflow unless a poller says otherwise. -/
def workflowInterval : Binary64 := .ofInt 10

/-- The seconds between two looks at the templates unless a poller says otherwise. -/
def templateInterval : Binary64 := .ofInt 30

/-- The poller of a workflow. -/
def workflow (interval : Binary64) (id : String) : Poller Workflow :=
  { name := s!"workflow-{id}", interval }

/-- The poller of the templates. -/
def templates (interval : Binary64) : Poller (List TemplateSummary × Int) :=
  { name := "template-list", interval }

/-- What a poller's fetch gives when it carries out an operation. -/
def fetch (op : Operation α) (s : Client) (reply : Reply) : Logged (Except Error α) :=
  let x := op.perform s reply
  ⟨x.outcome, x.log⟩

/-- What the poller of a workflow fetches. -/
def fetchWorkflow (s : Client) (id : String) (reply : Reply) : Logged (Except Error Workflow) :=
  fetch (Service.getWorkflow id) s reply

/-- What the poller of the templates fetches. -/
def fetchTemplates (s : Client) (reply : Reply) :
    Logged (Except Error (List TemplateSummary × Int)) :=
  fetch (Service.listTemplates Service.templatePageLimit 0) s reply

end Poller

end Trialnet
