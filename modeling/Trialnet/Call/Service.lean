import Trialnet.Call.Operation
import Trialnet.Workflow.Wire
import Trialnet.Template.Wire
import Trialnet.LoadTest.Editing

/-!
# The service

The operations of the provisioning service: workflows are submitted, inspected and controlled,
and templates are stored, listed and run.  Submissions are checked before anything is sent.
-/

namespace Trialnet.Service

open Payload

/-- Reads a payload by a schema. -/
def accepting {α β : Type} (schema : String) (read : Datum → Reading α)
    (decode : Nat → α → Except Json.TooDeep (Logged β)) (levels : Nat) (d : Datum) :
    Except Report (Except Json.TooDeep (Logged β)) :=
  ((read d).toExcept schema).map (decode levels)

/-- A decoder that meets no texts to be read and records nothing. -/
def plainly {α β : Type} (f : α → β) (_ : Nat) (w : α) : Except Json.TooDeep (Logged β) :=
  .ok (pure (f w))

/-- The body of a request whose preparation can only fail in encoding. -/
def encoded {α : Type} (payload : α → Datum) (x : Except EncodeError α) :
    Logged (Except Error Datum) :=
  pure ((x.map payload).mapError .encode)

/-- The acknowledgement of a submission. -/
def acceptReceipt : Nat → Datum → Except Report (Except Json.TooDeep (Logged Receipt)) :=
  accepting Wire.Receipt.schema Wire.Receipt.read (plainly Receipt.decode)

/-- The name of a template that was changed. -/
def acceptTemplateId : Nat → Datum → Except Report (Except Json.TooDeep (Logged String)) :=
  accepting Wire.TemplateReceipt.schema Wire.TemplateReceipt.read (plainly (·.id))

/-- A page of a listing, if its numbers fit into 32 bits. -/
def page (schema : String) (limit offset : Int) : Except EncodeError Wire.Page :=
  (Wire.Page.mk <$> (inRange _ _ limit).under (.key "limit")
    <*> (inRange _ _ offset).under (.key "offset")).fit schema

/-! ### Workflows -/

/-- Submits a launch. -/
def createWorkflow (l : Launch) : Operation Receipt :=
  { method := "CreateWorkflow"
    request := match l.check with
      | .error cause => pure (.error (.rejection cause))
      | .ok () => do
        let wire ← l.encode
        return (wire.map Wire.Launch.payload).mapError .encode
    accept := acceptReceipt }

/-- Starts a load test in the network of a workflow. -/
def runLoadTest (workflowId : String) (t : LoadTest) : Operation Receipt :=
  { method := "RunLoadTest"
    request := match t.checked with
      | .error cause => pure (.error (.rejection cause))
      | .ok checked =>
        encoded (fun w => Wire.LoadTestRun.payload ⟨workflowId, w⟩) checked.encode
    accept := acceptReceipt }

/-- Asks for a workflow. -/
def getWorkflow (workflowId : String) : Operation Workflow :=
  .simple "GetWorkflow" (Wire.WorkflowRef.payload ⟨workflowId⟩)
    (accepting Wire.Workflow.schema Wire.Workflow.read Workflow.decode)

/-- Asks for a page of the workflows and their total number. -/
def listWorkflows (limit offset : Int) : Operation (List WorkflowSummary × Int) :=
  { method := "ListWorkflows"
    request := encoded Wire.Page.payload (page "WireListWorkflowsRequest" limit offset)
    accept := accepting Wire.WorkflowList.schema Wire.WorkflowList.read <|
      plainly fun w => (w.workflows.map WorkflowSummary.decode, w.count.val) }

/-- Cancels a workflow. -/
def cancelWorkflow (workflowId : String) : Operation Receipt :=
  .simple "CancelWorkflow" (Wire.WorkflowRef.payload ⟨workflowId⟩) acceptReceipt

/-- Sends a signal to a workflow. -/
def signalWorkflow (workflowId signal : String) : Operation Receipt :=
  .simple "SignalWorkflow" (Wire.Signal.payload ⟨workflowId, signal⟩) acceptReceipt

/-- The signal that asks a testnet to tear itself down. -/
def shutdownSignal : String := "shutdown"

/-- Asks a testnet to tear itself down. -/
def shutDown (workflowId : String) : Operation Receipt := signalWorkflow workflowId shutdownSignal

/-! ### Templates -/

/-- The request to store a template, whose launch has to be valid. -/
def templateRequest (t : Template) : Logged (Except Error Datum) :=
  match t.launch.check with
  | .error cause => pure (.error (.rejection cause))
  | .ok () => do
    let wire ← t.encode
    return (wire.map Wire.TemplateDraft.payload).mapError .encode

/-- Stores a new template. -/
def createTemplate (t : Template) : Operation String :=
  { method := "CreateWorkflowTemplate", request := templateRequest t, accept := acceptTemplateId }

/-- Replaces a template. -/
def updateTemplate (t : Template) : Operation String :=
  { method := "UpdateWorkflowTemplate", request := templateRequest t, accept := acceptTemplateId }

/-- Asks for a template. -/
def getTemplate (templateId : String) : Operation Template :=
  .simple "GetWorkflowTemplate" (Wire.TemplateRef.payload ⟨templateId⟩)
    (accepting Wire.Template.schema Wire.Template.read Template.decode)

/-- Asks for a page of the templates and their total number. -/
def listTemplates (limit offset : Int) : Operation (List TemplateSummary × Int) :=
  { method := "ListWorkflowTemplates"
    request := encoded Wire.Page.payload (page "WireListWorkflowTemplatesRequest" limit offset)
    accept := accepting Wire.TemplateList.schema Wire.TemplateList.read <|
      plainly fun w => (w.templates.map TemplateSummary.decode, w.count.val) }

/-- Deletes a template. -/
def deleteTemplate (templateId : String) : Operation Unit :=
  .simple "DeleteWorkflowTemplate" (Wire.TemplateRef.payload ⟨templateId⟩)
    (accepting Wire.TemplateReceipt.schema Wire.TemplateReceipt.read (plainly fun _ => ()))

/-- Runs a template for a commit. -/
def executeTemplate (e : TemplateExecution) : Operation Receipt :=
  .simple "ExecuteWorkflowTemplate" e.encode.payload acceptReceipt

/-- A page of the runs of a template, if its numbers fit into 32 bits. -/
def runPage (templateId : String) (limit offset : Int) : Except EncodeError Wire.RunPage :=
  (Wire.RunPage.mk templateId <$> (inRange _ _ limit).under (.key "limit")
    <*> (inRange _ _ offset).under (.key "offset")).fit "WireGetTemplateRunHistoryRequest"

/-- Asks for a page of the runs of a template and their total number. -/
def runHistory (templateId : String) (limit offset : Int) : Operation (List TemplateRun × Int) :=
  { method := "GetTemplateRunHistory"
    request := encoded Wire.RunPage.payload (runPage templateId limit offset)
    accept := accepting Wire.RunList.schema Wire.RunList.read <|
      plainly fun w => (w.runs.map TemplateRun.decode, w.count.val) }

/-! ### Every operation -/

/-- The limit of a page of workflows unless a call says otherwise. -/
def workflowPageLimit : Int := 100

/-- The limit of a page of templates or runs unless a call says otherwise. -/
def templatePageLimit : Int := 50

/-- A call of one of the operations, with its arguments. -/
inductive Call where
  | createWorkflow (launch : Launch)
  | runLoadTest (workflowId : String) (loadTest : LoadTest)
  | getWorkflow (workflowId : String)
  | listWorkflows (limit offset : Int)
  | cancelWorkflow (workflowId : String)
  | signalWorkflow (workflowId signal : String)
  | shutDown (workflowId : String)
  | createTemplate (template : Template)
  | updateTemplate (template : Template)
  | getTemplate (templateId : String)
  | listTemplates (limit offset : Int)
  | deleteTemplate (templateId : String)
  | executeTemplate (execution : TemplateExecution)
  | runHistory (templateId : String) (limit offset : Int)

/-- The result of a call. -/
inductive Answer where
  | receipt (receipt : Receipt)
  | workflow (workflow : Workflow)
  | workflows (page : List WorkflowSummary) (count : Int)
  | templateId (id : String)
  | template (template : Template)
  | templates (page : List TemplateSummary) (count : Int)
  | runs (page : List TemplateRun) (count : Int)
  | nothing

/-- The operation that a call stands for. -/
def Call.operation : Call → Operation Answer
  | .createWorkflow l => (Service.createWorkflow l).map .receipt
  | .runLoadTest id t => (Service.runLoadTest id t).map .receipt
  | .getWorkflow id => (Service.getWorkflow id).map .workflow
  | .listWorkflows limit offset =>
    (Service.listWorkflows limit offset).map fun r => .workflows r.1 r.2
  | .cancelWorkflow id => (Service.cancelWorkflow id).map .receipt
  | .signalWorkflow id signal => (Service.signalWorkflow id signal).map .receipt
  | .shutDown id => (Service.shutDown id).map .receipt
  | .createTemplate t => (Service.createTemplate t).map .templateId
  | .updateTemplate t => (Service.updateTemplate t).map .templateId
  | .getTemplate id => (Service.getTemplate id).map .template
  | .listTemplates limit offset =>
    (Service.listTemplates limit offset).map fun r => .templates r.1 r.2
  | .deleteTemplate id => (Service.deleteTemplate id).map fun _ => .nothing
  | .executeTemplate e => (Service.executeTemplate e).map .receipt
  | .runHistory id limit offset =>
    (Service.runHistory id limit offset).map fun r => .runs r.1 r.2

/-- The exchanges of a session: each call with what becomes of its request. -/
def session (s : Client) (steps : List (Call × Reply)) : List (Exchange Answer) :=
  steps.map fun step => step.1.operation.perform s step.2

end Trialnet.Service
