import Trialnet.Wire.Workflow
import Trialnet.Wire.Template

/-!
# The catalogue of schemas

Every schema of the wire by its name.  `normalize` reads a payload by a schema and writes it
again, which gives every field its wire name, its default and its canonical spelling.
-/

namespace Trialnet.Wire

open Payload

/-- A payload that is read and written again: its canonical spelling. -/
def canonical {α : Type} (read : Datum → Reading α) (payload : α → Datum) (d : Datum) :
    Reading Datum :=
  (read d).map payload

/-- What each schema makes of a payload. -/
def catalogue : List (String × (Datum → Reading Datum)) :=
  [(GenesisEntry.schema, canonical GenesisEntry.read GenesisEntry.payload),
   (Region.schema, canonical Region.read Region.payload),
   (Chain.schema, canonical Chain.read Chain.payload),
   (Message.schema, canonical Message.read Message.payload),
   (LoadTest.schema, canonical LoadTest.read LoadTest.payload),
   (Launch.schema, canonical Launch.read Launch.payload),
   (Receipt.schema, canonical Receipt.read Receipt.payload),
   ("WireNode", canonical Node.read Node.payload),
   (WalletInfo.schema, canonical WalletInfo.read WalletInfo.payload),
   (Workflow.schema, canonical Workflow.read Workflow.payload),
   (WorkflowSummary.schema, canonical WorkflowSummary.read WorkflowSummary.payload),
   (WorkflowList.schema, canonical WorkflowList.read WorkflowList.payload),
   ("WireGetWorkflowRequest", canonical WorkflowRef.read WorkflowRef.payload),
   ("WireListWorkflowsRequest",
    canonical (Page.read ⟨100, by decide, by decide⟩) Page.payload),
   ("WireCancelWorkflowRequest", canonical WorkflowRef.read WorkflowRef.payload),
   ("WireSignalWorkflowRequest", canonical Signal.read Signal.payload),
   ("WireRunLoadTestRequest", canonical LoadTestRun.read LoadTestRun.payload),
   ("WireCreateWorkflowTemplateRequest", canonical TemplateDraft.read TemplateDraft.payload),
   ("WireUpdateWorkflowTemplateRequest", canonical TemplateDraft.read TemplateDraft.payload),
   (Template.schema, canonical Template.read Template.payload),
   (TemplateReceipt.schema, canonical TemplateReceipt.read TemplateReceipt.payload),
   (TemplateSummary.schema, canonical TemplateSummary.read TemplateSummary.payload),
   (TemplateList.schema, canonical TemplateList.read TemplateList.payload),
   ("WireTemplateIdRequest", canonical TemplateRef.read TemplateRef.payload),
   ("WireListWorkflowTemplatesRequest",
    canonical (Page.read templatePageLimit) Page.payload),
   ("WireExecuteWorkflowTemplateRequest",
    canonical TemplateExecution.read TemplateExecution.payload),
   ("WireGetTemplateRunHistoryRequest", canonical RunPage.read RunPage.payload),
   (TemplateRun.schema, canonical TemplateRun.read TemplateRun.payload),
   (RunList.schema, canonical RunList.read RunList.payload)]

/-- The payload that a schema makes of a payload, if there is a schema of that name. -/
def normalize? (schema : String) (d : Datum) : Option (Except Report Datum) :=
  (catalogue.lookup schema).map fun reader => (reader d).toExcept schema

end Trialnet.Wire
