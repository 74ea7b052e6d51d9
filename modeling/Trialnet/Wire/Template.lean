import Trialnet.Wire.Launch

/-!
# Templates on the wire

The records that the service sends about templates, and those that ask for them.
-/

namespace Trialnet.Wire

open Payload

/-- A template to be stored. -/
structure TemplateDraft where
  id : String
  description : String := ""
  launch : Launch
  deriving DecidableEq

/-- A stored template. -/
structure Template where
  id : String := ""
  description : String := ""
  launch : Option Launch := none
  createdAt : String := ""
  createdBy : String := ""
  runCount : Signed32 := default
  deriving DecidableEq

/-- The acknowledgement of a change to a template. -/
structure TemplateReceipt where
  id : String := ""
  deriving DecidableEq

/-- One line of a listing of templates. -/
structure TemplateSummary where
  id : String := ""
  description : String := ""
  createdAt : String := ""
  runCount : Signed32 := default
  deriving DecidableEq

/-- A listing of templates and their total number. -/
structure TemplateList where
  templates : List TemplateSummary := []
  count : Signed32 := default
  deriving DecidableEq

/-- A request that names a template. -/
structure TemplateRef where
  id : String
  deriving DecidableEq

/-- A request to run a template for a commit. -/
structure TemplateExecution where
  id : String
  sha : String
  runName : String := ""
  deriving DecidableEq

/-- A request for a page of a template's runs. -/
structure RunPage where
  id : String
  limit : Signed32
  offset : Signed32
  deriving DecidableEq

/-- A past run of a template. -/
structure TemplateRun where
  runId : String := ""
  workflowId : String := ""
  templateId : String := ""
  sha : String := ""
  runName : String := ""
  status : String := ""
  startedAt : String := ""
  completedAt : String := ""
  monitoring : List (String × String) := []
  provider : String := ""
  deriving DecidableEq

/-- A listing of runs and their total number. -/
structure RunList where
  runs : List TemplateRun := []
  count : Signed32 := default
  deriving DecidableEq

/-- The limit of a page of templates or runs unless a request says otherwise. -/
def templatePageLimit : Signed32 := ⟨50, by decide, by decide⟩

namespace TemplateDraft

/-- Reads a template to be stored. -/
def read : Datum → Reading TemplateDraft := record fun fs =>
  TemplateDraft.mk <$> required (.same "id") text fs
    <*> defaulted (.same "description") text "" fs
    <*> required ⟨"templateConfig", "template_config"⟩ Launch.read fs

/-- The payload of a template to be stored. -/
def payload (d : TemplateDraft) : Datum :=
  .object (entry "id" (.text d.id) ++ entry "description" (.text d.description)
    ++ entry "templateConfig" (Launch.payload d.launch))

end TemplateDraft

namespace Template

/-- The name of the schema. -/
def schema : String := "WireWorkflowTemplate"

/-- Reads a template. -/
def read : Datum → Reading Template := record fun fs =>
  Template.mk <$> defaulted (.same "id") text "" fs
    <*> defaulted (.same "description") text "" fs
    <*> optional ⟨"templateConfig", "template_config"⟩ Launch.read fs
    <*> defaulted ⟨"createdAt", "created_at"⟩ text "" fs
    <*> defaulted ⟨"createdBy", "created_by"⟩ text "" fs
    <*> defaulted ⟨"runCount", "run_count"⟩ signed32 default fs

/-- The payload of a template. -/
def payload (t : Template) : Datum :=
  .object (entry "id" (.text t.id) ++ entry "description" (.text t.description)
    ++ entry? "templateConfig" (t.launch.map Launch.payload)
    ++ entry "createdAt" (.text t.createdAt) ++ entry "createdBy" (.text t.createdBy)
    ++ entry "runCount" (narrow t.runCount))

end Template

namespace TemplateReceipt

/-- The name of the schema. -/
def schema : String := "WireWorkflowTemplateResponse"

/-- Reads an acknowledgement. -/
def read : Datum → Reading TemplateReceipt := record fun fs =>
  TemplateReceipt.mk <$> defaulted (.same "id") text "" fs

/-- The payload of an acknowledgement. -/
def payload (r : TemplateReceipt) : Datum := .object (entry "id" (.text r.id))

end TemplateReceipt

namespace TemplateSummary

/-- The name of the schema. -/
def schema : String := "WireWorkflowTemplateSummary"

/-- Reads a line of a listing. -/
def read : Datum → Reading TemplateSummary := record fun fs =>
  TemplateSummary.mk <$> defaulted (.same "id") text "" fs
    <*> defaulted (.same "description") text "" fs
    <*> defaulted ⟨"createdAt", "created_at"⟩ text "" fs
    <*> defaulted ⟨"runCount", "run_count"⟩ signed32 default fs

/-- The payload of a line of a listing. -/
def payload (t : TemplateSummary) : Datum :=
  .object (entry "id" (.text t.id) ++ entry "description" (.text t.description)
    ++ entry "createdAt" (.text t.createdAt) ++ entry "runCount" (narrow t.runCount))

end TemplateSummary

namespace TemplateList

/-- The name of the schema. -/
def schema : String := "WireWorkflowTemplateListResponse"

/-- Reads a listing. -/
def read : Datum → Reading TemplateList := record fun fs =>
  TemplateList.mk <$> defaulted (.same "templates") (array TemplateSummary.read) [] fs
    <*> defaulted (.same "count") signed32 default fs

/-- The payload of a listing. -/
def payload (l : TemplateList) : Datum :=
  .object (entry "templates" (.array (l.templates.map TemplateSummary.payload))
    ++ entry "count" (narrow l.count))

end TemplateList

namespace TemplateRef

/-- Reads a request that names a template. -/
def read : Datum → Reading TemplateRef := record fun fs =>
  TemplateRef.mk <$> required (.same "id") text fs

/-- The payload of a request that names a template. -/
def payload (r : TemplateRef) : Datum := .object (entry "id" (.text r.id))

end TemplateRef

namespace TemplateExecution

/-- Reads a request to run a template. -/
def read : Datum → Reading TemplateExecution := record fun fs =>
  TemplateExecution.mk <$> required (.same "id") text fs
    <*> required (.same "sha") text fs
    <*> defaulted ⟨"runName", "run_name"⟩ text "" fs

/-- The payload of a request to run a template. -/
def payload (e : TemplateExecution) : Datum :=
  .object (entry "id" (.text e.id) ++ entry "sha" (.text e.sha)
    ++ entry "runName" (.text e.runName))

end TemplateExecution

namespace RunPage

/-- Reads a request for a page of runs. -/
def read : Datum → Reading RunPage := record fun fs =>
  RunPage.mk <$> required (.same "id") text fs
    <*> defaulted (.same "limit") signed32 templatePageLimit fs
    <*> defaulted (.same "offset") signed32 default fs

/-- The payload of a request for a page of runs. -/
def payload (p : RunPage) : Datum :=
  .object (entry "id" (.text p.id) ++ entry "limit" (narrow p.limit)
    ++ entry "offset" (narrow p.offset))

end RunPage

namespace TemplateRun

/-- The name of the schema. -/
def schema : String := "WireTemplateRun"

/-- Reads a run. -/
def read : Datum → Reading TemplateRun := record fun fs =>
  TemplateRun.mk <$> defaulted ⟨"runId", "run_id"⟩ text "" fs
    <*> defaulted ⟨"workflowId", "workflow_id"⟩ text "" fs
    <*> defaulted ⟨"templateId", "template_id"⟩ text "" fs
    <*> defaulted (.same "sha") text "" fs
    <*> defaulted ⟨"runName", "run_name"⟩ text "" fs
    <*> defaulted (.same "status") text "" fs
    <*> defaulted ⟨"startedAt", "started_at"⟩ text "" fs
    <*> defaulted ⟨"completedAt", "completed_at"⟩ text "" fs
    <*> defaulted ⟨"monitoringLinks", "monitoring_links"⟩ (dictionary text) [] fs
    <*> defaulted (.same "provider") text "" fs

/-- The payload of a run. -/
def payload (r : TemplateRun) : Datum :=
  .object (entry "runId" (.text r.runId) ++ entry "workflowId" (.text r.workflowId)
    ++ entry "templateId" (.text r.templateId) ++ entry "sha" (.text r.sha)
    ++ entry "runName" (.text r.runName) ++ entry "status" (.text r.status)
    ++ entry "startedAt" (.text r.startedAt) ++ entry "completedAt" (.text r.completedAt)
    ++ entry "monitoringLinks" (ofDictionary r.monitoring)
    ++ entry "provider" (.text r.provider))

end TemplateRun

namespace RunList

/-- The name of the schema. -/
def schema : String := "WireTemplateRunHistoryResponse"

/-- Reads a listing of runs. -/
def read : Datum → Reading RunList := record fun fs =>
  RunList.mk <$> defaulted (.same "runs") (array TemplateRun.read) [] fs
    <*> defaulted (.same "count") signed32 default fs

/-- The payload of a listing of runs. -/
def payload (l : RunList) : Datum :=
  .object (entry "runs" (.array (l.runs.map TemplateRun.payload))
    ++ entry "count" (narrow l.count))

end RunList

end Trialnet.Wire
