import Trialnet.Workflow.Basic

/-!
# Templates

A template is a launch that the service stores under a name, to be run again for other
commits.
-/

namespace Trialnet

/-- A stored launch. -/
structure Template where
  id : String
  launch : Launch
  description : String := ""
  createdAt : String := ""
  createdBy : String := ""
  runCount : Int := 0
  deriving DecidableEq

/-- One line of a listing of templates. -/
structure TemplateSummary where
  id : String
  description : String := ""
  createdAt : String := ""
  runCount : Int := 0
  deriving DecidableEq

/-- A request to run a template for a commit. -/
structure TemplateExecution where
  templateId : String
  sha : String
  runName : Option String := none
  deriving DecidableEq

/-- A past run of a template. -/
structure TemplateRun where
  runId : String
  workflowId : String
  templateId : String
  sha : String := ""
  runName : String := ""
  phase : Phase := .unknown
  startedAt : String := ""
  completedAt : String := ""
  monitoring : List (String × String) := []
  provider : String := ""
  deriving DecidableEq

end Trialnet
