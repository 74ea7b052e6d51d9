import Trialnet.Template.Basic
import Trialnet.Wire.Template
import Trialnet.Launch.Wire

/-!
# Templates to and from the wire

A template is its launch together with what the service keeps about it.
-/

namespace Trialnet

namespace Template

/-- The wire form of a template that is to be stored. -/
def encode (t : Template) : Logged (Except EncodeError Wire.TemplateDraft) := do
  let launch ← t.launch.encode
  return launch.map fun l => { id := t.id, description := t.description, launch := l }

/-- The launch of a template that holds none. -/
def emptyLaunch : Launch := { repo := "", sha := "", chain := Launch.emptyChain }

/-- The launch of a wire form, if it has one. -/
def decodeLaunch (levels : Nat) : Option Wire.Launch → Except Json.TooDeep (Logged Launch)
  | some l => Launch.decode levels l
  | none => .ok (pure emptyLaunch)

/-- The template of a wire form whose launch has been decoded. -/
def decodeRest (w : Wire.Template) (launch : Launch) : Template :=
  { id := w.id, launch, description := w.description
    createdAt := w.createdAt, createdBy := w.createdBy, runCount := w.runCount.val }

/-- The template of a wire form. -/
def decode (levels : Nat) (w : Wire.Template) : Except Json.TooDeep (Logged Template) := do
  let launch ← decodeLaunch levels w.launch
  return decodeRest w <$> launch

end Template

/-- The line of a listing of a wire form. -/
def TemplateSummary.decode (w : Wire.TemplateSummary) : TemplateSummary :=
  ⟨w.id, w.description, w.createdAt, w.runCount.val⟩

/-- The wire form of a request to run a template. -/
def TemplateExecution.encode (e : TemplateExecution) : Wire.TemplateExecution :=
  { id := e.templateId, sha := e.sha, runName := e.runName.getD "" }

/-- The run of a wire form. -/
def TemplateRun.decode (w : Wire.TemplateRun) : TemplateRun :=
  { runId := w.runId, workflowId := w.workflowId, templateId := w.templateId
    sha := w.sha, runName := w.runName, phase := .ofReport w.status
    startedAt := w.startedAt, completedAt := w.completedAt
    monitoring := w.monitoring, provider := w.provider }

end Trialnet
