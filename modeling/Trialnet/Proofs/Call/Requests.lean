import Trialnet.Proofs.Launch.Encoding
import Trialnet.Proofs.Launch.Validity
import Trialnet.Call.Service

/-!
# What a call sends

A call asks for one method of the service, and its body is the payload of the request that its
arguments make.  A submission has a body only if what is submitted is valid and has a wire form,
and the request for a page only if the numbers of the page fit into 32 bits; the other requests
always have one.  `Call.Sends` says so without the operations, and `request_eq_ok` shows that
they prepare just these bodies.
-/

namespace Trialnet.Service

open Payload

/-- The method of the service that a call asks for. -/
def Call.method : Call → String
  | .createWorkflow _ => "CreateWorkflow"
  | .runLoadTest .. => "RunLoadTest"
  | .getWorkflow _ => "GetWorkflow"
  | .listWorkflows .. => "ListWorkflows"
  | .cancelWorkflow _ => "CancelWorkflow"
  | .signalWorkflow .. | .shutDown _ => "SignalWorkflow"
  | .createTemplate _ => "CreateWorkflowTemplate"
  | .updateTemplate _ => "UpdateWorkflowTemplate"
  | .getTemplate _ => "GetWorkflowTemplate"
  | .listTemplates .. => "ListWorkflowTemplates"
  | .deleteTemplate _ => "DeleteWorkflowTemplate"
  | .executeTemplate _ => "ExecuteWorkflowTemplate"
  | .runHistory .. => "GetTemplateRunHistory"

/-- The body of a call, if it has one. -/
inductive Call.Sends : Call → Datum → Prop where
  | createWorkflow {l : Launch} {w : Wire.Launch} (valid : l.Valid) (encodes : l.EncodesTo w) :
    Sends (.createWorkflow l) w.payload
  | runLoadTest {id : String} {t : LoadTest} {w : Wire.LoadTest} (valid : t.Valid)
    (encodes : t.EncodesTo w) : Sends (.runLoadTest id t) (Wire.LoadTestRun.payload ⟨id, w⟩)
  | getWorkflow {id : String} : Sends (.getWorkflow id) (Wire.WorkflowRef.payload ⟨id⟩)
  | listWorkflows {limit offset : Int} {p : Wire.Page} (limit_eq : p.limit.val = limit)
    (offset_eq : p.offset.val = offset) : Sends (.listWorkflows limit offset) p.payload
  | cancelWorkflow {id : String} : Sends (.cancelWorkflow id) (Wire.WorkflowRef.payload ⟨id⟩)
  | signalWorkflow {id signal : String} :
    Sends (.signalWorkflow id signal) (Wire.Signal.payload ⟨id, signal⟩)
  | shutDown {id : String} : Sends (.shutDown id) (Wire.Signal.payload ⟨id, "shutdown"⟩)
  | createTemplate {t : Template} {w : Wire.Launch} (valid : t.launch.Valid)
    (encodes : t.launch.EncodesTo w) :
    Sends (.createTemplate t) (Wire.TemplateDraft.payload ⟨t.id, t.description, w⟩)
  | updateTemplate {t : Template} {w : Wire.Launch} (valid : t.launch.Valid)
    (encodes : t.launch.EncodesTo w) :
    Sends (.updateTemplate t) (Wire.TemplateDraft.payload ⟨t.id, t.description, w⟩)
  | getTemplate {id : String} : Sends (.getTemplate id) (Wire.TemplateRef.payload ⟨id⟩)
  | listTemplates {limit offset : Int} {p : Wire.Page} (limit_eq : p.limit.val = limit)
    (offset_eq : p.offset.val = offset) : Sends (.listTemplates limit offset) p.payload
  | deleteTemplate {id : String} : Sends (.deleteTemplate id) (Wire.TemplateRef.payload ⟨id⟩)
  | executeTemplate {e : TemplateExecution} :
    Sends (.executeTemplate e)
      (Wire.TemplateExecution.payload ⟨e.templateId, e.sha, e.runName.getD ""⟩)
  | runHistory {id : String} {limit offset : Int} {p : Wire.RunPage} (id_eq : p.id = id)
    (limit_eq : p.limit.val = limit) (offset_eq : p.offset.val = offset) :
    Sends (.runHistory id limit offset) p.payload

/-! ### One request at a time -/

theorem encoded_eq_ok {α : Type} {payload : α → Datum} {x : Except EncodeError α} {body : Datum} :
    (encoded payload x).value = .ok body ↔ ∃ a, x = .ok a ∧ payload a = body := by
  rw [encoded, Logged.value_pure, mapError_eq_ok, map_eq_ok]

/-- A launch is sent if it is valid and has a wire form. -/
theorem request_createWorkflow {l : Launch} {body : Datum} :
    (createWorkflow l).request.value = .ok body
      ↔ l.Valid ∧ ∃ w, l.EncodesTo w ∧ w.payload = body := by
  rw [createWorkflow, ← Launch.check_eq_ok]
  cases l.check with
  | error cause =>
    constructor
    · intro h
      cases h
    · rintro ⟨h, -⟩
      cases h
  | ok =>
    simp only [Logged.value_bind, Logged.value_pure, mapError_eq_ok, map_eq_ok,
      Launch.encode_eq_ok, true_and]

/-- So is a template if its launch is. -/
theorem request_template {t : Template} {body : Datum} :
    (templateRequest t).value = .ok body
      ↔ t.launch.Valid ∧ ∃ w, t.launch.EncodesTo w
        ∧ Wire.TemplateDraft.payload ⟨t.id, t.description, w⟩ = body := by
  rw [templateRequest, ← Launch.check_eq_ok]
  cases t.launch.check with
  | error cause =>
    constructor
    · intro h
      cases h
    · rintro ⟨h, -⟩
      cases h
  | ok =>
    simp only [Template.encode, Logged.value_bind, Logged.value_pure, mapError_eq_ok, map_eq_ok,
      Launch.encode_eq_ok, true_and, exists_exists_and_eq_and]

/-- So is a load test by itself, which is sent as if it had not been made ready first. -/
theorem request_runLoadTest {id : String} {t : LoadTest} {body : Datum} :
    (runLoadTest id t).request.value = .ok body
      ↔ t.Valid ∧ ∃ w, t.EncodesTo w ∧ Wire.LoadTestRun.payload ⟨id, w⟩ = body := by
  rw [runLoadTest]
  cases hchecked : t.checked with
  | error cause =>
    constructor
    · intro h
      cases h
    · rintro ⟨hvalid, -⟩
      rw [LoadTest.checked_eq_ok.2 ⟨hvalid, rfl⟩] at hchecked
      cases hchecked
  | ok checked =>
    obtain ⟨hvalid, rfl⟩ := LoadTest.checked_eq_ok.1 hchecked
    simp only [encoded_eq_ok, LoadTest.encode_eq_ok, LoadTest.encodesTo_normalize, hvalid, true_and]

theorem page_eq_ok {schema : String} {limit offset : Int} {p : Wire.Page} :
    page schema limit offset = .ok p ↔ p.limit.val = limit ∧ p.offset.val = offset := by
  rw [page, Reading.fit_eq_ok, both_eq_ok]
  constructor
  · rintro ⟨x, y, hx, hy, rfl⟩
    exact ⟨hx, hy⟩
  · exact fun h => ⟨p.limit, p.offset, h.1, h.2, rfl⟩

theorem runPage_eq_ok {id : String} {limit offset : Int} {p : Wire.RunPage} :
    runPage id limit offset = .ok p
      ↔ p.id = id ∧ p.limit.val = limit ∧ p.offset.val = offset := by
  rw [runPage, Reading.fit_eq_ok, both_eq_ok]
  constructor
  · rintro ⟨x, y, hx, hy, rfl⟩
    exact ⟨rfl, hx, hy⟩
  · rintro ⟨rfl, hlimit, hoffset⟩
    exact ⟨p.limit, p.offset, hlimit, hoffset, rfl⟩

/-! ### Every call -/

theorem method_operation (c : Call) : c.operation.method = c.method := by
  cases c <;> rfl

/-- The operations prepare the bodies that the calls send, one case for each operation. -/
theorem request_eq_ok {c : Call} {body : Datum} :
    c.operation.request.value = .ok body ↔ c.Sends body := by
  constructor
  · intro h
    cases c with
    -- submissions, which are checked first
    | createWorkflow l =>
      obtain ⟨hvalid, w, hw, rfl⟩ := request_createWorkflow.1 h
      exact .createWorkflow hvalid hw
    | runLoadTest id t =>
      obtain ⟨hvalid, w, hw, rfl⟩ := request_runLoadTest.1 h
      exact .runLoadTest hvalid hw
    | createTemplate t =>
      obtain ⟨hvalid, w, hw, rfl⟩ := request_template.1 h
      exact .createTemplate hvalid hw
    | updateTemplate t =>
      obtain ⟨hvalid, w, hw, rfl⟩ := request_template.1 h
      exact .updateTemplate hvalid hw
    -- pages, whose numbers have to fit
    | listWorkflows limit offset =>
      obtain ⟨p, hp, rfl⟩ := encoded_eq_ok.1 h
      exact .listWorkflows (page_eq_ok.1 hp).1 (page_eq_ok.1 hp).2
    | listTemplates limit offset =>
      obtain ⟨p, hp, rfl⟩ := encoded_eq_ok.1 h
      exact .listTemplates (page_eq_ok.1 hp).1 (page_eq_ok.1 hp).2
    | runHistory id limit offset =>
      obtain ⟨p, hp, rfl⟩ := encoded_eq_ok.1 h
      obtain ⟨hid, hlimit, hoffset⟩ := runPage_eq_ok.1 hp
      exact .runHistory hid hlimit hoffset
    -- the rest, whose requests always exist
    | getWorkflow id => exact Except.ok.inj h ▸ .getWorkflow
    | cancelWorkflow id => exact Except.ok.inj h ▸ .cancelWorkflow
    | signalWorkflow id signal => exact Except.ok.inj h ▸ .signalWorkflow
    | shutDown id => exact Except.ok.inj h ▸ .shutDown
    | getTemplate id => exact Except.ok.inj h ▸ .getTemplate
    | deleteTemplate id => exact Except.ok.inj h ▸ .deleteTemplate
    | executeTemplate e => exact Except.ok.inj h ▸ .executeTemplate
  · intro h
    cases h with
    | createWorkflow hvalid hw => exact request_createWorkflow.2 ⟨hvalid, _, hw, rfl⟩
    | runLoadTest hvalid hw => exact request_runLoadTest.2 ⟨hvalid, _, hw, rfl⟩
    | createTemplate hvalid hw | updateTemplate hvalid hw =>
      exact request_template.2 ⟨hvalid, _, hw, rfl⟩
    | listWorkflows hlimit hoffset | listTemplates hlimit hoffset =>
      exact encoded_eq_ok.2 ⟨_, page_eq_ok.2 ⟨hlimit, hoffset⟩, rfl⟩
    | runHistory hid hlimit hoffset =>
      exact encoded_eq_ok.2 ⟨_, runPage_eq_ok.2 ⟨hid, hlimit, hoffset⟩, rfl⟩
    | getWorkflow | cancelWorkflow | signalWorkflow | shutDown | getTemplate | deleteTemplate
    | executeTemplate => rfl

end Trialnet.Service
