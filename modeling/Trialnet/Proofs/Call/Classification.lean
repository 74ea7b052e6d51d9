import Trialnet.Proofs.Call.Requests
import Trialnet.Proofs.Json.Nesting
import Trialnet.Proofs.Launch.Decoding

/-!
# What comes of a reply

A call that has been sent ends in an answer if the reply has status 200 and its body is JSON that
fits the schema of the method, and in an error of the call otherwise.  The error names the method,
and its code tells what became of the request.  For a status other than 200 the code and the wording
are those that the body describes, if it describes an error; `Reply.Explains` says what they are
otherwise.

This is so as long as the texts that are read load: the body, and the texts in a launch that comes
with the payload.  If one of them does not, the call ends in the reader's error, which is no error
of the call: `outcome_of_reply`.
-/

namespace Trialnet

namespace Reply

/-! ### Answers that are errors -/

/-- The body describes an error by a code and a text: it is a JSON object with a message that is
neither null, false, zero nor empty. -/
inductive Describes (body : String) : String → String → Prop where
  | coded {fields : Fields} {message code : Datum} (isText : Json.IsTextOf body (.object fields))
    (lookup_message : fields.lookup "message" = some message) (truthy : message.isTruthy = true)
    (lookup_code : fields.lookup "code" = some code) : Describes body code.display message.display
  | uncoded {fields : Fields} {message : Datum} (isText : Json.IsTextOf body (.object fields))
    (lookup_message : fields.lookup "message" = some message) (truthy : message.isTruthy = true)
    (lookup_code : fields.lookup "code" = none) : Describes body "unknown" message.display

/-- The code and the text of an answer that is an error: what the body describes, or else the
first of the body, the reason and the status that is not empty. -/
inductive Explains (status : Int) (body reason : String) : String → String → Prop where
  | described {code text : String} (describes : Describes body code text) :
    Explains status body reason code text
  | body (undescribed : ∀ code text, ¬ Describes body code text) (body_ne : body ≠ "") :
    Explains status body reason "unknown" body
  | reason (undescribed : ∀ code text, ¬ Describes body code text) (body_eq : body = "")
    (reason_ne : reason ≠ "") : Explains status body reason "unknown" reason
  | status (undescribed : ∀ code text, ¬ Describes body code text) (body_eq : body = "")
    (reason_eq : reason = "") :
    Explains status body reason "unknown" ("HTTP " ++ Numeral.text status)

theorem Describes.unique {body code text code' text' : String} (h : Describes body code text)
    (h' : Describes body code' text') : code = code' ∧ text = text' := by
  cases h with
  | coded htext hmessage _ hcode =>
    cases h' with
    | coded htext' hmessage' _ hcode' =>
      obtain rfl := Datum.object.inj (htext.unique htext')
      obtain rfl := Option.some.inj (hmessage.symm.trans hmessage')
      obtain rfl := Option.some.inj (hcode.symm.trans hcode')
      exact ⟨rfl, rfl⟩
    | uncoded htext' _ _ hcode' =>
      obtain rfl := Datum.object.inj (htext.unique htext')
      cases hcode.symm.trans hcode'
  | uncoded htext hmessage _ hcode =>
    cases h' with
    | coded htext' _ _ hcode' =>
      obtain rfl := Datum.object.inj (htext.unique htext')
      cases hcode.symm.trans hcode'
    | uncoded htext' hmessage' _ hcode' =>
      obtain rfl := Datum.object.inj (htext.unique htext')
      obtain rfl := Option.some.inj (hmessage.symm.trans hmessage')
      exact ⟨rfl, rfl⟩

variable {levels : Nat} {body : String}

/-- The reader of descriptions finds what a body describes. -/
theorem describes_of_described? {code text : String}
    (h : described? levels body = .ok (some (code, text))) : Describes body code text := by
  obtain ⟨verdict, hread, h⟩ := bind_eq_ok.1 h
  split at h
  · rename_i fields
    have htext := Json.isTextOf_of_read hread
    split at h
    · rename_i message hmessage
      split at h
      · rename_i htruthy
        obtain ⟨rfl, rfl⟩ := Prod.mk.inj (Option.some.inj (Except.ok.inj h))
        cases hcode : fields.lookup "code" with
        | none => exact .uncoded htext hmessage htruthy hcode
        | some code => exact .coded htext hmessage htruthy hcode
      · cases h
    · cases h
  · cases h

/-- The reader of descriptions misses none in a body that loads. -/
theorem Describes.described?_eq (h : Json.Loads levels body) {code text : String}
    (hdescribes : Describes body code text) :
    described? levels body = .ok (some (code, text)) := by
  cases hdescribes with
  | coded htext hmessage htruthy hcode =>
    rw [described?, htext.read_of_loads h]
    simp only [bind, Except.bind, hmessage, htruthy, if_true, hcode, Option.map_some,
      Option.getD_some]
    rfl
  | uncoded htext hmessage htruthy hcode =>
    rw [described?, htext.read_of_loads h]
    simp only [bind, Except.bind, hmessage, htruthy, if_true, hcode, Option.map_none,
      Option.getD_none, unknownCode]
    rfl

theorem exists_described?_iff :
    (∃ found, described? levels body = .ok found) ↔ Json.Loads levels body := by
  constructor
  · rintro ⟨found, h⟩
    obtain ⟨verdict, hread, -⟩ := bind_eq_ok.1 h
    exact Json.loads_of_read hread
  · intro h
    obtain ⟨verdict, hread⟩ := Json.loads_iff.1 h
    rw [described?, hread]
    -- each of the ways to read a description ends in one or in none
    simp only [bind, Except.bind]
    split
    · split
      · split <;> exact ⟨_, rfl⟩
      · exact ⟨_, rfl⟩
    · exact ⟨_, rfl⟩

/-- A body that loads explains the error, with the reason and the status. -/
theorem exists_errorDetails (h : Json.Loads levels body) (status : Int) (reason : String) :
    ∃ code text, errorDetails levels status body reason = .ok (code, text)
      ∧ Explains status body reason code text := by
  obtain ⟨found, hfound⟩ := exists_described?_iff.2 h
  rw [errorDetails, hfound]
  cases found with
  | some details => exact ⟨_, _, rfl, .described (describes_of_described? hfound)⟩
  | none =>
    have hnone : ∀ code text, ¬ Describes body code text := by
      intro code text hdescribes
      rw [hdescribes.described?_eq h] at hfound
      cases hfound
    refine ⟨_, _, rfl, ?_⟩
    by_cases hbody : body = ""
    · by_cases hreason : reason = ""
      · simp only [hbody, hreason, ne_eq, not_true_eq_false, if_false]
        exact .status (hbody ▸ hnone) rfl rfl
      · simp only [hbody, hreason, ne_eq, not_true_eq_false, not_false_eq_true, if_false, if_true]
        exact .reason (hbody ▸ hnone) rfl hreason
    · simp only [hbody, ne_eq, not_false_eq_true, if_true]
      exact .body hnone hbody

theorem exists_errorDetails_eq_error (h : ¬ Json.Loads levels body) (status : Int)
    (reason : String) : ∃ cause, errorDetails levels status body reason = .error cause := by
  obtain ⟨cause, hcause⟩ := not_exists_eq_ok_iff.1 (mt exists_described?_iff.1 h)
  exact ⟨cause, by rw [errorDetails, hcause]; rfl⟩

/-! ### Replies -/

/-- The reply delivers a payload: its status is 200, and the payload is the JSON of its body. -/
inductive Delivers : Reply → Datum → Prop where
  | success {status : Int} {body reason : String} {d : Datum} (status_eq : status = 200)
    (isText : Json.IsTextOf body d) : Delivers (.answered status body reason) d

theorem Delivers.unique {reply : Reply} {d d' : Datum} (h : reply.Delivers d)
    (h' : reply.Delivers d') : d = d' := by
  obtain ⟨-, htext⟩ := h
  obtain ⟨-, htext'⟩ := h'
  exact htext.unique htext'

/-- The body of the reply loads, if it has one. -/
def Loads (levels : Nat) : Reply → Prop
  | .answered _ body _ => Json.Loads levels body
  | .failed .. | .crashed _ => True

/-- The error that a reply amounts to if it gives no answer, by its code and its wording. -/
inductive Signals : Reply → CallError → Prop where
  | timeout {reason : String} {e : CallError} (code_eq : e.code? = some "deadline_exceeded") :
    Signals (.failed .timeout reason) e
  | connection {reason : String} {e : CallError} (code_eq : e.code? = some "unavailable") :
    Signals (.failed .connection reason) e
  | other {reason : String} {e : CallError} (code_eq : e.code? = some "unknown") :
    Signals (.failed .other reason) e
  | success {status : Int} {body reason : String} {e : CallError} (status_eq : status = 200)
    (code_eq : e.code? = some "internal") : Signals (.answered status body reason) e
  | refused {status : Int} {body reason code : String} {e : CallError} (status_ne : status ≠ 200)
    (code_eq : e.code? = some code) (explains : Explains status body reason code e.message) :
    Signals (.answered status body reason) e

/-- A payload that is delivered is taken as it is, and leaves no record. -/
theorem Delivers.payload_eq {s : Client} {reply : Reply} {d : Datum} (h : reply.Delivers d)
    (hloads : reply.Loads s.levels) (method : String) :
    reply.payload s method = ⟨.ok d, []⟩ := by
  obtain ⟨hstatus, htext⟩ := h
  rw [payload, if_neg (not_not_intro (show _ = Reply.success from hstatus)),
    htext.read_of_loads hloads]

/-- A body that does not load is not looked at any further, whatever the status. -/
theorem payload_of_not_loads {s : Client} {reply : Reply} (h : ¬ reply.Loads s.levels)
    (method : String) : ∃ cause, reply.payload s method = ⟨.error (.tooDeep cause), []⟩ := by
  cases reply with
  | crashed text => exact absurd trivial h
  | failed failure reason => exact absurd trivial h
  | answered status body reason =>
    rw [payload]
    split
    · obtain ⟨cause, hcause⟩ := exists_errorDetails_eq_error h status reason
      exact ⟨cause, by rw [hcause]⟩
    · obtain ⟨cause, hcause⟩ := Json.not_loads_iff.1 h
      exact ⟨cause, by rw [hcause]⟩

/-- A reply that loads delivers a payload, or else it amounts to an error of the call. -/
theorem payload_cases {s : Client} {reply : Reply} (h : ∀ text, reply ≠ .crashed text)
    (hloads : reply.Loads s.levels) (method : String) :
    (∃ d, reply.Delivers d ∧ (reply.payload s method).value = .ok d)
      ∨ ((∀ d, ¬ reply.Delivers d) ∧ ∃ e, (reply.payload s method).value = .error (.call e)
          ∧ e.method? = some method ∧ reply.Signals e) := by
  cases reply with
  | crashed text => exact absurd rfl (h text)
  | failed failure reason =>
    have hnone : ∀ d, ¬ (Reply.failed failure reason).Delivers d := by
      intro d hd
      cases hd
    refine Or.inr ⟨hnone, ?_⟩
    cases failure with
    | timeout => exact ⟨_, rfl, rfl, .timeout rfl⟩
    | connection => exact ⟨_, rfl, rfl, .connection rfl⟩
    | other => exact ⟨_, rfl, rfl, .other rfl⟩
  | answered status body reason =>
    rw [payload]
    by_cases hstatus : status = success
    · rw [if_neg (not_not_intro hstatus)]
      obtain ⟨verdict, hread⟩ := Json.loads_iff.1 hloads
      rw [hread]
      cases verdict with
      | ok d => exact Or.inl ⟨d, .success hstatus (Json.isTextOf_of_read hread), rfl⟩
      | error fault =>
        refine Or.inr ⟨?_, _, rfl, rfl, .success hstatus rfl⟩
        rintro d ⟨-, htext⟩
        rw [htext.read_of_loads hloads] at hread
        cases Except.ok.inj hread
    · rw [if_pos hstatus]
      obtain ⟨code, text, hdetails, hexplains⟩ := exists_errorDetails hloads status reason
      rw [hdetails]
      refine Or.inr ⟨?_, _, rfl, rfl, .refused hstatus rfl hexplains⟩
      rintro d ⟨hd, -⟩
      exact hstatus hd

end Reply

namespace Service

open Payload

/-! ### Schemas -/

/-- The payload fits the schema of the replies to a call. -/
def Call.Fits : Call → Datum → Prop
  | .createWorkflow _, d | .runLoadTest .., d | .cancelWorkflow _, d | .signalWorkflow .., d
  | .shutDown _, d | .executeTemplate _, d => ∃ w, Wire.Receipt.read d = .ok w
  | .getWorkflow _, d => ∃ w, Wire.Workflow.read d = .ok w
  | .listWorkflows .., d => ∃ w, Wire.WorkflowList.read d = .ok w
  | .createTemplate _, d | .updateTemplate _, d | .deleteTemplate _, d =>
    ∃ w, Wire.TemplateReceipt.read d = .ok w
  | .getTemplate _, d => ∃ w, Wire.Template.read d = .ok w
  | .listTemplates .., d => ∃ w, Wire.TemplateList.read d = .ok w
  | .runHistory .., d => ∃ w, Wire.RunList.read d = .ok w

/-- The texts in the launch that a payload brings load.  Only a workflow and a template bring
one. -/
def Call.Loads (levels : Nat) : Call → Datum → Prop
  | .getWorkflow _, d => ∀ w, Wire.Workflow.read d = .ok w → w.Loads levels
  | .getTemplate _, d => ∀ w, Wire.Template.read d = .ok w → w.Loads levels
  | _, _ => True

/-- The payload fits the schema of the replies to a call, and the answer is what it is decoded
as. -/
def Call.Accepts (levels : Nat) : Call → Datum → Answer → Prop
  | .createWorkflow _, d, a | .runLoadTest .., d, a | .cancelWorkflow _, d, a
  | .signalWorkflow .., d, a | .shutDown _, d, a | .executeTemplate _, d, a =>
    ∃ w, Wire.Receipt.read d = .ok w ∧ a = .receipt (.decode w)
  | .getWorkflow _, d, a =>
    ∃ w x, Wire.Workflow.read d = .ok w ∧ Workflow.decode levels w = .ok x ∧ a = .workflow x.value
  | .listWorkflows .., d, a =>
    ∃ w, Wire.WorkflowList.read d = .ok w
      ∧ a = .workflows (w.workflows.map WorkflowSummary.decode) w.count.val
  | .createTemplate _, d, a | .updateTemplate _, d, a =>
    ∃ w, Wire.TemplateReceipt.read d = .ok w ∧ a = .templateId w.id
  | .getTemplate _, d, a =>
    ∃ w x, Wire.Template.read d = .ok w ∧ Template.decode levels w = .ok x ∧ a = .template x.value
  | .listTemplates .., d, a =>
    ∃ w, Wire.TemplateList.read d = .ok w
      ∧ a = .templates (w.templates.map TemplateSummary.decode) w.count.val
  | .deleteTemplate _, d, a => ∃ w, Wire.TemplateReceipt.read d = .ok w ∧ a = .nothing
  | .runHistory .., d, a =>
    ∃ w, Wire.RunList.read d = .ok w ∧ a = .runs (w.runs.map TemplateRun.decode) w.count.val

/-- What a call makes of a payload: an answer that the payload stands for, the error of the reader,
or a report that it does not fit. -/
inductive Call.Reads (levels : Nat) (c : Call) (d : Datum) :
    Except Report (Except Json.TooDeep (Logged Answer)) → Prop where
  | answer {r : Logged Answer} (fits : c.Fits d) (loads : c.Loads levels d)
    (accepts : c.Accepts levels d r.value) : Reads levels c d (.ok (.ok r))
  | tooDeep {cause : Json.TooDeep} (fits : c.Fits d) (deep : ¬ c.Loads levels d) :
    Reads levels c d (.ok (.error cause))
  | misfit {report : Report} (unfit : ¬ c.Fits d) : Reads levels c d (.error report)

variable {levels : Nat}

/-- An operation that reads its replies by a schema and decodes them. -/
theorem reads_accept_map {α β : Type} {op : Operation β} {schema : String}
    {read : Datum → Reading α} {decode : Nat → α → Except Json.TooDeep (Logged β)}
    (hop : op.accept = accepting schema read decode) {f : β → Answer} {c : Call} {d : Datum}
    (hfits : c.Fits d ↔ ∃ w, read d = .ok w)
    (hloads : c.Loads levels d ↔ ∀ w, read d = .ok w → ∃ x, decode levels w = .ok x)
    (haccepts : ∀ a, c.Accepts levels d a
      ↔ ∃ w x, read d = .ok w ∧ decode levels w = .ok x ∧ a = f x.value) :
    c.Reads levels d ((op.map f).accept levels d) := by
  have haccept : (op.map f).accept levels d = (((read d).toExcept schema).map (decode levels)).map
      fun decoded => decoded.map fun result => f <$> result := by
    simp only [Operation.map, hop]
    rfl
  rw [haccept]
  cases hread : read d with
  | bad complaints =>
    refine .misfit fun h => ?_
    obtain ⟨w, hw⟩ := hfits.1 h
    rw [hread] at hw
    cases hw
  | ok w =>
    have hfit : c.Fits d := hfits.2 ⟨w, hread⟩
    cases hdecode : decode levels w with
    | error cause =>
      have hdeep : ¬ c.Loads levels d := by
        intro h
        obtain ⟨x, hx⟩ := hloads.1 h w hread
        rw [hdecode] at hx
        cases hx
      simp only [Reading.toExcept_ok, Except.map, hdecode]
      exact .tooDeep hfit hdeep
    | ok x =>
      have hload : c.Loads levels d := hloads.2 fun w' hw' => by
        obtain rfl := Reading.ok.inj (hread.symm.trans hw')
        exact ⟨x, hdecode⟩
      simp only [Reading.toExcept_ok, Except.map, hdecode]
      exact .answer hfit hload ((haccepts _).2 ⟨w, x, hread, hdecode, rfl⟩)

/-- The same for a decoder that meets no texts. -/
theorem reads_accept_map_plainly {α β : Type} {op : Operation β} {schema : String}
    {read : Datum → Reading α} {g : α → β} (hop : op.accept = accepting schema read (plainly g))
    {f : β → Answer} {c : Call} {d : Datum} (hfits : c.Fits d ↔ ∃ w, read d = .ok w)
    (hloads : c.Loads levels d)
    (haccepts : ∀ a, c.Accepts levels d a ↔ ∃ w, read d = .ok w ∧ a = f (g w)) :
    c.Reads levels d ((op.map f).accept levels d) := by
  refine reads_accept_map hop hfits (iff_of_true hloads fun w _ => ⟨_, rfl⟩) fun a => ?_
  rw [haccepts]
  constructor
  · rintro ⟨w, hw, rfl⟩
    exact ⟨w, _, hw, rfl, rfl⟩
  · rintro ⟨w, x, hw, hx, rfl⟩
    obtain rfl := Except.ok.inj hx
    exact ⟨w, hw, rfl⟩

theorem reads_accept (levels : Nat) (c : Call) (d : Datum) :
    c.Reads levels d (c.operation.accept levels d) := by
  cases c with
  | getWorkflow =>
    exact reads_accept_map rfl Iff.rfl
      (forall₂_congr fun _ _ => Workflow.exists_decode_iff.symm) fun _ => Iff.rfl
  | getTemplate =>
    exact reads_accept_map rfl Iff.rfl
      (forall₂_congr fun _ _ => Template.exists_decode_iff.symm) fun _ => Iff.rfl
  | createWorkflow | runLoadTest | listWorkflows | cancelWorkflow | signalWorkflow
  | shutDown | createTemplate | updateTemplate | listTemplates | deleteTemplate
  | executeTemplate | runHistory =>
    exact reads_accept_map_plainly rfl Iff.rfl trivial fun _ => Iff.rfl

/-- A payload that does not fit brings no launch. -/
theorem Call.loads_of_not_fits {c : Call} {d : Datum} (h : ¬ c.Fits d) : c.Loads levels d := by
  cases c with
  | getWorkflow => exact fun w hw => absurd ⟨w, hw⟩ h
  | getTemplate => exact fun w hw => absurd ⟨w, hw⟩ h
  | _ => trivial

/-! ### Outcomes -/

theorem outcome_perform {α : Type} {op : Operation α} {body : Datum}
    (h : op.request.value = .ok body) (s : Client) (reply : Reply) :
    (op.perform s reply).outcome = (op.conclude s reply).value := by
  rw [Operation.perform, h]

/-- All that a call reads of a reply loads: its body, and the texts in the launch that a payload
brings. -/
structure Call.LoadsReply (levels : Nat) (c : Call) (reply : Reply) : Prop where
  body : reply.Loads levels
  launch : ∀ d, reply.Delivers d → c.Loads levels d

theorem Call.LoadsReply.of_delivers {c : Call} {reply : Reply} {d : Datum}
    (hbody : reply.Loads levels) (hdelivers : reply.Delivers d) (h : c.Loads levels d) :
    c.LoadsReply levels reply :=
  ⟨hbody, fun _ hd' => hdelivers.unique hd' ▸ h⟩

variable {s : Client} {c : Call} {reply : Reply}

/-- A text that does not load ends a call in the reader's error. -/
theorem value_conclude_of_not_loads (hreply : ∀ text, reply ≠ .crashed text)
    (h : ¬ c.LoadsReply s.levels reply) :
    ∃ cause, (c.operation.conclude s reply).value = .error (.tooDeep cause) := by
  rw [Operation.conclude, Logged.value_bind]
  by_cases hbody : reply.Loads s.levels
  · rcases Reply.payload_cases hreply hbody c.operation.method with
      ⟨d, hdelivers, hpayload⟩ | ⟨hnone, -⟩
    · simp only [hpayload]
      have hdeep : ¬ c.Loads s.levels d := fun hloads => h (.of_delivers hbody hdelivers hloads)
      have hreads := reads_accept s.levels c d
      generalize c.operation.accept s.levels d = verdict at hreads
      cases hreads with
      | answer _ hloads => exact absurd hloads hdeep
      | tooDeep => exact ⟨_, rfl⟩
      | misfit hunfit => exact absurd (Call.loads_of_not_fits hunfit) hdeep
    · exact absurd ⟨hbody, fun d hd => absurd hd (hnone d)⟩ h
  · obtain ⟨cause, hpayload⟩ := Reply.payload_of_not_loads hbody c.operation.method
    rw [hpayload]
    exact ⟨cause, rfl⟩

/-- Take a call that has been sent and that does not fail outside the client, and let all that it
reads of the reply load.  Then it ends in one of two ways.  Either the reply delivers a payload that
fits the schema, and the call gives the answer that the payload is decoded as; or it does not, and
the call ends in an error that names the method and has the code, and for another status also the
wording, that the reply amounts to.  If something does not load, the call ends in neither way, but
in the error of the reader. -/
theorem outcome_of_reply {body : Datum} (hbody : c.Sends body)
    (hreply : ∀ text, reply ≠ .crashed text) (s : Client) :
    (c.LoadsReply s.levels reply →
      (∃ d a, reply.Delivers d ∧ c.Fits d ∧ c.Accepts s.levels d a
          ∧ (c.operation.perform s reply).outcome = .ok a)
        ∨ ((∀ d, reply.Delivers d → ¬ c.Fits d)
          ∧ ∃ e, (c.operation.perform s reply).outcome = .error (.call e)
            ∧ e.method? = some c.method ∧ reply.Signals e))
      ∧ (¬ c.LoadsReply s.levels reply →
        ∃ cause, (c.operation.perform s reply).outcome = .error (.tooDeep cause)) := by
  rw [outcome_perform (request_eq_ok.2 hbody)]
  refine ⟨fun hloads => ?_, value_conclude_of_not_loads hreply⟩
  rw [Operation.conclude, Logged.value_bind, ← method_operation]
  rcases Reply.payload_cases hreply hloads.body c.operation.method with
    ⟨d, hdelivers, hpayload⟩ | ⟨hnone, e, hpayload, hmethod, hsignals⟩
  · simp only [hpayload]
    have hreads := reads_accept s.levels c d
    generalize c.operation.accept s.levels d = verdict at hreads
    cases hreads with
    | answer hfits _ haccepts => exact Or.inl ⟨d, _, hdelivers, hfits, haccepts, rfl⟩
    | tooDeep _ hdeep => exact absurd (hloads.launch d hdelivers) hdeep
    | @misfit report hunfit =>
      -- the payload is the only one that is delivered, and it does not fit
      refine Or.inr ⟨fun d' hd' => hdelivers.unique hd' ▸ hunfit,
        .misfit c.operation.method report, rfl, rfl, ?_⟩
      obtain ⟨hstatus, -⟩ := hdelivers
      exact .success hstatus rfl
  · rw [hpayload]
    exact Or.inr ⟨fun d hd => absurd hd (hnone d), e, rfl, hmethod, hsignals⟩

/-- A service that is overloaded and says so. -/
theorem outcome_overloaded : ∃ e,
    ((Call.getWorkflow "w").operation.perform {}
        (.answered 503 "\x7b\"code\":\"unavailable\",\"message\":\"try later\"\x7d" "")).outcome
      = .error (.call e)
    ∧ e.method? = some "GetWorkflow" ∧ e.code? = some "unavailable" ∧ e.message = "try later" := by
  have hdescribed : Reply.described? Json.defaultLevels
      "\x7b\"code\":\"unavailable\",\"message\":\"try later\"\x7d"
        = .ok (some ("unavailable", "try later")) := by
    decide +kernel
  have hbody := Reply.exists_described?_iff.1 ⟨_, hdescribed⟩
  have hdescribes := Reply.describes_of_described? hdescribed
  generalize "\x7b\"code\":\"unavailable\",\"message\":\"try later\"\x7d" = body
    at hbody hdescribes ⊢
  have hreply : ∀ text, Reply.answered 503 body "" ≠ .crashed text := fun _ h => by cases h
  have hloads : (Call.getWorkflow "w").LoadsReply Json.defaultLevels (.answered 503 body "") :=
    ⟨hbody, fun d ⟨hstatus, _⟩ => by cases hstatus⟩
  rcases (outcome_of_reply (.getWorkflow : Call.Sends (.getWorkflow "w") _) hreply {}).1 hloads with
    ⟨d, a, hdelivers, -⟩ | ⟨-, e, houtcome, hmethod, hsignals⟩
  · obtain ⟨hstatus, -⟩ := hdelivers
    cases hstatus
  refine ⟨e, houtcome, hmethod, ?_⟩
  cases hsignals with
  | success hstatus => cases hstatus
  | refused _ hcode hexplains =>
    generalize e.message = text at hexplains ⊢
    cases hexplains with
    | described hdescribes' =>
      obtain ⟨rfl, htext⟩ := hdescribes'.unique hdescribes
      exact ⟨hcode, htext⟩
    | body hundescribed => exact absurd hdescribes (hundescribed _ _)
    | reason hundescribed => exact absurd hdescribes (hundescribed _ _)
    | status hundescribed => exact absurd hdescribes (hundescribed _ _)

/-- A workflow whose report is a hundred thousand opening brackets makes the call end in the error
of the reader, and so does a report of another status. -/
theorem outcome_brackets :
    let outcome (status : Int) :=
      ((Call.getWorkflow "wf-1").operation.perform {}
        (.answered status (Json.brackets 100000) "OK")).outcome
    (∃ cause, outcome 200 = .error (.tooDeep cause))
      ∧ ∃ cause, outcome 500 = .error (.tooDeep cause) := by
  have hdeep : ∀ status, ∃ cause, ((Call.getWorkflow "wf-1").operation.perform {}
      (.answered status (Json.brackets 100000) "OK")).outcome = .error (.tooDeep cause) := by
    intro status
    rw [outcome_perform (request_eq_ok.2 .getWorkflow)]
    refine value_conclude_of_not_loads (fun _ h => by cases h) fun h => ?_
    exact Json.not_loads_brackets (show Json.defaultLevels < 100000 by decide) h.body
  exact ⟨hdeep 200, hdeep 500⟩

end Service

end Trialnet
