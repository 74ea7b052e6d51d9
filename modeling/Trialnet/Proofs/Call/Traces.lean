import Trialnet.Proofs.Call.Attempts
import Trialnet.Proofs.Call.Classification
import Trialnet.Proofs.Event.Errors

/-!
# What a call leaves in the log

A call that fails is to leave one error in the log, and any other call none.  Most failures do: a
request that gets no answer is recorded, and so is an answer of another status than 200.  But an
answer of status 200 whose body is no JSON, or whose payload does not fit the schema, makes the
call fail in silence.  `Call.Ends` lists the ways in which a call ends, each with the errors that
it leaves, and `isTraced_iff_not_misreads` says that these two are the only silent failures.  So a
session has recorded as many errors as calls have failed in it exactly if each call has left its
trace (`length_errors_session`).

What is done before sending and after the schema has been checked leaves warnings at most, so all
errors come from what is made of the reply.  A call that ends in the error of the reader, because a
text of the reply is nested too deeply, has not failed in this sense: that is no error of the call,
and nothing is recorded.
-/

namespace Trialnet

/-! ### Replies -/

namespace Reply

/-- The request is not answered, or answered by another status than 200: the error that the reply
amounts to, and the record of it. -/
inductive FailsWith (s : Client) (method : String) : Reply → CallError → Event → Prop where
  | timeout {reason : String} : FailsWith s method (.failed .timeout reason)
      (.timedOut method s.timeout) (.callTimedOut method s.timeout)
  | connection {reason : String} : FailsWith s method (.failed .connection reason)
      (.unreachable method reason) (.callUnreachable s.baseUrl reason)
  | other {reason : String} : FailsWith s method (.failed .other reason)
      (.failed method reason) (.callFailed method reason)
  | refused {status : Int} {body reason code text : String} (status_ne : status ≠ 200)
    (explains : Explains status body reason code text) :
    FailsWith s method (.answered status body reason)
      (.refused method code text) (.callRefused method status code text)

variable {s : Client} {method : String} {reply : Reply}

/-- The record is an error. -/
theorem FailsWith.errors_eq {e : CallError} {event : Event} (h : reply.FailsWith s method e event) :
    Event.errors [event] = [event] := by
  cases h <;> rfl

theorem exists_failsWith_of_failed (s : Client) (method : String) (failure : Failure)
    (reason : String) : ∃ e event, (Reply.failed failure reason).FailsWith s method e event
      ∧ (Reply.failed failure reason).payload s method = ⟨.error (.call e), [event]⟩ := by
  cases failure with
  | timeout => exact ⟨_, _, .timeout, rfl⟩
  | connection => exact ⟨_, _, .connection, rfl⟩
  | other => exact ⟨_, _, .other, rfl⟩

theorem exists_failsWith_of_status_ne {status : Int} (h : status ≠ 200) {body : String}
    (hloads : Json.Loads s.levels body) (method reason : String) :
    ∃ e event, (Reply.answered status body reason).FailsWith s method e event
      ∧ (Reply.answered status body reason).payload s method
        = ⟨.error (.call e), [event]⟩ := by
  obtain ⟨code, text, hdetails, hexplains⟩ := exists_errorDetails hloads status reason
  refine ⟨_, _, .refused h hexplains, ?_⟩
  rw [payload, if_pos (show status ≠ success from h), hdetails]

/-- A body of status 200 that is no JSON is an error that leaves no record. -/
theorem payload_of_notJson {status : Int} {body : String} {fault : Json.Fault}
    (hstatus : status = 200) (hread : Json.read s.levels body = .ok (.error fault))
    (method reason : String) : (Reply.answered status body reason).payload s method
      = ⟨.error (.call (.notJson method)), []⟩ := by
  rw [payload, if_neg (not_not_intro (show status = success from hstatus)), hread]

end Reply

namespace Operation

variable {α : Type} {op : Operation α} {s : Client} {reply : Reply}

theorem conclude_of_payload_error {e : Error} {log : List Event}
    (h : reply.payload s op.method = ⟨.error e, log⟩) : op.conclude s reply = ⟨.error e, log⟩ := by
  rw [conclude, h]
  exact congrArg (Logged.mk _) (List.append_nil log)

/-- A payload that does not fit its schema leaves no record either. -/
theorem conclude_of_misfit {d : Datum} {report : Payload.Report} (h : reply.Delivers d)
    (hloads : reply.Loads s.levels) (haccept : op.accept s.levels d = .error report) :
    op.conclude s reply = ⟨.error (.call (.misfit op.method report)), []⟩ := by
  rw [conclude, h.payload_eq hloads]
  simp only [bind, haccept]
  rfl

/-- Nor does one with a text that is nested too deeply. -/
theorem conclude_of_tooDeep {d : Datum} {cause : Json.TooDeep} (h : reply.Delivers d)
    (hloads : reply.Loads s.levels) (haccept : op.accept s.levels d = .ok (.error cause)) :
    op.conclude s reply = ⟨.error (.tooDeep cause), []⟩ := by
  rw [conclude, h.payload_eq hloads]
  simp only [bind, haccept]
  rfl

/-- One that fits it leaves what its decoder leaves. -/
theorem conclude_of_accept {d : Datum} {r : Logged α} (h : reply.Delivers d)
    (hloads : reply.Loads s.levels) (haccept : op.accept s.levels d = .ok (.ok r)) :
    op.conclude s reply = ⟨.ok r.value, r.log⟩ := by
  rw [conclude, h.payload_eq hloads]
  simp only [bind, haccept]
  exact congrArg (Logged.mk _) (List.append_nil r.log)

end Operation

namespace Service

open Logged (isErrorFree_pure)

/-! ### Before sending and after the schema -/

theorem isErrorFree_templateRequest (t : Template) : (templateRequest t).IsErrorFree := by
  rw [templateRequest]
  cases t.launch.check with
  | error cause => exact isErrorFree_pure _
  | ok => exact t.isErrorFree_encode.bind fun _ => isErrorFree_pure _

theorem isErrorFree_request (c : Call) : c.operation.request.IsErrorFree := by
  cases c with
  | createWorkflow l =>
    show (createWorkflow l).request.IsErrorFree
    rw [createWorkflow]
    cases l.check with
    | error cause => exact isErrorFree_pure _
    | ok => exact l.isErrorFree_encode.bind fun _ => isErrorFree_pure _
  | runLoadTest id t =>
    show (runLoadTest id t).request.IsErrorFree
    rw [runLoadTest]
    cases t.checked with
    | error cause => exact isErrorFree_pure _
    | ok checked => exact isErrorFree_pure _
  | createTemplate t | updateTemplate t => exact isErrorFree_templateRequest t
  | getWorkflow | listWorkflows | cancelWorkflow | signalWorkflow | shutDown | getTemplate
  | listTemplates | deleteTemplate | executeTemplate | runHistory => exact isErrorFree_pure _

variable {levels : Nat}

theorem isErrorFree_of_accept_map {α β : Type} {op : Operation β} {schema : String}
    {read : Datum → Payload.Reading α} {decode : Nat → α → Except Json.TooDeep (Logged β)}
    (hop : op.accept = accepting schema read decode)
    (hdecode : ∀ {w x}, decode levels w = .ok x → x.IsErrorFree) {f : β → Answer} {d : Datum}
    {r : Logged Answer} (h : (op.map f).accept levels d = .ok (.ok r)) : r.IsErrorFree := by
  obtain ⟨decoded, hdecoded, hr⟩ := map_eq_ok.1 h
  rw [hop] at hdecoded
  obtain ⟨w, -, rfl⟩ := map_eq_ok.1 hdecoded
  obtain ⟨x, hx, rfl⟩ := map_eq_ok.1 hr
  exact (hdecode hx).map

theorem isErrorFree_of_plainly {α β : Type} {g : α → β} {w : α} {x : Logged β}
    (h : plainly g levels w = .ok x) : x.IsErrorFree := by
  obtain rfl := Except.ok.inj h
  exact isErrorFree_pure _

theorem isErrorFree_of_accept {c : Call} {d : Datum} {r : Logged Answer}
    (h : c.operation.accept levels d = .ok (.ok r)) : r.IsErrorFree := by
  cases c with
  -- a workflow and a template come with a launch, which is decoded
  | getWorkflow => exact isErrorFree_of_accept_map rfl Workflow.isErrorFree_of_decode h
  | getTemplate => exact isErrorFree_of_accept_map rfl Template.isErrorFree_of_decode h
  | createWorkflow | runLoadTest | listWorkflows | cancelWorkflow | signalWorkflow | shutDown
  | createTemplate | updateTemplate | listTemplates | deleteTemplate | executeTemplate
  | runHistory => exact isErrorFree_of_accept_map rfl isErrorFree_of_plainly h

/-! ### How a call ends -/

/-- The answer has status 200 but means nothing: its body is no JSON, or its payload does not fit
the schema of the call. -/
inductive Call.Misreads (levels : Nat) (c : Call) : Reply → Prop where
  | notJson {status : Int} {body reason : String} {fault : Json.Fault}
    (status_eq : status = 200) (read : Json.read levels body = .ok (.error fault)) :
    Misreads levels c (.answered status body reason)
  | misfit {status : Int} {body reason : String} {d : Datum} (status_eq : status = 200)
    (read : Json.read levels body = .ok (.ok d)) (unfit : ¬ c.Fits d) :
    Misreads levels c (.answered status body reason)

/-- All that is read of a misread answer loads: its body, and there is no launch in it. -/
theorem Call.Misreads.loadsReply {c : Call} {reply : Reply} (h : c.Misreads levels reply) :
    c.LoadsReply levels reply := by
  cases h with
  | notJson _ hread =>
    have hbody := Json.loads_of_read hread
    refine ⟨hbody, ?_⟩
    rintro d ⟨-, htext⟩
    rw [htext.read_of_loads hbody] at hread
    cases Except.ok.inj hread
  | misfit hstatus hread hunfit =>
    exact .of_delivers (Json.loads_of_read hread) (.success hstatus (Json.isTextOf_of_read hread))
      (loads_of_not_fits hunfit)

/-- The ways in which a call ends, with the outcome and the errors in the log of each. -/
inductive Call.Ends (s : Client) (c : Call) (reply : Reply) (x : Exchange Answer) : Prop where
  /-- Nothing is sent. -/
  | unsent {cause : Error} (no_body : ∀ body, ¬ c.Sends body) (preparatory : cause.IsPreparatory)
    (outcome_eq : x.outcome = .error cause) (errors_eq : Event.errors x.log = [])
  /-- There is no answer, or one of another status than 200. -/
  | failed {body : Datum} {e : CallError} {event : Event} (sends : c.Sends body)
    (failsWith : reply.FailsWith s c.method e event) (outcome_eq : x.outcome = .error (.call e))
    (errors_eq : Event.errors x.log = [event])
  /-- There is an answer of status 200 that means nothing. -/
  | misread {body : Datum} {e : CallError} (sends : c.Sends body)
    (misreads : c.Misreads s.levels reply) (outcome_eq : x.outcome = .error (.call e))
    (errors_eq : Event.errors x.log = [])
  | answered {body d : Datum} {a : Answer} (sends : c.Sends body) (delivers : reply.Delivers d)
    (fits : c.Fits d) (accepts : c.Accepts s.levels d a) (outcome_eq : x.outcome = .ok a)
    (errors_eq : Event.errors x.log = [])
  /-- There is an answer with a text that is nested too deeply. -/
  | tooDeep {body : Datum} {cause : Json.TooDeep} (sends : c.Sends body)
    (deep : ¬ c.LoadsReply s.levels reply) (outcome_eq : x.outcome = .error (.tooDeep cause))
    (errors_eq : Event.errors x.log = [])
  /-- Sending fails outside the client. -/
  | crashed {body : Datum} {text : String} (sends : c.Sends body) (reply_eq : reply = .crashed text)
    (outcome_eq : x.outcome = .error (.foreign text)) (errors_eq : Event.errors x.log = [])

variable {s : Client} {c : Call} {reply : Reply} {body : Datum}

/-- What comes of the reply is what comes of the call, and so are the errors. -/
theorem perform_of_conclude {outcome : Except Error Answer} {log : List Event}
    (hrequest : c.operation.request.value = .ok body)
    (hconclude : c.operation.conclude s reply = ⟨outcome, log⟩) :
    (c.operation.perform s reply).outcome = outcome
      ∧ Event.errors (c.operation.perform s reply).log = Event.errors log := by
  have hfree : Event.errors c.operation.request.log = [] := isErrorFree_request c
  rw [Operation.perform, hrequest, hconclude]
  exact ⟨rfl, by rw [Event.errors_append, hfree, List.nil_append]⟩

theorem ends_of_failsWith {e : CallError} {event : Event}
    (hrequest : c.operation.request.value = .ok body)
    (hfails : reply.FailsWith s c.operation.method e event)
    (hpayload : reply.payload s c.operation.method = ⟨.error (.call e), [event]⟩) :
    c.Ends s reply (c.operation.perform s reply) := by
  obtain ⟨houtcome, herrors⟩ :=
    perform_of_conclude hrequest (Operation.conclude_of_payload_error hpayload)
  exact .failed (request_eq_ok.1 hrequest) (method_operation c ▸ hfails) houtcome
    (herrors.trans hfails.errors_eq)

theorem ends_of_notJson {status : Int} {text reason : String} {fault : Json.Fault}
    (hrequest : c.operation.request.value = .ok body) (hstatus : status = 200)
    (hread : Json.read s.levels text = .ok (.error fault)) :
    c.Ends s (.answered status text reason)
      (c.operation.perform s (.answered status text reason)) := by
  have hpayload := Reply.payload_of_notJson hstatus hread c.operation.method reason
  obtain ⟨houtcome, herrors⟩ :=
    perform_of_conclude hrequest (Operation.conclude_of_payload_error hpayload)
  exact .misread (request_eq_ok.1 hrequest) (.notJson hstatus hread) houtcome herrors

/-- A payload that is delivered is misread if it does not fit the schema, and else it is decoded
unless a text in it is nested too deeply. -/
theorem ends_of_delivers {d : Datum} (hrequest : c.operation.request.value = .ok body)
    (hdelivers : reply.Delivers d) (hloads : reply.Loads s.levels) :
    c.Ends s reply (c.operation.perform s reply) := by
  have hsends := request_eq_ok.1 hrequest
  have hreads := reads_accept s.levels c d
  cases haccept : c.operation.accept s.levels d with
  | error report =>
    rw [haccept] at hreads
    obtain ⟨houtcome, herrors⟩ :=
      perform_of_conclude hrequest (Operation.conclude_of_misfit hdelivers hloads haccept)
    obtain ⟨hstatus, htext⟩ := hdelivers
    cases hreads with
    | misfit hunfit =>
      exact .misread hsends (.misfit hstatus (htext.read_of_loads hloads) hunfit) houtcome herrors
  | ok decoded =>
    rw [haccept] at hreads
    cases hreads with
    | answer hfits _ haccepts =>
      obtain ⟨houtcome, herrors⟩ :=
        perform_of_conclude hrequest (Operation.conclude_of_accept hdelivers hloads haccept)
      exact .answered hsends hdelivers hfits haccepts houtcome
        (herrors.trans (isErrorFree_of_accept haccept))
    | tooDeep _ hdeep =>
      obtain ⟨houtcome, herrors⟩ :=
        perform_of_conclude hrequest (Operation.conclude_of_tooDeep hdelivers hloads haccept)
      exact .tooDeep hsends (fun h => hdeep (h.launch d hdelivers)) houtcome herrors

theorem ends_of_not_loads (hrequest : c.operation.request.value = .ok body)
    (hdeep : ¬ reply.Loads s.levels) : c.Ends s reply (c.operation.perform s reply) := by
  obtain ⟨cause, hpayload⟩ := Reply.payload_of_not_loads hdeep c.operation.method
  obtain ⟨houtcome, herrors⟩ :=
    perform_of_conclude hrequest (Operation.conclude_of_payload_error hpayload)
  exact .tooDeep (request_eq_ok.1 hrequest) (fun h => hdeep h.body) houtcome herrors

theorem ends_perform (s : Client) (c : Call) (reply : Reply) :
    c.Ends s reply (c.operation.perform s reply) := by
  cases hrequest : c.operation.request.value with
  | error cause =>
    have hnone : ∀ body, ¬ c.Sends body := by
      intro body hbody
      rw [request_eq_ok.2 hbody] at hrequest
      cases hrequest
    have hperform : c.operation.perform s reply = ⟨[], c.operation.request.log, .error cause⟩ := by
      rw [Operation.perform, hrequest]
    rw [hperform]
    exact .unsent hnone (isPreparatory_of_request hrequest) rfl (isErrorFree_request c)
  | ok body =>
    cases reply with
    | crashed text =>
      have hconclude : c.operation.conclude s (.crashed text) = ⟨.error (.foreign text), []⟩ := rfl
      obtain ⟨houtcome, herrors⟩ := perform_of_conclude hrequest hconclude
      exact .crashed (request_eq_ok.1 hrequest) rfl houtcome herrors
    | failed failure reason =>
      obtain ⟨e, event, hfails, hpayload⟩ :=
        Reply.exists_failsWith_of_failed s c.operation.method failure reason
      exact ends_of_failsWith hrequest hfails hpayload
    | answered status text reason =>
      by_cases hloads : Json.Loads s.levels text
      · by_cases hstatus : status = 200
        · obtain ⟨verdict, hread⟩ := Json.loads_iff.1 hloads
          cases verdict with
          | error fault => exact ends_of_notJson hrequest hstatus hread
          | ok d =>
            exact ends_of_delivers hrequest (.success hstatus (Json.isTextOf_of_read hread)) hloads
        · obtain ⟨e, event, hfails, hpayload⟩ :=
            Reply.exists_failsWith_of_status_ne hstatus hloads c.operation.method reason
          exact ends_of_failsWith hrequest hfails hpayload
      · exact ends_of_not_loads hrequest hloads

end Service

/-! ### Traces -/

namespace Exchange

variable {α : Type} {x : Exchange α}

/-- The error that the call has failed with, if it has. -/
def failure? (x : Exchange α) : Option CallError :=
  match x.outcome with
  | .error (.call e) => some e
  | _ => none

/-- If the call has failed it has left one error in the log, and otherwise none. -/
inductive IsTraced (x : Exchange α) : Prop where
  | failed {e : CallError} {event : Event} (outcome_eq : x.outcome = .error (.call e))
    (errors_eq : Event.errors x.log = [event])
  | other (outcome_ne : ∀ e, x.outcome ≠ .error (.call e)) (errors_eq : Event.errors x.log = [])

/-- The call has failed and left no error in the log. -/
structure FailsSilently (x : Exchange α) : Prop where
  outcome_eq : ∃ e, x.outcome = .error (.call e)
  errors_eq : Event.errors x.log = []

theorem FailsSilently.not_isTraced (h : x.FailsSilently) : ¬ x.IsTraced := by
  obtain ⟨⟨e, houtcome⟩, herrors⟩ := h
  intro htraced
  cases htraced with
  | failed _ herrors' => cases herrors.symm.trans herrors'
  | other hne => exact hne e houtcome

theorem failure?_eq_none (h : ∀ e, x.outcome ≠ .error (.call e)) : x.failure? = none := by
  rw [failure?]
  split
  · rename_i e he
    exact absurd he (h e)
  · rfl

theorem IsTraced.length_errors (h : x.IsTraced) :
    (Event.errors x.log).length = x.failure?.toList.length := by
  cases h with
  | failed houtcome herrors =>
    rw [failure?, houtcome, herrors]
    rfl
  | other hne herrors =>
    rw [failure?_eq_none hne, herrors]
    rfl

theorem FailsSilently.length_errors (h : x.FailsSilently) :
    (Event.errors x.log).length < x.failure?.toList.length := by
  obtain ⟨⟨e, houtcome⟩, herrors⟩ := h
  rw [failure?, houtcome, herrors]
  exact Nat.zero_lt_one

end Exchange

namespace Service

variable {s : Client} {c : Call} {reply : Reply} {x : Exchange Answer}

/-- Of the ways in which a call ends, a misread answer is the only one that leaves no trace. -/
theorem Call.Ends.isTraced_or_failsSilently (h : c.Ends s reply x) :
    (x.IsTraced ∧ ∀ body, c.Sends body → ¬ c.Misreads s.levels reply)
      ∨ (x.FailsSilently ∧ ∃ body, c.Sends body ∧ c.Misreads s.levels reply) := by
  cases h with
  | unsent hnone hpreparatory houtcome herrors =>
    refine .inl ⟨.other (fun e he => ?_) herrors, fun body hsends => absurd hsends (hnone body)⟩
    obtain rfl := Except.error.inj (houtcome.symm.trans he)
    exact hpreparatory
  | failed _ hfails houtcome herrors =>
    refine .inl ⟨.failed houtcome herrors, fun _ _ hmisreads => ?_⟩
    -- only an answer is misread, and this one has another status
    cases hmisreads with
    | notJson hstatus | misfit hstatus =>
      cases hfails with
      | refused hne => exact hne hstatus
  | misread hsends hmisreads houtcome herrors =>
    exact .inr ⟨⟨⟨_, houtcome⟩, herrors⟩, _, hsends, hmisreads⟩
  | answered _ hdelivers hfits _ houtcome herrors =>
    refine .inl ⟨.other (fun e he => ?_) herrors, fun _ _ hmisreads => ?_⟩
    · cases houtcome.symm.trans he
    · -- the body is the text of one payload only, and that one fits
      obtain ⟨-, htext⟩ := hdelivers
      cases hmisreads with
      | notJson _ hread =>
        have hread' := htext.read_of_loads (Json.loads_of_read hread)
        cases Except.ok.inj (hread'.symm.trans hread)
      | misfit _ hread hunfit => exact hunfit (htext.unique (Json.isTextOf_of_read hread) ▸ hfits)
  | tooDeep _ hdeep houtcome herrors =>
    refine .inl ⟨.other (fun e he => ?_) herrors, fun _ _ h => hdeep h.loadsReply⟩
    cases houtcome.symm.trans he
  | crashed _ hreply houtcome herrors =>
    refine .inl ⟨.other (fun e he => ?_) herrors, fun _ _ hmisreads => ?_⟩
    · cases houtcome.symm.trans he
    · rw [hreply] at hmisreads
      cases hmisreads

theorem Call.Ends.isTraced_iff (h : c.Ends s reply x) :
    x.IsTraced ↔ ∀ body, c.Sends body → ¬ c.Misreads s.levels reply := by
  rcases h.isTraced_or_failsSilently with ⟨htraced, hnot⟩ | ⟨hsilent, body, hsends, hmisreads⟩
  · exact iff_of_true htraced hnot
  · exact iff_of_false hsilent.not_isTraced fun hnot => hnot body hsends hmisreads

/-- Let a call be carried out, whatever is replied.  It ends in one of the ways above.  If it has
failed it has left one error in the log, and otherwise none, unless it has been answered with status
200 by a body that is no JSON or does not fit the schema: then it has failed in silence. -/
theorem isTraced_iff_not_misreads (s : Client) (c : Call) (reply : Reply) :
    let x := c.operation.perform s reply
    c.Ends s reply x ∧ (x.IsTraced ↔ ∀ body, c.Sends body → ¬ c.Misreads s.levels reply) :=
  ⟨ends_perform s c reply, (ends_perform s c reply).isTraced_iff⟩

/-- A page or an empty list in the place of a workflow makes the call fail in silence. -/
theorem not_isTraced_page :
    let x (body : String) :=
      (Call.getWorkflow "wf-1").operation.perform {} (.answered 200 body "OK")
    ¬ (x "<html>").IsTraced ∧ ¬ (x "[]").IsTraced := by
  intro x
  have hsends : (Call.getWorkflow "wf-1").Sends (Wire.WorkflowRef.payload ⟨"wf-1"⟩) := .getWorkflow
  constructor
  · intro htraced
    have hread : Json.read Json.defaultLevels "<html>"
        = .ok (.error (.defect .valueExpected 6)) := by
      decide +kernel
    exact (ends_perform _ _ _).isTraced_iff.1 htraced _ hsends (.notJson rfl hread)
  · intro htraced
    have hread : Json.read Json.defaultLevels "[]" = .ok (.ok (.array [])) := by decide +kernel
    have hunfit : ¬ (Call.getWorkflow "wf-1").Fits (.array []) := by
      rintro ⟨w, hw⟩
      cases hw
    exact (ends_perform _ _ _).isTraced_iff.1 htraced _ hsends (.misfit rfl hread hunfit)

/-! ### Sessions -/

theorem Call.Ends.length_errors (h : c.Ends s reply x) :
    (Event.errors x.log).length ≤ x.failure?.toList.length
      ∧ ((Event.errors x.log).length = x.failure?.toList.length ↔ x.IsTraced) := by
  rcases h.isTraced_or_failsSilently with ⟨htraced, -⟩ | ⟨hsilent, -⟩
  · exact ⟨Nat.le_of_eq htraced.length_errors, iff_of_true htraced.length_errors htraced⟩
  · exact ⟨Nat.le_of_lt hsilent.length_errors,
      iff_of_false (Nat.ne_of_lt hsilent.length_errors) hsilent.not_isTraced⟩

/-- A session has recorded no more errors than calls have failed in it, and as many exactly if each
of its calls has left its trace. -/
theorem length_errors_session (s : Client) (steps : List (Call × Reply)) :
    let xs := session s steps
    (Event.errors (xs.flatMap (·.log))).length ≤ (xs.filterMap (·.failure?)).length
      ∧ ((Event.errors (xs.flatMap (·.log))).length = (xs.filterMap (·.failure?)).length
        ↔ ∀ x ∈ xs, x.IsTraced) := by
  simp only [List.filterMap_eq_flatMap_toList]
  induction steps with
  | nil => simp [session, Event.errors]
  | cons step steps ih =>
    have hsession : session s (step :: steps)
        = step.1.operation.perform s step.2 :: session s steps := rfl
    have hstep := (ends_perform s step.1 step.2).length_errors
    -- the numbers add up, and neither of the two can make up for the other
    simp only [hsession, List.flatMap_cons, Event.errors_append, List.length_append,
      List.forall_mem_cons, ← hstep.2, ← ih.2]
    omega

end Service

end Trialnet
