import Trialnet.Proofs.Call.Requests

/-!
# One attempt or none

An operation sends its request once, whatever becomes of it: there is no second attempt after a
timeout, an error status or a body that cannot be read.  If the request cannot be prepared,
because what is submitted is rejected or has no wire form, nothing is sent at all.  So what a
call posts depends on the call and on the settings, and on nothing that happened before:
`exists_posts_session`.
-/

namespace Trialnet

/-! ### Where a request is sent -/

/-- The text is the address without the slashes at its end. -/
def Settings.HasBase (s : Settings) (base : String) : Prop :=
  ∃ slashes, s.address.toList = base.toList ++ List.replicate slashes '/'
    ∧ base.toList.getLast? ≠ some '/'

/-- A text is what is left of it at its end, followed by characters of the class. -/
theorem Text.trimEnd_append (p : Char → Bool) (cs : List Char) :
    trimEnd p cs ++ (cs.reverse.takeWhile p).reverse = cs := by
  rw [trimEnd, ← List.reverse_append, List.takeWhile_append_dropWhile, List.reverse_reverse]

theorem Text.getLast?_trimEnd_ne {p : Char → Bool} {c : Char} (hc : p c = true) (cs : List Char) :
    (trimEnd p cs).getLast? ≠ some c := by
  intro h
  rw [trimEnd, List.getLast?_reverse] at h
  have hhead := List.head?_dropWhile_not p cs.reverse
  simp only [h, hc] at hhead
  cases hhead

theorem Settings.hasBase_baseUrl (s : Settings) : s.HasBase s.baseUrl := by
  have hslashes : (s.address.toList.reverse.takeWhile (· == '/')).reverse
      = List.replicate (s.address.toList.reverse.takeWhile (· == '/')).length '/' := by
    refine List.eq_replicate_iff.2 ⟨List.length_reverse, fun c hc => ?_⟩
    exact eq_of_beq (List.all_eq_true.1 List.all_takeWhile c (List.mem_reverse.1 hc))
  rw [HasBase, baseUrl, String.toList_ofList]
  exact ⟨_, by rw [← hslashes, Text.trimEnd_append], Text.getLast?_trimEnd_ne rfl _⟩

namespace Operation

variable {α : Type} (op : Operation α) (s : Client)

/-- What an operation posts, which does not depend on the reply. -/
def posts : List Post :=
  match op.request.value with
  | .error _ => []
  | .ok body => [⟨s.methodUrl op.method, body, s.timeout⟩]

theorem sent_perform (reply : Reply) : (op.perform s reply).sent = op.posts s := by
  rw [perform, posts]
  cases op.request.value with
  | error e => rfl
  | ok body => rfl

end Operation

/-- The error arises before anything is sent: what is submitted is rejected or has no wire
form. -/
def Error.IsPreparatory : Error → Prop
  | .rejection _ | .encode _ => True
  | .call _ | .payload _ | .foreign _ | .missingKey _ | .tooDeep _ => False

namespace Service

/-- What a call posts: its body, once and to its own method, or nothing if it has no body. -/
inductive Call.Posts (s : Client) (c : Call) : List Post → Prop where
  | none (no_body : ∀ body, ¬ c.Sends body) : Posts s c []
  | once {base : String} {body : Datum} (hasBase : s.HasBase base) (sends : c.Sends body) :
    Posts s c [⟨base ++ "/" ++ s.service ++ "/" ++ c.method, body, s.timeout⟩]

theorem Call.posts_operation (s : Client) (c : Call) : c.Posts s (c.operation.posts s) := by
  rw [Operation.posts]
  cases hrequest : c.operation.request.value with
  | error e =>
    refine .none fun body hbody => ?_
    rw [request_eq_ok.2 hbody] at hrequest
    cases hrequest
  | ok body =>
    rw [method_operation]
    exact .once s.hasBase_baseUrl (request_eq_ok.1 hrequest)

/-! ### Errors before and after -/

theorem isPreparatory_of_encoded {α : Type} {payload : α → Datum} {x : Except EncodeError α}
    {e : Error} (h : (encoded payload x).value = .error e) : e.IsPreparatory := by
  cases x with
  | error cause =>
    obtain rfl := Except.error.inj h
    trivial
  | ok a => cases h

theorem isPreparatory_of_template {t : Template} {e : Error}
    (h : (templateRequest t).value = .error e) : e.IsPreparatory := by
  rw [templateRequest] at h
  split at h
  · obtain rfl := Except.error.inj h
    trivial
  · exact isPreparatory_of_encoded (x := t.encode.value) h

/-- A request is not prepared because of a rejection or because of an encoder. -/
theorem isPreparatory_of_request {c : Call} {e : Error}
    (h : c.operation.request.value = .error e) : e.IsPreparatory := by
  cases c with
  | createWorkflow l =>
    have hrequest : (createWorkflow l).request.value = .error e := h
    rw [createWorkflow] at hrequest
    split at hrequest
    · obtain rfl := Except.error.inj hrequest
      trivial
    · exact isPreparatory_of_encoded (x := l.encode.value) hrequest
  | runLoadTest id t =>
    have hrequest : (runLoadTest id t).request.value = .error e := h
    rw [runLoadTest] at hrequest
    split at hrequest
    · obtain rfl := Except.error.inj hrequest
      trivial
    · exact isPreparatory_of_encoded hrequest
  | createTemplate t | updateTemplate t => exact isPreparatory_of_template h
  | listWorkflows | listTemplates | runHistory => exact isPreparatory_of_encoded h
  | getWorkflow | cancelWorkflow | signalWorkflow | shutDown | getTemplate | deleteTemplate
  | executeTemplate => cases h

end Service

/-- Whatever is replied, the error it amounts to is of another kind. -/
theorem Reply.not_isPreparatory_of_payload {s : Client} {method : String} {reply : Reply}
    {e : Error} (h : (reply.payload s method).value = .error e) : ¬ e.IsPreparatory := by
  cases reply with
  | crashed text =>
    obtain rfl := Except.error.inj h
    exact id
  | failed failure reason =>
    cases failure <;>
      (obtain rfl := Except.error.inj h
       exact id)
  | answered status body reason =>
    rw [payload] at h
    split at h
    · split at h
      · obtain rfl := Except.error.inj h
        exact id
      · obtain rfl := Except.error.inj h
        exact id
    · split at h
      · obtain rfl := Except.error.inj h
        exact id
      · obtain rfl := Except.error.inj h
        exact id
      · cases h

theorem Operation.not_isPreparatory_of_conclude {α : Type} {op : Operation α} {s : Client}
    {reply : Reply} {e : Error} (h : (op.conclude s reply).value = .error e) :
    ¬ e.IsPreparatory := by
  rw [conclude, Logged.value_bind] at h
  split at h
  · rename_i cause hpayload
    obtain rfl := Except.error.inj h
    exact Reply.not_isPreparatory_of_payload hpayload
  · split at h
    · obtain rfl := Except.error.inj h
      exact id
    · obtain rfl := Except.error.inj h
      exact id
    · cases h

namespace Service

/-- Nothing is sent exactly if the call ends in an error from before sending. -/
theorem sent_eq_nil_iff (s : Client) (c : Call) (reply : Reply) :
    (c.operation.perform s reply).sent = []
      ↔ ∃ e, (c.operation.perform s reply).outcome = .error e ∧ e.IsPreparatory := by
  rw [Operation.perform]
  cases hrequest : c.operation.request.value with
  | error e => exact ⟨fun _ => ⟨e, rfl, isPreparatory_of_request hrequest⟩, fun _ => rfl⟩
  | ok body =>
    refine ⟨fun h => absurd h (List.cons_ne_nil _ _), ?_⟩
    rintro ⟨e, he, hearly⟩
    exact absurd hearly (Operation.not_isPreparatory_of_conclude he)

/-- In every session, each step posts what its call posts, which is one request at most: it
depends on the call and the settings only.  Nothing is posted exactly by the steps that end in a
rejection or in an error of the encoder. -/
theorem exists_posts_session (s : Client) :
    ∃ posts : Call → List Post, (∀ c : Call, c.Posts s (posts c))
      ∧ ∀ steps : List (Call × Reply), List.Forall₂ (fun step e => e.sent = posts step.1
          ∧ (e.sent = [] ↔ ∃ cause, e.outcome = .error cause ∧ cause.IsPreparatory))
        steps (session s steps) := by
  refine ⟨fun c => c.operation.posts s, Call.posts_operation s, fun steps => ?_⟩
  rw [session, List.forall₂_map_right_iff, List.forall₂_same]
  rintro ⟨c, reply⟩ -
  exact ⟨c.operation.sent_perform s reply, sent_eq_nil_iff s c reply⟩

end Service

end Trialnet
