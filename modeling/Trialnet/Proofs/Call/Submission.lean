import Trialnet.Proofs.Launch.Sent
import Trialnet.Proofs.Call.Requests

/-!
# Nothing invalid is sent

Four operations submit something: a launch is submitted by itself or as that of a template that
is stored or replaced, and a load test by itself or with a launch.  Each of them checks what it
is given before it prepares a request, so every post that a session makes carries only what may
be sent.  The other operations send nothing of the kind.

The bodies that are sent, with the methods that they are sent to, are gathered in `Request`; what
is said of posts follows by cases on it.
-/

namespace Trialnet

open Payload

/-! ### Posts that may be made -/

/-- The load tests that a body carries: its own, and that of the launch of a template. -/
def Datum.Carries (body test : Datum) : Prop :=
  body.field? "loadTestSpec" = some test
    ∨ ∃ launch, body.field? "templateConfig" = some launch
      ∧ launch.field? "loadTestSpec" = some test

/-- A post that may be made: a body from which the service takes a launch or a load test holds a
valid one, and so is every load test that is carried along. -/
structure Post.Valid (s : Client) (p : Post) : Prop where
  launch : p.url = s.methodUrl "CreateWorkflow" → p.body.ValidLaunch
  template : p.url = s.methodUrl "CreateWorkflowTemplate"
      ∨ p.url = s.methodUrl "UpdateWorkflowTemplate" →
    ∃ launch, p.body.field? "templateConfig" = some launch ∧ launch.ValidLaunch
  run : p.url = s.methodUrl "RunLoadTest" →
    ∃ test, p.body.field? "loadTestSpec" = some test ∧ test.ValidLoadTest
  loadTest : ∀ test, p.body.Carries test → test.ValidLoadTest

namespace Service

/-- The methods to which something is submitted. -/
def submissionMethods : List String :=
  ["CreateWorkflow", "CreateWorkflowTemplate", "UpdateWorkflowTemplate", "RunLoadTest"]

/-- The bodies that are sent to the methods. -/
inductive Request : String → Datum → Prop where
  | launch {l : Launch} {w : Wire.Launch} (valid : l.Valid) (encodes : l.EncodesTo w) :
    Request "CreateWorkflow" w.payload
  | template {method : String} {t : Template} {w : Wire.Launch}
    (method_mem : method ∈ ["CreateWorkflowTemplate", "UpdateWorkflowTemplate"])
    (valid : t.launch.Valid) (encodes : t.launch.EncodesTo w) :
    Request method (Wire.TemplateDraft.payload ⟨t.id, t.description, w⟩)
  | run {workflowId : String} {t : LoadTest} {w : Wire.LoadTest} (valid : t.Valid)
    (encodes : t.EncodesTo w) : Request "RunLoadTest" (Wire.LoadTestRun.payload ⟨workflowId, w⟩)
  | plain {method : String} {body : Datum} (method_notMem : method ∉ submissionMethods)
    (loadTest : body.field? "loadTestSpec" = none)
    (template : body.field? "templateConfig" = none) : Request method body

/-- What a call sends, one case for each operation. -/
theorem request_of_call {c : Call} {body : Datum} (h : c.operation.request.value = .ok body) :
    Request c.operation.method body := by
  rw [method_operation]
  cases request_eq_ok.1 h with
  | createWorkflow valid encodes => exact .launch valid encodes
  | runLoadTest valid encodes => exact .run valid encodes
  | createTemplate valid encodes => exact .template List.mem_cons_self valid encodes
  | updateTemplate valid encodes =>
    exact .template (List.mem_cons_of_mem _ List.mem_cons_self) valid encodes
  -- nothing else carries a launch or a load test
  | getWorkflow | listWorkflows | cancelWorkflow | signalWorkflow | shutDown | getTemplate
  | listTemplates | deleteTemplate | executeTemplate | runHistory =>
    exact .plain (by simp only [Call.method]; decide) rfl rfl

/-! ### What the posts carry -/

theorem methodUrl_inj {s : Client} {m m' : String} (h : s.methodUrl m = s.methodUrl m') :
    m = m' := (String.append_right_inj _).1 h

theorem methodUrl_ne {s : Client} {m m' : String} (h : m ≠ m') :
    s.methodUrl m ≠ s.methodUrl m' := mt methodUrl_inj h

/-- Every body that is sent to a method may be sent to it. -/
theorem Request.valid {method : String} {body : Datum} (h : Request method body) (s : Client)
    (timeout : Binary64) : Post.Valid s ⟨s.methodUrl method, body, timeout⟩ := by
  cases h with
  | @launch l w valid encodes =>
    have hlaunch := encodes.validLaunch valid
    have htemplate : w.payload.field? "templateConfig" = none := by
      simp [Datum.field?, Wire.Launch.payload, Wire.Launch.fields, List.lookup_append]
    refine ⟨fun _ => hlaunch, ?_, fun h => absurd h (methodUrl_ne (by decide)), ?_⟩
    · rintro (h | h)
      · exact absurd h (methodUrl_ne (by decide))
      · exact absurd h (methodUrl_ne (by decide))
    · -- the only load test is the launch's own
      rintro test (h | ⟨launch, h, -⟩)
      · exact (hlaunch.loadTest test h).loadTest
      · rw [htemplate] at h
        cases h
  | @template _ t w hmethod valid encodes =>
    have hlaunch := encodes.validLaunch valid
    -- the method is one of two, and the other submissions go elsewhere
    have hother : ∀ m, m ∉ ["CreateWorkflowTemplate", "UpdateWorkflowTemplate"] →
        s.methodUrl method ≠ s.methodUrl m :=
      fun m hm => methodUrl_ne fun h => hm (h ▸ hmethod)
    refine ⟨fun h => absurd h (hother _ (by decide)), fun _ => ⟨w.payload, rfl, hlaunch⟩,
      fun h => absurd h (hother _ (by decide)), ?_⟩
    rintro test (h | ⟨launch, h, htest⟩)
    · cases h
    · obtain rfl := Option.some.inj h
      exact (hlaunch.loadTest test htest).loadTest
  | @run workflowId t w valid encodes =>
    have htest := encodes.validLoadTest valid
    refine ⟨fun h => absurd h (methodUrl_ne (by decide)), ?_, fun _ => ⟨w.payload, rfl, htest⟩, ?_⟩
    · rintro (h | h)
      · exact absurd h (methodUrl_ne (by decide))
      · exact absurd h (methodUrl_ne (by decide))
    · rintro test (h | ⟨launch, h, -⟩)
      · exact Option.some.inj h ▸ htest
      · cases h
  | plain hmethod hloadTest htemplate =>
    have hother : ∀ m ∈ submissionMethods, s.methodUrl method ≠ s.methodUrl m :=
      fun m hm => methodUrl_ne fun h => hmethod (h ▸ hm)
    refine ⟨fun h => absurd h (hother _ (by decide)), ?_,
      fun h => absurd h (hother _ (by decide)), ?_⟩
    · rintro (h | h)
      · exact absurd h (hother _ (by decide))
      · exact absurd h (hother _ (by decide))
    · -- there is nothing for a load test to stand in
      rintro test (h | ⟨launch, h, -⟩)
      · rw [hloadTest] at h
        cases h
      · rw [htemplate] at h
        cases h

theorem mem_sent_iff {α : Type} {op : Operation α} {s : Client} {reply : Reply} {p : Post} :
    p ∈ (op.perform s reply).sent
      ↔ ∃ body, op.request.value = .ok body ∧ p = ⟨s.methodUrl op.method, body, s.timeout⟩ := by
  rw [Operation.perform]
  cases op.request.value with
  | error e => simp
  | ok body => simp

/-- Whatever calls are made and whatever is replied to them, every post may be made. -/
theorem valid_of_mem_sent {s : Client} {steps : List (Call × Reply)} {e : Exchange Answer}
    {p : Post} (he : e ∈ session s steps) (hp : p ∈ e.sent) : p.Valid s := by
  obtain ⟨⟨c, reply⟩, -, rfl⟩ := List.mem_map.1 he
  obtain ⟨body, hbody, rfl⟩ := mem_sent_iff.1 hp
  exact (request_of_call hbody).valid s s.timeout

/-- A launch that runs for an hour, with a load test of two kinds of messages, is sent. -/
theorem valid_hourLong :
    let s : Client := {}
    let half : Binary64 := .ofDecimal false 5 (-1)
    let l : Launch :=
      { repo := "app", sha := "", duration := "1h", evm := true
        chain := { name := "c", image := "", validators := 1, seedNode := true }
        loadTest := some
          { messages :=
              [{ kind := .array, weight := half, count := some 2, contained := some .send },
              { kind := .multiSend, weight := half }] } }
    ∃ (e : Exchange Answer) (p : Post),
      e ∈ session s [(.createWorkflow l, .failed .timeout "")] ∧ p ∈ e.sent ∧ p.Valid s
        ∧ p.body.field? "testnetDuration" = some (.text "3600") := by
  intro s half l
  -- the launch passes the check and is encoded as `w`
  have hcheck : l.check = .ok () := by decide +kernel
  let w : Wire.Launch :=
    { repo := "app", sha := "", evm := true, runner := "Docker"
      chain := some { name := "c", image := "", validators := ⟨1, by decide, by decide⟩
                      seedNode := true }
      loadTest := some
        { messages :=
            [{ kind := "MsgArr", weight := half, count := ⟨2, by decide, by decide⟩
               contained := "MsgSend", recipients := ⟨1, by decide, by decide⟩ },
             { kind := "MsgMultiSend", weight := half, count := ⟨1, by decide, by decide⟩
               recipients := ⟨1, by decide, by decide⟩ }]
          evm := true }
      duration := ⟨3600, by decide, by decide⟩, wallets := ⟨2500, by decide, by decide⟩ }
  have hencode : l.encode.value = .ok w := by decide +kernel
  have hrequest : (Call.createWorkflow l).operation.request.value = .ok w.payload := by
    simp only [Call.operation, Operation.map, createWorkflow, hcheck, Logged.value_bind,
      Logged.value_pure, hencode, Except.map, Except.mapError]
  let step : Call × Reply := (.createWorkflow l, .failed .timeout "")
  have hstep : step.1.operation.perform s step.2 ∈ session s [step] := List.mem_cons_self
  have hsent : (⟨s.methodUrl "CreateWorkflow", w.payload, s.timeout⟩ : Post)
      ∈ (step.1.operation.perform s step.2).sent :=
    mem_sent_iff.2 ⟨w.payload, hrequest, rfl⟩
  exact ⟨_, _, hstep, hsent, valid_of_mem_sent hstep hsent, by decide +kernel⟩

end Service

end Trialnet
