import Trialnet.Proofs.Call.Submission

/-!
# Every way to submit a load test

A load test is submitted by itself or with a launch, and a launch by itself or as that of a
template.  The ways differ in where the load test is checked and in where a timeout that means
nothing is cleared, but each of them prepares it as `LoadTest.prepared` says: it is checked as it
was given, and then it is encoded.  So if nothing else stands in the way, all of them reject it
alike or send the same object for it, apart from whether the chain is an EVM chain, in which it
follows the launch: `submissions_agree`.
-/

namespace Trialnet

open Payload

/-! ### Encoding -/

namespace LoadTest

/-- Whether the chain is an EVM chain is copied to the wire, and nothing else depends on it. -/
theorem encode_withEvm (t : LoadTest) (b : Bool) :
    { t with evm := b }.encode = t.encode.map fun w => { w with evm := b } := by
  rw [encode, encode]
  change _ = (fun w : Wire.LoadTest => { w with evm := b }) <$> _
  simp only [map_bind, map_pure]
  rfl

/-- A load test as every submission prepares it: it has to be valid and to have a wire form. -/
def prepared (t : LoadTest) : Except Error Wire.LoadTest :=
  t.check.mapError .rejection >>= fun _ => t.encode.mapError .encode

end LoadTest

namespace Launch

/-- The launch without its load test. -/
def bare (l : Launch) : Launch := { l with loadTest := none }

theorem encode_submitted_eq_map (l : Launch) (t : LoadTest) :
    (l.submitted t).encode = t.encode.map fun w => { w with evm := l.evm } := by
  rw [submitted_eq, LoadTest.encode_normalize, adjusted, LoadTest.encode_withEvm]

variable {l : Launch} {t : LoadTest}

/-- A launch that is valid but for its load test is checked as its load test is. -/
theorem check_eq_of_bare (hloadTest : l.loadTest = some t) (hbare : l.bare.check = .ok ()) :
    l.check = t.check := by
  rw [check_eq_bind] at hbare ⊢
  obtain ⟨_, hduration, hbare⟩ := bind_eq_ok.1 hbare
  obtain ⟨_, htopology, -⟩ := bind_eq_ok.1 hbare
  have hfirst : (if l.longRunning then .ok () else checkDuration l.duration) = .ok () := hduration
  have hsecond : checkTopology l.chain = .ok () := htopology
  rw [hfirst, hsecond, hloadTest]
  rfl

/-- A launch that has a wire form but for its load test is encoded as its load test is. -/
theorem value_encode_of_bare (hloadTest : l.loadTest = some t) {w : Wire.Launch}
    (hbare : l.bare.encode.value = .ok w) :
    l.encode.value
      = t.encode.map fun x => { w with loadTest := some { x with evm := l.evm } } := by
  cases hencode : t.encode with
  | error e =>
    rw [value_encode, encodeParts, hloadTest, Option.mapM_some, encode_submitted_eq_map, hencode]
    rfl
  | ok x =>
    have hw := encode_eq_ok.1 hbare
    have hx : (l.submitted t).encode = .ok { x with evm := l.evm } := by
      rw [encode_submitted_eq_map, hencode]
      rfl
    have htest : l.LoadTestEncodesTo l.loadTest (some { x with evm := l.evm }) := by
      rw [hloadTest]
      exact Option.Rel.some (encode_submitted.1 hx)
    exact encode_eq_ok.2 ⟨hw.repo, hw.sha, hw.evm, hw.chain, hw.runner, htest, hw.longRunning,
      hw.loadBalancer, hw.duration, hw.wallets, hw.cosmosSdkSha, hw.cometbftSha,
      hw.catalystVersion, hw.provider⟩

end Launch

/-! ### Bodies -/

namespace Wire

/-- The object of a load test is the same but for one entry, whatever the answer to whether the
chain is an EVM chain. -/
theorem LoadTest.exists_payload_withEvm (w : LoadTest) : ∃ before after : Fields,
    (∀ f ∈ before ++ after, f.1 ≠ "isEvmChain")
      ∧ ∀ b, { w with evm := b }.payload
        = .object (before ++ ("isEvmChain", .bool b) :: after) := by
  refine ⟨entry "name" (.text w.name) ++ entry "description" (.text w.description)
      ++ entry "chainId" (.text w.chainId) ++ entry "numOfTxs" (narrow w.txs)
      ++ entry "numOfBlocks" (narrow w.blocks)
      ++ entry "msgs" (.array (w.messages.map Message.payload))
      ++ entry "unorderedTxs" (.bool w.unordered) ++ entry? "txTimeout" (w.timeout.map wide),
    entry "gasDenom" (.text w.gasDenom) ++ entry "bech32Prefix" (.text w.bech32Prefix), ?_, ?_⟩
  · have htimeout : ∀ f ∈ entry? "txTimeout" (w.timeout.map wide), f.1 ≠ "isEvmChain" := by
      intro f hf
      obtain ⟨d, -, rfl⟩ := mem_optionalEntry.1 hf
      show "txTimeout" ≠ "isEvmChain"
      decide
    simp only [entry, List.forall_mem_append, List.forall_mem_singleton, ne_eq, String.reduceEq,
      not_false_eq_true, true_and, and_true]
    exact htimeout
  · intro b
    simp only [payload, fields, entry, List.append_assoc, List.cons_append, List.nil_append]

variable {w : Launch} {x : LoadTest} {d : Datum}

theorem Launch.field?_loadTest (hw : w.loadTest = some x) :
    w.payload.field? "loadTestSpec" = some x.payload := by
  simp [Datum.field?, payload, fields, List.lookup_append, hw]

theorem Launch.carries_payload_iff (hw : w.loadTest = some x) :
    w.payload.Carries d ↔ d = x.payload := by
  have htemplate : w.payload.field? "templateConfig" = none := by
    simp [Datum.field?, payload, fields, List.lookup_append]
  rw [Datum.Carries, Launch.field?_loadTest hw, htemplate]
  constructor
  · rintro (h | ⟨_, h, -⟩)
    · exact (Option.some.inj h).symm
    · cases h
  · exact fun h => Or.inl (congrArg some h.symm)

theorem TemplateDraft.carries_payload_iff {id description : String} (hw : w.loadTest = some x) :
    (payload ⟨id, description, w⟩).Carries d ↔ d = x.payload := by
  constructor
  · rintro (h | ⟨_, h, htest⟩)
    · cases h
    · obtain rfl := Option.some.inj h
      rw [Launch.field?_loadTest hw] at htest
      exact (Option.some.inj htest).symm
  · intro h
    exact Or.inr ⟨w.payload, rfl, h ▸ Launch.field?_loadTest hw⟩

theorem LoadTestRun.carries_payload_iff {id : String} :
    (payload ⟨id, x⟩).Carries d ↔ d = x.payload := by
  constructor
  · rintro (h | ⟨_, h, -⟩)
    · exact (Option.some.inj h).symm
    · cases h
  · exact fun h => Or.inl (congrArg some h.symm)

end Wire

namespace Service

/-- The calls that submit a load test, by itself or with a launch, each with what its body says
about whether the chain is an EVM chain. -/
inductive Call.Submits (l : Launch) (t : LoadTest) : Call → Bool → Prop where
  | createWorkflow : Submits l t (.createWorkflow l) l.evm
  | createTemplate {x : Template} (launch_eq : x.launch = l) : Submits l t (.createTemplate x) l.evm
  | updateTemplate {x : Template} (launch_eq : x.launch = l) : Submits l t (.updateTemplate x) l.evm
  | runLoadTest {id : String} : Submits l t (.runLoadTest id t) t.evm

variable {l : Launch} {t : LoadTest}

theorem request_createWorkflow_eq_map (hloadTest : l.loadTest = some t)
    (hcheck : l.bare.check = .ok ()) {w : Wire.Launch} (hencode : l.bare.encode.value = .ok w) :
    (createWorkflow l).request.value = t.prepared.map fun x =>
      Wire.Launch.payload { w with loadTest := some { x with evm := l.evm } } := by
  have hvalue := Launch.value_encode_of_bare hloadTest hencode
  rw [createWorkflow, LoadTest.prepared, Launch.check_eq_of_bare hloadTest hcheck]
  cases t.check with
  | error cause => rfl
  | ok =>
    simp only [Logged.value_bind, Logged.value_pure, hvalue]
    cases t.encode <;> rfl

theorem request_template_eq_map {x : Template} (hx : x.launch = l) (hloadTest : l.loadTest = some t)
    (hcheck : l.bare.check = .ok ()) {w : Wire.Launch} (hencode : l.bare.encode.value = .ok w) :
    (templateRequest x).value = t.prepared.map fun y => Wire.TemplateDraft.payload
      ⟨x.id, x.description, { w with loadTest := some { y with evm := l.evm } }⟩ := by
  have hvalue := Launch.value_encode_of_bare hloadTest hencode
  rw [templateRequest, LoadTest.prepared, hx, Launch.check_eq_of_bare hloadTest hcheck]
  cases t.check with
  | error cause => rfl
  | ok =>
    simp only [Template.encode, Logged.value_bind, Logged.value_pure, hx, hvalue]
    cases t.encode <;> rfl

theorem request_runLoadTest_eq_map (id : String) (t : LoadTest) :
    (runLoadTest id t).request.value = t.prepared.map fun x =>
      Wire.LoadTestRun.payload ⟨id, { x with evm := t.evm }⟩ := by
  rw [runLoadTest, LoadTest.prepared, LoadTest.checked]
  cases t.check with
  | error cause => rfl
  | ok =>
    show (encoded _ t.normalize.encode).value = (t.encode.mapError .encode).map _
    rw [LoadTest.encode_normalize]
    cases hencode : t.encode with
    | error e => rfl
    | ok x =>
      -- a load test by itself has its own answer on the wire already
      have hevm : x.evm = t.evm := (LoadTest.encode_eq_ok.1 hencode).evm
      show Except.ok _ = Except.ok _
      rw [← hevm]

/-- Whichever call submits a load test, the load test is prepared in one way, and the body carries
nothing else of its kind. -/
theorem Call.Submits.exists_request_eq_map {c : Call} {b : Bool} (h : c.Submits l t b)
    (hloadTest : l.loadTest = some t) (hcheck : l.bare.check = .ok ()) {w : Wire.Launch}
    (hencode : l.bare.encode.value = .ok w) :
    ∃ body : Wire.LoadTest → Datum, c.operation.request.value = t.prepared.map body
      ∧ ∀ x d, (body x).Carries d ↔ d = { x with evm := b }.payload := by
  cases h with
  | createWorkflow =>
    exact ⟨_, request_createWorkflow_eq_map hloadTest hcheck hencode,
      fun x d => Wire.Launch.carries_payload_iff rfl⟩
  | createTemplate hx | updateTemplate hx =>
    exact ⟨_, request_template_eq_map hx hloadTest hcheck hencode,
      fun x d => Wire.TemplateDraft.carries_payload_iff rfl⟩
  | runLoadTest =>
    exact ⟨_, request_runLoadTest_eq_map _ t, fun x d => Wire.LoadTestRun.carries_payload_iff⟩

/-- Let a launch be valid and have a wire form but for its load test.  Then either every call that
submits the load test ends in the same error before anything is sent, or every one of them sends
the same object for it, but for one entry.  A valid load test is encoded alike as it was given,
with a timeout that means nothing cleared, and as the check returns it. -/
theorem submissions_agree (t : LoadTest) :
    (∀ (l : Launch) (w : Wire.Launch), l.loadTest = some t → l.bare.check = .ok () →
      l.bare.encode.value = .ok w →
      (∃ e, ∀ c b, Call.Submits l t c b → ∀ s reply, (c.operation.perform s reply).sent = []
          ∧ (c.operation.perform s reply).outcome = .error e)
      ∨ ∃ before after : Fields, (∀ f ∈ before ++ after, f.1 ≠ "isEvmChain")
        ∧ ∀ c b, Call.Submits l t c b → ∀ s reply, ∃ p, (c.operation.perform s reply).sent = [p]
          ∧ ∀ d, p.body.Carries d ↔ d = .object (before ++ ("isEvmChain", .bool b) :: after))
    ∧ (t.Valid → t.normalize.encode = t.encode
      ∧ ∃ t', t.checked = .ok t' ∧ t'.encode = t.encode) := by
  refine ⟨fun l w hloadTest hcheck hencode => ?_, fun ht => ⟨t.encode_normalize, t.normalize,
    LoadTest.checked_eq_ok.2 ⟨ht, rfl⟩, t.encode_normalize⟩⟩
  cases hprepared : t.prepared with
  | error e =>
    refine Or.inl ⟨e, fun c b h s reply => ?_⟩
    obtain ⟨body, hrequest, -⟩ := h.exists_request_eq_map hloadTest hcheck hencode
    rw [hprepared] at hrequest
    rw [Operation.perform, hrequest]
    exact ⟨rfl, rfl⟩
  | ok x =>
    obtain ⟨before, after, hne, hpayload⟩ := x.exists_payload_withEvm
    refine Or.inr ⟨before, after, hne, fun c b h s reply => ?_⟩
    obtain ⟨body, hrequest, hcarries⟩ := h.exists_request_eq_map hloadTest hcheck hencode
    rw [hprepared] at hrequest
    rw [Operation.perform, hrequest]
    exact ⟨_, rfl, fun d => by rw [hcarries, hpayload]⟩

theorem submissions_agree_tenSeconds :
    let t : LoadTest :=
      { messages := [{ kind := .send, weight := .one }], unordered := true, timeout := "10s" }
    let l : Launch :=
      { repo := "app", sha := "", longRunning := true, evm := true, loadTest := some t
        chain := { name := "c", image := "", validators := 1, seedNode := true } }
    (∃ before after : Fields, (∀ f ∈ before ++ after, f.1 ≠ "isEvmChain")
      ∧ ∀ c b, Call.Submits l t c b → ∀ s reply, ∃ p, (c.operation.perform s reply).sent = [p]
        ∧ ∀ d, p.body.Carries d ↔ d = .object (before ++ ("isEvmChain", .bool b) :: after))
    ∧ t.normalize.encode = t.encode ∧ ∃ t', t.checked = .ok t' ∧ t'.encode = t.encode := by
  intro t l
  have ht : t.Valid := LoadTest.check_eq_ok.1 (by decide +kernel)
  let w : Wire.Launch :=
    { repo := "app", sha := "", evm := true, runner := "Docker", longRunning := true
      chain := some { name := "c", image := "", validators := ⟨1, by decide, by decide⟩
                      seedNode := true }
      wallets := ⟨2500, by decide, by decide⟩ }
  obtain ⟨hagree, hencode⟩ := submissions_agree t
  refine ⟨?_, hencode ht⟩
  rcases hagree l w rfl (by decide +kernel) (by decide +kernel) with ⟨e, he⟩ | hsent
  · -- the load test by itself is sent
    have hnone := (he (.runLoadTest "w" t) t.evm .runLoadTest {} (.crashed "")).1
    have hone : ((Call.runLoadTest "w" t).operation.perform {} (.crashed "")).sent.length = 1 := by
      decide +kernel
    rw [hnone] at hone
    cases hone
  · exact hsent

end Service

end Trialnet
