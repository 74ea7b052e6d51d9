import Trialnet.Monitor
import Trialnet.Proofs.Call.Classification
import Trialnet.Proofs.Json.Storable

/-!
# When the monitor ends

The monitor ends as soon as it sees in a reply that the workflow has come to its end, and nothing
else ends it short of a signal: no error of a call, no body that cannot be read, no phase that is
unknown or not final, in whatever order they come and however many there are
(`finished_iff_reportsEnd`).

What a reply reports is said here of the reply itself: its status is 200, its body is JSON that
fits the schema of a workflow, and the status in it is one of `Phase.finalNames` in any case.
What else the workflow holds, such as the launch that started it, can hide its phase in one way
only: if a text in it is nested too deeply, the workflow is not decoded, and the poll fails like one
that got no answer.  So the monitor sees the end if it is reported and if all that is read of the
reply loads.
-/

namespace Trialnet

/-! ### Phases -/

/-- The statuses that say that a workflow has come to its end. -/
def Phase.finalNames : List String := ["completed", "failed", "canceled", "terminated", "timed_out"]

/-- A phase is final exactly if it is reported as such. -/
theorem Phase.isFinal_ofReport_iff (report : String) :
    (ofReport report).isFinal = true ↔ Text.lower report ∈ finalNames := by
  have hnames : finalNames = (all.filter (·.isFinal)).map name := by decide
  rw [ofReport]
  generalize Text.lower report = status
  cases hfound : all.find? (fun p => p.name = status) with
  | some p =>
    obtain rfl : p.name = status := by simpa using List.find?_some hfound
    cases p <;> decide
  | none =>
    constructor
    · intro h
      cases h
    · intro h
      obtain ⟨p, hp, rfl⟩ := List.mem_map.1 (hnames ▸ h)
      exact absurd (decide_eq_true rfl) (List.find?_eq_none.1 hfound p (List.mem_filter.1 hp).1)

/-! ### Replies -/

/-- The reply reports that the workflow has come to its end. -/
def Reply.ReportsEnd (reply : Reply) : Prop :=
  ∃ d w, reply.Delivers d ∧ Wire.Workflow.read d = .ok w ∧ Text.lower w.status ∈ Phase.finalNames

theorem Reply.payload_eq_ok {s : Client} {reply : Reply} (method : String) {d : Datum} :
    (reply.payload s method).value = .ok d ↔ reply.Loads s.levels ∧ reply.Delivers d := by
  constructor
  · intro h
    cases reply with
    | crashed text => cases h
    | failed failure reason => cases failure <;> cases h
    | answered status body reason =>
      rw [payload] at h
      split at h
      · split at h <;> cases h
      · rename_i hstatus
        split at h
        · cases h
        · cases h
        · rename_i hread
          obtain rfl := Except.ok.inj h
          exact ⟨Json.loads_of_read hread,
            .success (not_not.1 hstatus) (Json.isTextOf_of_read hread)⟩
  · rintro ⟨hloads, h⟩
    rw [h.payload_eq hloads]

theorem Operation.conclude_eq_ok {α : Type} {op : Operation α} {s : Client} {reply : Reply}
    {a : α} : (op.conclude s reply).value = .ok a
      ↔ ∃ d r, (reply.Loads s.levels ∧ reply.Delivers d) ∧ op.accept s.levels d = .ok (.ok r)
        ∧ r.value = a := by
  simp only [← Reply.payload_eq_ok op.method]
  rw [conclude, Logged.value_bind]
  cases (reply.payload s op.method).value with
  | error e =>
    constructor
    · intro h
      cases h
    · rintro ⟨d, r, h, -⟩
      cases h
  | ok d =>
    dsimp only
    constructor
    · intro h
      split at h
      · cases h
      · cases h
      · rename_i r haccept
        exact ⟨d, r, rfl, haccept, Except.ok.inj h⟩
    · rintro ⟨d', r, h, haccept, rfl⟩
      obtain rfl := Except.ok.inj h
      rw [haccept]
      rfl

/-- The phase of a workflow is the one that is reported, whatever else has been decoded. -/
theorem Workflow.phase_of_decode {levels : Nat} {w : Wire.Workflow} {x : Logged Workflow}
    (h : decode levels w = .ok x) : x.value.phase = .ofReport w.status := by
  obtain ⟨launch, -, hx⟩ := bind_eq_ok.1 h
  obtain rfl := Except.ok.inj hx
  rfl

/-- A workflow is fetched exactly if the reply loads, delivers a payload that fits its schema, and
the texts in the launch of the workflow load. -/
theorem Poller.fetchWorkflow_eq_ok {s : Client} {id : String} {reply : Reply} {a : Workflow} :
    (fetchWorkflow s id reply).value = .ok a
      ↔ ∃ d w x, (reply.Loads s.levels ∧ reply.Delivers d) ∧ Wire.Workflow.read d = .ok w
        ∧ Workflow.decode s.levels w = .ok x ∧ x.value = a := by
  have hfetch : (fetchWorkflow s id reply).value
      = ((Service.getWorkflow id).conclude s reply).value := rfl
  rw [hfetch, Operation.conclude_eq_ok]
  constructor
  · rintro ⟨d, r, hdelivers, haccept, rfl⟩
    obtain ⟨w, hread, hdecode⟩ := map_eq_ok.1 haccept
    exact ⟨d, w, r, hdelivers, Payload.Reading.toExcept_eq_ok.1 hread, hdecode, rfl⟩
  · rintro ⟨d, w, x, hdelivers, hread, hdecode, rfl⟩
    exact ⟨d, x, hdelivers, map_eq_ok.2 ⟨w, Payload.Reading.toExcept_eq_ok.2 hread, hdecode⟩, rfl⟩

namespace Monitor

variable {s : Client} {id : String} {p : Poller Workflow} {reply : Reply}

/-- The monitor sees in the reply that the workflow has come to its end: the reply reports it, and
all that is read of the reply loads. -/
structure SeesEnd (s : Client) (id : String) (reply : Reply) : Prop where
  reports : reply.ReportsEnd
  loads : (Service.Call.getWorkflow id).LoadsReply s.levels reply

/-- What a cycle shows depends on the reply alone. -/
theorem isLast_run_iff : (Cycle.run s id p reply).isLast = true ↔ SeesEnd s id reply := by
  have hlast : (Cycle.run s id p reply).isLast = true
      ↔ ∃ a, (Poller.fetchWorkflow s id reply).value = .ok a ∧ a.phase.isFinal = true := by
    rw [Cycle.isLast, Cycle.run, Poller.cycle]
    cases (Poller.fetchWorkflow s id reply).value with
    | error e =>
      constructor
      · intro h
        cases h
      · rintro ⟨a, h, -⟩
        cases h
    | ok a => simp
  rw [hlast]
  constructor
  · rintro ⟨_, hfetch, hfinal⟩
    obtain ⟨d, w, x, ⟨hbody, hdelivers⟩, hread, hdecode, rfl⟩ := Poller.fetchWorkflow_eq_ok.1 hfetch
    rw [Workflow.phase_of_decode hdecode, Phase.isFinal_ofReport_iff] at hfinal
    refine ⟨⟨d, w, hdelivers, hread, hfinal⟩, .of_delivers hbody hdelivers fun w' hw' => ?_⟩
    obtain rfl := Payload.Reading.ok.inj (hread.symm.trans hw')
    exact Workflow.exists_decode_iff.1 ⟨x, hdecode⟩
  · rintro ⟨⟨d, w, hdelivers, hread, hfinal⟩, hbody, hlaunch⟩
    obtain ⟨x, hdecode⟩ := Workflow.exists_decode_iff.2 (hlaunch d hdelivers w hread)
    refine ⟨_, Poller.fetchWorkflow_eq_ok.2 ⟨d, w, x, ⟨hbody, hdelivers⟩, hread, hdecode, rfl⟩, ?_⟩
    rw [Workflow.phase_of_decode hdecode, Phase.isFinal_ofReport_iff]
    exact hfinal

theorem isLast_run_eq_false_iff :
    (Cycle.run s id p reply).isLast = false ↔ ¬ SeesEnd s id reply := by
  rw [← Bool.not_eq_true, isLast_run_iff]

/-! ### Runs -/

theorem watch_of_isLast (h : (Cycle.run s id p reply).isLast = true) (es : List Encounter) :
    watch s id p (.reply reply :: es) = ([Cycle.run s id p reply], none) := by
  rw [watch, if_pos h]

theorem watch_of_not_isLast (h : (Cycle.run s id p reply).isLast = false) (es : List Encounter) :
    watch s id p (.reply reply :: es)
      = (Cycle.run s id p reply :: (watch s id (Cycle.run s id p reply).outcome.poller es).1,
        (watch s id (Cycle.run s id p reply).outcome.poller es).2) := by
  rw [watch, h, if_neg Bool.false_ne_true]

/-- Without a signal the monitor is not stopped by one. -/
theorem signal_watch_replies (p : Poller Workflow) (replies : List Reply) :
    (watch s id p (replies.map .reply)).2 = none := by
  induction replies generalizing p with
  | nil => rfl
  | cons reply replies ih =>
    rw [List.map_cons]
    cases h : (Cycle.run s id p reply).isLast with
    | true => rw [watch_of_isLast h]
    | false => rw [watch_of_not_isLast h, ih]

/-- One of the first cycles shows the end exactly if it is seen in one of the first replies. -/
theorem any_isLast_watch_replies (p : Poller Workflow) (replies : List Reply) (n : Nat) :
    ((watch s id p (replies.map .reply)).1.take n).any Cycle.isLast = true
      ↔ ∃ reply ∈ replies.take n, SeesEnd s id reply := by
  induction replies generalizing p n with
  | nil => simp [watch]
  | cons reply replies ih =>
    cases n with
    | zero => simp
    | succ n =>
      rw [List.map_cons, List.take_succ_cons, List.exists_mem_cons_iff]
      cases h : (Cycle.run s id p reply).isLast with
      | true =>
        rw [watch_of_isLast h]
        simp [h, isLast_run_iff.1 h]
      | false =>
        have hnot := isLast_run_eq_false_iff.1 h
        rw [watch_of_not_isLast h, List.take_succ_cons, List.any_cons, h, Bool.false_or, ih]
        simp [hnot]

/-- There is one cycle for each reply up to the first one in which the end is seen. -/
theorem lt_length_watch_replies (p : Poller Workflow) (replies : List Reply) (n : Nat) :
    n < (watch s id p (replies.map .reply)).1.length
      ↔ n < replies.length ∧ ∀ reply ∈ replies.take n, ¬ SeesEnd s id reply := by
  induction replies generalizing p n with
  | nil => simp [watch]
  | cons reply replies ih =>
    rw [List.map_cons]
    cases h : (Cycle.run s id p reply).isLast with
    | true =>
      have hsees := isLast_run_iff.1 h
      rw [watch_of_isLast h]
      cases n with
      | zero => simp
      | succ n => simp [hsees]
    | false =>
      have hnot := isLast_run_eq_false_iff.1 h
      rw [watch_of_not_isLast h]
      cases n with
      | zero => simp
      | succ n => simp [hnot, ih]

/-- Let the monitor meet any replies and no signal.  After any number of polls it has seen the end
of the workflow exactly if one of the replies so far reports it and loads: the status is 200, the
body is JSON that fits the schema of a workflow, the status in it is one of the final ones in any
case, and neither the body nor a text in the launch of the workflow is nested too deeply.  The
monitor polls once more exactly if there is another reply and none so far is like that. -/
theorem finished_iff_reportsEnd (s : Client) (id : String) (p : Poller Workflow)
    (replies : List Reply) (n : Nat) :
    let watched := watch s id p (replies.map .reply)
    watched.2 = none
      ∧ ((watched.1.take n).any Cycle.isLast = true ↔ ∃ reply ∈ replies.take n, SeesEnd s id reply)
      ∧ (n < watched.1.length
        ↔ n < replies.length ∧ ∀ reply ∈ replies.take n, ¬ SeesEnd s id reply) :=
  ⟨signal_watch_replies p replies, any_isLast_watch_replies p replies n,
    lt_length_watch_replies p replies n⟩

/-- The payload of a completed workflow whose launch has one genesis value. -/
def completedWith (s : String) : Datum :=
  .object [("status", .text "completed"), ("config", .object [("chainConfig", .object
    [("genesisModifications", .array [.object [("key", .text "k"), ("value", .text s)]])])])]

theorem exists_read_completedWith {levels : Nat} {s : String} (h : ¬ Json.Loads levels s) :
    ∃ w, Wire.Workflow.read (completedWith s) = .ok w ∧ w.status = "completed"
      ∧ ¬ w.Loads levels := by
  let c : Wire.Chain := { edits := [⟨"k", s⟩] }
  refine ⟨{ status := "completed", launch := some { chain := some c } }, by rfl, rfl, fun hw => ?_⟩
  exact Wire.Launch.not_loads_of_edit rfl (List.mem_singleton.2 rfl) h (hw _ rfl)

theorem storable_completedWith (s : String) : Json.Storable 5 (completedWith s) := by
  refine ⟨?_, ?_, Nat.le_refl 5⟩
  · simp [completedWith, Datum.WellKeyed, Datum.WellKeyedFields, Datum.WellKeyedItems,
      Fields.HasDistinctKeys]
  · simp [completedWith, Json.Writable, Json.WritableFields, Json.WritableItems]

/-- The end of a workflow is reported and not seen, because a genesis value of its launch is a
hundred thousand opening brackets. -/
theorem not_finished_brackets :
    ∃ body, Json.writeLoose (completedWith (Json.brackets 100000)) = .ok body
      ∧ (Reply.answered 200 body "OK").ReportsEnd
      ∧ ∀ p, (watch {} "wf-1" p [.reply (.answered 200 body "OK")]).1.any Cycle.isLast = false := by
  obtain ⟨w, hw, hstatus, hdeep⟩ := exists_read_completedWith
    (Json.not_loads_brackets (show Json.defaultLevels < 100000 by decide))
  obtain ⟨body, hwrite, hread⟩ :=
    (storable_completedWith (Json.brackets 100000)).exists_text (Nat.le_refl 5)
  have hdelivers : (Reply.answered 200 body "OK").Delivers _ :=
    .success rfl (Json.isTextOf_of_read hread)
  refine ⟨body, hwrite, ⟨_, w, hdelivers, hw, by rw [hstatus]; decide⟩, fun p => ?_⟩
  have hnot : (Cycle.run {} "wf-1" p (.answered 200 body "OK")).isLast = false :=
    isLast_run_eq_false_iff.2 fun h => hdeep (h.loads.launch _ hdelivers w hw)
  rw [watch_of_not_isLast hnot]
  simp [hnot, watch]

end Monitor

end Trialnet
