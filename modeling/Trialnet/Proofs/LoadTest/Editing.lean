import Trialnet.Proofs.Binary64.Magnitude
import Trialnet.Proofs.Launch.Revalidation

/-!
# Load tests that are put together step by step

A message is added only if it obeys the rules for messages and its slot is free, and no other step
touches what these rules look at.  So a mix that starts empty obeys them after every step of every
run of editing, whatever is tried on the way; all that may be wrong with it is the sum of its
weights.  That sum exists, as there are only so many slots and thus so many messages:
`wellFormed_of_stages`.

Steps that replace fields are left out, since they may put anything in their place.
-/

namespace Trialnet

/-! ### Slots -/

namespace Message

/-- Every slot: a kind by itself, or a bundle with what it contains. -/
def allSlots : List (MessageKind × Option MessageKind) :=
  MessageKind.all.map (fun k => (k, none)) ++ MessageKind.all.map fun k => (.array, some k)

theorem slot_mem_allSlots (m : Message) : m.slot ∈ allSlots := by
  have hall : ∀ k, k ∈ MessageKind.all := by
    intro k
    cases k <;> decide
  rw [slot, allSlots, List.mem_append, List.mem_map, List.mem_map]
  by_cases harray : m.kind = .array
  · rw [if_pos harray, harray]
    cases m.contained with
    | none => exact Or.inl ⟨.array, hall _, rfl⟩
    | some k => exact Or.inr ⟨k, hall k, rfl⟩
  · rw [if_neg harray]
    exact Or.inl ⟨m.kind, hall _, rfl⟩

/-- The text of a slot. -/
def textOfSlot (s : MessageKind × Option MessageKind) : String :=
  slotText { kind := s.1, weight := .zero, contained := s.2 }

theorem slotText_eq (m : Message) : m.slotText = textOfSlot m.slot := by
  by_cases harray : m.kind = .array
  · simp only [textOfSlot, slotText, slot, harray, if_true]
  · simp only [textOfSlot, slotText, slot, harray, if_false]

/-- Different slots have different texts. -/
theorem nodup_slotTexts {ms : List Message} (h : (ms.map slot).Nodup) :
    (ms.map slotText).Nodup := by
  have htexts : (allSlots.map textOfSlot).Nodup := by decide
  have hmap : ms.map slotText = (ms.map slot).map textOfSlot := by
    rw [List.map_map]
    exact List.map_congr_left fun m _ => m.slotText_eq
  rw [hmap]
  refine h.map_on fun s hs s' hs' heq => ?_
  obtain ⟨m, -, rfl⟩ := List.mem_map.1 hs
  obtain ⟨m', -, rfl⟩ := List.mem_map.1 hs'
  exact List.inj_on_of_nodup_map htexts m.slot_mem_allSlots m'.slot_mem_allSlots heq

/-- There are not more messages than slots. -/
theorem length_le_of_nodup_slots {ms : List Message} (h : (ms.map slot).Nodup) :
    ms.length ≤ 16 := by
  have hsubset : ms.map slot ⊆ allSlots := by
    intro s hs
    obtain ⟨m, -, rfl⟩ := List.mem_map.1 hs
    exact m.slot_mem_allSlots
  have hle := (List.subperm_of_subset h hsubset).length_le
  rwa [List.length_map] at hle

end Message

theorem Binary64.IsShare.isWithin {x : Binary64} (h : x.IsShare) : x.IsWithin 1074 := by
  refine ⟨h.isFinite, Int.ofNat_le.1 ?_⟩
  calc (x.units.natAbs : Int) = x.units := Int.natAbs_of_nonneg h.pos.le
    _ ≤ Binary64.one.units := h.le_one
    _ = ((2 ^ 1074 : Nat) : Int) := units_one

namespace LoadTest

/-! ### Well-formed mixes -/

theorem wellFormed_of_eq_nil {t : LoadTest} (h : t.messages = []) : t.WellFormed := by
  constructor
  · rw [h]
    exact List.nodup_nil
  · rw [h]
    exact fun m hm => absurd hm List.not_mem_nil
  · rw [h]
    exact fun m hm => absurd hm List.not_mem_nil

/-- A well-formed mix has a sum, and that is all that can be wrong with it. -/
theorem WellFormed.violation?_cases {t : LoadTest} (h : t.WellFormed) :
    t.violation? = .ok none ∨ ∃ total, t.violation? = .ok (some (.weightSum total)) := by
  have hvalid : (t.messages = [] ∨ HasTotal t.messages) → t.violation? = .ok none :=
    fun htotal => violation?_eq_none.2 ⟨htotal, h.slots, h.weight, h.complete⟩
  by_cases hnil : t.messages = []
  · exact Or.inl (hvalid (Or.inl hnil))
  have hwithin : ∀ x ∈ t.messages.map (·.weight), x.IsWithin 1074 := by
    intro x hx
    obtain ⟨m, hm, rfl⟩ := List.mem_map.1 hx
    exact (h.weight m hm).isWithin
  have hlength := Message.length_le_of_nodup_slots h.slots
  obtain ⟨total, hsum⟩ := Binary64.exists_sum hwithin (by rw [List.length_map]; omega)
  by_cases hclose : isCloseToOne total = true
  · exact Or.inl (hvalid (Or.inr ⟨total, hsum, hclose⟩))
  · refine Or.inr ⟨total, ?_⟩
    have hweights : weightSumViolation? t.messages = .ok (some (.weightSum total)) := by
      rw [weightSumViolation?, if_neg (by simpa using hnil), hsum]
      exact congrArg Except.ok (if_neg hclose)
    rw [violation?, hweights]
    rfl

/-! ### One step -/

/-- The step does not replace fields. -/
def Edit.IsOrdinary : Edit → Prop
  | .set _ => False
  | .validate | .validateNew _ | .add _ | .normalize | .check | .reload => True

/-- What the steps that succeed leave of a load test, one case for each of them. -/
inductive Edit.Leaves (t : LoadTest) : Edit → LoadTest → Prop where
  | validate : Leaves t .validate t
  | validateNew {m : Message} : Leaves t (.validateNew m) t
  | add {m : Message} (free : t.newMessageViolation? m = none) :
    Leaves t (.add m) { t with messages := t.messages ++ [m] }
  | normalize : Leaves t .normalize t.normalize
  | check : Leaves t .check t.normalize
  | reload : Leaves t .reload t.settled

variable {t t' : LoadTest} {e : Edit}

theorem add_eq_ok {m : Message} :
    t.add m = .ok t'
      ↔ t.newMessageViolation? m = none ∧ { t with messages := t.messages ++ [m] } = t' := by
  rw [add]
  cases t.newMessageViolation? m with
  | some violation =>
    constructor
    · intro h
      cases h
    · rintro ⟨h, -⟩
      cases h
  | none => simp

theorem newMessageViolation?_eq_none {m : Message} :
    t.newMessageViolation? m = none
      ↔ ((t.messages ++ [m]).map Message.slot).Nodup ∧ m.weight.IsShare ∧ m.Complete := by
  simp only [newMessageViolation?, Option.orElse_eq_orElse, Option.orElse_eq_or,
    Option.or_eq_none_iff, duplicate?_eq_none, weightViolation?_eq_none, fieldViolation?_eq_none,
    List.not_mem_nil, not_false_eq_true, implies_true, true_and]

theorem eq_settled_of_reload (h : t.reload.value = .ok t') : t' = t.settled := by
  cases hencode : t.encode with
  | error cause =>
    rw [reload, hencode] at h
    cases h
  | ok w =>
    rw [reload_of_encodesTo (encode_eq_ok.1 hencode)] at h
    exact (Except.ok.inj h).symm

theorem leaves_of_apply (he : e.IsOrdinary) {verdict : Verdict}
    (h : (t.apply e).value = .ok (t', verdict)) : e.Leaves t t' := by
  cases e with
  | set => exact he.elim
  | validate =>
    rw [apply] at h
    split at h
    · cases h
    · obtain ⟨rfl, -⟩ := Prod.mk.inj (Except.ok.inj h)
      exact .validate
  | validateNew m =>
    obtain ⟨rfl, -⟩ := Prod.mk.inj (Except.ok.inj h)
    exact .validateNew
  | add m =>
    obtain ⟨x, hx, heq⟩ := map_eq_ok.1 h
    obtain ⟨rfl, -⟩ := Prod.mk.inj heq
    obtain ⟨hfree, rfl⟩ := add_eq_ok.1 (mapError_eq_ok.1 hx)
    exact .add hfree
  | normalize =>
    obtain ⟨rfl, -⟩ := Prod.mk.inj (Except.ok.inj h)
    exact .normalize
  | check =>
    obtain ⟨x, hx, heq⟩ := map_eq_ok.1 h
    obtain ⟨rfl, -⟩ := Prod.mk.inj heq
    obtain ⟨-, rfl⟩ := checked_eq_ok.1 (mapError_eq_ok.1 hx)
    exact .check
  | reload =>
    obtain ⟨x, hx, heq⟩ := map_eq_ok.1 h
    obtain ⟨rfl, -⟩ := Prod.mk.inj heq
    exact eq_settled_of_reload hx ▸ .reload

theorem stage_of_failed (h : (t.stage e).outcome.value.isOk = false) : (t.stage e).state = t := by
  rw [stage] at h ⊢
  cases happly : (t.apply e).value with
  | error cause => rfl
  | ok result =>
    rw [happly] at h
    cases h

/-- A step fails and leaves everything as it was, or it succeeds and leaves what it is to leave. -/
theorem stage_cases (t : LoadTest) (he : e.IsOrdinary) :
    ((t.stage e).outcome.value.isOk = false ∧ (t.stage e).state = t)
      ∨ ((t.stage e).outcome.value.isOk = true ∧ e.Leaves t (t.stage e).state) := by
  rw [stage]
  cases happly : (t.apply e).value with
  | error cause => exact Or.inl ⟨rfl, rfl⟩
  | ok result => exact Or.inr ⟨rfl, leaves_of_apply he happly⟩

theorem messages_normalize (t : LoadTest) : t.normalize.messages = t.messages := by
  rw [normalize]
  split <;> rfl

theorem WellFormed.of_messages_eq (h : t.WellFormed) (heq : t'.messages = t.messages) :
    t'.WellFormed :=
  ⟨heq ▸ h.slots, heq ▸ h.weight, heq ▸ h.complete⟩

/-- Adding a message establishes the rules for it and for its slot; the other steps have nothing
to do with them. -/
theorem WellFormed.leaves (h : t.WellFormed) (he : e.Leaves t t') : t'.WellFormed := by
  cases he with
  | validate | validateNew => exact h
  | add hfree =>
    obtain ⟨hslots, hweight, hcomplete⟩ := newMessageViolation?_eq_none.1 hfree
    refine ⟨hslots, ?_, ?_⟩
    · exact List.forall_mem_append.2 ⟨h.weight, List.forall_mem_singleton.2 hweight⟩
    · exact List.forall_mem_append.2 ⟨h.complete, List.forall_mem_singleton.2 hcomplete⟩
  | normalize | check => exact h.of_messages_eq t.messages_normalize
  | reload => exact h.settled

theorem WellFormed.stage (h : t.WellFormed) (he : e.IsOrdinary) : (t.stage e).state.WellFormed := by
  rcases t.stage_cases he with ⟨-, hsame⟩ | ⟨-, hleaves⟩
  · rw [hsame]
    exact h
  · exact h.leaves hleaves

/-- The messages after a step that succeeds: what is added comes last, and reloading fills in the
counts that are open. -/
def grown (ms : List Message) (step : Edit × Stage) : List Message :=
  if step.2.outcome.value.isOk then
    match step.1 with
    | .add m => ms ++ [m]
    | .reload => ms.map Message.settled
    | _ => ms
  else ms

theorem messages_stage (t : LoadTest) (he : e.IsOrdinary) :
    (t.stage e).state.messages = grown t.messages (e, t.stage e) := by
  rcases t.stage_cases he with ⟨hfailed, hsame⟩ | ⟨hdone, hleaves⟩
  · rw [grown, hfailed, hsame]
    rfl
  · rw [grown, if_pos hdone]
    generalize (t.stage e).state = t' at hleaves ⊢
    cases hleaves with
    | normalize | check => exact t.messages_normalize
    | validate | validateNew | add | reload => rfl

/-! ### Runs -/

theorem length_stages (t : LoadTest) (es : List Edit) : (t.stages es).length = es.length := by
  induction es generalizing t with
  | nil => rfl
  | cons e es ih => exact congrArg Nat.succ (ih _)

variable {es : List Edit} {i : Nat} {s : Stage}

theorem WellFormed.stages (h : t.WellFormed) (hes : ∀ e ∈ es, e.IsOrdinary)
    (hs : (t.stages es)[i]? = some s) : s.state.WellFormed := by
  induction es generalizing t i with
  | nil => cases hs
  | cons e es ih =>
    rw [List.forall_mem_cons] at hes
    cases i with
    | zero => exact Option.some.inj hs ▸ h.stage hes.1
    | succ i => exact ih (h.stage hes.1) hes.2 hs

/-- The messages after a step are what the steps up to it have made of those at the beginning. -/
theorem messages_stages (hes : ∀ e ∈ es, e.IsOrdinary) (hs : (t.stages es)[i]? = some s) :
    s.state.messages = ((es.zip (t.stages es)).take (i + 1)).foldl grown t.messages := by
  induction es generalizing t i with
  | nil => cases hs
  | cons e es ih =>
    rw [List.forall_mem_cons] at hes
    have hstep := t.messages_stage hes.1
    cases i with
    | zero =>
      obtain rfl := Option.some.inj hs
      exact hstep
    | succ i =>
      rw [ih hes.2 hs, hstep]
      rfl

/-- A step that fails leaves what was there before it. -/
theorem state_of_failed (hs : (t.stages es)[i]? = some s) (hfailed : s.outcome.value.isOk = false) :
    (t :: (t.stages es).map (·.state))[i]? = some s.state := by
  induction es generalizing t i with
  | nil => cases hs
  | cons e es ih =>
    cases i with
    | zero =>
      obtain rfl := Option.some.inj hs
      exact congrArg some (stage_of_failed hfailed).symm
    | succ i => exact ih hs

/-- The messages of the steps of a run that added one and succeeded. -/
def added (run : List (Edit × Stage)) : List Message :=
  run.filterMap fun step => match step.1 with
    | .add m => if step.2.outcome.value.isOk then some m else none
    | _ => none

theorem map_settled_grown (ms : List Message) (step : Edit × Stage) :
    (grown ms step).map Message.settled = (ms ++ added [step]).map Message.settled := by
  obtain ⟨e, s⟩ := step
  cases hdone : s.outcome.value.isOk with
  | false => cases e <;> simp [grown, added, hdone]
  | true =>
    cases e with
    | add m => simp [grown, added, hdone]
    | reload =>
      -- filling in what is filled in already changes nothing
      have hagain : Message.settled ∘ Message.settled = Message.settled := rfl
      simp [grown, added, hdone, hagain]
    | validate | validateNew | normalize | check | set => simp [grown, added, hdone]

/-- Up to counts that are filled in, a run makes the messages those at the beginning and then
those that were added. -/
theorem map_settled_foldl_grown (run : List (Edit × Stage)) (ms : List Message) :
    (run.foldl grown ms).map Message.settled = (ms ++ added run).map Message.settled := by
  induction run generalizing ms with
  | nil => rw [added, List.filterMap_nil, List.append_nil, List.foldl_nil]
  | cons step run ih =>
    have hadded : added (step :: run) = added [step] ++ added run :=
      List.filterMap_append (l := [step])
    rw [List.foldl_cons, ih, hadded, ← List.append_assoc, List.map_append, map_settled_grown,
      ← List.map_append]

/-- Let a load test without messages be edited, in a run of any length of steps that do not
replace fields.  After each step no two messages have the same slot, every weight is above 0 and at
most 1, and every message is complete.  The check of the load test can be carried out, and finds
nothing but perhaps a wrong sum.  The messages are those of the steps so far that added one and
succeeded, in order, and reloading has filled in the counts that were open.  A step that fails
leaves the load test as the step before it did. -/
theorem editing_keeps_rules (ht : t.messages = []) (hes : ∀ e ∈ es, e.IsOrdinary)
    (hi : i < es.length) : ∃ s, (t.stages es)[i]? = some s
      ∧ (s.state.messages.map Message.slotText).Nodup
      ∧ (∀ m ∈ s.state.messages, m.weight.IsShare ∧ m.Complete)
      ∧ (s.state.violation? = .ok none
        ∨ ∃ total, s.state.violation? = .ok (some (.weightSum total)))
      ∧ s.state.messages = ((es.zip (t.stages es)).take (i + 1)).foldl grown []
      ∧ s.state.messages.map Message.settled
        = (added ((es.zip (t.stages es)).take (i + 1))).map Message.settled
      ∧ (s.outcome.value.isOk = false →
        (t :: (t.stages es).map (·.state))[i]? = some s.state) := by
  have hlength : i < (t.stages es).length := by rwa [length_stages]
  have hs := List.getElem?_eq_getElem hlength
  have hformed := (wellFormed_of_eq_nil ht).stages hes hs
  have hmessages := messages_stages hes hs
  rw [ht] at hmessages
  refine ⟨_, hs, Message.nodup_slotTexts hformed.slots,
    fun m hm => ⟨hformed.weight m hm, hformed.complete m hm⟩, hformed.violation?_cases, hmessages,
    ?_, state_of_failed hs⟩
  rw [hmessages, map_settled_foldl_grown, List.nil_append]

/-- A message is added, one whose weight is not a number is refused, and the load test is
reloaded. -/
theorem editing_refuses_nan :
    let t : LoadTest := {}
    let es : List Edit :=
      [.add { kind := .send, weight := .one }, .add { kind := .multiSend, weight := .nan }, .reload]
    ∃ s, (t.stages es)[2]? = some s
      ∧ s.state.messages
        = [{ kind := .send, weight := .one, count := some 1, recipients := some 1 }]
      ∧ ∀ m ∈ s.state.messages, m.weight.IsShare ∧ m.Complete := by
  intro t es
  have hes : ∀ e ∈ es, e.IsOrdinary := by simp [es, Edit.IsOrdinary]
  obtain ⟨s, hs, -, hrules, -, hmessages, -⟩ :=
    editing_keeps_rules (t := t) rfl hes (show 2 < es.length by decide)
  refine ⟨s, hs, ?_, hrules⟩
  rw [hmessages]
  decide +kernel

end LoadTest

end Trialnet
