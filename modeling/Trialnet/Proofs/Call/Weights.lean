import Trialnet.Proofs.Binary64.Magnitude
import Trialnet.Proofs.Call.Agreement
import Trialnet.Proofs.Call.Attempts

/-!
# Weights without a sum

The weights of a load test are added up before their range is looked at, so there may be weights
that have no sum: the check of the load test then ends in the failure of the summation, and finds
neither a violation nor none.  That failure is all that can go wrong: with a sum, whatever it is,
the check comes to a verdict, and nothing but a violation keeps a load test from being sent or
encoded.  `LoadTest.settles_iff` tells the two cases apart, and gives conditions on the weights
themselves that lead to either of them.
-/

namespace Trialnet

/-- The weights in the order of the messages. -/
def LoadTest.weights (t : LoadTest) : List Binary64 := t.messages.map (·.weight)

namespace LoadTest

variable {t : LoadTest} {found : Option Violation} {cause : Binary64.SumError}

/-- What comes of a load test in which a violation is found. -/
structure IsRefusedFor (t : LoadTest) (v : Violation) : Prop where
  checked : t.checked = .error (.loadTest v)
  run : ∀ id s reply, ((Service.runLoadTest id t).perform s reply).sent = []
    ∧ ((Service.runLoadTest id t).perform s reply).outcome = .error (.rejection (.loadTest v))

/-- What comes of a load test in which nothing is found. -/
structure IsLetThrough (t : LoadTest) : Prop where
  checked : t.checked = .ok t.normalize
  run : ∀ id s reply cause,
    ((Service.runLoadTest id t).perform s reply).outcome ≠ .error (.rejection cause)

/-- The check comes to a verdict, and nothing but a violation is a reason to reject. -/
inductive Settles (t : LoadTest) : Prop where
  | refused {v : Violation} (found : t.violation? = .ok (some v)) (refused : t.IsRefusedFor v)
  | letThrough (found : t.violation? = .ok none) (letThrough : t.IsLetThrough)

/-- The check fails with its summation, and so does everything that needs it. -/
structure Escapes (t : LoadTest) (cause : Binary64.SumError) : Prop where
  found : t.violation? = .error cause
  checked : t.checked = .error (.weights cause)
  run : ∀ id s reply, ((Service.runLoadTest id t).perform s reply).sent = []
    ∧ ((Service.runLoadTest id t).perform s reply).outcome = .error (.rejection (.weights cause))

/-! ### From the summation to the verdict -/

theorem exists_violation? {total : Binary64} (h : Binary64.sum t.weights = .ok total) :
    ∃ found, t.violation? = .ok found := by
  have hfirst : ∃ v, weightSumViolation? t.messages = .ok v := by
    rw [weightSumViolation?]
    split
    · exact ⟨none, rfl⟩
    · rw [show Binary64.sum (t.messages.map (·.weight)) = .ok total from h]
      exact ⟨_, rfl⟩
  obtain ⟨v, hv⟩ := hfirst
  rw [violation?, hv]
  cases v with
  | none => exact ⟨_, rfl⟩
  | some v => exact ⟨_, rfl⟩

theorem violation?_eq_error (h : Binary64.sum t.weights = .error cause) :
    t.violation? = .error cause := by
  have hmessages : ¬ t.messages.isEmpty = true := by
    intro hnil
    rw [weights, List.isEmpty_iff.1 hnil] at h
    cases h
  rw [violation?, weightSumViolation?, if_neg hmessages,
    show Binary64.sum (t.messages.map (·.weight)) = .error cause from h]
  rfl

/-! ### From the verdict to the call -/

theorem checked_eq_error {r : Rejection} (h : t.check = .error r) : t.checked = .error r := by
  rw [checked, h]
  rfl

/-- A load test that the check rejects is not sent. -/
theorem perform_of_check_eq_error {r : Rejection} (h : t.check = .error r) (id : String)
    (s : Client) (reply : Reply) :
    ((Service.runLoadTest id t).perform s reply).sent = []
      ∧ ((Service.runLoadTest id t).perform s reply).outcome = .error (.rejection r) := by
  have hrequest : (Service.runLoadTest id t).request.value = .error (.rejection r) := by
    rw [Service.request_runLoadTest_eq_map, prepared, h]
    rfl
  rw [Operation.perform, hrequest]
  exact ⟨rfl, rfl⟩

/-- A load test that the check accepts is not rejected later on. -/
theorem outcome_ne_rejection (h : t.check = .ok ()) (id : String) (s : Client) (reply : Reply)
    (r : Rejection) :
    ((Service.runLoadTest id t).perform s reply).outcome ≠ .error (.rejection r) := by
  intro houtcome
  have hrequest := Service.request_runLoadTest_eq_map id t
  rw [prepared, h] at hrequest
  rw [Operation.perform] at houtcome
  split at houtcome
  · rename_i e he
    obtain rfl := Except.error.inj houtcome
    -- what is left to fail is the encoder, and it does not reject
    rw [he] at hrequest
    cases hencode : t.encode with
    | error e' =>
      rw [hencode] at hrequest
      cases hrequest
    | ok x =>
      rw [hencode] at hrequest
      cases hrequest
  · exact Operation.not_isPreparatory_of_conclude houtcome trivial

theorem settles_of_sum {total : Binary64} (h : Binary64.sum t.weights = .ok total) : t.Settles := by
  obtain ⟨found, hfound⟩ := exists_violation? h
  cases found with
  | none =>
    have hcheck : t.check = .ok () := by rw [check, hfound]
    exact .letThrough hfound
      ⟨checked_eq_ok.2 ⟨check_eq_ok.1 hcheck, rfl⟩, outcome_ne_rejection hcheck⟩
  | some v =>
    have hcheck : t.check = .error (.loadTest v) := by rw [check, hfound]
    exact .refused hfound ⟨checked_eq_error hcheck, perform_of_check_eq_error hcheck⟩

theorem escapes_of_sum (h : Binary64.sum t.weights = .error cause) : t.Escapes cause := by
  have hfound := violation?_eq_error h
  have hcheck : t.check = .error (.weights cause) := by rw [check, hfound]
  exact ⟨hfound, checked_eq_error hcheck, perform_of_check_eq_error hcheck⟩

theorem Settles.not_escapes (h : t.Settles) : ¬ t.Escapes cause := by
  intro hescapes
  cases h with
  | refused hfound => cases hfound.symm.trans hescapes.found
  | letThrough hfound => cases hfound.symm.trans hescapes.found

/-- The check of a load test comes to a verdict exactly if its weights have a sum, and otherwise it
fails as their summation does.  They have a sum if neither they nor their running totals exceed
`2 ^ 1023` and the infinities among them have one sign; they have none if both infinities are among
them, or if a running total reaches `2 ^ 1024`. -/
theorem settles_iff (t : LoadTest) :
    (t.Settles ↔ ∃ total, Binary64.sum t.weights = .ok total)
      ∧ (∀ cause, t.Escapes cause ↔ Binary64.sum t.weights = .error cause)
      ∧ (Binary64.IsModerate t.weights → t.Settles)
      ∧ (.infinite true ∈ t.weights → .infinite false ∈ t.weights → ∃ cause, t.Escapes cause)
      ∧ ((∃ u ∈ Binary64.runningTotals 0 t.weights, 2 ^ 1024 * Binary64.unitsPerOne ≤ u.natAbs) →
        t.Escapes .overflow) := by
  have hsettles : t.Settles ↔ ∃ total, Binary64.sum t.weights = .ok total := by
    refine ⟨fun h => ?_, fun ⟨_, h⟩ => settles_of_sum h⟩
    cases hsum : Binary64.sum t.weights with
    | error cause => exact absurd (escapes_of_sum hsum) h.not_escapes
    | ok total => exact ⟨total, rfl⟩
  refine ⟨hsettles, fun cause => ⟨fun h => ?_, escapes_of_sum⟩, fun h => hsettles.2 h.exists_sum,
    fun hneg hpos => ?_, fun ⟨u, hu, hle⟩ => escapes_of_sum (Binary64.sum_eq_overflow hu hle)⟩
  · cases hsum : Binary64.sum t.weights with
    | error cause' =>
      obtain rfl := Except.error.inj ((escapes_of_sum hsum).found.symm.trans h.found)
      rfl
    | ok total => exact absurd h (settles_of_sum hsum).not_escapes
  · obtain ⟨cause, hsum⟩ := Binary64.exists_sum_eq_error hneg hpos
    exact ⟨cause, escapes_of_sum hsum⟩

/-- An infinite weight, one that is not a number and a negative one come to a verdict, but with the
other infinity they have no sum. -/
theorem settles_iff_infinite :
    let t : LoadTest :=
      { messages :=
          [{ kind := .send, weight := .infinite false }, { kind := .send, weight := .nan },
            { kind := .send, weight := Binary64.one.neg }] }
    t.Settles ∧ ∃ cause,
      Escapes { t with messages := { kind := .send, weight := .infinite true } :: t.messages }
        cause := by
  intro t
  refine ⟨(settles_iff t).2.2.1 ⟨?_, ?_, ?_⟩, (settles_iff _).2.2.2.1 ?_ ?_⟩
  · decide +kernel
  · decide +kernel
  · decide +kernel
  · exact List.mem_cons_self
  · exact List.mem_cons_of_mem _ List.mem_cons_self

/-- Two weights of `10 ^ 308` have no sum, and neither have opposed infinities: the check comes to
no verdict. -/
theorem not_settles_huge :
    let mix (x y : Binary64) : LoadTest :=
      { name := "t"
        messages := [{ kind := .send, weight := x }, { kind := .multiSend, weight := y }] }
    ¬ (mix (.ofDecimal false 1 308) (.ofDecimal false 1 308)).Settles
      ∧ ¬ (mix (.infinite false) (.infinite true)).Settles := by
  intro mix
  have hhuge : (mix (.ofDecimal false 1 308) (.ofDecimal false 1 308)).violation?
      = .error .overflow := by
    decide +kernel
  have hopposed : (mix (.infinite false) (.infinite true)).violation?
      = .error .opposedInfinities := by
    decide +kernel
  constructor
  · rintro (hfound | hfound)
    · cases hfound.symm.trans hhuge
    · cases hfound.symm.trans hhuge
  · rintro (hfound | hfound)
    · cases hfound.symm.trans hopposed
    · cases hfound.symm.trans hopposed

end LoadTest

end Trialnet
