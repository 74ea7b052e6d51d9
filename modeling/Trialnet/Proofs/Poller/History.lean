import Mathlib.Data.List.Basic
import Trialnet.Poller

/-!
# What a poller shows of its history

A poller keeps one result and one error.  This file says what they are after any run of actions,
in terms of the cycles that the run has gone through and of what each of them fetched: the result
is that of the last cycle that succeeded, and the error is that of the last cycle if it failed.
The recipient has been handed every result once and in order.  A cycle that fails, or a recipient
that does, is recorded once and ends nothing, so the rest of the run goes on as if nothing had
happened: `run_shows_history`.

Which actions run a cycle depends only on whether the poller runs, and this on the actions alone.
-/

namespace Trialnet.Poller

variable {α : Type}

/-! ### Cycles -/

/-- Whether a poller runs after an action. -/
def Action.leavesRunning (running : Bool) : Action → Bool
  | .start => true
  | .stop => false
  | .poll | .turn => running

/-- Whether an action runs a cycle. -/
def Action.runsCycle (running : Bool) : Action → Bool
  | .poll => true
  | .start => !running
  | .turn => running
  | .stop => false

namespace Stimulus

/-- The result of the fetch, if it succeeds. -/
def result? (x : Stimulus α) : Option α := x.fetched.value.toOption

/-- The error of the fetch, if it fails. -/
def error? (x : Stimulus α) : Option Error :=
  match x.fetched.value with
  | .error e => some e
  | .ok _ => none

/-- The result that is handed over, if there is one and somebody receives it. -/
def handed? (x : Stimulus α) : Option α := if x.recipient = .absent then none else x.result?

/-- Something fails in a cycle of a poller, and this is how it is recorded: the fetch, or the
recipient of what was fetched. -/
inductive FailsWith (x : Stimulus α) (poller : String) : Event → Prop where
  | fetch {e : Error} (fetched : x.fetched.value = .error e) :
    FailsWith x poller (.pollFailed poller e.message)
  | delivery {a : α} {text : String} (fetched : x.fetched.value = .ok a)
    (recipient : x.recipient = .failing text) : FailsWith x poller (.deliveryFailed poller text)

theorem FailsWith.level_eq {x : Stimulus α} {poller : String} {event : Event}
    (h : x.FailsWith poller event) : event.level = .error := by
  cases h <;> rfl

/-- The cycle that an action runs, if it runs one. -/
def cycle (running : Bool) (x : Stimulus α) : List (Stimulus α) :=
  if x.action.runsCycle running then [x] else []

end Stimulus

/-- The cycles of a run. -/
def cycles (running : Bool) : List (Stimulus α) → List (Stimulus α)
  | [] => []
  | x :: xs => x.cycle running ++ cycles (x.action.leavesRunning running) xs

/-- What an action leaves. -/
def respond (p : Poller α) (x : Stimulus α) : Outcome α := p.act x.action x.fetched x.recipient

/-- The poller after a run. -/
def after (p : Poller α) (xs : List (Stimulus α)) : Poller α :=
  xs.foldl (fun p x => (p.respond x).poller) p

/-! ### One action -/

/-- What a cycle leaves: the result or the error of its fetch, the result for the recipient, and
one record of what failed, if anything did. -/
structure Completes (p : Poller α) (x : Stimulus α) (o : Outcome α) : Prop where
  poller : o.poller = { p with latest := x.result?.or p.latest, lastError := x.error? }
  delivered : o.delivered = x.handed?.toList
  log_failed : ∀ event, x.FailsWith p.name event → o.log = x.fetched.log ++ [event]
  log_quiet : (∀ event, ¬ x.FailsWith p.name event) → o.log = x.fetched.log

section

variable (p : Poller α) (x : Stimulus α)

theorem poller_cycle : (p.cycle x.fetched x.recipient).poller
    = { p with latest := x.result?.or p.latest, lastError := x.error? } := by
  rw [cycle, Stimulus.result?, Stimulus.error?]
  cases x.fetched.value with
  | error e => rfl
  | ok a => cases x.recipient <;> rfl

theorem delivered_cycle : (p.cycle x.fetched x.recipient).delivered = x.handed?.toList := by
  rw [cycle, Stimulus.handed?, Stimulus.result?]
  cases x.fetched.value with
  | error e => cases x.recipient <;> rfl
  | ok a => cases x.recipient <;> rfl

end

variable {p : Poller α} {x : Stimulus α}

theorem log_cycle_of_failsWith {event : Event} (h : x.FailsWith p.name event) :
    (p.cycle x.fetched x.recipient).log = x.fetched.log ++ [event] := by
  cases h with
  | fetch hvalue => rw [cycle, hvalue]
  | delivery hvalue hrecipient => rw [cycle, hvalue, hrecipient]

theorem log_cycle_of_not_failsWith (h : ∀ event, ¬ x.FailsWith p.name event) :
    (p.cycle x.fetched x.recipient).log = x.fetched.log := by
  rw [cycle]
  cases hvalue : x.fetched.value with
  | error e => exact absurd (.fetch hvalue) (h _)
  | ok a =>
    cases hrecipient : x.recipient with
    | failing text => exact absurd (.delivery hvalue hrecipient) (h _)
    | absent | ready => rfl

theorem completes_cycle (p : Poller α) (x : Stimulus α) :
    p.Completes x (p.cycle x.fetched x.recipient) :=
  ⟨p.poller_cycle x, p.delivered_cycle x, fun _ => log_cycle_of_failsWith,
    log_cycle_of_not_failsWith⟩

/-- Whoever runs a cycle runs the same one; starting the poller only sets it running first. -/
theorem completes_respond (h : x.action.runsCycle p.running = true) :
    { p with running := x.action.leavesRunning p.running }.Completes x (p.respond x) := by
  have hcycle : p.respond x
      = { p with running := x.action.leavesRunning p.running }.cycle x.fetched x.recipient := by
    rw [respond]
    cases haction : x.action with
    | poll => rfl
    | start =>
      have hrunning : p.running = false := by simpa [haction, Action.runsCycle] using h
      rw [act, hrunning]
      rfl
    | turn =>
      have hrunning : p.running = true := by simpa [haction, Action.runsCycle] using h
      rw [act, if_pos hrunning, Action.leavesRunning]
    | stop => simp [haction, Action.runsCycle] at h
  rw [hcycle]
  exact completes_cycle _ x

theorem respond_of_not_runsCycle (h : x.action.runsCycle p.running = false) :
    p.respond x = { poller := { p with running := x.action.leavesRunning p.running }
                    log := if x.action = .start then [.alreadyRunning p.name] else [] } := by
  rw [respond]
  cases haction : x.action with
  | poll => simp [haction, Action.runsCycle] at h
  | start =>
    have hrunning : p.running = true := by simpa [haction, Action.runsCycle] using h
    rw [act, if_pos hrunning, if_pos rfl, Action.leavesRunning, ← hrunning]
  | turn =>
    have hrunning : p.running = false := by simpa [haction, Action.runsCycle] using h
    rw [act, hrunning, if_neg Bool.false_ne_true, if_neg (by decide), Action.leavesRunning,
      ← hrunning]
  | stop => rw [act, if_neg (by decide), Action.leavesRunning]

theorem running_respond (p : Poller α) (x : Stimulus α) :
    (p.respond x).poller.running = x.action.leavesRunning p.running := by
  cases h : x.action.runsCycle p.running with
  | true => rw [(completes_respond h).poller]
  | false => rw [respond_of_not_runsCycle h]

theorem name_respond (p : Poller α) (x : Stimulus α) : (p.respond x).poller.name = p.name := by
  cases h : x.action.runsCycle p.running with
  | true => rw [(completes_respond h).poller]
  | false => rw [respond_of_not_runsCycle h]

theorem delivered_respond (p : Poller α) (x : Stimulus α) :
    (p.respond x).delivered = (x.cycle p.running).filterMap Stimulus.handed? := by
  cases h : x.action.runsCycle p.running with
  | true =>
    rw [(completes_respond h).delivered, Stimulus.cycle, if_pos h]
    cases hhanded : x.handed? <;> simp [hhanded]
  | false =>
    rw [respond_of_not_runsCycle h, Stimulus.cycle, h]
    rfl

/-- The recipient has no part in what the poller is afterwards. -/
theorem poller_respond (recipient : Recipient) :
    (p.respond { x with recipient }).poller = (p.respond x).poller := by
  cases h : x.action.runsCycle p.running with
  | true =>
    have hother := completes_respond (x := { x with recipient }) h
    exact hother.poller.trans (completes_respond h).poller.symm
  | false =>
    have hother := respond_of_not_runsCycle (x := { x with recipient }) h
    exact congrArg Outcome.poller (hother.trans (respond_of_not_runsCycle h).symm)

/-- The poller has kept what it should have of its cycles so far. -/
structure Shows (p : Poller α) (past : List (Stimulus α)) : Prop where
  latest : p.latest = (past.filterMap Stimulus.result?).getLast?
  lastError : p.lastError = past.getLast?.bind Stimulus.error?

theorem Shows.respond {past : List (Stimulus α)} (h : p.Shows past) :
    (p.respond x).poller.Shows (past ++ x.cycle p.running) := by
  cases hcycle : x.action.runsCycle p.running with
  | true =>
    have hpoller := (completes_respond hcycle).poller
    rw [Stimulus.cycle, if_pos hcycle]
    constructor
    · rw [hpoller, h.latest, List.filterMap_append, List.getLast?_append]
      cases hresult : x.result? <;> simp [hresult]
    · rw [hpoller, List.getLast?_concat]
      rfl
  | false =>
    rw [respond_of_not_runsCycle hcycle, Stimulus.cycle, hcycle]
    simpa using ⟨h.latest, h.lastError⟩

/-! ### Runs -/

theorem running_after (p : Poller α) (xs : List (Stimulus α)) :
    (p.after xs).running = (xs.map (·.action)).foldl Action.leavesRunning p.running := by
  induction xs generalizing p with
  | nil => rfl
  | cons x xs ih => exact (ih _).trans (by rw [running_respond]; rfl)

theorem name_after (p : Poller α) (xs : List (Stimulus α)) : (p.after xs).name = p.name := by
  induction xs generalizing p with
  | nil => rfl
  | cons x xs ih => exact (ih _).trans (name_respond p x)

theorem run_append (p : Poller α) (xs ys : List (Stimulus α)) :
    p.run (xs ++ ys) = p.run xs ++ (p.after xs).run ys := by
  induction xs generalizing p with
  | nil => rfl
  | cons x xs ih => exact congrArg (p.respond x :: ·) (ih _)

theorem Shows.after {past : List (Stimulus α)} (h : p.Shows past) (xs : List (Stimulus α)) :
    (p.after xs).Shows (past ++ cycles p.running xs) := by
  induction xs generalizing p past with
  | nil => rwa [cycles, List.append_nil]
  | cons x xs ih =>
    have hrest := ih (h.respond (x := x))
    rwa [running_respond, List.append_assoc] at hrest

theorem delivered_run (p : Poller α) (xs : List (Stimulus α)) :
    (p.run xs).flatMap (·.delivered) = (cycles p.running xs).filterMap Stimulus.handed? := by
  induction xs generalizing p with
  | nil => rfl
  | cons x xs ih =>
    have hrun : p.run (x :: xs) = p.respond x :: (p.respond x).poller.run xs := rfl
    rw [hrun, List.flatMap_cons, delivered_respond, ih, running_respond, cycles,
      List.filterMap_append]

theorem shows_nil (name : String) (interval : Binary64) :
    ({ name, interval } : Poller α).Shows [] := ⟨rfl, rfl⟩

/-- Let a poller go through any run of actions, whatever is fetched and whoever receives it, and
look at it after one of them.

* The action leaves an outcome, and the run goes on with the actions after it.
* The latest result is that of the last cycle so far whose fetch succeeded.
* The error is that of the last cycle if its fetch failed, and there is none otherwise.
* Each result so far has been handed over once and in order, if somebody was there to receive it.
* Whether the recipient fails makes no difference to the poller.
* If the action runs a cycle, the poller records one error if the fetch or the recipient fails and
  nothing otherwise.
* Starting a poller that was started last and not stopped records a warning and does nothing. -/
theorem run_shows_history (name : String) (interval : Binary64) (xs ys : List (Stimulus α))
    (x : Stimulus α) :
    let p : Poller α := { name, interval }
    let q := p.after xs
    let o := q.respond x
    let past := cycles false (xs ++ [x])
    p.run (xs ++ x :: ys) = p.run xs ++ o :: o.poller.run ys
      ∧ o.poller.latest = (past.filterMap Stimulus.result?).getLast?
      ∧ o.poller.lastError = past.getLast?.bind Stimulus.error?
      ∧ (p.run xs ++ [o]).flatMap (·.delivered) = past.filterMap Stimulus.handed?
      ∧ (∀ recipient, (q.respond { x with recipient }).poller = o.poller)
      ∧ q.running = (xs.map (·.action)).foldl Action.leavesRunning false
      ∧ (x.action.runsCycle q.running = true →
        (∀ event, x.FailsWith name event →
          o.log = x.fetched.log ++ [event] ∧ event.level = .error)
        ∧ ((∀ event, ¬ x.FailsWith name event) → o.log = x.fetched.log))
      ∧ (x.action = .start → q.running = true →
        o.poller = q ∧ o.delivered = [] ∧ ∃ event, o.log = [event] ∧ event.level = .warning) := by
  intro p q o past
  have hname : q.name = name := p.name_after xs
  have hrun : p.run (xs ++ [x]) = p.run xs ++ [o] := p.run_append xs [x]
  have hshows : o.poller.Shows past := by
    have hafter := (shows_nil name interval).after (xs ++ [x])
    rwa [after, List.foldl_append] at hafter
  refine ⟨p.run_append xs (x :: ys), hshows.latest, hshows.lastError, ?_, fun recipient => ?_,
    p.running_after xs, fun hcycle => ?_, fun hstart hrunning => ?_⟩
  · rw [← hrun]
    exact p.delivered_run _
  · exact poller_respond recipient
  · have hcompletes := completes_respond hcycle
    refine ⟨fun event hfails => ?_, fun hquiet => ?_⟩
    · exact ⟨hcompletes.log_failed event (hname ▸ hfails), hfails.level_eq⟩
    · exact hcompletes.log_quiet (hname ▸ hquiet)
  · have hidle : x.action.runsCycle q.running = false := by
      rw [hstart, hrunning]
      rfl
    have hrespond : o = _ := respond_of_not_runsCycle hidle
    rw [hrespond, hstart, if_pos rfl]
    refine ⟨?_, rfl, _, rfl, rfl⟩
    rw [Action.leavesRunning, ← hrunning]

end Trialnet.Poller
