import Trialnet.Proofs.Payload.Success
import Trialnet.Template.Wire
import Trialnet.Workflow.Wire

/-!
# Errors in a log

A log may hold errors, warnings and mere information.  This file says of whatever is encoded or
decoded that it leaves no errors: the messages, documents, runners and durations that are given up
on the way are warned about (`Launch.isErrorFree_encode`, `Workflow.isErrorFree_of_decode`,
`Template.isErrorFree_of_decode`).  A decoder that fails leaves nothing at all.
-/

namespace Trialnet

/-! ### Logs -/

namespace Event

/-- The errors of a log, in their order. -/
def errors (log : List Event) : List Event := log.filter fun e => e.level = .error

theorem errors_append (log log' : List Event) :
    errors (log ++ log') = errors log ++ errors log' := List.filter_append log log'

end Event

namespace Logged

variable {α β : Type} {x : Logged α}

/-- No error has been recorded. -/
def IsErrorFree (x : Logged α) : Prop := Event.errors x.log = []

theorem isErrorFree_pure (a : α) : (pure a : Logged α).IsErrorFree := rfl

theorem IsErrorFree.bind {f : α → Logged β} (hx : x.IsErrorFree) (hf : ∀ a, (f a).IsErrorFree) :
    (x >>= f).IsErrorFree := by
  rw [IsErrorFree, log_bind, Event.errors_append, hx, hf, List.append_nil]

theorem IsErrorFree.map {f : α → β} (hx : x.IsErrorFree) : (f <$> x).IsErrorFree :=
  hx.bind fun _ => isErrorFree_pure _

end Logged

open Logged (isErrorFree_pure)

/-! ### Encoders and decoders -/

theorem Message.isErrorFree_decode (w : Wire.Message) : (decode w).IsErrorFree := by
  rw [decode]
  cases MessageKind.ofName? w.kind with
  | none => rfl
  | some kind => rfl

theorem Message.isErrorFree_decodeAll (ws : List Wire.Message) : (decodeAll ws).IsErrorFree := by
  induction ws with
  | nil => exact isErrorFree_pure _
  | cons w ws ih => exact (isErrorFree_decode w).bind fun _ => ih.bind fun _ => isErrorFree_pure _

theorem LoadTest.isErrorFree_decode (w : Wire.LoadTest) : (decode w).IsErrorFree :=
  (Message.isErrorFree_decodeAll w.messages).bind fun _ => isErrorFree_pure _

variable {levels : Nat}

/-- Documents that are given up leave warnings. -/
theorem Chain.isErrorFree_of_decode {w : Wire.Chain} {x : Logged Chain}
    (h : decode levels w = .ok x) : x.IsErrorFree := by
  obtain ⟨⟨c, warnings⟩, -, hx⟩ := bind_eq_ok.1 h
  obtain rfl := Except.ok.inj hx
  refine List.filter_eq_nil_iff.2 fun e he => ?_
  obtain ⟨warning, -, rfl⟩ := List.mem_map.1 he
  exact of_decide_eq_false rfl

namespace Launch

theorem isErrorFree_decodeRunner (name : String) : (decodeRunner name).IsErrorFree := by
  rw [decodeRunner]
  cases Runner.ofName? name with
  | none => rfl
  | some r => rfl

theorem isErrorFree_decodeLoadTest (w : Option Wire.LoadTest) :
    (decodeLoadTest w).IsErrorFree := by
  cases w with
  | none => exact isErrorFree_pure _
  | some t => exact (LoadTest.isErrorFree_decode t).map

theorem isErrorFree_decodeRest (w : Wire.Launch) (c : Chain) : (decodeRest w c).IsErrorFree :=
  (isErrorFree_decodeLoadTest w.loadTest).bind fun _ =>
    (isErrorFree_decodeRunner w.runner).bind fun _ => isErrorFree_pure _

theorem isErrorFree_of_decodeChain {w : Option Wire.Chain} {x : Logged Chain}
    (h : decodeChain levels w = .ok x) : x.IsErrorFree := by
  cases w with
  | none =>
    obtain rfl := Except.ok.inj h
    exact isErrorFree_pure _
  | some c => exact Chain.isErrorFree_of_decode h

theorem isErrorFree_of_decode {w : Wire.Launch} {x : Logged Launch}
    (h : decode levels w = .ok x) : x.IsErrorFree := by
  obtain ⟨chain, hchain, hx⟩ := bind_eq_ok.1 h
  obtain rfl := Except.ok.inj hx
  exact (isErrorFree_of_decodeChain hchain).bind (isErrorFree_decodeRest w)

/-- A duration that is ignored leaves a warning. -/
theorem isErrorFree_durationSeconds (l : Launch) : l.durationSeconds.IsErrorFree := by
  rw [durationSeconds]
  cases Duration.read l.duration with
  | ok n => cases n <;> exact isErrorFree_pure _
  | error cause =>
    cases l.longRunning with
    | false => exact isErrorFree_pure _
    | true => rfl

theorem isErrorFree_encode (l : Launch) : l.encode.IsErrorFree := by
  rw [encode]
  cases l.encodeParts with
  | error e => exact isErrorFree_pure _
  | ok parts =>
    refine l.isErrorFree_durationSeconds.bind fun seconds => ?_
    cases seconds <;> exact isErrorFree_pure _

end Launch

theorem Template.isErrorFree_encode (t : Template) : t.encode.IsErrorFree :=
  t.launch.isErrorFree_encode.bind fun _ => isErrorFree_pure _

theorem Template.isErrorFree_of_decodeLaunch {w : Option Wire.Launch} {x : Logged Launch}
    (h : decodeLaunch levels w = .ok x) : x.IsErrorFree := by
  cases w with
  | none =>
    obtain rfl := Except.ok.inj h
    exact isErrorFree_pure _
  | some l => exact Launch.isErrorFree_of_decode h

theorem Template.isErrorFree_of_decode {w : Wire.Template} {x : Logged Template}
    (h : decode levels w = .ok x) : x.IsErrorFree := by
  obtain ⟨launch, hlaunch, hx⟩ := bind_eq_ok.1 h
  obtain rfl := Except.ok.inj hx
  exact (isErrorFree_of_decodeLaunch hlaunch).map

theorem Workflow.isErrorFree_of_decodeLaunch {w : Option Wire.Launch} {x : Logged (Option Launch)}
    (h : decodeLaunch levels w = .ok x) : x.IsErrorFree := by
  cases w with
  | none =>
    obtain rfl := Except.ok.inj h
    exact isErrorFree_pure _
  | some l =>
    obtain ⟨launch, hlaunch, hx⟩ := bind_eq_ok.1 h
    obtain rfl := Except.ok.inj hx
    exact (Launch.isErrorFree_of_decode hlaunch).map

theorem Workflow.isErrorFree_of_decode {w : Wire.Workflow} {x : Logged Workflow}
    (h : decode levels w = .ok x) : x.IsErrorFree := by
  obtain ⟨launch, hlaunch, hx⟩ := bind_eq_ok.1 h
  obtain rfl := Except.ok.inj hx
  exact (isErrorFree_of_decodeLaunch hlaunch).bind fun _ =>
    (Launch.isErrorFree_decodeLoadTest w.loadTest).bind fun _ => isErrorFree_pure _

end Trialnet
