import Trialnet.LoadTest.Basic
import Trialnet.Binary64.Sum
import Trialnet.Binary64.Text

/-!
# Valid load tests

A load test is submitted only if its messages obey four rules, which are checked one after
the other over the whole mix:

1. the weights of a mix that is not empty add up to 1, within 0.001;
2. no two messages occupy the same slot;
3. every weight is above 0 and at most 1;
4. a bundle names another kind and a positive count, and a message to several recipients, if
   it gives their number, a positive one.

The first rule that is broken, at the first message that breaks it, is what is reported.
-/

namespace Trialnet

namespace LoadTest

/-- What is wrong with a load test. -/
inductive Violation where
  /-- The weights add up to something else than 1. -/
  | weightSum (total : Binary64)
  /-- A message occupies the slot of an earlier one. -/
  | duplicate (kind : MessageKind) (contained : Option MessageKind)
  /-- A weight is out of range. -/
  | weight (weight : Binary64)
  /-- A bundle does not say what it contains. -/
  | noContained
  /-- A bundle has no positive count. -/
  | noCount
  /-- The number of recipients is given, and not positive. -/
  | noRecipients
  deriving DecidableEq

/-- The wording of a violation. -/
def Violation.message : Violation → String
  | .weightSum total =>
    s!"Total message weight must be exactly 1.0. Current: {total.fixed 2}"
  | .duplicate kind none => s!"Duplicate message type: {kind.name}"
  | .duplicate kind (some contained) =>
    s!"Duplicate message type: {kind.name} with contained type {contained.name}"
  | .weight w => s!"Weight must be between 0 and 1, got {w.text}"
  | .noContained => "MsgArr type requires a Contained Type other than MsgArr"
  | .noCount => "MsgArr type requires a positive Number of Messages"
  | .noRecipients => "MsgMultiSend requires a positive Number of Recipients"

/-- How far the sum of the weights may be from 1. -/
def tolerance : Binary64 := .ofDecimal false 1 (-3)

/-- Whether a sum of weights is close enough to 1. -/
def isCloseToOne (total : Binary64) : Bool :=
  total.isFinite && (total.units - Binary64.one.units).natAbs ≤ tolerance.units.natAbs

/-- The first rule: the sum of the weights. -/
def weightSumViolation? (ms : List Message) : Except Binary64.SumError (Option Violation) :=
  if ms.isEmpty then .ok none
  else do
    let total ← Binary64.sum (ms.map (·.weight))
    return if isCloseToOne total then none else some (.weightSum total)

/-- The second rule: the first message whose slot is among those seen before it. -/
def duplicate? (seen : List (MessageKind × Option MessageKind)) :
    List Message → Option Violation
  | [] => none
  | m :: ms =>
    if seen.contains m.slot then some (.duplicate m.kind m.slot.2)
    else duplicate? (m.slot :: seen) ms

/-- The third rule for one message. -/
def weightViolation? (m : Message) : Option Violation :=
  if Binary64.zero.lt m.weight && m.weight.le .one then none else some (.weight m.weight)

/-- Whether a count is given and positive. -/
def isPositive (n : Option Int) : Bool :=
  match n with
  | some n => 0 < n
  | none => false

/-- The fourth rule for one message. -/
def fieldViolation? (m : Message) : Option Violation :=
  match m.kind with
  | .array =>
    if m.contained = none ∨ m.contained = some .array then some .noContained
    else if isPositive m.count then none else some .noCount
  | .multiSend => if m.recipients = none ∨ isPositive m.recipients then none else some .noRecipients
  | _ => none

/-- The first violation of a load test, if there is one. -/
def violation? (t : LoadTest) : Except Binary64.SumError (Option Violation) := do
  match ← weightSumViolation? t.messages with
  | some v => return some v
  | none =>
    return duplicate? [] t.messages
      <|> t.messages.findSome? weightViolation?
      <|> t.messages.findSome? fieldViolation?

/-- The first violation by a message that is about to be added; the sum is not yet looked
at. -/
def newMessageViolation? (t : LoadTest) (m : Message) : Option Violation :=
  duplicate? [] (t.messages ++ [m]) <|> weightViolation? m <|> fieldViolation? m

/-- The load test as it is submitted: a timeout means nothing unless transactions are
unordered, and is cleared. -/
def normalize (t : LoadTest) : LoadTest := if t.unordered then t else { t with timeout := "" }

end LoadTest

end Trialnet
