import Trialnet.LoadTest.Basic
import Trialnet.Wire.LoadTest
import Trialnet.EncodeError
import Trialnet.Event

/-!
# Load tests to and from the wire

Encoding fills in the counts that a message leaves open and turns the timeout into seconds; an
ordered load test sends no timeout.  Decoding leaves out messages of an unknown kind, with a
warning.
-/

namespace Trialnet

open Payload

namespace Message

/-- The count of messages, or of recipients, that a message leaves open. -/
def openCount : Int := 1

/-- The wire form of a message. -/
def encode (m : Message) : Except EncodeError Wire.Message :=
  let counts : Reading (Signed32 × Signed32) :=
    Prod.mk <$> (inRange _ _ (m.count.getD openCount)).under (.key "numMsgs")
      <*> (inRange _ _ (m.recipients.getD openCount)).under (.key "numOfRecipients")
  (counts.fit Wire.Message.schema).map fun (count, recipients) =>
    { kind := m.kind.name, weight := m.weight
      contained := (m.contained.map MessageKind.name).getD ""
      count, recipients }

/-- The message of a wire form; there is none if its kind is unknown, which is recorded. -/
def decode (w : Wire.Message) : Logged (Option Message) :=
  match MessageKind.ofName? w.kind with
  | none => ⟨none, [.messageDropped w.kind]⟩
  | some kind =>
    ⟨some { kind, weight := w.weight, count := some w.count.val
            contained := MessageKind.ofName? w.contained
            recipients := some w.recipients.val }, []⟩

/-- The messages of wire forms, without those of unknown kinds. -/
def decodeAll : List Wire.Message → Logged (List Message)
  | [] => pure []
  | w :: ws => do
    let m ← decode w
    let ms ← decodeAll ws
    return m.toList ++ ms

end Message

namespace LoadTest

/-- The timeout in seconds of an unordered load test that gives none. -/
def defaultTimeout : Int := 30

/-- The timeout in seconds that a load test sends, if it sends one. -/
def timeoutSeconds (t : LoadTest) : Except EncodeError (Option Int) :=
  if t.unordered then
    match Duration.read t.timeout with
    | .error cause => .error (.timeout cause)
    | .ok none => .ok (some defaultTimeout)
    | .ok (some n) => .ok (some n)
  else .ok none

/-- A timeout that has to fit into 64 bits, if there is one. -/
def timeoutInRange : Option Int → Reading (Option Signed64)
  | none => .ok none
  | some n => ((inRange _ _ n).under (.key "txTimeout")).map some

/-- The wire form of a load test. -/
def encode (t : LoadTest) : Except EncodeError Wire.LoadTest := do
  let messages ← t.messages.mapM Message.encode
  let seconds ← t.timeoutSeconds
  let numbers : Reading (Signed32 × Signed32 × Option Signed64) :=
    (fun txs blocks timeout => (txs, blocks, timeout))
      <$> (inRange _ _ t.txs).under (.key "numOfTxs")
      <*> (inRange _ _ t.blocks).under (.key "numOfBlocks")
      <*> timeoutInRange seconds
  let (txs, blocks, timeout) ← numbers.fit Wire.LoadTest.schema
  return {
    name := t.name, description := t.description, chainId := t.chainId
    txs, blocks, messages, unordered := t.unordered, timeout
    evm := t.evm, gasDenom := t.gasDenom, bech32Prefix := t.bech32Prefix }

/-- The load test of a wire form. -/
def decode (w : Wire.LoadTest) : Logged LoadTest := do
  let messages ← Message.decodeAll w.messages
  let seconds := (w.timeout.map (·.val)).getD defaultTimeout
  return {
    name := w.name, description := w.description, chainId := w.chainId
    blocks := w.blocks.val, txs := w.txs.val, messages
    unordered := w.unordered, timeout := Numeral.text seconds
    evm := w.evm, gasDenom := w.gasDenom, bech32Prefix := w.bech32Prefix }

/-- The load test of a payload from outside, in any spelling. -/
def ofExternal (d : Datum) : Except EncodeError (Logged LoadTest) :=
  match (Wire.LoadTest.read d).toExcept Wire.LoadTest.schema with
  | .ok w => .ok (decode w)
  | .error report => .error (.notLoadTest report)

end LoadTest

end Trialnet
