import Trialnet.Binary64.Basic

/-!
# Load tests

A load test sends a mix of messages to a network.  Each entry of the mix has a kind, a weight,
and counts that may be left open; an entry of kind `array` bundles messages of another kind.
-/

namespace Trialnet

/-- The kinds of load test messages. -/
inductive MessageKind where
  | send | multiSend | array
  | createContract | writeTo | crossContractCall | callDataBlast | nativeTransfer
  deriving DecidableEq

namespace MessageKind

/-- The name of a kind. -/
def name : MessageKind → String
  | .send => "MsgSend"
  | .multiSend => "MsgMultiSend"
  | .array => "MsgArr"
  | .createContract => "MsgCreateContract"
  | .writeTo => "MsgWriteTo"
  | .crossContractCall => "MsgCrossContractCall"
  | .callDataBlast => "MsgCallDataBlast"
  | .nativeTransfer => "MsgNativeTransferERC20"

/-- Every kind. -/
def all : List MessageKind :=
  [.send, .multiSend, .array,
   .createContract, .writeTo, .crossContractCall, .callDataBlast, .nativeTransfer]

/-- The kind of a name. -/
def ofName? (s : String) : Option MessageKind := all.find? fun k => k.name = s

@[simp] theorem ofName?_name (k : MessageKind) : ofName? k.name = some k := by
  cases k <;> decide

/-- A name is read as a kind only if it is the kind's name. -/
theorem name_of_ofName? {s : String} {k : MessageKind} (h : ofName? s = some k) : k.name = s := by
  simpa using List.find?_some h

end MessageKind

/-- One entry of the message mix. -/
structure Message where
  kind : MessageKind
  weight : Binary64
  count : Option Int := none
  /-- The kind of the bundled messages; only an entry of kind `array` has a use for it. -/
  contained : Option MessageKind := none
  recipients : Option Int := none
  deriving DecidableEq

namespace Message

/-- What has to be unique within a mix: the kind, and for a bundle the contained kind. -/
def slot (m : Message) : MessageKind × Option MessageKind :=
  (m.kind, if m.kind = .array then m.contained else none)

/-- The text of a slot. -/
def slotText (m : Message) : String :=
  if m.kind = .array then
    let contained := (m.contained.map MessageKind.name).getD ""
    s!"{m.kind.name}-{contained}"
  else m.kind.name

/-- Whether two entries agree, weights being compared by value. -/
def same (a b : Message) : Bool :=
  a.kind = b.kind && a.weight.sameValue b.weight && a.count = b.count
    && a.contained = b.contained && a.recipients = b.recipients

end Message

/-- A load test. -/
structure LoadTest where
  name : String := ""
  description : String := ""
  chainId : String := ""
  blocks : Int := 0
  txs : Int := 0
  messages : List Message := []
  unordered : Bool := false
  /-- The timeout of a transaction as a duration; it matters only if `unordered` is set. -/
  timeout : String := ""
  evm : Bool := false
  gasDenom : String := ""
  bech32Prefix : String := ""
  deriving DecidableEq

namespace LoadTest

/-- Whether two mixes agree entry by entry. -/
def sameMessages : List Message → List Message → Bool
  | [], [] => true
  | a :: as, b :: bs => a.same b && sameMessages as bs
  | _, _ => false

/-- Whether two load tests agree in every field, weights being compared by value. -/
def same (a b : LoadTest) : Bool :=
  { a with messages := [] } = { b with messages := [] } && sameMessages a.messages b.messages

end LoadTest

end Trialnet
