import Trialnet.Payload.Record
import Trialnet.LoadTest.Spelling

/-!
# Load tests on the wire

The records in which a load test travels.  Their fields are accepted in every spelling of
`Trialnet.Shape`, so a payload is adapted before it is read; a timeout that is no duration is
the only reason to refuse it at that stage.
-/

namespace Trialnet.Wire

open Payload

/-- An entry of the message mix. -/
structure Message where
  kind : String := ""
  weight : Binary64 := .zero
  count : Signed32 := default
  contained : String := ""
  recipients : Signed32 := default
  deriving DecidableEq

/-- A load test. -/
structure LoadTest where
  name : String := ""
  description : String := ""
  chainId : String := ""
  txs : Signed32 := default
  blocks : Signed32 := default
  messages : List Message := []
  unordered : Bool := false
  /-- The timeout of a transaction in seconds. -/
  timeout : Option Signed64 := none
  evm : Bool := false
  gasDenom : String := ""
  bech32Prefix : String := ""
  deriving DecidableEq

namespace Message

/-- The name of the schema. -/
def schema : String := "WireLoadTestMsg"

/-- Reads an entry whose fields have their wire names. -/
def ofFields (fs : Fields) : Reading Message :=
  Message.mk <$> defaulted (.same "type") text "" fs
    <*> defaulted (.same "weight") float .zero fs
    <*> defaulted (.same "numMsgs") signed32 default fs
    <*> defaulted (.same "containedType") text "" fs
    <*> defaulted (.same "numOfRecipients") signed32 default fs

/-- Reads an entry in any spelling. -/
def read : Datum → Reading Message := record fun fs => ofFields (Spelling.adaptMessage fs)

/-- The fields of an entry. -/
def fields (m : Message) : Fields :=
  entry "type" (.text m.kind) ++ entry "weight" (.float m.weight)
    ++ entry "numMsgs" (narrow m.count) ++ entry "containedType" (.text m.contained)
    ++ entry "numOfRecipients" (narrow m.recipients)

/-- The payload of an entry. -/
def payload (m : Message) : Datum := .object m.fields

end Message

namespace LoadTest

/-- The name of the schema. -/
def schema : String := "WireLoadTestSpec"

/-- Reads a load test whose fields have their wire names. -/
def ofFields (fs : Fields) : Reading LoadTest :=
  LoadTest.mk <$> defaulted (.same "name") text "" fs
    <*> defaulted (.same "description") text "" fs
    <*> defaulted (.same "chainId") text "" fs
    <*> defaulted (.same "numOfTxs") signed32 default fs
    <*> defaulted (.same "numOfBlocks") signed32 default fs
    <*> defaulted (.same "msgs") (array Message.read) [] fs
    <*> defaulted (.same "unorderedTxs") truth false fs
    <*> optional (.same "txTimeout") signed64 fs
    <*> defaulted (.same "isEvmChain") truth false fs
    <*> defaulted (.same "gasDenom") text "" fs
    <*> defaulted (.same "bech32Prefix") text "" fs

/-- Reads a load test in any spelling. -/
def read : Datum → Reading LoadTest := record fun fs =>
  match Spelling.adaptLoadTest fs with
  | .ok adapted => ofFields adapted
  | .error cause => .complain (.refused cause.message)

/-- The fields of a load test. -/
def fields (t : LoadTest) : Fields :=
  entry "name" (.text t.name) ++ entry "description" (.text t.description)
    ++ entry "chainId" (.text t.chainId)
    ++ entry "numOfTxs" (narrow t.txs) ++ entry "numOfBlocks" (narrow t.blocks)
    ++ entry "msgs" (.array (t.messages.map Message.payload))
    ++ entry "unorderedTxs" (.bool t.unordered)
    ++ entry? "txTimeout" (t.timeout.map wide)
    ++ entry "isEvmChain" (.bool t.evm) ++ entry "gasDenom" (.text t.gasDenom)
    ++ entry "bech32Prefix" (.text t.bech32Prefix)

/-- The payload of a load test. -/
def payload (t : LoadTest) : Datum := .object t.fields

end LoadTest

end Trialnet.Wire
