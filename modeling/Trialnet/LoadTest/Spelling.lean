import Trialnet.Datum.Basic
import Trialnet.Duration.Basic

/-!
# Spellings of load test fields

Load tests also come from shared links, stored templates and exported files, whose fields are
spelled in upper camel case or in snake case.  A *shape* lists for one such source what its
spellings stand for on the wire.  Adapting an object gathers its fields under their wire names:

* a wire name that is present and not null wins;
* otherwise the first spelling that is present and not null counts, in the order of the shapes;
* anything else is dropped.

A timeout may be spelled as a duration, which is then replaced by its seconds.
-/

namespace Trialnet

/-- What the spellings of one source stand for: pairs of a spelling and a wire name. -/
abbrev Shape := List (String × String)

namespace Shape

/-- Load test fields in upper camel case. -/
def loadTestUpper : Shape :=
  [("Name", "name"), ("Description", "description"), ("ChainID", "chainId"),
   ("ChainId", "chainId"), ("NumOfTxs", "numOfTxs"), ("NumOfBlocks", "numOfBlocks"),
   ("Msgs", "msgs"), ("UnorderedTxs", "unorderedTxs"), ("TxTimeout", "txTimeout"),
   ("IsEvmChain", "isEvmChain"), ("GasDenom", "gasDenom"), ("Bech32Prefix", "bech32Prefix")]

/-- Load test fields in snake case. -/
def loadTestSnake : Shape :=
  [("chain_id", "chainId"), ("num_of_txs", "numOfTxs"), ("num_of_blocks", "numOfBlocks"),
   ("unordered_txs", "unorderedTxs"), ("tx_timeout", "txTimeout"),
   ("is_evm_chain", "isEvmChain"), ("gas_denom", "gasDenom"), ("bech32_prefix", "bech32Prefix")]

/-- Message fields in upper camel case. -/
def messageUpper : Shape :=
  [("Type", "type"), ("Weight", "weight"), ("NumMsgs", "numMsgs"),
   ("ContainedType", "containedType"), ("NumOfRecipients", "numOfRecipients")]

/-- Message fields in snake case. -/
def messageSnake : Shape :=
  [("num_msgs", "numMsgs"), ("contained_type", "containedType"),
   ("num_of_recipients", "numOfRecipients")]

/-- The spellings of load test fields, in the order in which they are tried. -/
def loadTest : Shape := loadTestUpper ++ loadTestSnake

/-- The spellings of message fields, in the order in which they are tried. -/
def message : Shape := messageUpper ++ messageSnake

/-- The wire names that a shape leads to. -/
def wireNames (shape : Shape) : List String := shape.map (·.2)

end Shape

namespace Spelling

/-- The value of a field that is present and not null. -/
def present? (fields : Fields) (key : String) : Option Datum :=
  match fields.lookup key with
  | none | some .null => none
  | some d => some d

/-- The fields that have a wire name and are not null. -/
def canonical (shape : Shape) (fields : Fields) : Fields :=
  fields.filter fun f => shape.wireNames.contains f.1 && f.2 ≠ .null

/-- Adds the value of a spelling unless the wire name has one already. -/
def addSpelling (fields adapted : Fields) (spelling : String × String) : Fields :=
  if adapted.any (·.1 == spelling.2) then adapted
  else match present? fields spelling.1 with
    | some d => adapted ++ [(spelling.2, d)]
    | none => adapted

/-- The fields under their wire names. -/
def adapt (shape : Shape) (fields : Fields) : Fields :=
  shape.foldl (addSpelling fields) (canonical shape fields)

/-- The fields of a message under their wire names. -/
def adaptMessage (fields : Fields) : Fields := adapt Shape.message fields

/-- A timeout in seconds: a text is read as a duration, and anything else stays as it is.  A
blank text leaves no timeout. -/
def timeoutSeconds : Datum → Except Duration.ReadError (Option Datum)
  | .text s => do
    let seconds ← Duration.read s
    return seconds.map fun n => .int n
  | d => .ok (some d)

/-- Fields under their wire names with the timeout, if there is one, in seconds. -/
def withSeconds (fields : Fields) : Except Duration.ReadError Fields :=
  match fields.lookup "txTimeout" with
  | none => return fields
  | some d => do
    match ← timeoutSeconds d with
    | none => return Fields.erase fields "txTimeout"
    | some seconds => return Fields.put fields "txTimeout" seconds

/-- The fields of a load test under their wire names, with the timeout in seconds. -/
def adaptLoadTest (fields : Fields) : Except Duration.ReadError Fields :=
  withSeconds (adapt Shape.loadTest fields)

end Spelling

end Trialnet
