import Trialnet.Chain.Basic
import Trialnet.Wire.Chain
import Trialnet.EncodeError
import Trialnet.Json.Reader

/-!
# Genesis edits on the wire

The value of an edit travels as a text: a text as it is, and anything else as JSON.  Read
back, a text that is JSON stands for the value it denotes, and any other text for itself, unless
it is nested too deeply for the reader to tell.
-/

namespace Trialnet.GenesisEdit

/-- The text that a value travels as. -/
def valueText (key : String) : Datum → Except EncodeError String
  | .text s => .ok s
  | d => d.encode s!"genesis value for {Text.quoted key}"

/-- The value that a text stands for. -/
def ofValueText (levels : Nat) (raw : String) : Except Json.TooDeep Datum := do
  match ← Json.read levels raw with
  | .ok d => return d
  | .error _ => return .text raw

/-- The wire form of an edit. -/
def encode (e : GenesisEdit) : Except EncodeError Wire.GenesisEntry := do
  let value ← valueText e.key e.value
  return { key := e.key, value := value }

/-- The edit of a wire form. -/
def decode (levels : Nat) (w : Wire.GenesisEntry) : Except Json.TooDeep GenesisEdit := do
  let value ← ofValueText levels w.value
  return ⟨w.key, value⟩

/-- The wire forms of edits, in order. -/
def encodeAll (es : List GenesisEdit) : Except EncodeError (List Wire.GenesisEntry) :=
  es.mapM encode

/-- The edits of wire forms, in order. -/
def decodeAll (levels : Nat) (ws : List Wire.GenesisEntry) :
    Except Json.TooDeep (List GenesisEdit) :=
  ws.mapM (decode levels)

/-- The edits of payloads, in order, up to the first that is no entry. -/
def ofPayloads (levels : Nat) (ds : List Datum) :
    Payload.Reading (Except Json.TooDeep (List GenesisEdit)) :=
  (Payload.Reading.inTurn Wire.GenesisEntry.read ds).map (decodeAll levels)

end Trialnet.GenesisEdit
