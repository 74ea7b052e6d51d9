import Trialnet.Chain.Basic
import Trialnet.Genesis.Wire
import Trialnet.Json.Document
import Trialnet.Event

/-!
# Chains to and from the wire

A chain is encoded if its documents and genesis values have JSON texts and its counts fit into
64 bits.  Decoding fails only at a text that is nested too deeply for the reader: a document whose
text is not a JSON object is dropped with a warning.
-/

namespace Trialnet

open Payload

/-- The wire form of a region. -/
def Region.encode (r : Region) : Except EncodeError Wire.Region :=
  (Wire.Region.mk r.name <$> (inRange _ _ r.nodes).under (.key "num_of_nodes")
    <*> (inRange _ _ r.validators).under (.key "num_of_validators")).fit Wire.Region.schema

/-- The region of a wire form. -/
def Region.decode (w : Wire.Region) : Region := ⟨w.name, w.nodes.val, w.validators.val⟩

namespace Chain

/-- The field of the application's document. -/
def appField : String := "custom_app_config"

/-- The field of the consensus engine's document. -/
def consensusField : String := "custom_consensus_config"

/-- The field of the client's document. -/
def clientField : String := "custom_client_config"

/-- The text of a document, if there is one. -/
def documentText (field : String) : Option Fields → Except EncodeError (Option String)
  | none => .ok none
  | some fields => some <$> (Datum.object fields).encode field

/-- A text, unless it is empty. -/
def nonEmpty (s : Option String) : Option String := s.filter (· ≠ "")

/-- The wire form of a chain. -/
def encode (c : Chain) : Except EncodeError Wire.Chain := do
  let app ← documentText appField c.app
  let consensus ← documentText consensusField c.consensus
  let client ← documentText clientField c.client
  let edits ← GenesisEdit.encodeAll c.edits
  let regions ← c.regions.mapM Region.encode
  let counts : Reading (Unsigned64 × Unsigned64) :=
    Prod.mk <$> (inRange _ _ c.nodes).under (.key "num_of_nodes")
      <*> (inRange _ _ c.validators).under (.key "num_of_validators")
  let (nodes, validators) ← counts.fit Wire.Chain.schema
  return {
    name := c.name, image := c.image, version := c.version
    nodes, validators, edits, regions, app, consensus, client
    seedNode := c.seedNode, persistentPeers := c.persistentPeers }

/-- The chain of a wire form, and the warnings about its documents. -/
def decodeWithWarnings (levels : Nat) (w : Wire.Chain) :
    Except Json.TooDeep (Chain × List Json.Warning) := do
  let (app, appWarning) ← Json.readDocument levels appField w.app
  let (consensus, consensusWarning) ← Json.readDocument levels consensusField w.consensus
  let (client, clientWarning) ← Json.readDocument levels clientField w.client
  let edits ← GenesisEdit.decodeAll levels w.edits
  return ({
    name := w.name, image := w.image, version := nonEmpty w.version
    nodes := w.nodes.val, validators := w.validators.val
    edits, regions := w.regions.map Region.decode
    app, consensus, client
    seedNode := w.seedNode, persistentPeers := w.persistentPeers },
    appWarning.toList ++ consensusWarning.toList ++ clientWarning.toList)

/-- The chain of a wire form; the warnings about its documents are recorded. -/
def decode (levels : Nat) (w : Wire.Chain) : Except Json.TooDeep (Logged Chain) := do
  let (chain, warnings) ← decodeWithWarnings levels w
  return ⟨chain, warnings.map (.documentDropped w.name)⟩

end Chain

end Trialnet
