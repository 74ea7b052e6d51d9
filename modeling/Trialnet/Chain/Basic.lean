import Trialnet.Datum.Basic

/-!
# Chains

A chain is the network to be provisioned: the image its nodes run, how many nodes and
validators there are and in which regions, the edits to its genesis state, and free-form
configuration for the parts of a node.  An edit overrides one value of the genesis state, which is
addressed by a dotted path.
-/

namespace Trialnet

/-- The override of a genesis value. -/
structure GenesisEdit where
  /-- The dotted path of the value. -/
  key : String
  /-- The new value. -/
  value : Datum
  deriving DecidableEq

/-- The nodes and validators of one region. -/
structure Region where
  name : String
  nodes : Int := 0
  validators : Int := 0
  deriving DecidableEq

/-- A network to be provisioned. -/
structure Chain where
  name : String
  image : String
  nodes : Int := 0
  validators : Int := 0
  version : Option String := none
  edits : List GenesisEdit := []
  regions : List Region := []
  /-- Configuration of the application. -/
  app : Option Fields := none
  /-- Configuration of the consensus engine. -/
  consensus : Option Fields := none
  /-- Configuration of the client. -/
  client : Option Fields := none
  seedNode : Bool := false
  persistentPeers : Bool := false
  deriving DecidableEq

namespace Chain

/-- Whether two edits have the same key and the same value. -/
def sameEdit (a b : GenesisEdit) : Bool := a.key = b.key && a.value.same b.value

/-- Whether two lists agree item by item. -/
def pairwise {α : Type} (same : α → α → Bool) : List α → List α → Bool
  | [], [] => true
  | a :: as, b :: bs => same a b && pairwise same as bs
  | _, _ => false

/-- Whether two documents are both absent, or both present and the same. -/
def sameDocument : Option Fields → Option Fields → Bool
  | none, none => true
  | some a, some b => (Datum.object a).same (.object b)
  | _, _ => false

/-- Whether two chains agree in every field, free-form data being compared by value. -/
def same (a b : Chain) : Bool :=
  a.name = b.name && a.image = b.image && a.nodes = b.nodes && a.validators = b.validators
    && a.version = b.version && pairwise sameEdit a.edits b.edits && a.regions = b.regions
    && sameDocument a.app b.app && sameDocument a.consensus b.consensus
    && sameDocument a.client b.client
    && a.seedNode = b.seedNode && a.persistentPeers = b.persistentPeers

end Chain

end Trialnet
