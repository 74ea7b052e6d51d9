import Trialnet.Payload.Record

/-!
# Chains on the wire

The records in which a chain travels.  Counts are unsigned 64-bit integers, genesis values are
texts, and the documents of node configuration are embedded as texts.
-/

namespace Trialnet.Wire

open Payload

/-- A genesis edit. -/
structure GenesisEntry where
  key : String := ""
  value : String := ""
  deriving DecidableEq

/-- The nodes and validators of a region. -/
structure Region where
  name : String := ""
  nodes : Unsigned64 := default
  validators : Unsigned64 := default
  deriving DecidableEq

/-- A network to be provisioned. -/
structure Chain where
  name : String := ""
  image : String := ""
  version : Option String := none
  nodes : Unsigned64 := default
  validators : Unsigned64 := default
  edits : List GenesisEntry := []
  regions : List Region := []
  app : Option String := none
  consensus : Option String := none
  client : Option String := none
  seedNode : Bool := false
  persistentPeers : Bool := false
  deriving DecidableEq

namespace GenesisEntry

/-- The name of the schema. -/
def schema : String := "WireGenesisKV"

/-- Reads an entry. -/
def read : Datum → Reading GenesisEntry := record fun fs =>
  GenesisEntry.mk <$> defaulted (.same "key") text "" fs
    <*> defaulted (.same "value") text "" fs

/-- The fields of an entry. -/
def fields (e : GenesisEntry) : Fields :=
  entry "key" (.text e.key) ++ entry "value" (.text e.value)

/-- The payload of an entry. -/
def payload (e : GenesisEntry) : Datum := .object e.fields

end GenesisEntry

namespace Region

/-- The name of the schema. -/
def schema : String := "WireRegionConfig"

/-- Reads a region. -/
def read : Datum → Reading Region := record fun fs =>
  Region.mk <$> defaulted (.same "name") text "" fs
    <*> defaulted ⟨"numOfNodes", "num_of_nodes"⟩ unsigned64 default fs
    <*> defaulted ⟨"numOfValidators", "num_of_validators"⟩ unsigned64 default fs

/-- The fields of a region. -/
def fields (r : Region) : Fields :=
  entry "name" (.text r.name) ++ entry "numOfNodes" (wide r.nodes)
    ++ entry "numOfValidators" (wide r.validators)

/-- The payload of a region. -/
def payload (r : Region) : Datum := .object r.fields

end Region

namespace Chain

/-- The name of the schema. -/
def schema : String := "WireChainConfig"

/-- Reads a chain. -/
def read : Datum → Reading Chain := record fun fs =>
  Chain.mk <$> defaulted (.same "name") text "" fs
    <*> defaulted (.same "image") text "" fs
    <*> optional (.same "version") text fs
    <*> defaulted ⟨"numOfNodes", "num_of_nodes"⟩ unsigned64 default fs
    <*> defaulted ⟨"numOfValidators", "num_of_validators"⟩ unsigned64 default fs
    <*> defaulted ⟨"genesisModifications", "genesis_modifications"⟩
      (array GenesisEntry.read) [] fs
    <*> defaulted ⟨"regionConfigs", "region_configs"⟩ (array Region.read) [] fs
    <*> optional ⟨"customAppConfig", "custom_app_config"⟩ text fs
    <*> optional ⟨"customConsensusConfig", "custom_consensus_config"⟩ text fs
    <*> optional ⟨"customClientConfig", "custom_client_config"⟩ text fs
    <*> defaulted ⟨"setSeedNode", "set_seed_node"⟩ truth false fs
    <*> defaulted ⟨"setPersistentPeers", "set_persistent_peers"⟩ truth false fs

/-- The fields of a chain. -/
def fields (c : Chain) : Fields :=
  entry "name" (.text c.name) ++ entry "image" (.text c.image)
    ++ entry? "version" (c.version.map .text)
    ++ entry "numOfNodes" (wide c.nodes) ++ entry "numOfValidators" (wide c.validators)
    ++ entry "genesisModifications" (.array (c.edits.map GenesisEntry.payload))
    ++ entry "regionConfigs" (.array (c.regions.map Region.payload))
    ++ entry? "customAppConfig" (c.app.map .text)
    ++ entry? "customConsensusConfig" (c.consensus.map .text)
    ++ entry? "customClientConfig" (c.client.map .text)
    ++ entry "setSeedNode" (.bool c.seedNode)
    ++ entry "setPersistentPeers" (.bool c.persistentPeers)

/-- The payload of a chain. -/
def payload (c : Chain) : Datum := .object c.fields

end Chain

end Trialnet.Wire
