import Trialnet.Proofs.Json.Storable
import Trialnet.Wire.Chain

/-!
# Chains on the wire are read back

Every record of a chain is read back from its payload, whatever its fields hold, and every
payload survives its own JSON text.
-/

namespace Trialnet.Wire

open Payload Json

theorem GenesisEntry.read_payload (e : GenesisEntry) : read e.payload = .ok e := by
  have hkey : e.fields.lookup "key" = some (.text e.key) := by
    simp [fields, List.lookup_append]
  have hvalue : e.fields.lookup "value" = some (.text e.value) := by
    simp [fields, List.lookup_append]
  simp only [read, payload, record, defaulted, Field.find?, Field.same, hkey, hvalue]
  rfl

theorem GenesisEntry.storable (e : GenesisEntry) : Storable 1 e.payload :=
  Holds.object ((holds_entry "key" (storable_text _)).append
    (holds_entry "value" (storable_text _))) (by decide)

theorem Region.read_payload (r : Region) : read r.payload = .ok r := by
  have hname : r.fields.lookup "name" = some (.text r.name) := by
    simp [fields, List.lookup_append]
  have hnodes : r.fields.lookup "numOfNodes" = some (wide r.nodes) := by
    simp [fields, List.lookup_append]
  have hvalidators : r.fields.lookup "numOfValidators" = some (wide r.validators) := by
    simp [fields, List.lookup_append]
  simp only [read, payload, record, defaulted, Field.find?, Field.same, hname, hnodes, hvalidators,
    text_text, unsigned64_wide]
  rfl

theorem Region.storable (r : Region) : Storable 1 r.payload :=
  Holds.object (((holds_entry "name" (storable_text _)).append
    (holds_entry "numOfNodes" (storable_wide _))).append
    (holds_entry "numOfValidators" (storable_wide _))) (by decide)

theorem Chain.read_payload (c : Chain) : read c.payload = .ok c := by
  have hname : c.fields.lookup "name" = some (.text c.name) := by
    simp [fields, List.lookup_append]
  have himage : c.fields.lookup "image" = some (.text c.image) := by
    simp [fields, List.lookup_append]
  have hnodes : c.fields.lookup "numOfNodes" = some (wide c.nodes) := by
    simp [fields, List.lookup_append]
  have hvalidators : c.fields.lookup "numOfValidators" = some (wide c.validators) := by
    simp [fields, List.lookup_append]
  have hedits : c.fields.lookup "genesisModifications"
      = some (.array (c.edits.map GenesisEntry.payload)) := by
    simp [fields, List.lookup_append]
  have hregions : c.fields.lookup "regionConfigs"
      = some (.array (c.regions.map Region.payload)) := by
    simp [fields, List.lookup_append]
  have hseed : c.fields.lookup "setSeedNode" = some (.bool c.seedNode) := by
    simp [fields, List.lookup_append]
  have hpeers : c.fields.lookup "setPersistentPeers" = some (.bool c.persistentPeers) := by
    simp [fields, List.lookup_append]
  have hversion : optional ⟨"version", "version"⟩ text c.fields = .ok c.version :=
    optional_text (by simp [fields, List.lookup_append])
      (by simp +contextual [fields, List.lookup_append])
  have happ : optional ⟨"customAppConfig", "custom_app_config"⟩ text c.fields = .ok c.app :=
    optional_text (by simp [fields, List.lookup_append]) (by simp [fields, List.lookup_append])
  have hconsensus : optional ⟨"customConsensusConfig", "custom_consensus_config"⟩ text c.fields
      = .ok c.consensus :=
    optional_text (by simp [fields, List.lookup_append]) (by simp [fields, List.lookup_append])
  have hclient : optional ⟨"customClientConfig", "custom_client_config"⟩ text c.fields
      = .ok c.client :=
    optional_text (by simp [fields, List.lookup_append]) (by simp [fields, List.lookup_append])
  simp only [read, payload, record, hversion, happ, hconsensus, hclient, defaulted, Field.find?,
    Field.same, hname, himage, hnodes, hvalidators, hedits, hregions, hseed, hpeers, text_text,
    unsigned64_wide, truth_bool, array_map GenesisEntry.read_payload, array_map Region.read_payload]
  rfl

theorem Chain.storable (c : Chain) : Storable 3 c.payload := by
  have h : Holds 2 c.fields ["name", "image", "version", "numOfNodes", "numOfValidators",
      "genesisModifications", "regionConfigs", "customAppConfig", "customConsensusConfig",
      "customClientConfig", "setSeedNode", "setPersistentPeers"] :=
    (holds_entry "name" (storable_text _))
      |>.append (holds_entry "image" (storable_text _))
      |>.append (holds_optionalEntry "version" c.version storable_text)
      |>.append (holds_entry "numOfNodes" (storable_wide _))
      |>.append (holds_entry "numOfValidators" (storable_wide _))
      |>.append (holds_entry "genesisModifications" (storable_map GenesisEntry.storable _))
      |>.append (holds_entry "regionConfigs" (storable_map Region.storable _))
      |>.append (holds_optionalEntry "customAppConfig" c.app storable_text)
      |>.append (holds_optionalEntry "customConsensusConfig" c.consensus storable_text)
      |>.append (holds_optionalEntry "customClientConfig" c.client storable_text)
      |>.append (holds_entry "setSeedNode" (storable_bool _))
      |>.append (holds_entry "setPersistentPeers" (storable_bool _))
  exact h.object (by decide)

end Trialnet.Wire
