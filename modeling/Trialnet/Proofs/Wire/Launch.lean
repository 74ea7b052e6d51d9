import Trialnet.Proofs.Wire.Chain
import Trialnet.Proofs.Wire.LoadTest
import Trialnet.Wire.Launch

/-!
# Launches on the wire are read back

A launch is read back from its payload under the same condition as the load test it carries, and
its payload survives its own JSON text if no setting of the provider has two values.
-/

namespace Trialnet.Wire.Launch

open Payload Json

/-- The timeout of the load test, if there is one, is not negative. -/
def HasTimeout (l : Launch) : Prop :=
  ∀ t, l.loadTest = some t → ∀ n, t.timeout = some n → 0 ≤ n.val

theorem storable {l : Launch} (h : (l.provider.map (·.1)).Nodup) :
    Storable 4 l.payload := by
  have hfields : Holds 3 l.fields ["repo", "sha", "isEvmChain", "chainConfig", "runnerType",
      "loadTestSpec", "longRunningTestnet", "launchLoadBalancer", "testnetDuration",
      "numWallets", "cosmosSdkSha", "cometbftSha", "catalystVersion", "providerConfig"] :=
    (holds_entry "repo" (storable_text _))
      |>.append (holds_entry "sha" (storable_text _))
      |>.append (holds_entry "isEvmChain" (storable_bool _))
      |>.append (holds_optionalEntry "chainConfig" l.chain Chain.storable)
      |>.append (holds_entry "runnerType" (storable_text _))
      |>.append (holds_optionalEntry "loadTestSpec" l.loadTest LoadTest.storable)
      |>.append (holds_entry "longRunningTestnet" (storable_bool _))
      |>.append (holds_entry "launchLoadBalancer" (storable_bool _))
      |>.append (holds_entry "testnetDuration" (storable_wide _))
      |>.append (holds_entry "numWallets" (storable_narrow _))
      |>.append (holds_optionalEntry "cosmosSdkSha" l.cosmosSdkSha storable_text)
      |>.append (holds_optionalEntry "cometbftSha" l.cometbftSha storable_text)
      |>.append (holds_optionalEntry "catalystVersion" l.catalystVersion storable_text)
      |>.append (holds_entry "providerConfig" (storable_ofDictionary h))
  exact hfields.object (by decide)

/-- Everything but the load test is read back whatever it is. -/
theorem read_payload_eq_map (l : Launch) : read l.payload
    = (optional ⟨"loadTestSpec", "load_test_spec"⟩ LoadTest.read l.fields).map
      fun t => { l with loadTest := t } := by
  have hrepo : l.fields.lookup "repo" = some (.text l.repo) := by
    simp [fields, List.lookup_append]
  have hsha : l.fields.lookup "sha" = some (.text l.sha) := by
    simp [fields, List.lookup_append]
  have hevm : l.fields.lookup "isEvmChain" = some (.bool l.evm) := by
    simp [fields, List.lookup_append]
  have hrunner : l.fields.lookup "runnerType" = some (.text l.runner) := by
    simp [fields, List.lookup_append]
  have hlong : l.fields.lookup "longRunningTestnet" = some (.bool l.longRunning) := by
    simp [fields, List.lookup_append]
  have hbalancer : l.fields.lookup "launchLoadBalancer" = some (.bool l.loadBalancer) := by
    simp [fields, List.lookup_append]
  have hduration : l.fields.lookup "testnetDuration" = some (wide l.duration) := by
    simp [fields, List.lookup_append]
  have hwallets : l.fields.lookup "numWallets" = some (narrow l.wallets) := by
    simp [fields, List.lookup_append]
  have hprovider : l.fields.lookup "providerConfig" = some (ofDictionary l.provider) := by
    simp [fields, List.lookup_append]
  have hchain : optional ⟨"chainConfig", "chain_config"⟩ Chain.read l.fields = .ok l.chain :=
    optional_of_lookup (w := Chain.payload) (by simp [fields, List.lookup_append])
      (by simp [fields, List.lookup_append]) fun c _ => ⟨nofun, c.read_payload⟩
  have hcosmos : optional ⟨"cosmosSdkSha", "cosmos_sdk_sha"⟩ text l.fields = .ok l.cosmosSdkSha :=
    optional_text (by simp [fields, List.lookup_append]) (by simp [fields, List.lookup_append])
  have hcometbft : optional ⟨"cometbftSha", "cometbft_sha"⟩ text l.fields = .ok l.cometbftSha :=
    optional_text (by simp [fields, List.lookup_append]) (by simp [fields, List.lookup_append])
  have hcatalyst : optional ⟨"catalystVersion", "catalyst_version"⟩ text l.fields
      = .ok l.catalystVersion :=
    optional_text (by simp [fields, List.lookup_append]) (by simp [fields, List.lookup_append])
  simp only [read, payload, record, hchain, hcosmos, hcometbft, hcatalyst, defaulted,
    Field.find?, Field.same, hrepo, hsha, hevm, hrunner, hlong, hbalancer, hduration, hwallets,
    hprovider, text_text, truth_bool, signed64_wide, signed32_narrow, dictionary_ofDictionary]
  cases optional ⟨"loadTestSpec", "load_test_spec"⟩ LoadTest.read l.fields <;> rfl

theorem lookup_loadTest (l : Launch) :
    l.fields.lookup "loadTestSpec" = l.loadTest.map LoadTest.payload := by
  simp [fields, List.lookup_append]

theorem read_payload {l : Launch} (h : l.HasTimeout) : read l.payload = .ok l := by
  have hloadTest : optional ⟨"loadTestSpec", "load_test_spec"⟩ LoadTest.read l.fields
      = .ok l.loadTest :=
    optional_of_lookup l.lookup_loadTest (by simp [fields, List.lookup_append])
      fun t ht => ⟨nofun, LoadTest.read_payload (h t ht)⟩
  rw [read_payload_eq_map, hloadTest, Reading.map_ok]

end Trialnet.Wire.Launch
