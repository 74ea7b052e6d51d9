import Trialnet.Wire.Chain
import Trialnet.Wire.LoadTest

/-!
# Launches on the wire

The record in which a launch travels.  Absent parts are left out.
-/

namespace Trialnet.Wire

open Payload

/-- A request to provision a testnet. -/
structure Launch where
  repo : String := ""
  sha : String := ""
  evm : Bool := false
  chain : Option Chain := none
  runner : String := ""
  loadTest : Option LoadTest := none
  longRunning : Bool := false
  loadBalancer : Bool := false
  /-- How long the testnet runs, in seconds. -/
  duration : Signed64 := default
  wallets : Signed32 := default
  cosmosSdkSha : Option String := none
  cometbftSha : Option String := none
  catalystVersion : Option String := none
  provider : List (String × String) := []
  deriving DecidableEq

namespace Launch

/-- The name of the schema. -/
def schema : String := "WireCreateWorkflowRequest"

/-- Reads a launch. -/
def read : Datum → Reading Launch := record fun fs =>
  Launch.mk <$> defaulted (.same "repo") text "" fs
    <*> defaulted (.same "sha") text "" fs
    <*> defaulted ⟨"isEvmChain", "is_evm_chain"⟩ truth false fs
    <*> optional ⟨"chainConfig", "chain_config"⟩ Chain.read fs
    <*> defaulted ⟨"runnerType", "runner_type"⟩ text "" fs
    <*> optional ⟨"loadTestSpec", "load_test_spec"⟩ LoadTest.read fs
    <*> defaulted ⟨"longRunningTestnet", "long_running_testnet"⟩ truth false fs
    <*> defaulted ⟨"launchLoadBalancer", "launch_load_balancer"⟩ truth false fs
    <*> defaulted ⟨"testnetDuration", "testnet_duration"⟩ signed64 default fs
    <*> defaulted ⟨"numWallets", "num_wallets"⟩ signed32 default fs
    <*> optional ⟨"cosmosSdkSha", "cosmos_sdk_sha"⟩ text fs
    <*> optional ⟨"cometbftSha", "cometbft_sha"⟩ text fs
    <*> optional ⟨"catalystVersion", "catalyst_version"⟩ text fs
    <*> defaulted ⟨"providerConfig", "provider_config"⟩ (dictionary text) [] fs

/-- The fields of a launch. -/
def fields (l : Launch) : Fields :=
  entry "repo" (.text l.repo) ++ entry "sha" (.text l.sha)
    ++ entry "isEvmChain" (.bool l.evm)
    ++ entry? "chainConfig" (l.chain.map Chain.payload)
    ++ entry "runnerType" (.text l.runner)
    ++ entry? "loadTestSpec" (l.loadTest.map LoadTest.payload)
    ++ entry "longRunningTestnet" (.bool l.longRunning)
    ++ entry "launchLoadBalancer" (.bool l.loadBalancer)
    ++ entry "testnetDuration" (wide l.duration)
    ++ entry "numWallets" (narrow l.wallets)
    ++ entry? "cosmosSdkSha" (l.cosmosSdkSha.map .text)
    ++ entry? "cometbftSha" (l.cometbftSha.map .text)
    ++ entry? "catalystVersion" (l.catalystVersion.map .text)
    ++ entry "providerConfig" (ofDictionary l.provider)

/-- The payload of a launch. -/
def payload (l : Launch) : Datum := .object l.fields

end Launch

end Trialnet.Wire
