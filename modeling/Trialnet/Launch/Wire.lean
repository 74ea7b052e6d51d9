import Trialnet.Launch.Basic
import Trialnet.Chain.Wire
import Trialnet.LoadTest.Wire
import Trialnet.LoadTest.Validity
import Trialnet.Wire.Launch

/-!
# Launches to and from the wire

Encoding a launch encodes its parts.  The load test it carries follows the launch in whether
the chain is an EVM chain, and an ordered one loses its timeout.  A testnet that runs until it
is shut down may have any text for a duration.
-/

namespace Trialnet.Launch

open Payload

/-- The load test as a launch sends it. -/
def submitted (l : Launch) (t : LoadTest) : LoadTest := { t.normalize with evm := l.evm }

/-- The duration in seconds that a launch sends; 0 stands for none. -/
def durationSeconds (l : Launch) : Logged (Except EncodeError Int) :=
  match Duration.read l.duration with
  | .ok none => pure (.ok 0)
  | .ok (some n) => pure (.ok n)
  | .error cause =>
    if l.longRunning then ⟨.ok 0, [.durationIgnored cause]⟩
    else pure (.error (.duration cause))

/-- The parts of a launch that are encoded before its numbers are looked at. -/
def encodeParts (l : Launch) : Except EncodeError (Option Wire.LoadTest × Wire.Chain) := do
  let loadTest ← l.loadTest.mapM fun t => (l.submitted t).encode
  let chain ← l.chain.encode
  return (loadTest, chain)

/-- The wire form of a launch with the given parts and duration. -/
def assemble (l : Launch) (loadTest : Option Wire.LoadTest) (chain : Wire.Chain)
    (seconds : Int) : Except EncodeError Wire.Launch := do
  let numbers : Reading (Signed64 × Signed32) :=
    Prod.mk <$> (inRange _ _ seconds).under (.key "testnet_duration")
      <*> (inRange _ _ l.wallets).under (.key "num_wallets")
  let (duration, wallets) ← numbers.fit Wire.Launch.schema
  return {
    repo := l.repo, sha := l.sha, evm := l.evm, chain := some chain
    runner := l.runner.name, loadTest, longRunning := l.longRunning
    loadBalancer := l.loadBalancer, duration, wallets
    cosmosSdkSha := l.cosmosSdkSha, cometbftSha := l.cometbftSha
    catalystVersion := l.catalystVersion, provider := l.provider }

/-- The wire form of a launch. -/
def encode (l : Launch) : Logged (Except EncodeError Wire.Launch) :=
  match l.encodeParts with
  | .error e => pure (.error e)
  | .ok (loadTest, chain) => do
    match ← l.durationSeconds with
    | .error e => return .error e
    | .ok seconds => return l.assemble loadTest chain seconds

/-- The runner of a name; an unknown one is taken for Docker, which is recorded. -/
def decodeRunner (name : String) : Logged Runner :=
  match Runner.ofName? name with
  | some r => pure r
  | none => ⟨.docker, [.runnerAssumed name Runner.docker.name]⟩

/-- The chain of a launch that has none. -/
def emptyChain : Chain := { name := "", image := "" }

/-- The chain of a wire form, if it has one. -/
def decodeChain (levels : Nat) : Option Wire.Chain → Except Json.TooDeep (Logged Chain)
  | some c => Chain.decode levels c
  | none => .ok (pure emptyChain)

/-- The load test of a wire form, if it has one. -/
def decodeLoadTest : Option Wire.LoadTest → Logged (Option LoadTest)
  | some t => some <$> LoadTest.decode t
  | none => pure none

/-- The launch of a wire form whose chain has been decoded. -/
def decodeRest (w : Wire.Launch) (chain : Chain) : Logged Launch := do
  let loadTest ← decodeLoadTest w.loadTest
  let runner ← decodeRunner w.runner
  return {
    repo := w.repo, sha := w.sha, chain, runner, evm := w.evm, loadTest
    longRunning := w.longRunning, loadBalancer := w.loadBalancer
    duration := if w.duration.val = 0 then "" else Duration.text w.duration.val
    wallets := if w.wallets.val = 0 then defaultWallets else w.wallets.val
    cosmosSdkSha := Chain.nonEmpty w.cosmosSdkSha
    cometbftSha := Chain.nonEmpty w.cometbftSha
    catalystVersion := Chain.nonEmpty w.catalystVersion
    provider := w.provider }

/-- The launch of a wire form.  The chain comes first, so nothing has been recorded when one of its
texts turns out to be nested too deeply. -/
def decode (levels : Nat) (w : Wire.Launch) : Except Json.TooDeep (Logged Launch) := do
  let chain ← decodeChain levels w.chain
  return chain >>= decodeRest w

end Trialnet.Launch
