import Trialnet.Workflow.Basic
import Trialnet.Wire.Workflow
import Trialnet.Launch.Wire

/-!
# Workflows from the wire

What the service reports about workflows, in the terms of the domain.  An unknown phase, runner or
message kind and a broken document all have a fallback; only a text in the launch that is nested
too deeply for the reader makes a reading fail.
-/

namespace Trialnet

/-- The node of a wire form. -/
def Node.decode (w : Wire.Node) : Node :=
  ⟨w.name, w.address, w.rpc, w.lcd, w.grpc, w.metrics⟩

/-- Addresses and mnemonics paired by position.  An address without a mnemonic gets an empty
one, and mnemonics beyond the last address are left out. -/
def Wallet.pair : List String → List String → List Wallet
  | [], _ => []
  | a :: as, [] => ⟨a, ""⟩ :: pair as []
  | a :: as, m :: ms => ⟨a, m⟩ :: pair as ms

/-- The wallets of a wire form. -/
def Wallets.decode (w : Wire.WalletInfo) : Wallets :=
  ⟨⟨w.faucetAddress, w.faucetMnemonic⟩, Wallet.pair w.userAddresses w.userMnemonics⟩

/-- The launch of a wire form, if it has one. -/
def Workflow.decodeLaunch (levels : Nat) :
    Option Wire.Launch → Except Json.TooDeep (Logged (Option Launch))
  | some l => do
    let launch ← Launch.decode levels l
    return some <$> launch
  | none => .ok (pure none)

/-- The workflow of a wire form whose launch has been decoded. -/
def Workflow.decodeRest (w : Wire.Workflow) (launch : Option Launch) : Logged Workflow := do
  let loadTest ← Launch.decodeLoadTest w.loadTest
  return {
    id := w.workflowId, phase := .ofReport w.status
    nodes := w.nodes.map Node.decode, validators := w.validators.map Node.decode
    loadBalancers := w.loadBalancers.map Node.decode, monitoring := w.monitoring
    wallets := w.wallets.map Wallets.decode, launch, loadTest
    provider := w.provider, startTime := w.startTime, endTime := w.endTime }

/-- The workflow of a wire form. -/
def Workflow.decode (levels : Nat) (w : Wire.Workflow) :
    Except Json.TooDeep (Logged Workflow) := do
  let launch ← decodeLaunch levels w.launch
  return launch >>= decodeRest w

/-- The acknowledgement of a wire form. -/
def Receipt.decode (w : Wire.Receipt) : Receipt := ⟨w.workflowId, w.status, w.data⟩

/-- The line of a listing of a wire form. -/
def WorkflowSummary.decode (w : Wire.WorkflowSummary) : WorkflowSummary :=
  ⟨w.workflowId, .ofReport w.status, w.startTime, w.repo, w.sha⟩

end Trialnet
