import Trialnet.Wire.Launch

/-!
# Workflows on the wire

The records that the service sends about workflows, and those that ask for them.
-/

namespace Trialnet.Wire

open Payload

/-- The acknowledgement of a submission. -/
structure Receipt where
  workflowId : String := ""
  status : String := ""
  data : Fields := []
  deriving DecidableEq

/-- A node and its endpoints. -/
structure Node where
  name : String := ""
  address : String := ""
  rpc : String := ""
  lcd : String := ""
  grpc : String := ""
  metrics : String := ""
  deriving DecidableEq

/-- The wallets of a network, addresses and mnemonics apart. -/
structure WalletInfo where
  faucetAddress : String := ""
  faucetMnemonic : String := ""
  userAddresses : List String := []
  userMnemonics : List String := []
  deriving DecidableEq

/-- A workflow. -/
structure Workflow where
  workflowId : String := ""
  status : String := ""
  nodes : List Node := []
  validators : List Node := []
  loadBalancers : List Node := []
  monitoring : List (String × String) := []
  wallets : Option WalletInfo := none
  launch : Option Launch := none
  loadTest : Option LoadTest := none
  provider : String := ""
  startTime : String := ""
  endTime : String := ""
  deriving DecidableEq

/-- One line of a listing of workflows. -/
structure WorkflowSummary where
  workflowId : String := ""
  status : String := ""
  startTime : String := ""
  repo : String := ""
  sha : String := ""
  deriving DecidableEq

/-- A listing of workflows and their total number. -/
structure WorkflowList where
  workflows : List WorkflowSummary := []
  count : Signed32 := default
  deriving DecidableEq

/-- A request that names a workflow. -/
structure WorkflowRef where
  workflowId : String
  deriving DecidableEq

/-- A request for a page of a listing. -/
structure Page where
  limit : Signed32
  offset : Signed32
  deriving DecidableEq

/-- A request to send a signal to a workflow. -/
structure Signal where
  workflowId : String
  name : String
  deriving DecidableEq

/-- A request to start a load test in a workflow's network. -/
structure LoadTestRun where
  workflowId : String
  loadTest : LoadTest
  deriving DecidableEq

/-- The spellings of the field that names a workflow. -/
def workflowIdField : Field := ⟨"workflowId", "workflow_id"⟩

namespace Receipt

/-- The name of the schema. -/
def schema : String := "WireWorkflowResponse"

/-- Reads an acknowledgement. -/
def read : Datum → Reading Receipt := record fun fs =>
  Receipt.mk <$> defaulted workflowIdField text "" fs
    <*> defaulted (.same "status") text "" fs
    <*> defaulted (.same "data") (dictionary anything) [] fs

/-- The payload of an acknowledgement. -/
def payload (r : Receipt) : Datum :=
  .object (entry "workflowId" (.text r.workflowId) ++ entry "status" (.text r.status)
    ++ entry "data" (free (.object r.data)))

end Receipt

namespace Node

/-- Reads a node. -/
def read : Datum → Reading Node := record fun fs =>
  Node.mk <$> defaulted (.same "name") text "" fs
    <*> defaulted (.same "address") text "" fs
    <*> defaulted (.same "rpc") text "" fs
    <*> defaulted (.same "lcd") text "" fs
    <*> defaulted (.same "grpc") text "" fs
    <*> defaulted (.same "metrics") text "" fs

/-- The payload of a node. -/
def payload (n : Node) : Datum :=
  .object (entry "name" (.text n.name) ++ entry "address" (.text n.address)
    ++ entry "rpc" (.text n.rpc) ++ entry "lcd" (.text n.lcd)
    ++ entry "grpc" (.text n.grpc) ++ entry "metrics" (.text n.metrics))

end Node

namespace WalletInfo

/-- The name of the schema. -/
def schema : String := "WireWalletInfo"

/-- Reads the wallets. -/
def read : Datum → Reading WalletInfo := record fun fs =>
  WalletInfo.mk <$> defaulted ⟨"faucetAddress", "faucet_address"⟩ text "" fs
    <*> defaulted ⟨"faucetMnemonic", "faucet_mnemonic"⟩ text "" fs
    <*> defaulted ⟨"userAddresses", "user_addresses"⟩ (array text) [] fs
    <*> defaulted ⟨"userMnemonics", "user_mnemonics"⟩ (array text) [] fs

/-- The payload of the wallets. -/
def payload (w : WalletInfo) : Datum :=
  .object (entry "faucetAddress" (.text w.faucetAddress)
    ++ entry "faucetMnemonic" (.text w.faucetMnemonic)
    ++ entry "userAddresses" (.array (w.userAddresses.map .text))
    ++ entry "userMnemonics" (.array (w.userMnemonics.map .text)))

end WalletInfo

namespace Workflow

/-- The name of the schema. -/
def schema : String := "WireWorkflow"

/-- Reads a workflow. -/
def read : Datum → Reading Workflow := record fun fs =>
  Workflow.mk <$> defaulted workflowIdField text "" fs
    <*> defaulted (.same "status") text "" fs
    <*> defaulted (.same "nodes") (array Node.read) [] fs
    <*> defaulted (.same "validators") (array Node.read) [] fs
    <*> defaulted ⟨"loadBalancers", "load_balancers"⟩ (array Node.read) [] fs
    <*> defaulted (.same "monitoring") (dictionary text) [] fs
    <*> optional (.same "wallets") WalletInfo.read fs
    <*> optional (.same "config") Launch.read fs
    <*> optional ⟨"loadTestSpec", "load_test_spec"⟩ LoadTest.read fs
    <*> defaulted (.same "provider") text "" fs
    <*> defaulted ⟨"startTime", "start_time"⟩ text "" fs
    <*> defaulted ⟨"endTime", "end_time"⟩ text "" fs

/-- The payload of a workflow. -/
def payload (w : Workflow) : Datum :=
  .object (entry "workflowId" (.text w.workflowId) ++ entry "status" (.text w.status)
    ++ entry "nodes" (.array (w.nodes.map Node.payload))
    ++ entry "validators" (.array (w.validators.map Node.payload))
    ++ entry "loadBalancers" (.array (w.loadBalancers.map Node.payload))
    ++ entry "monitoring" (ofDictionary w.monitoring)
    ++ entry? "wallets" (w.wallets.map WalletInfo.payload)
    ++ entry? "config" (w.launch.map Launch.payload)
    ++ entry? "loadTestSpec" (w.loadTest.map LoadTest.payload)
    ++ entry "provider" (.text w.provider)
    ++ entry "startTime" (.text w.startTime) ++ entry "endTime" (.text w.endTime))

end Workflow

namespace WorkflowSummary

/-- The name of the schema. -/
def schema : String := "WireWorkflowSummary"

/-- Reads a line of a listing. -/
def read : Datum → Reading WorkflowSummary := record fun fs =>
  WorkflowSummary.mk <$> defaulted workflowIdField text "" fs
    <*> defaulted (.same "status") text "" fs
    <*> defaulted ⟨"startTime", "start_time"⟩ text "" fs
    <*> defaulted (.same "repo") text "" fs
    <*> defaulted (.same "sha") text "" fs

/-- The payload of a line of a listing. -/
def payload (w : WorkflowSummary) : Datum :=
  .object (entry "workflowId" (.text w.workflowId) ++ entry "status" (.text w.status)
    ++ entry "startTime" (.text w.startTime) ++ entry "repo" (.text w.repo)
    ++ entry "sha" (.text w.sha))

end WorkflowSummary

namespace WorkflowList

/-- The name of the schema. -/
def schema : String := "WireWorkflowListResponse"

/-- Reads a listing. -/
def read : Datum → Reading WorkflowList := record fun fs =>
  WorkflowList.mk <$> defaulted (.same "workflows") (array WorkflowSummary.read) [] fs
    <*> defaulted (.same "count") signed32 default fs

/-- The payload of a listing. -/
def payload (l : WorkflowList) : Datum :=
  .object (entry "workflows" (.array (l.workflows.map WorkflowSummary.payload))
    ++ entry "count" (narrow l.count))

end WorkflowList

namespace WorkflowRef

/-- Reads a request that names a workflow. -/
def read : Datum → Reading WorkflowRef := record fun fs =>
  WorkflowRef.mk <$> required workflowIdField text fs

/-- The payload of a request that names a workflow. -/
def payload (r : WorkflowRef) : Datum := .object (entry "workflowId" (.text r.workflowId))

end WorkflowRef

namespace Page

/-- Reads a request for a page; the limit has a default that depends on the listing. -/
def read (limit : Signed32) : Datum → Reading Page := record fun fs =>
  Page.mk <$> defaulted (.same "limit") signed32 limit fs
    <*> defaulted (.same "offset") signed32 default fs

/-- The payload of a request for a page. -/
def payload (p : Page) : Datum :=
  .object (entry "limit" (narrow p.limit) ++ entry "offset" (narrow p.offset))

end Page

namespace Signal

/-- Reads a request to send a signal. -/
def read : Datum → Reading Signal := record fun fs =>
  Signal.mk <$> required workflowIdField text fs
    <*> required ⟨"signalName", "signal_name"⟩ text fs

/-- The payload of a request to send a signal. -/
def payload (s : Signal) : Datum :=
  .object (entry "workflowId" (.text s.workflowId) ++ entry "signalName" (.text s.name))

end Signal

namespace LoadTestRun

/-- Reads a request to start a load test. -/
def read : Datum → Reading LoadTestRun := record fun fs =>
  LoadTestRun.mk <$> required workflowIdField text fs
    <*> required ⟨"loadTestSpec", "load_test_spec"⟩ LoadTest.read fs

/-- The payload of a request to start a load test. -/
def payload (r : LoadTestRun) : Datum :=
  .object (entry "workflowId" (.text r.workflowId)
    ++ entry "loadTestSpec" (LoadTest.payload r.loadTest))

end LoadTestRun

end Trialnet.Wire
