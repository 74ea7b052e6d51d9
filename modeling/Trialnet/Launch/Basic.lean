import Trialnet.Chain.Basic
import Trialnet.LoadTest.Basic

/-!
# Launches

A launch is what is submitted to the provisioning service: a chain, the commit to build, where
to run it and for how long, and perhaps a load test.
-/

namespace Trialnet

/-- Where a testnet is provisioned. -/
inductive Runner where
  | docker | digitalOcean
  deriving DecidableEq

namespace Runner

/-- The name of a runner. -/
def name : Runner → String
  | .docker => "Docker"
  | .digitalOcean => "DigitalOcean"

/-- Every runner. -/
def all : List Runner := [.docker, .digitalOcean]

/-- The runner of a name. -/
def ofName? (s : String) : Option Runner := all.find? fun r => r.name = s

@[simp] theorem ofName?_name (r : Runner) : ofName? r.name = some r := by
  cases r <;> decide

end Runner

/-- The number of wallets unless a launch says otherwise. -/
def Launch.defaultWallets : Int := 2500

/-- A request to provision a testnet. -/
structure Launch where
  repo : String
  sha : String
  chain : Chain
  runner : Runner := .docker
  evm : Bool := false
  loadTest : Option LoadTest := none
  /-- Whether the testnet runs until it is shut down. -/
  longRunning : Bool := false
  loadBalancer : Bool := false
  /-- How long the testnet runs, as a duration. -/
  duration : String := ""
  wallets : Int := Launch.defaultWallets
  cosmosSdkSha : Option String := none
  cometbftSha : Option String := none
  catalystVersion : Option String := none
  provider : List (String × String) := []
  deriving DecidableEq

namespace Launch

/-- Whether two settings of the provider have the same entries, in any order. -/
def sameProvider (a b : List (String × String)) : Bool :=
  a.length = b.length && a.all fun e => b.lookup e.1 = some e.2

/-- Whether two load tests are both absent, or both present and the same. -/
def sameLoadTest : Option LoadTest → Option LoadTest → Bool
  | none, none => true
  | some a, some b => a.same b
  | _, _ => false

/-- Whether two launches agree in every field, free-form data being compared by value. -/
def same (a b : Launch) : Bool :=
  a.chain.same b.chain && sameLoadTest a.loadTest b.loadTest
    && sameProvider a.provider b.provider
    && { a with chain := b.chain, loadTest := none, provider := [] }
        = { b with loadTest := none, provider := [] }

end Launch

end Trialnet
