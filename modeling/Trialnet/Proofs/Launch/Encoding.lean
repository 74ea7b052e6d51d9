import Trialnet.Proofs.Chain.Encoding
import Trialnet.Proofs.LoadTest.Encoding
import Trialnet.Launch.Wire

/-!
# What a launch is encoded as

The wire form of a launch is put together from those of its chain and of its load test, the
seconds that its duration denotes, and what is copied.
-/

namespace Trialnet

open Payload

namespace LoadTest

theorem timeoutSeconds_normalize (t : LoadTest) :
    t.normalize.timeoutSeconds = t.timeoutSeconds := by
  rw [normalize]
  split
  · rfl
  · rename_i h
    rw [timeoutSeconds, timeoutSeconds, if_neg h, if_neg h]

/-- A timeout that means nothing may be cleared before a load test is encoded. -/
theorem encode_normalize (t : LoadTest) : t.normalize.encode = t.encode := by
  have hseconds := t.timeoutSeconds_normalize
  rw [normalize] at hseconds ⊢
  split
  · rfl
  · rename_i h
    rw [if_neg h] at hseconds
    rw [encode, encode, hseconds]

theorem encodesTo_normalize {t : LoadTest} {w : Wire.LoadTest} :
    t.normalize.EncodesTo w ↔ t.EncodesTo w := by
  rw [← encode_eq_ok, ← encode_eq_ok, encode_normalize]

end LoadTest

namespace Launch

/-- The load test with the launch's answer to whether the chain is an EVM chain. -/
def adjusted (l : Launch) (t : LoadTest) : LoadTest := { t with evm := l.evm }

theorem submitted_eq (l : Launch) (t : LoadTest) : l.submitted t = (l.adjusted t).normalize := by
  by_cases h : t.unordered = true
  · simp [submitted, adjusted, LoadTest.normalize, h]
  · simp [submitted, adjusted, LoadTest.normalize, h]

/-- A launch sends its load test as the load test alone is sent, adjusted to the launch. -/
theorem encode_submitted {l : Launch} {t : LoadTest} {w : Wire.LoadTest} :
    (l.submitted t).encode = .ok w ↔ (l.adjusted t).EncodesTo w := by
  rw [submitted_eq, LoadTest.encode_normalize, LoadTest.encode_eq_ok]

/-- The load tests on the wire: none for none. -/
def LoadTestEncodesTo (l : Launch) : Option LoadTest → Option Wire.LoadTest → Prop :=
  Option.Rel fun t w => (l.adjusted t).EncodesTo w

/-- The wire form of a launch, field by field. -/
structure EncodesTo (l : Launch) (w : Wire.Launch) : Prop where
  repo : w.repo = l.repo
  sha : w.sha = l.sha
  evm : w.evm = l.evm
  chain : ∃ c, w.chain = some c ∧ l.chain.EncodesTo c
  runner : w.runner = l.runner.name
  loadTest : l.LoadTestEncodesTo l.loadTest w.loadTest
  longRunning : w.longRunning = l.longRunning
  loadBalancer : w.loadBalancer = l.loadBalancer
  duration : l.durationSeconds.value = .ok w.duration.val
  wallets : w.wallets.val = l.wallets
  cosmosSdkSha : w.cosmosSdkSha = l.cosmosSdkSha
  cometbftSha : w.cometbftSha = l.cometbftSha
  catalystVersion : w.catalystVersion = l.catalystVersion
  provider : w.provider = l.provider

theorem mapM_submitted {l : Launch} {test : Option LoadTest} {w : Option Wire.LoadTest} :
    test.mapM (fun t => (l.submitted t).encode) = .ok w ↔ l.LoadTestEncodesTo test w := by
  cases test with
  | none =>
    constructor
    · intro h
      obtain rfl := Except.ok.inj h
      exact Option.Rel.none
    · rintro ⟨⟩
      rfl
  | some t =>
    have hmap : (some t).mapM (fun t => (l.submitted t).encode)
        = (l.submitted t).encode.map some := by
      rw [Option.mapM_some]
      rfl
    rw [hmap, map_eq_ok]
    constructor
    · rintro ⟨w, hw, rfl⟩
      exact Option.Rel.some (encode_submitted.1 hw)
    · rintro ⟨hw⟩
      exact ⟨_, encode_submitted.2 hw, rfl⟩

theorem encodeParts_eq_ok {l : Launch} {parts : Option Wire.LoadTest × Wire.Chain} :
    l.encodeParts = .ok parts
      ↔ l.LoadTestEncodesTo l.loadTest parts.1 ∧ l.chain.EncodesTo parts.2 := by
  rw [encodeParts, bind_eq_ok]
  constructor
  · rintro ⟨test, htest, h⟩
    obtain ⟨chain, hchain, h⟩ := bind_eq_ok.1 h
    obtain rfl := Except.ok.inj h
    exact ⟨mapM_submitted.1 htest, Chain.encode_eq_ok.1 hchain⟩
  · rintro ⟨htest, hchain⟩
    refine ⟨parts.1, mapM_submitted.2 htest, ?_⟩
    exact bind_eq_ok.2 ⟨parts.2, Chain.encode_eq_ok.2 hchain, rfl⟩

/-- A launch is encoded if its parts, its duration and its numbers are, one after the other. -/
theorem value_encode (l : Launch) :
    l.encode.value = l.encodeParts >>= fun parts => l.durationSeconds.value >>= fun seconds =>
      l.assemble parts.1 parts.2 seconds := by
  rw [encode]
  cases l.encodeParts with
  | error e => rfl
  | ok parts =>
    obtain ⟨test, chain⟩ := parts
    simp only [Logged.value_bind]
    cases l.durationSeconds.value with
    | error e => rfl
    | ok seconds => rfl

theorem assemble_eq_ok {l : Launch} {test : Option Wire.LoadTest} {chain : Wire.Chain}
    {seconds : Int} {w : Wire.Launch} :
    l.assemble test chain seconds = .ok w
      ↔ w.duration.val = seconds ∧ w.wallets.val = l.wallets
        ∧ w = { repo := l.repo, sha := l.sha, evm := l.evm, chain := some chain
                runner := l.runner.name, loadTest := test, longRunning := l.longRunning
                loadBalancer := l.loadBalancer, duration := w.duration, wallets := w.wallets
                cosmosSdkSha := l.cosmosSdkSha, cometbftSha := l.cometbftSha
                catalystVersion := l.catalystVersion, provider := l.provider } := by
  rw [assemble, bind_eq_ok]
  constructor
  · rintro ⟨numbers, hnumbers, h⟩
    obtain ⟨duration, wallets, hduration, hwallets, rfl⟩ :=
      both_eq_ok.1 (Reading.fit_eq_ok.1 hnumbers)
    obtain rfl := Except.ok.inj h
    exact ⟨hduration, hwallets, rfl⟩
  · rintro ⟨hduration, hwallets, hw⟩
    refine ⟨(w.duration, w.wallets), Reading.fit_eq_ok.2 (both_eq_ok.2 ?_), ?_⟩
    · exact ⟨w.duration, w.wallets, hduration, hwallets, rfl⟩
    · exact congrArg _ hw.symm

theorem encode_eq_ok {l : Launch} {w : Wire.Launch} : l.encode.value = .ok w ↔ l.EncodesTo w := by
  rw [value_encode]
  constructor
  · intro h
    obtain ⟨⟨test, chain⟩, hparts, h⟩ := bind_eq_ok.1 h
    obtain ⟨seconds, hseconds, h⟩ := bind_eq_ok.1 h
    obtain ⟨htest, hchain⟩ := encodeParts_eq_ok.1 hparts
    obtain ⟨hduration, hwallets, hw⟩ := assemble_eq_ok.1 h
    rw [hw] at hduration hwallets ⊢
    exact ⟨rfl, rfl, rfl, ⟨chain, rfl, hchain⟩, rfl, htest, rfl, rfl, hduration ▸ hseconds,
      hwallets, rfl, rfl, rfl, rfl⟩
  · rintro ⟨hrepo, hsha, hevm, ⟨chain, hchain, hencodes⟩, hrunner, htest, hlong, hbalancer,
      hduration, hwallets, hcosmos, hcometbft, hcatalyst, hprovider⟩
    refine bind_eq_ok.2 ⟨(w.loadTest, chain), encodeParts_eq_ok.2 ⟨htest, hencodes⟩, ?_⟩
    refine bind_eq_ok.2 ⟨w.duration.val, hduration, assemble_eq_ok.2 ⟨rfl, hwallets, ?_⟩⟩
    rw [← hrepo, ← hsha, ← hevm, ← hchain, ← hrunner, ← hlong, ← hbalancer, ← hcosmos,
      ← hcometbft, ← hcatalyst, ← hprovider]

end Launch

end Trialnet
