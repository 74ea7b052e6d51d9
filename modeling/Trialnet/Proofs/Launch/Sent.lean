import Trialnet.Proofs.Launch.Encoding
import Trialnet.Proofs.Launch.Validity
import Trialnet.Proofs.LoadTest.Sent

/-!
# What a valid launch sends

A launch is checked as it was given, and its payload is put together from the chain, the load
test and the seconds of the duration.  Here is what the checks amount to for the payload.  The
upper bounds of the counts come from the ranges of the wire, since the checks have none.
-/

namespace Trialnet

open Payload

namespace Datum

/-- A region that may be sent. -/
structure ValidRegion (d : Datum) : Prop where
  nodes : d.HasWide "numOfNodes" 0 0xFFFFFFFFFFFFFFFF
  validators : d.HasWide "numOfValidators" 0 0xFFFFFFFFFFFFFFFF

/-- A chain that may be sent. -/
structure ValidChain (d : Datum) : Prop where
  nodes : d.HasWide "numOfNodes" 0 0xFFFFFFFFFFFFFFFF
  validators : d.HasWide "numOfValidators" 1 0xFFFFFFFFFFFFFFFF
  regions : ∃ rs, d.field? "regionConfigs" = some (.array rs) ∧ ∀ r ∈ rs, r.ValidRegion
  wired : d.field? "setSeedNode" = some (.bool true)
    ∨ d.field? "setPersistentPeers" = some (.bool true)

/-- The load test of a launch, which follows it in whether the chain is an EVM chain. -/
structure ValidCompanion (d test : Datum) : Prop where
  loadTest : test.ValidLoadTest
  evm : ∃ b, d.field? "isEvmChain" = some (.bool b) ∧ test.field? "isEvmChain" = some (.bool b)

/-- A launch that may be sent. -/
structure ValidLaunch (d : Datum) : Prop where
  chain : ∃ c, d.field? "chainConfig" = some c ∧ c.ValidChain
  duration : d.field? "longRunningTestnet" = some (.bool true)
    ∨ d.HasWide "testnetDuration" 1 0x7FFFFFFFFFFFFFFF
  loadTest : ∀ test, d.field? "loadTestSpec" = some test → d.ValidCompanion test

end Datum

theorem Wire.Region.validRegion (r : Wire.Region) : r.payload.ValidRegion := by
  have hnodes : r.payload.field? "numOfNodes" = some (wide r.nodes) := by
    simp [Datum.field?, payload, fields, List.lookup_append]
  have hvalidators : r.payload.field? "numOfValidators" = some (wide r.validators) := by
    simp [Datum.field?, payload, fields, List.lookup_append]
  exact ⟨Datum.hasWide_of_le hnodes r.nodes.lo_le,
    Datum.hasWide_of_le hvalidators r.validators.lo_le⟩

theorem Chain.EncodesTo.validChain {c : Chain} {w : Wire.Chain} (h : c.EncodesTo w)
    (hc : c.Valid) : w.payload.ValidChain := by
  have hnodes : w.payload.field? "numOfNodes" = some (wide w.nodes) := by
    simp [Datum.field?, Wire.Chain.payload, Wire.Chain.fields, List.lookup_append]
  have hvalidators : w.payload.field? "numOfValidators" = some (wide w.validators) := by
    simp [Datum.field?, Wire.Chain.payload, Wire.Chain.fields, List.lookup_append]
  have hregions : w.payload.field? "regionConfigs"
      = some (.array (w.regions.map Wire.Region.payload)) := by
    simp [Datum.field?, Wire.Chain.payload, Wire.Chain.fields, List.lookup_append]
  have hseed : w.payload.field? "setSeedNode" = some (.bool w.seedNode) := by
    simp [Datum.field?, Wire.Chain.payload, Wire.Chain.fields, List.lookup_append]
  have hpeers : w.payload.field? "setPersistentPeers" = some (.bool w.persistentPeers) := by
    simp [Datum.field?, Wire.Chain.payload, Wire.Chain.fields, List.lookup_append]
  refine ⟨Datum.hasWide_of_le hnodes w.nodes.lo_le, Datum.hasWide_of_le hvalidators ?_,
    ⟨_, hregions, ?_⟩, ?_⟩
  · rw [h.validators]
    exact hc.validators
  · -- the wire has no negative counts, so nothing is left of the check of regions
    intro d hd
    obtain ⟨r, -, rfl⟩ := List.mem_map.1 hd
    exact r.validRegion
  · rw [hseed, hpeers, h.seedNode, h.persistentPeers]
    rcases hc.wired with htrue | htrue
    · exact Or.inl (by rw [htrue])
    · exact Or.inr (by rw [htrue])

namespace Launch

/-- Setting the answer to whether the chain is an EVM chain keeps a load test valid. -/
theorem valid_adjusted (l : Launch) {t : LoadTest} (ht : t.Valid) : (l.adjusted t).Valid :=
  ⟨ht.total, ht.slots, ht.weight, ht.complete⟩

theorem EncodesTo.validCompanion {l : Launch} {w : Wire.Launch} {t : Wire.LoadTest}
    (h : l.EncodesTo w) (hl : l.Valid) (ht : w.loadTest = some t) :
    w.payload.ValidCompanion t.payload := by
  have hevm : w.payload.field? "isEvmChain" = some (.bool w.evm) := by
    simp [Datum.field?, Wire.Launch.payload, Wire.Launch.fields, List.lookup_append]
  have hevm' : t.payload.field? "isEvmChain" = some (.bool t.evm) := by
    simp [Datum.field?, Wire.LoadTest.payload, Wire.LoadTest.fields, List.lookup_append]
  have hrel := h.loadTest
  rw [ht] at hrel
  cases hgiven : l.loadTest with
  | none =>
    rw [hgiven] at hrel
    cases hrel
  | some given =>
    rw [hgiven] at hrel
    obtain ⟨hencodes⟩ := hrel
    refine ⟨hencodes.validLoadTest (l.valid_adjusted (hl.loadTest given hgiven)), l.evm, ?_, ?_⟩
    · rw [hevm, h.evm]
    · rw [hevm', hencodes.evm]
      rfl

/-- A testnet that ends by itself sends the seconds until it does. -/
theorem EncodesTo.duration_pos {l : Launch} {w : Wire.Launch} (h : l.EncodesTo w)
    (hlasting : IsLasting l.duration) : 1 ≤ w.duration.val := by
  obtain ⟨n, hpos, hread⟩ := hlasting
  have hseconds := h.duration
  rw [durationSeconds, hread] at hseconds
  have hval : (n : Int) = w.duration.val := Except.ok.inj hseconds
  omega

/-- A valid launch sends a payload that may be sent. -/
theorem EncodesTo.validLaunch {l : Launch} {w : Wire.Launch} (h : l.EncodesTo w)
    (hl : l.Valid) : w.payload.ValidLaunch := by
  have hchain : w.payload.field? "chainConfig" = w.chain.map Wire.Chain.payload := by
    simp [Datum.field?, Wire.Launch.payload, Wire.Launch.fields, List.lookup_append]
  have hlong : w.payload.field? "longRunningTestnet" = some (.bool w.longRunning) := by
    simp [Datum.field?, Wire.Launch.payload, Wire.Launch.fields, List.lookup_append]
  have hduration : w.payload.field? "testnetDuration" = some (wide w.duration) := by
    simp [Datum.field?, Wire.Launch.payload, Wire.Launch.fields, List.lookup_append]
  have htest : w.payload.field? "loadTestSpec" = w.loadTest.map Wire.LoadTest.payload := by
    simp [Datum.field?, Wire.Launch.payload, Wire.Launch.fields, List.lookup_append]
  refine ⟨?_, ?_, fun test htest' => ?_⟩
  · obtain ⟨c, hc, hencodes⟩ := h.chain
    exact ⟨c.payload, by rw [hchain, hc, Option.map_some], hencodes.validChain hl.chain⟩
  · rcases hl.duration with hforever | hlasting
    · exact Or.inl (by rw [hlong, h.longRunning, hforever])
    · exact Or.inr (Datum.hasWide_of_le hduration (h.duration_pos hlasting))
  · rw [htest, Option.map_eq_some_iff] at htest'
    obtain ⟨t, ht, rfl⟩ := htest'
    exact h.validCompanion hl ht

end Launch

end Trialnet
