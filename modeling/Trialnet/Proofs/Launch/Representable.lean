import Trialnet.Proofs.Chain.Representable
import Trialnet.Proofs.Duration.Accuracy
import Trialnet.Proofs.Launch.Encoding
import Trialnet.Proofs.LoadTest.Representable

/-!
# Which launches have a wire form

A launch is encoded exactly if its chain and its load test are, its duration is so many seconds
as fit into 64 bits, and its number of wallets fits into 32.  What a duration denotes is stated
without the reader, and the two agree as long as the reader rounds nothing: a sum that is not
whole may be rounded to one that is.
-/

namespace Trialnet

open Payload

namespace Launch

/-- The duration of a launch is so many seconds as fit into 64 bits. -/
def SendsDuration (l : Launch) : Prop :=
  ∃ duration : Signed64, l.durationSeconds.value = .ok duration.val

theorem exists_loadTestEncodesTo_iff {l : Launch} {test : Option LoadTest} :
    (∃ w, l.LoadTestEncodesTo test w)
      ↔ ∀ t, test = some t → ∃ w, (l.adjusted t).EncodesTo w := by
  cases test with
  | none => exact ⟨fun _ => nofun, fun _ => ⟨none, Option.Rel.none⟩⟩
  | some t =>
    constructor
    · rintro ⟨_, ⟨hw⟩⟩ t' ht'
      obtain rfl := Option.some.inj ht'
      exact ⟨_, hw⟩
    · intro h
      obtain ⟨w, hw⟩ := h t rfl
      exact ⟨some w, Option.Rel.some hw⟩

/-- A launch is encoded if its parts and its numbers are. -/
theorem exists_encodesTo_iff {l : Launch} :
    (∃ w, l.EncodesTo w)
      ↔ l.chain.Representable ∧ (∀ t, l.loadTest = some t → ∃ w, (l.adjusted t).EncodesTo w)
        ∧ l.SendsDuration ∧ FitsNarrow l.wallets := by
  rw [← Chain.exists_encodesTo_iff, ← exists_loadTestEncodesTo_iff]
  constructor
  · rintro ⟨w, hw⟩
    obtain ⟨c, -, hc⟩ := hw.chain
    exact ⟨⟨c, hc⟩, ⟨w.loadTest, hw.loadTest⟩, ⟨w.duration, hw.duration⟩,
      exists_ranged_iff.1 ⟨w.wallets, hw.wallets⟩⟩
  · rintro ⟨⟨chain, hchain⟩, ⟨loadTest, hloadTest⟩, ⟨duration, hduration⟩, hwallets⟩
    obtain ⟨wallets, hwallets⟩ := exists_ranged_iff.2 hwallets
    exact ⟨{ repo := l.repo, sha := l.sha, evm := l.evm, chain := some chain
             runner := l.runner.name, loadTest, longRunning := l.longRunning
             loadBalancer := l.loadBalancer, duration, wallets
             cosmosSdkSha := l.cosmosSdkSha, cometbftSha := l.cometbftSha
             catalystVersion := l.catalystVersion, provider := l.provider },
      rfl, rfl, rfl, ⟨chain, rfl, hchain⟩, rfl, hloadTest, rfl, rfl, hduration, hwallets, rfl, rfl,
      rfl, rfl⟩

/-- What a launch has to be like to have a wire form, with the limits of free-form data that go for
its chain. -/
structure Representable (l : Launch) : Prop where
  chain : l.chain.Representable
  wallets : FitsNarrow l.wallets
  duration : Duration.IsSendable l.duration
  loadTest : ∀ t, l.loadTest = some t → t.Representable

/-- No sum of a duration that the launch sends is rounded. -/
structure HasExactDurations (l : Launch) : Prop where
  duration : Duration.IsExact l.duration
  timeout : ∀ t, l.loadTest = some t → t.HasExactTimeout

theorem sendsDuration_iff {l : Launch}
    (hgiven : l.longRunning = false ∨ Duration.IsBlank l.duration)
    (hexact : Duration.IsExact l.duration) :
    l.SendsDuration ↔ Duration.IsSendable l.duration := by
  rw [Duration.isSendable_iff hexact, SendsDuration, durationSeconds]
  rw [← Duration.read_eq_none] at hgiven
  cases hread : Duration.read l.duration with
  | error cause =>
    rw [hread] at hgiven
    rcases hgiven with hshort | hblank
    · simp only [hshort]
      constructor
      · rintro ⟨duration, h⟩
        cases h
      · rintro (h | ⟨n, h, -⟩) <;> cases h
    · cases hblank
  | ok seconds =>
    cases seconds with
    | none => exact ⟨fun _ => Or.inl rfl, fun _ => ⟨⟨0, by decide, by decide⟩, rfl⟩⟩
    | some n =>
      constructor
      · rintro ⟨duration, h⟩
        have hval : duration.val = n := (Except.ok.inj h).symm
        exact Or.inr ⟨n, rfl, exists_signed64_natCast_iff.1 ⟨duration, hval⟩⟩
      · rintro (h | ⟨m, h, hle⟩)
        · cases Except.ok.inj h
        · obtain rfl := Option.some.inj (Except.ok.inj h)
          obtain ⟨r, hr⟩ := exists_signed64_natCast_iff.2 hle
          exact ⟨r, congrArg Except.ok hr.symm⟩

/-- Whether the chain is an EVM chain has no part in whether a load test is encoded. -/
theorem exists_adjusted_encodesTo_iff {l : Launch} {t : LoadTest} (h : t.HasExactTimeout) :
    (∃ w, (l.adjusted t).EncodesTo w) ↔ t.Representable := by
  have hadjusted : (l.adjusted t).HasExactTimeout := h
  rw [LoadTest.exists_encodesTo_iff_representable hadjusted]
  constructor
  · rintro ⟨⟨htxs, hblocks, hmessages⟩, htimeout⟩
    exact ⟨⟨htxs, hblocks, hmessages⟩, htimeout⟩
  · rintro ⟨⟨htxs, hblocks, hmessages⟩, htimeout⟩
    exact ⟨⟨htxs, hblocks, hmessages⟩, htimeout⟩

/-- A launch that does not run forever, or has no duration, is encoded exactly if it is
representable, provided that no duration has to be rounded.  Otherwise the encoder reports why
there is no wire form. -/
theorem encode_ok_iff_representable {l : Launch}
    (hgiven : l.longRunning = false ∨ Duration.IsBlank l.duration) (hexact : l.HasExactDurations) :
    ((∃ w, l.encode.value = .ok w) ↔ l.Representable)
      ∧ (¬ l.Representable → ∃ e : EncodeError, l.encode.value = .error e) := by
  have hiff : (∃ w, l.encode.value = .ok w) ↔ l.Representable := by
    have hloadTest : (∀ t, l.loadTest = some t → ∃ w, (l.adjusted t).EncodesTo w)
        ↔ ∀ t, l.loadTest = some t → t.Representable :=
      forall₂_congr fun t ht => exists_adjusted_encodesTo_iff (hexact.timeout t ht)
    simp only [encode_eq_ok]
    rw [exists_encodesTo_iff, hloadTest, sendsDuration_iff hgiven hexact.duration]
    constructor
    · rintro ⟨hchain, htest, hduration, hwallets⟩
      exact ⟨hchain, hwallets, hduration, htest⟩
    · rintro ⟨hchain, hwallets, hduration, htest⟩
      exact ⟨hchain, htest, hduration, hwallets⟩
  refine ⟨hiff, fun h => ?_⟩
  cases hencode : l.encode.value with
  | error e => exact ⟨e, rfl⟩
  | ok w => exact absurd (hiff.1 ⟨w, hencode⟩) h

/-- A launch of ninety minutes with an unordered load test. -/
theorem encode_representable_ninetyMinutes :
    let l : Launch :=
      { repo := "app", sha := "", chain := { name := "c", image := "", nodes := 2 }
        loadTest := some { unordered := true, timeout := "45" }, duration := "90m" }
    (∃ w, l.encode.value = .ok w) ∧ l.Representable := by
  intro l
  have hduration : Duration.IsExact l.duration := by
    have hexact : Duration.Part.exact ⟨['9', '0'], [], .minute⟩ = (5400 : ℕ) := by
      have hvalue : Text.digitsValue ['9', '0'] = 90 := by decide
      norm_num [Duration.Part.exact, Duration.Unit.exact, hvalue]
    have hparts : Duration.parts? (Duration.trimmed l.duration)
        = some [⟨['9', '0'], [], .minute⟩] := by decide
    refine Duration.isExact_of_parts? hparts (Duration.fitsPrecision_of_natural ?_ ?_)
    · intro p hp
      rw [List.mem_singleton.1 hp]
      exact ⟨5400, hexact⟩
    · norm_num [Duration.exactTotal, hexact, Duration.Amount.precision]
  have htimeout : ∀ t, l.loadTest = some t → t.HasExactTimeout := by
    rintro t ht - ps hps
    -- a plain number has no parts
    obtain rfl := Option.some.inj ht
    cases hps.parts?.symm.trans (by decide : Duration.parts? (Duration.trimmed "45") = none)
  have hencode : l.encode.value = .ok
      { repo := "app", sha := "", runner := "Docker", duration := ⟨5400, by decide, by decide⟩
        chain := some { name := "c", image := "", nodes := ⟨2, by decide, by decide⟩ }
        loadTest := some { unordered := true, timeout := some ⟨45, by decide, by decide⟩ }
        wallets := ⟨2500, by decide, by decide⟩ } := by
    decide +kernel
  have hiff := (encode_ok_iff_representable (Or.inl rfl) ⟨hduration, htimeout⟩).1
  exact ⟨⟨_, hencode⟩, hiff.1 ⟨_, hencode⟩⟩

/-- A second and a fraction that is lost by rounding to 28 digits: no whole number of seconds,
and yet it is encoded as one. -/
theorem encode_ok_roundedSecond :
    let l : Launch :=
      { repo := "r", sha := "s", chain := { name := "c", image := "i" }
        duration := "1.00000000000000000000000000001s" }
    l.longRunning = false ∧ (∃ w, l.encode.value = .ok w ∧ w.duration.val = 1)
      ∧ ¬ l.Representable := by
  intro l
  have hencode : l.encode.value = .ok
      { repo := "r", sha := "s", runner := "Docker", chain := some { name := "c", image := "i" }
        duration := ⟨1, by decide, by decide⟩, wallets := ⟨2500, by decide, by decide⟩ } := by
    decide +kernel
  refine ⟨rfl, ⟨_, hencode, rfl⟩, fun h => ?_⟩
  rcases h.duration with hblank | ⟨n, hn, -⟩
  · exact absurd hblank (show ¬ Duration.trimmed l.duration = [] by decide)
  · exact Duration.not_denotes_fraction n hn

end Launch

end Trialnet
