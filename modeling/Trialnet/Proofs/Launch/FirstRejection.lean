import Trialnet.Proofs.Launch.Sent

/-!
# The rejection that is reported

A launch is checked item by item: the duration, the counts, the regions, the wiring, and last the
load test.  `Launch.Fails` says for each item when it is the first to fail, and what is reported
then.  `Launch.check_decides` shows that the check accepts a launch if every item is in order, and
otherwise reports what fails first.

The empty text is the one duration that counts as missing.  Every other text is reported as it is
written if it is blank, if it cannot be read, or if it denotes no time at all.  The encoder reads
the same text again, and hence sends a positive number of seconds for a testnet that ends by itself.
-/

namespace Trialnet

variable {r : Rejection}

/-! ### The load test -/

/-- What is reported of a load test that is not accepted. -/
inductive LoadTest.Fails (t : LoadTest) : Rejection → Prop where
  | rule {v : Violation} (found : t.violation? = .ok (some v)) : t.Fails (.loadTest v)
  | weights {cause : Binary64.SumError} (found : t.violation? = .error cause) :
    t.Fails (.weights cause)

theorem LoadTest.check_eq_error {t : LoadTest} : t.check = .error r ↔ t.Fails r := by
  rw [check]
  constructor
  · intro h
    split at h
    · rename_i hfound
      exact Except.error.inj h ▸ .weights hfound
    · rename_i hfound
      exact Except.error.inj h ▸ .rule hfound
    · cases h
  · rintro (hfound | hfound)
    · rw [hfound]
    · rw [hfound]

/-! ### The network -/

/-- A count of the region is negative. -/
def Region.HasNegative (r : Region) : Prop := r.nodes < 0 ∨ r.validators < 0

/-- What is reported of counts and a wiring that make no network. -/
inductive Chain.Fails (c : Chain) : Rejection → Prop where
  | nodes (negative : c.nodes < 0) : c.Fails .negativeNodes
  | validators (nodes : 0 ≤ c.nodes) (missing : c.validators < 1) : c.Fails .noValidators
  | region {before after : List Region} {x : Region} (nodes : 0 ≤ c.nodes)
    (validators : 1 ≤ c.validators) (regions : c.regions = before ++ x :: after)
    (first : ∀ y ∈ before, ¬ y.HasNegative) (negative : x.HasNegative) :
    c.Fails (.negativeRegion x.name)
  | wiring (nodes : 0 ≤ c.nodes) (validators : 1 ≤ c.validators)
    (regions : ∀ x ∈ c.regions, ¬ x.HasNegative) (seedNode : c.seedNode = false)
    (persistentPeers : c.persistentPeers = false) : c.Fails .unwired

namespace Launch

theorem isNegative_iff {x : Region} : isNegative x = true ↔ x.HasNegative := by
  rw [isNegative, Bool.or_eq_true, decide_eq_true_eq, decide_eq_true_eq, Region.HasNegative]

/-- The search for a region ends at the first one with a negative count. -/
theorem find?_isNegative_eq_some {xs : List Region} {x : Region} :
    xs.find? isNegative = some x ↔ x.HasNegative
      ∧ ∃ before after, xs = before ++ x :: after ∧ ∀ y ∈ before, ¬ y.HasNegative := by
  rw [List.find?_eq_some_iff_append, isNegative_iff]
  simp only [Bool.not_eq_true', ← Bool.not_eq_true, isNegative_iff]

theorem checkTopology_eq_error {c : Chain} : checkTopology c = .error r ↔ c.Fails r := by
  rw [checkTopology]
  constructor
  · intro h
    split at h
    · rename_i hnodes
      exact Except.error.inj h ▸ .nodes hnodes
    rename_i hnodes
    split at h
    · rename_i hvalidators
      exact Except.error.inj h ▸ .validators (Int.not_lt.1 hnodes) hvalidators
    rename_i hvalidators
    split at h
    · rename_i x hfind
      obtain ⟨hnegative, before, after, hregions, hfirst⟩ := find?_isNegative_eq_some.1 hfind
      exact Except.error.inj h ▸
        .region (Int.not_lt.1 hnodes) (Int.not_lt.1 hvalidators) hregions hfirst hnegative
    rename_i hfind
    split at h
    · cases h
    · rename_i hwired
      rw [Bool.or_eq_true, not_or, Bool.not_eq_true, Bool.not_eq_true] at hwired
      refine Except.error.inj h ▸ .wiring (Int.not_lt.1 hnodes) (Int.not_lt.1 hvalidators) ?_
        hwired.1 hwired.2
      exact fun x hx => mt isNegative_iff.2 (List.find?_eq_none.1 hfind x hx)
  · intro h
    cases h with
    | nodes hnegative => exact if_pos hnegative
    | validators hnodes hmissing => rw [if_neg (Int.not_lt.2 hnodes), if_pos hmissing]
    | region hnodes hvalidators hregions hfirst hnegative =>
      rw [if_neg (Int.not_lt.2 hnodes), if_neg (Int.not_lt.2 hvalidators),
        find?_isNegative_eq_some.2 ⟨hnegative, _, _, hregions, hfirst⟩]
    | wiring hnodes hvalidators hregions hseed hpeers =>
      have hfind : c.regions.find? isNegative = none :=
        List.find?_eq_none.2 fun x hx => mt isNegative_iff.1 (hregions x hx)
      rw [if_neg (Int.not_lt.2 hnodes), if_neg (Int.not_lt.2 hvalidators), hfind]
      exact if_neg (by simp [hseed, hpeers])

/-! ### The duration -/

/-- What is wrong with a duration that is no use. -/
inductive IsUseless (raw : String) : Prop where
  | blank (read : Duration.read raw = .ok none)
  | unreadable {cause : Duration.ReadError} (read : Duration.read raw = .error cause)
  | zero (read : Duration.read raw = .ok (some 0))

/-- What is reported of a duration that is no use. -/
inductive DurationFails (raw : String) : Rejection → Prop where
  | missing (empty : raw = "") : DurationFails raw .durationMissing
  | invalid (given : raw ≠ "") (useless : IsUseless raw) : DurationFails raw (.durationInvalid raw)

variable {raw : String}

theorem isUseless_of_not_isLasting (h : ¬ IsLasting raw) : IsUseless raw := by
  cases hread : Duration.read raw with
  | error cause => exact .unreadable hread
  | ok seconds =>
    cases seconds with
    | none => exact .blank hread
    | some n =>
      cases n with
      | zero => exact .zero hread
      | succ n => exact absurd ⟨n + 1, Nat.succ_pos n, hread⟩ h

theorem checkDuration_eq_error : checkDuration raw = .error r ↔ DurationFails raw r := by
  constructor
  · intro h
    rw [checkDuration] at h
    split at h
    · rename_i hempty
      exact Except.error.inj h ▸ .missing hempty
    · rename_i hgiven
      have huseless : IsUseless raw := by
        refine isUseless_of_not_isLasting fun hlasting => ?_
        rw [← checkDuration_eq_ok, checkDuration, if_neg hgiven] at hlasting
        cases hlasting.symm.trans h
      split at h
      · cases h
      · exact Except.error.inj h ▸ .invalid hgiven huseless
  · rintro (hempty | ⟨hgiven, hblank | hunreadable | hzero⟩)
    · exact if_pos hempty
    · rw [checkDuration, if_neg hgiven, hblank]
    · rw [checkDuration, if_neg hgiven, hunreadable]
    · rw [checkDuration, if_neg hgiven, hzero]

/-! ### All items -/

/-- The testnet runs until it is shut down, or for at least a second. -/
def IsTimed (l : Launch) : Prop := l.longRunning = true ∨ IsLasting l.duration

/-- The first item that fails, and what is reported of it. -/
inductive Fails (l : Launch) : Rejection → Prop where
  | duration {r : Rejection} (ends : l.longRunning = false) (fails : DurationFails l.duration r) :
    l.Fails r
  | chain {r : Rejection} (timed : l.IsTimed) (fails : l.chain.Fails r) : l.Fails r
  | loadTest {r : Rejection} {t : LoadTest} (timed : l.IsTimed) (chain : l.chain.Valid)
    (carried : l.loadTest = some t) (fails : t.Fails r) : l.Fails r

theorem check_eq_error {l : Launch} : l.check = .error r ↔ l.Fails r := by
  have hduration : (if l.longRunning then .ok () else checkDuration l.duration) = .error r
      ↔ l.longRunning = false ∧ DurationFails l.duration r := by
    rw [← checkDuration_eq_error]
    cases l.longRunning with
    | true => simp
    | false => simp
  have hloadTest : l.loadTest.elim (.ok ()) LoadTest.check = .error r
      ↔ ∃ t, l.loadTest = some t ∧ t.Fails r := by
    cases l.loadTest with
    | none => simp
    | some t => simp [LoadTest.check_eq_error]
  rw [check_eq_bind, bind_eq_error]
  constructor
  · rintro (h | ⟨_, htimed, h⟩)
    · exact .duration (hduration.1 h).1 (hduration.1 h).2
    have htimed := ownDuration_eq_ok.1 htimed
    rcases bind_eq_error.1 h with h | ⟨_, hchain, h⟩
    · exact .chain htimed (checkTopology_eq_error.1 h)
    · obtain ⟨t, hcarried, hfails⟩ := hloadTest.1 h
      exact .loadTest htimed (checkTopology_eq_ok.1 hchain) hcarried hfails
  · intro h
    cases h with
    | duration hends hfails => exact Or.inl (hduration.2 ⟨hends, hfails⟩)
    | chain htimed hfails =>
      refine Or.inr ⟨(), ownDuration_eq_ok.2 htimed, ?_⟩
      exact bind_eq_error.2 (Or.inl (checkTopology_eq_error.2 hfails))
    | loadTest htimed hchain hcarried hfails =>
      refine Or.inr ⟨(), ownDuration_eq_ok.2 htimed, bind_eq_error.2 (Or.inr ⟨(), ?_⟩)⟩
      exact ⟨checkTopology_eq_ok.2 hchain, hloadTest.2 ⟨_, hcarried, hfails⟩⟩

/-- The check accepts a launch exactly if it is timed, its chain is valid and nothing is found in
its load test, and it reports exactly what fails first.  The duration of an accepted launch that
ends by itself is not sent as 0, which stands for none. -/
theorem check_decides (l : Launch) :
    (l.check = .ok () ↔ l.IsTimed ∧ l.chain.Valid
        ∧ ∀ t, l.loadTest = some t → t.violation? = .ok none)
      ∧ (∀ r, l.check = .error r ↔ l.Fails r)
      ∧ (l.check = .ok () → l.longRunning = false →
        ∀ w, l.encode.value = .ok w → 1 ≤ w.duration.val) := by
  refine ⟨?_, fun _ => check_eq_error, fun hcheck hends w hencode => ?_⟩
  · simp only [LoadTest.violation?_eq_none]
    rw [check_eq_ok]
    exact ⟨fun ⟨htimed, hchain, htest⟩ => ⟨htimed, hchain, htest⟩,
      fun ⟨htimed, hchain, htest⟩ => ⟨htimed, hchain, htest⟩⟩
  · rcases (check_eq_ok.1 hcheck).duration with hforever | hlasting
    · rw [hends] at hforever
      cases hforever
    · exact (encode_eq_ok.1 hencode).duration_pos hlasting

/-- Two hours are accepted and sent.  Blanks for a duration are reported before the second region,
which is the first with a negative count. -/
theorem check_decides_twoHours :
    let c : Chain :=
      { name := "c", image := "", validators := 1, persistentPeers := true
        regions :=
          [{ name := "ams" }, { name := "fra", nodes := -1 }, { name := "nyc", nodes := -2 }] }
    let l : Launch :=
      { repo := "app", sha := "", duration := "2h", chain := { c with regions := [] } }
    (∃ w, l.encode.value = .ok w ∧ 1 ≤ w.duration.val)
      ∧ { l with chain := c }.check = .error (.negativeRegion "fra")
      ∧ { l with chain := c, duration := " " }.check = .error (.durationInvalid " ") := by
  intro c l
  let w : Wire.Launch :=
    { repo := "app", sha := "", runner := "Docker"
      chain := some { name := "c", image := "", validators := ⟨1, by decide, by decide⟩
                      persistentPeers := true }
      duration := ⟨7200, by decide, by decide⟩, wallets := ⟨2500, by decide, by decide⟩ }
  have hlasting : IsLasting "2h" := ⟨7200, by decide, by decide +kernel⟩
  have hencode : l.encode.value = .ok w := by decide +kernel
  have hchain : l.chain.Valid :=
    ⟨by decide, by decide, fun x hx => absurd hx List.not_mem_nil, Or.inr rfl⟩
  have hcheck : l.check = .ok () :=
    (check_decides l).1.2 ⟨Or.inr hlasting, hchain, fun t ht => by cases ht⟩
  have hregions : c.regions = [{ name := "ams" }] ++ { name := "fra", nodes := -1 }
      :: [{ name := "nyc", nodes := -2 }] := rfl
  have hregion : c.Fails (.negativeRegion "fra") :=
    .region (by decide) (by decide) hregions (by simp [Region.HasNegative]) (Or.inl (by decide))
  refine ⟨⟨w, hencode, (check_decides l).2.2 hcheck rfl w hencode⟩, ?_, ?_⟩
  · exact ((check_decides _).2.1 _).2 (.chain (Or.inr hlasting) hregion)
  · exact ((check_decides _).2.1 _).2
      (.duration rfl (.invalid (by decide) (.blank (by decide +kernel))))

end Launch

end Trialnet
