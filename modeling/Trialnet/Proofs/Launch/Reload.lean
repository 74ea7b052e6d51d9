import Trialnet.Proofs.Chain.Reload
import Trialnet.Proofs.Launch.Decoding
import Trialnet.Proofs.Launch.Encoding
import Trialnet.Proofs.LoadTest.Reload
import Trialnet.Proofs.Wire.Launch
import Trialnet.Launch.Reload

/-!
# Launches that are stored and loaded again

A launch that is stored and loaded again is the launch that was stored, up to a form in which
its defaults are written out: `settled`.  Stored once more, it differs only in what that form
has changed, and in genesis values, which are written as what they stand for.  All of this is so if
the texts in it load.  A genesis value that is a text is sent as it is, however deep the brackets in
it are nested, and then nothing is loaded (`EncodesTo.reload_of_not_loads`).
-/

namespace Trialnet

open Payload

/-! ### Durations -/

/-- A number of seconds on the wire is what is read from the duration that is made of it. -/
theorem Duration.read_text_of_signed64 {r : Signed64} {n : Nat} (hr : r.val = n) (hn : n ≠ 0) :
    Duration.read (Duration.text n) = .ok (some n) := by
  refine Duration.read_clock (Nat.pos_of_ne_zero hn) (Nat.lt_trans (m := 2 ^ 63) ?_ (by decide))
  have := r.le_hi
  omega

namespace Launch

/-- The seconds of a duration are a natural number. -/
theorem exists_durationSeconds {l : Launch} {seconds : Int}
    (h : l.durationSeconds.value = .ok seconds) : ∃ n : Nat, seconds = n := by
  rw [durationSeconds] at h
  split at h
  · exact ⟨0, (Except.ok.inj h).symm⟩
  · exact ⟨_, (Except.ok.inj h).symm⟩
  · split at h
    · exact ⟨0, (Except.ok.inj h).symm⟩
    · cases h

/-! ### The form that is loaded -/

/-- No setting of the provider has two values, and no object in the chain has a key twice. -/
structure WellKeyed (l : Launch) : Prop where
  chain : l.chain.WellKeyed
  provider : (l.provider.map (·.1)).Nodup

/-- The launch of so many seconds with its defaults written out. -/
def settled (l : Launch) (seconds : Int) : Launch :=
  { l with
    chain := l.chain.settled
    loadTest := l.loadTest.map fun t => (l.adjusted t).settled
    duration := if seconds = 0 then "" else Duration.text seconds
    wallets := if l.wallets = 0 then defaultWallets else l.wallets
    cosmosSdkSha := Chain.nonEmpty l.cosmosSdkSha
    cometbftSha := Chain.nonEmpty l.cometbftSha
    catalystVersion := Chain.nonEmpty l.catalystVersion }

variable {levels : Nat}

theorem decodeChain_of_encodesTo {c : Chain} {w : Wire.Chain} (hc : c.WellKeyed)
    (h : c.EncodesTo w) (hloads : w.Loads levels) :
    decodeChain levels (some w) = .ok ⟨c.settled, []⟩ :=
  Chain.decode_eq_ok.2 ⟨[], h.decodesTo hc hloads, rfl⟩

theorem decodeLoadTest_of_encodesTo {l : Launch} {test : Option LoadTest}
    {w : Option Wire.LoadTest} (h : l.LoadTestEncodesTo test w) :
    decodeLoadTest w = ⟨test.map fun t => (l.adjusted t).settled, []⟩ := by
  cases h with
  | none => rfl
  | some ht =>
    rw [decodeLoadTest, LoadTest.decode_of_encodesTo ht]
    rfl

theorem decodeRunner_name (r : Runner) : decodeRunner r.name = ⟨r, []⟩ := by
  rw [decodeRunner, Runner.ofName?_name]
  rfl

theorem decode_of_encodesTo {l : Launch} {w : Wire.Launch} (hl : l.WellKeyed) (h : l.EncodesTo w)
    (hloads : w.Loads levels) : decode levels w = .ok ⟨l.settled w.duration.val, []⟩ := by
  obtain ⟨hrepo, hsha, hevm, ⟨c, hc, hchain⟩, hrunner, htest, hlong, hbalancer, -, hwallets,
    hcosmos, hcometbft, hcatalyst, hprovider⟩ := h
  have hchain' := decodeChain_of_encodesTo hl.chain hchain (hloads c hc)
  have htest' := decodeLoadTest_of_encodesTo htest
  have hrest : decodeRest w l.chain.settled = ⟨l.settled w.duration.val, []⟩ := by
    simp only [decodeRest, htest', hrunner, decodeRunner_name, hrepo, hsha, hevm, hlong,
      hbalancer, hwallets, hcosmos, hcometbft, hcatalyst, hprovider]
    rfl
  rw [decode, hc, hchain']
  exact congrArg (fun x : Logged Launch => Except.ok (Logged.mk x.value ([] ++ x.log))) hrest

/-! ### Storing and loading -/

theorem EncodesTo.hasTimeout {l : Launch} {w : Wire.Launch} (h : l.EncodesTo w) : w.HasTimeout := by
  intro t ht
  have htest := h.loadTest
  rw [ht] at htest
  generalize l.loadTest = test at htest
  cases htest with
  | some ht => exact ht.timeout_nonneg

/-- The wire form of a launch is loaded again from the text as which it is stored.  It takes four
levels, and the texts in it are not looked at yet. -/
theorem EncodesTo.ofStored (hlevels : 4 ≤ levels) {l : Launch} {w : Wire.Launch}
    (hl : (l.provider.map (·.1)).Nodup) (h : l.EncodesTo w) :
    (stored w).bind (ofStored levels) = .ok w := by
  have hprovider : (w.provider.map (·.1)).Nodup := h.provider ▸ hl
  obtain ⟨text, hwrite, hread⟩ := (Wire.Launch.storable hprovider).exists_text hlevels
  rw [stored, hwrite]
  simp only [Except.mapError, Except.bind, Launch.ofStored, hread,
    Wire.Launch.read_payload h.hasTimeout, Reading.toExcept_ok]

theorem EncodesTo.encode_eq {l : Launch} {w : Wire.Launch} (h : l.EncodesTo w) :
    l.encode = ⟨.ok w, l.encode.log⟩ := by
  rw [← encode_eq_ok.2 h]

/-- What is loaded of a launch is what its wire form is decoded as. -/
theorem EncodesTo.reload_of_decode (hlevels : 4 ≤ levels) {l : Launch} {w : Wire.Launch}
    (hl : (l.provider.map (·.1)).Nodup) (h : l.EncodesTo w) {x : Logged Launch}
    (hx : decode levels w = .ok x) :
    l.reload levels = ⟨.ok x.value, l.encode.log ++ x.log⟩ := by
  rw [reload, h.encode_eq]
  simp only [bind, h.ofStored hlevels hl, hx]
  exact congrArg (fun log => Logged.mk _ (l.encode.log ++ log)) (List.append_nil x.log)

theorem reload_of_encodesTo (hlevels : 4 ≤ levels) {l : Launch} {w : Wire.Launch}
    (hl : l.WellKeyed) (h : l.EncodesTo w) (hloads : w.Loads levels) :
    l.reload levels = ⟨.ok (l.settled w.duration.val), l.encode.log⟩ := by
  rw [h.reload_of_decode hlevels hl.provider (decode_of_encodesTo hl h hloads), List.append_nil]

/-- The reader gives up only when the launch has been stored and its wire form been loaded. -/
theorem EncodesTo.reload_of_not_loads (hlevels : 4 ≤ levels) {l : Launch} {w : Wire.Launch}
    (hl : (l.provider.map (·.1)).Nodup) (h : l.EncodesTo w) (hdeep : ¬ w.Loads levels) :
    ∃ cause, l.reload levels = ⟨.error (.tooDeep cause), l.encode.log⟩ := by
  obtain ⟨cause, hdecode⟩ := not_exists_eq_ok_iff.1 (mt exists_decode_iff.1 hdeep)
  refine ⟨cause, ?_⟩
  rw [reload, h.encode_eq]
  simp only [bind, h.ofStored hlevels hl, hdecode]
  exact congrArg (Logged.mk _) (List.append_nil l.encode.log)

/-! ### What is loaded -/

/-- The launch `r` is what is loaded of the launch `l` with the wire form `w`. -/
structure LoadsAs (levels : Nat) (l : Launch) (w : Wire.Launch) (r : Launch) : Prop where
  repo : r.repo = l.repo
  sha : r.sha = l.sha
  runner : r.runner = l.runner
  evm : r.evm = l.evm
  longRunning : r.longRunning = l.longRunning
  loadBalancer : r.loadBalancer = l.loadBalancer
  provider : r.provider = l.provider
  /-- The chain is what is read back of the chain alone. -/
  chain : ∃ c, l.chain.encode = .ok c ∧ Chain.decodeWithWarnings levels c = .ok (r.chain, [])
  loadTest_none : r.loadTest = none ↔ l.loadTest = none
  /-- The load test is what is read back of the load test alone, once it follows the launch in
  whether the chain is an EVM chain. -/
  loadTest_some : ∀ t, l.loadTest = some t →
    ∃ t', LoadTest.reload { t with evm := l.evm } = ⟨.ok t', []⟩ ∧ r.loadTest = some t'
  /-- No seconds are no duration, and others are read back from the duration they are given
  as. -/
  duration : ∃ n : Nat, w.duration.val = n ∧ (n = 0 → r.duration = "")
    ∧ (n ≠ 0 → Duration.read r.duration = .ok (some n))
  wallets : r.wallets = if l.wallets = 0 then 2500 else l.wallets
  cosmosSdkSha : r.cosmosSdkSha = l.cosmosSdkSha.filter (· ≠ "")
  cometbftSha : r.cometbftSha = l.cometbftSha.filter (· ≠ "")
  catalystVersion : r.catalystVersion = l.catalystVersion.filter (· ≠ "")

theorem EncodesTo.loadsAs_settled {l : Launch} {w : Wire.Launch} (hl : l.WellKeyed)
    (h : l.EncodesTo w) (hloads : w.Loads levels) :
    LoadsAs levels l w (l.settled w.duration.val) where
  repo := rfl
  sha := rfl
  runner := rfl
  evm := rfl
  longRunning := rfl
  loadBalancer := rfl
  provider := rfl
  chain := by
    obtain ⟨c, hwire, hc⟩ := h.chain
    exact ⟨c, Chain.encode_eq_ok.2 hc,
      Chain.decodeWithWarnings_eq_ok.2 (hc.decodesTo hl.chain (hloads c hwire))⟩
  loadTest_none := Option.map_eq_none_iff
  loadTest_some := by
    intro t ht
    have htest := h.loadTest
    rw [ht] at htest
    generalize w.loadTest = wtest at htest
    cases htest with
    | some hw =>
      refine ⟨(l.adjusted t).settled, LoadTest.reload_of_encodesTo hw, ?_⟩
      rw [settled, ht, Option.map_some]
  duration := by
    obtain ⟨n, hn⟩ := exists_durationSeconds h.duration
    refine ⟨n, hn, fun h0 => ?_, fun h0 => ?_⟩
    · simp [settled, hn, h0]
    · have hpos : ¬ (n : Int) = 0 := by omega
      simp only [settled, hn, hpos, if_false]
      exact Duration.read_text_of_signed64 hn h0
  wallets := rfl
  cosmosSdkSha := rfl
  cometbftSha := rfl
  catalystVersion := rfl

end Launch

/-! ### What is sent again -/

/-- The wire form `c'` of a chain that was loaded from the wire form `c`: an empty version is
left out, and the genesis values are written as what they stand for. -/
structure Wire.Chain.SentAgain (c c' : Wire.Chain) : Prop where
  same : c' = { c with version := Chain.nonEmpty c.version, edits := c'.edits }
  edits : List.Forall₂ (fun e e' => e'.key = e.key ∧ ∃ d, GenesisEdit.StandsFor e.value d
    ∧ GenesisEdit.valueText e.key d = .ok e'.value) c.edits c'.edits

/-- The wire form `w'` of a launch that was loaded from the wire form `w`: the default number of
wallets takes the place of none, and empty versions are left out. -/
structure Wire.Launch.SentAgain (w w' : Wire.Launch) : Prop where
  same : w' = { w with
    chain := w'.chain
    wallets := w'.wallets
    cosmosSdkSha := Chain.nonEmpty w.cosmosSdkSha
    cometbftSha := Chain.nonEmpty w.cometbftSha
    catalystVersion := Chain.nonEmpty w.catalystVersion }
  chain : Option.Rel Wire.Chain.SentAgain w.chain w'.chain
  wallets : w'.wallets.val = if w.wallets.val = 0 then 2500 else w.wallets.val

namespace Chain

theorem EncodesTo.sentAgain {c : Chain} {w w' : Wire.Chain} (hc : c.WellKeyed)
    (h : c.EncodesTo w) (h' : c.settled.EncodesTo w') : w.SentAgain w' := by
  have hregions : w'.regions = w.regions := by
    have hencode := mapM_eq_ok.2 (h.regions.imp fun _ _ => Region.encode_eq_ok.2)
    have hencode' := mapM_eq_ok.2 (h'.regions.imp fun _ _ => Region.encode_eq_ok.2)
    exact Except.ok.inj (hencode'.symm.trans hencode)
  refine ⟨?_, ?_⟩
  · have hname : w'.name = w.name := h'.name.trans h.name.symm
    have himage : w'.image = w.image := h'.image.trans h.image.symm
    have hversion : w'.version = nonEmpty w.version := by
      rw [h'.version, h.version]
      rfl
    have hnodes : w'.nodes = w.nodes := Ranged.ext (h'.nodes.trans h.nodes.symm)
    have hvalidators : w'.validators = w.validators :=
      Ranged.ext (h'.validators.trans h.validators.symm)
    have happ : w'.app = w.app := Except.ok.inj (h'.app.symm.trans h.app)
    have hconsensus : w'.consensus = w.consensus :=
      Except.ok.inj (h'.consensus.symm.trans h.consensus)
    have hclient : w'.client = w.client := Except.ok.inj (h'.client.symm.trans h.client)
    have hseed : w'.seedNode = w.seedNode := h'.seedNode.trans h.seedNode.symm
    have hpeers : w'.persistentPeers = w.persistentPeers :=
      h'.persistentPeers.trans h.persistentPeers.symm
    rw [← hname, ← himage, ← hversion, ← hnodes, ← hvalidators, ← hregions, ← happ, ← hconsensus,
      ← hclient, ← hseed, ← hpeers]
  · have hedits := h'.edits
    rw [settled, ← GenesisEdit.map_ofEntry_of_encodesTo hc.edits h.edits] at hedits
    refine (List.forall₂_map_left_iff.1 hedits).imp fun e e' he => ?_
    exact ⟨he.key, _, GenesisEdit.standsFor_valueOf e.value, he.value⟩

end Chain

namespace Launch

/-- The seconds that were loaded are sent again. -/
theorem EncodesTo.durationSeconds_settled {l : Launch} {w : Wire.Launch} (h : l.EncodesTo w) :
    (l.settled w.duration.val).durationSeconds.value = .ok w.duration.val := by
  obtain ⟨n, hn⟩ := exists_durationSeconds h.duration
  by_cases h0 : n = 0
  · have hread : Duration.read (l.settled w.duration.val).duration = .ok none := by
      simp only [settled, hn, h0]
      rfl
    rw [durationSeconds, hread, hn, h0]
    rfl
  · have hpos : ¬ (n : Int) = 0 := by omega
    have hread : Duration.read (l.settled w.duration.val).duration = .ok (some n) := by
      simp only [settled, hn, hpos, if_false]
      exact Duration.read_text_of_signed64 hn h0
    rw [durationSeconds, hread, hn]
    rfl

/-- The load test that was loaded is sent as it was. -/
theorem loadTest_of_settled {l : Launch} {seconds : Int} {w w' : Option Wire.LoadTest}
    (h : l.LoadTestEncodesTo l.loadTest w)
    (h' : (l.settled seconds).LoadTestEncodesTo (l.settled seconds).loadTest w') : w' = w := by
  simp only [settled] at h'
  generalize l.loadTest = test at h h'
  cases h with
  | none =>
    cases h'
    rfl
  | @some t wt ht =>
    rcases h' with ⟨ht'⟩
    -- the settled load test follows the launch already
    have hsettled : (l.adjusted t).settled.EncodesTo wt := ht.settled
    exact congrArg some (Except.ok.inj ((LoadTest.encode_eq_ok.2 ht').symm.trans
      (LoadTest.encode_eq_ok.2 hsettled)))

theorem EncodesTo.sentAgain {l : Launch} {w w' : Wire.Launch} (hl : l.WellKeyed)
    (h : l.EncodesTo w) (h' : (l.settled w.duration.val).EncodesTo w') : w.SentAgain w' := by
  obtain ⟨c, hc, hchain⟩ := h.chain
  obtain ⟨c', hc', hchain'⟩ := h'.chain
  refine ⟨?_, ?_, ?_⟩
  · have hrepo : w'.repo = w.repo := h'.repo.trans h.repo.symm
    have hsha : w'.sha = w.sha := h'.sha.trans h.sha.symm
    have hevm : w'.evm = w.evm := h'.evm.trans h.evm.symm
    have hrunner : w'.runner = w.runner := h'.runner.trans h.runner.symm
    have htest : w'.loadTest = w.loadTest := loadTest_of_settled h.loadTest h'.loadTest
    have hlong : w'.longRunning = w.longRunning := h'.longRunning.trans h.longRunning.symm
    have hbalancer : w'.loadBalancer = w.loadBalancer := h'.loadBalancer.trans h.loadBalancer.symm
    have hduration : w'.duration = w.duration :=
      Ranged.ext (Except.ok.inj (h'.duration.symm.trans h.durationSeconds_settled))
    have hcosmos : w'.cosmosSdkSha = Chain.nonEmpty w.cosmosSdkSha := by
      rw [h'.cosmosSdkSha, h.cosmosSdkSha]
      rfl
    have hcometbft : w'.cometbftSha = Chain.nonEmpty w.cometbftSha := by
      rw [h'.cometbftSha, h.cometbftSha]
      rfl
    have hcatalyst : w'.catalystVersion = Chain.nonEmpty w.catalystVersion := by
      rw [h'.catalystVersion, h.catalystVersion]
      rfl
    have hprovider : w'.provider = w.provider := h'.provider.trans h.provider.symm
    rw [← hrepo, ← hsha, ← hevm, ← hrunner, ← htest, ← hlong, ← hbalancer, ← hduration,
      ← hcosmos, ← hcometbft, ← hcatalyst, ← hprovider]
  · rw [hc, hc']
    exact Option.Rel.some (hchain.sentAgain hl.chain hchain')
  · rw [h'.wallets, h.wallets]
    rfl

/-- A launch with one genesis value, the given text. -/
def withGenesis (s : String) : Launch :=
  { repo := "r", sha := "s", longRunning := true
    chain := { name := "c", image := "i", validators := 1, seedNode := true
               edits := [⟨"a", .text s⟩] } }

/-- Any text is sent for a genesis value, also one that is not loaded again. -/
theorem exists_withGenesis_encodesTo {levels : Nat} {s : String} (h : ¬ Json.Loads levels s) :
    ∃ w, (withGenesis s).EncodesTo w ∧ ¬ w.Loads levels := by
  have hencode : (withGenesis s).encode.value = .ok
      { repo := "r", sha := "s", longRunning := true, runner := "Docker"
        chain := some { name := "c", image := "i", validators := ⟨1, by decide, by decide⟩
                        seedNode := true, edits := [⟨"a", s⟩] }
        wallets := ⟨2500, by decide, by decide⟩ } := by
    rfl
  exact ⟨_, encode_eq_ok.1 hencode,
    Wire.Launch.not_loads_of_edit rfl (List.mem_singleton.2 rfl) h⟩

/-- A launch that has a wire form is loaded again from the text as which it is stored, up to the
defaults that are written out, and nothing is reported that was not reported when it was
encoded.  If what is loaded has a wire form, it is the stored one up to the same changes.  The one
exception are texts that are nested too deeply: with one of them in it the launch is stored, too,
but loading it fails with the reader's error. -/
theorem reload_eq_settled_of_encode {levels : Nat} (hlevels : 4 ≤ levels) {l : Launch}
    {w : Wire.Launch} (hl : l.WellKeyed) (h : l.encode.value = .ok w) :
    (w.Loads levels → ∃ r, l.reload levels = ⟨.ok r, l.encode.log⟩ ∧ LoadsAs levels l w r
        ∧ ∀ w', r.encode.value = .ok w' → w.SentAgain w')
      ∧ (¬ w.Loads levels →
        ∃ cause, l.reload levels = ⟨.error (.tooDeep cause), l.encode.log⟩) := by
  have hw := encode_eq_ok.1 h
  refine ⟨fun hloads => ?_, hw.reload_of_not_loads hlevels hl.provider⟩
  refine ⟨l.settled w.duration.val, reload_of_encodesTo hlevels hl hw hloads,
    hw.loadsAs_settled hl hloads, ?_⟩
  intro w' hw'
  exact hw.sentAgain hl (encode_eq_ok.1 hw')

/-- A launch of ninety minutes without wallets, with an empty version and an unordered load
test. -/
theorem reload_ninetyMinutes :
    let l : Launch :=
      { repo := "app", sha := "", chain := { name := "c", image := "" }, evm := true
        loadTest := some { unordered := true }, duration := "90m", wallets := 0
        cosmosSdkSha := some "", provider := [("region", "ams")] }
    ∃ w r, l.encode.value = .ok w ∧ l.reload Json.defaultLevels = ⟨.ok r, l.encode.log⟩
      ∧ LoadsAs Json.defaultLevels l w r ∧ (∀ w', r.encode.value = .ok w' → w.SentAgain w')
      ∧ r.wallets = 2500 ∧ r.cosmosSdkSha = none
      ∧ Duration.read r.duration = .ok (some 5400) := by
  intro l
  have hkeyed : l.WellKeyed := ⟨⟨nofun, nofun, nofun, nofun⟩, by decide⟩
  have hencode : l.encode.value = .ok
      { repo := "app", sha := "", evm := true, runner := "Docker"
        chain := some { name := "c", image := "" }
        loadTest := some
          { unordered := true, timeout := some ⟨30, by decide, by decide⟩, evm := true }
        duration := ⟨5400, by decide, by decide⟩, wallets := ⟨0, by decide, by decide⟩
        cosmosSdkSha := some "", provider := [("region", "ams")] } := by
    decide +kernel
  obtain ⟨r, hreload, hloads, hagain⟩ :=
    (reload_eq_settled_of_encode (show 4 ≤ Json.defaultLevels by decide) hkeyed hencode).1
      (by decide)
  obtain ⟨n, hn, -, hduration⟩ := hloads.duration
  obtain rfl : 5400 = n := Int.ofNat.inj hn
  exact ⟨_, r, hencode, hreload, hloads, hagain, hloads.wallets, hloads.cosmosSdkSha,
    hduration (by decide)⟩

/-- A launch with a hundred thousand opening brackets for a genesis value has a wire form and is
stored, but it is not loaded again. -/
theorem reload_brackets :
    let l := withGenesis (Json.brackets 100000)
    ∃ w cause, l.WellKeyed ∧ l.encode.value = .ok w
      ∧ l.reload Json.defaultLevels = ⟨.error (.tooDeep cause), l.encode.log⟩ := by
  intro l
  obtain ⟨w, hw, hdeep⟩ := exists_withGenesis_encodesTo
    (Json.not_loads_brackets (show Json.defaultLevels < 100000 by decide))
  have hprovider : (l.provider.map (·.1)).Nodup := List.nodup_nil
  obtain ⟨cause, hreload⟩ := hw.reload_of_not_loads (by decide) hprovider hdeep
  have hedits : ∀ e ∈ l.chain.edits, e.value.WellKeyed := by
    intro e he
    obtain rfl := List.mem_singleton.1 he
    trivial
  exact ⟨w, cause, ⟨⟨hedits, nofun, nofun, nofun⟩, hprovider⟩, encode_eq_ok.2 hw, hreload⟩

end Launch

end Trialnet
