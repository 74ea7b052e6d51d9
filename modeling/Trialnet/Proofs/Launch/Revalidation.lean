import Trialnet.Proofs.Launch.Reload
import Trialnet.Proofs.Launch.Sent

/-!
# Valid launches stay valid when they are loaded again

The checks look at a launch as it was given: at durations as texts and at counts that may be
open.  What is loaded again has its durations rewritten and its counts filled in.  Each rule is
stable under that: weights and slots are kept, an open count becomes 1, and a duration of at
least a second is read back as that many seconds.  Nothing is asked of genesis values, documents
and versions, as no rule looks at them; but the texts among them have to load, or else there is
nothing that could be checked again.
-/

namespace Trialnet

/-! ### Load tests -/

/-- A count that is filled in is positive, as the fourth rule asks. -/
theorem Message.Complete.settled {m : Message} (h : m.Complete) : m.settled.Complete where
  contained := h.contained
  count := by
    intro hkind
    obtain ⟨n, hn, hpos⟩ := h.count hkind
    refine ⟨n, ?_, hpos⟩
    rw [Message.settled, hn, Option.getD_some]
  recipients := by
    intro hkind n hn
    obtain rfl := Option.some.inj hn
    cases hrecipients : m.recipients with
    | none => exact Int.one_pos
    | some k => exact h.recipients hkind k hrecipients

/-- Writing out the defaults keeps the weights and the slots, and so all four rules. -/
theorem LoadTest.WellFormed.settled {t : LoadTest} (h : t.WellFormed) : t.settled.WellFormed where
  slots := by
    rw [LoadTest.settled, List.map_map]
    exact h.slots
  weight := by
    intro m hm
    obtain ⟨m', hm', rfl⟩ := List.mem_map.1 hm
    exact h.weight m' hm'
  complete := by
    intro m hm
    obtain ⟨m', hm', rfl⟩ := List.mem_map.1 hm
    exact (h.complete m' hm').settled

theorem LoadTest.Valid.settled {t : LoadTest} (h : t.Valid) : t.settled.Valid := by
  have hrest := h.wellFormed.settled
  refine ⟨?_, hrest.slots, hrest.weight, hrest.complete⟩
  rcases h.total with hnil | htotal
  · refine Or.inl ?_
    rw [LoadTest.settled, hnil, List.map_nil]
  · refine Or.inr ?_
    rw [LoadTest.HasTotal, LoadTest.settled, List.map_map]
    exact htotal

/-! ### Chains -/

/-- The counts and the wiring are read back, whatever becomes of the documents. -/
theorem Chain.EncodesTo.valid_decoded {levels : Nat} {c r : Chain} {w : Wire.Chain}
    {warnings : List Json.Warning} (h : c.EncodesTo w) (hr : DecodesTo levels w r warnings)
    (hc : c.Valid) : r.Valid where
  nodes := by
    rw [hr.nodes, h.nodes]
    exact hc.nodes
  validators := by
    rw [hr.validators, h.validators]
    exact hc.validators
  regions := by
    rw [hr.regions, Region.map_decode_of_encodesTo h.regions]
    exact hc.regions
  wired := by
    rw [hr.seedNode, hr.persistentPeers, h.seedNode, h.persistentPeers]
    exact hc.wired

/-! ### Launches -/

namespace Launch

variable {levels : Nat} {l : Launch} {w : Wire.Launch}

/-- A duration of at least a second is still one when it is rewritten. -/
theorem EncodesTo.isLasting_decoded (h : l.EncodesTo w) (hlasting : IsLasting l.duration)
    (c : Chain) : IsLasting (decodeRest w c).value.duration := by
  obtain ⟨n, hval⟩ := exists_durationSeconds h.duration
  have hpos := h.duration_pos hlasting
  have hne : n ≠ 0 := by omega
  have hduration : (decodeRest w c).value.duration = Duration.text n := by
    change (if w.duration.val = 0 then "" else Duration.text w.duration.val) = _
    rw [hval, if_neg (by omega)]
  rw [hduration]
  exact ⟨n, Nat.pos_of_ne_zero hne, Duration.read_text_of_signed64 hval hne⟩

theorem EncodesTo.valid_decodeRest (h : l.EncodesTo w) (hl : l.Valid) {c : Chain}
    (hc : c.Valid) : (decodeRest w c).value.Valid where
  duration := by
    rcases hl.duration with hforever | hlasting
    · exact Or.inl (h.longRunning.trans hforever)
    · exact Or.inr (h.isLasting_decoded hlasting c)
  chain := hc
  loadTest := by
    have htest : (decodeRest w c).value.loadTest
        = l.loadTest.map fun t => (l.adjusted t).settled := by
      change (decodeLoadTest w.loadTest).value = _
      rw [decodeLoadTest_of_encodesTo h.loadTest]
    intro t' ht'
    rw [htest] at ht'
    obtain ⟨t, ht, rfl⟩ := Option.map_eq_some_iff.1 ht'
    exact (l.valid_adjusted (hl.loadTest t ht)).settled

theorem EncodesTo.valid_decoded (h : l.EncodesTo w) (hl : l.Valid) {x : Logged Launch}
    (hx : decode levels w = .ok x) : x.value.Valid := by
  obtain ⟨c, hc, hencodes⟩ := h.chain
  obtain ⟨chain, hchain, hvalue⟩ := value_of_decode hx
  rw [hc] at hchain
  obtain ⟨warnings, hdecodes, -⟩ := Chain.decode_eq_ok.1 hchain
  rw [hvalue]
  exact h.valid_decodeRest hl (hencodes.valid_decoded hdecodes hl.chain)

end Launch

/-- A launch that passes the checks and has a wire form passes them again after it has been
stored and loaded, if the texts in it load at all, and so does a load test that is sent and read
back by itself.  No check asks how deep a text is nested: a launch with one that is nested too
deeply passes them as well, but loading it fails with the reader's error. -/
theorem check_reload {levels : Nat} (hlevels : 4 ≤ levels) :
    (∀ (l : Launch) (w : Wire.Launch), (l.provider.map (·.1)).Nodup → l.check = .ok () →
        l.encode.value = .ok w →
        (w.Loads levels → ∃ r, (l.reload levels).value = .ok r ∧ r.check = .ok ())
          ∧ (¬ w.Loads levels → ∃ cause, (l.reload levels).value = .error (.tooDeep cause)))
      ∧ ∀ (t : LoadTest) (w : Wire.LoadTest), t.check = .ok () → t.encode = .ok w →
          ∃ t', t.reload.value = .ok t' ∧ t'.check = .ok () := by
  constructor
  · intro l w hprovider hcheck hencode
    have hw := Launch.encode_eq_ok.1 hencode
    constructor
    · intro hloads
      obtain ⟨x, hx⟩ := Launch.exists_decode_iff.2 hloads
      have hvalid := hw.valid_decoded (Launch.check_eq_ok.1 hcheck) hx
      have hreload := hw.reload_of_decode hlevels hprovider hx
      exact ⟨x.value, congrArg Logged.value hreload, Launch.check_eq_ok.2 hvalid⟩
    · intro hdeep
      obtain ⟨cause, hreload⟩ := hw.reload_of_not_loads hlevels hprovider hdeep
      exact ⟨cause, by rw [hreload]⟩
  · intro t w hcheck hencode
    have hreload := LoadTest.reload_of_encodesTo (LoadTest.encode_eq_ok.1 hencode)
    have hvalid := (LoadTest.check_eq_ok.1 hcheck).settled
    exact ⟨t.settled, by rw [hreload], LoadTest.check_eq_ok.2 hvalid⟩

/-- A launch of half an hour with an empty version, a genesis value that is loaded as a number
and an open count, and a load test of a bundle. -/
theorem check_reload_halfHour :
    let l : Launch :=
      { repo := "app", sha := "", duration := " 30m"
        chain := { name := "c", image := "", validators := 1, version := some "", seedNode := true
                   edits := [⟨"a", .text "1"⟩] }
        loadTest := some { messages := [{ kind := .multiSend, weight := .one }] } }
    let t : LoadTest :=
      { unordered := true, timeout := "1m"
        messages := [{ kind := .array, weight := .one, count := some 2, contained := some .send }] }
    (l.check = .ok () ∧ ∃ r, (l.reload Json.defaultLevels).value = .ok r ∧ r.check = .ok ())
      ∧ t.check = .ok () ∧ ∃ t', t.reload.value = .ok t' ∧ t'.check = .ok () := by
  intro l t
  have hprovider : (l.provider.map (·.1)).Nodup := List.nodup_nil
  have hlaunch : l.check = .ok () := by decide +kernel
  have htest : t.check = .ok () := by decide +kernel
  have hencode : l.encode.value = .ok
      { repo := "app", sha := "", runner := "Docker", duration := ⟨1800, by decide, by decide⟩
        wallets := ⟨2500, by decide, by decide⟩
        chain := some
          { name := "c", image := "", validators := ⟨1, by decide, by decide⟩, version := some ""
            seedNode := true, edits := [⟨"a", "1"⟩] }
        loadTest := some
          { messages := [{ kind := "MsgMultiSend", weight := .one
                           count := ⟨1, by decide, by decide⟩
                           recipients := ⟨1, by decide, by decide⟩ }] } } := by
    decide +kernel
  have hencode' : t.encode = .ok
      { unordered := true, timeout := some ⟨60, by decide, by decide⟩
        messages := [{ kind := "MsgArr", weight := .one, count := ⟨2, by decide, by decide⟩
                       contained := "MsgSend", recipients := ⟨1, by decide, by decide⟩ }] } := by
    decide +kernel
  have hreloads := check_reload (show 4 ≤ Json.defaultLevels by decide)
  exact ⟨⟨hlaunch, (hreloads.1 l _ hprovider hlaunch hencode).1 (by decide)⟩, htest,
    hreloads.2 t _ htest hencode'⟩

/-- A launch with a hundred thousand opening brackets for a genesis value passes the checks and has
a wire form, but there is nothing to be checked again. -/
theorem check_reload_brackets :
    let l := Launch.withGenesis (Json.brackets 100000)
    ∃ w cause, l.check = .ok () ∧ l.encode.value = .ok w
      ∧ (l.reload Json.defaultLevels).value = .error (.tooDeep cause) := by
  intro l
  obtain ⟨w, hw, hdeep⟩ := Launch.exists_withGenesis_encodesTo
    (Json.not_loads_brackets (show Json.defaultLevels < 100000 by decide))
  have hprovider : (l.provider.map (·.1)).Nodup := List.nodup_nil
  have hcheck : ∀ s, (Launch.withGenesis s).check = .ok () := fun _ => rfl
  obtain ⟨cause, hreload⟩ := hw.reload_of_not_loads (by decide) hprovider hdeep
  exact ⟨w, cause, hcheck _, Launch.encode_eq_ok.2 hw, by rw [hreload]⟩

end Trialnet
