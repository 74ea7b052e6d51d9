import Trialnet.Proofs.Json.Documents
import Trialnet.Proofs.Json.Parsed
import Trialnet.Proofs.Launch.Decoding
import Trialnet.Proofs.Launch.Reload
import Trialnet.Proofs.Launch.Representable

/-!
# Which wire forms can be sent again

What the service echoes is decoded, and may be submitted again.  Most of it can be encoded again
whatever it is: counts come from the ranges they go back to, and a JSON text is read as a value that
has one.  Three things stand in the way.  A text that is nested too deeply is not read at all, and
so the launch is not decoded.  A text may be read as a value with a number that is not finite, which
JSON proper does not have.  And the timeout of an unordered load test may be negative, which no
duration is.
-/

namespace Trialnet

open Payload

/-! ### Texts of values -/

/-- The text is not that of a value with a number that is not finite. -/
def Json.IsFiniteText (s : String) : Prop := ∀ d, Json.IsTextOf s d → Json.AllFinite d

/-- The text, if there is one, is not that of a document with a number that is not finite. -/
def Json.IsFiniteDocument (raw : Option String) : Prop :=
  ∀ s fields, raw = some s → Json.IsTextOf s (.object fields) → Json.AllFinite (.object fields)

/-- A value that has a text lacks a proper one only because of numbers that are not finite. -/
theorem Json.IsTextOf.writable_refused_iff {s : String} {d : Datum} (h : Json.IsTextOf s d) :
    Json.Writable .refused d ↔ Json.AllFinite d := by
  obtain ⟨levels, htext⟩ := h
  rw [Json.writable_refused_iff]
  exact and_iff_right (storable_of_read (read_eq_ok.2 htext)).writable

theorem GenesisEdit.writable_valueOf {s : String} :
    Json.Writable .refused (valueOf s) ↔ Json.IsFiniteText s := by
  by_cases htext : ∃ d, Json.IsTextOf s d
  · obtain ⟨d, hd⟩ := htext
    rw [valueOf_of_isTextOf hd, hd.writable_refused_iff]
    constructor
    · rintro h d' hd'
      exact hd'.unique hd ▸ h
    · exact fun h => h d hd
  · rw [valueOf_of_not_isTextOf htext]
    exact iff_of_true trivial fun d hd => absurd ⟨d, hd⟩ htext

theorem Json.ReadsDocument.writableDocument_iff {field : String} {raw : Option String}
    {document : Option Fields} {warning : Option Json.Warning}
    (h : Json.ReadsDocument field raw document warning) :
    WritableDocument document ↔ Json.IsFiniteDocument raw := by
  simp only [WritableDocument, h.document_eq_some]
  constructor
  · intro hwritable s fields hraw htext
    exact htext.writable_refused_iff.1 (hwritable fields ⟨s, hraw, htext⟩)
  · rintro hfinite fields ⟨s, hraw, htext⟩
    exact htext.writable_refused_iff.2 (hfinite s fields hraw htext)

/-! ### Chains -/

/-- The texts of a chain load, and none is that of a value with a number that is not finite. -/
structure Wire.Chain.Replayable (levels : Nat) (c : Wire.Chain) : Prop where
  loads : c.Loads levels
  edits : ∀ e ∈ c.edits, Json.IsFiniteText e.value
  app : Json.IsFiniteDocument c.app
  consensus : Json.IsFiniteDocument c.consensus
  client : Json.IsFiniteDocument c.client

namespace Chain

variable {levels : Nat} {w : Wire.Chain} {c : Chain} {warnings : List Json.Warning}

/-- The counts of a chain that was decoded are in the ranges that they came from. -/
theorem DecodesTo.representable_iff (h : DecodesTo levels w c warnings) :
    c.Representable ↔ w.Replayable levels := by
  obtain ⟨hloads, hedits⟩ := GenesisEdit.decodeAll_eq_ok.1 h.edits
  obtain ⟨warning, hdocuments, -⟩ := h.documents
  have happ := (Json.readsDocument (hdocuments .app)).writableDocument_iff
  have hconsensus := (Json.readsDocument (hdocuments .consensus)).writableDocument_iff
  have hclient := (Json.readsDocument (hdocuments .client)).writableDocument_iff
  constructor
  · intro hc
    refine ⟨exists_decodesTo_iff.1 ⟨c, warnings, h⟩, ?_, happ.1 hc.app,
      hconsensus.1 hc.consensus, hclient.1 hc.client⟩
    intro e he
    have hwritable := hc.edits (GenesisEdit.ofEntry e) (hedits ▸ List.mem_map_of_mem he)
    exact GenesisEdit.writable_valueOf.1 hwritable
  · intro hw
    refine ⟨?_, ?_, ?_, ?_, happ.2 hw.app, hconsensus.2 hw.consensus, hclient.2 hw.client⟩
    · rw [h.nodes]
      exact ⟨w.nodes.lo_le, w.nodes.le_hi⟩
    · rw [h.validators]
      exact ⟨w.validators.lo_le, w.validators.le_hi⟩
    · intro r hr
      rw [h.regions] at hr
      obtain ⟨r', -, rfl⟩ := List.mem_map.1 hr
      exact ⟨⟨r'.nodes.lo_le, r'.nodes.le_hi⟩, ⟨r'.validators.lo_le, r'.validators.le_hi⟩⟩
    · intro e he
      rw [hedits] at he
      obtain ⟨e', he', rfl⟩ := List.mem_map.1 he
      exact GenesisEdit.writable_valueOf.2 (hw.edits e' he')

end Chain

/-! ### Load tests -/

/-- The timeout of an unordered load test is not negative. -/
def Wire.LoadTest.Replayable (t : Wire.LoadTest) : Prop :=
  t.unordered = true → ∀ n, t.timeout = some n → 0 ≤ n.val

/-- A message that was decoded has the counts that it had on the wire. -/
theorem Message.representable_of_mem_decodeAll {ws : List Wire.Message} :
    ∀ m ∈ (decodeAll ws).value, m.Representable := by
  induction ws with
  | nil => exact fun m hm => absurd hm List.not_mem_nil
  | cons w ws ih =>
    have hvalue : (decodeAll (w :: ws)).value
        = (decode w).value.toList ++ (decodeAll ws).value := rfl
    intro m hm
    rw [hvalue] at hm
    rcases List.mem_append.1 hm with hm | hm
    · rw [decode] at hm
      split at hm
      · exact absurd hm List.not_mem_nil
      · obtain rfl := List.mem_singleton.1 hm
        constructor
        · rintro n hn
          exact Option.some.inj hn ▸ ⟨w.count.lo_le, w.count.le_hi⟩
        · rintro n hn
          exact Option.some.inj hn ▸ ⟨w.recipients.lo_le, w.recipients.le_hi⟩
    · exact ih m hm

namespace LoadTest

/-- The counts of a load test that was decoded are in the ranges that they came from. -/
theorem inBounds_decode (w : Wire.LoadTest) : (decode w).value.InBounds where
  txs := ⟨w.txs.lo_le, w.txs.le_hi⟩
  blocks := ⟨w.blocks.lo_le, w.blocks.le_hi⟩
  messages := Message.representable_of_mem_decodeAll

/-- Seconds are read back from their text unless they are negative, and then the text is no
duration. -/
theorem sendsTimeout_text_iff {t : LoadTest} {r : Signed64} (hunordered : t.unordered = true)
    (htimeout : t.timeout = Numeral.text r.val) : t.SendsTimeout ↔ 0 ≤ r.val := by
  rw [SendsTimeout, timeoutSeconds, if_pos hunordered, htimeout]
  constructor
  · rintro ⟨timeout, h⟩
    by_contra hneg
    rw [Duration.read_text_of_neg (not_le.1 hneg)] at h
    cases h
  · intro h
    obtain ⟨k, hk⟩ := Int.eq_ofNat_of_zero_le h
    have hbound : (k : Int).natAbs < 2 ^ 64 := by
      have := r.le_hi
      omega
    have hlength : (Numeral.digits k).length ≤ Numeral.maxDigits :=
      length_digits_of_natAbs_lt hbound
    refine ⟨some r, ?_⟩
    rw [hk, Duration.read_text hlength, Option.map_some, hk]

/-- A timeout that is missing is decoded to the default, which is sent. -/
theorem sendsTimeout_decode_iff {w : Wire.LoadTest} :
    (decode w).value.SendsTimeout ↔ w.Replayable := by
  have hvalue : (decode w).value.timeout
      = Numeral.text ((w.timeout.map (·.val)).getD defaultTimeout) := rfl
  rw [Wire.LoadTest.Replayable]
  cases hunordered : w.unordered with
  | false =>
    refine ⟨fun _ => nofun, fun _ => ⟨none, ?_⟩⟩
    rw [timeoutSeconds]
    exact if_neg (ne_true_of_eq_false hunordered)
  | true =>
    rw [forall_prop_of_true rfl]
    cases htimeout : w.timeout with
    | none =>
      rw [htimeout] at hvalue
      rw [sendsTimeout_text_iff (r := ⟨defaultTimeout, by decide, by decide⟩) hunordered hvalue]
      refine ⟨?_, fun _ => by decide⟩
      rintro - n hn
      cases hn
    | some r =>
      rw [htimeout] at hvalue
      rw [sendsTimeout_text_iff hunordered hvalue]
      constructor
      · rintro h n hn
        exact Option.some.inj hn ▸ h
      · exact fun h => h r rfl

end LoadTest

/-! ### Launches -/

/-- What the wire form of a launch has to be like to be sent again once it has been decoded. -/
structure Wire.Launch.Replayable (levels : Nat) (w : Wire.Launch) : Prop where
  chain : ∀ c, w.chain = some c → c.Replayable levels
  loadTest : ∀ t, w.loadTest = some t → t.Replayable

namespace Launch

theorem representable_emptyChain : emptyChain.Representable where
  nodes := ⟨by decide, by decide⟩
  validators := ⟨by decide, by decide⟩
  regions := fun r hr => absurd hr List.not_mem_nil
  edits := fun e he => absurd he List.not_mem_nil
  app := nofun
  consensus := nofun
  client := nofun

theorem representable_decodeChain_iff {levels : Nat} {w : Option Wire.Chain} {x : Logged Chain}
    (h : decodeChain levels w = .ok x) :
    x.value.Representable ↔ ∀ c, w = some c → c.Replayable levels := by
  cases w with
  | none =>
    obtain rfl := Except.ok.inj h
    exact ⟨fun _ => nofun, fun _ => representable_emptyChain⟩
  | some c =>
    obtain ⟨warnings, hdecodes, -⟩ := Chain.decode_eq_ok.1 h
    rw [hdecodes.representable_iff]
    constructor
    · rintro h c' hc'
      exact Option.some.inj hc' ▸ h
    · exact fun h => h c rfl

/-- Whatever the seconds on the wire are, the duration they are decoded to is sent again: it is
none, or a positive number of seconds, or no seconds if they are negative. -/
theorem sendsDuration_decodeRest (w : Wire.Launch) (c : Chain) :
    (decodeRest w c).value.SendsDuration := by
  have hduration : (decodeRest w c).value.duration
      = if w.duration.val = 0 then "" else Duration.text w.duration.val := rfl
  rw [SendsDuration, durationSeconds, hduration]
  rcases lt_trichotomy w.duration.val 0 with hneg | hzero | hpos
  · have hread : Duration.read (Duration.text w.duration.val) = .ok (some 0) := by
      rw [Duration.text, Duration.chars, if_pos (le_of_lt hneg)]
      decide +kernel
    rw [if_neg (ne_of_lt hneg), hread]
    exact ⟨⟨0, by decide, by decide⟩, rfl⟩
  · rw [if_pos hzero]
    exact ⟨⟨0, by decide, by decide⟩, rfl⟩
  · obtain ⟨n, hn⟩ := Int.eq_ofNat_of_zero_le (le_of_lt hpos)
    have hread := Duration.read_text_of_signed64 hn (by omega)
    rw [if_neg (ne_of_gt hpos), hn, hread]
    exact ⟨w.duration, congrArg Except.ok hn.symm⟩

theorem fitsNarrow_wallets_decodeRest (w : Wire.Launch) (c : Chain) :
    FitsNarrow (decodeRest w c).value.wallets := by
  have hwallets : (decodeRest w c).value.wallets
      = if w.wallets.val = 0 then defaultWallets else w.wallets.val := rfl
  rw [hwallets]
  split
  · exact ⟨by decide, by decide⟩
  · exact ⟨w.wallets.lo_le, w.wallets.le_hi⟩

theorem value_decodeLoadTest (w : Option Wire.LoadTest) :
    (decodeLoadTest w).value = w.map fun t => (LoadTest.decode t).value := by
  cases w with
  | none => rfl
  | some t => rfl

/-- Apart from its chain, only a negative timeout can keep a decoded launch from being sent. -/
theorem exists_encodesTo_decodeRest_iff {w : Wire.Launch} {c : Chain} :
    (∃ w', (decodeRest w c).value.EncodesTo w')
      ↔ c.Representable ∧ ∀ t, w.loadTest = some t → t.Replayable := by
  have hloadTest : (decodeRest w c).value.loadTest
      = w.loadTest.map fun t => (LoadTest.decode t).value := value_decodeLoadTest w.loadTest
  have htest : ∀ t, (∃ w', ((decodeRest w c).value.adjusted (LoadTest.decode t).value).EncodesTo w')
      ↔ t.Replayable := by
    intro t
    rw [LoadTest.exists_encodesTo_iff]
    have hbounds := LoadTest.inBounds_decode t
    exact (and_iff_right ⟨hbounds.txs, hbounds.blocks, hbounds.messages⟩).trans
      LoadTest.sendsTimeout_decode_iff
  rw [exists_encodesTo_iff, hloadTest]
  constructor
  · rintro ⟨hc, ht, -, -⟩
    refine ⟨hc, fun t h => (htest t).1 (ht _ ?_)⟩
    rw [h, Option.map_some]
  · rintro ⟨hc, ht⟩
    refine ⟨hc, ?_, sendsDuration_decodeRest w c, fitsNarrow_wallets_decodeRest w c⟩
    intro t' h
    obtain ⟨t, ht', rfl⟩ := Option.map_eq_some_iff.1 h
    exact (htest t).2 (ht t ht')

/-- A launch on the wire is decoded and can be encoded again exactly if the texts in it load, none
of them is that of a value with a number that is not finite, and no timeout is negative. -/
theorem encode_decode_iff_replayable (levels : Nat) (w : Wire.Launch) :
    (∃ r w', decode levels w = .ok r ∧ r.value.encode.value = .ok w') ↔ w.Replayable levels := by
  simp only [encode_eq_ok]
  constructor
  · rintro ⟨r, w', hr, hw'⟩
    obtain ⟨chain, hchain, hvalue⟩ := value_of_decode hr
    rw [hvalue] at hw'
    obtain ⟨hc, ht⟩ := exists_encodesTo_decodeRest_iff.1 ⟨w', hw'⟩
    exact ⟨(representable_decodeChain_iff hchain).1 hc, ht⟩
  · rintro ⟨hc, ht⟩
    obtain ⟨r, hr⟩ := exists_decode_iff.2 fun c hwire => (hc c hwire).loads
    obtain ⟨chain, hchain, hvalue⟩ := value_of_decode hr
    obtain ⟨w', hw'⟩ := exists_encodesTo_decodeRest_iff.2
      ⟨(representable_decodeChain_iff hchain).2 hc, ht⟩
    exact ⟨r, w', hr, hvalue ▸ hw'⟩

/-- Two payloads that are accepted and decoded and cannot be encoded again: a genesis value `NaN`,
and the timeout -5 of an unordered load test. -/
theorem encode_decode_refused :
    let value : Datum := .object [("chainConfig", .object [("genesisModifications",
      .array [.object [("key", .text "a"), ("value", .text "NaN")]])])]
    let timeout : Datum := .object [("loadTestSpec",
      .object [("unorderedTxs", .bool true), ("txTimeout", .int (-5))])]
    (∃ w r, Wire.Launch.read value = .ok w ∧ decode Json.defaultLevels w = .ok r
        ∧ r.value.encode.value = .error (.unprintable "genesis value for 'a'" .nonFinite))
      ∧ ∃ w r, Wire.Launch.read timeout = .ok w ∧ decode Json.defaultLevels w = .ok r
          ∧ r.value.encode.value = .error (.timeout (.malformed "-5")) := by
  intro value timeout
  constructor
  · exact ⟨{ chain := some { edits := [⟨"a", "NaN"⟩] } }, _, by rfl, by rfl, by decide +kernel⟩
  · let t : Wire.LoadTest := { unordered := true, timeout := some ⟨-5, by decide, by decide⟩ }
    exact ⟨{ loadTest := some t }, _, by rfl, by rfl, by decide +kernel⟩

end Launch

end Trialnet
