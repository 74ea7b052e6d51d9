import Trialnet.Proofs.Duration.Accuracy
import Trialnet.Proofs.LoadTest.Encoding
import Trialnet.Proofs.Wire.LoadTest
import Trialnet.LoadTest.Editing

/-!
# Load tests that are sent and read back

A load test that is read back from the wire is the one that was sent, with the defaults of the
encoder written out: the counts that its messages left open, and the timeout.  This form is
stable: it is encoded as the same wire form, and so it is read back as itself.

The timeout is written out as the seconds to which the encoder has added it up, in 28 digits.  These
are the seconds that it denotes exactly if nothing that matters was rounded, and so the form that is
read back may say something else than what was sent (`exists_reload_of_encode`).
-/

namespace Trialnet

open Payload

namespace Message

/-- A message whose open counts are filled in. -/
def settled (m : Message) : Message :=
  { m with count := some (m.count.getD 1), recipients := some (m.recipients.getD 1) }

/-- The wire form does not tell an open count from one that is written out. -/
theorem EncodesTo.settled {m : Message} {w : Wire.Message} (h : m.EncodesTo w) :
    m.settled.EncodesTo w :=
  ⟨h.kind, h.weight, h.contained, h.count, h.recipients⟩

theorem ofName?_contained (k : Option MessageKind) :
    MessageKind.ofName? ((k.map MessageKind.name).getD "") = k := by
  cases k with
  | none => rfl
  | some k => exact MessageKind.ofName?_name k

theorem decode_of_encodesTo {m : Message} {w : Wire.Message} (h : m.EncodesTo w) :
    decode w = ⟨some m.settled, []⟩ := by
  obtain ⟨hkind, hweight, hcontained, hcount, hrecipients⟩ := h
  simp only [decode, hkind, MessageKind.ofName?_name, hweight, hcount, hcontained,
    ofName?_contained, hrecipients]
  rfl

/-- Every message that was sent is read back, in its place. -/
theorem decodeAll_of_encodesTo {ms : List Message} {ws : List Wire.Message}
    (h : List.Forall₂ EncodesTo ms ws) : decodeAll ws = ⟨ms.map Message.settled, []⟩ := by
  induction h with
  | nil => rfl
  | cons hm _ ih =>
    rw [decodeAll, decode_of_encodesTo hm, ih]
    rfl

end Message

namespace LoadTest

/-- The timeout that is read back: the seconds as which the encoder has read it, or 30 if there are
none. -/
def settledTimeout (t : LoadTest) : String :=
  if t.unordered then
    match Duration.read t.timeout with
    | .ok (some n) => Numeral.text n
    | _ => "30"
  else "30"

/-- The load test with the defaults of the encoder written out. -/
def settled (t : LoadTest) : LoadTest :=
  { t with timeout := t.settledTimeout, messages := t.messages.map Message.settled }

theorem text_defaultTimeout : Numeral.text defaultTimeout = "30" := by decide

/-- What the timeout of a load test is on the wire and after it is read back. -/
theorem timeout_cases {t : LoadTest} {timeout : Option Signed64}
    (h : t.timeoutSeconds = .ok (timeout.map (·.val))) :
    (t.unordered = false ∧ timeout = none ∧ t.settledTimeout = "30")
      ∨ (t.unordered = true ∧ ∃ (n : Nat) (r : Signed64), timeout = some r ∧ r.val = n
          ∧ t.settledTimeout = Numeral.text n) := by
  cases hunordered : t.unordered with
  | false =>
    rw [timeoutSeconds, if_neg (by simp [hunordered])] at h
    have hnone : timeout = none := Option.map_eq_none_iff.1 (Except.ok.inj h).symm
    exact Or.inl ⟨rfl, hnone, by simp [settledTimeout, hunordered]⟩
  | true =>
    rw [timeoutSeconds, if_pos hunordered] at h
    cases hread : Duration.read t.timeout with
    | error cause =>
      rw [hread] at h
      cases h
    | ok seconds =>
      rw [hread] at h
      cases seconds with
      | none =>
        obtain ⟨r, hr, hval⟩ := Option.map_eq_some_iff.1 (Except.ok.inj h).symm
        refine Or.inr ⟨rfl, 30, r, hr, hval, ?_⟩
        simp only [settledTimeout, hunordered, if_true, hread]
        exact text_defaultTimeout.symm
      | some n =>
        obtain ⟨r, hr, hval⟩ := Option.map_eq_some_iff.1 (Except.ok.inj h).symm
        refine Or.inr ⟨rfl, n, r, hr, hval, ?_⟩
        simp only [settledTimeout, hunordered, if_true, hread]

/-- A duration is not negative, and so no timeout is. -/
theorem EncodesTo.timeout_nonneg {t : LoadTest} {w : Wire.LoadTest} (h : t.EncodesTo w) :
    ∀ n, w.timeout = some n → 0 ≤ n.val := by
  intro n hn
  rcases timeout_cases h.timeout with ⟨-, hnone, -⟩ | ⟨-, k, r, hr, hval, -⟩
  · rw [hn] at hnone
    cases hnone
  · rw [hn] at hr
    rw [Option.some.inj hr, hval]
    exact Int.natCast_nonneg k

theorem EncodesTo.text_timeout {t : LoadTest} {w : Wire.LoadTest} (h : t.EncodesTo w) :
    Numeral.text ((w.timeout.map (·.val)).getD defaultTimeout) = t.settledTimeout := by
  rcases timeout_cases h.timeout with ⟨-, hnone, htext⟩ | ⟨-, k, r, hr, hval, htext⟩
  · rw [hnone, htext]
    exact text_defaultTimeout
  · rw [hr, htext, Option.map_some, Option.getD_some, hval]

theorem decode_of_encodesTo {t : LoadTest} {w : Wire.LoadTest} (h : t.EncodesTo w) :
    decode w = ⟨t.settled, []⟩ := by
  have hmessages := Message.decodeAll_of_encodesTo h.messages
  have htimeout := h.text_timeout
  obtain ⟨hname, hdescription, hchainId, htxs, hblocks, -, hunordered, -, hevm, hgasDenom,
    hprefix⟩ := h
  simp only [decode, hmessages, htimeout, hname, hdescription, hchainId, htxs, hblocks,
    hunordered, hevm, hgasDenom, hprefix]
  rfl

/-- The seconds that were read back are sent again. -/
theorem EncodesTo.timeoutSeconds_settled {t : LoadTest} {w : Wire.LoadTest} (h : t.EncodesTo w) :
    t.settled.timeoutSeconds = .ok (w.timeout.map (·.val)) := by
  rcases timeout_cases h.timeout with ⟨hunordered, hnone, -⟩ | ⟨hunordered, k, r, hr, hval, htext⟩
  · rw [timeoutSeconds, if_neg (by simp [settled, hunordered]), hnone]
    rfl
  · have hlength : (Numeral.digits k).length ≤ Numeral.maxDigits := by
      have hbound : (k : Int).natAbs < 2 ^ 64 := by
        have := r.le_hi
        omega
      exact length_digits_of_natAbs_lt hbound
    have hread : Duration.read t.settled.timeout = .ok (some k) := by
      rw [settled, htext, Duration.read_text hlength]
    rw [timeoutSeconds, if_pos (by simp [settled, hunordered]), hread, hr, Option.map_some, hval]

/-- The load test with its defaults written out has the same wire form. -/
theorem EncodesTo.settled {t : LoadTest} {w : Wire.LoadTest} (h : t.EncodesTo w) :
    t.settled.EncodesTo w where
  name := h.name
  description := h.description
  chainId := h.chainId
  txs := h.txs
  blocks := h.blocks
  messages := List.forall₂_map_left_iff.2 (h.messages.imp fun _ _ => Message.EncodesTo.settled)
  unordered := h.unordered
  timeout := h.timeoutSeconds_settled
  evm := h.evm
  gasDenom := h.gasDenom
  bech32Prefix := h.bech32Prefix

theorem reload_of_encodesTo {t : LoadTest} {w : Wire.LoadTest} (h : t.EncodesTo w) :
    t.reload = ⟨.ok t.settled, []⟩ := by
  rw [reload, encode_eq_ok.2 h]
  simp only [Wire.LoadTest.read_payload h.timeout_nonneg, Reading.toExcept_ok,
    decode_of_encodesTo h]
  rfl

/-- Writing out the defaults twice changes nothing more, as both forms are what the one wire form
is read back as. -/
theorem EncodesTo.settled_settled {t : LoadTest} {w : Wire.LoadTest} (h : t.EncodesTo w) :
    t.settled.settled = t.settled := by
  have hback := decode_of_encodesTo h
  have hagain := decode_of_encodesTo h.settled
  exact congrArg Logged.value (hagain.symm.trans hback)

theorem settledTimeout_of_unsent {t : LoadTest}
    (h : t.unordered = false ∨ Duration.IsBlank t.timeout) : t.settledTimeout = "30" := by
  rw [settledTimeout]
  rcases h with hordered | hblank
  · exact if_neg (by simp [hordered])
  · rw [Duration.read_of_isBlank hblank]
    exact ite_self _

/-- A timeout that is sent has been read as a number of seconds. -/
theorem EncodesTo.exists_seconds {t : LoadTest} {w : Wire.LoadTest} (h : t.EncodesTo w)
    (hunordered : t.unordered = true) (hblank : ¬ Duration.IsBlank t.timeout) :
    ∃ n : Nat, Duration.read t.timeout = .ok (some n) ∧ t.settledTimeout = Numeral.text n := by
  have hseconds := h.timeout
  rw [timeoutSeconds, if_pos hunordered] at hseconds
  rw [settledTimeout, if_pos hunordered]
  cases hread : Duration.read t.timeout with
  | error cause =>
    rw [hread] at hseconds
    cases hseconds
  | ok found =>
    cases found with
    | none => exact absurd (Duration.read_eq_none.1 hread) hblank
    | some n => exact ⟨n, rfl, rfl⟩

/-- The load test `r` is what is read back of the load test `t`. -/
structure ReadsBackAs (t r : LoadTest) : Prop where
  /-- Nothing changes but the timeout and the open counts, each of which is 1. -/
  rest : r = { t with timeout := r.timeout, messages := t.messages.map Message.settled }
  unsent : t.unordered = false ∨ Duration.IsBlank t.timeout → r.timeout = "30"
  /-- A timeout that is sent becomes the number that it is or to which its parts add up in 28
  digits, which is what it denotes exactly if it is read without a loss. -/
  sent : t.unordered = true → ¬ Duration.IsBlank t.timeout →
    ∃ n : Nat, r.timeout = Numeral.text n
      ∧ (Duration.IsNumber (Duration.trimmed t.timeout) n
        ∨ ∃ ps, Duration.IsMadeOf (Duration.trimmed t.timeout) ps ∧ Duration.Accumulates ps n)
      ∧ (Duration.Denotes t.timeout n ↔ Duration.ReadsExactly t.timeout)

theorem EncodesTo.readsBackAs_settled {t : LoadTest} {w : Wire.LoadTest} (h : t.EncodesTo w) :
    t.ReadsBackAs t.settled where
  rest := rfl
  unsent := settledTimeout_of_unsent
  sent := by
    intro hunordered hblank
    obtain ⟨n, hread, htext⟩ := h.exists_seconds hunordered hblank
    exact ⟨n, htext, Duration.read_eq_some_accumulated.1 hread,
      (Duration.readsExactly_iff_of_read hread).symm⟩

/-- Every load test that has a wire form is read back from it with the defaults written out,
and what is read back has the same wire form and is read back as itself.  Its timeout says what
that of the load test denotes, unless a digit was lost when the encoder added it up. -/
theorem exists_reload_of_encode {t : LoadTest} {w : Wire.LoadTest} (h : t.encode = .ok w) :
    ∃ r, t.reload = ⟨.ok r, []⟩ ∧ t.ReadsBackAs r ∧ r.encode = .ok w ∧ r.reload = ⟨.ok r, []⟩ := by
  have hw := encode_eq_ok.1 h
  refine ⟨t.settled, reload_of_encodesTo hw, hw.readsBackAs_settled, encode_eq_ok.2 hw.settled, ?_⟩
  rw [reload_of_encodesTo hw.settled, hw.settled_settled]

/-- An unordered mix with a timeout of a minute, an open count and a negative one. -/
theorem reload_oneMinute :
    let t : LoadTest :=
      { name := "mix", unordered := true, timeout := "1m"
        messages :=
          [{ kind := .array, weight := .zero, count := some (-2), contained := some .send }] }
    let settled : LoadTest :=
      { t with
        timeout := "60"
        messages := [{ kind := .array, weight := .zero, count := some (-2), contained := some .send
                       recipients := some 1 }] }
    t.reload = ⟨.ok settled, []⟩ ∧ settled.reload = ⟨.ok settled, []⟩ := by
  intro t settled
  have hencode : t.encode = .ok
      { name := "mix", unordered := true, timeout := some ⟨60, by decide, by decide⟩
        messages := [{ kind := "MsgArr", weight := .zero, count := ⟨-2, by decide, by decide⟩
                       contained := "MsgSend", recipients := ⟨1, by decide, by decide⟩ }] } := by
    decide +kernel
  obtain ⟨r, hreload, hback, -, hstable⟩ := exists_reload_of_encode hencode
  -- a minute is read as sixty seconds, and as nothing else
  have hblank : ¬ Duration.IsBlank t.timeout := show ¬ Duration.trimmed t.timeout = [] by decide
  obtain ⟨n, htext, hadds, -⟩ := hback.sent rfl hblank
  have hread : Duration.read t.timeout = .ok (some 60) := by decide +kernel
  have hsixty : 60 = n := Option.some.inj
    (Except.ok.inj (hread.symm.trans (Duration.read_eq_some_accumulated.2 hadds)))
  have hr : r = settled := by
    rw [hback.rest, htext, ← hsixty]
    decide
  exact ⟨hr ▸ hreload, hr ▸ hstable⟩

/-- A timeout of a second and a fraction of a second is no whole number of seconds.  It is sent,
and read back as a second. -/
theorem reload_fraction :
    let t : LoadTest := { unordered := true, timeout := "1.00000000000000000000000000001s" }
    t.reload = ⟨.ok { t with timeout := "1" }, []⟩
      ∧ (∃ w, t.encode = .ok w) ∧ ∀ n, ¬ Duration.Denotes t.timeout n := by
  intro t
  have hencode : t.encode
      = .ok { unordered := true, timeout := some ⟨1, by decide, by decide⟩ } := by
    decide +kernel
  have hsettled : t.settled = { t with timeout := "1" } := by decide +kernel
  exact ⟨hsettled ▸ reload_of_encodesTo (encode_eq_ok.1 hencode), ⟨_, hencode⟩,
    Duration.not_denotes_fraction⟩

end LoadTest

end Trialnet
