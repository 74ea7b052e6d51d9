import Trialnet.Proofs.Wire.Launch

/-!
# Which records are read back

The schemas of chains, load tests and launches read what they write, with one exception.  A number
of 64 bits is written as a text, and every field of such a number reads it back from there but the
timeout of a load test, whose texts are taken for durations.  No duration is negative, so a
negative timeout is refused, although the schema allows it and takes it as a number:
`read_payload_iff_timeout_nonneg`.
-/

namespace Trialnet.Wire

open Payload

/-- What is said of a negative timeout that was written as a text. -/
def refusedTimeout (n : Signed64) : Cause :=
  .refused (Duration.ReadError.malformed (Numeral.text n.val)).message

theorem timeoutSeconds_of_neg {n : Signed64} (h : n.val < 0) :
    Spelling.timeoutSeconds (wide n) = .error (.malformed (Numeral.text n.val)) := by
  rw [wide, Spelling.timeoutSeconds, Duration.read_text_of_neg h]
  rfl

theorem LoadTest.read_payload_of_neg {t : LoadTest} {n : Signed64} (ht : t.timeout = some n)
    (hn : n.val < 0) : read t.payload = .complain (refusedTimeout n) := by
  have hadapt : Spelling.adaptLoadTest t.fields = .error (.malformed (Numeral.text n.val)) := by
    rw [Spelling.adaptLoadTest, t.adapt_fields, Spelling.withSeconds, t.lookup_timeout, ht,
      Option.map_some]
    dsimp only
    rw [timeoutSeconds_of_neg hn]
    rfl
  rw [read, payload, record, hadapt]
  rfl

theorem Launch.read_payload_of_neg {l : Launch} {t : LoadTest} {n : Signed64}
    (hl : l.loadTest = some t) (ht : t.timeout = some n) (hn : n.val < 0) :
    read l.payload = .bad [⟨[.key "loadTestSpec"], refusedTimeout n⟩] := by
  have hloadTest : optional ⟨"loadTestSpec", "load_test_spec"⟩ LoadTest.read l.fields
      = .bad [⟨[.key "loadTestSpec"], refusedTimeout n⟩] := by
    rw [Payload.optional, defaulted, Field.find?, l.lookup_loadTest, hl, Option.map_some]
    have hnullable : nullable LoadTest.read t.payload = (LoadTest.read t.payload).map some := rfl
    dsimp only
    rw [hnullable, LoadTest.read_payload_of_neg ht hn]
    rfl
  rw [read_payload_eq_map, hloadTest]
  rfl

theorem LoadTest.read_payload_iff {t : LoadTest} :
    read t.payload = .ok t ↔ ∀ n, t.timeout = some n → 0 ≤ n.val := by
  refine ⟨fun hread n hn => ?_, read_payload⟩
  by_contra hneg
  rw [read_payload_of_neg hn (not_le.1 hneg)] at hread
  cases hread

theorem Launch.read_payload_iff {l : Launch} : read l.payload = .ok l ↔ l.HasTimeout := by
  refine ⟨fun hread t ht n hn => ?_, read_payload⟩
  by_contra hneg
  rw [read_payload_of_neg ht hn (not_le.1 hneg)] at hread
  cases hread

/-- Every chain is read back from its payload.  A load test is read back, and so is a launch,
exactly if the timeout of the load test is absent or not negative.  A negative timeout is the only
thing that is complained about, and it is said to be no duration. -/
theorem read_payload_iff_timeout_nonneg (c : Chain) (t : LoadTest) (l : Launch) :
    Chain.read c.payload = .ok c
      ∧ (LoadTest.read t.payload = .ok t ↔ ∀ n, t.timeout = some n → 0 ≤ n.val)
      ∧ (∀ n, t.timeout = some n → n.val < 0 →
        LoadTest.read t.payload = .bad [⟨[], refusedTimeout n⟩])
      ∧ (Launch.read l.payload = .ok l
        ↔ ∀ t n, l.loadTest = some t → t.timeout = some n → 0 ≤ n.val)
      ∧ (∀ t n, l.loadTest = some t → t.timeout = some n → n.val < 0 →
        Launch.read l.payload = .bad [⟨[.key "loadTestSpec"], refusedTimeout n⟩]) := by
  refine ⟨Chain.read_payload c, LoadTest.read_payload_iff,
    fun n => LoadTest.read_payload_of_neg, ?_, fun t n => Launch.read_payload_of_neg⟩
  rw [Launch.read_payload_iff]
  exact ⟨fun h t n hl => h t hl n, fun h t hl n => h t n hl⟩

/-- A timeout of five seconds below zero is accepted as a number, and is refused as the text that
is written of it. -/
theorem read_payload_negative_refused :
    let t : LoadTest := { timeout := some ⟨-5, by decide, by decide⟩ }
    LoadTest.read (.object [("txTimeout", .int (-5))]) = .ok t
      ∧ LoadTest.read t.payload = .bad [⟨[], .refused "invalid duration '-5'"⟩] := by
  decide +kernel

end Trialnet.Wire
