import Trialnet.Proofs.Duration.Exact
import Trialnet.Proofs.LoadTest.Encoding

/-!
# Which load tests have a wire form

A load test is encoded exactly if its counts fit into 32 bits and its timeout, if it sends one,
fits into 64 bits.  An open count is sent as 1, and so nothing is asked of it.
-/

namespace Trialnet

open Payload

/-- The number fits into 32 bits with a sign. -/
def FitsNarrow (n : Int) : Prop := -0x80000000 ≤ n ∧ n ≤ 0x7FFFFFFF

/-- A number of seconds has a lower bound already. -/
theorem exists_signed64_natCast_iff {n : Nat} :
    (∃ r : Signed64, r.val = n) ↔ n ≤ 0x7FFFFFFFFFFFFFFF := by
  rw [exists_ranged_iff]
  omega

namespace Message

/-- The counts that a message gives fit into 32 bits. -/
structure Representable (m : Message) : Prop where
  count : ∀ n, m.count = some n → FitsNarrow n
  recipients : ∀ n, m.recipients = some n → FitsNarrow n

theorem exists_count_iff {count : Option Int} :
    (∃ r : Signed32, r.val = count.getD openCount) ↔ ∀ n, count = some n → FitsNarrow n := by
  rw [exists_ranged_iff]
  cases count with
  | none => exact ⟨fun _ => nofun, fun _ => by decide⟩
  | some k =>
    constructor
    · rintro h n hn
      exact Option.some.inj hn ▸ h
    · exact fun h => h k rfl

theorem exists_encodesTo_iff {m : Message} : (∃ w, m.EncodesTo w) ↔ m.Representable := by
  constructor
  · rintro ⟨w, hw⟩
    exact ⟨exists_count_iff.1 ⟨w.count, hw.count⟩, exists_count_iff.1 ⟨w.recipients, hw.recipients⟩⟩
  · rintro ⟨hcount, hrecipients⟩
    obtain ⟨count, hcount⟩ := exists_count_iff.2 hcount
    obtain ⟨recipients, hrecipients⟩ := exists_count_iff.2 hrecipients
    exact ⟨{ kind := m.kind.name, weight := m.weight, count, recipients
             contained := (m.contained.map MessageKind.name).getD "" },
      rfl, rfl, rfl, hcount, hrecipients⟩

end Message

namespace LoadTest

/-- The counts of a load test and of its messages fit into 32 bits. -/
structure InBounds (t : LoadTest) : Prop where
  txs : FitsNarrow t.txs
  blocks : FitsNarrow t.blocks
  messages : ∀ m ∈ t.messages, m.Representable

/-- The timeout of a load test, if it sends one, is so many seconds as fit into 64 bits. -/
def SendsTimeout (t : LoadTest) : Prop :=
  ∃ timeout : Option Signed64, t.timeoutSeconds = .ok (timeout.map (·.val))

theorem exists_encodesTo_iff {t : LoadTest} :
    (∃ w, t.EncodesTo w) ↔ t.InBounds ∧ t.SendsTimeout := by
  constructor
  · rintro ⟨w, hw⟩
    refine ⟨⟨exists_ranged_iff.1 ⟨w.txs, hw.txs⟩, exists_ranged_iff.1 ⟨w.blocks, hw.blocks⟩, ?_⟩,
      w.timeout, hw.timeout⟩
    intro m hm
    exact Message.exists_encodesTo_iff.1 (exists_forall₂_iff.1 ⟨_, hw.messages⟩ m hm)
  · rintro ⟨h, timeout, htimeout⟩
    obtain ⟨txs, htxs⟩ := exists_ranged_iff.2 h.txs
    obtain ⟨blocks, hblocks⟩ := exists_ranged_iff.2 h.blocks
    obtain ⟨messages, hmessages⟩ := exists_forall₂_iff.2 fun m hm =>
      Message.exists_encodesTo_iff.2 (h.messages m hm)
    exact ⟨{ name := t.name, description := t.description, chainId := t.chainId, txs, blocks
             messages, unordered := t.unordered, timeout, evm := t.evm, gasDenom := t.gasDenom
             bech32Prefix := t.bech32Prefix },
      rfl, rfl, rfl, htxs, hblocks, hmessages, rfl, htimeout, rfl, rfl, rfl⟩

/-- What a load test has to be like to have a wire form.  The timeout of an ordered one does not
matter. -/
structure Representable (t : LoadTest) : Prop where
  bounds : t.InBounds
  timeout : t.unordered = true → Duration.IsSendable t.timeout

/-- No sum of the timeout is rounded, if there is a timeout to be sent. -/
def HasExactTimeout (t : LoadTest) : Prop := t.unordered = true → Duration.IsExact t.timeout

theorem sendsTimeout_iff {t : LoadTest} (h : t.HasExactTimeout) :
    t.SendsTimeout ↔ (t.unordered = true → Duration.IsSendable t.timeout) := by
  rw [SendsTimeout]
  cases hunordered : t.unordered with
  | false =>
    refine ⟨fun _ => nofun, fun _ => ⟨none, ?_⟩⟩
    rw [timeoutSeconds, if_neg (by simp [hunordered])]
    rfl
  | true =>
    rw [forall_prop_of_true rfl, Duration.isSendable_iff (h hunordered), timeoutSeconds,
      if_pos hunordered]
    cases Duration.read t.timeout with
    | error cause =>
      constructor
      · rintro ⟨timeout, h⟩
        cases h
      · rintro (h | ⟨n, h, -⟩) <;> cases h
    | ok seconds =>
      cases seconds with
      | none => exact ⟨fun _ => Or.inl rfl, fun _ => ⟨some ⟨30, by decide, by decide⟩, rfl⟩⟩
      | some n =>
        constructor
        · rintro ⟨timeout, h⟩
          obtain ⟨r, -, hval⟩ := Option.map_eq_some_iff.1 (Except.ok.inj h).symm
          exact Or.inr ⟨n, rfl, exists_signed64_natCast_iff.1 ⟨r, hval⟩⟩
        · rintro (h | ⟨m, h, hle⟩)
          · cases Except.ok.inj h
          · obtain rfl := Option.some.inj (Except.ok.inj h)
            obtain ⟨r, hr⟩ := exists_signed64_natCast_iff.2 hle
            refine ⟨some r, ?_⟩
            rw [Option.map_some, hr]

/-- A load test with an exact timeout is encoded exactly if it is representable. -/
theorem exists_encodesTo_iff_representable {t : LoadTest} (h : t.HasExactTimeout) :
    (∃ w, t.EncodesTo w) ↔ t.Representable := by
  rw [exists_encodesTo_iff, sendsTimeout_iff h]
  constructor
  · rintro ⟨hbounds, htimeout⟩
    exact ⟨hbounds, htimeout⟩
  · rintro ⟨hbounds, htimeout⟩
    exact ⟨hbounds, htimeout⟩

end LoadTest

end Trialnet
