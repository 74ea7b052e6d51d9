import Trialnet.Proofs.Payload.Success
import Trialnet.LoadTest.Wire

/-!
# What a load test is encoded as

The encoder checks ranges and turns the timeout into seconds, and otherwise copies.  So the wire
form is determined by equations, field by field, and they hold of a wire form exactly if it is
the one that the encoder gives.
-/

namespace Trialnet

open Payload

namespace Message

/-- The wire form of a message, field by field. -/
structure EncodesTo (m : Message) (w : Wire.Message) : Prop where
  kind : w.kind = m.kind.name
  weight : w.weight = m.weight
  contained : w.contained = (m.contained.map MessageKind.name).getD ""
  count : w.count.val = m.count.getD openCount
  recipients : w.recipients.val = m.recipients.getD openCount

theorem encode_eq_ok {m : Message} {w : Wire.Message} : m.encode = .ok w ↔ m.EncodesTo w := by
  rw [encode, map_eq_ok]
  constructor
  · rintro ⟨r, hr, rfl⟩
    obtain ⟨count, recipients, hcount, hrecipients, rfl⟩ := both_eq_ok.1 (Reading.fit_eq_ok.1 hr)
    exact ⟨rfl, rfl, rfl, hcount, hrecipients⟩
  · rintro ⟨hkind, hweight, hcontained, hcount, hrecipients⟩
    refine ⟨(w.count, w.recipients), Reading.fit_eq_ok.2 (both_eq_ok.2 ?_), ?_⟩
    · exact ⟨w.count, w.recipients, hcount, hrecipients, rfl⟩
    rw [← hkind, ← hweight, ← hcontained]

end Message

namespace LoadTest

/-- The wire form of a load test, field by field. -/
structure EncodesTo (t : LoadTest) (w : Wire.LoadTest) : Prop where
  name : w.name = t.name
  description : w.description = t.description
  chainId : w.chainId = t.chainId
  txs : w.txs.val = t.txs
  blocks : w.blocks.val = t.blocks
  messages : List.Forall₂ Message.EncodesTo t.messages w.messages
  unordered : w.unordered = t.unordered
  timeout : t.timeoutSeconds = .ok (w.timeout.map (·.val))
  evm : w.evm = t.evm
  gasDenom : w.gasDenom = t.gasDenom
  bech32Prefix : w.bech32Prefix = t.bech32Prefix

theorem timeoutInRange_eq_ok {seconds : Option Int} {timeout : Option Signed64} :
    timeoutInRange seconds = .ok timeout ↔ timeout.map (·.val) = seconds := by
  cases seconds with
  | none =>
    rw [timeoutInRange, Reading.ok.injEq, Option.map_eq_none_iff]
    exact eq_comm
  | some n =>
    rw [timeoutInRange, Reading.map_eq_ok, Option.map_eq_some_iff]
    refine exists_congr fun r => ?_
    rw [Reading.under_eq_ok, inRange_eq_ok, and_comm, eq_comm]

theorem numbers_eq_ok {m n : Int} {seconds : Option Int}
    {r : Signed32 × Signed32 × Option Signed64} :
    ((fun txs blocks timeout => (txs, blocks, timeout))
      <$> (inRange _ _ m).under (.key "numOfTxs")
      <*> (inRange _ _ n).under (.key "numOfBlocks")
      <*> timeoutInRange seconds) = .ok r
      ↔ r.1.val = m ∧ r.2.1.val = n ∧ r.2.2.map (·.val) = seconds := by
  constructor
  · intro h
    obtain ⟨f, hf, timeout, htimeout, rfl⟩ := Reading.seq_eq_ok.1 h
    obtain ⟨g, hg, blocks, hblocks, rfl⟩ := Reading.seq_eq_ok.1 hf
    obtain ⟨txs, htxs, rfl⟩ := Reading.functorMap_eq_ok.1 hg
    exact ⟨inRange_eq_ok.1 (Reading.under_eq_ok.1 htxs),
      inRange_eq_ok.1 (Reading.under_eq_ok.1 hblocks), timeoutInRange_eq_ok.1 htimeout⟩
  · obtain ⟨txs, blocks, timeout⟩ := r
    rintro ⟨htxs, hblocks, htimeout⟩
    refine Reading.seq_eq_ok.2 ⟨fun timeout => (txs, blocks, timeout), ?_, timeout,
      timeoutInRange_eq_ok.2 htimeout, rfl⟩
    refine Reading.seq_eq_ok.2 ⟨fun blocks timeout => (txs, blocks, timeout), ?_, blocks,
      Reading.under_eq_ok.2 (inRange_eq_ok.2 hblocks), rfl⟩
    exact Reading.functorMap_eq_ok.2 ⟨txs, Reading.under_eq_ok.2 (inRange_eq_ok.2 htxs), rfl⟩

theorem encode_eq_ok {t : LoadTest} {w : Wire.LoadTest} : t.encode = .ok w ↔ t.EncodesTo w := by
  have hmessages : ∀ ms, t.messages.mapM Message.encode = .ok ms
      ↔ List.Forall₂ Message.EncodesTo t.messages ms := by
    intro ms
    rw [mapM_eq_ok]
    exact ⟨fun h => h.imp fun _ _ => Message.encode_eq_ok.1,
      fun h => h.imp fun _ _ => Message.encode_eq_ok.2⟩
  rw [encode]
  constructor
  · intro h
    obtain ⟨ms, hms, h⟩ := bind_eq_ok.1 h
    obtain ⟨seconds, hseconds, h⟩ := bind_eq_ok.1 h
    obtain ⟨⟨txs, blocks, timeout⟩, hnumbers, h⟩ := bind_eq_ok.1 h
    obtain ⟨htxs, hblocks, htimeout⟩ := numbers_eq_ok.1 (Reading.fit_eq_ok.1 hnumbers)
    obtain rfl := Except.ok.inj h
    exact ⟨rfl, rfl, rfl, htxs, hblocks, (hmessages ms).1 hms, rfl, htimeout ▸ hseconds, rfl, rfl,
      rfl⟩
  · rintro ⟨hname, hdescription, hchainId, htxs, hblocks, hms, hunordered, htimeout, hevm,
      hgasDenom, hprefix⟩
    refine bind_eq_ok.2 ⟨w.messages, (hmessages w.messages).2 hms, ?_⟩
    refine bind_eq_ok.2 ⟨w.timeout.map (·.val), htimeout, ?_⟩
    refine bind_eq_ok.2 ⟨(w.txs, w.blocks, w.timeout), ?_, ?_⟩
    · exact Reading.fit_eq_ok.2 (numbers_eq_ok.2 ⟨htxs, hblocks, rfl⟩)
    · rw [← hname, ← hdescription, ← hchainId, ← hunordered, ← hevm, ← hgasDenom, ← hprefix]
      rfl

end LoadTest

end Trialnet
