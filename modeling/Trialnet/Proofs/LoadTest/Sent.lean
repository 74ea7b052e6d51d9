import Mathlib.Data.List.Nodup
import Trialnet.Proofs.LoadTest.Reload
import Trialnet.Proofs.LoadTest.Validity

/-!
# What a valid load test sends

The rules for load tests speak of messages as they were given: a count may be left open, the
timeout is a duration, and the kinds are not yet names.  Here is what they amount to for the
payload, which is described without the schema by which it was written.
-/

namespace Trialnet

open Payload

namespace Datum

/-- What has to be unique within a mix: the kind, and for a bundle the contained kind. -/
def slot (d : Datum) : Option Datum × Option Datum :=
  (d.field? "type",
    if d.field? "type" = some (.text "MsgArr") then d.field? "containedType" else none)

/-- An entry of the message mix that may be sent. -/
structure ValidMessage (d : Datum) : Prop where
  kind : ∃ k : MessageKind, d.field? "type" = some (.text k.name)
  weight : ∃ x, d.field? "weight" = some (.float x) ∧ x.IsShare
  count : d.HasNarrow "numMsgs" (-0x80000000) 0x7FFFFFFF
  recipients : d.HasNarrow "numOfRecipients" (-0x80000000) 0x7FFFFFFF
  contained : d.field? "type" = some (.text "MsgArr") →
    ∃ k : MessageKind, k ≠ .array ∧ d.field? "containedType" = some (.text k.name)
  count_pos : d.field? "type" = some (.text "MsgArr") → d.HasNarrow "numMsgs" 1 0x7FFFFFFF
  recipients_pos : d.field? "type" = some (.text "MsgMultiSend") →
    d.HasNarrow "numOfRecipients" 1 0x7FFFFFFF

/-- The weights of a mix add up to 1: the double nearest to their exact sum is finite and within
the tolerance. -/
def HasTotal (ms : List Datum) : Prop :=
  ∃ xs total, ms.map (fun m => m.field? "weight") = xs.map (fun x => some (.float x))
    ∧ total = Binary64.ofUnits (Binary64.exactUnits xs) ∧ total.isFinite = true
    ∧ (total.units - Binary64.one.units).natAbs ≤ LoadTest.tolerance.units.natAbs

/-- A message mix that may be sent. -/
structure ValidMix (ms : List Datum) : Prop where
  message : ∀ m ∈ ms, m.ValidMessage
  slots : (ms.map slot).Nodup
  total : ms ≠ [] → HasTotal ms

/-- The timeout of a transaction is there exactly if transactions are unordered. -/
def ValidTimeout (d : Datum) : Prop :=
  (d.field? "unorderedTxs" = some (.bool false) ∧ d.field? "txTimeout" = none)
    ∨ (d.field? "unorderedTxs" = some (.bool true)
      ∧ d.HasWide "txTimeout" 0 0x7FFFFFFFFFFFFFFF)

/-- A load test that may be sent. -/
structure ValidLoadTest (d : Datum) : Prop where
  txs : d.HasNarrow "numOfTxs" (-0x80000000) 0x7FFFFFFF
  blocks : d.HasNarrow "numOfBlocks" (-0x80000000) 0x7FFFFFFF
  timeout : d.ValidTimeout
  mix : ∃ ms, d.field? "msgs" = some (.array ms) ∧ ValidMix ms

end Datum

/-! ### Entries of the message mix -/

theorem MessageKind.name_injective {k k' : MessageKind} (h : k.name = k'.name) : k = k' := by
  have hof : ofName? k.name = ofName? k'.name := congrArg _ h
  rw [ofName?_name, ofName?_name] at hof
  exact Option.some.inj hof

namespace Wire.Message

variable (w : Wire.Message)

theorem field?_type : w.payload.field? "type" = some (.text w.kind) := by
  simp [Datum.field?, payload, fields, List.lookup_append]

theorem field?_weight : w.payload.field? "weight" = some (.float w.weight) := by
  simp [Datum.field?, payload, fields, List.lookup_append]

theorem field?_count : w.payload.field? "numMsgs" = some (narrow w.count) := by
  simp [Datum.field?, payload, fields, List.lookup_append]

theorem field?_contained : w.payload.field? "containedType" = some (.text w.contained) := by
  simp [Datum.field?, payload, fields, List.lookup_append]

theorem field?_recipients : w.payload.field? "numOfRecipients" = some (narrow w.recipients) := by
  simp [Datum.field?, payload, fields, List.lookup_append]

end Wire.Message

namespace Message

variable {m : Message} {w : Wire.Message}

theorem EncodesTo.field?_type (h : m.EncodesTo w) :
    w.payload.field? "type" = some (.text m.kind.name) := by
  rw [w.field?_type, h.kind]

/-- The payload is of a kind exactly if the message is. -/
theorem EncodesTo.field?_type_iff (h : m.EncodesTo w) {k : MessageKind} :
    w.payload.field? "type" = some (.text k.name) ↔ m.kind = k := by
  rw [h.field?_type, Option.some.injEq, Datum.text.injEq]
  exact ⟨MessageKind.name_injective, fun hk => hk ▸ rfl⟩

/-- How the slot of a message is written. -/
def writtenSlot (s : MessageKind × Option MessageKind) : Option Datum × Option Datum :=
  (some (.text s.1.name),
    if s.1 = .array then some (.text ((s.2.map MessageKind.name).getD "")) else none)

theorem EncodesTo.slot_payload (h : m.EncodesTo w) : w.payload.slot = writtenSlot m.slot := by
  have htype := h.field?_type_iff (k := .array)
  rw [MessageKind.name] at htype
  by_cases hkind : m.kind = .array
  · rw [Datum.slot, if_pos (htype.2 hkind), h.field?_type, w.field?_contained, h.contained]
    simp [writtenSlot, slot, hkind]
  · rw [Datum.slot, if_neg (mt htype.1 hkind), h.field?_type]
    simp [writtenSlot, slot, hkind]

/-- Different slots are written differently. -/
theorem writtenSlot_slot_injective {m m' : Message}
    (h : writtenSlot m.slot = writtenSlot m'.slot) : m.slot = m'.slot := by
  obtain ⟨htype, hcontained⟩ := Prod.mk.inj h
  have hkind : m.kind = m'.kind :=
    MessageKind.name_injective (Datum.text.inj (Option.some.inj htype))
  by_cases harray : m.kind = .array
  · simp only [slot, harray, hkind ▸ harray, if_true, Option.some.injEq, Datum.text.injEq]
      at hcontained
    have hof := congrArg MessageKind.ofName? hcontained
    rw [ofName?_contained, ofName?_contained] at hof
    simp only [slot, harray, hkind ▸ harray, if_true, hof]
  · simp only [slot, hkind, if_neg (hkind ▸ harray)]

theorem EncodesTo.validMessage (h : m.EncodesTo w) (hweight : m.weight.IsShare)
    (hcomplete : m.Complete) : w.payload.ValidMessage where
  kind := ⟨m.kind, h.field?_type⟩
  weight := ⟨w.weight, w.field?_weight, h.weight ▸ hweight⟩
  count := Datum.hasNarrow_of_le w.field?_count w.count.lo_le
  recipients := Datum.hasNarrow_of_le w.field?_recipients w.recipients.lo_le
  contained htype := by
    obtain ⟨k, hk, hne⟩ := hcomplete.contained (h.field?_type_iff.1 htype)
    refine ⟨k, hne, ?_⟩
    rw [w.field?_contained, h.contained, hk]
    rfl
  count_pos htype := by
    obtain ⟨n, hn, hpos⟩ := hcomplete.count (h.field?_type_iff.1 htype)
    have hcount : 1 ≤ w.count.val := by
      rw [h.count, hn]
      exact hpos
    exact Datum.hasNarrow_of_le w.field?_count hcount
  recipients_pos htype := by
    have hall := hcomplete.recipients (h.field?_type_iff.1 htype)
    -- a number that is left open is sent as 1
    have hrecipients : 1 ≤ w.recipients.val := by
      rw [h.recipients]
      cases hn : m.recipients with
      | none => exact Int.le_refl 1
      | some n => exact hall n hn
    exact Datum.hasNarrow_of_le w.field?_recipients hrecipients

end Message

/-! ### Mixes -/

theorem map_eq_map_of_forall₂ {α β γ : Type} {f : α → γ} {g : β → γ} {as : List α} {bs : List β}
    (h : List.Forall₂ (fun a b => f a = g b) as bs) : as.map f = bs.map g := by
  have hmap : List.Forall₂ Eq (as.map f) (bs.map g) :=
    List.forall₂_map_left_iff.2 (List.forall₂_map_right_iff.2 h)
  rwa [List.forall₂_eq_eq_eq] at hmap

theorem Message.validMessage_of_mem {ms : List Message} {ws : List Wire.Message}
    (h : List.Forall₂ EncodesTo ms ws) (hweight : ∀ m ∈ ms, m.weight.IsShare)
    (hcomplete : ∀ m ∈ ms, m.Complete) : ∀ w ∈ ws, w.payload.ValidMessage := by
  induction h with
  | nil => exact fun w hw => absurd hw List.not_mem_nil
  | cons hm _ ih =>
    rw [List.forall_mem_cons] at hweight hcomplete ⊢
    exact ⟨hm.validMessage hweight.1 hcomplete.1, ih hweight.2 hcomplete.2⟩

theorem Message.nodup_slots {ms : List Message} {ws : List Wire.Message}
    (h : List.Forall₂ EncodesTo ms ws) (hslots : (ms.map slot).Nodup) :
    ((ws.map Wire.Message.payload).map Datum.slot).Nodup := by
  have hwritten : ms.map (fun m => writtenSlot m.slot) = ws.map (fun w => w.payload.slot) :=
    map_eq_map_of_forall₂ (h.imp fun _ _ hm => hm.slot_payload.symm)
  rw [List.map_map, Function.comp_def, ← hwritten, List.Nodup, List.pairwise_map]
  rw [List.Nodup, List.pairwise_map] at hslots
  exact hslots.imp fun hne heq => hne (writtenSlot_slot_injective heq)

theorem LoadTest.HasTotal.payload {ms : List Message} {ws : List Wire.Message}
    (h : List.Forall₂ Message.EncodesTo ms ws) (hweight : ∀ m ∈ ms, m.weight.IsShare)
    (htotal : HasTotal ms) : Datum.HasTotal (ws.map Wire.Message.payload) := by
  obtain ⟨total, hsum, hclose⟩ := htotal
  have hfinite : ∀ x ∈ ms.map (·.weight), x.isFinite = true := by
    intro x hx
    obtain ⟨m, hm, rfl⟩ := List.mem_map.1 hx
    exact (hweight m hm).isFinite
  rw [isCloseToOne, Bool.and_eq_true, decide_eq_true_eq] at hclose
  refine ⟨ms.map (·.weight), total, ?_, Binary64.eq_ofUnits_of_sum hfinite hsum, hclose⟩
  rw [List.map_map, List.map_map]
  refine (map_eq_map_of_forall₂ (h.imp fun m w hm => ?_)).symm
  exact (hm.weight ▸ w.field?_weight).symm

/-! ### Load tests -/

theorem LoadTest.EncodesTo.validTimeout {t : LoadTest} {w : Wire.LoadTest} (h : t.EncodesTo w) :
    w.payload.ValidTimeout := by
  have hunordered : w.payload.field? "unorderedTxs" = some (.bool w.unordered) := by
    simp [Datum.field?, Wire.LoadTest.payload, Wire.LoadTest.fields, List.lookup_append]
  have htimeout : w.payload.field? "txTimeout" = w.timeout.map wide := by
    simp [Datum.field?, Wire.LoadTest.payload, Wire.LoadTest.fields, List.lookup_append]
  rw [h.unordered] at hunordered
  rcases timeout_cases h.timeout with ⟨hfalse, hnone, -⟩ | ⟨htrue, n, r, hr, hval, -⟩
  · exact Or.inl ⟨hfalse ▸ hunordered, by rw [htimeout, hnone, Option.map_none]⟩
  · have hnonneg : 0 ≤ r.val := hval ▸ Int.natCast_nonneg n
    refine Or.inr ⟨htrue ▸ hunordered, Datum.hasWide_of_le ?_ hnonneg⟩
    rw [htimeout, hr, Option.map_some]

/-- A valid load test sends a payload that may be sent. -/
theorem LoadTest.EncodesTo.validLoadTest {t : LoadTest} {w : Wire.LoadTest} (h : t.EncodesTo w)
    (ht : t.Valid) : w.payload.ValidLoadTest := by
  have htxs : w.payload.field? "numOfTxs" = some (narrow w.txs) := by
    simp [Datum.field?, Wire.LoadTest.payload, Wire.LoadTest.fields, List.lookup_append]
  have hblocks : w.payload.field? "numOfBlocks" = some (narrow w.blocks) := by
    simp [Datum.field?, Wire.LoadTest.payload, Wire.LoadTest.fields, List.lookup_append]
  have hmessages : w.payload.field? "msgs"
      = some (.array (w.messages.map Wire.Message.payload)) := by
    simp [Datum.field?, Wire.LoadTest.payload, Wire.LoadTest.fields, List.lookup_append]
  refine ⟨Datum.hasNarrow_of_le htxs w.txs.lo_le, Datum.hasNarrow_of_le hblocks w.blocks.lo_le,
    h.validTimeout, _, hmessages, ?_, Message.nodup_slots h.messages ht.slots, ?_⟩
  · intro d hd
    obtain ⟨m, hm, rfl⟩ := List.mem_map.1 hd
    exact Message.validMessage_of_mem h.messages ht.weight ht.complete m hm
  · intro hne
    rcases ht.total with hnil | htotal
    · have hempty : w.messages = [] := List.forall₂_nil_left_iff.1 (hnil ▸ h.messages)
      exact absurd (congrArg (List.map _) hempty) hne
    · exact htotal.payload h.messages ht.weight

end Trialnet
