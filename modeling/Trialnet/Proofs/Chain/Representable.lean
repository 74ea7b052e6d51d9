import Trialnet.Proofs.Chain.Encoding
import Trialnet.Proofs.Json.Storable

/-!
# Which chains have a wire form

The wire has bounds for counts, and texts in the place of free-form data.  So a chain is encoded
exactly if its counts are within their bounds and its documents and genesis values have JSON
texts, where a genesis value that is a text is its own.

Two limits of free-form data lie outside these conditions.  Objects have texts for keys here, so a
mapping with other keys, such as `{1: 2}`, is no value at all, although one could be written.
And there are levels enough for every value that is written, so that a value is never refused for
being nested too deeply.
-/

namespace Trialnet

open Payload

/-- The number fits into 64 bits without a sign. -/
def FitsUnsigned (n : Int) : Prop := 0 ≤ n ∧ n ≤ 0xFFFFFFFFFFFFFFFF

/-- The document, if there is one, has a JSON text. -/
def Json.WritableDocument (document : Option Fields) : Prop :=
  ∀ fields, document = some fields → Json.Writable .refused (.object fields)

/-- The counts of a region are within their bounds. -/
structure Region.Representable (r : Region) : Prop where
  nodes : FitsUnsigned r.nodes
  validators : FitsUnsigned r.validators

theorem Region.exists_encodesTo_iff {r : Region} : (∃ w, r.EncodesTo w) ↔ r.Representable := by
  constructor
  · rintro ⟨w, hw⟩
    exact ⟨exists_ranged_iff.1 ⟨w.nodes, hw.nodes⟩,
      exists_ranged_iff.1 ⟨w.validators, hw.validators⟩⟩
  · rintro ⟨hnodes, hvalidators⟩
    obtain ⟨nodes, hnodes⟩ := exists_ranged_iff.2 hnodes
    obtain ⟨validators, hvalidators⟩ := exists_ranged_iff.2 hvalidators
    exact ⟨⟨r.name, nodes, validators⟩, rfl, hnodes, hvalidators⟩

/-- A text has a text, namely itself, so nothing is asked of it. -/
theorem GenesisEdit.exists_valueText_iff (key : String) {d : Datum} :
    (∃ s, valueText key d = .ok s) ↔ Json.Writable .refused d := by
  simp only [valueText_eq_ok]
  constructor
  · rintro ⟨s, rfl | ⟨-, hwrite⟩⟩
    · trivial
    · exact Json.exists_write_iff.1 ⟨s, hwrite⟩
  · intro h
    by_cases htext : ∃ t, d = .text t
    · obtain ⟨t, rfl⟩ := htext
      exact ⟨t, Or.inl rfl⟩
    · obtain ⟨s, hs⟩ := Json.exists_write_iff.2 h
      exact ⟨s, Or.inr ⟨fun t ht => htext ⟨t, ht⟩, hs⟩⟩

theorem GenesisEdit.exists_encodesTo_iff {e : GenesisEdit} :
    (∃ w, e.EncodesTo w) ↔ Json.Writable .refused e.value := by
  rw [← exists_valueText_iff e.key]
  constructor
  · rintro ⟨w, hw⟩
    exact ⟨w.value, hw.value⟩
  · rintro ⟨s, hs⟩
    exact ⟨⟨e.key, s⟩, rfl, hs⟩

namespace Chain

theorem exists_documentText_iff {field : String} {document : Option Fields} :
    (∃ text, documentText field document = .ok text) ↔ Json.WritableDocument document := by
  simp only [documentText_eq_ok]
  cases document with
  | none => exact ⟨fun _ => nofun, fun _ => ⟨none, Or.inl ⟨rfl, rfl⟩⟩⟩
  | some fields =>
    constructor
    · rintro ⟨text, ⟨h, -⟩ | ⟨fields', s, h, -, hwrite⟩⟩
      · cases h
      · intro fields'' h'
        obtain rfl := Option.some.inj (h.symm.trans h')
        exact Json.exists_write_iff.1 ⟨s, hwrite⟩
    · intro h
      obtain ⟨s, hs⟩ := Json.exists_write_iff.2 (h fields rfl)
      exact ⟨some s, Or.inr ⟨fields, s, rfl, rfl, hs⟩⟩

/-- What a chain has to be like to have a wire form, given that the keys of its objects are texts
and that its values are not nested too deeply to be written. -/
structure Representable (c : Chain) : Prop where
  nodes : FitsUnsigned c.nodes
  validators : FitsUnsigned c.validators
  regions : ∀ r ∈ c.regions, r.Representable
  /-- Nothing is asked of texts, which are always writable. -/
  edits : ∀ e ∈ c.edits, Json.Writable .refused e.value
  app : Json.WritableDocument c.app
  consensus : Json.WritableDocument c.consensus
  client : Json.WritableDocument c.client

theorem exists_encodesTo_iff {c : Chain} : (∃ w, c.EncodesTo w) ↔ c.Representable := by
  constructor
  · rintro ⟨w, hw⟩
    refine ⟨exists_ranged_iff.1 ⟨w.nodes, hw.nodes⟩,
      exists_ranged_iff.1 ⟨w.validators, hw.validators⟩, ?_, ?_, ?_, ?_, ?_⟩
    · intro r hr
      exact Region.exists_encodesTo_iff.1 (exists_forall₂_iff.1 ⟨_, hw.regions⟩ r hr)
    · intro e he
      exact GenesisEdit.exists_encodesTo_iff.1 (exists_forall₂_iff.1 ⟨_, hw.edits⟩ e he)
    · exact exists_documentText_iff.1 ⟨w.app, hw.app⟩
    · exact exists_documentText_iff.1 ⟨w.consensus, hw.consensus⟩
    · exact exists_documentText_iff.1 ⟨w.client, hw.client⟩
  · intro h
    obtain ⟨nodes, hnodes⟩ := exists_ranged_iff.2 h.nodes
    obtain ⟨validators, hvalidators⟩ := exists_ranged_iff.2 h.validators
    obtain ⟨regions, hregions⟩ := exists_forall₂_iff.2 fun r hr =>
      Region.exists_encodesTo_iff.2 (h.regions r hr)
    obtain ⟨edits, hedits⟩ := exists_forall₂_iff.2 fun e he =>
      GenesisEdit.exists_encodesTo_iff.2 (h.edits e he)
    obtain ⟨app, happ⟩ := exists_documentText_iff.2 h.app
    obtain ⟨consensus, hconsensus⟩ := exists_documentText_iff.2 h.consensus
    obtain ⟨client, hclient⟩ := exists_documentText_iff.2 h.client
    exact ⟨{ name := c.name, image := c.image, version := c.version, nodes, validators, edits
             regions, app, consensus, client, seedNode := c.seedNode
             persistentPeers := c.persistentPeers },
      rfl, rfl, rfl, hnodes, hvalidators, hedits, hregions, happ, hconsensus, hclient, rfl, rfl⟩

end Chain

end Trialnet
