import Trialnet.Proofs.Payload.Success
import Trialnet.Chain.Wire

/-!
# What a chain is encoded as

The encoder of a chain writes its documents and genesis values as JSON texts, checks its counts,
and copies the rest.  The equations here determine the wire form, field by field.
-/

namespace Trialnet

open Payload

theorem Datum.kind_eq_error {d : Datum} {typeName : String} (h : d.kind = .error typeName) :
    d = .foreign typeName := by
  cases d with
  | foreign name => exact congrArg _ (Except.error.inj h)
  | null | bool | int | float | text | array | object | back => cases h

/-- A value is encoded as its JSON text. -/
theorem Datum.encode_eq_ok {what : String} {d : Datum} {s : String} :
    d.encode what = .ok s ↔ Json.write d = .ok s := by
  rw [encode]
  cases hkind : d.kind with
  | error typeName =>
    rw [kind_eq_error hkind]
    exact ⟨nofun, nofun⟩
  | ok k => exact mapError_eq_ok

/-- The text of a genesis value: a text stands for itself, and any other value has its JSON
text. -/
theorem GenesisEdit.valueText_eq_ok {key : String} {d : Datum} {s : String} :
    valueText key d = .ok s ↔ d = .text s ∨ (∀ t, d ≠ .text t) ∧ Json.write d = .ok s := by
  by_cases htext : ∃ t, d = .text t
  · obtain ⟨t, rfl⟩ := htext
    constructor
    · intro h
      exact Or.inl (congrArg _ (Except.ok.inj h))
    · rintro (h | ⟨h, -⟩)
      · exact congrArg _ (Datum.text.inj h)
      · exact absurd rfl (h t)
  · have hne : ∀ t, d ≠ .text t := fun t h => htext ⟨t, h⟩
    rw [valueText, Datum.encode_eq_ok]
    · constructor
      · exact fun h => Or.inr ⟨hne, h⟩
      · rintro (h | ⟨-, h⟩)
        · exact absurd h (hne s)
        · exact h
    · exact hne

/-- The wire form of a genesis edit, field by field. -/
structure GenesisEdit.EncodesTo (e : GenesisEdit) (w : Wire.GenesisEntry) : Prop where
  key : w.key = e.key
  value : valueText e.key e.value = .ok w.value

theorem GenesisEdit.encode_eq_ok {e : GenesisEdit} {w : Wire.GenesisEntry} :
    e.encode = .ok w ↔ e.EncodesTo w := by
  rw [encode, bind_eq_ok]
  constructor
  · rintro ⟨s, hs, h⟩
    obtain rfl := Except.ok.inj h
    exact ⟨rfl, hs⟩
  · rintro ⟨hkey, hvalue⟩
    refine ⟨w.value, hvalue, ?_⟩
    rw [← hkey]
    rfl

/-- The wire form of a region, field by field. -/
structure Region.EncodesTo (r : Region) (w : Wire.Region) : Prop where
  name : w.name = r.name
  nodes : w.nodes.val = r.nodes
  validators : w.validators.val = r.validators

theorem Region.encode_eq_ok {r : Region} {w : Wire.Region} : r.encode = .ok w ↔ r.EncodesTo w := by
  rw [encode, Reading.fit_eq_ok, both_eq_ok]
  constructor
  · rintro ⟨nodes, validators, hnodes, hvalidators, rfl⟩
    exact ⟨rfl, hnodes, hvalidators⟩
  · rintro ⟨hname, hnodes, hvalidators⟩
    refine ⟨w.nodes, w.validators, hnodes, hvalidators, ?_⟩
    rw [← hname]

namespace Chain

/-- The text of a document: none if there is no document, and else the JSON text of an object. -/
theorem documentText_eq_ok {field : String} {document : Option Fields} {text : Option String} :
    documentText field document = .ok text
      ↔ (document = none ∧ text = none)
        ∨ ∃ fields s, document = some fields ∧ text = some s
            ∧ Json.write (.object fields) = .ok s := by
  cases document with
  | none =>
    refine ⟨fun h => Or.inl ⟨rfl, (Except.ok.inj h).symm⟩, ?_⟩
    rintro (⟨-, rfl⟩ | ⟨fields, s, h, -⟩)
    · rfl
    · cases h
  | some fields =>
    refine map_eq_ok.trans ⟨?_, ?_⟩
    · rintro ⟨s, hs, rfl⟩
      exact Or.inr ⟨fields, s, rfl, rfl, Datum.encode_eq_ok.1 hs⟩
    · rintro (⟨h, -⟩ | ⟨fields', s, h, rfl, hs⟩)
      · cases h
      · obtain rfl := Option.some.inj h
        exact ⟨s, Datum.encode_eq_ok.2 hs, rfl⟩

/-- The wire form of a chain, field by field. -/
structure EncodesTo (c : Chain) (w : Wire.Chain) : Prop where
  name : w.name = c.name
  image : w.image = c.image
  version : w.version = c.version
  nodes : w.nodes.val = c.nodes
  validators : w.validators.val = c.validators
  edits : List.Forall₂ GenesisEdit.EncodesTo c.edits w.edits
  regions : List.Forall₂ Region.EncodesTo c.regions w.regions
  app : documentText appField c.app = .ok w.app
  consensus : documentText consensusField c.consensus = .ok w.consensus
  client : documentText clientField c.client = .ok w.client
  seedNode : w.seedNode = c.seedNode
  persistentPeers : w.persistentPeers = c.persistentPeers

theorem encode_eq_ok {c : Chain} {w : Wire.Chain} : c.encode = .ok w ↔ c.EncodesTo w := by
  have hedits : ∀ ws, GenesisEdit.encodeAll c.edits = .ok ws
      ↔ List.Forall₂ GenesisEdit.EncodesTo c.edits ws := by
    intro ws
    rw [GenesisEdit.encodeAll, mapM_eq_ok]
    exact ⟨fun h => h.imp fun _ _ => GenesisEdit.encode_eq_ok.1,
      fun h => h.imp fun _ _ => GenesisEdit.encode_eq_ok.2⟩
  have hregions : ∀ ws, c.regions.mapM Region.encode = .ok ws
      ↔ List.Forall₂ Region.EncodesTo c.regions ws := by
    intro ws
    rw [mapM_eq_ok]
    exact ⟨fun h => h.imp fun _ _ => Region.encode_eq_ok.1,
      fun h => h.imp fun _ _ => Region.encode_eq_ok.2⟩
  rw [encode]
  constructor
  · intro h
    obtain ⟨app, happ, h⟩ := bind_eq_ok.1 h
    obtain ⟨consensus, hconsensus, h⟩ := bind_eq_ok.1 h
    obtain ⟨client, hclient, h⟩ := bind_eq_ok.1 h
    obtain ⟨es, hes, h⟩ := bind_eq_ok.1 h
    obtain ⟨rs, hrs, h⟩ := bind_eq_ok.1 h
    obtain ⟨counts, hcounts, h⟩ := bind_eq_ok.1 h
    obtain ⟨nodes, validators, hnodes, hvalidators, rfl⟩ :=
      both_eq_ok.1 (Reading.fit_eq_ok.1 hcounts)
    obtain rfl := Except.ok.inj h
    exact ⟨rfl, rfl, rfl, hnodes, hvalidators, (hedits es).1 hes, (hregions rs).1 hrs, happ,
      hconsensus, hclient, rfl, rfl⟩
  · rintro ⟨hname, himage, hversion, hnodes, hvalidators, hes, hrs, happ, hconsensus, hclient,
      hseed, hpeers⟩
    refine bind_eq_ok.2 ⟨w.app, happ, bind_eq_ok.2 ⟨w.consensus, hconsensus, ?_⟩⟩
    refine bind_eq_ok.2 ⟨w.client, hclient, bind_eq_ok.2 ⟨w.edits, (hedits _).2 hes, ?_⟩⟩
    refine bind_eq_ok.2 ⟨w.regions, (hregions _).2 hrs,
      bind_eq_ok.2 ⟨(w.nodes, w.validators), ?_, ?_⟩⟩
    · exact Reading.fit_eq_ok.2 (both_eq_ok.2 ⟨_, _, hnodes, hvalidators, rfl⟩)
    · rw [← hname, ← himage, ← hversion, ← hseed, ← hpeers]
      rfl

end Chain

end Trialnet
