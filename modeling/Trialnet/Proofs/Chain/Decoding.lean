import Trialnet.Chain.Wire
import Trialnet.Proofs.Json.Documents
import Trialnet.Proofs.Payload.Success

/-!
# What a chain is decoded as

The decoder of a chain reads its documents and genesis values from their texts and copies the rest.
It fails exactly if one of these texts does not load (`exists_decodesTo_iff`).  The equations here
determine what it gives otherwise, field by field.
-/

namespace Trialnet

namespace GenesisEdit

/-! ### Genesis values -/

/-- The text stands for the value: a JSON text for the value it is a text of, and any other text for
itself. -/
def StandsFor (raw : String) (d : Datum) : Prop :=
  Json.IsTextOf raw d ∨ (¬ ∃ d', Json.IsTextOf raw d') ∧ d = .text raw

/-- The value that a text stands for, which is read given levels enough for all its brackets. -/
def valueOf (raw : String) : Datum :=
  match Json.read (Json.opened raw.toList) raw with
  | .ok (.ok d) => d
  | _ => .text raw

theorem valueOf_of_isTextOf {raw : String} {d : Datum} (h : Json.IsTextOf raw d) :
    valueOf raw = d := by
  rw [valueOf, h.read_of_loads (Json.loads_of_opened_le le_rfl)]

theorem valueOf_of_not_isTextOf {raw : String} (h : ¬ ∃ d, Json.IsTextOf raw d) :
    valueOf raw = .text raw := by
  rw [valueOf]
  split
  · rename_i d hread
    exact absurd ⟨d, Json.isTextOf_of_read hread⟩ h
  · rfl

theorem standsFor_valueOf (raw : String) : StandsFor raw (valueOf raw) := by
  by_cases h : ∃ d, Json.IsTextOf raw d
  · obtain ⟨d, hd⟩ := h
    rw [valueOf_of_isTextOf hd]
    exact Or.inl hd
  · exact Or.inr ⟨h, valueOf_of_not_isTextOf h⟩

/-- The edit that a wire form stands for. -/
def ofEntry (w : Wire.GenesisEntry) : GenesisEdit := ⟨w.key, valueOf w.value⟩

variable {levels : Nat}

theorem ofValueText_of_loads {raw : String} (h : Json.Loads levels raw) :
    ofValueText levels raw = .ok (valueOf raw) := by
  obtain ⟨verdict, hread⟩ := Json.loads_iff.1 h
  rw [ofValueText, hread]
  cases verdict with
  | ok d =>
    rw [valueOf_of_isTextOf (Json.isTextOf_of_read hread)]
    rfl
  | error fault =>
    have hword : ¬ ∃ d, Json.IsTextOf raw d := by
      rintro ⟨d, htext⟩
      rw [htext.read_of_loads h] at hread
      cases Except.ok.inj hread
    rw [valueOf_of_not_isTextOf hword]
    rfl

/-- A text is read exactly if it loads, and then as the value it stands for. -/
theorem ofValueText_eq_ok {raw : String} {d : Datum} :
    ofValueText levels raw = .ok d ↔ Json.Loads levels raw ∧ d = valueOf raw := by
  constructor
  · intro hd
    have hloads : Json.Loads levels raw := by
      by_contra hdeep
      obtain ⟨cause, hread⟩ := Json.not_loads_iff.1 hdeep
      rw [ofValueText, hread] at hd
      cases hd
    exact ⟨hloads, Except.ok.inj (hd.symm.trans (ofValueText_of_loads hloads))⟩
  · rintro ⟨hloads, rfl⟩
    exact ofValueText_of_loads hloads

theorem decode_eq_ok {w : Wire.GenesisEntry} {e : GenesisEdit} :
    decode levels w = .ok e ↔ Json.Loads levels w.value ∧ e = ofEntry w := by
  rw [decode, bind_eq_ok]
  constructor
  · rintro ⟨d, hd, h⟩
    obtain ⟨hloads, rfl⟩ := ofValueText_eq_ok.1 hd
    exact ⟨hloads, (Except.ok.inj h).symm⟩
  · rintro ⟨hloads, rfl⟩
    exact ⟨_, ofValueText_eq_ok.2 ⟨hloads, rfl⟩, rfl⟩

/-- Edits are decoded exactly if all their texts load, each to what it stands for. -/
theorem decodeAll_eq_ok {ws : List Wire.GenesisEntry} {es : List GenesisEdit} :
    decodeAll levels ws = .ok es
      ↔ (∀ w ∈ ws, Json.Loads levels w.value) ∧ es = ws.map ofEntry := by
  rw [decodeAll, mapM_eq_ok]
  simp only [decode_eq_ok]
  induction ws generalizing es with
  | nil => simp
  | cons w ws ih =>
    rw [List.forall₂_cons_left_iff, List.forall_mem_cons, List.map_cons]
    constructor
    · rintro ⟨e, es', ⟨hw, rfl⟩, hws, rfl⟩
      obtain ⟨hloads, rfl⟩ := ih.1 hws
      exact ⟨⟨hw, hloads⟩, rfl⟩
    · rintro ⟨⟨hw, hws⟩, rfl⟩
      exact ⟨_, _, ⟨hw, rfl⟩, ih.2 ⟨hws, rfl⟩, rfl⟩

end GenesisEdit

/-! ### Chains -/

/-- The texts that a wire form holds, those of the documents and those of the genesis values, load
with so many levels. -/
structure Wire.Chain.Loads (levels : Nat) (w : Wire.Chain) : Prop where
  app : ∀ s, w.app = some s → Json.Loads levels s
  consensus : ∀ s, w.consensus = some s → Json.Loads levels s
  client : ∀ s, w.client = some s → Json.Loads levels s
  edits : ∀ e ∈ w.edits, Json.Loads levels e.value

instance (levels : Nat) (w : Wire.Chain) : Decidable (w.Loads levels) :=
  decidable_of_iff ((∀ s ∈ w.app, Json.Loads levels s) ∧ (∀ s ∈ w.consensus, Json.Loads levels s)
      ∧ (∀ s ∈ w.client, Json.Loads levels s) ∧ ∀ e ∈ w.edits, Json.Loads levels e.value)
    ⟨fun ⟨happ, hconsensus, hclient, hedits⟩ => ⟨happ, hconsensus, hclient, hedits⟩,
      fun ⟨happ, hconsensus, hclient, hedits⟩ => ⟨happ, hconsensus, hclient, hedits⟩⟩

namespace Chain

/-- A part of a node that has a document of its own. -/
inductive NodePart where
  | app | consensus | client
  deriving DecidableEq

namespace NodePart

/-- The field of the part's document. -/
def field : NodePart → String
  | app => appField
  | consensus => consensusField
  | client => clientField

/-- The text that travels in the field. -/
def text (w : Wire.Chain) : NodePart → Option String
  | app => w.app
  | consensus => w.consensus
  | client => w.client

/-- The part's document. -/
def document (c : Chain) : NodePart → Option Fields
  | app => c.app
  | consensus => c.consensus
  | client => c.client

/-- The parts, in the order of their warnings. -/
def all : List NodePart := [app, consensus, client]

theorem mem_all (p : NodePart) : p ∈ all := by cases p <;> decide

theorem field_injective {p q : NodePart} (h : p.field = q.field) : p = q := by
  revert h
  cases p <;> cases q <;> decide

end NodePart

/-- What a wire form is decoded as, field by field. -/
structure DecodesTo (levels : Nat) (w : Wire.Chain) (c : Chain) (warnings : List Json.Warning) :
    Prop where
  name : c.name = w.name
  image : c.image = w.image
  version : c.version = nonEmpty w.version
  nodes : c.nodes = w.nodes.val
  validators : c.validators = w.validators.val
  edits : GenesisEdit.decodeAll levels w.edits = .ok c.edits
  regions : c.regions = w.regions.map Region.decode
  seedNode : c.seedNode = w.seedNode
  persistentPeers : c.persistentPeers = w.persistentPeers
  /-- Each document is read from its text, and the warnings follow each other. -/
  documents : ∃ warning : NodePart → Option Json.Warning,
    (∀ p, Json.readDocument levels p.field (p.text w) = .ok (p.document c, warning p))
      ∧ warnings = NodePart.all.flatMap fun p => (warning p).toList

variable {levels : Nat} {w : Wire.Chain} {c : Chain} {warnings : List Json.Warning}

theorem decodeWithWarnings_eq_ok :
    decodeWithWarnings levels w = .ok (c, warnings) ↔ DecodesTo levels w c warnings := by
  constructor
  · intro h
    obtain ⟨⟨app, appWarning⟩, happ, h⟩ := bind_eq_ok.1 h
    obtain ⟨⟨consensus, consensusWarning⟩, hconsensus, h⟩ := bind_eq_ok.1 h
    obtain ⟨⟨client, clientWarning⟩, hclient, h⟩ := bind_eq_ok.1 h
    obtain ⟨edits, hedits, h⟩ := bind_eq_ok.1 h
    obtain ⟨rfl, rfl⟩ := Prod.mk.inj (Except.ok.inj h)
    refine ⟨rfl, rfl, rfl, rfl, rfl, hedits, rfl, rfl, rfl, fun
      | .app => appWarning
      | .consensus => consensusWarning
      | .client => clientWarning, ?_, by simp [NodePart.all]⟩
    rintro (_ | _ | _)
    · exact happ
    · exact hconsensus
    · exact hclient
  · rintro ⟨hname, himage, hversion, hnodes, hvalidators, hedits, hregions, hseed, hpeers, warning,
      hdocuments, rfl⟩
    have happ := hdocuments .app
    have hconsensus := hdocuments .consensus
    have hclient := hdocuments .client
    obtain ⟨name, image, nodes, validators, version, edits, regions, app, consensus, client,
      seedNode, persistentPeers⟩ := c
    dsimp only [NodePart.field, NodePart.text, NodePart.document] at *
    subst hname himage hversion hnodes hvalidators hregions hseed hpeers
    simp only [decodeWithWarnings, happ, hconsensus, hclient, hedits, bind, Except.bind, pure,
      Except.pure, NodePart.all, List.flatMap_cons, List.flatMap_nil, List.append_nil,
      List.append_assoc]

/-- A wire form is decoded exactly if all its texts load. -/
theorem exists_decodesTo_iff : (∃ c warnings, DecodesTo levels w c warnings) ↔ w.Loads levels := by
  constructor
  · rintro ⟨c, warnings, h⟩
    obtain ⟨warning, hdocuments, -⟩ := h.documents
    exact ⟨(Json.exists_readDocument_iff _).1 ⟨_, hdocuments .app⟩,
      (Json.exists_readDocument_iff _).1 ⟨_, hdocuments .consensus⟩,
      (Json.exists_readDocument_iff _).1 ⟨_, hdocuments .client⟩,
      (GenesisEdit.decodeAll_eq_ok.1 h.edits).1⟩
  · intro h
    obtain ⟨app, happ⟩ := (Json.exists_readDocument_iff appField).2 h.app
    obtain ⟨consensus, hconsensus⟩ := (Json.exists_readDocument_iff consensusField).2 h.consensus
    obtain ⟨client, hclient⟩ := (Json.exists_readDocument_iff clientField).2 h.client
    have hedits := GenesisEdit.decodeAll_eq_ok.2 ⟨h.edits, rfl⟩
    exact ⟨_, _, decodeWithWarnings_eq_ok.1 (bind_eq_ok.2 ⟨app, happ, bind_eq_ok.2
      ⟨consensus, hconsensus, bind_eq_ok.2 ⟨client, hclient, bind_eq_ok.2 ⟨_, hedits, rfl⟩⟩⟩⟩)⟩

theorem exists_decodeWithWarnings_iff :
    (∃ x, decodeWithWarnings levels w = .ok x) ↔ w.Loads levels := by
  rw [← exists_decodesTo_iff, Prod.exists]
  simp only [decodeWithWarnings_eq_ok]

/-- The decoder records warnings, which does not make it fail. -/
theorem exists_decode_iff : (∃ x, decode levels w = .ok x) ↔ w.Loads levels :=
  exists_bind_pure_eq_ok.trans exists_decodeWithWarnings_iff

/-- The decoder gives the chain and records its warnings. -/
theorem decode_eq_ok {x : Logged Chain} :
    decode levels w = .ok x ↔ ∃ warnings, DecodesTo levels w x.value warnings
      ∧ x.log = warnings.map (.documentDropped w.name) := by
  rw [decode, bind_eq_ok]
  constructor
  · rintro ⟨⟨c, warnings⟩, h, hx⟩
    obtain rfl := Except.ok.inj hx
    exact ⟨warnings, decodeWithWarnings_eq_ok.1 h, rfl⟩
  · rintro ⟨warnings, h, hlog⟩
    obtain ⟨c, log⟩ := x
    obtain rfl : log = _ := hlog
    exact ⟨(c, warnings), decodeWithWarnings_eq_ok.2 h, rfl⟩

end Chain

end Trialnet
