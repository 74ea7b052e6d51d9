import Trialnet.Proofs.Chain.Decoding
import Trialnet.Proofs.Chain.Encoding
import Trialnet.Proofs.Wire.Chain

/-!
# Chains that are sent and read back

A chain is read back from the JSON text of its payload as it was sent, but for an empty version
and for genesis values that are texts of JSON.  The documents and the other genesis values are
read back because no object in them has a key twice, which is so of every dictionary.  That they
are not nested too deeply to be read is assumed here of the texts that are sent.
-/

namespace Trialnet

open Payload

namespace GenesisEdit

/-- The edit whose value, if it is a text, is what the text stands for. -/
def settled (e : GenesisEdit) : GenesisEdit :=
  match e.value with
  | .text s => { e with value := valueOf s }
  | _ => e

theorem settled_of_ne_text {e : GenesisEdit} (h : ∀ s, e.value ≠ .text s) : e.settled = e := by
  rw [settled]
  split
  · rename_i s hs
    exact absurd hs (h s)
  · rfl

/-- A value other than a text is read back from its JSON text. -/
theorem ofEntry_of_encodesTo {e : GenesisEdit} {w : Wire.GenesisEntry} (he : e.value.WellKeyed)
    (h : e.EncodesTo w) : ofEntry w = e.settled := by
  obtain ⟨hkey, hvalue⟩ := h
  obtain ⟨key, value⟩ := e
  dsimp only at he hkey hvalue
  rcases valueText_eq_ok.1 hvalue with rfl | ⟨hne, hwrite⟩
  · rw [ofEntry, settled, hkey]
  · have hvalue : valueOf w.value = value := valueOf_of_isTextOf (Json.isTextOf_of_write he hwrite)
    rw [ofEntry, hvalue, hkey, settled_of_ne_text hne]

theorem map_ofEntry_of_encodesTo {es : List GenesisEdit} {ws : List Wire.GenesisEntry}
    (hes : ∀ e ∈ es, e.value.WellKeyed) (h : List.Forall₂ EncodesTo es ws) :
    ws.map ofEntry = es.map settled := by
  induction h with
  | nil => rfl
  | @cons e w es ws he _ ih =>
    rw [List.map_cons, List.map_cons, ← ofEntry_of_encodesTo (hes e (by simp)) he,
      ← ih fun f hf => hes f (by simp [hf])]

theorem decodeAll_of_encodesTo {levels : Nat} {es : List GenesisEdit}
    {ws : List Wire.GenesisEntry} (hes : ∀ e ∈ es, e.value.WellKeyed)
    (h : List.Forall₂ EncodesTo es ws) (hloads : ∀ w ∈ ws, Json.Loads levels w.value) :
    decodeAll levels ws = .ok (es.map settled) :=
  decodeAll_eq_ok.2 ⟨hloads, (map_ofEntry_of_encodesTo hes h).symm⟩

end GenesisEdit

theorem Region.decode_of_encodesTo {r : Region} {w : Wire.Region} (h : r.EncodesTo w) :
    decode w = r := by
  obtain ⟨hname, hnodes, hvalidators⟩ := h
  rw [decode, hname, hnodes, hvalidators]

theorem Region.map_decode_of_encodesTo {rs : List Region} {ws : List Wire.Region}
    (h : List.Forall₂ EncodesTo rs ws) : ws.map decode = rs := by
  induction h with
  | nil => rfl
  | cons hr _ ih => rw [List.map_cons, Region.decode_of_encodesTo hr, ih]

namespace Chain

/-- No object in the documents and genesis values of a chain has a key twice. -/
structure WellKeyed (c : Chain) : Prop where
  edits : ∀ e ∈ c.edits, e.value.WellKeyed
  app : ∀ fields, c.app = some fields → (Datum.object fields).WellKeyed
  consensus : ∀ fields, c.consensus = some fields → (Datum.object fields).WellKeyed
  client : ∀ fields, c.client = some fields → (Datum.object fields).WellKeyed

/-- The chain without an empty version, and with genesis values for the texts that stand for
them. -/
def settled (c : Chain) : Chain :=
  { c with version := nonEmpty c.version, edits := c.edits.map GenesisEdit.settled }

/-- A document is read back from its text, an empty one as an empty one. -/
theorem readDocument_of_documentText {levels : Nat} {field : String} {document : Option Fields}
    {text : Option String} (hd : ∀ fields, document = some fields → (Datum.object fields).WellKeyed)
    (h : documentText field document = .ok text)
    (hloads : ∀ s, text = some s → Json.Loads levels s) :
    Json.readDocument levels field text = .ok (document, none) := by
  rcases documentText_eq_ok.1 h with ⟨rfl, rfl⟩ | ⟨fields, s, rfl, rfl, hwrite⟩
  · rfl
  · have htext := Json.isTextOf_of_write (hd fields rfl) hwrite
    have hread := htext.read_of_loads (hloads s rfl)
    simp only [Json.readDocument, htext.ne_empty, if_false, Json.document, hread, bind, Except.bind,
      pure, Except.pure]

theorem EncodesTo.decodesTo {levels : Nat} {c : Chain} {w : Wire.Chain} (hc : c.WellKeyed)
    (h : c.EncodesTo w) (hloads : w.Loads levels) : DecodesTo levels w c.settled [] where
  name := h.name.symm
  image := h.image.symm
  version := by rw [h.version]; rfl
  nodes := h.nodes.symm
  validators := h.validators.symm
  edits := GenesisEdit.decodeAll_of_encodesTo hc.edits h.edits hloads.edits
  regions := (Region.map_decode_of_encodesTo h.regions).symm
  seedNode := h.seedNode.symm
  persistentPeers := h.persistentPeers.symm
  documents := by
    refine ⟨fun _ => none, ?_, rfl⟩
    rintro (_ | _ | _)
    · exact readDocument_of_documentText hc.app h.app hloads.app
    · exact readDocument_of_documentText hc.consensus h.consensus hloads.consensus
    · exact readDocument_of_documentText hc.client h.client hloads.client

/-- Every chain that has a wire form is read back from the JSON text of its payload, without a
warning: equal in every field, but that an empty version is none, and that a genesis value which
is a text of JSON is the value it denotes.  The payload takes three levels, and the texts in it are
taken not to be nested too deeply. -/
theorem decode_payload_eq_settled {levels : Nat} (hlevels : 3 ≤ levels) {c : Chain}
    {w : Wire.Chain} (hc : c.WellKeyed) (h : c.encode = .ok w) (hloads : w.Loads levels) :
    ∃ text d w', Json.writeLoose w.payload = .ok text ∧ Json.read levels text = .ok (.ok d)
      ∧ Wire.Chain.read d = .ok w' ∧ decodeWithWarnings levels w' = .ok (c.settled, []) := by
  obtain ⟨text, hwrite, hread⟩ := w.storable.exists_text hlevels
  exact ⟨text, w.payload, w, hwrite, hread, w.read_payload,
    decodeWithWarnings_eq_ok.2 ((encode_eq_ok.1 h).decodesTo hc hloads)⟩

/-- A chain with an empty version, an empty document and genesis values of both kinds. -/
theorem decode_payload_small :
    let c : Chain :=
      { name := "small", image := "", nodes := 0xFFFFFFFFFFFFFFFF, version := some ""
        app := some []
        edits := [⟨"a", .text "1"⟩, ⟨"b", .text "x"⟩, ⟨"c", .array [.int 2, .null]⟩] }
    ∃ w text d w', c.encode = .ok w ∧ Json.writeLoose w.payload = .ok text
      ∧ Json.read 3 text = .ok (.ok d) ∧ Wire.Chain.read d = .ok w'
      ∧ decodeWithWarnings 3 w' = .ok ({ c with
          version := none
          edits := [⟨"a", .int 1⟩, ⟨"b", .text "x"⟩, ⟨"c", .array [.int 2, .null]⟩] }, []) := by
  intro c
  have hkeyed : c.WellKeyed := by
    refine ⟨?_, ?_, nofun, nofun⟩
    · intro e he
      simp only [c, List.mem_cons, List.not_mem_nil, or_false] at he
      rcases he with rfl | rfl | rfl
      · trivial
      · trivial
      · exact ⟨trivial, trivial, trivial⟩
    · intro fields h
      obtain rfl := Option.some.inj h
      exact ⟨List.nodup_nil, trivial⟩
  have hencode : c.encode = .ok
      { name := "small", image := "", version := some "", app := some "\x7b\x7d"
        nodes := ⟨0xFFFFFFFFFFFFFFFF, by decide, by decide⟩
        edits := [⟨"a", "1"⟩, ⟨"b", "x"⟩, ⟨"c", "[2,null]"⟩] } := by decide +kernel
  have hsettled : c.settled = { c with
      version := none
      edits := [⟨"a", .int 1⟩, ⟨"b", .text "x"⟩, ⟨"c", .array [.int 2, .null]⟩] } := by
    decide +kernel
  obtain ⟨text, d, w', hwrite, hread, hw', hdecode⟩ :=
    decode_payload_eq_settled (Nat.le_refl 3) hkeyed hencode (by decide +kernel)
  exact ⟨_, text, d, w', hencode, hwrite, hread, hw', hsettled ▸ hdecode⟩

end Chain

end Trialnet
