import Trialnet.Proofs.Chain.Decoding

/-!
# Broken documents are reported and contained

The documents of a chain are decoded each on its own.  A text that is broken costs its own
document, is reported with the name of its field, and changes nothing else: neither the other
documents nor the rest of the chain.  That is so whenever the chain is decoded, and it is decoded
exactly if all its texts load: a text that is nested too deeply is not contained, but makes the
decoder fail as a whole (`decodeWithWarnings_brackets`).
-/

namespace Trialnet.Chain

/-- The chain without its documents. -/
def withoutDocuments (c : Chain) : Chain :=
  { c with app := none, consensus := none, client := none }

namespace DecodesTo

variable {levels : Nat} {w : Wire.Chain} {c : Chain} {warnings : List Json.Warning}

/-- What becomes of the text of a part, and the warning that names its field. -/
theorem exists_readsDocument (h : DecodesTo levels w c warnings) (p : NodePart) :
    ∃ warning, Json.ReadsDocument p.field (p.text w) (p.document c) warning
      ∧ ∀ v, v ∈ warnings ∧ v.field = p.field ↔ warning = some v := by
  obtain ⟨warning, hdocuments, rfl⟩ := h.documents
  have hreads : ∀ q : NodePart, Json.ReadsDocument q.field (q.text w) (q.document c) (warning q) :=
    fun q => Json.readsDocument (hdocuments q)
  refine ⟨warning p, hreads p, fun v => ?_⟩
  simp only [List.mem_flatMap, Option.mem_toList]
  constructor
  · rintro ⟨⟨q, -, hv⟩, hfield⟩
    obtain rfl := NodePart.field_injective (((hreads q).field_eq hv).symm.trans hfield)
    exact hv
  · intro hv
    exact ⟨⟨p, p.mem_all, hv⟩, (hreads p).field_eq hv⟩

/-- A part has one warning at most, and the warnings are in the order of the parts. -/
theorem map_field_sublist (h : DecodesTo levels w c warnings) :
    (warnings.map (·.field)).Sublist (NodePart.all.map NodePart.field) := by
  obtain ⟨warning, hdocuments, rfl⟩ := h.documents
  have hpart : ∀ p : NodePart, ((warning p).toList.map (·.field)).Sublist [p.field] := by
    intro p
    cases hv : warning p with
    | none => exact List.nil_sublist _
    | some v =>
      rw [Option.toList_some, List.map_singleton, (Json.readsDocument (hdocuments p)).field_eq hv]
  simp only [NodePart.all, List.flatMap_cons, List.flatMap_nil, List.append_nil, List.map_append]
  exact (hpart .app).append ((hpart .consensus).append (hpart .client))

/-- The rest of a chain does not depend on its documents. -/
theorem withoutDocuments_eq (h : DecodesTo levels w c warnings)
    {app consensus client : Option String} {c' : Chain} {warnings' : List Json.Warning}
    (h' : DecodesTo levels { w with app, consensus, client } c' warnings') :
    c'.withoutDocuments = c.withoutDocuments := by
  have hedits : c'.edits = c.edits := Except.ok.inj (h'.edits.symm.trans h.edits)
  simp only [withoutDocuments, h'.name, h.name, h'.image, h.image, h'.version, h.version, h'.nodes,
    h.nodes, h'.validators, h.validators, hedits, h'.regions, h.regions, h'.seedNode, h.seedNode,
    h'.persistentPeers, h.persistentPeers]

end DecodesTo

/-- What becomes of the documents of a chain.  The chain is decoded exactly if the texts of its
documents and of its genesis values load.  The document of a part is there exactly if the text
of its field is the JSON text of an object, and is that object.  A warning with the name of the
field and the text is there exactly if the text is neither empty nor the JSON text of an object.
Without a text, or with an empty one, there is neither.  The warnings are in the order of the
parts, one of each at most, and the rest of the chain is what it is with any other texts. -/
theorem decodeWithWarnings_documents (levels : Nat) (w : Wire.Chain) :
    ((∃ r, decodeWithWarnings levels w = .ok r) ↔ w.Loads levels)
      ∧ ∀ c warnings, decodeWithWarnings levels w = .ok (c, warnings) →
        (∀ (p : NodePart) fields, p.document c = some fields
            ↔ ∃ s, p.text w = some s ∧ Json.IsTextOf s (.object fields))
          ∧ (∀ (p : NodePart) s, (∃ v ∈ warnings, v.field = p.field ∧ v.raw = s)
            ↔ p.text w = some s ∧ s ≠ "" ∧ ¬ ∃ fields, Json.IsTextOf s (.object fields))
          ∧ (∀ p : NodePart, (p.document c = none ∧ ∀ v ∈ warnings, v.field ≠ p.field)
            ↔ p.text w = none ∨ p.text w = some "")
          ∧ (warnings.map (·.field)).Sublist
            ["custom_app_config", "custom_consensus_config", "custom_client_config"]
          ∧ ∀ app consensus client c' warnings',
            decodeWithWarnings levels { w with app, consensus, client } = .ok (c', warnings') →
              c'.withoutDocuments = c.withoutDocuments := by
  refine ⟨exists_decodeWithWarnings_iff, fun c warnings h => ?_⟩
  replace h := decodeWithWarnings_eq_ok.1 h
  refine ⟨?_, ?_, ?_, h.map_field_sublist, ?_⟩
  · intro p fields
    obtain ⟨warning, hreads, -⟩ := h.exists_readsDocument p
    exact hreads.document_eq_some
  · intro p s
    obtain ⟨warning, hreads, hwarning⟩ := h.exists_readsDocument p
    have hexists := hreads.exists_warning_iff (s := s)
    simp only [← hwarning, and_assoc] at hexists
    exact hexists
  · intro p
    obtain ⟨warning, hreads, hwarning⟩ := h.exists_readsDocument p
    have hnone : warning = none ↔ ∀ v ∈ warnings, v.field ≠ p.field := by
      simp only [Option.eq_none_iff_forall_ne_some, ne_eq, ← hwarning, not_and]
    rw [← hnone]
    exact hreads.eq_none_iff
  · intro app consensus client c' warnings' h'
    exact h.withoutDocuments_eq (decodeWithWarnings_eq_ok.1 h')

/-- The text of an object is kept as a document, and that of an array is reported. -/
theorem decodeWithWarnings_twoTexts :
    let w : Wire.Chain := { consensus := some "\x7b\"ok\": true\x7d", client := some "[1, 2]" }
    ∃ c warnings, decodeWithWarnings 1 w = .ok (c, warnings)
      ∧ c.consensus = some [("ok", .bool true)]
      ∧ ∃ v ∈ warnings, v.field = "custom_client_config" ∧ v.raw = "[1, 2]" := by
  intro w
  obtain ⟨hloads, hdocuments⟩ := decodeWithWarnings_documents 1 w
  obtain ⟨⟨c, warnings⟩, hdecode⟩ := hloads.2 (by decide +kernel)
  obtain ⟨hdocument, hwarning, -⟩ := hdocuments c warnings hdecode
  have hobject : Json.read 1 "\x7b\"ok\": true\x7d" = .ok (.ok (.object [("ok", .bool true)])) := by
    decide +kernel
  have harray : Json.read 1 "[1, 2]" = .ok (.ok (.array [.int 1, .int 2])) := by decide +kernel
  refine ⟨c, warnings, hdecode, ?_, ?_⟩
  · exact (hdocument .consensus _).2 ⟨_, rfl, Json.isTextOf_of_read hobject⟩
  · refine (hwarning .client "[1, 2]").2 ⟨rfl, by decide, ?_⟩
    rintro ⟨fields, htext⟩
    cases htext.unique (Json.isTextOf_of_read harray)

section TooDeep

variable {levels : Nat} {s : String} {cause : Json.TooDeep}
  (hread : Json.read levels s = .error cause)
include hread

theorem decodeWithWarnings_app_tooDeep (hne : s ≠ "") :
    decodeWithWarnings levels { app := some s } = .error cause := by
  simp only [decodeWithWarnings, Json.readDocument, hne, if_false, Json.document, hread, bind,
    Except.bind]

theorem decodeWithWarnings_edit_tooDeep (key : String) :
    decodeWithWarnings levels { edits := [⟨key, s⟩] } = .error cause := by
  simp only [decodeWithWarnings, Json.readDocument, GenesisEdit.decodeAll, List.mapM_cons,
    GenesisEdit.decode, GenesisEdit.ofValueText, hread, bind, Except.bind]

end TooDeep

/-- A row of opening brackets is neither empty nor the JSON text of an object, but it is not
reported: as a document and as a genesis value alike it makes the decoder fail. -/
theorem decodeWithWarnings_brackets :
    decodeWithWarnings Json.defaultLevels { app := some (Json.brackets 100000) } = .error .array
      ∧ decodeWithWarnings Json.defaultLevels { edits := [⟨"k", Json.brackets 100000⟩] }
        = .error .array := by
  have hread : Json.read Json.defaultLevels (Json.brackets 100000) = .error .array :=
    Json.read_brackets (by decide)
  exact ⟨decodeWithWarnings_app_tooDeep hread (Json.brackets_ne_empty (by decide)),
    decodeWithWarnings_edit_tooDeep hread "k"⟩

end Trialnet.Chain
