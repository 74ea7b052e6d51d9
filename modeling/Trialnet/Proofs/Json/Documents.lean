import Trialnet.Json.Document
import Trialnet.Proofs.Json.Nesting

/-!
# Documents and warnings

What becomes of the text of a document (`readsDocument`): no text and an empty one stand for
none, the JSON text of an object stands for that object, and any other text is dropped with a
warning that names its field and quotes it.  That is so of every text that loads; one that does not
is not dropped, but makes the reading fail (`exists_readDocument_iff`).
-/

namespace Trialnet.Json

/-- The text is the JSON text of some object. -/
def HoldsObject (s : String) : Prop := ∃ fields, IsTextOf s (.object fields)

variable {levels : Nat}

theorem loads_empty : Loads levels "" := loads_of_opened_le (Nat.zero_le _)

/-- A text that loads holds an object or has a problem. -/
theorem document_cases {s : String} (h : Loads levels s) :
    (∃ fields, IsTextOf s (.object fields) ∧ document levels s = .ok (.ok fields))
      ∨ (¬ HoldsObject s ∧ ∃ problem, document levels s = .ok (.error problem)) := by
  obtain ⟨verdict, hverdict⟩ := loads_iff.1 h
  have hread : ∀ {d}, IsTextOf s d → verdict = .ok d := fun htext =>
    Except.ok.inj (hverdict.symm.trans (htext.read_of_loads h))
  rw [document, hverdict]
  cases verdict with
  | error fault =>
    refine Or.inr ⟨?_, _, rfl⟩
    rintro ⟨fields, htext⟩
    cases hread htext
  | ok d =>
    cases d with
    | object fields => exact Or.inl ⟨fields, isTextOf_of_read hverdict, rfl⟩
    | null | bool | int | float | text | array | back | foreign =>
      refine Or.inr ⟨?_, _, rfl⟩
      rintro ⟨fields, htext⟩
      cases hread htext

theorem document_of_not_loads {s : String} (h : ¬ Loads levels s) :
    ∃ cause, document levels s = .error cause := by
  obtain ⟨cause, hread⟩ := not_loads_iff.1 h
  exact ⟨cause, by rw [document, hread]; rfl⟩

/-- What becomes of the text of a field: the document that is read from it, and the warning. -/
inductive ReadsDocument (field : String) : Option String → Option Fields → Option Warning → Prop
  | absent : ReadsDocument field none none none
  | empty : ReadsDocument field (some "") none none
  | document {s : String} {fields : Fields} (htext : IsTextOf s (.object fields)) :
      ReadsDocument field (some s) (some fields) none
  | broken {s : String} {problem : Problem} (hne : s ≠ "") (htext : ¬ HoldsObject s) :
      ReadsDocument field (some s) none (some ⟨field, s, problem⟩)

/-- A text that loads is read as a document or dropped. -/
theorem exists_readsDocument (field : String) {raw : Option String}
    (h : ∀ s, raw = some s → Loads levels s) :
    ∃ r, readDocument levels field raw = .ok r ∧ ReadsDocument field raw r.1 r.2 := by
  cases raw with
  | none => exact ⟨_, rfl, .absent⟩
  | some s =>
    rw [readDocument]
    split
    · rename_i hempty
      rw [hempty]
      exact ⟨_, rfl, .empty⟩
    · rename_i hne
      rcases document_cases (h s rfl) with
        ⟨fields, htext, hdocument⟩ | ⟨hbroken, problem, hdocument⟩
      · rw [hdocument]
        exact ⟨_, rfl, .document htext⟩
      · rw [hdocument]
        exact ⟨_, rfl, .broken hne hbroken⟩

/-- A text is read as a document or dropped exactly if it loads. -/
theorem exists_readDocument_iff (field : String) {raw : Option String} :
    (∃ r, readDocument levels field raw = .ok r) ↔ ∀ s, raw = some s → Loads levels s := by
  constructor
  · rintro ⟨r, hr⟩ s rfl
    by_contra hdeep
    have hne : s ≠ "" := by
      rintro rfl
      exact hdeep loads_empty
    obtain ⟨cause, hcause⟩ := document_of_not_loads hdeep
    rw [readDocument, if_neg hne, hcause] at hr
    cases hr
  · intro h
    obtain ⟨r, hr, -⟩ := exists_readsDocument field h
    exact ⟨r, hr⟩

theorem readsDocument {field : String} {raw : Option String} {r : Option Fields × Option Warning}
    (h : readDocument levels field raw = .ok r) : ReadsDocument field raw r.1 r.2 := by
  obtain ⟨r', hr', hreads⟩ := exists_readsDocument field ((exists_readDocument_iff field).1 ⟨r, h⟩)
  rwa [Except.ok.inj (h.symm.trans hr')]

namespace ReadsDocument

variable {field : String} {raw : Option String} {document : Option Fields}
  {warning : Option Warning}

/-- The document is there exactly if the text is the JSON text of an object, and then it is that
object. -/
theorem document_eq_some (h : ReadsDocument field raw document warning) {fields : Fields} :
    document = some fields ↔ ∃ s, raw = some s ∧ IsTextOf s (.object fields) := by
  cases h with
  | absent => simp
  | empty =>
    simp only [Option.some.injEq, exists_eq_left', reduceCtorEq, false_iff]
    exact fun htext => htext.ne_empty rfl
  | document htext =>
    simp only [Option.some.injEq, exists_eq_left']
    constructor
    · rintro rfl
      exact htext
    · exact fun htext' => Datum.object.inj (htext.unique htext')
  | broken hne htext =>
    simp only [Option.some.injEq, exists_eq_left', reduceCtorEq, false_iff]
    exact fun htext' => htext ⟨fields, htext'⟩

/-- A warning names the field. -/
theorem field_eq (h : ReadsDocument field raw document warning) {v : Warning}
    (hv : warning = some v) : v.field = field := by
  cases h with
  | broken =>
    obtain rfl := Option.some.inj hv
    rfl
  | _ => cases hv

/-- The text is quoted in a warning exactly if it is neither empty nor the text of an object. -/
theorem exists_warning_iff (h : ReadsDocument field raw document warning) {s : String} :
    (∃ v, warning = some v ∧ v.raw = s) ↔ raw = some s ∧ s ≠ "" ∧ ¬ HoldsObject s := by
  cases h with
  | absent => simp
  | empty => simp +contextual [eq_comm]
  | @document s' fields htext =>
    simp only [reduceCtorEq, false_and, exists_false, Option.some.injEq, false_iff]
    rintro ⟨rfl, -, hbroken⟩
    exact hbroken ⟨fields, htext⟩
  | broken hne htext =>
    simp only [Option.some.injEq, exists_eq_left']
    constructor
    · rintro rfl
      exact ⟨rfl, hne, htext⟩
    · exact fun h => h.1

/-- Only no text and an empty one give neither a document nor a warning. -/
theorem eq_none_iff (h : ReadsDocument field raw document warning) :
    document = none ∧ warning = none ↔ raw = none ∨ raw = some "" := by
  cases h with
  | absent => simp
  | empty => simp
  | document htext =>
    simp only [reduceCtorEq, false_and, Option.some.injEq, false_or, false_iff]
    exact htext.ne_empty
  | broken hne => simp [hne]

end ReadsDocument

end Trialnet.Json
