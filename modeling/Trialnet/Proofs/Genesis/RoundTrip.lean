import Trialnet.Proofs.Binary64.Sums
import Trialnet.Proofs.Chain.Reload
import Trialnet.Proofs.Chain.Representable
import Trialnet.Proofs.Json.Parsed

/-!
# Genesis edits that are sent once

An edit that is sent and read back keeps its value, unless the value is a text that is JSON.  Such
a text never comes back: what it is read as is no text, or a shorter one.  Whether values are
compared as they are or up to the spelling of numbers makes no difference, since a value that can
be sent has no NaN inside and is the same as itself.
-/

namespace Trialnet

open Json

namespace Datum

/-! ### Values that are the same as themselves -/

mutual

/-- A value without NaN and without references back is the same as itself. -/
theorem same_self : ∀ d : Datum, d.WellKeyed → Writable .refused d → d.same d = true
  | .null, _, _ => by simp [same]
  | .bool _, _, _ => by simp only [same, units?, decide_true]
  | .int _, _, _ => by simp only [same, units?, decide_true]
  | .text _, _, _ => by simp [same]
  | .float x, _, hfinite => by
    obtain ⟨s, p, rfl⟩ := Binary64.exists_eq_finite (hfinite.resolve_left (by decide))
    simp [same, Binary64.sameValue]
  | .array items, hkeys, hwritable => by
    rw [same]
    exact sameItems_self items hkeys hwritable
  | .object fields, hkeys, hwritable => by
    rw [same, beq_self_eq_true, Bool.true_and]
    refine sameFields_of_lookup fields fields (fun f hf => ?_) hkeys.2 hwritable
    exact (Fields.lookup_eq_some_iff hkeys.1).2 hf
  | .back, _, h => h.elim
  | .foreign _, _, h => h.elim

theorem sameItems_self : ∀ items : List Datum, WellKeyedItems items →
    WritableItems .refused items → sameItems items items = true
  | [], _, _ => by simp [sameItems]
  | x :: xs, hkeys, hwritable => by
    rw [sameItems, same_self x hkeys.1 hwritable.1, sameItems_self xs hkeys.2 hwritable.2]
    rfl

/-- Fields are the same as those among which they are found. -/
theorem sameFields_of_lookup : ∀ fields others : Fields,
    (∀ f ∈ fields, others.lookup f.1 = some f.2) → WellKeyedFields fields →
      WritableFields .refused fields → sameFields fields others = true
  | [], _, _, _, _ => by simp [sameFields]
  | (k, x) :: xs, others, hlookup, hkeys, hwritable => by
    have hrest := sameFields_of_lookup xs others
      (fun f hf => hlookup f (List.mem_cons_of_mem _ hf)) hkeys.2 hwritable.2
    rw [sameFields, hlookup (k, x) List.mem_cons_self, hrest, Bool.and_true]
    exact same_self x hkeys.1 hwritable.1

end

/-- Only a text is the same as a text. -/
theorem eq_of_same_text {d : Datum} {s : String} (h : d.same (.text s) = true) : d = .text s := by
  cases d with
  | text t => simpa [same] using h
  | float x =>
    simp only [same, units?] at h
    split at h
    · rename_i heq
      cases heq
    · cases h
  | null | bool | int | array | object | back | foreign =>
    simp only [same, units?, Bool.false_eq_true] at h

end Datum

namespace GenesisEdit

/-! ### One edit -/

/-- The value is a text that is JSON. -/
def HoldsJson (e : GenesisEdit) : Prop := ∃ s d, e.value = .text s ∧ Json.IsTextOf s d

/-- What an edit comes back as: a text of JSON as another value, and anything else as it is. -/
structure ComesBack (e e' : GenesisEdit) : Prop where
  key : e'.key = e.key
  json : ∀ s d, e.value = .text s → Json.IsTextOf s d → e'.value = d ∧ d ≠ .text s
  word : ∀ s, e.value = .text s → (¬ ∃ d, Json.IsTextOf s d) → e'.value = .text s
  other : (∀ s, e.value ≠ .text s) → e'.value = e.value

theorem settled_of_text {e : GenesisEdit} {s : String} (h : e.value = .text s) :
    e.settled = ⟨e.key, valueOf s⟩ := by
  obtain ⟨key, value⟩ := e
  obtain rfl : value = .text s := h
  rfl

theorem comesBack_settled (e : GenesisEdit) : e.ComesBack e.settled := by
  by_cases htext : ∃ s, e.value = .text s
  · obtain ⟨s, hs⟩ := htext
    rw [settled_of_text hs]
    refine ⟨rfl, fun t d ht htext => ?_, fun t ht hword => ?_, fun h => absurd hs (h s)⟩
    · obtain rfl := Datum.text.inj (ht.symm.trans hs)
      refine ⟨valueOf_of_isTextOf htext, ?_⟩
      rintro rfl
      exact Json.not_isTextOf_self t htext
    · obtain rfl := Datum.text.inj (ht.symm.trans hs)
      exact valueOf_of_not_isTextOf hword
  · have hne : ∀ s, e.value ≠ .text s := fun s hs => htext ⟨s, hs⟩
    rw [settled_of_ne_text hne]
    exact ⟨rfl, fun s _ hs => absurd hs (hne s), fun s hs => absurd hs (hne s), fun _ => rfl⟩

/-- An edit comes back as it is exactly if its value is no text of JSON. -/
theorem settled_eq_self_iff {e : GenesisEdit} : e.settled = e ↔ ¬ e.HoldsJson := by
  have hback := comesBack_settled e
  constructor
  · rintro h ⟨s, d, hs, htext⟩
    obtain ⟨hvalue, hne⟩ := hback.json s d hs htext
    rw [h, hs] at hvalue
    exact hne hvalue.symm
  · intro h
    have hvalue : e.settled.value = e.value := by
      by_cases htext : ∃ s, e.value = .text s
      · obtain ⟨s, hs⟩ := htext
        rw [hs]
        exact hback.word s hs fun ⟨d, hd⟩ => h ⟨s, d, hs, hd⟩
      · exact hback.other fun s hs => htext ⟨s, hs⟩
    obtain ⟨key, value⟩ := e
    exact congrArg₂ GenesisEdit.mk hback.key hvalue

/-- An edit that can be sent comes back as the same up to the spelling of numbers exactly if it
comes back as it is. -/
theorem sameEdit_settled_iff {e : GenesisEdit} (hkeys : e.value.WellKeyed)
    (hwritable : Writable .refused e.value) :
    Chain.sameEdit e.settled e = true ↔ e.settled = e := by
  rw [Chain.sameEdit, Bool.and_eq_true, decide_eq_true_iff]
  constructor
  · rintro ⟨-, hsame⟩
    rw [settled_eq_self_iff]
    rintro ⟨s, d, hs, htext⟩
    obtain ⟨hvalue, hne⟩ := (comesBack_settled e).json s d hs htext
    rw [hs, hvalue] at hsame
    exact hne (Datum.eq_of_same_text hsame)
  · intro h
    rw [h]
    exact ⟨rfl, Datum.same_self _ hkeys hwritable⟩

/-! ### Lists of edits -/

theorem pairwise_iff {α : Type} {same : α → α → Bool} {as bs : List α} :
    Chain.pairwise same as bs = true ↔ List.Forall₂ (fun a b => same a b = true) as bs := by
  induction as generalizing bs with
  | nil => cases bs <;> simp [Chain.pairwise]
  | cons a as ih => cases bs <;> simp [Chain.pairwise, ih]

theorem map_settled_eq_self_iff {es : List GenesisEdit} :
    es.map settled = es ↔ ∀ e ∈ es, ¬ e.HoldsJson := by
  rw [← List.forall₂_eq_eq_eq, List.forall₂_map_left_iff, List.forall₂_same]
  exact forall₂_congr fun e _ => settled_eq_self_iff

/-- Edits that can be sent come back as they are exactly if none of their values is a text of JSON,
and it does not matter whether values are compared as they are or up to the spelling of numbers.
In any case an edit comes back with its key, and with its value unless that is a text of JSON,
which never comes back.  The texts that are sent are taken not to be nested too deeply. -/
theorem decodeAll_encodeAll_iff (levels : Nat) {es : List GenesisEdit}
    {ws : List Wire.GenesisEntry} (hkeys : ∀ e ∈ es, e.value.WellKeyed)
    (h : encodeAll es = .ok ws) (hloads : ∀ w ∈ ws, Json.Loads levels w.value) :
    ∃ es', decodeAll levels ws = .ok es'
      ∧ (es' = es ↔ ∀ e ∈ es, ¬ e.HoldsJson)
      ∧ (Chain.pairwise Chain.sameEdit es' es = true ↔ ∀ e ∈ es, ¬ e.HoldsJson)
      ∧ List.Forall₂ ComesBack es es' := by
  have hencodes : List.Forall₂ EncodesTo es ws := (mapM_eq_ok.1 h).imp fun _ _ => encode_eq_ok.1
  have hwritable : ∀ e ∈ es, Writable .refused e.value := fun e he =>
    exists_encodesTo_iff.1 (exists_forall₂_iff.1 ⟨ws, hencodes⟩ e he)
  refine ⟨es.map settled, decodeAll_of_encodesTo hkeys hencodes hloads, ?_⟩
  rw [pairwise_iff, List.forall₂_map_left_iff, List.forall₂_same, List.forall₂_map_right_iff,
    List.forall₂_same]
  refine ⟨map_settled_eq_self_iff, forall₂_congr fun e he => ?_, fun e _ => comesBack_settled e⟩
  rw [sameEdit_settled_iff (hkeys e he) (hwritable e he), settled_eq_self_iff]

/-- A word, a list and a fraction come back as they are, and a quoted word without its quotes. -/
theorem decodeAll_encodeAll_quotedWord :
    let es : List GenesisEdit :=
      [⟨"denom", .text "atest"⟩, ⟨"list", .array [.text "1", .object [("b", .null)]]⟩]
    let quoted : List GenesisEdit := [⟨"n", .text "\"x\""⟩]
    (∀ e ∈ es ++ quoted, e.value.WellKeyed)
      ∧ (∃ ws, encodeAll es = .ok ws ∧ decodeAll 2 ws = .ok es)
      ∧ ∃ ws es', encodeAll quoted = .ok ws ∧ decodeAll 2 ws = .ok es' ∧ es' ≠ quoted := by
  intro es quoted
  have hes : ∀ e ∈ es, e.value.WellKeyed := by
    simp [es, Datum.WellKeyed, Datum.WellKeyedItems, Datum.WellKeyedFields, Fields.HasDistinctKeys]
  have hquoted : ∀ e ∈ quoted, e.value.WellKeyed := by simp [quoted, Datum.WellKeyed]
  have hencode : encodeAll es
      = .ok [⟨"denom", "atest"⟩, ⟨"list", "[\"1\",\x7b\"b\":null\x7d]"⟩] := by decide +kernel
  have hencode' : encodeAll quoted = .ok [⟨"n", "\"x\""⟩] := by decide +kernel
  have hquote : Json.read 0 "\"x\"" = .ok (.ok (.text "x")) := by decide +kernel
  have hloads : Json.Loads 0 "atest" := by decide +kernel
  have hword : (Json.read 0 "atest").toOption.map (·.toOption) = some none := by decide +kernel
  obtain ⟨es', hdecode, hiff, -⟩ := decodeAll_encodeAll_iff 2 hes hencode (by decide +kernel)
  obtain ⟨es'', hdecode', hiff', -⟩ :=
    decodeAll_encodeAll_iff 2 hquoted hencode' (by decide +kernel)
  refine ⟨fun e he => (List.mem_append.1 he).elim (hes e) (hquoted e), ⟨_, hencode, ?_⟩,
    ⟨_, es'', hencode', hdecode', fun h => ?_⟩⟩
  · rw [hdecode, hiff.2]
    rintro e he ⟨s, d, hs, hd⟩
    simp only [es, List.mem_cons, List.not_mem_nil, or_false] at he
    rcases he with rfl | rfl
    · obtain rfl := Datum.text.inj hs
      rw [hd.read_of_loads hloads] at hword
      cases hword
    · cases hs
  · exact hiff'.1 h _ List.mem_cons_self ⟨_, _, rfl, Json.isTextOf_of_read hquote⟩

end GenesisEdit

end Trialnet
