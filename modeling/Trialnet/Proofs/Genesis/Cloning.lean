import Trialnet.Error
import Trialnet.Proofs.Genesis.RoundTrip

/-!
# Genesis edits that are sent again

Texts travel without quotes and other values as JSON, so what a value is has to be guessed anew
whenever it is read.  A value that was read is guessed right the next time, with one exception: a
text that is itself JSON.  Only quotes can have protected it the first time, and it is sent
without them.  As no text is a JSON text of itself, it always becomes another value.

Quotes also protect a text from being found to be nested too deeply.  Whatever else was read once is
read again, since it is not nested more deeply when it is sent (`loads_of_encodesTo_ofEntry`); of
the texts among the values this is assumed.
-/

namespace Trialnet.GenesisEdit

/-- The text is a JSON string whose contents are JSON again. -/
def HoldsQuotedJson (raw : String) : Prop :=
  ∃ s d, Json.IsTextOf raw (.text s) ∧ Json.IsTextOf s d

/-- The edits after they have been sent and read back so many times. -/
def sentTimes (levels : Nat) : Nat → List GenesisEdit → Except Error (List GenesisEdit)
  | 0, es => .ok es
  | rounds + 1, es => do
    let ws ← (encodeAll es).mapError .encode
    let es ← (decodeAll levels ws).mapError .tooDeep
    sentTimes levels rounds es

/-! ### One edit -/

theorem wellKeyed_valueOf (raw : String) : (valueOf raw).WellKeyed := by
  rcases standsFor_valueOf raw with ⟨levels, htext⟩ | ⟨-, hself⟩
  · exact (Json.storable_of_read (Json.read_eq_ok.2 htext)).wellKeyed
  · rw [hself]
    trivial

/-- An edit that was read holds JSON if its text did so between quotes. -/
theorem holdsJson_ofEntry_iff {w : Wire.GenesisEntry} :
    (ofEntry w).HoldsJson ↔ HoldsQuotedJson w.value := by
  constructor
  · rintro ⟨s, d, hs, hd⟩
    rcases standsFor_valueOf w.value with htext | ⟨hword, hself⟩
    · exact ⟨s, d, (show valueOf w.value = .text s from hs) ▸ htext, hd⟩
    · -- a text that stands for itself is no JSON
      obtain rfl := Datum.text.inj (hself.symm.trans hs)
      exact absurd ⟨d, hd⟩ hword
  · rintro ⟨s, d, hs, hd⟩
    exact ⟨s, d, valueOf_of_isTextOf hs, hd⟩

/-- What was read is sent as a text that loads again, if it does in case it is a text itself: any
other value is not nested more deeply than the text it was read from. -/
theorem loads_of_encodesTo_ofEntry {levels : Nat} {w w' : Wire.GenesisEntry}
    (hloads : Json.Loads levels w.value)
    (htexts : ∀ s, (ofEntry w).value = .text s → Json.Loads levels s)
    (h : (ofEntry w).EncodesTo w') : Json.Loads levels w'.value := by
  rcases valueText_eq_ok.1 h.value with hvalue | ⟨hne, hwrite⟩
  · exact htexts _ hvalue
  · have htext : Json.IsTextOf w.value (valueOf w.value) :=
      (standsFor_valueOf w.value).resolve_right fun hself => hne _ hself.2
    have hstorable := Json.storable_of_read (htext.read_of_loads hloads)
    exact Json.loads_of_read (Json.read_eq_ok.2 (Json.isNestedTextOf_of_print hstorable.wellKeyed
      hstorable.nesting_le (Json.write_eq_ok.1 hwrite)))

/-! ### Lists of edits -/

theorem forall_loads_of_encodesTo_ofEntry {levels : Nat} {ws ws' : List Wire.GenesisEntry}
    (h : List.Forall₂ (fun w w' => (ofEntry w).EncodesTo w') ws ws')
    (hloads : ∀ w ∈ ws, Json.Loads levels w.value)
    (htexts : ∀ w ∈ ws, ∀ s, (ofEntry w).value = .text s → Json.Loads levels s) :
    ∀ w' ∈ ws', Json.Loads levels w'.value := by
  induction h with
  | nil => exact fun w' hw' => absurd hw' List.not_mem_nil
  | cons hw _ ih =>
    rw [List.forall_mem_cons] at hloads htexts
    exact List.forall_mem_cons.2
      ⟨loads_of_encodesTo_ofEntry hloads.1 htexts.1 hw, ih hloads.2 htexts.2⟩

theorem map_settled_ofEntry_iff {ws : List Wire.GenesisEntry} :
    (ws.map ofEntry).map settled = ws.map ofEntry ↔ ∀ w ∈ ws, ¬ HoldsQuotedJson w.value := by
  rw [map_settled_eq_self_iff, List.forall_mem_map]
  exact forall₂_congr fun w _ => not_congr holdsJson_ofEntry_iff

/-- Edits that come back as they are come back as they are every time. -/
theorem sentTimes_eq_self {levels : Nat} {es : List GenesisEdit} {ws : List Wire.GenesisEntry}
    (hencode : encodeAll es = .ok ws) (hback : decodeAll levels ws = .ok es) (rounds : Nat) :
    sentTimes levels rounds es = .ok es := by
  induction rounds with
  | zero => rfl
  | succ rounds ih =>
    rw [sentTimes, hencode]
    simp only [Except.mapError, bind, Except.bind, hback]
    exact ih

/-- Edits that were read and can be sent again come back with their keys, and with texts replaced
by what they stand for.  They come back as they are, however often they are sent, exactly if none
was read from a JSON string of JSON.  The texts among the values are taken not to be nested too
deeply. -/
theorem decodeAll_resent {levels : Nat} {ws ws' : List Wire.GenesisEntry} {es : List GenesisEdit}
    (hdecode : decodeAll levels ws = .ok es) (hencode : encodeAll es = .ok ws')
    (htexts : ∀ e ∈ es, ∀ s, e.value = .text s → Json.Loads levels s) :
    decodeAll levels ws' = .ok (es.map settled)
      ∧ (decodeAll levels ws' = .ok es ↔ ∀ w ∈ ws, ¬ HoldsQuotedJson w.value)
      ∧ ((∀ w ∈ ws, ¬ HoldsQuotedJson w.value) →
          ∀ rounds, sentTimes levels rounds es = .ok es) := by
  obtain ⟨hloads, rfl⟩ := decodeAll_eq_ok.1 hdecode
  have hencodes : List.Forall₂ EncodesTo (ws.map ofEntry) ws' :=
    (mapM_eq_ok.1 hencode).imp fun _ _ => encode_eq_ok.1
  have hkeys : ∀ e ∈ ws.map ofEntry, e.value.WellKeyed := by
    intro e he
    obtain ⟨w, -, rfl⟩ := List.mem_map.1 he
    exact wellKeyed_valueOf w.value
  have hback := decodeAll_of_encodesTo hkeys hencodes
    (forall_loads_of_encodesTo_ofEntry (List.forall₂_map_left_iff.1 hencodes) hloads
      (List.forall_mem_map.1 htexts))
  have hiff : decodeAll levels ws' = .ok (ws.map ofEntry)
      ↔ ∀ w ∈ ws, ¬ HoldsQuotedJson w.value := by
    rw [hback, Except.ok.injEq, map_settled_ofEntry_iff]
  exact ⟨hback, hiff, fun hnone => sentTimes_eq_self hencode (hiff.2 hnone)⟩

/-- A number written at length, a word, and a quoted word: all three are kept. -/
theorem decodeAll_resent_word :
    let ws : List Wire.GenesisEntry := [⟨"a", "[1.50]"⟩, ⟨"b", "x"⟩, ⟨"c", "\"y\""⟩]
    ∃ es ws', decodeAll 1 ws = .ok es ∧ encodeAll es = .ok ws' ∧ decodeAll 1 ws' = .ok es
      ∧ ∀ rounds, sentTimes 1 rounds es = .ok es := by
  intro ws
  have hdecode : decodeAll 1 ws
      = .ok [⟨"a", .array [.float (Binary64.ofDecimal false 15 (-1))]⟩, ⟨"b", .text "x"⟩,
        ⟨"c", .text "y"⟩] := by
    decide +kernel
  have hencode : encodeAll [⟨"a", .array [.float (Binary64.ofDecimal false 15 (-1))]⟩,
      ⟨"b", .text "x"⟩, ⟨"c", .text "y"⟩]
      = .ok [⟨"a", "[1.5]"⟩, ⟨"b", "x"⟩, ⟨"c", "y"⟩] := by
    decide +kernel
  have hsame : decodeAll 1 [⟨"a", "[1.5]"⟩, ⟨"b", "x"⟩, ⟨"c", "y"⟩] = decodeAll 1 ws := by
    decide +kernel
  have hx : Json.Loads 1 "x" := by decide +kernel
  have hy : Json.Loads 1 "y" := by decide +kernel
  obtain ⟨-, hiff, hrounds⟩ := decodeAll_resent hdecode hencode (by simp [hx, hy])
  exact ⟨_, _, hdecode, hencode, hsame.trans hdecode, hrounds (hiff.1 (hsame.trans hdecode))⟩

/-- A quoted number is read as a text, sent without its quotes and read back as a number. -/
theorem decodeAll_resent_quotedNumber :
    let ws : List Wire.GenesisEntry := [⟨"n", "\"123\""⟩]
    ∃ es ws', decodeAll Json.defaultLevels ws = .ok es ∧ encodeAll es = .ok ws'
      ∧ decodeAll Json.defaultLevels ws' ≠ .ok es := by
  intro ws
  exact ⟨[⟨"n", .text "123"⟩], [⟨"n", "123"⟩], by decide +kernel, by decide +kernel,
    by decide +kernel⟩

end Trialnet.GenesisEdit
