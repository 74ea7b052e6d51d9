import Trialnet.Proofs.Datum.Keys
import Trialnet.Proofs.Json.Doubles
import Trialnet.Proofs.Json.Nesting

/-!
# What is written is read back

Every datum that has a JSON text is read back from it, if no object inside has a key twice and the
levels of the reader suffice: by induction on the datum, what is printed is a text of it in the
grammar (`denotes_print`), with no blanks between its parts, and the reader accepts what the grammar
derives.
-/

namespace Trialnet.Json

/-! ### Words and numbers -/

theorem denotes_int {levels : Nat} {n : Int} (h : Numeral.isWritable n = true) :
    Denotes levels (Numeral.chars n) (.value (.int n)) := by
  rw [← chars_intParts]
  exact .number (isWritten_intParts n) (isExponent_exponentChars _) (value_intParts h)

theorem denotes_float {levels : Nat} {policy : NonFinite} {x : Binary64} {cs : List Char}
    (h : float policy x = .ok cs) : Denotes levels cs (.value (.float x)) := by
  cases x with
  | finite s p =>
    obtain rfl := Except.ok.inj h
    obtain ⟨parts, hparts, hwritten, hvalue⟩ := exists_parts_finite s p
    rw [← hparts]
    exact .number hwritten (isExponent_exponentChars _) hvalue
  | nan =>
    cases policy with
    | refused => cases h
    | spelled =>
      obtain rfl := Except.ok.inj h
      exact .word (by simp [words])
  | infinite s =>
    cases policy with
    | refused => cases h
    | spelled =>
      cases s with
      | true =>
        obtain rfl := Except.ok.inj h
        exact .word (by simp [words])
      | false =>
        obtain rfl := Except.ok.inj h
        exact .word (by simp [words])

/-! ### Lists of values and of fields -/

/-- The text of several values is the text of the first, a comma and the text of the others. -/
theorem printItems_cons_cons {policy : NonFinite} {x y : Datum} {ys : List Datum}
    {body : List Char} (h : printItems policy (x :: y :: ys) = .ok body) :
    ∃ first more, print policy x = .ok first ∧ printItems policy (y :: ys) = .ok more
      ∧ body = first ++ ',' :: more := by
  rw [printItems] at h
  · obtain ⟨first, hx, h⟩ := bind_eq_ok.1 h
    obtain ⟨more, hys, h⟩ := bind_eq_ok.1 h
    exact ⟨first, more, hx, hys, (Except.ok.inj h).symm⟩
  · exact List.cons_ne_nil y ys

theorem printFields_singleton {policy : NonFinite} {k : String} {x : Datum} {body : List Char}
    (h : printFields policy [(k, x)] = .ok body) :
    ∃ first, print policy x = .ok first ∧ body = literal k ++ ':' :: first := by
  rw [printFields] at h
  obtain ⟨first, hx, h⟩ := bind_eq_ok.1 h
  exact ⟨first, hx, (Except.ok.inj h).symm⟩

theorem printFields_cons_cons {policy : NonFinite} {k : String} {x : Datum}
    {f : String × Datum} {fs : Fields} {body : List Char}
    (h : printFields policy ((k, x) :: f :: fs) = .ok body) :
    ∃ first more, print policy x = .ok first ∧ printFields policy (f :: fs) = .ok more
      ∧ body = literal k ++ ':' :: first ++ ',' :: more := by
  rw [printFields] at h
  · obtain ⟨first, hx, h⟩ := bind_eq_ok.1 h
    obtain ⟨more, hfs, h⟩ := bind_eq_ok.1 h
    exact ⟨first, more, hx, hfs, (Except.ok.inj h).symm⟩
  · exact List.cons_ne_nil f fs

/-! ### What is printed is a text of the grammar -/

section Printed

variable {policy : NonFinite}

mutual

/-- What is printed of a value is a text of it, with as many levels as the value has. -/
theorem denotes_print : ∀ d : Datum, d.WellKeyed → ∀ {levels}, d.nesting ≤ levels → ∀ {cs},
    print policy d = .ok cs → Denotes levels cs (.value d)
  | .null => by
    intro _ levels _ cs h
    obtain rfl := Except.ok.inj h
    exact .word (by simp [words])
  | .bool true => by
    intro _ levels _ cs h
    obtain rfl := Except.ok.inj h
    exact .word (by simp [words])
  | .bool false => by
    intro _ levels _ cs h
    obtain rfl := Except.ok.inj h
    exact .word (by simp [words])
  | .int n => by
    intro _ levels _ cs h
    rw [print] at h
    split at h
    · rename_i hn
      obtain rfl := Except.ok.inj h
      exact denotes_int hn
    · cases h
  | .float x => fun _ _ _ _ h => denotes_float h
  | .text s => by
    intro _ levels _ cs h
    obtain rfl := Except.ok.inj h
    exact .text (isStringBody_escapes s.toList)
  | .array items => by
    intro hd levels hlevels cs h
    obtain ⟨levels, rfl⟩ := Nat.exists_eq_add_of_le' (Nat.le_trans (Nat.le_add_left 1 _) hlevels)
    rw [print] at h
    obtain ⟨body, hbody, h⟩ := bind_eq_ok.1 h
    obtain rfl := Except.ok.inj h
    by_cases hitems : items = []
    · subst hitems
      obtain rfl := Except.ok.inj hbody
      exact .emptyArray blanks_nil
    · exact .array blanks_nil
        (denotes_printItems items hitems hd (Nat.le_of_succ_le_succ hlevels) hbody)
  | .object fields => by
    intro hd levels hlevels cs h
    obtain ⟨levels, rfl⟩ := Nat.exists_eq_add_of_le' (Nat.le_trans (Nat.le_add_left 1 _) hlevels)
    rw [print] at h
    obtain ⟨body, hbody, h⟩ := bind_eq_ok.1 h
    obtain rfl := Except.ok.inj h
    by_cases hfields : fields = []
    · subst hfields
      obtain rfl := Except.ok.inj hbody
      exact .emptyObject blanks_nil
    · have hobject := Denotes.object blanks_nil
        (denotes_printFields fields hfields hd.2 (Nat.le_of_succ_le_succ hlevels) hbody)
      rwa [Fields.ofWrites_eq_self hd.1] at hobject
  | .back => by
    intro _ levels _ cs h
    cases h
  | .foreign typeName => by
    intro _ levels _ cs h
    cases h

/-- What is printed of at least one item is a text of the items. -/
theorem denotes_printItems : ∀ items, items ≠ [] → Datum.WellKeyedItems items → ∀ {levels},
    Datum.nestingItems items ≤ levels → ∀ {cs}, printItems policy items = .ok cs →
      Denotes levels cs (.items items)
  | [] => fun hne => absurd rfl hne
  | [x] => by
    intro _ hd levels hlevels cs h
    have hlast := Denotes.lastItem
      (denotes_print x hd.1 (Nat.le_trans (Nat.le_max_left _ _) hlevels) h) blanks_nil
    rwa [List.append_nil] at hlast
  | x :: y :: ys => by
    intro _ hd levels hlevels cs h
    obtain ⟨hfirstLevels, hmoreLevels⟩ := Nat.max_le.1 hlevels
    obtain ⟨first, more, hfirst, hmore, rfl⟩ := printItems_cons_cons h
    exact .item (denotes_print x hd.1 hfirstLevels hfirst) blanks_nil blanks_nil
      (denotes_printItems (y :: ys) (List.cons_ne_nil y ys) hd.2 hmoreLevels hmore)

/-- What is printed of at least one field is a text of the fields. -/
theorem denotes_printFields : ∀ fields : Fields, fields ≠ [] → Datum.WellKeyedFields fields →
    ∀ {levels}, Datum.nestingFields fields ≤ levels → ∀ {cs}, printFields policy fields = .ok cs →
      Denotes levels cs (.fields fields)
  | [] => fun hne => absurd rfl hne
  | [(k, x)] => by
    intro _ hd levels hlevels cs h
    obtain ⟨first, hfirst, rfl⟩ := printFields_singleton h
    have hlast := Denotes.lastField (isStringBody_escapes k.toList) blanks_nil blanks_nil
      (denotes_print x hd.1 (Nat.le_trans (Nat.le_max_left _ _) hlevels) hfirst) blanks_nil
    simpa [literal] using hlast
  | (k, x) :: f :: fs => by
    intro _ hd levels hlevels cs h
    obtain ⟨hfirstLevels, hmoreLevels⟩ := Nat.max_le.1 hlevels
    obtain ⟨first, more, hfirst, hmore, rfl⟩ := printFields_cons_cons h
    have hfield := Denotes.field (isStringBody_escapes k.toList) blanks_nil blanks_nil
      (denotes_print x hd.1 hfirstLevels hfirst) blanks_nil blanks_nil
      (denotes_printFields (f :: fs) (List.cons_ne_nil f fs) hd.2 hmoreLevels hmore)
    simpa [literal] using hfield

end

end Printed

/-! ### Whole texts -/

theorem write_eq_ok {d : Datum} {s : String} :
    write d = .ok s ↔ print .refused d = .ok s.toList := by
  rw [write]
  cases hcs : print .refused d with
  | error e => exact ⟨nofun, nofun⟩
  | ok cs =>
    constructor
    · intro h
      obtain rfl := Except.ok.inj h
      rw [String.toList_ofList]
    · intro h
      rw [Except.ok.inj h]
      exact congrArg _ (String.ofList_toList)

theorem writeLoose_eq_ok {d : Datum} {s : String} :
    writeLoose d = .ok s ↔ print .spelled d = .ok s.toList := by
  rw [writeLoose]
  cases hcs : print .spelled d with
  | error e => exact ⟨nofun, nofun⟩
  | ok cs =>
    constructor
    · intro h
      obtain rfl := Except.ok.inj h
      rw [String.toList_ofList]
    · intro h
      rw [Except.ok.inj h]
      exact congrArg _ (String.ofList_toList)

theorem isNestedTextOf_of_print {policy : NonFinite} {levels : Nat} {d : Datum}
    (hd : d.WellKeyed) (hlevels : d.nesting ≤ levels) {s : String}
    (h : print policy d = .ok s.toList) : IsNestedTextOf levels s d :=
  ⟨[], s.toList, [], blanks_nil, denotes_print d hd hlevels h, blanks_nil, by simp⟩

/-- What is written of a value is a JSON text of it. -/
theorem isTextOf_of_write {d : Datum} (hd : d.WellKeyed) {s : String} (h : write d = .ok s) :
    IsTextOf s d := ⟨_, isNestedTextOf_of_print hd le_rfl (write_eq_ok.1 h)⟩

/-- The JSON text of a value in which `NaN` and infinities may occur is read as the value, if the
value has no more levels than there are. -/
theorem read_writeLoose {levels : Nat} {d : Datum} (hd : d.WellKeyed) (hlevels : d.nesting ≤ levels)
    {s : String} (h : writeLoose d = .ok s) : read levels s = .ok (.ok d) :=
  read_eq_ok.2 (isNestedTextOf_of_print hd hlevels (writeLoose_eq_ok.1 h))

end Trialnet.Json
