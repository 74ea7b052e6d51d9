import Trialnet.Proofs.Json.Storable

/-!
# What is read from a text

A value that was read from a text can be stored: no object inside has a key twice, since later
fields take the place of earlier ones, and no integer inside has too many digits to be written,
since such numerals are refused.  By induction on the derivation of the text.

A text that is read as a text is longer than what it is read as, because the quotes are not part
of it, and so no text is read as itself.
-/

namespace Trialnet.Json

/-! ### Storable values -/

/-- A number is read as an integer that is short enough to be written, or as a double. -/
theorem NumeralParts.storable_value {levels : Nat} {p : NumeralParts} (hp : p.IsWritten)
    {d : Datum} (h : p.value = .ok d) : Storable levels d := by
  rw [NumeralParts.value] at h
  split at h
  · split at h
    · cases h
    · rename_i hlength
      obtain rfl := Except.ok.inj h
      have hshort : p.whole.length ≤ Numeral.maxDigits := Nat.not_lt.1 hlength
      refine ⟨trivial, Numeral.isWritable_of_natAbs_eq_value hp.whole_digits hshort ?_,
        Nat.zero_le _⟩
      split <;> simp
  · obtain rfl := Except.ok.inj h
    exact storable_float _

theorem storable_word {levels : Nat} {cs : List Char} {d : Datum} (h : (cs, d) ∈ words) :
    Storable levels d := by
  simp only [words, List.mem_cons, Prod.mk.injEq, List.not_mem_nil, or_false] at h
  rcases h with ⟨-, rfl⟩ | ⟨-, rfl⟩ | ⟨-, rfl⟩ | ⟨-, rfl⟩ | ⟨-, rfl⟩ | ⟨-, rfl⟩
  · exact ⟨trivial, trivial, Nat.zero_le _⟩
  · exact storable_bool true
  · exact storable_bool false
  · exact storable_float _
  · exact storable_float _
  · exact storable_float _

/-- Fields that are written one after the other leave an object without repeated keys. -/
theorem storable_ofWrites {levels : Nat} {writes : Fields}
    (h : ∀ f ∈ writes, Storable levels f.2) :
    Storable (levels + 1) (.object (Fields.ofWrites writes)) :=
  storable_object (Fields.hasDistinctKeys_ofWrites writes)
    fun f hf => h f (Fields.mem_of_mem_ofWrites hf)

/-- All values of the phrase are storable. -/
def Phrase.IsStorable (levels : Nat) : Phrase → Prop
  | .value d => Storable levels d
  | .items xs => ∀ x ∈ xs, Storable levels x
  | .fields writes => ∀ f ∈ writes, Storable levels f.2

/-- What a text stands for is storable with the levels that the text takes. -/
theorem Denotes.isStorable {levels : Nat} {cs : List Char} {p : Phrase} (h : Denotes levels cs p) :
    p.IsStorable levels := by
  induction h with
  | text => exact storable_text _
  | word hword => exact storable_word hword
  | number hp hexpo hd => exact NumeralParts.storable_value hp hd
  | emptyArray => exact storable_array fun x hx => absurd hx List.not_mem_nil
  | array hblanks hitems ih => exact storable_array ih
  | emptyObject =>
    exact storable_object Fields.hasDistinctKeys_nil fun f hf => absurd hf List.not_mem_nil
  | object hblanks hfields ih => exact storable_ofWrites ih
  | lastItem hvalue hblanks ih => exact List.forall_mem_singleton.2 ih
  | item hvalue hbefore hafter hmore ihvalue ihmore =>
    exact List.forall_mem_cons.2 ⟨ihvalue, ihmore⟩
  | lastField hkey hbefore hafter hvalue hblanks ih => exact List.forall_mem_singleton.2 ih
  | field hkey hbefore hafter hvalue hblanks hbetween hmore ihvalue ihmore =>
    exact List.forall_mem_cons.2 ⟨ihvalue, ihmore⟩

/-- What is read from a text can be stored and read again. -/
theorem storable_of_read {levels : Nat} {s : String} {d : Datum}
    (h : read levels s = .ok (.ok d)) : Storable levels d := by
  obtain ⟨before, cs, after, -, hcs, -, -⟩ := read_eq_ok.1 h
  exact hcs.isStorable

/-! ### Texts of texts -/

/-- Each character of a string takes at least one character of its literal. -/
theorem IsStringBody.length_le {body cs : List Char} (h : IsStringBody body cs) :
    cs.length ≤ body.length := by
  induction h with
  | nil => exact Nat.le_refl 0
  | plain hquote hslash hcontrol hbody ih => exact Nat.succ_le_succ ih
  | letter he hbody ih =>
    simp only [List.length_cons]
    omega
  | unit hn halone hbody ih =>
    simp only [List.length_cons, List.length_append]
    omega
  | pair hm hhigh hn hlow hbody ih =>
    simp only [List.length_cons, List.length_append]
    omega

/-- A text of a text is a literal of it: no word and no number is a text. -/
theorem Denotes.exists_body {levels : Nat} {cs : List Char} {s : String}
    (h : Denotes levels cs (.value (.text s))) :
    ∃ body, IsStringBody body s.toList ∧ cs = '"' :: (body ++ ['"']) := by
  cases h with
  | text hbody => exact ⟨_, hbody, rfl⟩
  | word hword => simp [words] at hword
  | @number levels p expo d hp hexpo hd =>
    rw [NumeralParts.value] at hd
    split at hd
    · split at hd <;> cases hd
    · cases hd

/-- A JSON text of a text is longer than it, because of the quotes. -/
theorem IsTextOf.length_lt {s t : String} (h : IsTextOf s (.text t)) : t.length < s.length := by
  obtain ⟨levels, before, cs, after, -, hcs, -, hs⟩ := h
  obtain ⟨body, hbody, rfl⟩ := hcs.exists_body
  have hlength := hbody.length_le
  rw [← String.length_toList, ← String.length_toList, hs]
  simp only [List.length_append, List.length_cons]
  omega

/-- No text is a JSON text of itself. -/
theorem not_isTextOf_self (s : String) : ¬ IsTextOf s (.text s) := fun h =>
  Nat.lt_irrefl _ h.length_lt

end Trialnet.Json
