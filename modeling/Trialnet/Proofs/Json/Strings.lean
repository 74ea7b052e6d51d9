import Trialnet.Json.Printer
import Trialnet.Json.Reader
import Trialnet.Proofs.Payload.Success

/-!
# String literals

`IsStringBody` says what may stand between the quotes of a string literal and what it stands
for: characters for themselves, escapes of one letter, and escapes of UTF-16 units.  Two units
that make a pair are always read as a pair, so that a text stands for one string only.  The
reader of strings accepts exactly these bodies (`string_eq_ok`), and a literal is written as
one, a character at a time; so it is read as the text it was written for, whatever follows it.
-/

namespace Trialnet.Json

/-! ### Four digits in base sixteen -/

theorem hexDigit?_digitChar : ∀ d < 16, hexDigit? d.digitChar = some d := by decide

/-- A number of 16 bits has four digits in base sixteen, zeros in front included. -/
theorem hex_four {n : Nat} (h : n < 0x10000) :
    Text.hex 4 n = [(n / 4096).digitChar, (n / 256 % 16).digitChar, (n / 16 % 16).digitChar,
      (n % 16).digitChar] := by
  have step : ∀ k, 16 ≤ k → Nat.toDigits 16 k = Nat.toDigits 16 (k / 16) ++ [(k % 16).digitChar] :=
    fun k hk => Nat.toDigits_of_base_le (by decide) hk
  have last : ∀ k, k < 16 → Nat.toDigits 16 k = [k.digitChar] :=
    fun k hk => Nat.toDigits_of_lt_base hk
  have zero : Nat.digitChar 0 = '0' := rfl
  have h2 : n / 16 / 16 = n / 256 := Nat.div_div_eq_div_mul n 16 16
  have h3 : n / 256 / 16 = n / 4096 := Nat.div_div_eq_div_mul n 256 16
  rw [Text.hex]
  -- by the number of digits without leading zeros
  by_cases h16 : n < 16
  · rw [last n h16, show n / 4096 = 0 by omega, show n / 256 % 16 = 0 by omega,
      show n / 16 % 16 = 0 by omega, show n % 16 = n by omega, zero]
    rfl
  by_cases h256 : n < 256
  · rw [step n (by omega), last (n / 16) (by omega), show n / 4096 = 0 by omega,
      show n / 256 % 16 = 0 by omega, show n / 16 % 16 = n / 16 by omega, zero]
    rfl
  by_cases h4096 : n < 4096
  · rw [step n (by omega), step (n / 16) (by omega), h2, last (n / 256) (by omega),
      show n / 4096 = 0 by omega, show n / 256 % 16 = n / 256 by omega, zero]
    rfl
  · rw [step n (by omega), step (n / 16) (by omega), h2, step (n / 256) (by omega), h3,
      last (n / 4096) (by omega)]
    rfl

theorem hex4?_eq_some {cs rest : List Char} {n : Nat} :
    hex4? cs = some (n, rest) ↔ ∃ a b c d w x y z, cs = a :: b :: c :: d :: rest
      ∧ hexDigit? a = some w ∧ hexDigit? b = some x ∧ hexDigit? c = some y ∧ hexDigit? d = some z
      ∧ ((w * 16 + x) * 16 + y) * 16 + z = n := by
  constructor
  · intro h
    unfold hex4? at h
    split at h
    · simp only [Option.bind_eq_bind, Option.bind_eq_some_iff] at h
      obtain ⟨w, hw, x, hx, y, hy, z, hz, h⟩ := h
      obtain ⟨rfl, rfl⟩ := Prod.mk.inj (Option.some.inj h)
      exact ⟨_, _, _, _, w, x, y, z, rfl, hw, hx, hy, hz, rfl⟩
    · cases h
  · rintro ⟨a, b, c, d, w, x, y, z, rfl, hw, hx, hy, hz, rfl⟩
    simp [hex4?, hw, hx, hy, hz]

/-- The text is four digits of the number in base sixteen. -/
def IsUnitText (ds : List Char) (n : Nat) : Prop := hex4? ds = some (n, [])

theorem IsUnitText.length {ds : List Char} {n : Nat} (h : IsUnitText ds n) : ds.length = 4 := by
  obtain ⟨a, b, c, d, w, x, y, z, rfl, -⟩ := hex4?_eq_some.1 h
  rfl

/-- The first four characters are read, whatever follows them. -/
theorem hex4?_eq_some_iff_isUnitText {cs rest : List Char} {n : Nat} :
    hex4? cs = some (n, rest) ↔ ∃ ds, IsUnitText ds n ∧ cs = ds ++ rest := by
  constructor
  · intro h
    obtain ⟨a, b, c, d, w, x, y, z, rfl, hdigits⟩ := hex4?_eq_some.1 h
    exact ⟨[a, b, c, d], hex4?_eq_some.2 ⟨a, b, c, d, w, x, y, z, rfl, hdigits⟩, rfl⟩
  · rintro ⟨ds, h, rfl⟩
    obtain ⟨a, b, c, d, w, x, y, z, rfl, hdigits⟩ := hex4?_eq_some.1 h
    exact hex4?_eq_some.2 ⟨a, b, c, d, w, x, y, z, rfl, hdigits⟩

theorem isUnitText_hex {n : Nat} (h : n < 0x10000) : IsUnitText (Text.hex 4 n) n := by
  have h0 := hexDigit?_digitChar (n / 4096) (by omega)
  have h1 := hexDigit?_digitChar (n / 256 % 16) (by omega)
  have h2 := hexDigit?_digitChar (n / 16 % 16) (by omega)
  have h3 := hexDigit?_digitChar (n % 16) (by omega)
  exact hex4?_eq_some.2 ⟨_, _, _, _, _, _, _, _, hex_four h, h0, h1, h2, h3, by omega⟩

/-! ### Escapes of UTF-16 units -/

/-- The digits of a unit are read if at least one character follows them. -/
theorem unit_eq_ok {cs rest : List Char} {n : Nat} :
    unit cs = .ok (n, rest) ↔ ∃ ds, IsUnitText ds n ∧ cs = ds ++ rest ∧ rest ≠ [] := by
  constructor
  · intro h
    unfold unit at h
    split at h
    · rename_i m c after hhex
      obtain ⟨rfl, rfl⟩ := Prod.mk.inj (Except.ok.inj h)
      obtain ⟨ds, hds, hcs⟩ := hex4?_eq_some_iff_isUnitText.1 hhex
      exact ⟨ds, hds, hcs, List.cons_ne_nil c after⟩
    · cases h
  · rintro ⟨ds, hds, hcs, hrest⟩
    obtain ⟨c, after, rfl⟩ := List.exists_cons_of_ne_nil hrest
    simp only [unit, hex4?_eq_some_iff_isUnitText.2 ⟨ds, hds, hcs⟩]

/-- The text begins with the escape of a unit that is the second of a pair. -/
def BeginsLow (cs : List Char) : Prop :=
  ∃ ds n rest, IsUnitText ds n ∧ isLowSurrogate n = true ∧ cs = '\\' :: 'u' :: (ds ++ rest)

theorem BeginsLow.append {cs : List Char} (h : BeginsLow cs) (rest : List Char) :
    BeginsLow (cs ++ rest) := by
  obtain ⟨ds, n, after, hds, hlow, rfl⟩ := h
  exact ⟨ds, n, after ++ rest, hds, hlow, by simp⟩

theorem BeginsLow.length {cs : List Char} (h : BeginsLow cs) : 6 ≤ cs.length := by
  obtain ⟨ds, n, after, hds, -, rfl⟩ := h
  simp only [List.length_cons, List.length_append, hds.length]
  omega

/-- Two units that make a pair are read as one character. -/
theorem unicodeEscape_pair {high low rest : List Char} {m n : Nat} (hm : IsUnitText high m)
    (hhigh : isHighSurrogate m = true) (hn : IsUnitText low n) (hlow : isLowSurrogate n = true)
    (hrest : rest ≠ []) :
    unicodeEscape (high ++ '\\' :: 'u' :: (low ++ rest)) = .ok (charOfPair m n, rest) := by
  have hfirst : unit (high ++ '\\' :: 'u' :: (low ++ rest))
      = .ok (m, '\\' :: 'u' :: (low ++ rest)) :=
    unit_eq_ok.2 ⟨high, hm, rfl, List.cons_ne_nil _ _⟩
  have hsecond : unit (low ++ rest) = .ok (n, rest) := unit_eq_ok.2 ⟨low, hn, rfl, hrest⟩
  have hlength : ¬ ('\\' :: 'u' :: (low ++ rest)).length ≤ 6 := by
    have := List.length_pos_iff.2 hrest
    simp only [List.length_append, List.length_cons, hn.length]
    omega
  simp only [unicodeEscape, hfirst, hhigh, hlength, hsecond, hlow, bind, Except.bind, pure,
    Except.pure, if_true, if_false]

/-- A unit is read as a character of its own, unless it is the first of a pair and the escape
after it does not stand for a unit that is no second. -/
theorem unicodeEscape_unit {ds rest : List Char} {n : Nat} (hn : IsUnitText ds n)
    (hrest : rest ≠ [])
    (halone : isHighSurrogate n = true → ∀ more, rest = '\\' :: 'u' :: more →
      ∃ m after, unit more = .ok (m, after) ∧ isLowSurrogate m = false) :
    unicodeEscape (ds ++ rest) = .ok (charOfUnit n, rest) := by
  have hfirst : unit (ds ++ rest) = .ok (n, rest) := unit_eq_ok.2 ⟨ds, hn, rfl, hrest⟩
  rw [unicodeEscape, hfirst]
  simp only [bind, Except.bind, pure, Except.pure]
  split
  · rename_i more hhigh
    obtain ⟨m, after, hunit, hlow⟩ := halone hhigh more rfl
    simp only [hunit, hlow, Bool.false_eq_true, if_false, ite_self]
  · rfl

/-- What is read after the `u` of an escape: a pair of units or a single one. -/
theorem cases_of_unicodeEscape {cs rest : List Char} {c : Char}
    (h : unicodeEscape cs = .ok (c, rest)) :
    (∃ high low m n, IsUnitText high m ∧ isHighSurrogate m = true ∧ IsUnitText low n
        ∧ isLowSurrogate n = true ∧ cs = high ++ '\\' :: 'u' :: (low ++ rest) ∧ c = charOfPair m n)
      ∨ ∃ ds n, IsUnitText ds n ∧ cs = ds ++ rest ∧ c = charOfUnit n
          ∧ (isHighSurrogate n = true → BeginsLow rest → rest.length ≤ 6) := by
  rw [unicodeEscape] at h
  obtain ⟨⟨n, afterFirst⟩, hfirst, h⟩ := bind_eq_ok.1 h
  obtain ⟨ds, hds, hcs, -⟩ := unit_eq_ok.1 hfirst
  dsimp only at h
  split at h
  · rename_i more hhigh
    split at h
    · rename_i hshort
      obtain ⟨rfl, rfl⟩ := Prod.mk.inj (Except.ok.inj h)
      exact Or.inr ⟨ds, n, hds, hcs, rfl, fun _ _ => hshort⟩
    · obtain ⟨⟨m, afterSecond⟩, hsecond, h⟩ := bind_eq_ok.1 h
      obtain ⟨low, hlow, rfl, -⟩ := unit_eq_ok.1 hsecond
      dsimp only at h
      split at h
      · rename_i hm
        obtain ⟨rfl, rfl⟩ := Prod.mk.inj (Except.ok.inj h)
        exact Or.inl ⟨ds, low, n, m, hds, hhigh, hlow, hm, hcs, rfl⟩
      · rename_i hm
        obtain ⟨rfl, rfl⟩ := Prod.mk.inj (Except.ok.inj h)
        refine Or.inr ⟨ds, n, hds, hcs, rfl, fun _ hbegins => absurd ?_ hm⟩
        -- the four digits after the escape determine its unit
        obtain ⟨ds', m', after, hds', hm', heq⟩ := hbegins
        have hlow' := (List.cons.inj (List.cons.inj heq).2).2
        have hunit := hex4?_eq_some_iff_isUnitText.2 ⟨ds', hds', hlow'⟩
        rw [hex4?_eq_some_iff_isUnitText.2 ⟨low, hlow, rfl⟩] at hunit
        obtain ⟨rfl, -⟩ := Prod.mk.inj (Option.some.inj hunit)
        exact hm'
  · rename_i hno
    obtain ⟨rfl, rfl⟩ := Prod.mk.inj (Except.ok.inj h)
    refine Or.inr ⟨ds, n, hds, hcs, rfl, fun hhigh hbegins => ?_⟩
    obtain ⟨ds', m, after, -, -, rfl⟩ := hbegins
    exact absurd rfl (hno _ hhigh)

/-! ### Bodies of string literals -/

/-- The characters between the quotes of a string literal, and those they stand for. -/
inductive IsStringBody : List Char → List Char → Prop
  | nil : IsStringBody [] []
  /-- A character stands for itself, unless it is a quote, a backslash or a control character. -/
  | plain {c : Char} {body cs : List Char} (hquote : c ≠ '"') (hslash : c ≠ '\\')
      (hcontrol : 0x20 ≤ c.toNat) (hbody : IsStringBody body cs) :
      IsStringBody (c :: body) (c :: cs)
  /-- An escape of one letter. -/
  | letter {e c : Char} {body cs : List Char} (he : simpleEscape? e = some c)
      (hbody : IsStringBody body cs) : IsStringBody ('\\' :: e :: body) (c :: cs)
  /-- The escape of a unit that does not make a pair with the next one. -/
  | unit {ds body cs : List Char} {n : Nat} (hn : IsUnitText ds n)
      (halone : isHighSurrogate n = true → ¬ BeginsLow body) (hbody : IsStringBody body cs) :
      IsStringBody ('\\' :: 'u' :: (ds ++ body)) (charOfUnit n :: cs)
  /-- The escapes of two units that make a pair. -/
  | pair {high low body cs : List Char} {m n : Nat} (hm : IsUnitText high m)
      (hhigh : isHighSurrogate m = true) (hn : IsUnitText low n) (hlow : isLowSurrogate n = true)
      (hbody : IsStringBody body cs) :
      IsStringBody ('\\' :: 'u' :: (high ++ '\\' :: 'u' :: (low ++ body))) (charOfPair m n :: cs)

/-- The letter `u` is followed by the digits of a unit. -/
theorem IsStringBody.exists_unit {more cs : List Char}
    (h : IsStringBody ('\\' :: 'u' :: more) cs) :
    ∃ ds n after, IsUnitText ds n ∧ more = ds ++ after := by
  cases h with
  | plain hquote hslash => exact absurd rfl hslash
  | letter he => cases he
  | unit hn => exact ⟨_, _, _, hn, rfl⟩
  | pair hm => exact ⟨_, _, _, hm, rfl⟩

/-- The closing quote is no part of an escape. -/
theorem exists_escape_of_append {body rest more : List Char}
    (h : body ++ '"' :: rest = '\\' :: 'u' :: more) : ∃ after, body = '\\' :: 'u' :: after := by
  cases body with
  | nil => exact absurd (List.cons.inj h).1 (by decide)
  | cons c body =>
    obtain ⟨rfl, htail⟩ := List.cons.inj h
    cases body with
    | nil => exact absurd (List.cons.inj htail).1 (by decide)
    | cons d after =>
      obtain ⟨rfl, -⟩ := List.cons.inj htail
      exact ⟨after, rfl⟩

section Steps

variable (opened steps : Nat) {c e : Char} {rest : List Char}

/-- What a reader does with one more character in front of a string. -/
def consChar (c : Char) (found : Found (List Char)) : Found (List Char) := (c :: found.1, found.2)

/-- An escape of one letter is read in one step. -/
theorem stringBody_simple (h : simpleEscape? e = some c) :
    stringBody opened (steps + 1) ('\\' :: e :: rest)
      = (stringBody opened steps rest).map (consChar c) := by
  have he : e ≠ 'u' := by
    rintro rfl
    exact absurd h (by simp [simpleEscape?])
  rw [stringBody]
  · simp only [show ('\\' : Char) ≠ '"' by decide, if_true, if_false, h]
    rfl
  · exact he

/-- An escape by digits is read in one step. -/
theorem stringBody_unicode {afterU : List Char} (h : unicodeEscape afterU = .ok (c, rest)) :
    stringBody opened (steps + 1) ('\\' :: 'u' :: afterU)
      = (stringBody opened steps rest).map (consChar c) := by
  simp only [stringBody, show ('\\' : Char) ≠ '"' by decide, if_true, if_false, h]
  rfl

/-- A character that stands for itself is read in one step. -/
theorem stringBody_plain (hquote : c ≠ '"') (hslash : c ≠ '\\') (hcontrol : 0x20 ≤ c.toNat) :
    stringBody opened (steps + 1) (c :: rest)
      = (stringBody opened steps rest).map (consChar c) := by
  have hcontrol' : ¬ c.toNat ≤ 0x1F := by omega
  simp only [stringBody, hquote, hslash, hcontrol', if_false]
  rfl

end Steps

/-- A body is read as what it stands for, each character in one step. -/
theorem stringBody_append (opened : Nat) {body cs : List Char} (h : IsStringBody body cs)
    (rest : List Char) :
    ∀ steps, body.length < steps →
      stringBody opened steps (body ++ '"' :: rest) = .ok (cs, rest) := by
  induction h with
  | nil =>
    intro steps hsteps
    obtain ⟨k, rfl⟩ : ∃ k, steps = k + 1 := ⟨steps - 1, by omega⟩
    simp [stringBody]
  | plain hquote hslash hcontrol hbody ih =>
    intro steps hsteps
    simp only [List.length_cons] at hsteps
    obtain ⟨k, rfl⟩ : ∃ k, steps = k + 1 := ⟨steps - 1, by omega⟩
    rw [List.cons_append, stringBody_plain opened k hquote hslash hcontrol, ih k (by omega)]
    rfl
  | letter he hbody ih =>
    intro steps hsteps
    simp only [List.length_cons] at hsteps
    obtain ⟨k, rfl⟩ : ∃ k, steps = k + 1 := ⟨steps - 1, by omega⟩
    rw [List.cons_append, List.cons_append, stringBody_simple opened k he, ih k (by omega)]
    rfl
  | @unit ds body cs n hn halone hbody ih =>
    intro steps hsteps
    simp only [List.length_cons, List.length_append] at hsteps
    obtain ⟨k, rfl⟩ : ∃ k, steps = k + 1 := ⟨steps - 1, by omega⟩
    have hread : unicodeEscape (ds ++ (body ++ '"' :: rest))
        = .ok (charOfUnit n, body ++ '"' :: rest) := by
      refine unicodeEscape_unit hn (by simp) (fun hhigh more hmore => ?_)
      -- the next escape is part of the body, and there it stands for a unit
      obtain ⟨body', rfl⟩ := exists_escape_of_append hmore
      obtain ⟨ds', m, after, hm, rfl⟩ := hbody.exists_unit
      have hmore' : more = ds' ++ (after ++ '"' :: rest) := by
        simpa using hmore.symm
      refine ⟨m, after ++ '"' :: rest, unit_eq_ok.2 ⟨ds', hm, hmore', by simp⟩, ?_⟩
      refine Bool.eq_false_iff.2 fun hlow => halone hhigh ⟨ds', m, after, hm, hlow, rfl⟩
    rw [List.cons_append, List.cons_append, List.append_assoc,
      stringBody_unicode opened k hread, ih k (by omega)]
    rfl
  | @pair high low body cs m n hm hhigh hn hlow hbody ih =>
    intro steps hsteps
    simp only [List.length_cons, List.length_append] at hsteps
    obtain ⟨k, rfl⟩ : ∃ k, steps = k + 1 := ⟨steps - 1, by omega⟩
    have hread := unicodeEscape_pair hm hhigh hn hlow
      (List.append_ne_nil_of_right_ne_nil body (List.cons_ne_nil '"' rest))
    simp only [List.cons_append, List.append_assoc]
    rw [stringBody_unicode opened k hread, ih k (by omega)]
    rfl

/-- The escape that is read in front of a body makes a longer body. -/
theorem IsStringBody.unicodeEscape {body cs afterU rest : List Char} {c : Char}
    (hbody : IsStringBody body cs) (h : unicodeEscape afterU = .ok (c, body ++ '"' :: rest)) :
    ∃ more, IsStringBody more (c :: cs) ∧ '\\' :: 'u' :: afterU = more ++ '"' :: rest := by
  rcases cases_of_unicodeEscape h with
    ⟨high, low, m, n, hm, hhigh, hn, hlow, hafter, hchar⟩ | ⟨ds, n, hn, hafter, hchar, hshort⟩
  · rw [hafter, hchar]
    exact ⟨_, .pair hm hhigh hn hlow hbody, by simp only [List.cons_append, List.append_assoc]⟩
  · rw [hafter, hchar]
    refine ⟨_, .unit hn (fun hhigh hbegins => ?_) hbody, by
      simp only [List.cons_append, List.append_assoc]⟩
    -- a body that begins with a second unit is too long to be overlooked
    have hlong := hbegins.length
    have hle := hshort hhigh (hbegins.append _)
    simp only [List.length_append, List.length_cons] at hle
    omega

/-- What is read up to the closing quote is a body. -/
theorem isStringBody_of_stringBody {opened : Nat} (steps : Nat) :
    ∀ {text cs rest : List Char}, stringBody opened steps text = .ok (cs, rest) →
      ∃ body, IsStringBody body cs ∧ text = body ++ '"' :: rest := by
  induction steps with
  | zero =>
    intro text cs rest h
    cases text <;> cases h
  | succ steps ih =>
    intro text cs rest h
    cases text with
    | nil => cases h
    | cons c text =>
      rw [stringBody.eq_def] at h
      dsimp only at h
      split at h
      · rename_i hquote
        obtain ⟨rfl, rfl⟩ := Prod.mk.inj (Except.ok.inj h)
        exact ⟨[], .nil, by rw [hquote, List.nil_append]⟩
      rename_i hquote
      split at h
      · rename_i hslash
        subst hslash
        split at h
        · cases h
        · obtain ⟨⟨x, afterEscape⟩, hx, h⟩ := bind_eq_ok.1 h
          dsimp only at h
          obtain ⟨⟨xs, after⟩, hxs, h⟩ := bind_eq_ok.1 h
          obtain ⟨rfl, rfl⟩ := Prod.mk.inj (Except.ok.inj h)
          obtain ⟨body, hbody, rfl⟩ := ih hxs
          exact hbody.unicodeEscape hx
        · split at h
          · cases h
          · rename_i x hx
            obtain ⟨⟨xs, after⟩, hxs, h⟩ := bind_eq_ok.1 h
            obtain ⟨rfl, rfl⟩ := Prod.mk.inj (Except.ok.inj h)
            obtain ⟨body, hbody, rfl⟩ := ih hxs
            exact ⟨_, .letter hx hbody, rfl⟩
      · rename_i hslash
        split at h
        · cases h
        · rename_i hcontrol
          obtain ⟨⟨xs, after⟩, hxs, h⟩ := bind_eq_ok.1 h
          obtain ⟨rfl, rfl⟩ := Prod.mk.inj (Except.ok.inj h)
          obtain ⟨body, hbody, rfl⟩ := ih hxs
          exact ⟨_, .plain hquote hslash (by omega) hbody, rfl⟩

/-- What is read as a string is a body and the closing quote. -/
theorem string_eq_ok {text rest : List Char} {s : String} :
    string text = .ok (s, rest)
      ↔ ∃ body, IsStringBody body s.toList ∧ text = body ++ '"' :: rest := by
  constructor
  · intro h
    rw [string] at h
    obtain ⟨⟨cs, after⟩, hbody, h⟩ := bind_eq_ok.1 h
    obtain ⟨rfl, rfl⟩ := Prod.mk.inj (Except.ok.inj h)
    rw [String.toList_ofList]
    exact isStringBody_of_stringBody _ hbody
  · rintro ⟨body, hbody, rfl⟩
    have hlength : body.length < (body ++ '"' :: rest).length := by
      simp only [List.length_append, List.length_cons]
      omega
    simp only [string, stringBody_append _ hbody rest _ hlength, bind, Except.bind, pure,
      Except.pure, String.ofList_toList]

/-! ### Literals -/

/-- A character is no half of a pair of units. -/
theorem not_surrogate (c : Char) :
    isHighSurrogate c.toNat = false ∧ isLowSurrogate c.toNat = false := by
  have hvalid : c.toNat < 0xD800 ∨ 0xDFFF < c.toNat ∧ c.toNat < 0x110000 := c.valid
  simp only [isHighSurrogate, isLowSurrogate, decide_eq_false_iff_not]
  omega

/-- What a character is written as: by a letter, by the digits of one or of two units, or as
itself. -/
theorem escape_cases (c : Char) :
    (∃ e, simpleEscape? e = some c ∧ escape c = ['\\', e])
      ∨ (c ≠ '"' ∧ c ≠ '\\' ∧ 0x20 ≤ c.toNat ∧ c.toNat < 0x7F ∧ escape c = [c])
      ∨ (c.toNat < 0x10000 ∧ escape c = unitEscape c.toNat)
      ∨ ∃ n < 0x100000, c.toNat = 0x10000 + n
          ∧ escape c = unitEscape (0xD800 + n / 0x400) ++ unitEscape (0xDC00 + n % 0x400) := by
  by_cases hsimple : c ∈ ['"', '\\', '\n', '\r', '\t', '\x08', '\x0C']
  · refine Or.inl ?_
    simp only [List.mem_cons, List.not_mem_nil, or_false] at hsimple
    rcases hsimple with rfl | rfl | rfl | rfl | rfl | rfl | rfl
    · exact ⟨'"', rfl, rfl⟩
    · exact ⟨'\\', rfl, rfl⟩
    · exact ⟨'n', rfl, rfl⟩
    · exact ⟨'r', rfl, rfl⟩
    · exact ⟨'t', rfl, rfl⟩
    · exact ⟨'b', rfl, rfl⟩
    · exact ⟨'f', rfl, rfl⟩
  · simp only [List.mem_cons, List.not_mem_nil, or_false, not_or] at hsimple
    obtain ⟨h1, h2, h3, h4, h5, h6, h7⟩ := hsimple
    simp only [escape, h1, h2, h3, h4, h5, h6, h7, if_false]
    by_cases hplain : 0x20 ≤ c.toNat ∧ c.toNat < 0x7F
    · exact Or.inr (Or.inl ⟨h1, h2, hplain.1, hplain.2, by simp only [hplain, and_self, if_true]⟩)
    by_cases hunit : c.toNat < 0x10000
    · exact Or.inr (Or.inr (Or.inl ⟨hunit, by simp only [hplain, hunit, if_true, if_false]⟩))
    · have hvalid : c.toNat < 0x110000 := by
        have hrange : c.toNat < 0xD800 ∨ 0xDFFF < c.toNat ∧ c.toNat < 0x110000 := c.valid
        omega
      obtain ⟨n, hn⟩ : ∃ n, c.toNat = 0x10000 + n := ⟨c.toNat - 0x10000, by omega⟩
      have hsub : c.toNat - 0x10000 = n := by omega
      refine Or.inr (Or.inr (Or.inr ⟨n, by omega, hn, ?_⟩))
      rw [if_neg hplain, if_neg hunit, hsub]

/-- Whatever a character is written as stands for it. -/
theorem IsStringBody.escape (c : Char) {body cs : List Char} (hbody : IsStringBody body cs) :
    IsStringBody (escape c ++ body) (c :: cs) := by
  rcases escape_cases c with ⟨e, he, hc⟩ | ⟨hquote, hslash, hcontrol, -, hc⟩ | ⟨hunit, hc⟩
    | ⟨n, hn, hnat, hc⟩
  · rw [hc]
    exact .letter he hbody
  · rw [hc]
    exact .plain hquote hslash hcontrol hbody
  · -- one unit, which is no half of a pair
    obtain ⟨hhigh, hlow⟩ := not_surrogate c
    have hchar : charOfUnit c.toNat = c := by simp [charOfUnit, hhigh, hlow]
    have hread := IsStringBody.unit (isUnitText_hex hunit)
      (fun h => absurd (hhigh.symm.trans h) Bool.false_ne_true) hbody
    rw [hc]
    rwa [hchar] at hread
  · -- the two surrogates, each in its own range
    have hhigh : isHighSurrogate (0xD800 + n / 0x400) = true := by
      simp only [isHighSurrogate, decide_eq_true_eq]
      omega
    have hlow : isLowSurrogate (0xDC00 + n % 0x400) = true := by
      simp only [isLowSurrogate, decide_eq_true_eq]
      omega
    have hchar : charOfPair (0xD800 + n / 0x400) (0xDC00 + n % 0x400) = c := by
      rw [charOfPair, show 0x10000 + (0xD800 + n / 0x400 - 0xD800) * 0x400
        + (0xDC00 + n % 0x400 - 0xDC00) = c.toNat by omega]
      exact Char.ofNat_toNat c
    have hread := IsStringBody.pair (isUnitText_hex (show 0xD800 + n / 0x400 < 0x10000 by omega))
      hhigh (isUnitText_hex (show 0xDC00 + n % 0x400 < 0x10000 by omega)) hlow hbody
    rw [hc, List.append_assoc]
    rwa [hchar] at hread

/-- The escapes of characters stand for them. -/
theorem isStringBody_escapes (cs : List Char) : IsStringBody (cs.flatMap escape) cs := by
  induction cs with
  | nil => exact .nil
  | cons c cs ih =>
    rw [List.flatMap_cons]
    exact ih.escape c

end Trialnet.Json
