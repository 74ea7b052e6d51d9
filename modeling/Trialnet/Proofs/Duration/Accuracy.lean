import Trialnet.Proofs.Duration.Exact

/-!
# How accurately durations are read

A text in parts denotes their exact total.  What the reader adds up instead is said by
`Accumulates`: the product of each part and each running sum are rounded to 28 digits before the
next part is looked at.  The reader finds that sum and nothing else, so it answers correctly
exactly if rounding neither changes a whole total nor makes one of a total that is not whole.

There is a good deal of room.  If no part has more than `k` decimals in seconds and the total is
less than `10 ^ (28 - k)`, then nothing is rounded.  Beyond that a digit may get lost.
-/

namespace Trialnet.Duration

/-! ### Adding up in 28 digits -/

/-- The parts add up to a number if each of them and each running sum is rounded. -/
inductive Accumulates : List Part → ℚ → Prop
  | nil : Accumulates [] 0
  | concat {ps : List Part} {p : Part} {sum summand next : ℚ} (earlier : Accumulates ps sum)
      (product : RoundsTo p.exact summand) (running : RoundsTo (sum + summand) next) :
      Accumulates (ps ++ [p]) next

theorem Part.roundsTo_seconds (p : Part) : RoundsTo p.exact p.seconds.value := by
  have hexact : p.amount.value * p.unit.seconds.value = p.exact := by
    rw [Part.value_amount, Unit.value_seconds, Part.exact]
  rw [← hexact]
  exact Amount.roundsTo_mul p.amount p.unit.seconds

theorem total_concat (ps : List Part) (p : Part) :
    total (ps ++ [p]) = (total ps).add p.seconds := by
  rw [total, List.foldl_append]
  rfl

/-- The reader's sum is the only one to which the parts add up. -/
theorem accumulates_iff {ps : List Part} {q : ℚ} : Accumulates ps q ↔ (total ps).value = q := by
  have hzero : (total []).value = 0 := by norm_num [total, Amount.zero, Amount.value]
  constructor
  · intro h
    induction h with
    | nil => exact hzero
    | @concat ps p sum summand next _ hproduct hrunning ih =>
      have hsummand : p.seconds.value = summand := p.roundsTo_seconds.unique hproduct
      rw [total_concat]
      refine (Amount.roundsTo_add (total ps) p.seconds).unique ?_
      rw [ih, hsummand]
      exact hrunning
  · rintro rfl
    induction ps using List.reverseRecOn with
    | nil =>
      rw [hzero]
      exact Accumulates.nil
    | append_singleton ps p ih =>
      rw [total_concat]
      exact Accumulates.concat ih p.roundsTo_seconds (Amount.roundsTo_add _ _)

theorem Accumulates.nonneg {ps : List Part} {q : ℚ} (h : Accumulates ps q) : 0 ≤ q := by
  cases h with
  | nil => exact le_rfl
  | concat _ _ running => exact running.nonneg

/-! ### Totals that are not rounded -/

/-- The number of decimals of a unit in seconds. -/
def Unit.places : Unit → ℕ
  | .millisecond => 3
  | _ => 0

/-- The number of decimals of a part in seconds. -/
def Part.places (p : Part) : ℕ := p.fraction.length + p.unit.places

theorem Unit.exists_natCast_exact (u : Unit) : ∃ n : ℕ, u.exact * 10 ^ u.places = n := by
  cases u with
  | hour => exact ⟨3600, by norm_num [Unit.exact, Unit.places]⟩
  | minute => exact ⟨60, by norm_num [Unit.exact, Unit.places]⟩
  | second => exact ⟨1, by norm_num [Unit.exact, Unit.places]⟩
  | millisecond => exact ⟨1, by norm_num [Unit.exact, Unit.places]⟩

theorem Part.exists_natCast_exact {p : Part} {k : ℕ} (h : p.places ≤ k) :
    ∃ n : ℕ, p.exact * 10 ^ k = n := by
  obtain ⟨j, rfl⟩ : ∃ j, k = p.fraction.length + p.unit.places + j :=
    ⟨_, (Nat.add_sub_cancel' h).symm⟩
  obtain ⟨n, hn⟩ := p.unit.exists_natCast_exact
  refine ⟨Text.digitsValue (p.whole ++ p.fraction) * n * 10 ^ j, ?_⟩
  rw [Part.exact, pow_add, pow_add]
  push_cast
  rw [← hn]
  field_simp

/-- A total of few digits is not rounded. -/
theorem isExact_of_places {raw : String} {ps : List Part} {k : ℕ}
    (hmade : IsMadeOf (trimmed raw) ps) (hplaces : ∀ p ∈ ps, p.places ≤ k)
    (htotal : exactTotal ps * 10 ^ k < 10 ^ Amount.precision) : IsExact raw :=
  isExact_of_parts? hmade.parts?
    (fitsPrecision_of_grain (fun p hp => Part.exists_natCast_exact (hplaces p hp)) htotal)

/-- Parts of whole seconds that add up to less than 28 digits do so without rounding: a part or a
running sum of more digits would leave a total of more digits. -/
theorem Accumulates.exactTotal_eq {ps : List Part} {q : ℚ} (h : Accumulates ps q)
    (hnatural : ∀ p ∈ ps, ∃ n : ℕ, p.exact = n) (hq : q < 10 ^ Amount.precision) :
    exactTotal ps = q := by
  induction h with
  | nil => rfl
  | @concat ps p sum summand next earlier product running ih =>
    have hps : ∀ r ∈ ps, ∃ n : ℕ, r.exact = n := fun r hr => hnatural r (by simp [hr])
    have hlt : sum + summand < 10 ^ Amount.precision :=
      lt_of_not_ge fun hge => absurd (running.precision_le hge) (not_le.2 hq)
    have hsum : exactTotal ps = sum := ih hps (by linarith [product.nonneg])
    have hsummand : summand = p.exact := by
      obtain ⟨n, hn⟩ := hnatural p (by simp)
      have hshort : p.exact < 10 ^ Amount.precision :=
        lt_of_not_ge fun hge => by linarith [product.precision_le hge, earlier.nonneg]
      rw [hn] at hshort
      exact product.eq_of_isShort (hn ▸ isShort_natCast (by exact_mod_cast hshort))
    have htotal : exactTotal (ps ++ [p]) = sum + summand := by
      rw [exactTotal_append, hsum, hsummand, exactTotal, List.map_singleton, List.sum_singleton]
    have hfits : FitsPrecision (ps ++ [p]) := fitsPrecision_of_natural hnatural (htotal ▸ hlt)
    rw [running.eq_of_isShort (htotal ▸ hfits.sum _ (List.prefix_refl _)), htotal]

/-! ### Reading -/

/-- The reader answers with the whole seconds that the text denotes, if it denotes any, with
nothing if the text is blank, and refuses every other text. -/
structure ReadsExactly (raw : String) : Prop where
  blank : read raw = .ok none ↔ IsBlank raw
  seconds : ∀ n, read raw = .ok (some n) ↔ Denotes raw n
  refused : (∃ e, read raw = .error e) ↔ ¬ IsBlank raw ∧ ∀ n, ¬ Denotes raw n

/-- There are no other answers than nothing, a number, and an error. -/
theorem exists_error_iff (raw : String) :
    (∃ e, read raw = .error e) ↔ read raw ≠ .ok none ∧ ∀ n, read raw ≠ .ok (some n) := by
  cases read raw with
  | error e => simp
  | ok found => cases found <;> simp

theorem readsExactly_iff_seconds {raw : String} :
    ReadsExactly raw ↔ ∀ n, read raw = .ok (some n) ↔ Denotes raw n := by
  refine ⟨ReadsExactly.seconds, fun h => ⟨read_eq_none, h, ?_⟩⟩
  rw [exists_error_iff, ne_eq, read_eq_none]
  exact and_congr_right fun _ => forall_congr' fun n => not_congr (h n)

theorem read_eq_some_accumulated {raw : String} {n : ℕ} :
    read raw = .ok (some n)
      ↔ IsNumber (trimmed raw) n ∨ ∃ ps, IsMadeOf (trimmed raw) ps ∧ Accumulates ps n := by
  rw [read_eq_some_total]
  exact or_congr_right (exists_congr fun ps => and_congr_right fun _ => accumulates_iff.symm)

theorem Denotes.unique {raw : String} {n m : ℕ} (hn : Denotes raw n) (hm : Denotes raw m) :
    n = m := by
  rcases hn with hnumber | ⟨ps, hmade, htotal⟩
  · rcases hm with hnumber' | ⟨ps, hmade, -⟩
    · exact hnumber.value.symm.trans hnumber'.value
    · exact absurd (List.all_eq_true.2 hnumber.digits) hmade.not_all
  · have htotal' : exactTotal ps = m :=
      (hmade.number_or_exists_iff fun qs => exactTotal qs = m).1 hm
    exact_mod_cast htotal.symm.trans htotal'

/-- Whether a number is the right answer can be told from the number alone. -/
theorem readsExactly_iff_of_read {raw : String} {n : ℕ} (h : read raw = .ok (some n)) :
    ReadsExactly raw ↔ Denotes raw n := by
  refine ⟨fun hexact => (hexact.seconds n).1 h, fun hn => readsExactly_iff_seconds.2 fun m => ?_⟩
  rw [h, Except.ok.injEq, Option.some.injEq]
  exact ⟨fun hm => hm ▸ hn, hn.unique⟩

/-- A text in parts is read correctly exactly if the same whole number, or none, comes out with
and without rounding. -/
theorem readsExactly_iff_accumulates {raw : String} :
    ReadsExactly raw ↔ ∀ ps, IsMadeOf (trimmed raw) ps →
      ∀ n : ℕ, Accumulates ps n ↔ exactTotal ps = n := by
  rw [readsExactly_iff_seconds]
  constructor
  · intro h ps hmade n
    have hread := hmade.number_or_exists_iff (n := n) fun qs => Accumulates qs n
    have hdenotes := hmade.number_or_exists_iff (n := n) fun qs => exactTotal qs = n
    rw [← hread, ← hdenotes, ← read_eq_some_accumulated]
    exact h n
  · intro h n
    rw [read_eq_some_accumulated, Denotes]
    exact or_congr_right (exists_congr fun ps => and_congr_right fun hps => h ps hps n)

/-- A text is read as the number that it is, or as the number to which its parts add up in 28
digits.  That is what it denotes exactly if rounding has no part in it, as in a total that has at
most 28 digits in front of the last decimal. -/
theorem read_accuracy (raw : String) :
    (read raw = .ok none ↔ IsBlank raw)
      ∧ (∀ n : ℕ, read raw = .ok (some n)
          ↔ IsNumber (trimmed raw) n ∨ ∃ ps, IsMadeOf (trimmed raw) ps ∧ Accumulates ps n)
      ∧ (ReadsExactly raw ↔ ∀ ps, IsMadeOf (trimmed raw) ps →
          ∀ n : ℕ, Accumulates ps n ↔ exactTotal ps = n)
      ∧ (IsExact raw → ReadsExactly raw)
      ∧ ∀ ps k, IsMadeOf (trimmed raw) ps → (∀ p ∈ ps, p.places ≤ k) →
          exactTotal ps * 10 ^ k < 10 ^ Amount.precision → ReadsExactly raw := by
  have hexact : IsExact raw → ReadsExactly raw := fun h =>
    readsExactly_iff_seconds.2 fun _ => read_eq_some h
  refine ⟨read_eq_none, fun n => read_eq_some_accumulated, readsExactly_iff_accumulates, hexact, ?_⟩
  intro ps k hmade hplaces htotal
  exact hexact (isExact_of_places hmade hplaces htotal)

/-- A single part in seconds denotes a number if its digits end in zeros after the point. -/
theorem denotes_iff_of_second {raw : String} {whole fraction : List Char} {n : ℕ}
    (h : parts? (trimmed raw) = some [⟨whole, fraction, .second⟩]) :
    Denotes raw n ↔ Text.digitsValue (whole ++ fraction) = n * 10 ^ fraction.length := by
  have hpow : (10 : ℚ) ^ fraction.length ≠ 0 := pow_ne_zero _ (by norm_num)
  rw [denotes_iff_of_parts? (List.cons_ne_nil _ _) h, exactTotal, List.map_singleton,
    List.sum_singleton, Part.exact, Unit.exact, mul_one, div_eq_iff hpow]
  exact ⟨fun h => by exact_mod_cast h, fun h => by exact_mod_cast h⟩

/-- A second and a fraction of a second are no whole number of seconds. -/
theorem not_denotes_fraction (n : ℕ) : ¬ Denotes "1.00000000000000000000000000001s" n := by
  have hparts : parts? (trimmed "1.00000000000000000000000000001s")
      = some [⟨['1'], "00000000000000000000000000001".toList, .second⟩] := by decide +kernel
  have hvalue : Text.digitsValue (['1'] ++ "00000000000000000000000000001".toList)
      = 10 ^ 29 + 1 := by decide +kernel
  have hlength : "00000000000000000000000000001".toList.length = 29 := by decide +kernel
  rw [denotes_iff_of_second hparts, hvalue, hlength]
  omega

/-- A fraction of a second that is lost, so that a total that is not whole is read as one, and a
digit of a whole number of seconds that is lost. -/
theorem not_readsExactly_thirtyDigits :
    (read "1.00000000000000000000000000001s" = .ok (some 1)
        ∧ ∀ n, ¬ Denotes "1.00000000000000000000000000001s" n)
      ∧ read "100000000000000000000000000001s" = .ok (some (10 ^ 29))
      ∧ Denotes "100000000000000000000000000001s" (10 ^ 29 + 1)
      ∧ ¬ ReadsExactly "1.00000000000000000000000000001s"
      ∧ ¬ ReadsExactly "100000000000000000000000000001s" := by
  have hlong : Denotes "100000000000000000000000000001s" (10 ^ 29 + 1) := by
    have hparts : parts? (trimmed "100000000000000000000000000001s")
        = some [⟨"100000000000000000000000000001".toList, [], .second⟩] := by decide +kernel
    rw [denotes_iff_of_second hparts]
    decide +kernel
  have hread : read "1.00000000000000000000000000001s" = .ok (some 1) := by decide +kernel
  have hread' : read "100000000000000000000000000001s" = .ok (some (10 ^ 29)) := by decide +kernel
  refine ⟨⟨hread, not_denotes_fraction⟩, hread', hlong, fun h => ?_, fun h => ?_⟩
  · exact not_denotes_fraction 1 ((h.seconds 1).1 hread)
  · have hdenoted := (h.seconds _).2 hlong
    rw [hread', Except.ok.injEq, Option.some.injEq] at hdenoted
    omega

end Trialnet.Duration
