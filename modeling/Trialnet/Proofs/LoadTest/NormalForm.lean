import Mathlib.Data.List.Nodup
import Trialnet.Proofs.Duration.Exact
import Trialnet.Proofs.LoadTest.Spelling
import Trialnet.Proofs.Wire.LoadTest

/-!
# Adapting as a normal form

Adapting an object goes through its fields, then through the shape, and a load test has its timeout
put into seconds after that.  What comes of it is said here without that course (`IsNormalForm`):
every field is there once, under its wire name, and holds what stands under the first of its names
under which there is anything but null.

A normal form is determined up to the order of its fields (`IsNormalForm.perm`) by the fields whose
keys name something (`IsNormalForm.congr`), so neither their order nor any other field matters.  And
what is adapted is adapted to itself.
-/

namespace Trialnet

namespace Fields

variable {fields fields' : Fields}

/-- Writing what is there already changes nothing. -/
theorem put_eq_self (h : fields.HasDistinctKeys) {key : String} {d : Datum}
    (hfound : fields.lookup key = some d) : fields.put key d = fields := by
  have hany : fields.any (·.1 == key) = true := by
    rw [any_key_eq_isSome_lookup, hfound, Option.isSome_some]
  rw [put, if_pos hany]
  refine (List.map_congr_left fun f hf => ?_).trans (List.map_id fields)
  split
  · rename_i hkey
    obtain ⟨name, e⟩ := f
    obtain rfl : name = key := beq_iff_eq.1 hkey
    rw [← (lookup_eq_some_iff h).2 hf |>.symm.trans hfound |> Option.some.inj]
    rfl
  · rfl

theorem HasDistinctKeys.erase (h : fields.HasDistinctKeys) (key : String) :
    (fields.erase key).HasDistinctKeys :=
  h.sublist (List.filter_sublist.map _)

/-- Objects without repeated keys that have the same fields have them in some order. -/
theorem perm_of_mem_iff (h : fields.HasDistinctKeys) (h' : fields'.HasDistinctKeys)
    (hmem : ∀ f, f ∈ fields ↔ f ∈ fields') : fields.Perm fields' :=
  (List.perm_ext_iff_of_nodup (List.Nodup.of_map _ h) (List.Nodup.of_map _ h')).2 hmem

end Fields

namespace Shape

/-- The key is the wire name of a field or one of its spellings. -/
def IsKey (shape : Shape) (key : String) : Prop := ∃ name ∈ shape.wireNames, shape.Spells key name

instance (shape : Shape) (key name : String) : Decidable (shape.Spells key name) :=
  inferInstanceAs (Decidable (key = name ∨ (key, name) ∈ shape))

instance (shape : Shape) (key : String) : Decidable (shape.IsKey key) :=
  inferInstanceAs (Decidable (∃ name ∈ shape.wireNames, shape.Spells key name))

/-- The fields whose keys name something. -/
def known (shape : Shape) (fields : Fields) : Fields := fields.filter fun f => shape.IsKey f.1

end Shape

namespace Spelling

variable {shape : Shape} {fields fields' adapted adapted' : Fields} {name : String}

/-! ### The first of several names -/

/-- Under the first of the keys under which there is anything but null stands this value. -/
def Selects (fields : Fields) (keys : List String) (d : Datum) : Prop :=
  ∃ before key after, keys = before ++ key :: after
    ∧ (∀ k ∈ before, ∀ e, (k, e) ∈ fields → e = .null) ∧ (key, d) ∈ fields ∧ d ≠ .null

theorem present?_eq_none (h : fields.HasDistinctKeys) {key : String} :
    present? fields key = none ↔ ∀ e, (key, e) ∈ fields → e = .null := by
  rw [Option.eq_none_iff_forall_ne_some]
  refine forall_congr' fun e => ?_
  rw [ne_eq, present?_eq_some, Fields.lookup_eq_some_iff h, not_and, not_not]

theorem findSome?_present?_eq_some (h : fields.HasDistinctKeys) {keys : List String} {d : Datum} :
    keys.findSome? (present? fields) = some d ↔ Selects fields keys d := by
  rw [List.findSome?_eq_some_iff, Selects]
  simp only [present?_eq_none h, present?_eq_some, Fields.lookup_eq_some_iff h]
  constructor
  · rintro ⟨before, key, after, hkeys, hfound, hbefore⟩
    exact ⟨before, key, after, hkeys, hbefore, hfound⟩
  · rintro ⟨before, key, after, hkeys, hbefore, hfound⟩
    exact ⟨before, key, after, hkeys, hfound, hbefore⟩

/-- Only fields that are named have a part in what is selected. -/
theorem Selects.congr {keys : List String} {d : Datum}
    (hknown : ∀ f, f ∈ shape.known fields ↔ f ∈ shape.known fields')
    (hkeys : ∀ key ∈ keys, shape.IsKey key) (h : Selects fields keys d) :
    Selects fields' keys d := by
  have hmem : ∀ key ∈ keys, ∀ e, (key, e) ∈ fields ↔ (key, e) ∈ fields' := by
    intro key hkey e
    have hiff := hknown (key, e)
    simpa [Shape.known, hkeys key hkey] using hiff
  obtain ⟨before, key, after, rfl, hbefore, hfound, hnull⟩ := h
  refine ⟨before, key, after, rfl, fun k hk e he => ?_, ?_, hnull⟩
  · exact hbefore k hk e ((hmem k (List.mem_append_left _ hk) e).2 he)
  · exact (hmem key (List.mem_append_right _ List.mem_cons_self) d).1 hfound

theorem Selects.congr_iff {keys : List String} {d : Datum}
    (hknown : ∀ f, f ∈ shape.known fields ↔ f ∈ shape.known fields')
    (hkeys : ∀ key ∈ keys, shape.IsKey key) :
    Selects fields keys d ↔ Selects fields' keys d :=
  ⟨Selects.congr hknown hkeys, Selects.congr (fun f => (hknown f).symm) hkeys⟩

theorem isKey_of_mem (hname : name ∈ shape.wireNames) :
    ∀ key ∈ name :: shape.spellings name, shape.IsKey key :=
  fun _ hkey => ⟨name, hname, Shape.mem_cons_spellings.1 hkey⟩

/-! ### Normal forms -/

/-- Every field is there once, under its wire name, and is not null. -/
structure IsCanonical (shape : Shape) (fields : Fields) : Prop where
  distinct : fields.HasDistinctKeys
  wire : ∀ f ∈ fields, f.1 ∈ shape.wireNames
  ne_null : ∀ f ∈ fields, f.2 ≠ .null

/-- The second object is canonical, and its fields hold what the values that are selected for them
in the first one count as. -/
structure IsNormalForm (shape : Shape) (Counts : String → Datum → Datum → Prop)
    (fields adapted : Fields) : Prop extends IsCanonical shape adapted where
  mem_iff : ∀ name ∈ shape.wireNames, ∀ d, (name, d) ∈ adapted
    ↔ ∃ e, Selects fields (name :: shape.spellings name) e ∧ Counts name e d

variable {Counts : String → Datum → Datum → Prop}

/-- An object has one normal form, in some order. -/
theorem IsNormalForm.perm (h : IsNormalForm shape Counts fields adapted)
    (h' : IsNormalForm shape Counts fields adapted') : adapted.Perm adapted' := by
  refine Fields.perm_of_mem_iff h.distinct h'.distinct fun f => ?_
  constructor
  · intro hf
    have hname := h.wire f hf
    exact (h'.mem_iff f.1 hname f.2).2 ((h.mem_iff f.1 hname f.2).1 hf)
  · intro hf
    have hname := h'.wire f hf
    exact (h.mem_iff f.1 hname f.2).2 ((h'.mem_iff f.1 hname f.2).1 hf)

/-- Objects whose named fields are the same have the same normal forms. -/
theorem IsNormalForm.congr (hknown : ∀ f, f ∈ shape.known fields ↔ f ∈ shape.known fields')
    (h : IsNormalForm shape Counts fields adapted) :
    IsNormalForm shape Counts fields' adapted := by
  refine ⟨h.toIsCanonical, fun name hname d => ?_⟩
  rw [h.mem_iff name hname d]
  refine exists_congr fun e => and_congr_left fun _ => ?_
  exact Selects.congr_iff hknown (isKey_of_mem hname)

/-! ### Adapting fields -/

theorem isCanonical_canonical (h : fields.HasDistinctKeys) :
    IsCanonical shape (canonical shape fields) := by
  refine ⟨h.sublist (List.filter_sublist.map _), fun f hf => ?_, fun f hf => ?_⟩
  · have hboth := (List.mem_filter.1 hf).2
    simp only [Bool.and_eq_true, List.contains_iff_mem] at hboth
    exact hboth.1
  · have hboth := (List.mem_filter.1 hf).2
    simp only [Bool.and_eq_true, decide_eq_true_eq] at hboth
    exact hboth.2

/-- A spelling adds a field that is missing, or nothing. -/
theorem IsCanonical.addSpelling (h : IsCanonical shape adapted) (fields : Fields)
    {s : String × String} (hs : s ∈ shape) :
    IsCanonical shape (addSpelling fields adapted s) := by
  rw [Spelling.addSpelling]
  split
  · exact h
  · rename_i hmissing
    split
    · rename_i d hd
      have hnull : d ≠ .null := (present?_eq_some.1 hd).2
      rw [Fields.any_key_iff] at hmissing
      refine ⟨?_, ?_, ?_⟩
      · rw [← Fields.put_of_not_mem hmissing]
        exact h.distinct.put s.2 d
      · rw [List.forall_mem_append, List.forall_mem_singleton]
        exact ⟨h.wire, List.mem_map_of_mem hs⟩
      · rw [List.forall_mem_append, List.forall_mem_singleton]
        exact ⟨h.ne_null, hnull⟩
    · exact h

theorem IsCanonical.foldl_addSpelling (h : IsCanonical shape adapted) (fields : Fields)
    {tried : Shape} (htried : ∀ s ∈ tried, s ∈ shape) :
    IsCanonical shape (tried.foldl (Spelling.addSpelling fields) adapted) := by
  induction tried generalizing adapted with
  | nil => exact h
  | cons s tried ih =>
    rw [List.forall_mem_cons] at htried
    exact ih (h.addSpelling fields htried.1) htried.2

theorem isCanonical_adapt (h : fields.HasDistinctKeys) : IsCanonical shape (adapt shape fields) :=
  (isCanonical_canonical h).foldl_addSpelling fields fun _ => id

theorem isNormalForm_adapt (h : fields.HasDistinctKeys) :
    IsNormalForm shape (fun _ e d => e = d) fields (adapt shape fields) := by
  have hcanonical : IsCanonical shape (adapt shape fields) := isCanonical_adapt h
  refine ⟨hcanonical, fun name hname d => ?_⟩
  rw [← Fields.lookup_eq_some_iff hcanonical.distinct, lookup_adapt h hname,
    findSome?_present?_eq_some h]
  exact ⟨fun hd => ⟨d, hd, rfl⟩, fun ⟨e, he, heq⟩ => heq ▸ he⟩

theorem IsCanonical.adapt_eq_self (h : IsCanonical shape adapted) (hshape : shape.IsUnambiguous) :
    adapt shape adapted = adapted :=
  Spelling.adapt_eq_self hshape.not_mem_wireNames h.wire h.ne_null

/-! ### The timeout in seconds -/

/-- What a field holds after the timeout has been put into seconds. -/
inductive CountsAs : String → Datum → Datum → Prop where
  | same {name : String} {d : Datum} (notText : name = "txTimeout" → ∀ s, d ≠ .text s) :
    CountsAs name d d
  | seconds {s : String} {n : Nat} (read : Duration.read s = .ok (some n)) :
    CountsAs "txTimeout" (.text s) (.int n)

theorem countsAs_iff_of_ne {d e : Datum} (hname : name ≠ "txTimeout") :
    CountsAs name e d ↔ e = d := by
  constructor
  · intro h
    cases h with
    | same => rfl
    | seconds => exact absurd rfl hname
  · rintro rfl
    exact .same fun heq => absurd heq hname

theorem CountsAs.ne_null {d e : Datum} (h : CountsAs name e d) (he : e ≠ .null) : d ≠ .null := by
  cases h with
  | same => exact he
  | seconds => simp

/-- No timeout is left as a text. -/
theorem CountsAs.ne_text {d e : Datum} (h : CountsAs "txTimeout" e d) (s : String) :
    d ≠ .text s := by
  cases h with
  | same hd => exact hd rfl s
  | seconds => simp

theorem timeoutSeconds_text (s : String) :
    timeoutSeconds (.text s)
      = (Duration.read s).map fun seconds => seconds.map fun n => .int n := by
  rw [timeoutSeconds]
  rcases Duration.read s with cause | seconds
  · rfl
  · cases seconds <;> rfl

theorem timeoutSeconds_of_ne_text {d : Datum} (h : ∀ s, d ≠ .text s) :
    timeoutSeconds d = .ok (some d) := by
  cases d with
  | text s => exact absurd rfl (h s)
  | null | bool | int | float | array | object | back | foreign => rfl

theorem timeoutSeconds_eq_some {d e : Datum} :
    timeoutSeconds e = .ok (some d) ↔ CountsAs "txTimeout" e d := by
  by_cases htext : ∃ s, e = .text s
  · obtain ⟨s, rfl⟩ := htext
    rw [timeoutSeconds_text]
    constructor
    · intro h
      cases hread : Duration.read s with
      | error cause =>
        rw [hread] at h
        cases h
      | ok seconds =>
        rw [hread] at h
        obtain ⟨n, rfl, rfl⟩ := Option.map_eq_some_iff.1 (Except.ok.inj h)
        exact .seconds hread
    · intro h
      cases h with
      | same hd => exact absurd rfl (hd rfl s)
      | seconds hread => rw [hread]; rfl
  · have hne : ∀ s, e ≠ .text s := fun s hs => htext ⟨s, hs⟩
    rw [timeoutSeconds_of_ne_text hne]
    constructor
    · intro h
      obtain rfl := Option.some.inj (Except.ok.inj h)
      exact .same fun _ => hne
    · intro h
      cases h with
      | same => rfl
      | seconds => exact absurd rfl (hne _)

theorem timeoutSeconds_eq_error {e : Datum} {cause : Duration.ReadError} :
    timeoutSeconds e = .error cause ↔ ∃ s, e = .text s ∧ Duration.read s = .error cause := by
  by_cases htext : ∃ s, e = .text s
  · obtain ⟨s, rfl⟩ := htext
    rw [timeoutSeconds_text]
    cases hread : Duration.read s <;> simp [Except.map, hread]
  · have hne : ∀ s, e ≠ .text s := fun s hs => htext ⟨s, hs⟩
    rw [timeoutSeconds_of_ne_text hne]
    constructor
    · intro h
      cases h
    · rintro ⟨s, rfl, -⟩
      exact absurd rfl (hne s)

/-- Putting the timeout into seconds changes nothing but the timeout. -/
theorem lookup_withSeconds (h : withSeconds fields = .ok adapted) (name : String) (d : Datum) :
    adapted.lookup name = some d ↔ ∃ e, fields.lookup name = some e ∧ CountsAs name e d := by
  have hothers : (∀ key, key ≠ "txTimeout" → adapted.lookup key = fields.lookup key)
      ∧ (adapted.lookup "txTimeout" = some d
        ↔ ∃ e, fields.lookup "txTimeout" = some e ∧ CountsAs "txTimeout" e d) := by
    rw [withSeconds] at h
    cases hfound : fields.lookup "txTimeout" with
    | none =>
      rw [hfound] at h
      obtain rfl := Except.ok.inj h
      simp [hfound]
    | some e =>
      rw [hfound] at h
      obtain ⟨seconds, hseconds, h⟩ := bind_eq_ok.1 h
      cases seconds with
      | none =>
        obtain rfl := Except.ok.inj h
        refine ⟨fun key hkey => ?_, ?_⟩
        · rw [Fields.lookup_erase, if_neg (by simpa using hkey)]
        · simp [Fields.lookup_erase, ← timeoutSeconds_eq_some, hseconds]
      | some e' =>
        obtain rfl := Except.ok.inj h
        refine ⟨fun key hkey => ?_, ?_⟩
        · rw [Fields.lookup_put, if_neg (by simpa using hkey)]
        · simp [Fields.lookup_put, ← timeoutSeconds_eq_some, hseconds]
  by_cases hname : name = "txTimeout"
  · rw [hname]
    exact hothers.2
  · rw [hothers.1 name hname]
    simp [countsAs_iff_of_ne hname]

theorem distinct_withSeconds (hdistinct : fields.HasDistinctKeys)
    (h : withSeconds fields = .ok adapted) : adapted.HasDistinctKeys := by
  rw [withSeconds] at h
  split at h
  · obtain rfl := Except.ok.inj h
    exact hdistinct
  · obtain ⟨seconds, -, h⟩ := bind_eq_ok.1 h
    cases seconds with
    | none =>
      obtain rfl := Except.ok.inj h
      exact hdistinct.erase _
    | some e =>
      obtain rfl := Except.ok.inj h
      exact hdistinct.put _ _

theorem withSeconds_eq_error {cause : Duration.ReadError} :
    withSeconds fields = .error cause
      ↔ ∃ s, fields.lookup "txTimeout" = some (.text s) ∧ Duration.read s = .error cause := by
  rw [withSeconds]
  cases fields.lookup "txTimeout" with
  | none =>
    constructor
    · intro h
      cases h
    · rintro ⟨s, h, -⟩
      cases h
  | some e =>
    have herror : (∃ s, some e = some (.text s) ∧ Duration.read s = .error cause)
        ↔ timeoutSeconds e = .error cause := by
      rw [timeoutSeconds_eq_error]
      simp only [Option.some.injEq]
    rw [herror]
    dsimp only
    cases timeoutSeconds e with
    | error cause' =>
      constructor
      · intro h
        cases h
        rfl
      · intro h
        cases h
        rfl
    | ok seconds =>
      refine iff_of_false (fun h => ?_) (fun h => by cases h)
      cases seconds <;> cases h

/-- A timeout that is no text stays as it is. -/
theorem withSeconds_eq_self (hdistinct : fields.HasDistinctKeys)
    (h : ∀ d, fields.lookup "txTimeout" = some d → ∀ s, d ≠ .text s) :
    withSeconds fields = .ok fields := by
  rw [withSeconds]
  cases hfound : fields.lookup "txTimeout" with
  | none => rfl
  | some d =>
    dsimp only
    rw [timeoutSeconds_of_ne_text (h d hfound)]
    exact congrArg Except.ok (Fields.put_eq_self hdistinct hfound)

/-! ### Adapting load tests -/

/-- What stands for the timeout. -/
def SelectsTimeout (fields : Fields) (d : Datum) : Prop :=
  Selects fields ("txTimeout" :: Shape.loadTest.spellings "txTimeout") d

theorem lookup_adapt_timeout (h : fields.HasDistinctKeys) {d : Datum} :
    (adapt Shape.loadTest fields).lookup "txTimeout" = some d ↔ SelectsTimeout fields d := by
  rw [lookup_adapt h (by decide), findSome?_present?_eq_some h, SelectsTimeout]

theorem isNormalForm_adaptLoadTest (h : fields.HasDistinctKeys)
    (hadapt : adaptLoadTest fields = .ok adapted) :
    IsNormalForm Shape.loadTest CountsAs fields adapted := by
  have hnormal : IsNormalForm Shape.loadTest (fun _ e d => e = d) fields
      (adapt Shape.loadTest fields) := isNormalForm_adapt h
  have hdistinct := distinct_withSeconds hnormal.distinct hadapt
  have hmem : ∀ name d, (name, d) ∈ adapted
      ↔ ∃ e, (name, e) ∈ adapt Shape.loadTest fields ∧ CountsAs name e d := by
    intro name d
    simp only [← Fields.lookup_eq_some_iff hdistinct, ← Fields.lookup_eq_some_iff hnormal.distinct]
    exact lookup_withSeconds hadapt name d
  refine ⟨⟨hdistinct, fun f hf => ?_, fun f hf => ?_⟩, fun name hname d => ?_⟩
  · obtain ⟨e, he, -⟩ := (hmem f.1 f.2).1 hf
    exact hnormal.wire (f.1, e) he
  · obtain ⟨e, he, hcounts⟩ := (hmem f.1 f.2).1 hf
    exact hcounts.ne_null (hnormal.ne_null (f.1, e) he)
  · rw [hmem name d]
    simp only [hnormal.mem_iff name hname, exists_eq_right]

/-- A blank text leaves no timeout. -/
theorem not_mem_adapted_of_isBlank (h : fields.HasDistinctKeys)
    (hnormal : IsNormalForm Shape.loadTest CountsAs fields adapted) {s : String}
    (hs : SelectsTimeout fields (.text s)) (hblank : Duration.IsBlank s) (d : Datum) :
    ("txTimeout", d) ∉ adapted := by
  rw [hnormal.mem_iff _ (by decide)]
  rintro ⟨e, he, hcounts⟩
  obtain rfl : .text s = e := by
    have hfound := (lookup_adapt_timeout h).2 hs
    rw [(lookup_adapt_timeout h).2 he] at hfound
    exact (Option.some.inj hfound).symm
  cases hcounts with
  | same hd => exact hd rfl s rfl
  | seconds hread =>
    rw [Duration.read_of_isBlank hblank] at hread
    cases hread

theorem adaptLoadTest_eq_error (h : fields.HasDistinctKeys) {cause : Duration.ReadError} :
    adaptLoadTest fields = .error cause
      ↔ ∃ s, SelectsTimeout fields (.text s) ∧ Duration.read s = .error cause := by
  rw [adaptLoadTest, withSeconds_eq_error]
  simp only [lookup_adapt_timeout h]

/-- An adapted load test is adapted to itself. -/
theorem IsNormalForm.adaptLoadTest_eq_self
    (h : IsNormalForm Shape.loadTest CountsAs fields adapted) :
    adaptLoadTest adapted = .ok adapted := by
  rw [adaptLoadTest, h.adapt_eq_self Shape.isUnambiguous_loadTest]
  refine withSeconds_eq_self h.distinct fun d hd => ?_
  rw [Fields.lookup_eq_some_iff h.distinct, h.mem_iff _ (by decide)] at hd
  obtain ⟨e, -, hcounts⟩ := hd
  exact hcounts.ne_text

/-- Whether a load test can be adapted is a matter of its named fields. -/
theorem exists_adaptLoadTest (h : fields.HasDistinctKeys) (h' : fields'.HasDistinctKeys)
    (hknown : ∀ f, f ∈ Shape.loadTest.known fields ↔ f ∈ Shape.loadTest.known fields')
    (hadapt : adaptLoadTest fields = .ok adapted) :
    ∃ adapted', adaptLoadTest fields' = .ok adapted' := by
  cases hadapt' : adaptLoadTest fields' with
  | ok adapted' => exact ⟨adapted', rfl⟩
  | error cause =>
    obtain ⟨s, hs, hread⟩ := (adaptLoadTest_eq_error h').1 hadapt'
    have hs' := hs.congr (fun f => (hknown f).symm) (isKey_of_mem (by decide))
    rw [(adaptLoadTest_eq_error h).2 ⟨s, hs', hread⟩] at hadapt
    cases hadapt

/-- The objects have the same fields among those whose keys name something, in any order. -/
def AgreeOnKnown (shape : Shape) (fields fields' : Fields) : Prop :=
  fields'.HasDistinctKeys ∧ (shape.known fields).Perm (shape.known fields')

/-- Let an object have every key once.  If the fields of a load test can be adapted, then they are
in normal form, they have no timeout if a blank text stands for it, adapting them again changes
nothing, and any object that agrees on the keys that name something is adapted to the same fields.
They cannot be adapted exactly if the text that stands for the timeout is no duration.  The fields
of a message can always be adapted, and the same holds of them, whatever stands there. -/
theorem adapt_normalForm (h : fields.HasDistinctKeys) :
    (∀ adapted, adaptLoadTest fields = .ok adapted →
      IsNormalForm Shape.loadTest CountsAs fields adapted
      ∧ (∀ s, SelectsTimeout fields (.text s) → Duration.IsBlank s →
        ∀ d, ("txTimeout", d) ∉ adapted)
      ∧ adaptLoadTest adapted = .ok adapted
      ∧ ∀ fields', AgreeOnKnown Shape.loadTest fields fields' →
        ∃ adapted', adaptLoadTest fields' = .ok adapted' ∧ adapted.Perm adapted')
    ∧ (∀ cause, adaptLoadTest fields = .error cause
      ↔ ∃ s, SelectsTimeout fields (.text s) ∧ Duration.read s = .error cause)
    ∧ IsNormalForm Shape.message (fun _ e d => e = d) fields (adaptMessage fields)
    ∧ adaptMessage (adaptMessage fields) = adaptMessage fields
    ∧ ∀ fields', AgreeOnKnown Shape.message fields fields' →
      (adaptMessage fields).Perm (adaptMessage fields') := by
  have hmessage : IsNormalForm Shape.message (fun _ e d => e = d) fields (adaptMessage fields) :=
    isNormalForm_adapt h
  refine ⟨fun adapted hadapt => ?_, fun cause => adaptLoadTest_eq_error h, hmessage,
    hmessage.adapt_eq_self Shape.isUnambiguous_message, fun fields' hagree => ?_⟩
  · have hnormal := isNormalForm_adaptLoadTest h hadapt
    refine ⟨hnormal, fun s hs hblank => not_mem_adapted_of_isBlank h hnormal hs hblank,
      hnormal.adaptLoadTest_eq_self, fun fields' hagree => ?_⟩
    have hknown := fun f => hagree.2.mem_iff (a := f)
    obtain ⟨adapted', hadapt'⟩ := exists_adaptLoadTest h hagree.1 hknown hadapt
    have hnormal' := isNormalForm_adaptLoadTest hagree.1 hadapt'
    exact ⟨adapted', hadapt', (hnormal.congr hknown).perm hnormal'⟩
  · have hknown := fun f => hagree.2.mem_iff (a := f)
    exact (hmessage.congr hknown).perm (isNormalForm_adapt hagree.1)

/-- Three spellings of one field, the first of which holds null, and a timeout of a minute. -/
theorem adapt_normalForm_threeSpellings :
    let fields : Fields :=
      [("chain_id", .text "snake"), ("note", .int 1), ("ChainId", .text "upper"),
        ("TxTimeout", .text "1m"), ("ChainID", .null)]
    let adapted : Fields := [("chainId", .text "upper"), ("txTimeout", .int 60)]
    fields.HasDistinctKeys ∧ adaptLoadTest fields = .ok adapted
      ∧ IsNormalForm Shape.loadTest CountsAs fields adapted
      ∧ adaptLoadTest adapted = .ok adapted := by
  intro fields adapted
  have hdistinct : fields.HasDistinctKeys := by decide
  have hadapt : adaptLoadTest fields = .ok adapted := by decide +kernel
  obtain ⟨hnormal, -, hself, -⟩ := (adapt_normalForm hdistinct).1 adapted hadapt
  exact ⟨hdistinct, hadapt, hnormal, hself⟩

end Spelling

end Trialnet
