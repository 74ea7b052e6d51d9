import Mathlib.Data.List.Forall2
import Mathlib.Data.List.Nodup
import Trialnet.Proofs.Datum.Keys
import Trialnet.LoadTest.Spelling

/-!
# What is found in adapted fields

Adapting an object goes through its fields once and through its shape once.  Read by look-ups, it
is a choice for each field on its own: of the wire name and the spellings of the field, in the
order of the shape, the first that is present and not null (`lookup_adapt`).

A shape can be used to respell an object if none of its spellings could be taken for another
field.  Then a key says by itself which field it names (`Shape.nameOf`), and if the keys of an
object are spelled otherwise, then what is found of a field is what was there before
(`Respelled.rel_lookup_adapt`).
-/

namespace Trialnet

/-! ### Spellings -/

namespace Shape

/-- The spellings of a field, in the order in which they are tried. -/
def spellings (shape : Shape) (name : String) : List String :=
  (shape.filter (·.2 == name)).map (·.1)

/-- The key names the field: it is the wire name or one of the spellings. -/
def Spells (shape : Shape) (key name : String) : Prop := key = name ∨ (key, name) ∈ shape

/-- No spelling is listed twice, and none is a wire name. -/
structure IsUnambiguous (shape : Shape) : Prop where
  nodup : (shape.map (·.1)).Nodup
  not_mem_wireNames : ∀ s ∈ shape, s.1 ∉ shape.wireNames

theorem isUnambiguous_loadTest : loadTest.IsUnambiguous := ⟨by decide, by decide⟩

theorem isUnambiguous_message : message.IsUnambiguous := ⟨by decide, by decide⟩

/-- The field that a key names; a key that is no spelling names itself. -/
def nameOf (shape : Shape) (key : String) : String := (shape.lookup key).getD key

variable {shape : Shape} {key name : String}

theorem mem_spellings : key ∈ shape.spellings name ↔ (key, name) ∈ shape := by
  simp [spellings]

theorem mem_cons_spellings : key ∈ name :: shape.spellings name ↔ shape.Spells key name := by
  rw [List.mem_cons, mem_spellings, Spells]

/-- A spelling is found with the only field that it names. -/
theorem IsUnambiguous.lookup_eq (h : shape.IsUnambiguous) (hmem : (key, name) ∈ shape) :
    shape.lookup key = some name := by
  have hnodup := h.nodup
  clear h
  induction shape with
  | nil => cases hmem
  | cons s shape ih =>
    obtain ⟨hs, hrest⟩ := List.nodup_cons.1 hnodup
    rw [List.lookup_cons]
    rcases List.mem_cons.1 hmem with rfl | hmem
    · simp
    · have hne : (key == s.1) = false := by
        simpa using fun heq => hs (List.mem_map.2 ⟨_, hmem, heq⟩)
      rw [hne]
      exact ih hmem hrest

theorem IsUnambiguous.nameOf_eq (h : shape.IsUnambiguous) (hspells : shape.Spells key name)
    (hname : name ∈ shape.wireNames) : shape.nameOf key = name := by
  rw [nameOf]
  rcases hspells with rfl | hmem
  · have habsent : shape.lookup key = none := by
      rw [List.lookup_eq_none_iff]
      intro s hs
      have hne : key ≠ s.1 := fun heq => h.not_mem_wireNames s hs (heq ▸ hname)
      simpa using hne
    rw [habsent, Option.getD_none]
  · rw [h.lookup_eq hmem, Option.getD_some]

end Shape

namespace Spelling

variable {shape : Shape} {fields fields' : Fields} {name : String}

/-! ### What adapting finds -/

theorem present?_of_lookup_eq_none {key : String} (h : fields.lookup key = none) :
    present? fields key = none := by
  rw [present?, h]

theorem present?_of_lookup {key : String} {d : Datum} (h : fields.lookup key = some d) :
    present? fields key = if d = .null then none else some d := by
  rw [present?, h]
  cases d with
  | null => rfl
  | bool | int | float | text | array | object | back | foreign => rw [if_neg (by simp)]

theorem present?_eq_some {key : String} {d : Datum} :
    present? fields key = some d ↔ fields.lookup key = some d ∧ d ≠ .null := by
  cases hfound : fields.lookup key with
  | none => simp [present?_of_lookup_eq_none hfound]
  | some e =>
    rw [present?_of_lookup hfound]
    by_cases he : e = .null
    · simp [he, eq_comm]
    · rw [if_neg he, Option.some.injEq]
      exact ⟨fun h => ⟨h, h ▸ he⟩, And.left⟩

theorem lookup_canonical (hdistinct : fields.HasDistinctKeys) (hname : name ∈ shape.wireNames) :
    (canonical shape fields).lookup name = present? fields name := by
  have hcanonical : (canonical shape fields).HasDistinctKeys :=
    hdistinct.sublist (List.filter_sublist.map _)
  ext d
  rw [Fields.lookup_eq_some_iff hcanonical, present?_eq_some, Fields.lookup_eq_some_iff hdistinct,
    canonical, List.mem_filter]
  simp [hname]

/-- A spelling counts if it is that of the field and the field has no value yet. -/
theorem lookup_addSpelling (fields adapted : Fields) (s : String × String) (name : String) :
    (addSpelling fields adapted s).lookup name
      = (adapted.lookup name).or (if s.2 = name then present? fields s.1 else none) := by
  rw [addSpelling, Fields.any_key_eq_isSome_lookup]
  by_cases hname : s.2 = name
  · subst hname
    rw [if_pos rfl]
    cases hfound : adapted.lookup s.2 with
    | some d => rw [Option.isSome_some, if_pos rfl, hfound, Option.some_or]
    | none =>
      rw [Option.isSome_none, Option.none_or]
      cases present? fields s.1 with
      | none => exact hfound
      | some d =>
        show (adapted ++ [(s.2, d)]).lookup s.2 = some d
        simp [List.lookup_append, hfound]
  · have hne : (name == s.2) = false := by simpa using fun heq => hname heq.symm
    rw [if_neg hname, Option.or_none]
    split
    · rfl
    · cases present? fields s.1 with
      | none => rfl
      | some d =>
        show (adapted ++ [(s.2, d)]).lookup name = adapted.lookup name
        simp [List.lookup_append, List.lookup_cons, hne]

theorem lookup_foldl_addSpelling (fields adapted : Fields) (shape : Shape) (name : String) :
    (shape.foldl (addSpelling fields) adapted).lookup name
      = (adapted.lookup name).or ((shape.spellings name).findSome? (present? fields)) := by
  induction shape generalizing adapted with
  | nil => simp [Shape.spellings]
  | cons s shape ih =>
    rw [List.foldl_cons, ih, lookup_addSpelling, Option.or_assoc]
    congr 1
    by_cases hname : s.2 = name
    · have hspellings : Shape.spellings (s :: shape) name = s.1 :: Shape.spellings shape name := by
        simp [Shape.spellings, hname]
      rw [if_pos hname, hspellings, List.findSome?_cons]
      cases present? fields s.1 <;> rfl
    · have hspellings : Shape.spellings (s :: shape) name = Shape.spellings shape name := by
        simp [Shape.spellings, hname]
      rw [if_neg hname, hspellings, Option.none_or]

/-- Of the wire name and the spellings of a field the first one that is present and not null
counts. -/
theorem lookup_adapt (hdistinct : fields.HasDistinctKeys) (hname : name ∈ shape.wireNames) :
    (adapt shape fields).lookup name
      = (name :: shape.spellings name).findSome? (present? fields) := by
  rw [adapt, lookup_foldl_addSpelling, lookup_canonical hdistinct hname, List.findSome?_cons]
  cases present? fields name <;> rfl

/-! ### Respelled objects -/

/-- The first object has wire names only, and the second one has the same fields in any order,
each under its wire name or one of its spellings, with a value that is related to what it was. -/
structure Respelled (shape : Shape) (R : String → Datum → Datum → Prop)
    (fields fields' : Fields) : Prop where
  distinct : fields.HasDistinctKeys
  wire : ∀ f ∈ fields, f.1 ∈ shape.wireNames
  renamed : ∃ renamed,
    List.Forall₂ (fun f f' => shape.Spells f'.1 f.1 ∧ R f.1 f.2 f'.2) fields renamed
      ∧ renamed.Perm fields'

variable {R : String → Datum → Datum → Prop}

namespace Respelled

/-- The keys of the second object name the fields of the first one. -/
theorem perm_nameOf (h : Respelled shape R fields fields') (hshape : shape.IsUnambiguous) :
    (fields'.map fun f => shape.nameOf f.1).Perm (fields.map (·.1)) := by
  obtain ⟨renamed, hrenamed, hperm⟩ := h.renamed
  have hnames : renamed.map (fun f => shape.nameOf f.1) = fields.map (·.1) := by
    have hwire := h.wire
    clear hperm h
    induction hrenamed with
    | nil => rfl
    | cons hf _ ih =>
      rw [List.forall_mem_cons] at hwire
      rw [List.map_cons, List.map_cons, ih hwire.2, hshape.nameOf_eq hf.1 hwire.1]
  exact hnames ▸ (hperm.map _).symm

theorem nodup_nameOf (h : Respelled shape R fields fields') (hshape : shape.IsUnambiguous) :
    (fields'.map fun f => shape.nameOf f.1).Nodup :=
  (h.perm_nameOf hshape).nodup_iff.2 h.distinct

theorem distinct_respelled (h : Respelled shape R fields fields') (hshape : shape.IsUnambiguous) :
    fields'.HasDistinctKeys := by
  have hmap : (fields'.map fun f => shape.nameOf f.1) = (fields'.map (·.1)).map shape.nameOf := by
    rw [List.map_map]
    rfl
  exact List.Nodup.of_map _ (hmap ▸ h.nodup_nameOf hshape)

theorem exists_respelling (h : Respelled shape R fields fields') {f : String × Datum}
    (hf : f ∈ fields) : ∃ f' ∈ fields', shape.Spells f'.1 f.1 ∧ R f.1 f.2 f'.2 := by
  obtain ⟨renamed, hrenamed, hperm⟩ := h.renamed
  have hmem : ∃ f' ∈ renamed, shape.Spells f'.1 f.1 ∧ R f.1 f.2 f'.2 := by
    clear h hperm
    induction hrenamed with
    | nil => cases hf
    | cons hg _ ih =>
      rcases List.mem_cons.1 hf with rfl | hf
      · exact ⟨_, List.mem_cons_self, hg⟩
      · obtain ⟨f', hf', hrel⟩ := ih hf
        exact ⟨f', List.mem_cons_of_mem _ hf', hrel⟩
  obtain ⟨f', hf', hrel⟩ := hmem
  exact ⟨f', hperm.subset hf', hrel⟩

/-- A field that the first object lacks is there under no spelling in the second one. -/
theorem lookup_eq_none (h : Respelled shape R fields fields') (hshape : shape.IsUnambiguous)
    (hname : name ∈ shape.wireNames) (habsent : fields.lookup name = none) {key : String}
    (hkey : shape.Spells key name) : fields'.lookup key = none := by
  cases hfound : fields'.lookup key with
  | none => rfl
  | some d =>
    have hmem := (Fields.lookup_eq_some_iff (h.distinct_respelled hshape)).1 hfound
    have hnamed : name ∈ fields.map (·.1) :=
      (h.perm_nameOf hshape).subset (List.mem_map.2 ⟨_, hmem, hshape.nameOf_eq hkey hname⟩)
    rw [← Fields.any_key_iff, Fields.any_key_eq_isSome_lookup, habsent] at hnamed
    cases hnamed

/-- A field that the first object has is there under one spelling in the second one. -/
theorem exists_lookup (h : Respelled shape R fields fields') (hshape : shape.IsUnambiguous)
    (hname : name ∈ shape.wireNames) {d : Datum} (hfound : fields.lookup name = some d) :
    ∃ key d', shape.Spells key name ∧ R name d d' ∧ fields'.lookup key = some d'
      ∧ ∀ key', shape.Spells key' name → key' ≠ key → fields'.lookup key' = none := by
  have hdistinct := h.distinct_respelled hshape
  obtain ⟨⟨key, d'⟩, hmem, hkey, hrel⟩ :=
    h.exists_respelling ((Fields.lookup_eq_some_iff h.distinct).1 hfound)
  refine ⟨key, d', hkey, hrel, (Fields.lookup_eq_some_iff hdistinct).2 hmem, ?_⟩
  intro key' hkey' hne
  cases hfound' : fields'.lookup key' with
  | none => rfl
  | some e =>
    have hmem' := (Fields.lookup_eq_some_iff hdistinct).1 hfound'
    have hsame : shape.nameOf key' = shape.nameOf key := by
      rw [hshape.nameOf_eq hkey' hname, hshape.nameOf_eq hkey hname]
    have heq := List.inj_on_of_nodup_map (h.nodup_nameOf hshape) hmem' hmem hsame
    exact absurd (congrArg Prod.fst heq) hne

end Respelled

theorem findSome?_eq_of_forall_ne {α β : Type} {f : α → Option β} {xs : List α} {x : α}
    (hx : x ∈ xs) (h : ∀ y ∈ xs, y ≠ x → f y = none) : xs.findSome? f = f x := by
  induction xs with
  | nil => cases hx
  | cons y ys ih =>
    obtain ⟨hy, hys⟩ := List.forall_mem_cons.1 h
    rw [List.findSome?_cons]
    by_cases hyx : y = x
    · subst hyx
      cases hfound : f y with
      | some b => rfl
      | none =>
        rw [List.findSome?_eq_none_iff]
        intro z hz
        by_cases hzy : z = y
        · rw [hzy, hfound]
        · exact hys z hz hzy
    · rw [hy hyx]
      exact ih ((List.mem_cons.1 hx).resolve_left fun h => hyx h.symm) hys

namespace Respelled

/-- What is found after adapting the second object is what stands for the field in the first one. -/
theorem lookup_adapt_cases (h : Respelled shape R fields fields') (hshape : shape.IsUnambiguous)
    (hname : name ∈ shape.wireNames) :
    (fields.lookup name = none ∧ (adapt shape fields').lookup name = none)
      ∨ ∃ d d', fields.lookup name = some d ∧ R name d d'
        ∧ (adapt shape fields').lookup name = if d' = .null then none else some d' := by
  rw [lookup_adapt (h.distinct_respelled hshape) hname]
  cases hfound : fields.lookup name with
  | none =>
    refine Or.inl ⟨rfl, List.findSome?_eq_none_iff.2 fun key hkey => ?_⟩
    exact present?_of_lookup_eq_none
      (h.lookup_eq_none hshape hname hfound (Shape.mem_cons_spellings.1 hkey))
  | some d =>
    obtain ⟨key, d', hkey, hrel, hfound', hothers⟩ := h.exists_lookup hshape hname hfound
    refine Or.inr ⟨d, d', rfl, hrel, ?_⟩
    rw [← present?_of_lookup hfound']
    exact findSome?_eq_of_forall_ne (Shape.mem_cons_spellings.2 hkey) fun key' hkey' hne =>
      present?_of_lookup_eq_none (hothers key' (Shape.mem_cons_spellings.1 hkey') hne)

theorem refl (h : Respelled shape R fields fields') :
    Respelled shape (fun _ d d' => d = d') fields fields := by
  refine ⟨h.distinct, h.wire, fields, ?_, List.Perm.refl fields⟩
  exact List.forall₂_same.2 fun f _ => ⟨Or.inl rfl, rfl⟩

/-- What is found after adapting is related as before, if nothing but null is related to null. -/
theorem rel_lookup_adapt (h : Respelled shape R fields fields') (hshape : shape.IsUnambiguous)
    (hnull : ∀ d d', R name d d' → (d = .null ↔ d' = .null)) (hname : name ∈ shape.wireNames) :
    Option.Rel (R name) ((adapt shape fields).lookup name) ((adapt shape fields').lookup name) := by
  rcases h.refl.lookup_adapt_cases hshape hname with ⟨habsent, hleft⟩ | ⟨d, _, hfound, rfl, hleft⟩
  · rcases h.lookup_adapt_cases hshape hname with ⟨-, hright⟩ | ⟨d, _, hfound, -⟩
    · rw [hleft, hright]
      exact .none
    · rw [habsent] at hfound
      cases hfound
  · rcases h.lookup_adapt_cases hshape hname with ⟨habsent, -⟩ | ⟨e, d', hfound', hrel, hright⟩
    · rw [hfound] at habsent
      cases habsent
    · obtain rfl := Option.some.inj (hfound.symm.trans hfound')
      rw [hleft, hright]
      by_cases hd : d = .null
      · rw [if_pos hd, if_pos ((hnull d d' hrel).1 hd)]
        exact .none
      · rw [if_neg hd, if_neg fun hd' => hd ((hnull d d' hrel).2 hd')]
        exact .some hrel

end Respelled

end Spelling

end Trialnet
