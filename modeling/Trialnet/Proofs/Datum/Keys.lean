import Trialnet.Datum.Basic

/-!
# Objects without repeated keys

A dictionary has every key once.  As the fields of an object are a list of pairs, this is a
property of a datum: `Datum.WellKeyed` says that no key occurs twice, at any depth.  The fields
of such an object are what is left when they are written one after the other.
-/

namespace Trialnet

namespace Fields

instance (fields : Fields) : Decidable fields.HasDistinctKeys :=
  inferInstanceAs (Decidable (fields.map (·.1)).Nodup)

theorem any_key_iff (fields : Fields) (key : String) :
    fields.any (·.1 == key) = true ↔ key ∈ fields.map (·.1) := by
  simp only [List.any_eq_true, beq_iff_eq, List.mem_map]

/-- A new key comes last. -/
theorem put_of_not_mem {fields : Fields} {key : String} (h : key ∉ fields.map (·.1))
    (value : Datum) : fields.put key value = fields ++ [(key, value)] := by
  rw [put, if_neg (fun hany => h ((any_key_iff fields key).1 hany))]

theorem lookup_map_replace (fields : Fields) (key : String) (value : Datum) (k : String) :
    (fields.map fun f => if f.1 == key then (key, value) else f).lookup k
      = if k == key then (fields.lookup key).map fun _ => value else fields.lookup k := by
  induction fields with
  | nil => simp
  | cons f fields ih =>
    obtain ⟨name, d⟩ := f
    rw [List.map_cons]
    by_cases hname : name = key
    · subst hname
      by_cases hk : k = name
      · simp [hk]
      · have hk' : (k == name) = false := by simpa using hk
        simpa [List.lookup_cons, hk'] using ih
    · have hname' : (name == key) = false := by simpa using hname
      by_cases hk : k = name
      · subst hk
        simp [hname']
      · have hk' : (k == name) = false := by simpa using hk
        have hkey : (key == name) = false := by simpa using fun h => hname h.symm
        simpa [List.lookup_cons, hname', hk', hkey] using ih

theorem any_key_eq_isSome_lookup (fields : Fields) (key : String) :
    fields.any (·.1 == key) = (fields.lookup key).isSome := by
  rw [Bool.eq_iff_iff, any_key_iff, List.lookup_isSome_iff, List.mem_map]
  refine exists_congr fun f => and_congr_right fun _ => ?_
  rw [beq_iff_eq, eq_comm]

/-- After a write a look-up finds the new value under its key, and what was there under any
other. -/
theorem lookup_put (fields : Fields) (key : String) (value : Datum) (k : String) :
    (fields.put key value).lookup k = if k == key then some value else fields.lookup k := by
  have hany := any_key_eq_isSome_lookup fields key
  cases hkey : fields.lookup key with
  | some d =>
    rw [hkey, Option.isSome_some] at hany
    rw [put, if_pos hany, lookup_map_replace, hkey, Option.map_some]
  | none =>
    rw [hkey, Option.isSome_none] at hany
    rw [put, if_neg (by simp [hany]), List.lookup_append]
    by_cases hk : k = key
    · simp [hk, hkey]
    · have hk' : (k == key) = false := by simpa using hk
      simp [List.lookup_cons, hk']

theorem foldl_put {writes fields : Fields} (h : HasDistinctKeys (fields ++ writes)) :
    writes.foldl (fun fields w => fields.put w.1 w.2) fields = fields ++ writes := by
  induction writes generalizing fields with
  | nil => rw [List.foldl_nil, List.append_nil]
  | cons w writes ih =>
    have hnew : w.1 ∉ fields.map (·.1) := by
      rw [HasDistinctKeys, List.map_append, List.map_cons, List.nodup_append] at h
      exact fun hmem => h.2.2 _ hmem _ List.mem_cons_self rfl
    rw [List.foldl_cons, put_of_not_mem hnew, ih (by rwa [List.append_assoc]), List.append_assoc]
    rfl

/-- Without a key a look-up finds nothing under it, and what was there under any other. -/
theorem lookup_erase (fields : Fields) (key k : String) :
    (fields.erase key).lookup k = if k == key then none else fields.lookup k := by
  induction fields with
  | nil => simp [erase]
  | cons f fields ih =>
    obtain ⟨name, d⟩ := f
    rw [erase] at ih ⊢
    by_cases hname : name = key
    · subst hname
      rw [List.filter_cons_of_neg (by simp), ih, List.lookup_cons]
      cases k == name <;> rfl
    · rw [List.filter_cons_of_pos (by simpa using hname), List.lookup_cons, List.lookup_cons, ih]
      cases hk : k == name with
      | true =>
        have hk' : (k == key) = false := by simpa [beq_iff_eq.1 hk] using hname
        rw [hk']
        rfl
      | false => rfl

/-- Where no key occurs twice, a key is found with every value that it stands beside. -/
theorem lookup_eq_some_iff {fields : Fields} (h : fields.HasDistinctKeys) {key : String}
    {d : Datum} : fields.lookup key = some d ↔ (key, d) ∈ fields := by
  induction fields with
  | nil => simp
  | cons f fields ih =>
    obtain ⟨name, e⟩ := f
    obtain ⟨hname, hrest⟩ := List.nodup_cons.1 h
    rw [List.lookup_cons, List.mem_cons, Prod.mk.injEq]
    by_cases hkey : key = name
    · subst hkey
      have habsent : (key, d) ∉ fields := fun hmem => hname (List.mem_map.2 ⟨_, hmem, rfl⟩)
      simp [habsent, eq_comm]
    · have hkey' : (key == name) = false := by simpa using hkey
      rw [hkey']
      simpa [hkey] using ih hrest

/-- A write leaves no key twice. -/
theorem HasDistinctKeys.put {fields : Fields} (h : fields.HasDistinctKeys) (key : String)
    (value : Datum) : (fields.put key value).HasDistinctKeys := by
  by_cases hkey : key ∈ fields.map (·.1)
  · -- the value of a known key is replaced, and the keys stay as they are
    have hkeys : (fields.map fun f => if f.1 == key then (key, value) else f).map (·.1)
        = fields.map (·.1) := by
      rw [List.map_map]
      refine List.map_congr_left fun f _ => ?_
      by_cases hf : f.1 = key
      · simp [hf]
      · simp [hf]
    rw [HasDistinctKeys, Fields.put, if_pos ((any_key_iff fields key).2 hkey), hkeys]
    exact h
  · rw [HasDistinctKeys, put_of_not_mem hkey, List.map_append, List.nodup_append]
    refine ⟨h, by simp, ?_⟩
    rintro k hk k' hk' rfl
    obtain rfl : k = key := by simpa using hk'
    exact hkey hk

/-- What is found after a write was there before or was written. -/
theorem mem_put {fields : Fields} {key : String} {value : Datum} {f : String × Datum}
    (h : f ∈ fields.put key value) : f = (key, value) ∨ f ∈ fields := by
  rw [Fields.put] at h
  split at h
  · obtain ⟨g, hg, hf⟩ := List.mem_map.1 h
    split at hf
    · exact Or.inl hf.symm
    · exact Or.inr (hf ▸ hg)
  · rcases List.mem_append.1 h with h | h
    · exact Or.inr h
    · exact Or.inl (List.mem_singleton.1 h)

/-- However often a key is written, it is left once, with a value that was written. -/
theorem foldl_put_invariant (writes : Fields) {fields : Fields} (h : fields.HasDistinctKeys) :
    (writes.foldl (fun fields w => fields.put w.1 w.2) fields).HasDistinctKeys
      ∧ ∀ f ∈ writes.foldl (fun fields w => fields.put w.1 w.2) fields,
          f ∈ fields ∨ f ∈ writes := by
  induction writes generalizing fields with
  | nil => exact ⟨h, fun f hf => Or.inl hf⟩
  | cons w writes ih =>
    obtain ⟨hdistinct, hmem⟩ := ih (h.put w.1 w.2)
    refine ⟨hdistinct, fun f hf => ?_⟩
    rcases hmem f hf with hf | hf
    · rcases mem_put hf with rfl | hf
      · exact Or.inr (List.mem_cons_self)
      · exact Or.inl hf
    · exact Or.inr (List.mem_cons_of_mem _ hf)

theorem hasDistinctKeys_nil : HasDistinctKeys [] := List.nodup_nil

theorem hasDistinctKeys_ofWrites (writes : Fields) : (ofWrites writes).HasDistinctKeys :=
  (foldl_put_invariant writes hasDistinctKeys_nil).1

theorem mem_of_mem_ofWrites {writes : Fields} {f : String × Datum} (h : f ∈ ofWrites writes) :
    f ∈ writes :=
  ((foldl_put_invariant writes hasDistinctKeys_nil).2 f h).resolve_left List.not_mem_nil

/-- Writes to different keys leave themselves. -/
theorem ofWrites_eq_self {writes : Fields} (h : HasDistinctKeys writes) :
    ofWrites writes = writes := foldl_put h

end Fields

namespace Datum

mutual

/-- No object inside the value has a key twice. -/
def WellKeyed : Datum → Prop
  | .array items => WellKeyedItems items
  | .object fields => Fields.HasDistinctKeys fields ∧ WellKeyedFields fields
  | _ => True

/-- No object inside one of the values has a key twice. -/
def WellKeyedItems : List Datum → Prop
  | [] => True
  | x :: xs => WellKeyed x ∧ WellKeyedItems xs

/-- No object inside the value of one of the fields has a key twice. -/
def WellKeyedFields : List (String × Datum) → Prop
  | [] => True
  | (_, x) :: xs => WellKeyed x ∧ WellKeyedFields xs

end

theorem wellKeyedItems_iff (items : List Datum) :
    WellKeyedItems items ↔ ∀ x ∈ items, x.WellKeyed := by
  induction items with
  | nil => simp [WellKeyedItems]
  | cons x xs ih => simp [WellKeyedItems, ih]

theorem wellKeyedFields_iff (fields : Fields) :
    WellKeyedFields fields ↔ ∀ f ∈ fields, f.2.WellKeyed := by
  induction fields with
  | nil => simp [WellKeyedFields]
  | cons f fields ih => simp [WellKeyedFields, ih]

end Datum

end Trialnet
