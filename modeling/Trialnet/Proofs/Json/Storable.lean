import Trialnet.Proofs.Json.RoundTrip
import Trialnet.Proofs.Json.Writable
import Trialnet.Proofs.Payload.Records

/-!
# Values that survive their own text

A value is storable if it has a JSON text and is read back from it with so many levels.  Records
are storable if what they hold is, with one level less, and their field names differ, which is
checked on the list of names that a record may write, whether or not it leaves some out.
-/

namespace Trialnet.Json

open Payload

/-- The value has a JSON text from which it is read back with so many levels. -/
structure Storable (levels : Nat) (d : Datum) : Prop where
  wellKeyed : d.WellKeyed
  writable : Writable .spelled d
  nesting_le : d.nesting ≤ levels

theorem Storable.exists_text {levels levels' : Nat} {d : Datum} (h : Storable levels d)
    (hle : levels ≤ levels') : ∃ s, writeLoose d = .ok s ∧ read levels' s = .ok (.ok d) := by
  obtain ⟨cs, hcs⟩ := (exists_print_iff .spelled d).2 h.writable
  have hwrite : writeLoose d = .ok (String.ofList cs) := by
    rw [writeLoose_eq_ok, String.toList_ofList, hcs]
  exact ⟨_, hwrite, read_writeLoose h.wellKeyed (Nat.le_trans h.nesting_le hle) hwrite⟩

/-- A value has a JSON text proper if it is writable and its numbers are finite. -/
theorem exists_write_iff {d : Datum} : (∃ s, write d = .ok s) ↔ Writable .refused d := by
  rw [← exists_print_iff]
  constructor
  · rintro ⟨s, hs⟩
    exact ⟨s.toList, write_eq_ok.1 hs⟩
  · rintro ⟨cs, hcs⟩
    refine ⟨String.ofList cs, ?_⟩
    rw [write_eq_ok, String.toList_ofList, hcs]

section Parts

variable {levels : Nat}

theorem storable_text (s : String) : Storable levels (.text s) := ⟨trivial, trivial, Nat.zero_le _⟩

theorem storable_bool (b : Bool) : Storable levels (.bool b) := ⟨trivial, trivial, Nat.zero_le _⟩

theorem storable_float (x : Binary64) : Storable levels (.float x) :=
  ⟨trivial, Or.inl rfl, Nat.zero_le _⟩

theorem storable_wide {lo hi : Int} (n : Ranged lo hi) : Storable levels (wide n) :=
  storable_text _

theorem storable_narrow (n : Signed32) : Storable levels (narrow n) := by
  refine ⟨trivial, Numeral.isWritable_of_natAbs_lt ?_, Nat.zero_le _⟩
  have := n.lo_le
  have := n.le_hi
  omega

theorem storable_array {items : List Datum} (h : ∀ x ∈ items, Storable levels x) :
    Storable (levels + 1) (.array items) :=
  ⟨(Datum.wellKeyedItems_iff items).2 fun x hx => (h x hx).wellKeyed,
    (writableItems_iff .spelled items).2 fun x hx => (h x hx).writable,
    Nat.succ_le_succ (Datum.nestingItems_le_iff.2 fun x hx => (h x hx).nesting_le)⟩

theorem storable_object {fields : Fields} (hkeys : fields.HasDistinctKeys)
    (h : ∀ f ∈ fields, Storable levels f.2) : Storable (levels + 1) (.object fields) :=
  ⟨⟨hkeys, (Datum.wellKeyedFields_iff fields).2 fun f hf => (h f hf).wellKeyed⟩,
    (writableFields_iff .spelled fields).2 fun f hf => (h f hf).writable,
    Nat.succ_le_succ (Datum.nestingFields_le_iff.2 fun f hf => (h f hf).nesting_le)⟩

/-- The values of a list of records are storable. -/
theorem storable_map {α : Type} {write : α → Datum} (h : ∀ a, Storable levels (write a))
    (as : List α) : Storable (levels + 1) (.array (as.map write)) := by
  refine storable_array fun x hx => ?_
  obtain ⟨a, -, rfl⟩ := List.mem_map.1 hx
  exact h a

theorem storable_ofDictionary {es : List (String × String)} (h : (es.map (·.1)).Nodup) :
    Storable (levels + 1) (ofDictionary es) := by
  refine storable_object ?_ fun f hf => ?_
  · rw [Fields.HasDistinctKeys, List.map_map]
    exact h
  · obtain ⟨e, -, rfl⟩ := List.mem_map.1 hf
    exact storable_text _

/-! ### Records -/

/-- The fields hold storable values, under some of the given names in their order. -/
structure Holds (levels : Nat) (fields : Fields) (names : List String) : Prop where
  keys : List.Sublist (fields.map (·.1)) names
  storable : ∀ f ∈ fields, Storable levels f.2

theorem holds_entry {d : Datum} (name : String) (h : Storable levels d) :
    Holds levels (entry name d) [name] := by
  refine ⟨List.Sublist.refl _, fun f hf => ?_⟩
  rw [mem_entry.1 hf]
  exact h

theorem holds_optionalEntry {α : Type} {write : α → Datum} (name : String) (a : Option α)
    (h : ∀ a, Storable levels (write a)) : Holds levels ( entry? name (a.map write)) [name] := by
  cases a with
  | none => exact ⟨List.nil_sublist _, fun f hf => absurd hf List.not_mem_nil⟩
  | some a => exact holds_entry name (h a)

theorem Holds.append {xs ys : Fields} {ns ms : List String} (hx : Holds levels xs ns)
    (hy : Holds levels ys ms) : Holds levels (xs ++ ys) (ns ++ ms) := by
  refine ⟨?_, fun f hf => ?_⟩
  · rw [List.map_append]
    exact hx.keys.append hy.keys
  · rcases List.mem_append.1 hf with hf | hf
    · exact hx.storable f hf
    · exact hy.storable f hf

/-- A record whose names differ is storable. -/
theorem Holds.object {fields : Fields} {names : List String} (h : Holds levels fields names)
    (hnames : names.Nodup) : Storable (levels + 1) (.object fields) :=
  storable_object (hnames.sublist h.keys) h.storable

end Parts

end Trialnet.Json
