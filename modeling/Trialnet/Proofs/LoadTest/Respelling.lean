import Trialnet.LoadTest.Wire
import Trialnet.Proofs.LoadTest.Spelling

/-!
# The spelling of a load test does not matter

A load test from outside may spell its fields, and those of its messages, in any way that a shape
lists.  However they are spelled, the same load test is read with the same warnings, or the same
complaints are made, whatever the values are: `ofExternal_respelled`.
-/

namespace Trialnet

open Payload

/-! ### Respelled payloads -/

/-- The second datum is the first one, or its fields are those of a message and spelled otherwise
in the second one. -/
inductive Datum.RespellsMessage : Datum → Datum → Prop where
  | same {d : Datum} : RespellsMessage d d
  | fields {fs fs' : Fields}
    (respelled : Spelling.Respelled Shape.message (fun _ d d' => d = d') fs fs') :
    RespellsMessage (.object fs) (.object fs')

/-- The second value of a field of a load test is the first one, or the field is the message mix
and the messages in it are spelled otherwise, each in its own way. -/
inductive Datum.RespellsValue : String → Datum → Datum → Prop where
  | same {name : String} {d : Datum} : RespellsValue name d d
  | mix {ds ds' : List Datum} (messages : List.Forall₂ RespellsMessage ds ds') :
    RespellsValue "msgs" (.array ds) (.array ds')

theorem Datum.RespellsValue.eq {name : String} {d d' : Datum} (h : RespellsValue name d d')
    (hname : name ≠ "msgs") : d = d' := by
  cases h with
  | same => rfl
  | mix => exact absurd rfl hname

theorem Datum.RespellsValue.eq_null_iff {name : String} {d d' : Datum}
    (h : RespellsValue name d d') : d = .null ↔ d' = .null := by
  cases h with
  | same => exact Iff.rfl
  | mix => simp

theorem eq_of_rel {α : Type} {R : α → α → Prop} (hR : ∀ a b, R a b → a = b) {x y : Option α}
    (h : Option.Rel R x y) : x = y := by
  cases h with
  | none => rfl
  | some hab => rw [hR _ _ hab]

theorem Payload.items_congr {α : Type} {read : Datum → Reading α} {ds ds' : List Datum}
    (h : List.Forall₂ (fun d d' => read d = read d') ds ds') (start : Nat) :
    items read start ds = items read start ds' := by
  induction h generalizing start with
  | nil => rfl
  | cons hd _ ih => rw [items, items, hd, ih]

namespace Wire

open Spelling

/-! ### Messages -/

theorem Message.read_respelled {fs fs' : Fields}
    (h : Respelled Shape.message (fun _ d d' => d = d') fs fs') :
    read (.object fs) = read (.object fs') := by
  have hfound : ∀ name ∈ Shape.message.wireNames,
      (adaptMessage fs).lookup name = (adaptMessage fs').lookup name := fun name hname =>
    eq_of_rel (fun _ _ => id)
      (h.rel_lookup_adapt Shape.isUnambiguous_message (fun _ _ hd => hd ▸ Iff.rfl) hname)
  simp only [read, record, ofFields, defaulted, Field.find?, Field.same,
    hfound "type" (by decide), hfound "weight" (by decide), hfound "numMsgs" (by decide),
    hfound "containedType" (by decide), hfound "numOfRecipients" (by decide)]

theorem Message.read_eq_of_respells {d d' : Datum} (h : d.RespellsMessage d') :
    read d = read d' := by
  cases h with
  | same => rfl
  | fields hrespelled => exact read_respelled hrespelled

theorem Message.array_read_eq {d d' : Datum} (h : d.RespellsValue "msgs" d') :
    array read d = array read d' := by
  cases h with
  | same => rfl
  | mix hmessages => exact items_congr (hmessages.imp fun _ _ => read_eq_of_respells) 0

/-! ### Load tests -/

namespace LoadTest

/-- What is found of every field is the same, but for the spelling of the messages. -/
def Agree (fs fs' : Fields) : Prop :=
  ∀ name ∈ Shape.loadTest.wireNames,
    Option.Rel (Datum.RespellsValue name) (fs.lookup name) (fs'.lookup name)

variable {fs fs' : Fields}

theorem Agree.lookup_eq (h : Agree fs fs') (name : String)
    (hname : name ∈ Shape.loadTest.wireNames) (hne : name ≠ "msgs") :
    fs.lookup name = fs'.lookup name :=
  eq_of_rel (fun _ _ hd => hd.eq hne) (h name hname)

theorem Agree.put (h : Agree fs fs') (key : String) (value : Datum) :
    Agree (fs.put key value) (fs'.put key value) := by
  intro name hname
  rw [Fields.lookup_put, Fields.lookup_put]
  split
  · exact .some .same
  · exact h name hname

theorem Agree.erase (h : Agree fs fs') (key : String) :
    Agree (fs.erase key) (fs'.erase key) := by
  intro name hname
  rw [Fields.lookup_erase, Fields.lookup_erase]
  split
  · exact .none
  · exact h name hname

/-- The timeout is read alike, and writing it back in seconds changes nothing else. -/
theorem Agree.withSeconds (h : Agree fs fs') :
    (∃ cause, Spelling.withSeconds fs = .error cause ∧ Spelling.withSeconds fs' = .error cause)
      ∨ ∃ adapted adapted', Spelling.withSeconds fs = .ok adapted
        ∧ Spelling.withSeconds fs' = .ok adapted' ∧ Agree adapted adapted' := by
  have htimeout := h.lookup_eq "txTimeout" (by decide) (by decide)
  rw [Spelling.withSeconds, Spelling.withSeconds, ← htimeout]
  cases fs.lookup "txTimeout" with
  | none => exact Or.inr ⟨fs, fs', rfl, rfl, h⟩
  | some d =>
    dsimp only
    cases timeoutSeconds d with
    | error cause => exact Or.inl ⟨cause, rfl, rfl⟩
    | ok seconds =>
      cases seconds with
      | none => exact Or.inr ⟨_, _, rfl, rfl, h.erase "txTimeout"⟩
      | some seconds => exact Or.inr ⟨_, _, rfl, rfl, h.put "txTimeout" seconds⟩

theorem Agree.messages_eq (h : Agree fs fs') :
    defaulted (.same "msgs") (array Message.read) [] fs
      = defaulted (.same "msgs") (array Message.read) [] fs' := by
  have hfound := h "msgs" (by decide)
  simp only [defaulted, Field.find?, Field.same]
  generalize fs.lookup "msgs" = found at hfound
  generalize fs'.lookup "msgs" = found' at hfound
  cases hfound with
  | none => rfl
  | some hd => simp only [Message.array_read_eq hd]

theorem Agree.defaulted_eq {α : Type} (h : Agree fs fs') (read : Datum → Reading α) (value : α)
    (name : String) (hname : name ∈ Shape.loadTest.wireNames) (hne : name ≠ "msgs") :
    defaulted (.same name) read value fs = defaulted (.same name) read value fs' := by
  simp only [defaulted, Field.find?, Field.same, h.lookup_eq name hname hne]

theorem Agree.ofFields_eq (h : Agree fs fs') : ofFields fs = ofFields fs' := by
  rw [ofFields, ofFields, Payload.optional, Payload.optional, h.messages_eq,
    h.defaulted_eq text "" "name" (by decide) (by decide),
    h.defaulted_eq text "" "description" (by decide) (by decide),
    h.defaulted_eq text "" "chainId" (by decide) (by decide),
    h.defaulted_eq signed32 default "numOfTxs" (by decide) (by decide),
    h.defaulted_eq signed32 default "numOfBlocks" (by decide) (by decide),
    h.defaulted_eq truth false "unorderedTxs" (by decide) (by decide),
    h.defaulted_eq (nullable signed64) none "txTimeout" (by decide) (by decide),
    h.defaulted_eq truth false "isEvmChain" (by decide) (by decide),
    h.defaulted_eq text "" "gasDenom" (by decide) (by decide),
    h.defaulted_eq text "" "bech32Prefix" (by decide) (by decide)]

/-- A load test is read alike however it is spelled. -/
theorem read_respelled (h : Respelled Shape.loadTest Datum.RespellsValue fs fs') :
    read (.object fs) = read (.object fs') := by
  have hagree : Agree (adapt Shape.loadTest fs) (adapt Shape.loadTest fs') := fun name hname =>
    h.rel_lookup_adapt Shape.isUnambiguous_loadTest (fun _ _ hd => hd.eq_null_iff) hname
  rw [read, record, record, adaptLoadTest, adaptLoadTest]
  rcases hagree.withSeconds with ⟨cause, herror, herror'⟩ | ⟨_, _, hok, hok', hadapted⟩
  · rw [herror, herror']
  · rw [hok, hok']
    exact hadapted.ofFields_eq

end LoadTest

end Wire

namespace LoadTest

end LoadTest

end Trialnet
