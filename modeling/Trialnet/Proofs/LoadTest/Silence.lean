import Trialnet.Proofs.LoadTest.Encoding

/-!
# What is lost in silence

Decoding leaves two things out of a mix: a message of an unknown kind, and the kind that a message
contains if that is unknown.  The first is recorded, so a mix that is decoded in silence has all its
messages (`log_decodeAll_eq_nil`).  The second is not: a message comes back with an open place where
it named something, and is encoded as one that names nothing.  `isKept_iff_silent_legible` says that
this is all that can be lost, and exactly when it is.
-/

namespace Trialnet

namespace MessageKind

/-- The text names a kind. -/
def IsName (s : String) : Prop := ∃ k : MessageKind, k.name = s

theorem ofName?_eq_none {s : String} : ofName? s = none ↔ ¬ IsName s := by
  constructor
  · rintro h ⟨k, rfl⟩
    rw [ofName?_name] at h
    cases h
  · intro h
    cases hfound : ofName? s with
    | none => rfl
    | some k => exact absurd ⟨k, name_of_ofName? hfound⟩ h

theorem exists_ofName? {s : String} (h : IsName s) : ∃ k, ofName? s = some k := by
  obtain ⟨k, rfl⟩ := h
  exact ⟨k, ofName?_name k⟩

instance (s : String) : Decidable (IsName s) :=
  decidable_of_iff (¬ ofName? s = none) (by rw [ofName?_eq_none, not_not])

end MessageKind

open MessageKind (IsName)

namespace Wire

/-- The message names nothing that it contains, or a kind. -/
def Message.IsLegible (w : Message) : Prop := w.contained = "" ∨ IsName w.contained

/-- The message without the name of what it contains, unless that is a kind. -/
def Message.legible (w : Message) : Message :=
  { w with contained := if IsName w.contained then w.contained else "" }

theorem Message.legible_eq_self_iff {w : Message} : w.legible = w ↔ w.IsLegible := by
  have hself : w.legible = w
      ↔ (if IsName w.contained then w.contained else "") = w.contained := by
    constructor
    · exact fun h => congrArg Message.contained h
    · intro h
      rw [legible, h]
  rw [hself, IsLegible]
  split
  · rename_i hname
    exact iff_of_true rfl (Or.inr hname)
  · rename_i hname
    rw [or_iff_left hname]
    exact eq_comm

/-- Every message is decoded, in its place, to one that is encoded as this message again. -/
def LoadTest.IsKept (w : LoadTest) : Prop :=
  List.Forall₂ (fun m wire => m.encode = .ok wire)
    (Trialnet.LoadTest.decode w).value.messages w.messages

end Wire

namespace Message

variable {w : Wire.Message} {ws : List Wire.Message}

/-! ### One message -/

/-- A message of an unknown kind is left out, and that is recorded. -/
theorem decode_of_not_isName (h : ¬ IsName w.kind) :
    decode w = ⟨none, [.messageDropped w.kind]⟩ := by
  rw [decode, MessageKind.ofName?_eq_none.2 h]

/-- A message of a known kind is decoded in silence, and what it is encoded as is the message
without an unknown name of what it contains. -/
theorem exists_decode_of_isName (h : IsName w.kind) :
    ∃ m, decode w = ⟨some m, []⟩ ∧ m.encode = .ok w.legible := by
  obtain ⟨k, hk⟩ := MessageKind.exists_ofName? h
  refine ⟨_, by rw [decode, hk], encode_eq_ok.2 ⟨?_, rfl, ?_, rfl, rfl⟩⟩
  · exact (MessageKind.name_of_ofName? hk).symm
  · show (if IsName w.contained then w.contained else "")
      = ((MessageKind.ofName? w.contained).map MessageKind.name).getD ""
    split
    · rename_i hname
      obtain ⟨c, hc⟩ := MessageKind.exists_ofName? hname
      rw [hc, Option.map_some, Option.getD_some, MessageKind.name_of_ofName? hc]
    · rename_i hname
      rw [MessageKind.ofName?_eq_none.2 hname, Option.map_none, Option.getD_none]

/-! ### All messages -/

theorem value_decodeAll_cons (w : Wire.Message) (ws : List Wire.Message) :
    (decodeAll (w :: ws)).value = (decode w).value.toList ++ (decodeAll ws).value := rfl

theorem log_decodeAll_cons (w : Wire.Message) (ws : List Wire.Message) :
    (decodeAll (w :: ws)).log = (decode w).log ++ (decodeAll ws).log := by
  rw [decodeAll, Logged.log_bind, Logged.log_bind, Logged.log_pure, List.append_nil]

/-- One record for each message of an unknown kind, in their order. -/
theorem log_decodeAll (ws : List Wire.Message) :
    (decodeAll ws).log
      = (ws.filter fun w => ¬ IsName w.kind).map fun w => .messageDropped w.kind := by
  induction ws with
  | nil => rfl
  | cons w ws ih =>
    rw [log_decodeAll_cons, ih]
    by_cases h : IsName w.kind
    · obtain ⟨m, hm, -⟩ := exists_decode_of_isName h
      rw [hm, List.filter_cons_of_neg (by simpa using h), List.nil_append]
    · rw [decode_of_not_isName h, List.filter_cons_of_pos (by simpa using h), List.map_cons]
      rfl

theorem log_decodeAll_eq_nil : (decodeAll ws).log = [] ↔ ∀ w ∈ ws, IsName w.kind := by
  rw [log_decodeAll, List.map_eq_nil_iff, List.filter_eq_nil_iff]
  simp only [decide_eq_true_eq, not_not]

/-- Each message is decoded, or it is recorded that it is not. -/
theorem length_decodeAll (ws : List Wire.Message) :
    (decodeAll ws).value.length + (decodeAll ws).log.length = ws.length := by
  induction ws with
  | nil => rfl
  | cons w ws ih =>
    rw [value_decodeAll_cons, log_decodeAll_cons, List.length_append, List.length_append,
      List.length_cons]
    by_cases h : IsName w.kind
    · obtain ⟨m, hm, -⟩ := exists_decode_of_isName h
      rw [hm]
      simp only [Option.toList_some, List.length_singleton, List.length_nil]
      omega
    · rw [decode_of_not_isName h]
      simp only [Option.toList_none, List.length_singleton, List.length_nil]
      omega

/-- Messages that are decoded in silence are encoded again, each in its place and without an unknown
name of what it contains. -/
theorem forall₂_encode_decodeAll (h : ∀ w ∈ ws, IsName w.kind) :
    List.Forall₂ (fun m wire => m.encode = .ok wire.legible) (decodeAll ws).value ws := by
  induction ws with
  | nil => exact .nil
  | cons w ws ih =>
    rw [List.forall_mem_cons] at h
    obtain ⟨m, hm, hencode⟩ := exists_decode_of_isName h.1
    rw [value_decodeAll_cons, hm]
    exact .cons hencode (ih h.2)

/-- What is encoded without an unknown name is the message itself if it has none. -/
theorem forall₂_encode_iff {ms : List Message}
    (h : List.Forall₂ (fun m wire => m.encode = .ok wire.legible) ms ws) :
    List.Forall₂ (fun m wire => m.encode = .ok wire) ms ws ↔ ∀ w ∈ ws, w.IsLegible := by
  induction h with
  | nil => simp
  | @cons m w ms ws hm _ ih =>
    have hself : m.encode = .ok w ↔ w.IsLegible := by
      rw [hm, Except.ok.injEq, Wire.Message.legible_eq_self_iff]
    rw [List.forall₂_cons, List.forall_mem_cons, ih, hself]

end Message

namespace LoadTest

theorem log_decode (w : Wire.LoadTest) :
    (decode w).log = (Message.decodeAll w.messages).log := by
  rw [decode, Logged.log_bind, Logged.log_pure, List.append_nil]

/-- What is recorded of a load test is, one by one, that its messages of unknown kinds are left out.
In silence all messages are decoded, in their places, and they are encoded as they were but for
unknown names of what they contain.  They are kept as they were exactly if nothing is recorded and
there are no such names. -/
theorem isKept_iff_silent_legible (w : Wire.LoadTest) :
    (decode w).log
        = ((w.messages.filter fun m => ¬ IsName m.kind).map fun m => .messageDropped m.kind)
      ∧ ((decode w).log = [] → List.Forall₂ (fun m wire => m.encode = .ok wire.legible)
        (decode w).value.messages w.messages)
      ∧ (w.IsKept ↔ (decode w).log = [] ∧ ∀ m ∈ w.messages, m.IsLegible) := by
  have hsilent : (decode w).log = [] → List.Forall₂ (fun m wire => m.encode = .ok wire.legible)
      (decode w).value.messages w.messages := by
    intro h
    rw [log_decode, Message.log_decodeAll_eq_nil] at h
    exact Message.forall₂_encode_decodeAll h
  refine ⟨(log_decode w).trans (Message.log_decodeAll w.messages), hsilent, ?_, ?_⟩
  · intro hkept
    have hlog : (decode w).log = [] := by
      have hcount := Message.length_decodeAll w.messages
      have hlength : (Message.decodeAll w.messages).value.length = w.messages.length :=
        hkept.length_eq
      rw [log_decode]
      exact List.eq_nil_of_length_eq_zero (by omega)
    exact ⟨hlog, (Message.forall₂_encode_iff (hsilent hlog)).1 hkept⟩
  · rintro ⟨hlog, hlegible⟩
    exact (Message.forall₂_encode_iff (hsilent hlog)).2 hlegible

/-- A bundle of messages of an unknown kind is decoded in silence, and is encoded as a bundle that
does not say what it contains. -/
theorem not_isKept_unknownContained :
    let w : Wire.LoadTest :=
      { messages := [{ kind := "MsgArr", weight := .one, contained := "MsgTeleport" }] }
    (decode w).log = [] ∧ ¬ w.IsKept := by
  intro w
  refine ⟨by decide, fun hkept => ?_⟩
  cases hkept with
  | cons hencode _ => exact absurd (Message.encode_eq_ok.1 hencode).contained (by decide)

end LoadTest

end Trialnet
