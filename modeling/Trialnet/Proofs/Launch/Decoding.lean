import Trialnet.Proofs.Chain.Decoding
import Trialnet.Template.Wire
import Trialnet.Workflow.Wire

/-!
# Which launches are decoded

Of a launch on the wire only the texts in its chain are read when it is decoded, and so it is with
the templates and workflows that hold a launch.  Each of them is decoded exactly if these texts
load; the reader's failure is all that can go wrong (`exists_decode_iff` of each).
-/

namespace Trialnet

/-- The texts in the chain of a launch load with so many levels. -/
def Wire.Launch.Loads (levels : Nat) (w : Wire.Launch) : Prop :=
  ∀ c ∈ w.chain, c.Loads levels

/-- The texts in the launch of a template load with so many levels. -/
def Wire.Template.Loads (levels : Nat) (w : Wire.Template) : Prop :=
  ∀ l ∈ w.launch, l.Loads levels

/-- The texts in the launch of a workflow load with so many levels. -/
def Wire.Workflow.Loads (levels : Nat) (w : Wire.Workflow) : Prop :=
  ∀ l ∈ w.launch, l.Loads levels

variable {levels : Nat}

instance (w : Wire.Launch) : Decidable (w.Loads levels) :=
  inferInstanceAs (Decidable (∀ c ∈ w.chain, c.Loads levels))

instance (w : Wire.Template) : Decidable (w.Loads levels) :=
  inferInstanceAs (Decidable (∀ l ∈ w.launch, l.Loads levels))

instance (w : Wire.Workflow) : Decidable (w.Loads levels) :=
  inferInstanceAs (Decidable (∀ l ∈ w.launch, l.Loads levels))

/-- One genesis value that does not load is enough. -/
theorem Wire.Launch.not_loads_of_edit {w : Wire.Launch} {c : Wire.Chain} {key s : String}
    (hc : w.chain = some c) (hedit : ⟨key, s⟩ ∈ c.edits) (hdeep : ¬ Json.Loads levels s) :
    ¬ w.Loads levels :=
  fun h => hdeep ((h c hc).edits _ hedit)

namespace Launch

/-- A decoded launch is its decoded chain and what needs no reading. -/
theorem value_of_decode {w : Wire.Launch} {x : Logged Launch} (h : decode levels w = .ok x) :
    ∃ chain, decodeChain levels w.chain = .ok chain
      ∧ x.value = (decodeRest w chain.value).value := by
  obtain ⟨chain, hchain, hx⟩ := bind_eq_ok.1 h
  obtain rfl := Except.ok.inj hx
  exact ⟨chain, hchain, rfl⟩

theorem exists_decodeChain_iff {w : Option Wire.Chain} :
    (∃ x, decodeChain levels w = .ok x) ↔ ∀ c ∈ w, c.Loads levels := by
  cases w with
  | none => exact iff_of_true ⟨_, rfl⟩ (by simp)
  | some c => simp [decodeChain, Chain.exists_decode_iff]

theorem exists_decode_iff {w : Wire.Launch} :
    (∃ x, decode levels w = .ok x) ↔ w.Loads levels :=
  exists_bind_pure_eq_ok.trans exists_decodeChain_iff

end Launch

namespace Template

theorem exists_decodeLaunch_iff {w : Option Wire.Launch} :
    (∃ x, decodeLaunch levels w = .ok x) ↔ ∀ l ∈ w, l.Loads levels := by
  cases w with
  | none => exact iff_of_true ⟨_, rfl⟩ (by simp)
  | some l => simp [decodeLaunch, Launch.exists_decode_iff]

theorem exists_decode_iff {w : Wire.Template} :
    (∃ x, decode levels w = .ok x) ↔ w.Loads levels :=
  exists_bind_pure_eq_ok.trans exists_decodeLaunch_iff

end Template

namespace Workflow

theorem exists_decodeLaunch_iff {w : Option Wire.Launch} :
    (∃ x, decodeLaunch levels w = .ok x) ↔ ∀ l ∈ w, l.Loads levels := by
  cases w with
  | none => exact iff_of_true ⟨_, rfl⟩ (by simp)
  | some l =>
    rw [decodeLaunch, exists_bind_pure_eq_ok, Launch.exists_decode_iff]
    simp

theorem exists_decode_iff {w : Wire.Workflow} :
    (∃ x, decode levels w = .ok x) ↔ w.Loads levels :=
  exists_bind_pure_eq_ok.trans exists_decodeLaunch_iff

end Workflow

end Trialnet
