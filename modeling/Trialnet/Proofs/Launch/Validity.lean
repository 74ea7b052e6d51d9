import Trialnet.Proofs.LoadTest.Validity
import Trialnet.Launch.Validity

/-!
# Which launches are valid

What a launch has to say before it is submitted, and that the checks decide it.  The checks look
at the duration as it is written, and at counts as integers of any size.
-/

namespace Trialnet

/-- What the counts and the wiring of a network have to be. -/
structure Chain.Valid (c : Chain) : Prop where
  nodes : 0 ≤ c.nodes
  validators : 1 ≤ c.validators
  regions : ∀ r ∈ c.regions, 0 ≤ r.nodes ∧ 0 ≤ r.validators
  wired : c.seedNode = true ∨ c.persistentPeers = true

namespace Launch

/-- The text is a duration of at least one second. -/
def IsLasting (raw : String) : Prop := ∃ n, 0 < n ∧ Duration.read raw = .ok (some n)

/-- What a launch has to say. -/
structure Valid (l : Launch) : Prop where
  duration : l.longRunning = true ∨ IsLasting l.duration
  chain : l.chain.Valid
  loadTest : ∀ t, l.loadTest = some t → t.Valid

theorem checkDuration_eq_ok {raw : String} : checkDuration raw = .ok () ↔ IsLasting raw := by
  rw [checkDuration]
  split
  · rename_i hempty
    refine ⟨nofun, ?_⟩
    rintro ⟨n, -, hread⟩
    -- an empty text is read as no duration
    rw [hempty] at hread
    cases hread
  · constructor
    · intro h
      split at h
      · rename_i n hread
        exact ⟨n + 1, Nat.succ_pos n, hread⟩
      · cases h
    · rintro ⟨n, hpos, hread⟩
      obtain ⟨k, rfl⟩ := Nat.exists_eq_succ_of_ne_zero (Nat.ne_of_gt hpos)
      rw [hread]

theorem isNegative_eq_false {r : Region} :
    isNegative r = false ↔ 0 ≤ r.nodes ∧ 0 ≤ r.validators := by
  simp only [isNegative, Bool.or_eq_false_iff, decide_eq_false_iff_not, Int.not_lt]

theorem checkTopology_eq_ok {c : Chain} : checkTopology c = .ok () ↔ c.Valid := by
  -- the first negative region is what is reported, so there is none if none is found
  have hregions : c.regions.find? isNegative = none
      ↔ ∀ r ∈ c.regions, 0 ≤ r.nodes ∧ 0 ≤ r.validators := by
    rw [List.find?_eq_none]
    refine forall₂_congr fun r _ => ?_
    rw [Bool.not_eq_true, isNegative_eq_false]
  rw [checkTopology]
  constructor
  · intro h
    split at h
    · cases h
    rename_i hnodes
    split at h
    · cases h
    rename_i hvalidators
    split at h
    · cases h
    rename_i hfind
    split at h
    · rename_i hwired
      exact ⟨Int.not_lt.1 hnodes, Int.not_lt.1 hvalidators, hregions.1 hfind,
        Bool.or_eq_true_iff.1 hwired⟩
    · cases h
  · rintro ⟨hnodes, hvalidators, hnegative, hwired⟩
    rw [if_neg (Int.not_lt.2 hnodes), if_neg (Int.not_lt.2 hvalidators), hregions.2 hnegative]
    exact if_pos (Bool.or_eq_true_iff.2 hwired)

/-- The three checks, one after the other. -/
theorem check_eq_bind (l : Launch) :
    l.check = (if l.longRunning then .ok () else checkDuration l.duration) >>= fun _ =>
      checkTopology l.chain >>= fun _ => l.loadTest.elim (.ok ()) LoadTest.check := by
  rw [check]
  cases l.longRunning with
  | true => cases l.loadTest <;> rfl
  | false => cases l.loadTest <;> rfl

/-- The first check: a testnet that runs until it is shut down needs no duration. -/
theorem ownDuration_eq_ok {l : Launch} :
    (if l.longRunning then .ok () else checkDuration l.duration) = .ok ()
      ↔ l.longRunning = true ∨ IsLasting l.duration := by
  cases l.longRunning with
  | true => exact ⟨fun _ => Or.inl rfl, fun _ => rfl⟩
  | false =>
    refine checkDuration_eq_ok.trans ⟨Or.inr, ?_⟩
    rintro (h | h)
    · cases h
    · exact h

theorem check_eq_ok {l : Launch} : l.check = .ok () ↔ l.Valid := by
  have hloadTest : l.loadTest.elim (.ok ()) LoadTest.check = .ok ()
      ↔ ∀ t, l.loadTest = some t → t.Valid := by
    cases l.loadTest with
    | none => exact ⟨fun _ => nofun, fun _ => rfl⟩
    | some t =>
      refine LoadTest.check_eq_ok.trans ⟨fun h t' ht => ?_, fun h => h t rfl⟩
      exact Option.some.inj ht ▸ h
  rw [check_eq_bind, bind_eq_ok]
  constructor
  · rintro ⟨_, hlasting, h⟩
    obtain ⟨_, htopology, h⟩ := bind_eq_ok.1 h
    exact ⟨ownDuration_eq_ok.1 hlasting, checkTopology_eq_ok.1 htopology, hloadTest.1 h⟩
  · rintro ⟨hlasting, htopology, h⟩
    refine ⟨(), ownDuration_eq_ok.2 hlasting, bind_eq_ok.2 ⟨(), ?_, hloadTest.2 h⟩⟩
    exact checkTopology_eq_ok.2 htopology

end Launch

end Trialnet
