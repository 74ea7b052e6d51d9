import Trialnet.Proofs.Launch.Encoding
import Trialnet.Proofs.Launch.Validity

/-!
# The duration of a testnet that runs until it is shut down

Such a testnet needs no duration, so the check does not look at it, and the encoder sends 0 for
whatever is no duration.  What is a duration is sent as it is, though, and has to fit into 64 bits
like every other number.  Two durations are therefore treated alike exactly if both fit or neither
does, or if a part of the launch that is encoded earlier is refused: `alike_iff_of_longRunning`.
-/

namespace Trialnet.Launch

open Payload

/-- The launch with another duration. -/
def withDuration (l : Launch) (raw : String) : Launch := { l with duration := raw }

/-- Two encodings end alike: in the same error, or in records that agree but for the duration. -/
inductive Alike : Except EncodeError Wire.Launch → Except EncodeError Wire.Launch → Prop where
  | refused (e : EncodeError) : Alike (.error e) (.error e)
  | sent (w : Wire.Launch) (d : Signed64) : Alike (.ok w) (.ok { w with duration := d })

/-- The greatest number of seconds that is sent. -/
def maxSeconds : Int := 0x7FFFFFFFFFFFFFFF

/-- If the text is a duration, it is short enough to be sent. -/
def FitsIfDuration (raw : String) : Prop :=
  ∀ n : Nat, Duration.read raw = .ok (some n) → n ≤ maxSeconds

variable {l : Launch} {test : Option Wire.LoadTest} {chain : Wire.Chain} {seconds : Int}

/-! ### The numbers -/

theorem exists_eq_val (h0 : 0 ≤ seconds) (hle : seconds ≤ maxSeconds) :
    ∃ x : Signed64, x.val = seconds :=
  exists_ranged_iff.2 ⟨Int.le_trans (by decide) h0, hle⟩

/-- Seconds that fit change nothing but themselves. -/
theorem alike_assemble (x y : Signed64) :
    Alike (l.assemble test chain x.val) (l.assemble test chain y.val) := by
  cases hx : l.assemble test chain x.val with
  | ok w =>
    obtain ⟨-, hwallets, hw⟩ := assemble_eq_ok.1 hx
    have hy : l.assemble test chain y.val = .ok { w with duration := y } :=
      assemble_eq_ok.2 ⟨rfl, hwallets, by rw [hw]⟩
    rw [hy]
    exact .sent w y
  | error e =>
    have hy : l.assemble test chain y.val = .error e := by
      rw [assemble, inRange_val] at hx ⊢
      generalize (inRange _ _ l.wallets).under _ = wallets at hx ⊢
      cases wallets with
      | ok n => cases hx
      | bad cs => exact hx
    rw [hy]
    exact .refused e

/-- Too many seconds are refused in one way, and seconds that fit are not refused in that way. -/
theorem exists_refusal (l : Launch) (test : Option Wire.LoadTest) (chain : Wire.Chain) :
    ∃ e, (∀ n, maxSeconds < n → l.assemble test chain n = .error e)
      ∧ ∀ x : Signed64, l.assemble test chain x.val ≠ .error e := by
  have hlong : ∀ n, maxSeconds < n → inRange (-0x8000000000000000) 0x7FFFFFFFFFFFFFFF n
      = .complain .aboveRange := by
    intro n hn
    rw [maxSeconds] at hn
    rw [inRange, dif_neg (by omega), dif_pos hn]
  let c : Complaint := ⟨[.key "testnet_duration"], .aboveRange⟩
  -- the complaint about the seconds stands before those about the wallets
  cases hwallets : (inRange (-0x80000000) 0x7FFFFFFF l.wallets).under (.key "num_wallets") with
  | ok k =>
    refine ⟨.misfit ⟨Wire.Launch.schema, [c]⟩, fun n hn => ?_, fun x h => ?_⟩
    · rw [assemble, hlong n hn, hwallets]
      rfl
    · rw [assemble, inRange_val, hwallets] at h
      cases h
  | bad cs =>
    refine ⟨.misfit ⟨Wire.Launch.schema, c :: cs⟩, fun n hn => ?_, fun x h => ?_⟩
    · rw [assemble, hlong n hn, hwallets]
      rfl
    · rw [assemble, inRange_val, hwallets] at h
      have hself : cs = c :: cs := by
        injection h with h
        injection h with h
        injection h
      exact List.cons_ne_self c cs hself.symm

theorem alike_assemble_iff {m n : Int} (hm : 0 ≤ m) (hn : 0 ≤ n) :
    Alike (l.assemble test chain m) (l.assemble test chain n)
      ↔ (m ≤ maxSeconds ↔ n ≤ maxSeconds) := by
  obtain ⟨e, hrefused, hother⟩ := exists_refusal l test chain
  have hof : ∀ r, Alike (.error e) r → r = .error e := by
    rintro r ⟨⟩
    rfl
  have hto : ∀ r, Alike r (.error e) → r = .error e := by
    rintro r ⟨⟩
    rfl
  by_cases hm' : m ≤ maxSeconds
  · obtain ⟨x, rfl⟩ := exists_eq_val hm hm'
    by_cases hn' : n ≤ maxSeconds
    · obtain ⟨y, rfl⟩ := exists_eq_val hn hn'
      exact iff_of_true (alike_assemble x y) (iff_of_true hm' hn')
    · rw [hrefused n (Int.not_le.1 hn')]
      exact iff_of_false (fun h => hother x (hto _ h)) fun h => hn' (h.1 hm')
  · rw [hrefused m (Int.not_le.1 hm')]
    by_cases hn' : n ≤ maxSeconds
    · obtain ⟨y, rfl⟩ := exists_eq_val hn hn'
      exact iff_of_false (fun h => hother y (hof _ h)) fun h => hm' (h.2 hn')
    · rw [hrefused n (Int.not_le.1 hn')]
      exact iff_of_true (.refused e) (iff_of_false hm' hn')

/-! ### Any two durations -/

/-- The seconds that are sent for a text if the testnet runs until it is shut down. -/
def sentSeconds (raw : String) : Int :=
  match Duration.read raw with
  | .ok (some n) => n
  | _ => 0

theorem sentSeconds_nonneg (raw : String) : 0 ≤ sentSeconds raw := by
  rw [sentSeconds]
  split
  · exact Int.natCast_nonneg _
  · exact Int.le_refl 0

theorem sentSeconds_le_iff {raw : String} : sentSeconds raw ≤ maxSeconds ↔ FitsIfDuration raw := by
  rw [sentSeconds, FitsIfDuration]
  split
  · rename_i n hread
    constructor
    · intro hle k hk
      obtain rfl := Option.some.inj (Except.ok.inj (hread.symm.trans hk))
      exact hle
    · exact fun h => h n hread
  · rename_i hread
    exact iff_of_true (by decide) fun n hn => absurd hn (hread n)

theorem durationSeconds_of_longRunning (h : l.longRunning = true) :
    l.durationSeconds.value = .ok (sentSeconds l.duration) := by
  rw [durationSeconds, sentSeconds]
  cases Duration.read l.duration with
  | ok seconds => cases seconds <;> rfl
  | error cause =>
    dsimp only
    rw [if_pos h]

/-- The duration is read after the parts have been encoded, and is used for nothing else. -/
theorem encode_withDuration (h : l.longRunning = true) (raw : String) :
    (l.withDuration raw).encode.value
      = l.encodeParts >>= fun parts => l.assemble parts.1 parts.2 (sentSeconds raw) := by
  rw [value_encode, durationSeconds_of_longRunning (l := l.withDuration raw) h]
  rfl

/-- Whatever duration is written for a testnet that runs until it is shut down, the check comes to
the same result, and the encodings end alike unless just one of the durations is too long. -/
theorem alike_iff_of_longRunning (h : l.longRunning = true) (d₁ d₂ : String) :
    (l.withDuration d₁).check = (l.withDuration d₂).check
      ∧ (Alike (l.withDuration d₁).encode.value (l.withDuration d₂).encode.value
        ↔ (∃ e, l.encodeParts = .error e) ∨ (FitsIfDuration d₁ ↔ FitsIfDuration d₂)) := by
  constructor
  · rw [check_eq_bind, check_eq_bind]
    simp only [withDuration, h, if_true]
  · rw [encode_withDuration h, encode_withDuration h, ← sentSeconds_le_iff, ← sentSeconds_le_iff]
    cases hparts : l.encodeParts with
    | error e => exact iff_of_true (.refused e) (Or.inl ⟨e, rfl⟩)
    | ok parts =>
      refine (alike_assemble_iff (sentSeconds_nonneg d₁) (sentSeconds_nonneg d₂)).trans ?_
      simp

/-- It makes no difference whether such a testnet is to run for an hour or forever. -/
theorem alike_forever :
    let l : Launch :=
      { repo := "app", sha := "", longRunning := true
        chain := { name := "c", image := "", validators := 1, seedNode := true } }
    (l.withDuration "1h").check = (l.withDuration "forever").check
      ∧ Alike (l.withDuration "1h").encode.value (l.withDuration "forever").encode.value := by
  intro l
  have hhour : FitsIfDuration "1h" := sentSeconds_le_iff.1 (by decide +kernel)
  have hforever : FitsIfDuration "forever" := sentSeconds_le_iff.1 (by decide +kernel)
  obtain ⟨hcheck, halike⟩ :=
    alike_iff_of_longRunning (show l.longRunning = true from rfl) "1h" "forever"
  exact ⟨hcheck, halike.2 (Or.inr (iff_of_true hhour hforever))⟩

/-- A testnet that runs until it is shut down is sent without a duration, but refused with one of
`2 ^ 63` seconds. -/
theorem not_alike_tooLong :
    let l : Launch :=
      { repo := "r", sha := "s", longRunning := true, chain := { name := "c", image := "i" } }
    ¬ Alike (l.withDuration "").encode.value
        (l.withDuration "9223372036854775808").encode.value := by
  intro l
  have hsent : (l.withDuration "").encode.value = .ok
      { repo := "r", sha := "s", runner := "Docker", longRunning := true
        chain := some { name := "c", image := "i" }
        wallets := ⟨2500, by decide, by decide⟩ } := by
    decide +kernel
  have hrefused : (l.withDuration "9223372036854775808").encode.value = .error
      (.misfit ⟨Wire.Launch.schema, [⟨[.key "testnet_duration"], .aboveRange⟩]⟩) := by
    decide +kernel
  rw [hsent, hrefused]
  rintro ⟨⟩

end Trialnet.Launch
