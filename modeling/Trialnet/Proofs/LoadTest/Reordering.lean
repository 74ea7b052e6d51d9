import Trialnet.Proofs.Binary64.Totals
import Trialnet.Proofs.LoadTest.FirstViolation

/-!
# The order of the messages

The search for a violation goes through the messages in their order, and the message that it ends
at depends on it.  Whether there is a violation does not: each rule is a matter of which messages
there are, and so is the total of their weights, if it exists.
-/

namespace Trialnet

theorem Message.Agrees.symm {a b : Message} (h : a.Agrees b) : b.Agrees a :=
  ⟨h.1.symm, fun harray => (h.2 (h.1.trans harray)).symm⟩

namespace LoadTest

variable {ms ms' : List Message} {total : Binary64}

theorem Balanced.perm (h : Balanced ms total) (hperm : ms.Perm ms') : Balanced ms' total :=
  h.imp_left fun hnil => (hnil ▸ hperm).symm.eq_nil

theorem Distinct.perm (h : Distinct ms) (hperm : ms.Perm ms') : Distinct ms' :=
  (hperm.pairwise_iff fun hne hagrees => hne hagrees.symm).1 h

/-- Each rule is obeyed in any order or in none. -/
theorem Obeys.perm (h : Obeys ms total) (hperm : ms.Perm ms') : Obeys ms' total where
  balanced := h.balanced.perm hperm
  distinct := h.distinct.perm hperm
  weight := fun m hm => h.weight m (hperm.symm.subset hm)
  complete := fun m hm => h.complete m (hperm.symm.subset hm)

/-- A sum that is right is not reported. -/
theorem Balanced.not_breaks_weightSum (h : Balanced ms total) (u : Binary64) :
    ¬ Breaks ms total (.weightSum u) := by
  intro hbreaks
  cases hbreaks with
  | weightSum hunbalanced => exact hunbalanced h
  | field _ _ _ _ hlacks => cases hlacks

/-- Let two load tests have the same messages in any two orders, in both of which the weights can
be added up.  Then the check comes to an end for both; it finds nothing in both or a violation in
both; and if the violation is the sum of the weights, then both report it, and the same sum. -/
theorem violation?_reordered {t t' : LoadTest} {total total' : Binary64}
    (hperm : t.messages.Perm t'.messages)
    (hsum : Binary64.sum (t.messages.map (·.weight)) = .ok total)
    (hsum' : Binary64.sum (t'.messages.map (·.weight)) = .ok total') :
    ∃ found found', t.violation? = .ok found ∧ t'.violation? = .ok found'
      ∧ (found = none ↔ found' = none)
      ∧ ∀ u, found = some (.weightSum u) ↔ found' = some (.weightSum u) := by
  obtain rfl : total = total' := Binary64.sum_eq_of_perm (hperm.map _) hsum hsum'
  by_cases hbalanced : Balanced t.messages total
  · have hbalanced' := hbalanced.perm hperm
    refine ⟨_, _, violation?_of_balanced hsum hbalanced, violation?_of_balanced hsum' hbalanced',
      ?_, fun u => ?_⟩
    · rw [found_eq_none_iff hbalanced, found_eq_none_iff hbalanced']
      exact ⟨fun hobeys => hobeys.perm hperm, fun hobeys => hobeys.perm hperm.symm⟩
    · rw [found_eq_some_iff hbalanced, found_eq_some_iff hbalanced']
      exact iff_of_false (hbalanced.not_breaks_weightSum u) (hbalanced'.not_breaks_weightSum u)
  · have hbalanced' : ¬ Balanced t'.messages total := fun h => hbalanced (h.perm hperm.symm)
    refine ⟨some (.weightSum total), some (.weightSum total), ?_, ?_, Iff.rfl, fun u => Iff.rfl⟩
    · rw [violation?, weightSumViolation?_of_not_balanced hsum hbalanced]
      rfl
    · rw [violation?, weightSumViolation?_of_not_balanced hsum' hbalanced']
      rfl

/-- Weights of which two are great and cancel out, in two orders: added up one after the other in
doubles they would make 0 in the first and 1 in the second. -/
theorem violation?_reordered_cancelling :
    let great : Binary64 := .ofDecimal false 1 16
    let a : Message := { kind := .send, weight := great }
    let b : Message := { kind := .writeTo, weight := .one }
    let c : Message := { kind := .multiSend, weight := great.neg }
    let t : LoadTest := { messages := [a, b, c] }
    let t' : LoadTest := { messages := [a, c, b] }
    t.messages.Perm t'.messages ∧ Binary64.sum (t.messages.map (·.weight)) = .ok .one
      ∧ Binary64.sum (t'.messages.map (·.weight)) = .ok .one
      ∧ ∃ found found', t.violation? = .ok found ∧ t'.violation? = .ok found'
        ∧ (found = none ↔ found' = none)
        ∧ ∀ u, found = some (.weightSum u) ↔ found' = some (.weightSum u) := by
  intro great a b c t t'
  have hperm : t.messages.Perm t'.messages := (List.Perm.swap c b []).cons a
  have hsum : Binary64.sum (t.messages.map (·.weight)) = .ok .one := by decide +kernel
  have hsum' : Binary64.sum (t'.messages.map (·.weight)) = .ok .one := by decide +kernel
  exact ⟨hperm, hsum, hsum', violation?_reordered hperm hsum hsum'⟩

end LoadTest

end Trialnet
