import Mathlib.Data.List.Perm.Subperm

/-!
# YieldTrust.Lib.Quorum

**Quorums**: so many different parties satisfy a predicate. Programs count the
entries of a list of parties instead, and the two agree exactly as long as no
party is listed twice.
-/

variable {α : Type} {n : Nat} {p q : α → Prop}

/-- At least `n` pairwise distinct elements satisfy `p`. -/
def Quorum (n : Nat) (p : α → Prop) : Prop :=
  ∃ l : List α, l.Nodup ∧ n ≤ l.length ∧ ∀ a ∈ l, p a

namespace Quorum

theorem mono (h : Quorum n p) (hpq : ∀ a, p a → q a) : Quorum n q := by
  obtain ⟨l, hnodup, hlen, hall⟩ := h
  exact ⟨l, hnodup, hlen, fun a ha => hpq a (hall a ha)⟩

/-- Entries of a list without repetitions are different parties. -/
theorem of_countP {l : List α} {f : α → Bool} (hnodup : l.Nodup) (h : n ≤ l.countP f) :
    Quorum n fun a => a ∈ l ∧ f a = true := by
  refine ⟨l.filter f, hnodup.filter f, ?_, fun a ha => List.mem_filter.mp ha⟩
  rw [← List.countP_eq_length_filter]
  exact h

/-- Different parties are different entries of any list that has them. -/
theorem le_countP {l : List α} {f : α → Bool} (h : Quorum n fun a => a ∈ l ∧ f a = true) :
    n ≤ l.countP f := by
  obtain ⟨parties, hnodup, hlen, hall⟩ := h
  have hsub : parties.Subperm (l.filter f) :=
    hnodup.subperm fun a ha => List.mem_filter.mpr (hall a ha)
  rw [List.countP_eq_length_filter]
  exact Nat.le_trans hlen hsub.length_le

end Quorum
