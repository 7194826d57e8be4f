import YieldTrust.Lib.NewtonSqrt
import YieldTrust.QuadraticVoting.Contract

/-!
# YieldTrust.QuadraticVoting.VoteCost

Costs and votes. Newton's iteration from above goes down to the root and stops there, and the two
divisions by the precision together are one division rounded down: the votes for a cost are the
most that the cost pays for.
-/

namespace YieldTrust.QuadraticVoting

open Fallible

variable {n x v w c d cost : Nat}

/-! ### The integer square root -/

/-- **Loop invariant**: `x` has not fallen below the root, and `y` is the round after it. -/
theorem integerSqrtLoop_eq (hn : 0 < n) (hsize : n + 1 < U128.size) (hlo : Nat.sqrt n ≤ x)
    (hhi : x ≤ n) : integerSqrtLoop n x (NewtonSqrt.step n x) = .ok (Nat.sqrt n) := by
  induction x using Nat.strong_induction_on with
  | _ x ih =>
      have hx : 0 < x := (Nat.sqrt_pos.mpr hn).trans_le hlo
      have hnext : Nat.sqrt n ≤ NewtonSqrt.step n x := NewtonSqrt.sqrt_le_step hx
      have hpos : 0 < NewtonSqrt.step n x := (Nat.sqrt_pos.mpr hn).trans_le hnext
      rw [integerSqrtLoop]
      split_ifs with hdown
      · have hle : NewtonSqrt.step n x ≤ n := hdown.le.trans hhi
        have hdiv : U128.checkedDiv n (NewtonSqrt.step n x) =
            some (n / NewtonSqrt.step n x) :=
          U128.checkedDiv_eq_some.mpr ⟨hpos.ne', rfl⟩
        have hadd : U128.checkedAdd (NewtonSqrt.step n x) (n / NewtonSqrt.step n x) =
            some (NewtonSqrt.step n x + n / NewtonSqrt.step n x) :=
          U128.checkedAdd_eq_some.mpr
            ⟨(NewtonSqrt.add_div_le_succ hpos hle).trans_lt hsize, rfl⟩
        simp only [hdiv, hadd, orTrap, bind, Except.bind]
        exact ih _ hdown hnext hle
      · -- the loop stops only at the root
        have hroot : x = Nat.sqrt n := by
          by_contra hne
          exact hdown (NewtonSqrt.step_lt (by omega))
        rw [hroot]
        rfl

theorem integerSqrt_eq (hsize : n + 1 < U128.size) : integerSqrt n = .ok (Nat.sqrt n) := by
  unfold integerSqrt
  split_ifs with hzero
  · rw [hzero, Nat.sqrt_zero]
    rfl
  · have hn : 0 < n := by omega
    have hguess : (n + 1) / 2 = NewtonSqrt.step n n := by
      unfold NewtonSqrt.step
      rw [Nat.div_self hn]
    have hadd : U128.checkedAdd n 1 = some (n + 1) :=
      U128.checkedAdd_eq_some.mpr ⟨hsize, rfl⟩
    simp only [hadd, orTrap, bind, Except.bind]
    rw [hguess]
    exact integerSqrtLoop_eq hn hsize (Nat.sqrt_le_self n) le_rfl

/-! ### Costs -/

theorem qvPrecision_eq : qvPrecision = 10 ^ 6 := rfl

theorem qvPrecision_pos : 0 < qvPrecision := by decide

/-- The cost is exact: the square of a multiple of the precision is divided by the precision. -/
theorem calculateVoteCost_eq_ok : calculateVoteCost v = .ok cost ↔
    v * qvPrecision < U128.size ∧ v * qvPrecision * (v * qvPrecision) < U128.size ∧
      v * v * qvPrecision = cost := by
  have hexact : v * qvPrecision * (v * qvPrecision) / qvPrecision = v * v * qvPrecision := by
    rw [← Nat.mul_assoc, Nat.mul_div_cancel _ qvPrecision_pos, Nat.mul_right_comm]
  simp only [calculateVoteCost, bind_eq_ok, orTrap_eq_ok, U128.checkedMul_eq_some, pure_eq_ok]
  constructor
  · rintro ⟨_, ⟨hscaled, rfl⟩, _, ⟨hsquare, rfl⟩, rfl⟩
    exact ⟨hscaled, hsquare, hexact.symm⟩
  · rintro ⟨hscaled, hsquare, rfl⟩
    exact ⟨_, ⟨hscaled, rfl⟩, _, ⟨hsquare, rfl⟩, hexact⟩

/-- The scaled cost is even, so it is not the largest `u128`. -/
theorem scaled_succ_lt (h : c * qvPrecision < U128.size) : c * qvPrecision + 1 < U128.size := by
  have heven : U128.size = 2 * 2 ^ 127 := by decide
  have hproduct : c * qvPrecision = 2 * (c * 500000) := by
    have hprecision : qvPrecision = 2 * 500000 := rfl
    rw [hprecision, Nat.mul_left_comm]
  omega

theorem calculateVotesFromCost_eq_ok : calculateVotesFromCost c = .ok v ↔
    c * qvPrecision < U128.size ∧ Nat.sqrt (c * qvPrecision) / qvPrecision = v := by
  simp only [calculateVotesFromCost, bind_eq_ok, orTrap_eq_ok, U128.checkedMul_eq_some, pure_eq_ok]
  constructor
  · rintro ⟨_, ⟨hfits, rfl⟩, root, hroot, rfl⟩
    rw [integerSqrt_eq (scaled_succ_lt hfits)] at hroot
    cases hroot
    exact ⟨hfits, rfl⟩
  · rintro ⟨hfits, rfl⟩
    exact ⟨_, ⟨hfits, rfl⟩, _, integerSqrt_eq (scaled_succ_lt hfits), rfl⟩

/-- The two divisions together. -/
theorem le_votes_iff : v ≤ Nat.sqrt (c * qvPrecision) / qvPrecision ↔ v * v * qvPrecision ≤ c := by
  rw [Nat.le_div_iff_mul_le qvPrecision_pos, Nat.le_sqrt]
  have hsquare : v * qvPrecision * (v * qvPrecision) = v * v * qvPrecision * qvPrecision := by
    ring
  rw [hsquare]
  exact Nat.mul_le_mul_right_iff qvPrecision_pos

/-- `v` is the most votes that `c` pays for. -/
structure MostVotes (c v : Nat) : Prop where
  affordable : v ^ 2 * 10 ^ 6 ≤ c
  most : ∀ w, w ^ 2 * 10 ^ 6 ≤ c → w ≤ v
  /-- In terms of the other function. -/
  cost_le : ∃ cost, calculateVoteCost v = .ok cost ∧ cost ≤ c
  most_cost : ∀ w cost, calculateVoteCost w = .ok cost → cost ≤ c → w ≤ v

theorem mostVotes (h : c * qvPrecision < U128.size) :
    MostVotes c (Nat.sqrt (c * qvPrecision) / qvPrecision) := by
  have hpower (w : Nat) : w ^ 2 * 10 ^ 6 = w * w * qvPrecision := by
    rw [Nat.pow_two, qvPrecision_eq]
  have hle := le_votes_iff.mp (le_refl (Nat.sqrt (c * qvPrecision) / qvPrecision))
  refine ⟨(hpower _).le.trans hle, fun w hw => le_votes_iff.mpr ((hpower w).ge.trans hw),
    ⟨_, ?_, hle⟩, ?_⟩
  · have hscaled : Nat.sqrt (c * qvPrecision) / qvPrecision * qvPrecision ≤
        Nat.sqrt (c * qvPrecision) := Nat.div_mul_le_self _ _
    have hsquare := (Nat.mul_le_mul hscaled hscaled).trans (Nat.sqrt_le (c * qvPrecision))
    generalize Nat.sqrt (c * qvPrecision) / qvPrecision = v at hscaled hsquare ⊢
    have hfits : v * qvPrecision < U128.size :=
      (hscaled.trans (Nat.sqrt_le_self _)).trans_lt h
    exact calculateVoteCost_eq_ok.mpr ⟨hfits, hsquare.trans_lt h, rfl⟩
  · intro w cost hcost hle
    obtain ⟨-, -, rfl⟩ := calculateVoteCost_eq_ok.mp hcost
    exact le_votes_iff.mpr hle

/-- The votes for the cost of `v` votes are these. -/
theorem calculateVotesFromCost_of_cost (h : calculateVoteCost v = .ok cost) :
    calculateVotesFromCost cost = .ok v := by
  obtain ⟨-, hsquare, rfl⟩ := calculateVoteCost_eq_ok.mp h
  have hproduct : v * v * qvPrecision * qvPrecision = v * qvPrecision * (v * qvPrecision) := by
    ring
  refine calculateVotesFromCost_eq_ok.mpr ⟨hproduct.trans_lt hsquare, ?_⟩
  rw [hproduct, Nat.sqrt_eq, Nat.mul_div_cancel _ qvPrecision_pos]

theorem calculateVoteCost_mono {cost' : Nat} (h : calculateVoteCost v = .ok cost)
    (h' : calculateVoteCost w = .ok cost') (hle : v ≤ w) : cost ≤ cost' := by
  obtain ⟨-, -, rfl⟩ := calculateVoteCost_eq_ok.mp h
  obtain ⟨-, -, rfl⟩ := calculateVoteCost_eq_ok.mp h'
  exact Nat.mul_le_mul_right _ (Nat.mul_le_mul hle hle)

theorem calculateVotesFromCost_mono (h : calculateVotesFromCost c = .ok v)
    (h' : calculateVotesFromCost d = .ok w) (hle : c ≤ d) : v ≤ w := by
  obtain ⟨-, rfl⟩ := calculateVotesFromCost_eq_ok.mp h
  obtain ⟨-, rfl⟩ := calculateVotesFromCost_eq_ok.mp h'
  exact Nat.div_le_div_right (Nat.sqrt_le_sqrt (Nat.mul_le_mul_right _ hle))

/-- **Votes and costs.** The votes for a cost are found without an overflow, as long as the scaled
cost fits, and are the most that the cost pays for. For the cost of some votes they are these
votes, and neither function decreases. -/
theorem votes_inverse_to_cost :
    (∀ c, c * 10 ^ 6 < U128.size → ∃ v, calculateVotesFromCost c = .ok v ∧ MostVotes c v) ∧
      (∀ v cost, calculateVoteCost v = .ok cost → calculateVotesFromCost cost = .ok v) ∧
      (∀ v w cost cost', calculateVoteCost v = .ok cost → calculateVoteCost w = .ok cost' →
        v ≤ w → cost ≤ cost') ∧
      ∀ c d v w, calculateVotesFromCost c = .ok v → calculateVotesFromCost d = .ok w →
        c ≤ d → v ≤ w :=
  ⟨fun _ hfits => by
      rw [← qvPrecision_eq] at hfits
      exact ⟨_, calculateVotesFromCost_eq_ok.mpr ⟨hfits, rfl⟩, mostVotes hfits⟩,
    fun _ _ => calculateVotesFromCost_of_cost, fun _ _ _ _ => calculateVoteCost_mono,
    fun _ _ _ _ => calculateVotesFromCost_mono⟩

/-- Three votes and not four can be paid with `15` million. -/
theorem votes_inverse_to_cost_of_three :
    calculateVoteCost 3 = .ok 9000000 ∧ calculateVotesFromCost 9000000 = .ok 3 ∧
      ∃ v, calculateVotesFromCost 15000000 = .ok v ∧ MostVotes 15000000 v := by
  obtain ⟨hvotes, hinverse, -⟩ := votes_inverse_to_cost
  have hcost : calculateVoteCost 3 = .ok 9000000 :=
    calculateVoteCost_eq_ok.mpr ⟨by decide, by decide, rfl⟩
  exact ⟨hcost, hinverse 3 _ hcost, hvotes _ (by decide)⟩

end YieldTrust.QuadraticVoting
