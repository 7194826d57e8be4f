import Mathlib.Algebra.BigOperators.Ring.Finset
import Mathlib.Algebra.Order.BigOperators.Group.Finset
import Mathlib.Algebra.Order.Ring.Int
import Mathlib.Tactic.Linarith
import Mathlib.Tactic.Ring

/-!
# YieldTrust.Lib.ProRata

Shares that are **rounded down**. An amount is split by the share of one part in a whole,
where the share is first rounded to a multiple of `1 / scale`; or an amount is given to
several takers by their weights.
-/

namespace ProRata

variable {scale part whole amount share rest : Int}

/-- The share of a part in a whole takes no more than the part out of the whole. -/
theorem part_taken_le (hscale : 0 < scale) (hpart : 0 ≤ part) (hwhole : 0 < whole)
    (hle : amount ≤ whole) : amount * (part * scale / whole) / scale ≤ part := by
  have hshare : 0 ≤ part * scale / whole :=
    Int.ediv_nonneg (Int.mul_nonneg hpart hscale.le) hwhole.le
  have htaken : amount * (part * scale / whole) ≤ part * scale :=
    calc amount * (part * scale / whole)
      _ ≤ whole * (part * scale / whole) := Int.mul_le_mul_of_nonneg_right hle hshare
      _ ≤ part * scale := Int.mul_ediv_self_le hwhole.ne'
  calc amount * (part * scale / whole) / scale
    _ ≤ part * scale / scale := Int.ediv_le_ediv hscale htaken
    _ = part := Int.mul_ediv_cancel part hscale.ne'

/-- What a share leaves of the amount is at most `rest` exactly if the exact complement of
the share is. -/
theorem left_le_iff (hscale : 0 < scale) :
    amount - amount * share / scale ≤ rest ↔ amount * (scale - share) ≤ rest * scale := by
  have hmul : amount * (scale - share) = amount * scale - amount * share := by ring
  have hdiff : (amount - rest) * scale = amount * scale - rest * scale := by ring
  calc amount - amount * share / scale ≤ rest
    _ ↔ amount - rest ≤ amount * share / scale := by omega
    _ ↔ (amount - rest) * scale ≤ amount * share := Int.le_ediv_iff_mul_le hscale
    _ ↔ amount * (scale - share) ≤ rest * scale := by rw [hmul, hdiff]; omega

/-- Takers whose weights add up to at most the whole get at most the amount. -/
theorem sum_shares_le {ι : Type} {takers : Finset ι} {weight : ι → Int} (hwhole : 0 < whole)
    (hamount : 0 ≤ amount) (hle : ∑ i ∈ takers, weight i ≤ whole) :
    ∑ i ∈ takers, weight i * amount / whole ≤ amount := by
  refine Int.le_of_mul_le_mul_left ?_ hwhole
  calc whole * ∑ i ∈ takers, weight i * amount / whole
    _ = ∑ i ∈ takers, whole * (weight i * amount / whole) := Finset.mul_sum ..
    _ ≤ ∑ i ∈ takers, weight i * amount :=
      Finset.sum_le_sum fun _ _ => Int.mul_ediv_self_le hwhole.ne'
    _ = (∑ i ∈ takers, weight i) * amount := (Finset.sum_mul ..).symm
    _ ≤ whole * amount := Int.mul_le_mul_of_nonneg_right hle hamount

/-- Parts of two balances, rounded down, are as the balances up to a unit. -/
theorem part_lt_part {shares total balance balance' : Int} (htotal : 0 < total)
    (hbalance : 0 < balance) (hbalance' : 0 < balance') :
    shares * balance' / total * balance < (shares * balance / total + 1) * balance' := by
  have hle := Int.ediv_mul_le (shares * balance') htotal.ne'
  have hlt := Int.lt_ediv_add_one_mul_self (shares * balance) htotal
  refine Int.lt_of_mul_lt_mul_right ?_ htotal.le
  calc shares * balance' / total * balance * total
    _ = shares * balance' / total * total * balance := by ring
    _ ≤ shares * balance' * balance := Int.mul_le_mul_of_nonneg_right hle hbalance.le
    _ = shares * balance * balance' := by ring
    _ < (shares * balance / total + 1) * total * balance' :=
      Int.mul_lt_mul_of_pos_right hlt hbalance'
    _ = (shares * balance / total + 1) * balance' * total := by ring

/-- What rounding down takes off the shares of a list of weights. -/
theorem sum_map_shares_bounds (hwhole : 0 < whole) (weights : List Int) :
    whole * (weights.map (· * amount / whole)).sum ≤ weights.sum * amount ∧
      weights.sum * amount ≤
        whole * (weights.map (· * amount / whole)).sum + (whole - 1) * weights.length := by
  induction weights with
  | nil => simp
  | cons weight weights ih =>
      have hdiv := Int.mul_ediv_add_emod (weight * amount) whole
      have hnonneg := Int.emod_nonneg (weight * amount) hwhole.ne'
      have hlt := Int.emod_lt_of_pos (weight * amount) hwhole
      simp only [List.map_cons, List.sum_cons, List.length_cons, mul_add, add_mul, Nat.cast_add,
        Nat.cast_one, mul_one]
      constructor <;> linarith [ih.1, ih.2]

/-- Takers who share by their weights leave less of the amount than there are takers. -/
theorem sum_map_shares {weights : List Int} (hwhole : 0 < weights.sum) :
    (weights.map (· * amount / weights.sum)).sum ≤ amount ∧
      amount - (weights.map (· * amount / weights.sum)).sum < weights.length := by
  obtain ⟨hle, hge⟩ := @sum_map_shares_bounds _ amount hwhole weights
  have hlength : 0 < (weights.length : Int) := by
    cases weights with
    | nil => simp at hwhole
    | cons weight weights => simp
  constructor
  · exact Int.le_of_mul_le_mul_left hle hwhole
  · refine Int.lt_of_mul_lt_mul_left (a := weights.sum) ?_ hwhole.le
    linarith

/-- Shares of natural numbers, rounded down one by one, are together at most the amount. -/
theorem sum_map_div_le (weights : List Nat) (amount : Nat) :
    (weights.map (· * amount / weights.sum)).sum ≤ amount := by
  have hsum (whole : Nat) :
      (weights.map (· * amount / whole)).sum ≤ weights.sum * amount / whole := by
    induction weights with
    | nil => simp
    | cons weight weights ih =>
        simp only [List.map_cons, List.sum_cons, Nat.add_mul]
        exact (Nat.add_le_add_left ih _).trans Nat.div_add_div_le_add_div
  exact (hsum _).trans (Nat.div_le_of_le_mul le_rfl)

/-- A share that is rounded down to a multiple of `unit`. -/
theorem unit_share_bounds {unit scale part whole : Nat} (hunit : 0 < unit) (hwhole : 0 < whole) :
    unit * (part * scale / whole) * whole ≤ unit * scale * part ∧
      unit * scale * part < (unit * (part * scale / whole) + unit) * whole := by
  have hle := Nat.div_mul_le_self (part * scale) whole
  have hlt := Nat.lt_div_mul_add hwhole (a := part * scale)
  have hproduct : unit * scale * part = unit * (part * scale) := by ring
  constructor
  · calc unit * (part * scale / whole) * whole
      _ = unit * (part * scale / whole * whole) := by ring
      _ ≤ unit * (part * scale) := Nat.mul_le_mul_left unit hle
      _ = unit * scale * part := hproduct.symm
  · calc unit * scale * part
      _ = unit * (part * scale) := hproduct
      _ < unit * (part * scale / whole * whole + whole) := Nat.mul_lt_mul_of_pos_left hlt hunit
      _ = (unit * (part * scale / whole) + unit) * whole := by ring

end ProRata
