import Mathlib.Data.Nat.Sqrt
import Mathlib.Tactic.Linarith
import YieldTrust.GrantStream.Types

/-!
# YieldTrust.GrantStream.IntegerSqrt

The integer square root of `lib.rs`, by bisection over the `u128` values. Where the square of the
middle does not fit, the search goes on below it. The first middle is about half of the
argument, and not below the root, so that no later sum of both ends is larger than the first one.
-/

namespace YieldTrust.GrantStream

open Fallible

/-- The loop of `integerSqrt`: the root is sought from `low` to `high`. -/
def integerSqrtLoop (n low high result : Nat) : Res Nat :=
  if low ≤ high then
    -- the operators are plain `u128` ones
    if U128.size ≤ low + high then trap
    else
      let mid := (low + high) / 2
      match U128.checkedMul mid mid with
      | none => if mid = 0 then trap else integerSqrtLoop n low (mid - 1) result
      | some midSquared =>
        if midSquared = n then pure mid
        else if midSquared < n then
          if U128.size ≤ mid + 1 then trap else integerSqrtLoop n (mid + 1) high mid
        else if mid = 0 then trap else integerSqrtLoop n low (mid - 1) result
  else pure result
termination_by high + 1 - low

/-- The integer square root, by bisection. -/
def integerSqrt (n : Nat) : Res Nat :=
  if n ≤ 1 then pure n else integerSqrtLoop n 1 n 1

/-- Where the loop stands: the root is not below `low - 1` nor above `high`. -/
structure Bisects (n low high result : Nat) : Prop where
  low_pos : 0 < low
  low_le : low ≤ Nat.sqrt n + 1
  le_high : Nat.sqrt n ≤ high
  high_le : high ≤ n
  result : low = 1 ∨ result + 1 = low
  /-- After the first round one half is left, unless there is hardly anything to bisect. -/
  half : (low = 1 ∧ high = n) ∨ 2 * high ≤ n ∨ n ≤ 3

namespace Bisects

variable {n low high result : Nat}

theorem start (n result : Nat) : Bisects n 1 n result :=
  ⟨by omega, by omega, Nat.sqrt_le_self n, le_rfl, .inl rfl, .inl ⟨rfl, rfl⟩⟩

theorem twice_sqrt_le (hn : 1 < n) : 2 * Nat.sqrt n ≤ n := by
  have hsquare := Nat.sqrt_le n
  rcases Nat.lt_or_ge (Nat.sqrt n) 2 with hsmall | hlarge
  · omega
  · exact (Nat.mul_le_mul_right _ hlarge).trans hsquare

/-- The sum of both ends stays what it was, up to the smallest arguments. -/
theorem sum_le (h : Bisects n low high result) (hn : 1 < n) :
    low + high ≤ n + 1 ∨ low + high ≤ 5 := by
  have htwice := twice_sqrt_le hn
  have hlow := h.low_le
  have hhigh := h.high_le
  rcases h.half with ⟨rfl, rfl⟩ | hhalf | hsmall
  · omega
  · omega
  · omega

/-- Going on above `mid`, the square of which is too small. -/
theorem above (h : Bisects n low high result) {mid : Nat} (hmid : mid = (low + high) / 2)
    (hlt : mid * mid < n) : Bisects n (mid + 1) high mid := by
  have hroot : mid ≤ Nat.sqrt n := Nat.le_sqrt.mpr hlt.le
  refine ⟨by omega, by omega, h.le_high, h.high_le, .inr rfl, ?_⟩
  rcases h.half with ⟨rfl, rfl⟩ | hhalf | hsmall
  · -- half of a larger argument is not below the root
    refine .inr (.inr ?_)
    by_contra hlarge
    have htwo : 2 ≤ mid := by omega
    have hsquare : 2 * mid ≤ mid * mid := Nat.mul_le_mul_right _ htwo
    omega
  · exact .inr (.inl hhalf)
  · exact .inr (.inr hsmall)

/-- Going on below `mid`, the square of which is too large. -/
theorem below (h : Bisects n low high result) (hle : low ≤ high) {mid : Nat}
    (hmid : mid = (low + high) / 2) (hlt : n < mid * mid) : Bisects n low (mid - 1) result := by
  have hroot : Nat.sqrt n < mid := Nat.sqrt_lt.mpr hlt
  have hhigh := h.high_le
  refine ⟨h.low_pos, h.low_le, by omega, by omega, h.result, ?_⟩
  rcases h.half with ⟨rfl, rfl⟩ | hhalf | hsmall
  · exact .inr (.inl (by omega))
  · exact .inr (.inl (by omega))
  · exact .inr (.inr hsmall)

end Bisects

/-- No operator overflows, and the bisection finds the root. -/
theorem integerSqrtLoop_eq {n low high result : Nat} (hn : 1 < n) (hsize : n + 1 < U128.size)
    (h : Bisects n low high result) : integerSqrtLoop n low high result = .ok (Nat.sqrt n) := by
  fun_induction integerSqrtLoop n low high result with
  | case1 low high result hle hsum =>
      have hsmall : 5 < U128.size := by decide
      have := h.sum_le hn
      omega
  | case2 low high result hle _ mid hsquare hmid =>
      have := h.low_pos
      omega
  | case3 low high result hle _ mid hsquare hmid ih =>
      -- the square of `mid` does not even fit
      refine ih (h.below hle rfl ?_)
      unfold U128.checkedMul at hsquare
      split_ifs at hsquare
      omega
  | case4 low high result hle _ mid hsquare =>
      obtain ⟨-, hsquare⟩ := U128.checkedMul_eq_some.mp hsquare
      rw [← hsquare, Nat.sqrt_eq]
      rfl
  | case5 low high result hle _ mid midSquared hsquare hne hlt hsum =>
      have hhigh := h.high_le
      omega
  | case6 low high result hle _ mid midSquared hsquare hne hlt hsum ih =>
      obtain ⟨-, rfl⟩ := U128.checkedMul_eq_some.mp hsquare
      exact ih (h.above rfl hlt)
  | case7 low high result hle _ mid midSquared hsquare hne hge hmid =>
      have := h.low_pos
      omega
  | case8 low high result hle _ mid midSquared hsquare hne hge hmid ih =>
      obtain ⟨-, rfl⟩ := U128.checkedMul_eq_some.mp hsquare
      exact ih (h.below hle rfl (by omega))
  | case9 low high result hgt =>
      have hpos : 0 < Nat.sqrt n := Nat.sqrt_pos.mpr (by omega)
      have hlow := h.low_le
      have hhigh := h.le_high
      rcases h.result with hone | hresult
      · omega
      · have hroot : result = Nat.sqrt n := by omega
        rw [hroot]
        rfl

theorem integerSqrt_eq {n : Nat} (hsize : n + 1 < U128.size) :
    integerSqrt n = .ok (Nat.sqrt n) := by
  unfold integerSqrt
  split_ifs with hn
  · have hroot : Nat.sqrt n = n := by
      rcases Nat.le_one_iff_eq_zero_or_eq_one.mp hn with rfl | rfl
      · exact Nat.sqrt_zero
      · exact Nat.sqrt_one
    rw [hroot]
    rfl
  · exact integerSqrtLoop_eq (by omega) hsize (.start n 1)

/-- **The bisection.** Below the largest `u128` the search ends, without an overflow, at the
root rounded down. -/
theorem bisection_finds_root {n : Nat} (hn : n < U128.size - 1) :
    ∃ r, integerSqrt n = .ok r ∧ r * r ≤ n ∧ n < (r + 1) * (r + 1) :=
  ⟨Nat.sqrt n, integerSqrt_eq (by omega), Nat.sqrt_le n, Nat.lt_succ_sqrt n⟩

/-- The largest argument: the square of the first middle does not fit. -/
theorem bisection_finds_root_of_largest :
    ∃ r, integerSqrt (2 ^ 128 - 2) = .ok r ∧ r * r ≤ 2 ^ 128 - 2 ∧
      2 ^ 128 - 2 < (r + 1) * (r + 1) :=
  bisection_finds_root (by decide)

end YieldTrust.GrantStream
