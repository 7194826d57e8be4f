import Mathlib.Data.Nat.Sqrt
import Mathlib.Logic.Function.Iterate
import Mathlib.Tactic.Common
import Mathlib.Tactic.Linarith
import Mathlib.Tactic.Positivity
import Mathlib.Tactic.Ring

/-!
# YieldTrust.Lib.NewtonSqrt

**Newton's iteration** for the integer square root, run for a fixed number of rounds. From
above, a round halves the distance to the root, and quarters it within twice the root. The
iteration then rests at the root, except that one below a square it goes back and forth between
the root and its successor.
-/

namespace NewtonSqrt

/-- One round. -/
def step (n x : Nat) : Nat := (x + n / x) / 2

/-- The values at which the iteration ends up. -/
def Settled (n x : Nat) : Prop := x = Nat.sqrt n ∨ x * x = n + 1

variable {n x c : Nat}

/-! ### One round -/

theorem sqrt_bounds (n : Nat) :
    Nat.sqrt n * Nat.sqrt n ≤ n ∧ n ≤ Nat.sqrt n * Nat.sqrt n + 2 * Nat.sqrt n := by
  have hlt := Nat.lt_succ_sqrt n
  rw [Nat.succ_mul_succ] at hlt
  exact ⟨Nat.sqrt_le n, by omega⟩

/-- No round falls below the root. -/
theorem sqrt_le_step (hx : 0 < x) : Nat.sqrt n ≤ step n x := by
  obtain ⟨hlo, -⟩ := sqrt_bounds n
  have htwice : 2 * Nat.sqrt n ≤ x + n / x := by
    by_cases hle : x ≤ 2 * Nat.sqrt n
    · obtain ⟨k, hk⟩ := Nat.exists_eq_add_of_le hle
      have hprod : k * x ≤ Nat.sqrt n * Nat.sqrt n := by
        nlinarith [sq_nonneg ((x : Int) - k)]
      have hquotient : k ≤ n / x := (Nat.le_div_iff_mul_le hx).mpr (hprod.trans hlo)
      omega
    · exact (Nat.le_of_not_le hle).trans (Nat.le_add_right _ _)
  unfold step
  omega

/-- Above the root the quotient is at most the root. -/
theorem div_le_sqrt (h : Nat.sqrt n < x) : n / x ≤ Nat.sqrt n := by
  obtain ⟨-, hhi⟩ := sqrt_bounds n
  refine Nat.le_of_lt_succ ((Nat.div_lt_iff_lt_mul (by omega)).mpr ?_)
  calc n
    _ < (Nat.sqrt n + 1) * (Nat.sqrt n + 1) := Nat.lt_succ_sqrt n
    _ ≤ (Nat.sqrt n + 1) * x := Nat.mul_le_mul_left _ h

/-- At the root a round goes up by one at most. -/
theorem step_sqrt_le (hn : 0 < n) : step n (Nat.sqrt n) ≤ Nat.sqrt n + 1 := by
  obtain ⟨-, hhi⟩ := sqrt_bounds n
  have hpos : 0 < Nat.sqrt n := Nat.sqrt_pos.mpr hn
  have hquotient : n / Nat.sqrt n ≤ Nat.sqrt n + 2 := by
    refine Nat.div_le_of_le_mul ?_
    rw [Nat.mul_add]
    omega
  unfold step
  omega

/-- A round halves the distance. -/
theorem step_le_of_half (hn : 0 < n) (hc : 0 < c) (hlo : Nat.sqrt n ≤ x)
    (hhi : x ≤ Nat.sqrt n + 2 * c) : step n x ≤ Nat.sqrt n + c := by
  rcases hlo.eq_or_lt with rfl | hlt
  · exact (step_sqrt_le hn).trans (by omega)
  · have hquotient := div_le_sqrt hlt
    unfold step
    omega

/-- Within twice the root it even quarters it. -/
theorem step_le_of_quarter (hn : 0 < n) (hc : 0 < c) (hlo : Nat.sqrt n ≤ x)
    (hhi : x ≤ Nat.sqrt n + 4 * c) (htwice : x ≤ 2 * Nat.sqrt n) :
    step n x ≤ Nat.sqrt n + c := by
  rcases hlo.eq_or_lt with rfl | hlt
  · exact (step_sqrt_le hn).trans (by omega)
  · obtain ⟨d, hd⟩ := Nat.exists_eq_add_of_le hlo
    have hquotient : 2 * (n / x) + d ≤ 2 * Nat.sqrt n + 3 := by
      by_contra hgt
      have hlarge : (2 * Nat.sqrt n + 4) * x ≤ (2 * (n / x) + d) * x :=
        Nat.mul_le_mul_right x (by omega)
      have hroot := (Nat.div_mul_le_self n x).trans (sqrt_bounds n).2
      have hsquare : d * d ≤ d * Nat.sqrt n := Nat.mul_le_mul_left d (by omega)
      generalize n / x = q at hlarge hroot
      subst hd
      nlinarith
    unfold step
    omega

/-- From the root to half of `n`, the sum of a round stays near `n`. -/
theorem add_div_le (hlo : Nat.sqrt n ≤ x) (hhi : x ≤ n / 2 + 1) (hn : 3 < n) :
    x + n / x ≤ 2 * (n / 2) + 1 := by
  have htwo : 2 ≤ Nat.sqrt n := Nat.le_sqrt.mpr (by omega)
  have hquotient : n / x ≤ n / 2 := Nat.div_le_div_left (by omega) (by decide)
  omega

/-- Above the root a round goes down. -/
theorem step_lt (h : Nat.sqrt n < x) : step n x < x := by
  have hquotient := div_le_sqrt h
  unfold step
  omega

/-- The sum of a round from a value up to `n`. -/
theorem add_div_le_succ (hx : 0 < x) (hle : x ≤ n) : x + n / x ≤ n + 1 := by
  have hprod : x * (n / x) ≤ n := Nat.mul_div_le n x
  have hquotient : 0 < n / x := Nat.div_pos hle hx
  nlinarith

/-! ### Where it ends up -/

theorem Settled.sqrt_le (h : Settled n x) : Nat.sqrt n ≤ x := by
  rcases h with rfl | h
  · exact le_rfl
  · exact (Nat.sqrt_lt.mpr (by omega)).le

theorem Settled.pos (hn : 0 < n) (h : Settled n x) : 0 < x :=
  (Nat.sqrt_pos.mpr hn).trans_le h.sqrt_le

/-- The values for different arguments are in the order of the arguments. -/
theorem Settled.le {m y : Nat} (h : Settled n x) (h' : Settled m y) (hlt : n < m) : x ≤ y := by
  refine le_trans ?_ h'.sqrt_le
  rcases h with rfl | h
  · exact Nat.sqrt_le_sqrt hlt.le
  · exact Nat.le_sqrt.mpr (by omega)

/-- The root stays where it is unless `n` is one below a square. -/
theorem step_sqrt (hn : 0 < n) (h : n ≠ Nat.sqrt n * Nat.sqrt n + 2 * Nat.sqrt n) :
    step n (Nat.sqrt n) = Nat.sqrt n := by
  obtain ⟨hlo, hhi⟩ := sqrt_bounds n
  have hpos : 0 < Nat.sqrt n := Nat.sqrt_pos.mpr hn
  have hquotient : Nat.sqrt n ≤ n / Nat.sqrt n := (Nat.le_div_iff_mul_le hpos).mpr hlo
  have hupper : n / Nat.sqrt n < Nat.sqrt n + 2 := by
    refine (Nat.div_lt_iff_lt_mul hpos).mpr ?_
    rw [Nat.add_mul]
    omega
  unfold step
  omega

/-- One below a square the root goes up. -/
theorem step_sqrt_of_eq (hn : 0 < n) (h : n = Nat.sqrt n * Nat.sqrt n + 2 * Nat.sqrt n) :
    step n (Nat.sqrt n) = Nat.sqrt n + 1 := by
  have hpos : 0 < Nat.sqrt n := Nat.sqrt_pos.mpr hn
  have hupper : n / Nat.sqrt n = Nat.sqrt n + 2 := by
    refine Nat.div_eq_of_eq_mul_left hpos ?_
    rw [Nat.add_mul]
    exact h
  unfold step
  omega

/-- The root of the square above `n`. -/
theorem eq_succ_sqrt (hn : 0 < n) (h : x * x = n + 1) : x = Nat.sqrt n + 1 := by
  have hone : 1 < x := by nlinarith
  obtain ⟨y, rfl⟩ := Nat.exists_eq_add_of_lt hone
  have hroot : y + 1 = Nat.sqrt n := Nat.eq_sqrt.mpr ⟨by nlinarith, by nlinarith⟩
  omega

/-- It goes down again. -/
theorem step_of_square (hn : 0 < n) (h : x * x = n + 1) : step n x = Nat.sqrt n := by
  have hx := eq_succ_sqrt hn h
  have hquotient : n / x ≤ Nat.sqrt n := div_le_sqrt (by omega)
  have hlow : Nat.sqrt n ≤ step n x := sqrt_le_step (by omega)
  unfold step at hlow ⊢
  omega

theorem settled_step (hn : 0 < n) (h : Settled n x) : Settled n (step n x) := by
  rcases h with rfl | h
  · by_cases hsquare : n = Nat.sqrt n * Nat.sqrt n + 2 * Nat.sqrt n
    · right
      rw [step_sqrt_of_eq hn hsquare]
      linarith
    · exact .inl (step_sqrt hn hsquare)
  · exact .inl (step_of_square hn h)

/-- From there on the values repeat after two rounds. -/
theorem step_step_of_settled (hn : 0 < n) (h : Settled n x) : step n (step n x) = x := by
  rcases h with rfl | h
  · by_cases hsquare : n = Nat.sqrt n * Nat.sqrt n + 2 * Nat.sqrt n
    · rw [step_sqrt_of_eq hn hsquare]
      refine step_of_square hn ?_
      linarith
    · rw [step_sqrt hn hsquare, step_sqrt hn hsquare]
  · have hx := eq_succ_sqrt hn h
    rw [step_of_square hn h, step_sqrt_of_eq hn, ← hx]
    subst hx
    linarith

/-- At distance one, one more round is enough. -/
theorem settled_step_of_near (hn : 0 < n) (hlo : Nat.sqrt n ≤ x) (hhi : x ≤ Nat.sqrt n + 1) :
    Settled n (step n x) := by
  rcases hlo.eq_or_lt with rfl | hlt
  · exact settled_step hn (.inl rfl)
  · have hquotient := div_le_sqrt hlt
    have hlow : Nat.sqrt n ≤ step n x := sqrt_le_step (by omega)
    left
    unfold step at hlow ⊢
    omega

/-! ### Many rounds -/

/-- `k` rounds that halve the distance. -/
theorem iterate_half (hn : 0 < n) (hc : 0 < c) (k : Nat) (hlo : Nat.sqrt n ≤ x)
    (hhi : x ≤ Nat.sqrt n + 2 ^ k * c) :
    Nat.sqrt n ≤ (step n)^[k] x ∧ (step n)^[k] x ≤ Nat.sqrt n + c := by
  induction k generalizing x with
  | zero => exact ⟨hlo, by simpa using hhi⟩
  | succ k ih =>
      have hx : 0 < x := (Nat.sqrt_pos.mpr hn).trans_le hlo
      have hpow : 2 ^ (k + 1) * c = 2 * (2 ^ k * c) := by ring
      rw [Function.iterate_succ_apply]
      exact ih (sqrt_le_step hx) (step_le_of_half hn (by positivity) hlo (hpow ▸ hhi))

/-- `k` rounds that quarter it. -/
theorem iterate_quarter (hn : 0 < n) (k : Nat) (hlo : Nat.sqrt n ≤ x)
    (hhi : x ≤ Nat.sqrt n + 4 ^ k) (htwice : x ≤ 2 * Nat.sqrt n) :
    Nat.sqrt n ≤ (step n)^[k] x ∧ (step n)^[k] x ≤ Nat.sqrt n + 1 := by
  induction k generalizing x with
  | zero => exact ⟨hlo, by simpa using hhi⟩
  | succ k ih =>
      have hpos : 0 < Nat.sqrt n := Nat.sqrt_pos.mpr hn
      have hpow : 4 ^ (k + 1) = 4 * 4 ^ k := by ring
      rw [Function.iterate_succ_apply]
      refine ih (sqrt_le_step (hpos.trans_le hlo))
        (step_le_of_quarter hn (by positivity) hlo (hpow ▸ hhi) htwice) ?_
      have hhalf : step n x ≤ Nat.sqrt n + Nat.sqrt n :=
        step_le_of_half hn hpos hlo (by omega)
      omega

theorem settled_iterate (hn : 0 < n) (h : Settled n x) (k : Nat) : Settled n ((step n)^[k] x) := by
  induction k generalizing x with
  | zero => exact h
  | succ k ih =>
      rw [Function.iterate_succ_apply]
      exact ih (settled_step hn h)

/-- The usual first guess is not below the root. -/
theorem sqrt_le_guess (n : Nat) : Nat.sqrt n ≤ max (n / 2) 1 := by
  by_cases hone : Nat.sqrt n ≤ 1
  · exact le_max_of_le_right hone
  · have htwo : 2 * Nat.sqrt n ≤ Nat.sqrt n * Nat.sqrt n := Nat.mul_le_mul_right _ (by omega)
    have hlo := Nat.sqrt_le n
    exact le_max_of_le_left (by omega)

/-- It is not too far above it either. -/
theorem guess_le {b : Nat} (hn : 0 < n) (hlt : n < 4 ^ (2 * b)) (hb : 0 < b) :
    max (n / 2) 1 ≤ Nat.sqrt n + 2 ^ (2 * b - 1) * Nat.sqrt n := by
  obtain ⟨hlo, hhi⟩ := sqrt_bounds n
  have hpos : 0 < Nat.sqrt n := Nat.sqrt_pos.mpr hn
  have hpow : 4 ^ (2 * b) = 2 ^ (2 * b) * 2 ^ (2 * b) := by
    rw [← Nat.mul_pow]
  have hroot : Nat.sqrt n < 2 ^ (2 * b) := Nat.sqrt_lt.mpr (hpow ▸ hlt)
  have hdouble : 2 ^ (2 * b) = 2 * 2 ^ (2 * b - 1) := by
    rw [← Nat.pow_succ']
    congr 1
    omega
  have hsquare : Nat.sqrt n * Nat.sqrt n ≤ 2 * (2 ^ (2 * b - 1) * Nat.sqrt n) := by
    rw [← Nat.mul_assoc, ← hdouble]
    exact Nat.mul_le_mul_right _ hroot.le
  exact max_le (by omega) (hpos.trans_le (Nat.le_add_right _ _))

/-- **Convergence.** Below `4 ^ (2 * b)` the iteration has settled after `3 * b` rounds. -/
theorem iterate_settled {b k : Nat} (hn : 0 < n) (hlt : n < 4 ^ (2 * b)) (hb : 0 < b)
    (hk : 3 * b ≤ k) : Settled n ((step n)^[k] (max (n / 2) 1)) := by
  have hroot : Nat.sqrt n < 4 ^ b := by
    refine Nat.sqrt_lt.mpr ?_
    rwa [← Nat.pow_two, ← Nat.pow_mul, Nat.mul_comm b 2]
  obtain ⟨hlo, hhi⟩ := iterate_half hn (Nat.sqrt_pos.mpr hn) (2 * b - 1)
    (sqrt_le_guess n) (guess_le hn hlt hb)
  obtain ⟨hlo, hhi⟩ := iterate_quarter hn b hlo (by omega) (by omega)
  have hsettled := settled_iterate hn (settled_step_of_near hn hlo hhi) (k - 3 * b)
  rw [← Function.iterate_add_apply, ← Function.iterate_succ_apply' (step n),
    ← Function.iterate_add_apply] at hsettled
  have hrounds : k - 3 * b + (b + (2 * b - 1)).succ = k := by omega
  rwa [hrounds] at hsettled

end NewtonSqrt
