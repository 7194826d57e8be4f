import YieldTrust.Lib.NewtonSqrt
import YieldTrust.Matching.Contract

/-!
# YieldTrust.Matching.SquareRoot

The square roots of `isqrtFixedPoint`. The loop stops early only where the iteration stands still,
so it always returns the iterate after `100` rounds. By then the iteration has settled for every
`i128`: at the root or, one below a square, at the root or its successor, depending on the parity
of the rounds.
-/

namespace YieldTrust.Matching

open Fallible

/-- One round of the loop, where it does not overflow. -/
def newtonRound (n x : Int) : Int := (x + n.tdiv x).tdiv 2

/-- The value the loop starts with. -/
def firstGuess (n : Int) : Int := max (n.tdiv 2) 1

section SquareRoots

variable {n m k : Nat} {a b r r' : Int}

/-! ### The rounds -/

theorem div_cast (n m : Nat) : (n : Int).tdiv (m : Int) = (n / m : Nat) := by
  rw [Int.tdiv_eq_ediv_of_nonneg (by omega)]
  rfl

/-- One round of the loop is one round of the iteration. -/
theorem newtonRound_cast (n m : Nat) : newtonRound n m = (NewtonSqrt.step n m : Nat) := by
  unfold newtonRound
  rw [div_cast, ← Int.natCast_add, Int.tdiv_eq_ediv_of_nonneg (Int.natCast_nonneg _)]
  rfl

theorem iterate_newtonRound_cast (n m k : Nat) :
    (newtonRound n)^[k] m = ((NewtonSqrt.step n)^[k] m : Nat) := by
  induction k generalizing m with
  | zero => rfl
  | succ k ih => rw [Function.iterate_succ_apply, Function.iterate_succ_apply, newtonRound_cast, ih]

theorem firstGuess_cast (n : Nat) : firstGuess n = (max (n / 2) 1 : Nat) := by
  unfold firstGuess
  rw [Int.tdiv_eq_ediv_of_nonneg (by omega)]
  omega

/-- Where a value of the loop can be. -/
structure Within (n x : Nat) : Prop where
  sqrt_le : Nat.sqrt n ≤ x
  le_half : x ≤ n / 2 + 1

theorem Within.guess (hn : 0 < n) : Within n (max (n / 2) 1) where
  sqrt_le := NewtonSqrt.sqrt_le_guess n
  le_half := by omega

theorem Within.pos (h : Within n m) (hn : 0 < n) : 0 < m :=
  (Nat.sqrt_pos.mpr hn).trans_le h.sqrt_le

/-- The sum of a round fits. -/
theorem Within.sum_le (h : Within n m) (hn : 0 < n) :
    m + n / m ≤ max (2 * (n / 2) + 1) 4 := by
  by_cases hsmall : n ≤ 3
  · have hquotient := Nat.div_le_self n m
    have hle := h.le_half
    by_cases hone : m = 1
    · omega
    · have hhalf : n / m ≤ n / 2 := Nat.div_le_div_left (by have := h.pos hn; omega) (by decide)
      omega
  · exact (NewtonSqrt.add_div_le h.sqrt_le h.le_half (by omega)).trans (le_max_left _ _)

theorem Within.step (h : Within n m) (hn : 0 < n) : Within n (NewtonSqrt.step n m) where
  sqrt_le := NewtonSqrt.sqrt_le_step (h.pos hn)
  le_half := by
    have hsum := h.sum_le hn
    have hle := h.le_half
    have hquotient := Nat.div_le_self n m
    unfold NewtonSqrt.step
    omega

/-- The loop never overflows, and where it stops early the iteration stands still. -/
theorem isqrtLoop_eq (hn : 0 < n) (hmax : n ≤ I128.max) (rounds : Nat) (h : Within n m) :
    isqrtLoop n rounds m = .ok ((newtonRound n)^[rounds] m) := by
  induction rounds generalizing m with
  | zero => rfl
  | succ rounds ih =>
      have hm := h.pos hn
      have hsum := h.sum_le hn
      have hle := (h.step hn).le_half
      have hmax' : I128.max = 2 ^ 127 - 1 := rfl
      have hfits : ∀ {y : Nat}, y ≤ max (2 * (n / 2) + 1) 4 → I128.InRange y := fun hy =>
        I128.inRange_max.of_nonneg_of_le (by omega) (by omega)
      have hdiv : I128.checkedDiv n m = some ((n / m : Nat) : Int) :=
        I128.checkedDiv_eq_some.mpr
          ⟨by omega, by rw [div_cast]; exact hfits (by omega), div_cast n m⟩
      have hadd : I128.checkedAdd m (n / m : Nat) = some ((m : Int) + (n / m : Nat)) :=
        I128.checkedAdd_eq_some.mpr ⟨by exact_mod_cast hfits hsum, rfl⟩
      have hround : ((m : Int) + (n / m : Nat)).tdiv 2 = (NewtonSqrt.step n m : Nat) := by
        rw [← div_cast]
        exact newtonRound_cast n m
      have hhalf : I128.checkedDiv (m + (n / m : Nat)) 2 =
          some ((NewtonSqrt.step n m : Nat) : Int) :=
        I128.checkedDiv_eq_some.mpr
          ⟨by decide, by rw [hround]; exact hfits (by omega), hround⟩
      rw [Function.iterate_succ_apply, newtonRound_cast, ← ih (h.step hn)]
      simp only [isqrtLoop, hdiv, hadd, hhalf, okOr, orTrap, bind, Except.bind]
      split_ifs with hstill
      · rw [hstill, ih h, Function.iterate_fixed]
        · rfl
        · rw [newtonRound_cast, hstill]
      · rfl

/-! ### The square root -/

theorem isqrtFixedPoint_eq (hn : 0 < n) (hmax : n ≤ I128.max) :
    isqrtFixedPoint n = .ok ((newtonRound n)^[100] (firstGuess n)) := by
  unfold isqrtFixedPoint
  rw [if_neg (by omega), if_neg (by omega), firstGuess_cast]
  exact firstGuess_cast n ▸ isqrtLoop_eq hn hmax 100 (.guess hn)

/-- After `96` rounds the iteration has settled for every `i128`. -/
theorem iterate_settled (hn : 0 < n) (hmax : n ≤ I128.max) (hk : 96 ≤ k) :
    ∃ root : Nat, (newtonRound n)^[k] (firstGuess n) = root ∧ NewtonSqrt.Settled n root := by
  have hlt : n < 4 ^ (2 * 32) := by
    have hsize : I128.max < 4 ^ (2 * 32) := by decide
    omega
  refine ⟨(NewtonSqrt.step n)^[k] (max (n / 2) 1), ?_,
    NewtonSqrt.iterate_settled hn hlt (by decide) hk⟩
  rw [firstGuess_cast, iterate_newtonRound_cast]

/-- **Square roots.** `isqrtFixedPoint` returns a value at which the iteration settles. -/
theorem isqrtFixedPoint_settled (hrange : I128.InRange a) (h : isqrtFixedPoint a = .ok r) :
    ∃ n root : Nat, a = n ∧ r = root ∧ NewtonSqrt.Settled n root := by
  by_cases hneg : a < 0
  · unfold isqrtFixedPoint at h
    rw [if_pos hneg] at h
    exact absurd h fail_ne_ok
  · obtain ⟨n, rfl⟩ := Int.eq_ofNat_of_zero_le (Int.not_lt.mp hneg)
    rcases Nat.eq_zero_or_pos n with rfl | hn
    · exact ⟨0, 0, rfl, (pure_eq_ok.mp h).symm, .inl Nat.sqrt_zero.symm⟩
    · obtain ⟨root, hroot, hsettled⟩ := iterate_settled hn hrange.2 (show 96 ≤ 100 by decide)
      rw [isqrtFixedPoint_eq hn hrange.2, hroot] at h
      exact ⟨n, root, rfl, (Except.ok.inj h).symm, hsettled⟩

theorem isqrtFixedPoint_mono (ha : I128.InRange a) (hb : I128.InRange b)
    (h : isqrtFixedPoint a = .ok r) (h' : isqrtFixedPoint b = .ok r') (hle : a ≤ b) : r ≤ r' := by
  rcases hle.eq_or_lt with rfl | hlt
  · exact (Except.ok.inj (h.symm.trans h')).le
  · obtain ⟨n, root, rfl, rfl, hsettled⟩ := isqrtFixedPoint_settled ha h
    obtain ⟨m, root', rfl, rfl, hsettled'⟩ := isqrtFixedPoint_settled hb h'
    exact_mod_cast hsettled.le hsettled' (by exact_mod_cast hlt)

theorem isqrtFixedPoint_pos (hrange : I128.InRange a) (h : isqrtFixedPoint a = .ok r)
    (ha : 0 < a) : 0 < r := by
  obtain ⟨n, root, rfl, rfl, hsettled⟩ := isqrtFixedPoint_settled hrange h
  exact_mod_cast hsettled.pos (by exact_mod_cast ha)

/-- `r` is the root of `n` rounded down, or, one below a square, perhaps the root above. -/
structure NearRoot (n r : Int) : Prop where
  floor : (∀ k, 2 ≤ k → n + 1 ≠ k * k) → r * r ≤ n ∧ n < (r + 1) * (r + 1)
  below_square : ∀ k, 2 ≤ k → n + 1 = k * k → r = k - 1 ∨ r = k
  lower : (Nat.sqrt n.toNat : Int) ≤ r
  upper : r ≤ Nat.sqrt n.toNat + 1

/-- The loop comes within its `100` rounds to a value that repeats after two more, so to a fixed
point or to a cycle of two values. -/
def Repeats (n : Int) : Prop :=
  ∃ k, k + 2 ≤ 100 ∧
    (newtonRound n)^[k + 2] (firstGuess n) = (newtonRound n)^[k] (firstGuess n)

theorem nearRoot_of_settled (hn : 0 < n) (h : NewtonSqrt.Settled n m) : NearRoot n m := by
  have hlo : (Nat.sqrt n * Nat.sqrt n : Int) ≤ n := by exact_mod_cast Nat.sqrt_le n
  have hhi : (n : Int) < (Nat.sqrt n + 1) * (Nat.sqrt n + 1) := by
    exact_mod_cast Nat.lt_succ_sqrt n
  have hnear : (m : Int) = Nat.sqrt n ∨ (m : Int) = Nat.sqrt n + 1 ∧ (n : Int) + 1 = m * m := by
    rcases h with rfl | h
    · exact .inl rfl
    · refine .inr ⟨by exact_mod_cast NewtonSqrt.eq_succ_sqrt hn h, ?_⟩
      exact_mod_cast h.symm
  refine ⟨fun hsquare => ?_, fun k hk hsquare => ?_, ?_, ?_⟩
  · rcases hnear with heq | ⟨heq, hm⟩
    · rw [heq]
      exact ⟨hlo, hhi⟩
    · exact absurd hm (hsquare m (by have := Nat.sqrt_pos.mpr hn; omega))
  · have hroot : (Nat.sqrt n : Int) = k - 1 := by
      have hk₁ : (Nat.sqrt n : Int) < k := by nlinarith
      have hk₂ : k < Nat.sqrt n + 2 := by nlinarith
      omega
    omega
  · rw [Int.toNat_natCast]
    omega
  · rw [Int.toNat_natCast]
    omega

theorem repeats (hn : 0 < n) (hmax : n ≤ I128.max) : Repeats n := by
  obtain ⟨root, hroot, hsettled⟩ := iterate_settled hn hmax (show 96 ≤ 98 by decide)
  refine ⟨98, le_rfl, ?_⟩
  rw [Function.iterate_succ_apply', Function.iterate_succ_apply', hroot, newtonRound_cast,
    newtonRound_cast, NewtonSqrt.step_step_of_settled hn hsettled]

/-- **The square root of the matching pool.** For every `i128` that is not negative the loop comes
to its end, without an overflow or a division by zero, after running into a fixed point or a cycle
of two, and returns the root rounded down or, one below a square, one of the two roots around. -/
theorem fixed_point_root {n : Int} (hrange : I128.InRange n) :
    (n < 0 → isqrtFixedPoint n = fail .mathOverflow) ∧
      (0 ≤ n → ∃ r, isqrtFixedPoint n = .ok r ∧ NearRoot n r ∧
        (n ≠ 0 → r = (newtonRound n)^[100] (firstGuess n) ∧ Repeats n)) := by
  constructor
  · intro hneg
    unfold isqrtFixedPoint
    rw [if_pos hneg]
  · intro hnonneg
    obtain ⟨n, rfl⟩ := Int.eq_ofNat_of_zero_le hnonneg
    rcases Nat.eq_zero_or_pos n with rfl | hn
    · refine ⟨0, rfl, ⟨fun _ => by decide, fun k hk hsquare => ?_, by decide, by decide⟩, by simp⟩
      have hlarge : 2 * 2 ≤ k * k := Int.mul_le_mul hk hk (by decide) (by omega)
      omega
    · obtain ⟨root, hroot, hsettled⟩ := iterate_settled hn hrange.2 (show 96 ≤ 100 by decide)
      refine ⟨_, isqrtFixedPoint_eq hn hrange.2, ?_, fun _ => ⟨rfl, repeats hn hrange.2⟩⟩
      rw [hroot]
      exact nearRoot_of_settled hn hsettled

/-- One below the square of `2` the loop goes back and forth between `1` and `2`. -/
theorem fixed_point_root_of_three :
    isqrtFixedPoint 3 = .ok 1 ∧ isqrtLoop 3 99 1 = .ok 2 ∧
      ∃ r, isqrtFixedPoint 3 = .ok r ∧ NearRoot 3 r ∧
        ((3 : Int) ≠ 0 → r = (newtonRound 3)^[100] (firstGuess 3) ∧ Repeats 3) :=
  ⟨by decide +kernel, by decide +kernel, (@fixed_point_root 3 (by decide)).2 (by decide)⟩

end SquareRoots

end YieldTrust.Matching
