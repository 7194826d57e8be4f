import Mathlib.Algebra.Order.Field.Rat
import Mathlib.Tactic.FieldSimp
import Mathlib.Tactic.Linarith
import Mathlib.Tactic.Positivity
import Mathlib.Tactic.Ring

/-!
# YieldTrust.Lib.SharePool

A **pool with shares**: whoever adds to its balance gets new shares, and whoever gives shares back
is paid out of the balance. If both are rounded in favour of the pool, a share never loses value,
and nobody gains by going in and out again.
-/

structure SharePool where
  balance : Int
  shares : Int

namespace SharePool

variable {p : SharePool} {amount shares : Int}

/-- Something is in the pool, and there are shares in it. -/
structure Open (p : SharePool) : Prop where
  balance_pos : 0 < p.balance
  shares_pos : 0 < p.shares

/-- What one share is worth. -/
def price (p : SharePool) : ℚ := p.balance / p.shares

def deposit (p : SharePool) (amount shares : Int) : SharePool :=
  ⟨p.balance + amount, p.shares + shares⟩

def withdraw (p : SharePool) (amount shares : Int) : SharePool :=
  ⟨p.balance - amount, p.shares - shares⟩

/-- The shares are worth no more than the amount. -/
def Covered (p : SharePool) (amount shares : Int) : Prop := shares * p.balance ≤ amount * p.shares

/-- The amount is no more than the shares are worth. -/
def Earned (p : SharePool) (amount shares : Int) : Prop := amount * p.shares ≤ shares * p.balance

theorem price_le_iff {p q : SharePool} (hp : 0 < p.shares) (hq : 0 < q.shares) :
    p.price ≤ q.price ↔ p.balance * q.shares ≤ q.balance * p.shares := by
  have hp' : (0 : ℚ) < p.shares := by exact_mod_cast hp
  have hq' : (0 : ℚ) < q.shares := by exact_mod_cast hq
  unfold price
  rw [div_le_div_iff₀ hp' hq']
  exact_mod_cast Iff.rfl

/-! ### Deposits -/

theorem price_le_deposit (h : p.Open) (hshares : 0 ≤ shares) (hcovered : p.Covered amount shares) :
    p.price ≤ (p.deposit amount shares).price := by
  have hpos : 0 < p.shares + shares := Int.add_pos_of_pos_of_nonneg h.shares_pos hshares
  rw [price_le_iff h.shares_pos hpos]
  unfold Covered at hcovered
  simp only [SharePool.deposit]
  linarith [mul_comm shares p.balance]

/-- New shares, computed with some more digits and rounded down twice. -/
theorem covered_of_scaled {scale : Int} (h : p.Open) (hscale : 0 < scale) :
    p.Covered amount (amount * scale * p.shares / p.balance / scale) := by
  have hscaled := Int.ediv_mul_le (amount * scale * p.shares / p.balance) hscale.ne'
  have hshares := Int.ediv_mul_le (amount * scale * p.shares) h.balance_pos.ne'
  generalize amount * scale * p.shares / p.balance = scaled at hscaled hshares ⊢
  refine Int.le_of_mul_le_mul_right ?_ hscale
  calc scaled / scale * p.balance * scale
    _ = scaled / scale * scale * p.balance := by ring
    _ ≤ scaled * p.balance := Int.mul_le_mul_of_nonneg_right hscaled h.balance_pos.le
    _ ≤ amount * scale * p.shares := hshares
    _ = amount * p.shares * scale := by ring

/-! ### Withdrawals -/

/-- Shares that are not all shares are worth less than the balance. -/
theorem Earned.lt_balance (h : p.Open) (hearned : p.Earned amount shares)
    (hlt : shares < p.shares) : amount < p.balance := by
  unfold Earned at hearned
  refine Int.lt_of_mul_lt_mul_right ?_ h.shares_pos.le
  calc amount * p.shares
    _ ≤ shares * p.balance := hearned
    _ < p.shares * p.balance := Int.mul_lt_mul_of_pos_right hlt h.balance_pos
    _ = p.balance * p.shares := mul_comm _ _

theorem Open.withdraw (h : p.Open) (hearned : p.Earned amount shares) (hlt : shares < p.shares) :
    (p.withdraw amount shares).Open :=
  ⟨Int.sub_pos_of_lt (hearned.lt_balance h hlt), Int.sub_pos_of_lt hlt⟩

theorem price_le_withdraw (h : p.Open) (hearned : p.Earned amount shares)
    (hlt : shares < p.shares) : p.price ≤ (p.withdraw amount shares).price := by
  rw [price_le_iff h.shares_pos (h.withdraw hearned hlt).shares_pos]
  unfold Earned at hearned
  simp only [SharePool.withdraw]
  linarith [mul_comm shares p.balance]

theorem earned_of_div (h : p.Open) : p.Earned (shares * p.balance / p.shares) shares :=
  Int.ediv_mul_le _ h.shares_pos.ne'

/-! ### In and out again -/

/-- The shares for an amount are not worth more than it afterwards. -/
theorem round_trip_le {returned : Int} (h : p.Open) (hshares : 0 ≤ shares)
    (hcovered : p.Covered amount shares)
    (hearned : (p.deposit amount shares).Earned returned shares) : returned ≤ amount := by
  have hpos : 0 < p.shares + shares := Int.add_pos_of_pos_of_nonneg h.shares_pos hshares
  unfold Covered at hcovered
  simp only [Earned, SharePool.deposit] at hearned
  refine Int.le_of_mul_le_mul_right ?_ hpos
  linarith [mul_comm shares amount]

end SharePool
