import Mathlib.Algebra.Order.Monoid.Defs
import Mathlib.Algebra.Ring.Defs
import Mathlib.Tactic.Abel
import Mathlib.Tactic.Common

/-!
# YieldTrust.Lib.Partition

A **partition** of the interval from `start` to `stop`: the list of points
between them. `Partition.sum` adds up a quantity of its pieces, one for each two
neighbours; the lemmas compare the sum with the same quantity of the whole interval.
-/

namespace Partition

variable {τ M : Type}

/-- The points between `start` and `stop` come in order. -/
def Ordered [LE τ] : τ → List τ → τ → Prop
  | start, [], stop => start ≤ stop
  | start, point :: points, stop => start ≤ point ∧ Ordered point points stop

theorem Ordered.le [Preorder τ] {start stop : τ} {points : List τ}
    (h : Ordered start points stop) : start ≤ stop := by
  induction points generalizing start with
  | nil => exact h
  | cons point points ih => exact h.1.trans (ih h.2)

/-- `f` of the pieces, added up. -/
def sum [Add M] (f : τ → τ → M) : τ → List τ → τ → M
  | start, [], stop => f start stop
  | start, point :: points, stop => f start point + sum f point points stop

section Sums

variable [AddCommMonoid M] {f g : τ → τ → M}

theorem sum_add (f g : τ → τ → M) (start : τ) (points : List τ) (stop : τ) :
    sum (fun a b => f a b + g a b) start points stop =
      sum f start points stop + sum g start points stop := by
  induction points generalizing start with
  | nil => rfl
  | cons point points ih => simp only [sum, ih, add_add_add_comm]

theorem sum_const (c : M) (start : τ) (points : List τ) (stop : τ) :
    sum (fun _ _ => c) start points stop = (points.length + 1) • c := by
  induction points generalizing start with
  | nil => exact (one_nsmul c).symm
  | cons point points ih =>
      rw [List.length_cons, succ_nsmul' c (points.length + 1), ← ih point]
      rfl

/-- Sums compare piece by piece; every piece ends before `stop`. -/
theorem sum_le_sum [PartialOrder M] [IsOrderedAddMonoid M] [Preorder τ] {start stop : τ}
    {points : List τ} (h : Ordered start points stop)
    (hle : ∀ a b, a ≤ b → b ≤ stop → f a b ≤ g a b) :
    sum f start points stop ≤ sum g start points stop := by
  induction points generalizing start with
  | nil => exact hle _ _ h le_rfl
  | cons point points ih => exact add_le_add (hle _ _ h.1 h.2.le) (ih h.2)

end Sums

theorem mul_sum [NonUnitalNonAssocSemiring M] (c : M) (f : τ → τ → M) (start : τ) (points : List τ)
    (stop : τ) : c * sum f start points stop = sum (fun a b => c * f a b) start points stop := by
  induction points generalizing start with
  | nil => rfl
  | cons point points ih => simp only [sum, mul_add, ih]

/-- A difference adds up to the difference over the whole interval. -/
theorem sum_sub [AddCommGroup M] (F : τ → M) (start : τ) (points : List τ) (stop : τ) :
    sum (fun a b => F b - F a) start points stop = F stop - F start := by
  induction points generalizing start with
  | nil => rfl
  | cons point points ih =>
      simp only [sum, ih]
      abel

end Partition
