import Mathlib.Order.Basic
import Mathlib.Order.MinMax
import Mathlib.Algebra.Order.Ring.Int

/-!
# YieldTrust.Lib.Checked

Machine arithmetic with an overflow check, on mathematical integers: an `i128`
is an `Int` and a `u64` a `Nat`, and every operation that the machine checks
returns `none` where the exact result does not fit.
-/

/-! ### `i128` -/

namespace I128

/-- The largest `i128`. -/
def max : Int := 2 ^ 127 - 1

/-- The smallest `i128`. -/
def min : Int := -2 ^ 127

/-- `x` is representable as an `i128`. -/
def InRange (x : Int) : Prop := min ≤ x ∧ x ≤ max

instance (x : Int) : Decidable (InRange x) := inferInstanceAs (Decidable (_ ∧ _))

/-- `x` if it fits, `none` on overflow. -/
def check (x : Int) : Option Int := if InRange x then some x else none

def checkedAdd (a b : Int) : Option Int := check (a + b)

def checkedSub (a b : Int) : Option Int := check (a - b)

def checkedMul (a b : Int) : Option Int := check (a * b)

/-- Division truncates toward zero. -/
def checkedDiv (a b : Int) : Option Int := if b = 0 then none else check (a.tdiv b)

/-- The representable value closest to `x`. -/
def saturate (x : Int) : Int := if x < min then min else if max < x then max else x

def saturatingAdd (a b : Int) : Int := saturate (a + b)

def saturatingSub (a b : Int) : Int := saturate (a - b)

def saturatingMul (a b : Int) : Int := saturate (a * b)

theorem saturate_of_inRange {x : Int} (h : InRange x) : saturate x = x := by
  unfold saturate
  rw [if_neg (Int.not_lt.mpr h.1), if_neg (Int.not_lt.mpr h.2)]

theorem saturate_nonneg {x : Int} (h : 0 ≤ x) : 0 ≤ saturate x := by
  unfold saturate
  split_ifs with hlow hhigh
  · exact absurd (hlow.trans_le (by decide)) (Int.not_lt.mpr h)
  · decide
  · exact h

/-- What is not negative saturates downwards only. -/
theorem saturate_le {x : Int} (h : 0 ≤ x) : saturate x ≤ x := by
  unfold saturate
  split_ifs with hlow hhigh
  · exact absurd (hlow.trans_le (by decide)) (Int.not_lt.mpr h)
  · exact hhigh.le
  · exact le_rfl

theorem check_eq_some {x y : Int} : check x = some y ↔ InRange x ∧ x = y := by
  unfold check
  split <;> simp_all

theorem checkedAdd_eq_some {a b c : Int} :
    checkedAdd a b = some c ↔ InRange (a + b) ∧ a + b = c := check_eq_some

theorem checkedSub_eq_some {a b c : Int} :
    checkedSub a b = some c ↔ InRange (a - b) ∧ a - b = c := check_eq_some

theorem checkedMul_eq_some {a b c : Int} :
    checkedMul a b = some c ↔ InRange (a * b) ∧ a * b = c := check_eq_some

theorem checkedDiv_eq_some {a b c : Int} :
    checkedDiv a b = some c ↔ b ≠ 0 ∧ InRange (a.tdiv b) ∧ a.tdiv b = c := by
  unfold checkedDiv
  by_cases h : b = 0 <;> simp [h, check_eq_some]

/-- A value between two representable ones is representable. -/
theorem InRange.of_between {x lo hi : Int} (hlo : InRange lo) (hhi : InRange hi)
    (h₁ : lo ≤ x) (h₂ : x ≤ hi) : InRange x :=
  ⟨hlo.1.trans h₁, h₂.trans hhi.2⟩

theorem inRange_zero : InRange 0 := by decide

theorem inRange_max : InRange max := by decide

/-- A non-negative value below a representable one is representable. -/
theorem InRange.of_nonneg_of_le {x hi : Int} (hhi : InRange hi) (h₁ : 0 ≤ x) (h₂ : x ≤ hi) :
    InRange x := inRange_zero.of_between hhi h₁ h₂

end I128

/-! ### `u64` -/

namespace U64

/-- One more than the largest `u64`. -/
def size : Nat := 2 ^ 64

def checkedAdd (a b : Nat) : Option Nat := if a + b < size then some (a + b) else none

def checkedSub (a b : Nat) : Option Nat := if b ≤ a then some (a - b) else none

def saturatingAdd (a b : Nat) : Nat := if a + b < size then a + b else size - 1

def checkedMul (a b : Nat) : Option Nat := if a * b < size then some (a * b) else none

theorem checkedAdd_eq_some {a b c : Nat} :
    checkedAdd a b = some c ↔ a + b < size ∧ a + b = c := by
  unfold checkedAdd
  split <;> simp_all

theorem checkedAdd_eq_none {a b : Nat} : checkedAdd a b = none ↔ size ≤ a + b := by
  unfold checkedAdd
  split <;> simp_all

theorem checkedMul_eq_some {a b c : Nat} :
    checkedMul a b = some c ↔ a * b < size ∧ a * b = c := by
  unfold checkedMul
  split <;> simp_all

theorem checkedSub_eq_some {a b c : Nat} : checkedSub a b = some c ↔ b ≤ a ∧ a - b = c := by
  unfold checkedSub
  split <;> simp_all

theorem checkedSub_eq_none {a b : Nat} : checkedSub a b = none ↔ a < b := by
  unfold checkedSub
  split <;> simp_all

end U64

/-! ### `u32` -/

namespace U32

/-- One more than the largest `u32`. -/
def size : Nat := 2 ^ 32

def checkedAdd (a b : Nat) : Option Nat := if a + b < size then some (a + b) else none

theorem checkedAdd_eq_some {a b c : Nat} :
    checkedAdd a b = some c ↔ a + b < size ∧ a + b = c := by
  unfold checkedAdd
  split <;> simp_all

end U32

/-! ### `u128` -/

namespace U128

/-- One more than the largest `u128`. -/
def size : Nat := 2 ^ 128

def checkedAdd (a b : Nat) : Option Nat := if a + b < size then some (a + b) else none

def checkedMul (a b : Nat) : Option Nat := if a * b < size then some (a * b) else none

/-- Division by zero is the only case without a result. -/
def checkedDiv (a b : Nat) : Option Nat := if b = 0 then none else some (a / b)

/-- The cast of an `i128`. -/
def ofI128 (x : Int) : Nat := (x % 2 ^ 128).toNat

/-- The cast to an `i128`. -/
def toI128 (x : Nat) : Int := if x < 2 ^ 127 then x else x - 2 ^ 128

theorem checkedAdd_eq_some {a b c : Nat} :
    checkedAdd a b = some c ↔ a + b < size ∧ a + b = c := by
  unfold checkedAdd
  split <;> simp_all

theorem checkedMul_eq_some {a b c : Nat} :
    checkedMul a b = some c ↔ a * b < size ∧ a * b = c := by
  unfold checkedMul
  split <;> simp_all

theorem checkedDiv_eq_some {a b c : Nat} : checkedDiv a b = some c ↔ b ≠ 0 ∧ a / b = c := by
  unfold checkedDiv
  by_cases h : b = 0 <;> simp [h]

/-- The cast keeps what is not negative. -/
theorem ofI128_of_nonneg {x : Int} (h : I128.InRange x) (h₀ : 0 ≤ x) : ofI128 x = x.toNat := by
  have hlt : x < 2 ^ 128 := h.2.trans_lt (by decide)
  unfold ofI128
  rw [Int.emod_eq_of_lt h₀ hlt]

end U128
