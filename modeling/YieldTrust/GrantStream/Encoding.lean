import Mathlib.Data.Nat.ModEq
import YieldTrust.GrantStream.Reporting

/-!
# YieldTrust.GrantStream.Encoding

Numbers as bytes of a fixed width: what the hashed inputs of the contract begin with.
-/

namespace YieldTrust.GrantStream

open AuditLog

theorem length_toBeBytes (width n : Nat) : (toBeBytes width n).length = width := by
  simp [toBeBytes]

/-- The bytes tell a number up to the width. -/
theorem mod_eq_of_toBeBytes_eq {width n m : Nat} (h : toBeBytes width n = toBeBytes width m) :
    n % 256 ^ width = m % 256 ^ width := by
  have hbyte : ∀ i < width, n / 256 ^ i % 256 = m / 256 ^ i % 256 := by
    intro i hi
    have hi' : i ∈ (List.range width).reverse := by simpa using hi
    have heq := List.map_inj_left.mp h i hi'
    simpa using congrArg UInt8.toNat heq
  have hprefix : ∀ k ≤ width, n % 256 ^ k = m % 256 ^ k := by
    intro k hk
    induction k with
    | zero => rw [pow_zero, Nat.mod_one, Nat.mod_one]
    | succ k ih => rw [Nat.mod_pow_succ, Nat.mod_pow_succ, ih (by omega), hbyte k hk]
  exact hprefix width (Nat.le_refl width)

theorem toBeBytes_injective {width n m : Nat} (hn : n < 256 ^ width) (hm : m < 256 ^ width)
    (h : toBeBytes width n = toBeBytes width m) : n = m := by
  have hmod := mod_eq_of_toBeBytes_eq h
  rwa [Nat.mod_eq_of_lt hn, Nat.mod_eq_of_lt hm] at hmod

theorem length_i128ToBeBytes (x : Int) : (i128ToBeBytes x).length = 16 := length_toBeBytes ..

theorem i128ToBeBytes_injective {x y : Int} (hx : I128.InRange x) (hy : I128.InRange y)
    (h : i128ToBeBytes x = i128ToBeBytes y) : x = y := by
  unfold i128ToBeBytes at h
  have heq := toBeBytes_injective (by omega) (by omega) h
  unfold I128.InRange I128.min I128.max at hx hy
  omega

end YieldTrust.GrantStream
