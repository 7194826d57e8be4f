import YieldTrust.Lib.PartialMap

/-!
# YieldTrust.Lib.DepositPool

**Deposits that share one balance** with other money. The pool is solvent while the
balance covers all open deposits together; then each of them can be paid back. Each
lemma says what a balance has to be for the pool to be solvent after a step.
-/

/-- A balance, and the deposits that are open, by their keys. -/
structure DepositPool (ι : Type) where
  balance : Int
  deposits : ι → Option Int

namespace DepositPool

variable {ι : Type} {p : DepositPool ι}

/-- The sum of all open deposits. -/
noncomputable def outstanding (p : DepositPool ι) : Int := PartialMap.total p.deposits id

def Solvent (p : DepositPool ι) : Prop := p.outstanding ≤ p.balance

/-- Finitely many deposits, none of them negative. -/
structure WellFormed (p : DepositPool ι) : Prop where
  finite : (PartialMap.keys p.deposits).Finite
  nonneg : ∀ i x, p.deposits i = some x → 0 ≤ x

variable [DecidableEq ι] {i : ι} {x balance : Int}

theorem WellFormed.update (h : p.WellFormed) (balance : Int) {i : ι} {x : Option Int}
    (hx : ∀ y ∈ x, 0 ≤ y) : WellFormed ⟨balance, Function.update p.deposits i x⟩ where
  finite := PartialMap.keys_update_finite h.finite i x
  nonneg j y hy := by
    dsimp only at hy
    by_cases hj : j = i
    · rw [hj, Function.update_self] at hy
      exact hx y hy
    · rw [Function.update_of_ne hj] at hy
      exact h.nonneg j y hy

/-- A deposit that is made. -/
theorem solvent_deposit_iff (h : p.WellFormed) (hi : p.deposits i = none) :
    Solvent ⟨balance, Function.update p.deposits i (some x)⟩ ↔ p.outstanding + x ≤ balance := by
  unfold Solvent outstanding
  rw [PartialMap.total_update_of_none h.finite hi, add_comm]
  rfl

/-- A deposit that is paid back. -/
theorem solvent_release_iff (h : p.WellFormed) (hi : p.deposits i = some x) :
    Solvent ⟨balance, Function.update p.deposits i none⟩ ↔ p.outstanding ≤ balance + x := by
  have htotal : p.outstanding = x + PartialMap.total (Function.update p.deposits i none) id :=
    PartialMap.total_eq_add_of_some h.finite hi id
  rw [htotal]
  show PartialMap.total (Function.update p.deposits i none) id ≤ balance ↔ _
  constructor <;> intro _ <;> omega

/-- An open deposit can be paid back. -/
theorem Solvent.le_balance (hs : p.Solvent) (h : p.WellFormed) (hi : p.deposits i = some x) :
    x ≤ p.balance := by
  have htotal : p.outstanding = x + PartialMap.total (Function.update p.deposits i none) id :=
    PartialMap.total_eq_add_of_some h.finite hi id
  have hrest : 0 ≤ PartialMap.total (Function.update p.deposits i none) id :=
    PartialMap.total_nonneg (h.update p.balance (x := none) (by simp)).nonneg
  unfold Solvent at hs
  omega

end DepositPool
