import YieldTrust.YieldTreasury.Positions

/-!
# YieldTrust.YieldTreasury.Health

The two ways to compute the health of the pool. The preview adds the new yield to the stored
value of the position, the calculation books the yield first; on a sound position both give
the same value and overflow alike.
-/

namespace YieldTrust.YieldTreasury

open Fallible
open GrantStream (Address)

variable {vaults : Vaults} {env : Env} {position : YieldPosition}

/-- The value of a position by the two ways, when the new yield is known. -/
theorem checkedAdd_current (h : position.Sound) {newYield : Int} (hnonneg : 0 ≤ newYield) :
    (I128.checkedAdd position.accruedYield newYield).bind
        (fun accruedYield => I128.checkedAdd position.investedAmount accruedYield) =
      I128.checkedAdd position.currentValue newYield := by
  have hsum : position.investedAmount + (position.accruedYield + newYield) =
      position.currentValue + newYield := by
    rw [h.current_eq, Int.add_assoc]
  unfold I128.checkedAdd I128.check
  by_cases hvalue : I128.InRange (position.currentValue + newYield)
  · have haccrued : I128.InRange (position.accruedYield + newYield) := by
      refine h.accrued_inRange.of_between hvalue (by omega) ?_
      have := h.invested_nonneg
      omega
    rw [if_pos haccrued, Option.bind_some, hsum]
  · rw [if_neg hvalue]
    split
    · rw [Option.bind_some, hsum, if_neg hvalue]
    · rfl

/-- The value of a position that is brought up to date. -/
theorem currentValue_update (h : position.Sound) :
    (YieldPosition.currentValue <$> updateYieldPosition env position : Res Int) = (do
      let newYield ← calculateYieldAmount position env.timestamp
      okOr (I128.checkedAdd position.currentValue newYield) .mathOverflow) := by
  unfold updateYieldPosition
  cases hyield : calculateYieldAmount position env.timestamp with
  | error fault => rfl
  | ok newYield =>
      have hvalue := checkedAdd_current h (calculateYieldAmount_nonneg h hyield)
      dsimp only [bind, Except.bind]
      rw [← hvalue]
      cases I128.checkedAdd position.accruedYield newYield with
      | none => rfl
      | some accruedYield =>
          dsimp only [okOr, Option.bind_some]
          cases I128.checkedAdd position.investedAmount accruedYield <;> rfl

theorem previewYieldPositionValue_eq (h : position.Sound) :
    previewYieldPositionValue position env.timestamp =
      YieldPosition.currentValue <$> updateYieldPosition env position := by
  rw [currentValue_update h]
  unfold previewYieldPositionValue
  split
  · case isTrue hle =>
    have hyield : calculateYieldAmount position env.timestamp = .ok 0 := by
      unfold calculateYieldAmount
      rw [if_pos hle]
      rfl
    have hvalue : I128.checkedAdd position.currentValue 0 = some position.currentValue := by
      rw [I128.checkedAdd_eq_some, Int.add_zero]
      exact ⟨h.current_inRange, rfl⟩
    rw [hyield]
    dsimp only [bind, Except.bind]
    rw [hvalue]
    rfl
  · rfl

theorem previewPoolHealth_eq (hs : env.store.Sound) (totalLiabilities : Int) :
    previewPoolHealth env totalLiabilities = calculatePoolHealth env totalLiabilities := by
  unfold previewPoolHealth calculatePoolHealth
  cases hreserve : readReserveBalance env with
  | error fault => rfl
  | ok reserve =>
      have hadmin : ∃ admin, env.store.admin = some admin := by
        refine Option.ne_none_iff_exists'.mp fun hnone => ?_
        simp [readReserveBalance, hs.uninitialized hnone, okOr, fail] at hreserve
      obtain ⟨admin, hadmin⟩ := hadmin
      have hwarning (healthFactor : Int) : (if healthFactor < 10000 then do
          let _ ← readAdmin env
          pure healthFactor
        else pure healthFactor : Res Int) = pure healthFactor := by
        rw [readAdmin, hadmin]
        exact ite_self (pure healthFactor)
      simp only [hwarning, bind_pure]
      cases hposition : env.store.yieldPosition with
      | none => rfl
      | some position =>
          dsimp only
          rw [previewYieldPositionValue_eq (hs.position position hposition)]
          simp only [bind_map_left]

/-- **Pool health.** In every reachable state and at every time, the preview of the health of
the pool is the health that the calculation gives, errors included, and so is what the
streaming contract reports for its liabilities. -/
theorem pool_health_preview (vaults : Vaults) {trace : Trace} {env : Env}
    (h : Ledger.Reachable (contract vaults) trace env) (now : Nat) :
    (∀ totalLiabilities,
      previewPoolHealth { env with timestamp := now } totalLiabilities =
        calculatePoolHealth { env with timestamp := now } totalLiabilities) ∧
    ∀ streams, getHealthFactor streams { env with timestamp := now } = (do
      let liabilities ← GrantStream.totalAllocatedFunds streams
      mapErr (fun _ => .mathOverflow)
        (calculatePoolHealth { env with timestamp := now } liabilities)) := by
  have hs : env.store.Sound := store_sound h
  have hpreview (totalLiabilities : Int) :
      previewPoolHealth { env with timestamp := now } totalLiabilities =
        calculatePoolHealth { env with timestamp := now } totalLiabilities := by
    have hnow : { env with timestamp := now }.store.Sound := hs
    exact previewPoolHealth_eq hnow totalLiabilities
  refine ⟨hpreview, fun streams => ?_⟩
  unfold getHealthFactor
  simp only [hpreview]

/-- The health of a pool that has made a loss in its books: the accrued yield of the position
is `-49`. -/
theorem pool_health_preview_of_deficit :
    let run := Ledger.history (contract Demo.noVaults) Demo.treasury
      (Demo.invested ++ [Demo.call 495 (.divestFunds (some 500000))])
    let env := { run.2 with timestamp := 31536495 }
    previewPoolHealth env (10 ^ 7) = calculatePoolHealth env (10 ^ 7) ∧
      previewPoolHealth env (10 ^ 7) = .ok 9036 := by
  intro run env
  have hrun : Ledger.Reachable (contract Demo.noVaults) run.1 run.2 :=
    Ledger.history_reachable _ Demo.treasury_deployed (by decide)
  exact ⟨(pool_health_preview Demo.noVaults hrun 31536495).1 (10 ^ 7), by decide⟩

end YieldTrust.YieldTreasury
