import YieldTrust.YieldTreasury.Positions

/-!
# YieldTrust.YieldTreasury.Harvest

What a harvest books. The position is brought up to date first, and the yield is computed from
the position after that, so it is always nothing: the yield goes to the accrued yield of the
position, and never to what the caller and the metrics are told.
-/

namespace YieldTrust.YieldTreasury

open Fallible
open GrantStream (Address)

variable {vaults : Vaults} {env env' : Env} {position : YieldPosition} {result : Env × Int}
  {e : Step} {older newer trace : Trace}

/-! ### One harvest -/

/-- The harvest returned the yield of the position before it, and added it to the yield in the
metrics and to the accrued yield. -/
structure HarvestBooked (env env' : Env) (position : YieldPosition) (returned : Int) : Prop where
  returned_eq : calculateYieldAmount position env.timestamp = .ok returned
  earned_eq : env'.store.earned = env.store.earned + returned
  accrued_eq : env'.store.accrued = env.store.accrued + returned

/-- What a harvest does: the yield of the position is accrued, and none is earned. -/
theorem harvest_accrues (hposition : env.store.yieldPosition = some position)
    (hstrategy : position.strategy ≠ yieldStrategyExternalVault)
    (h : harvestYield vaults env = .ok result) :
    ∃ newYield, calculateYieldAmount position env.timestamp = .ok newYield ∧ result.2 = 0 ∧
      result.1.store.earned = env.store.earned ∧
      result.1.store.accrued = env.store.accrued + newYield := by
  obtain ⟨updated, hupdate, hzero, -, hafter, -, -, hearned⟩ :=
    harvestYield_eq_ok hposition hstrategy h
  obtain ⟨newYield, hyield, -, -, rfl⟩ := updateYieldPosition_eq_ok.mp hupdate
  refine ⟨newYield, hyield, hzero, hearned, ?_⟩
  simp [Store.accrued, hposition, hafter]

theorem harvestBooked_iff (hposition : env.store.yieldPosition = some position)
    (hstrategy : position.strategy ≠ yieldStrategyExternalVault)
    (h : harvestYield vaults env = .ok result) :
    HarvestBooked env result.1 position result.2 ↔
      calculateYieldAmount position env.timestamp = .ok 0 := by
  obtain ⟨newYield, hyield, hzero, hearned, haccrued⟩ := harvest_accrues hposition hstrategy h
  rw [hzero, hyield]
  constructor
  · intro hbooked
    exact hyield.symm.trans hbooked.returned_eq
  · intro hnone
    cases hnone
    exact ⟨hyield, by rw [hearned, Int.add_zero], haccrued⟩

/-- A second harvest at the same time. -/
theorem harvest_again {again : Env × Int} (hposition : env.store.yieldPosition = some position)
    (hstrategy : position.strategy ≠ yieldStrategyExternalVault)
    (h : harvestYield vaults env = .ok result) (hstore : env'.store = result.1.store)
    (htime : env'.timestamp = env.timestamp) (h' : harvestYield vaults env' = .ok again) :
    again.2 = 0 ∧ again.1.store.earned = env'.store.earned ∧
      again.1.store.accrued = env'.store.accrued := by
  obtain ⟨updated, hupdate, -, -, hafter, -⟩ := harvestYield_eq_ok hposition hstrategy h
  obtain ⟨_, -, -, -, rfl⟩ := updateYieldPosition_eq_ok.mp hupdate
  rw [← hstore] at hafter
  obtain ⟨newYield, hyield, hzero, hearned, haccrued⟩ := harvest_accrues hafter hstrategy h'
  rw [calculateYieldAmount_updated htime.symm] at hyield
  cases hyield
  exact ⟨hzero, hearned, by rw [haccrued, Int.add_zero]⟩

/-! ### Harvests in a row -/

theorem bookedYield_nonneg (hs : e.before.store.Sound) : 0 ≤ bookedYield vaults e := by
  unfold bookedYield
  split_ifs with hbooks
  · cases hposition : e.before.store.yieldPosition with
    | none => exact le_rfl
    | some position =>
        dsimp only
        cases hyield : calculateYieldAmount position e.action.timestamp with
        | error fault => exact le_rfl
        | ok newYield =>
            exact calculateYieldAmount_nonneg (hs.position position hposition) hyield
  · exact le_rfl

/-- A step without a divestment accrues the yield that it books, and none is earned. -/
theorem accrued_step (h : Ledger.Reachable (contract vaults) older e.before)
    (hn : Ledger.Next (contract vaults) e.before e.action e.after)
    (hkept : ∀ amount, Ledger.called (contract vaults) e ≠ some (.divestFunds amount)) :
    e.after.store.earned = e.before.store.earned ∧
      e.after.store.accrued = e.before.store.accrued + bookedYield vaults e := by
  rcases effect_of_next h hn with ⟨hcalled, hstore⟩ | ⟨call, hcalled, heffect⟩
  · rw [hstore, bookedYield_of_idle hcalled, Int.add_zero]
    exact ⟨rfl, rfl⟩
  · cases heffect with
    | kept hcall hposition hearned =>
        refine ⟨hearned, ?_⟩
        rw [bookedYield_of_called hcalled hcall, Int.add_zero, Store.accrued, hposition]
        rfl
    | opened hcall hnone position hposition _ haccrued hearned =>
        have hnone : e.before.store.yieldPosition = none := hnone
        refine ⟨hearned, ?_⟩
        rw [bookedYield_of_called hcalled hcall]
        simp [Store.accrued, hposition, hnone, haccrued]
    | harvested hcall position updated hbefore hupdate hposition hearned =>
        have hbefore : e.before.store.yieldPosition = some position := hbefore
        obtain ⟨newYield, hnew, -, -, rfl⟩ := updateYieldPosition_eq_ok.mp hupdate
        refine ⟨hearned, ?_⟩
        rw [bookedYield_of_update hcalled (by rw [hcall]; rfl) hbefore hnew]
        simp [Store.accrued, hposition, hbefore]
    | divested amount hcall => exact absurd (hcall ▸ hcalled) (hkept amount)

/-- So does a run without divestments. -/
theorem accrued_run (h : Ledger.Reachable (contract vaults) trace env)
    (hrun : Run (· = env) (Ledger.Next (contract vaults)) newer env')
    (hkept : ∀ e ∈ newer, ∀ amount,
      Ledger.called (contract vaults) e ≠ some (.divestFunds amount)) :
    env'.store.earned = env.store.earned ∧
      env'.store.accrued = env.store.accrued + yieldAccrued vaults newer ∧
      (∀ e ∈ newer, 0 ≤ bookedYield vaults e) := by
  induction hrun with
  | start heq =>
      rw [heq]
      exact ⟨rfl, (Int.add_zero _).symm, by simp⟩
  | @step newer middle event env' hrun hn ih =>
      rw [List.forall_mem_cons] at hkept
      obtain ⟨hearned, haccrued, hnonneg⟩ := ih hkept.2
      let e : Step := ⟨middle, event, env'⟩
      have hmiddle : Ledger.Reachable (contract vaults) (newer ++ trace) e.before := h.append hrun
      obtain ⟨hearned', haccrued'⟩ := accrued_step hmiddle hn hkept.1
      refine ⟨hearned'.trans hearned, ?_, List.forall_mem_cons.mpr ⟨?_, hnonneg⟩⟩
      · calc e.after.store.accrued
          _ = e.before.store.accrued + bookedYield vaults e := haccrued'
          _ = env.store.accrued + yieldAccrued vaults newer + bookedYield vaults e := by
            rw [haccrued]
          _ = env.store.accrued + yieldAccrued vaults (e :: newer) := Int.add_assoc ..
      · exact bookedYield_nonneg (store_sound hmiddle)

/-- No yield is booked in total exactly if none is booked by any step. -/
theorem yieldAccrued_eq_zero_iff (h : ∀ e ∈ newer, 0 ≤ bookedYield vaults e) :
    0 ≤ yieldAccrued vaults newer ∧
      (yieldAccrued vaults newer = 0 ↔ ∀ e ∈ newer, bookedYield vaults e = 0) := by
  induction newer with
  | nil => simp [yieldAccrued]
  | cons e newer ih =>
      rw [List.forall_mem_cons] at h
      obtain ⟨hnonneg, hiff⟩ := ih h.2
      have hfirst := h.1
      rw [List.forall_mem_cons, ← hiff]
      simp only [yieldAccrued]
      omega

/-- **Harvests.** A harvest from a strategy of the treasury books what was earned exactly if
nothing was. In a run without divestments, the yield in the metrics grows by as much as the
accrued yield exactly if there was none at any harvest. A second harvest at the same time books
nothing in any case. -/
theorem harvests_booked_iff (vaults : Vaults) :
    (∀ env position result, env.store.yieldPosition = some position →
      position.strategy ≠ yieldStrategyExternalVault → harvestYield vaults env = .ok result →
      (HarvestBooked env result.1 position result.2 ↔
        calculateYieldAmount position env.timestamp = .ok 0)) ∧
    (∀ trace env newer env', Ledger.Reachable (contract vaults) trace env →
      Run (· = env) (Ledger.Next (contract vaults)) newer env' →
      (∀ e ∈ newer, ∀ amount, Ledger.called (contract vaults) e ≠ some (.divestFunds amount)) →
      (env'.store.earned - env.store.earned = env'.store.accrued - env.store.accrued ↔
        ∀ e ∈ newer, bookedYield vaults e = 0)) ∧
    ∀ env env' position result again, env.store.yieldPosition = some position →
      position.strategy ≠ yieldStrategyExternalVault → harvestYield vaults env = .ok result →
      env'.store = result.1.store → env'.timestamp = env.timestamp →
      harvestYield vaults env' = .ok again →
      again.2 = 0 ∧ again.1.store.earned = env'.store.earned ∧
        again.1.store.accrued = env'.store.accrued := by
  refine ⟨fun env position result => harvestBooked_iff, ?_,
    fun env env' position result again => harvest_again⟩
  intro trace env newer env' h hrun hkept
  obtain ⟨hearned, haccrued, hnonneg⟩ := accrued_run h hrun hkept
  rw [← (yieldAccrued_eq_zero_iff hnonneg).2]
  omega

/-- In the first second nothing is earned, and that is booked. -/
theorem harvests_booked_of_nothing :
    let run := Ledger.history (contract Demo.noVaults) Demo.treasury Demo.invested
    ∃ position result, run.2.store.yieldPosition = some position ∧
      harvestYield Demo.noVaults { run.2 with timestamp := 101 } = .ok result ∧
      HarvestBooked { run.2 with timestamp := 101 } result.1 position result.2 := by
  intro run
  obtain ⟨hbooked, -⟩ := harvests_booked_iff Demo.noVaults
  obtain ⟨position, hposition, hstrategy, hyield⟩ : ∃ position,
      run.2.store.yieldPosition = some position ∧
        position.strategy ≠ yieldStrategyExternalVault ∧
        calculateYieldAmount position 101 = .ok 0 := ⟨_, rfl, by decide, by decide⟩
  have hdone : (harvestYield Demo.noVaults { run.2 with timestamp := 101 }).toOption.isSome := by
    decide
  cases hresult : harvestYield Demo.noVaults { run.2 with timestamp := 101 } with
  | error fault => simp [hresult, Except.toOption] at hdone
  | ok result =>
      exact ⟨position, result, hposition, rfl,
        (hbooked { run.2 with timestamp := 101 } position result hposition hstrategy hresult).mpr
          hyield⟩

/-- A quarter of a million has accrued, and the harvest books nothing. -/
theorem harvest_books_nothing :
    ¬∀ trace env, Ledger.Reachable (contract Demo.noVaults) trace env →
      ∀ timestamp position result, env.store.yieldPosition = some position →
        harvestYield Demo.noVaults { env with timestamp } = .ok result →
        HarvestBooked { env with timestamp } result.1 position result.2 := by
  intro h
  let run := Ledger.history (contract Demo.noVaults) Demo.treasury Demo.invested
  have hrun : Ledger.Reachable (contract Demo.noVaults) run.1 run.2 :=
    Ledger.history_reachable _ Demo.treasury_deployed (by decide)
  obtain ⟨position, hposition, hstrategy, hyield⟩ : ∃ position,
      run.2.store.yieldPosition = some position ∧
        position.strategy ≠ yieldStrategyExternalVault ∧
        calculateYieldAmount position 98550100 = .ok 250000 := ⟨_, rfl, by decide, by decide⟩
  have hdone :
      (harvestYield Demo.noVaults { run.2 with timestamp := 98550100 }).toOption.isSome := by decide
  cases hresult : harvestYield Demo.noVaults { run.2 with timestamp := 98550100 } with
  | error fault => simp [hresult, Except.toOption] at hdone
  | ok result =>
      have hbooked := (h run.1 run.2 hrun 98550100 position result hposition hresult).returned_eq
      obtain ⟨-, -, hzero, -⟩ := @harvest_accrues Demo.noVaults
        { run.2 with timestamp := 98550100 } position result hposition hstrategy hresult
      rw [hzero] at hbooked
      cases hyield.symm.trans hbooked

end YieldTrust.YieldTreasury
