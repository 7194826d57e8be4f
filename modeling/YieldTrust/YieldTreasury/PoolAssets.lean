import YieldTrust.YieldTreasury.Health

/-!
# YieldTrust.YieldTreasury.PoolAssets

What stands behind the **assets** of the pool, the reserve and the value of the position. An
investment sets them to what the treasury holds at that moment; after it only booked yield is
added. No token moves for any of this: the strategies are given nothing and pay nothing, and only
an emergency withdrawal takes tokens out.
-/

namespace YieldTrust.YieldTreasury

open Fallible
open GrantStream (Address)

variable {vaults : Vaults} {env env' : Env} {position : YieldPosition} {call : Call} {e : Step}
  {store : Store} {newer older trace : Trace}

/-! ### What a call does to the assets -/

def Store.reserve (store : Store) : Int := store.reserveBalance.getD 0

/-- What the pool counts as its own: the reserve and the stored value of the position. -/
def Store.assets (store : Store) : Int :=
  store.reserve + store.yieldPosition.elim 0 YieldPosition.currentValue

/-- The yield of the position that is not booked at the time `now`. -/
def Store.unbooked (store : Store) (now : Nat) : Res Int :=
  store.yieldPosition.elim (pure 0) fun position => calculateYieldAmount position now

/-- The storage after an investment of what the treasury holds in its token. -/
structure Funded (env : Env) (store : Store) : Prop where
  opened : store.yieldPosition ≠ none
  booked : ∃ token config, env.store.yieldToken = some token ∧ env.store.config = some config ∧
    store.assets = balanceOf env token ∧
    (balanceOf env token * config.minReserveRatio).tdiv 10000 ≤ store.reserve

/-- What a call does to the assets. -/
inductive AssetsChange (env : Env) (call : Call) (store : Store) : Prop
  | kept (hcall : call.booksYield = false)
      (hposition : store.yieldPosition = env.store.yieldPosition)
      (hreserve : store.reserve = env.store.reserve)
  | invested (hcall : call.booksYield = false) (hnone : env.store.yieldPosition = none)
      (hfunded : Funded env store)
  | booked (hcall : call.booksYield = true) (position : YieldPosition)
      (hposition : env.store.yieldPosition = some position) (newYield : Int)
      (hyield : calculateYieldAmount position env.timestamp = .ok newYield)
      (hassets : store.assets = env.store.assets + newYield)
      (hreserve : env.store.reserve ≤ store.reserve)

theorem ensureReserveRatio_eq_ok {total amount : Int} {u : Unit}
    (h : ensureReserveRatio env total amount = .ok u) :
    ∃ config, env.store.config = some config ∧
      (total * config.minReserveRatio).tdiv 10000 ≤ total - amount := by
  simp only [ensureReserveRatio, readConfig, bind_eq_ok, okOr_eq_ok, ensure_eq_ok,
    I128.checkedMul_eq_some, I128.checkedDiv_eq_some, I128.checkedSub_eq_some] at h
  obtain ⟨config, hconfig, _, ⟨-, rfl⟩, _, ⟨-, -, rfl⟩, _, ⟨-, rfl⟩, hle⟩ := h
  exact ⟨config, hconfig, hle⟩

/-- An investment moves no token: the external vault has no rate, and what a strategy of the
treasury is given stays where it is. -/
theorem investIdleFunds_funded {amount : Int} {strategy : Option Nat}
    (h : investIdleFunds vaults env amount strategy = .ok env') :
    env.store.yieldPosition = none ∧ Funded env env'.store ∧
      env'.tokens.balance = env.tokens.balance := by
  unfold investIdleFunds readYieldToken at h
  simp only [bind_eq_ok, okOr_eq_ok, ensure_eq_ok, pure_eq_ok, I128.checkedSub_eq_some] at h
  obtain ⟨-, -, -, -, config, -, token, htoken, -, hnone, _, hratio, -, -, funded, hfund, apy, hapy,
    _, ⟨-, rfl⟩, metrics, -, _, -, _, -, rfl⟩ := h
  obtain ⟨config, hconfig, hkept⟩ := ensureReserveRatio_eq_ok hratio
  obtain ⟨hstrategy, -⟩ := getStrategyApy_eq_ok hapy
  refine ⟨hnone, ⟨by simp [writeMetrics, writeReserveBalance, setYieldPosition], token, config,
    htoken, hconfig, ?_, hkept⟩, ?_⟩
  · show balanceOf env token - amount + amount = balanceOf env token
    exact Int.sub_add_cancel ..
  · rw [fundStrategy, if_neg hstrategy, Ledger.Env.transfer_eq_ok] at hfund
    obtain ⟨tokens, htransfer, rfl⟩ := hfund
    exact TokenLedger.transfer_balance_self htransfer

/-- A divestment puts into the reserve what it takes off the position, which was brought up to
date before. -/
theorem divestFunds_booked {amount : Option Int} (hs : env.store.Sound)
    (h : divestFunds env amount = .ok env') :
    AssetsChange env (.divestFunds amount) env'.store ∧ env'.tokens = env.tokens := by
  unfold divestFunds readYieldPosition readReserveBalance at h
  simp only [bind_eq_ok, okOr_eq_ok, pure_eq_ok, I128.checkedSub_eq_some,
    I128.checkedAdd_eq_some] at h
  obtain ⟨-, -, position, hposition, _, -, updated, hupdate, divestAmount, hamount, _, ⟨-, rfl⟩,
    split, -, _, -, _, -, reserve, hreserve, _, ⟨-, rfl⟩, metrics, -, _, -, rfl⟩ := h
  have hsound := hs.position position hposition
  obtain ⟨hpos, -⟩ := divestAmountOf_bounds (hsound.update hupdate).1 hamount
  obtain ⟨newYield, hyield, -, -, rfl⟩ := updateYieldPosition_eq_ok.mp hupdate
  have hreserve : env.store.reserveBalance = some reserve := hreserve
  have hcurrent := hsound.current_eq
  refine ⟨.booked rfl position hposition newYield hyield ?_ ?_, rfl⟩
  · simp only [Store.assets, Store.reserve, writeMetrics, writeReserveBalance, setYieldPosition,
      hposition, hreserve, Option.getD_some, Option.elim_some]
    split_ifs with hrest
    · simp only [Option.elim_none]
      omega
    · simp only [Option.elim_some]
      omega
  · show env.store.reserve ≤ reserve + divestAmount
    simp only [Store.reserve, hreserve, Option.getD_some]
    omega

theorem harvestYield_booked {result : Env × Int} (hs : env.store.Sound)
    (h : harvestYield vaults env = .ok result) :
    AssetsChange env .harvestYield result.1.store ∧ result.1.tokens = env.tokens := by
  obtain ⟨position, hposition, hrest⟩ := bind_eq_ok.mp h
  have hposition : env.store.yieldPosition = some position := okOr_eq_ok.mp hposition
  have hsound := hs.position position hposition
  obtain ⟨updated, hupdate, -, -, hafter, -⟩ :=
    harvestYield_eq_ok hposition hsound.strategy h
  simp only [bind_eq_ok, pure_eq_ok] at hrest
  obtain ⟨config, -, harvested, -, metrics, -, _, -, admin, -, rfl⟩ := hrest
  obtain ⟨newYield, hyield, -, -, rfl⟩ := updateYieldPosition_eq_ok.mp hupdate
  have hcurrent := hsound.current_eq
  refine ⟨.booked rfl position hposition newYield hyield ?_ le_rfl, rfl⟩
  rw [Store.assets, hafter, Store.assets, hposition]
  show env.store.reserve + (position.investedAmount + (position.accruedYield + newYield)) =
    env.store.reserve + position.currentValue + newYield
  omega

theorem autoInvest_cases (h : autoInvest vaults env = .ok env') :
    env' = env ∨ ∃ amount strategy, investIdleFunds vaults env amount strategy = .ok env' := by
  simp only [autoInvest, bind_eq_ok] at h
  obtain ⟨config, -, _, -, _, -, _, -, _, -, idleFunds, -, _, -, maxInvestment, -, h⟩ := h
  generalize (if maxInvestment < idleFunds then maxInvestment else idleFunds) =
    investmentAmount at h
  split at h
  · exact .inr ⟨_, _, h⟩
  · exact .inl (pure_eq_ok.mp h).symm

theorem exec_assets (hs : env.store.Sound) (h : call.exec vaults env = .ok env') :
    AssetsChange env call env'.store := by
  cases call with
  | initializeTreasury admin yieldTokenAddress initialConfig =>
      simp only [Call.exec, initializeTreasury, bind_eq_ok, ensure_eq_ok, pure_eq_ok] at h
      obtain ⟨-, hnone, -, -, rfl⟩ := h
      refine .kept rfl rfl ?_
      rw [hs.uninitialized hnone]
      rfl
  | investIdleFunds amount strategy =>
      obtain ⟨hnone, hfunded, -⟩ := investIdleFunds_funded h
      exact .invested rfl hnone hfunded
  | divestFunds amount => exact (divestFunds_booked hs h).1
  | updateConfig newConfig =>
      simp only [Call.exec, updateConfig, bind_eq_ok, pure_eq_ok] at h
      obtain ⟨-, -, rfl⟩ := h
      exact .kept rfl rfl rfl
  | emergencyWithdraw amount recipient =>
      simp only [Call.exec, emergencyWithdraw, bind_eq_ok, Ledger.Env.transfer_eq_ok] at h
      obtain ⟨-, -, _, -, _, -, _, -, _, -, _, -, _, -, rfl⟩ := h
      exact .kept rfl rfl rfl
  | autoInvest =>
      rcases autoInvest_cases h with rfl | ⟨amount, strategy, hinvest⟩
      · exact .kept rfl rfl rfl
      · obtain ⟨hnone, hfunded, -⟩ := investIdleFunds_funded hinvest
        exact .invested rfl hnone hfunded
  | harvestYield =>
      obtain ⟨result, hresult, rfl⟩ := map_eq_ok.mp h
      exact (harvestYield_booked hs hresult).1

/-- A call that moves tokens is an emergency withdrawal, signed by the administrator. -/
theorem exec_tokens (hs : env.store.Sound) (h : call.exec vaults env = .ok env') :
    env'.tokens.balance = env.tokens.balance ∨
      ∃ amount recipient admin token, call = .emergencyWithdraw amount recipient ∧
        env.store.admin = some admin ∧ admin ∈ env.auths ∧ env.store.yieldToken = some token ∧
        env.tokens.transfer token env.self recipient amount = some env'.tokens := by
  cases call with
  | initializeTreasury admin yieldTokenAddress initialConfig =>
      simp only [Call.exec, initializeTreasury, bind_eq_ok, pure_eq_ok] at h
      obtain ⟨-, -, -, -, rfl⟩ := h
      exact .inl rfl
  | investIdleFunds amount strategy => exact .inl (investIdleFunds_funded h).2.2
  | divestFunds amount => exact .inl (congrArg _ (divestFunds_booked hs h).2)
  | updateConfig newConfig =>
      simp only [Call.exec, updateConfig, bind_eq_ok, pure_eq_ok] at h
      obtain ⟨-, -, rfl⟩ := h
      exact .inl rfl
  | emergencyWithdraw amount recipient =>
      simp only [Call.exec, emergencyWithdraw, requireAdminAuth, readAdmin, readYieldToken,
        bind_eq_ok, okOr_eq_ok, Ledger.Env.transfer_eq_ok] at h
      obtain ⟨_, ⟨admin, hadmin, hauth⟩, _, -, _, -, _, -, token, htoken, _, -, tokens, htransfer,
        rfl⟩ := h
      exact .inr ⟨amount, recipient, admin, token, rfl, hadmin, require_eq_ok.mp hauth, htoken,
        htransfer⟩
  | autoInvest =>
      rcases autoInvest_cases h with rfl | ⟨amount, strategy, hinvest⟩
      · exact .inl rfl
      · exact .inl (investIdleFunds_funded hinvest).2.2
  | harvestYield =>
      obtain ⟨result, hresult, rfl⟩ := map_eq_ok.mp h
      exact .inl (congrArg _ (harvestYield_booked hs hresult).2)

/-! ### Runs -/

/-- The step opens a position. -/
def Invests (e : Step) : Prop :=
  e.before.store.yieldPosition = none ∧ e.after.store.yieldPosition ≠ none

instance (e : Step) : Decidable (Invests e) := inferInstanceAs (Decidable (_ ∧ _))

/-- **Step lemma.** A step books the yield it books, or it opens a position. -/
theorem assets_of_next (h : Ledger.Reachable (contract vaults) older e.before)
    (hn : Ledger.Next (contract vaults) e.before e.action e.after) :
    (¬Invests e ∧ e.after.store.assets = e.before.store.assets + bookedYield vaults e ∧
        e.before.store.reserve ≤ e.after.store.reserve) ∨
      (Invests e ∧ Funded (e.before.enter e.action) e.after.store) := by
  have hs : (e.before.enter e.action).store.Sound := (store_sound h : e.before.store.Sound)
  rcases Ledger.effect_of_next hn (fun _ hexec => exec_assets hs hexec) with
    ⟨hcalled, hstore⟩ | ⟨call, hcalled, hchange⟩
  · refine .inl ⟨fun hinvests => ?_, ?_, ?_⟩
    · exact hinvests.2 (hstore ▸ hinvests.1)
    · rw [hstore, bookedYield_of_idle hcalled, Int.add_zero]
    · rw [hstore]
  · cases hchange with
    | kept hcall hposition hreserve =>
        refine .inl ⟨fun hinvests => hinvests.2 (hposition.trans hinvests.1), ?_, hreserve.ge⟩
        rw [bookedYield_of_called hcalled hcall, Int.add_zero, Store.assets, hposition, hreserve]
        rfl
    | invested hcall hnone hfunded => exact .inr ⟨⟨hnone, hfunded.opened⟩, hfunded⟩
    | booked hcall position hposition newYield hyield hassets hreserve =>
        have hposition : e.before.store.yieldPosition = some position := hposition
        refine .inl ⟨fun hinvests => ?_, ?_, hreserve⟩
        · cases hinvests.1.symm.trans hposition
        · rw [bookedYield_of_update hcalled hcall hposition hyield]
          exact hassets

/-- As long as no position is opened, the assets grow by the yield that is booked. -/
theorem assets_run (h : Ledger.Reachable (contract vaults) (newer ++ e :: older) env)
    (hkept : ∀ e' ∈ newer, ¬Invests e') :
    env.store.assets = e.after.store.assets + yieldAccrued vaults newer ∧
      e.after.store.reserve ≤ env.store.reserve := by
  induction newer generalizing env with
  | nil =>
      obtain ⟨-, -, rfl⟩ := h.uncons
      exact ⟨(Int.add_zero _).symm, le_rfl⟩
  | cons last newer ih =>
      rw [List.forall_mem_cons] at hkept
      obtain ⟨hrun, hn, rfl⟩ := h.uncons
      obtain ⟨hassets, hreserve⟩ := ih hrun hkept.2
      rcases assets_of_next hrun hn with ⟨-, hbooked, hgrown⟩ | ⟨hinvests, -⟩
      · refine ⟨?_, hreserve.trans hgrown⟩
        rw [hbooked, hassets, yieldAccrued, Int.add_assoc]
      · exact absurd hinvests hkept.1

/-- Before the first investment there are no assets. -/
theorem assets_of_uninvested (h : Ledger.Reachable (contract vaults) trace env)
    (hkept : ∀ e ∈ trace, ¬Invests e) :
    env.store.yieldPosition = none ∧ env.store.assets = 0 := by
  induction h with
  | start h =>
      obtain ⟨_, _, rfl⟩ := h
      exact ⟨rfl, rfl⟩
  | @step older before event after hrun hn ih =>
      rw [List.forall_mem_cons] at hkept
      obtain ⟨hnone, hassets⟩ := ih hkept.2
      have hstill : after.store.yieldPosition = none := by
        by_contra hopened
        exact hkept.1 ⟨hnone, hopened⟩
      rcases assets_of_next (e := ⟨before, event, after⟩) hrun hn with
        ⟨-, hbooked, -⟩ | ⟨hinvests, -⟩
      · refine ⟨hstill, ?_⟩
        dsimp only at hbooked
        rw [hbooked, hassets]
        simp [bookedYield, hnone]
      · exact absurd hinvests hkept.1

/-- What the pool's health is computed from. -/
theorem calculatePoolHealth_of_assets (hs : env.store.Sound) {liabilities health : Int}
    (hpos : 0 < liabilities) (h : calculatePoolHealth env liabilities = .ok health) :
    ∃ unbooked, env.store.unbooked env.timestamp = .ok unbooked ∧
      health = (((env.store.assets + unbooked) * 9000).tdiv 10000 * 10000).tdiv liabilities := by
  rw [← previewPoolHealth_eq hs] at h
  obtain ⟨reserve, hreserve, h⟩ := bind_eq_ok.mp h
  have hreserve : env.store.reserveBalance = some reserve := okOr_eq_ok.mp hreserve
  have hne : ¬liabilities ≤ 0 := Int.not_le.mpr hpos
  unfold Store.unbooked Store.assets Store.reserve
  rw [hreserve]
  cases hposition : env.store.yieldPosition with
  | none =>
      simp only [hposition, if_neg hne, pure_bind, bind_eq_ok, okOr_eq_ok,
        I128.checkedMul_eq_some, I128.checkedDiv_eq_some] at h
      obtain ⟨_, ⟨-, rfl⟩, _, ⟨-, rfl⟩, -, -, rfl⟩ := h
      exact ⟨0, rfl, by simp⟩
  | some position =>
      have hsound := hs.position position hposition
      simp only [hposition, if_neg hne, previewYieldPositionValue_eq hsound,
        currentValue_update hsound, bind_eq_ok, okOr_eq_ok, I128.checkedAdd_eq_some,
        I128.checkedMul_eq_some, I128.checkedDiv_eq_some] at h
      obtain ⟨_, ⟨newYield, hyield, -, rfl⟩, _, ⟨-, rfl⟩, _, ⟨-, rfl⟩, _, ⟨-, rfl⟩, -, -, rfl⟩ := h
      refine ⟨newYield, hyield, ?_⟩
      rw [Option.getD_some, Option.elim_some, Int.add_assoc]

/-- The assets since the newest investment `e`: what the treasury held then and the yield booked
since, of which the reserve still has the share that was required then. -/
def AccountedSince (vaults : Vaults) (newer : Trace) (e : Step) (env : Env) : Prop :=
  ∃ token config, e.before.store.yieldToken = some token ∧ e.before.store.config = some config ∧
    env.store.assets = e.before.tokens.balance token e.before.self + yieldAccrued vaults newer ∧
    (e.before.tokens.balance token e.before.self * config.minReserveRatio).tdiv 10000 ≤
      env.store.reserve

/-- **Pool assets.** In every run, no call moves tokens but an emergency withdrawal signed by the
administrator; the assets are none before the first investment, and since the newest one they are
what the treasury held then and the yield booked since; and the health of the pool is computed
from these assets and the yield that is not booked yet. -/
theorem pool_assets_accounted (vaults : Vaults)
    (h : Ledger.Reachable (contract vaults) trace env) :
    (∀ e ∈ trace, ∀ call, Ledger.called (contract vaults) e = some call →
      e.after.tokens.balance ≠ e.before.tokens.balance →
        ∃ amount recipient admin, call = .emergencyWithdraw amount recipient ∧
          e.before.store.admin = some admin ∧ admin ∈ (e.before.enter e.action).auths) ∧
    ((∀ e ∈ trace, ¬Invests e) → env.store.assets = 0) ∧
    (∀ newer e older, trace = newer ++ e :: older → Invests e → (∀ e' ∈ newer, ¬Invests e') →
      AccountedSince vaults newer e env) ∧
    ∀ now liabilities health, 0 < liabilities →
      calculatePoolHealth { env with timestamp := now } liabilities = .ok health →
        ∃ unbooked, env.store.unbooked now = .ok unbooked ∧
          health = (((env.store.assets + unbooked) * 9000).tdiv 10000 * 10000).tdiv liabilities := by
  refine ⟨?_, fun hkept => (assets_of_uninvested h hkept).2, ?_, ?_⟩
  · intro e he call hcalled hmoved
    obtain ⟨older, hrun, hn⟩ := h.of_mem he
    obtain ⟨result, -, hexec, hafter⟩ := Ledger.exec_of_called hn hcalled
    have hs : (e.before.enter e.action).store.Sound := (store_sound hrun : e.before.store.Sound)
    rcases exec_tokens hs hexec with
      hsame | ⟨amount, recipient, admin, token, hcall, hadmin, hauth, -⟩
    · refine absurd ?_ hmoved
      rw [hafter]
      exact hsame
    · exact ⟨amount, recipient, admin, hcall, hadmin, hauth⟩
  · rintro newer e older rfl hinvests hkept
    obtain ⟨hassets, hreserve⟩ := assets_run h hkept
    obtain ⟨hrun, hn, -⟩ := h.suffix.uncons
    rcases assets_of_next hrun hn with ⟨hnot, -⟩ | ⟨-, hfunded⟩
    · exact absurd hinvests hnot
    · obtain ⟨token, config, htoken, hconfig, hbooked, hratio⟩ := hfunded.booked
      refine ⟨token, config, htoken, hconfig, ?_, hratio.trans hreserve⟩
      rw [hassets, hbooked]
      rfl
  · intro now liabilities health hpos hhealth
    have hs : { env with timestamp := now }.store.Sound := (store_sound h : env.store.Sound)
    exact calculatePoolHealth_of_assets hs hpos hhealth

/-- A quarter of a million has accrued and is booked; and nine tenths of what the treasury holds
are taken out, which the assets do not show. -/
theorem pool_assets_accounted_of_withdrawal :
    let config : TreasuryConfig :=
      { admin := Demo.admin, minReserveRatio := 0, maxInvestmentRatio := 10000, autoInvest := false
        yieldStrategy := yieldStrategyStellarAqua, emergencyWithdrawalEnabled := true
        maxSlippage := 0, externalVault := none }
    let run := Ledger.history (contract Demo.noVaults) Demo.treasury (Demo.invested ++
      [Demo.call 98550100 .harvestYield, Demo.call 98550100 (.updateConfig config),
        Demo.call 98550100 (.emergencyWithdraw 9000000 Demo.admin)])
    run.2.store.assets = 10250000 ∧ run.2.tokens.balance Demo.token Demo.self = 1000000 ∧
      calculatePoolHealth { run.2 with timestamp := 98550100 } 10000000 = .ok 9225 := by
  intro config run
  have hrun : Ledger.Reachable (contract Demo.noVaults) run.1 run.2 :=
    Ledger.history_reachable _ Demo.treasury_deployed (by decide)
  obtain ⟨-, -, hsince, -⟩ := pool_assets_accounted Demo.noVaults hrun
  obtain ⟨token, _, htoken, -, hassets, -⟩ := hsince (run.1.take 3) _ _ rfl (by decide) (by decide)
  cases htoken
  exact ⟨hassets.trans (by decide), by decide, by decide⟩

end YieldTrust.YieldTreasury
