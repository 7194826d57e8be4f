import YieldTrust.Lib.ProRata
import YieldTrust.YieldTreasury.Treasury

/-!
# YieldTrust.YieldTreasury.Positions

What the treasury knows of its position. A stored position is `Sound` in every state: its
value is its principal and its accrued yield, and the principal is never negative. The
accrued yield can be, since a divestment rounds the share of the principal down to a whole
basis point and takes the rest from the yield; `position_accounting` says exactly when.
-/

namespace YieldTrust.YieldTreasury

open Fallible
open GrantStream (Address)

/-! ### One position -/

/-- A position as the treasury stores it. -/
structure YieldPosition.Sound (position : YieldPosition) : Prop where
  strategy : position.strategy ≠ yieldStrategyExternalVault
  apy_nonneg : 0 ≤ position.apy
  invested_nonneg : 0 ≤ position.investedAmount
  current_pos : 0 < position.currentValue
  current_eq : position.currentValue = position.investedAmount + position.accruedYield
  accrued_inRange : I128.InRange position.accruedYield
  current_inRange : I128.InRange position.currentValue

variable {vaults : Vaults} {env env' : Env} {position position' : YieldPosition}

theorem calculateYieldAmount_nonneg (h : position.Sound) {now : Nat} {newYield : Int}
    (hyield : calculateYieldAmount position now = .ok newYield) : 0 ≤ newYield := by
  unfold calculateYieldAmount at hyield
  split at hyield
  · simp only [pure_eq_ok] at hyield
    exact hyield.le
  · simp only [bind_eq_ok, okOr_eq_ok, I128.checkedMul_eq_some, I128.checkedDiv_eq_some]
      at hyield
    obtain ⟨_, ⟨-, rfl⟩, _, ⟨-, rfl⟩, _, ⟨-, -, rfl⟩, -, -, rfl⟩ := hyield
    have hrate := Int.mul_nonneg h.invested_nonneg h.apy_nonneg
    have htime := Int.mul_nonneg hrate (Int.natCast_nonneg (now - position.lastYieldUpdate))
    exact Int.tdiv_nonneg (Int.tdiv_nonneg htime (by decide)) (by decide)

/-- A position just brought up to date has no new yield. -/
theorem calculateYieldAmount_updated (h : position.lastYieldUpdate = env.timestamp) :
    calculateYieldAmount position env.timestamp = .ok 0 := by
  simp [calculateYieldAmount, h, pure, Except.pure]

theorem updateYieldPosition_eq_ok :
    updateYieldPosition env position = .ok position' ↔
      ∃ newYield, calculateYieldAmount position env.timestamp = .ok newYield ∧
        I128.InRange (position.accruedYield + newYield) ∧
        I128.InRange (position.investedAmount + (position.accruedYield + newYield)) ∧
        { position with
          accruedYield := position.accruedYield + newYield
          currentValue := position.investedAmount + (position.accruedYield + newYield)
          lastYieldUpdate := env.timestamp } = position' := by
  unfold updateYieldPosition
  simp only [bind_eq_ok, okOr_eq_ok, pure_eq_ok, I128.checkedAdd_eq_some]
  constructor
  · rintro ⟨newYield, hyield, _, ⟨haccrued, rfl⟩, _, ⟨hcurrent, rfl⟩, hposition⟩
    exact ⟨newYield, hyield, haccrued, hcurrent, hposition⟩
  · intro ⟨newYield, hyield, haccrued, hcurrent, hposition⟩
    exact ⟨newYield, hyield, _, ⟨haccrued, rfl⟩, _, ⟨hcurrent, rfl⟩, hposition⟩

/-- What an update leaves: the yield of the time since the last one is booked. -/
theorem YieldPosition.Sound.update (h : position.Sound)
    (hupdate : updateYieldPosition env position = .ok position') :
    position'.Sound ∧ position'.lastYieldUpdate = env.timestamp ∧
      ∃ newYield, calculateYieldAmount position env.timestamp = .ok newYield ∧
        position'.accruedYield = position.accruedYield + newYield := by
  obtain ⟨newYield, hyield, haccrued, hcurrent, rfl⟩ := updateYieldPosition_eq_ok.mp hupdate
  have hnonneg := calculateYieldAmount_nonneg h hyield
  have hpos : 0 < position.investedAmount + (position.accruedYield + newYield) := by
    have hcurrent := h.current_pos
    have hsum := h.current_eq
    omega
  refine ⟨?_, rfl, newYield, hyield, rfl⟩
  exact { strategy := h.strategy, apy_nonneg := h.apy_nonneg
          invested_nonneg := h.invested_nonneg, current_pos := hpos, current_eq := rfl
          accrued_inRange := haccrued, current_inRange := hcurrent }

/-! ### One divestment -/

/-- What a divestment takes out of a position. -/
structure Divestment where
  /-- The position, brought up to date. -/
  position : YieldPosition
  amount : Int
  principal : Int
  yield : Int

/-- What `divestFunds` with this argument takes out. -/
def divestment (env : Env) (amount : Option Int) : Res Divestment := do
  let position ← readYieldPosition env
  let position ← updateYieldPosition env position
  let divestAmount ← divestAmountOf position amount
  let (principal, yield) ← divestSplit position divestAmount
  return { position, amount := divestAmount, principal, yield }

/-- The position that a divestment leaves. -/
def Divestment.remaining (d : Divestment) : Option YieldPosition :=
  if d.position.currentValue - d.amount = 0 then none
  else some { d.position with
    investedAmount := d.position.investedAmount - d.principal
    accruedYield := d.position.accruedYield - d.yield
    currentValue := d.position.currentValue - d.amount }

/-- The share of the principal in the value, in whole basis points. -/
def YieldPosition.investmentRatio (position : YieldPosition) : Int :=
  position.investedAmount * 10000 / position.currentValue

theorem divestAmountOf_bounds (h : position.Sound) {amount : Option Int} {divestAmount : Int}
    (hamount : divestAmountOf position amount = .ok divestAmount) :
    0 < divestAmount ∧ divestAmount ≤ position.currentValue := by
  cases amount with
  | none =>
      rw [← pure_eq_ok.mp hamount]
      exact ⟨h.current_pos, le_rfl⟩
  | some amount =>
      simp only [divestAmountOf, bind_eq_ok, ensure_eq_ok, pure_eq_ok] at hamount
      obtain ⟨-, hpos, -, hle, rfl⟩ := hamount
      exact ⟨hpos, hle⟩

theorem divestSplit_eq_ok (h : position.Sound) {divestAmount principal yield : Int}
    (hpos : 0 < divestAmount)
    (hsplit : divestSplit position divestAmount = .ok (principal, yield)) :
    principal = divestAmount * position.investmentRatio / 10000 ∧
      yield = divestAmount - principal := by
  unfold divestSplit at hsplit
  rw [if_pos h.current_pos] at hsplit
  simp only [bind_eq_ok, okOr_eq_ok, pure_eq_ok, I128.checkedMul_eq_some,
    I128.checkedDiv_eq_some, I128.checkedSub_eq_some, Prod.mk.injEq] at hsplit
  obtain ⟨_, ⟨-, rfl⟩, _, ⟨-, -, rfl⟩, _, ⟨-, rfl⟩, _, ⟨-, -, rfl⟩, _, ⟨-, rfl⟩, rfl, rfl⟩ :=
    hsplit
  have hscaled : 0 ≤ position.investedAmount * 10000 :=
    Int.mul_nonneg h.invested_nonneg (by decide)
  have hratio : (position.investedAmount * 10000).tdiv position.currentValue =
      position.investmentRatio := Int.tdiv_eq_ediv_of_nonneg hscaled
  have hshare : 0 ≤ position.investmentRatio := Int.ediv_nonneg hscaled h.current_pos.le
  rw [hratio, Int.tdiv_eq_ediv_of_nonneg (Int.mul_nonneg hpos.le hshare)]
  exact ⟨rfl, rfl⟩

variable {d : Divestment}

/-- **Inversion** of a divestment from a sound position. -/
theorem divestment_eq_ok {amount : Option Int}
    (hposition : env.store.yieldPosition = some position) (h : position.Sound)
    (hd : divestment env amount = .ok d) :
    updateYieldPosition env position = .ok d.position ∧
      divestAmountOf d.position amount = .ok d.amount ∧ 0 < d.amount ∧
      d.amount ≤ d.position.currentValue ∧
      d.principal = d.amount * d.position.investmentRatio / 10000 ∧
      d.yield = d.amount - d.principal := by
  unfold divestment readYieldPosition at hd
  simp only [bind_eq_ok, okOr_eq_ok, pure_eq_ok, hposition, Option.some.injEq] at hd
  obtain ⟨_, rfl, updated, hupdate, divestAmount, hamount, ⟨principal, yield⟩, hsplit, rfl⟩ := hd
  obtain ⟨hsound, -⟩ := h.update hupdate
  obtain ⟨hpos, hle⟩ := divestAmountOf_bounds hsound hamount
  obtain ⟨hprincipal, hyield⟩ := divestSplit_eq_ok hsound hpos hsplit
  exact ⟨hupdate, hamount, hpos, hle, hprincipal, hyield⟩

/-- Principal and yield of a divestment: never more than the principal invested, and at most
the accrued yield exactly if the share of the yield is small enough. -/
theorem Divestment.split (h : d.position.Sound) (hle : d.amount ≤ d.position.currentValue)
    (hprincipal : d.principal = d.amount * d.position.investmentRatio / 10000)
    (hyield : d.yield = d.amount - d.principal) :
    d.principal ≤ d.position.investedAmount ∧
      (d.yield ≤ d.position.accruedYield ↔
        d.amount * (10000 - d.position.investmentRatio) ≤ d.position.accruedYield * 10000) := by
  rw [hyield, hprincipal]
  exact ⟨ProRata.part_taken_le (by decide) h.invested_nonneg h.current_pos hle,
    ProRata.left_le_iff (by decide)⟩

/-! ### Calls -/

/-- The yield that was paid out so far, by the metrics. -/
def Store.earned (store : Store) : Int :=
  match store.metrics with
  | some metrics => metrics.totalYieldEarned
  | none => 0

theorem getStrategyApy_eq_ok {strategy : Nat} {apy : Int}
    (h : getStrategyApy strategy = .ok apy) :
    strategy ≠ yieldStrategyExternalVault ∧ 0 ≤ apy := by
  unfold getStrategyApy at h
  split_ifs at h with haqua husdc hpool
  · obtain rfl := pure_eq_ok.mp h
    exact ⟨by rw [haqua]; decide, by decide⟩
  · obtain rfl := pure_eq_ok.mp h
    exact ⟨by rw [husdc]; decide, by decide⟩
  · obtain rfl := pure_eq_ok.mp h
    exact ⟨by rw [hpool]; decide, by decide⟩
  · exact absurd h fail_ne_ok

theorem fundStrategy_store {config : TreasuryConfig} {yieldToken : Address} {strategy : Nat}
    {amount : Int} (h : fundStrategy vaults env config yieldToken strategy amount = .ok env') :
    env'.store = env.store := by
  unfold fundStrategy at h
  split at h
  · simp only [bind_eq_ok, pure_eq_ok] at h
    obtain ⟨_, -, _, -, _, -, rfl⟩ := h
    rfl
  · obtain ⟨_, -, rfl⟩ := Ledger.Env.transfer_eq_ok.mp h
    rfl

theorem investIdleFunds_eq_ok {amount : Int} {strategy : Option Nat}
    (h : investIdleFunds vaults env amount strategy = .ok env') :
    env.store.yieldPosition = none ∧ env'.store.admin = env.store.admin ∧
      env.store.admin ≠ none ∧ env'.store.earned = env.store.earned ∧
      (I128.InRange amount → ∃ position, env'.store.yieldPosition = some position ∧
        position.Sound ∧ position.accruedYield = 0) := by
  unfold investIdleFunds requireAdminAuth readAdmin at h
  simp only [bind_eq_ok, okOr_eq_ok, ensure_eq_ok, pure_eq_ok] at h
  obtain ⟨-, ⟨admin, hadmin, -⟩, -, hpos, config, -, yieldToken, -, -, hnone, -, -, -, -, funded,
    hfund, apy, hapy, newReserve, -, metrics, hmetrics, totalInvested, -, count, -, rfl⟩ := h
  have hstore := fundStrategy_store hfund
  have hadmin' : funded.store.admin = env.store.admin := congrArg Store.admin hstore
  obtain ⟨hstrategy, hnonneg⟩ := getStrategyApy_eq_ok hapy
  unfold readMetrics setYieldPosition writeReserveBalance at hmetrics
  simp only [okOr_eq_ok] at hmetrics
  refine ⟨hnone, hadmin', by simp [hadmin], ?_, fun hamount => ?_⟩
  · rw [hstore] at hmetrics
    simp [Store.earned, writeMetrics, hmetrics]
  · refine ⟨_, rfl, ?_, rfl⟩
    exact { strategy := hstrategy, apy_nonneg := hnonneg, invested_nonneg := hpos.le
            current_pos := hpos, current_eq := (Int.add_zero amount).symm
            accrued_inRange := I128.inRange_zero, current_inRange := hamount }

theorem divestFunds_eq_ok {amount : Option Int} (h : divestFunds env amount = .ok env') :
    ∃ d, divestment env amount = .ok d ∧
      I128.InRange (d.position.accruedYield - d.yield) ∧
      I128.InRange (d.position.currentValue - d.amount) ∧
      env'.store.yieldPosition = d.remaining ∧ env'.store.admin = env.store.admin ∧
      env.store.admin ≠ none ∧ env'.store.earned = env.store.earned + d.yield := by
  unfold divestFunds requireAdminAuth readAdmin at h
  simp only [bind_eq_ok, okOr_eq_ok, pure_eq_ok, I128.checkedSub_eq_some,
    I128.checkedAdd_eq_some] at h
  obtain ⟨-, ⟨admin, hadmin, -⟩, position, hposition, -, -, updated, hupdate, divestAmount, hamount,
    _, ⟨hremaining, rfl⟩, ⟨principal, yield⟩, hsplit, _, ⟨-, rfl⟩, _, ⟨haccrued, rfl⟩, reserve, -,
    _, -, metrics, hmetrics, _, ⟨-, rfl⟩, rfl⟩ := h
  have hd : divestment env amount =
      .ok { position := updated, amount := divestAmount, principal, yield } := by
    unfold divestment
    simp only [bind_eq_ok, pure_eq_ok]
    exact ⟨_, hposition, _, hupdate, _, hamount, _, hsplit, rfl⟩
  refine ⟨_, hd, haccrued, hremaining, rfl, rfl, by simp [hadmin], ?_⟩
  have hmetrics : env.store.metrics = some metrics := okOr_eq_ok.mp hmetrics
  simp [Store.earned, writeMetrics, hmetrics]

/-- What holds of the storage in every state: nothing is stored before the treasury has an
admin, and its position is sound. -/
structure Store.Sound (store : Store) : Prop where
  uninitialized : store.admin = none → store = {}
  position : ∀ position, store.yieldPosition = some position → position.Sound

/-- **Inversion** of a harvest from a strategy of the treasury itself. The yield is booked by the
update of the position, so nothing is left to be harvested. -/
theorem harvestYield_eq_ok {result : Env × Int}
    (hposition : env.store.yieldPosition = some position)
    (hstrategy : position.strategy ≠ yieldStrategyExternalVault)
    (h : harvestYield vaults env = .ok result) :
    ∃ updated, updateYieldPosition env position = .ok updated ∧ result.2 = 0 ∧
      result.1.timestamp = env.timestamp ∧ result.1.store.yieldPosition = some updated ∧
      result.1.store.admin = env.store.admin ∧ env.store.admin ≠ none ∧
      result.1.store.earned = env.store.earned := by
  unfold harvestYield readYieldPosition readAdmin at h
  simp only [bind_eq_ok, okOr_eq_ok, pure_eq_ok, I128.checkedAdd_eq_some] at h
  obtain ⟨before, hbefore, config, -, ⟨updated, actualYield⟩, hharvest, metrics, hmetrics,
    _, ⟨-, rfl⟩, admin, hadmin, rfl⟩ := h
  obtain rfl := Option.some.inj (hposition.symm.trans hbefore)
  unfold harvestPosition at hharvest
  rw [if_neg hstrategy] at hharvest
  simp only [bind_eq_ok, pure_eq_ok, Prod.mk.injEq] at hharvest
  obtain ⟨updated, hupdate, _, hyield, rfl, rfl⟩ := hharvest
  have hnow : updated.lastYieldUpdate = env.timestamp := by
    obtain ⟨_, -, -, -, rfl⟩ := updateYieldPosition_eq_ok.mp hupdate
    rfl
  rw [calculateYieldAmount_updated hnow] at hyield
  cases hyield
  have hmetrics : env.store.metrics = some metrics := okOr_eq_ok.mp hmetrics
  have hadmin : env.store.admin = some admin := hadmin
  refine ⟨updated, hupdate, rfl, rfl, rfl, rfl, by simp [hadmin], ?_⟩
  simp [Store.earned, writeMetrics, hmetrics]

/-- The calls that book the yield of the position since its last update. -/
def Call.booksYield : Call → Bool
  | .divestFunds _ | .harvestYield => true
  | _ => false

/-- What a call does to the position and to the yield paid out. -/
inductive Effect (env : Env) (call : Call) (store : Store) : Prop
  | kept (hcall : call.booksYield = false)
      (hposition : store.yieldPosition = env.store.yieldPosition)
      (hearned : store.earned = env.store.earned)
  | opened (hcall : call.booksYield = false) (hnone : env.store.yieldPosition = none)
      (position : YieldPosition) (hposition : store.yieldPosition = some position)
      (hsound : position.Sound) (haccrued : position.accruedYield = 0)
      (hearned : store.earned = env.store.earned)
  | harvested (hcall : call = .harvestYield) (position updated : YieldPosition)
      (hbefore : env.store.yieldPosition = some position)
      (hupdate : updateYieldPosition env position = .ok updated)
      (hposition : store.yieldPosition = some updated)
      (hearned : store.earned = env.store.earned)
  | divested (amount : Option Int) (hcall : call = .divestFunds amount)
      (position : YieldPosition) (hbefore : env.store.yieldPosition = some position)
      (d : Divestment) (hd : divestment env amount = .ok d)
      (haccrued : I128.InRange (d.position.accruedYield - d.yield))
      (hcurrent : I128.InRange (d.position.currentValue - d.amount))
      (hposition : store.yieldPosition = d.remaining)
      (hearned : store.earned = env.store.earned + d.yield)

theorem investIdleFunds_effect {amount : Int} {strategy : Option Nat} {call : Call}
    (hcall : call.booksYield = false) (hamount : I128.InRange amount)
    (h : investIdleFunds vaults env amount strategy = .ok env') :
    env'.store.admin ≠ none ∧ Effect env call env'.store := by
  obtain ⟨hnone, hadmin, hne, hearned, hopened⟩ := investIdleFunds_eq_ok h
  obtain ⟨position, hposition, hsound, haccrued⟩ := hopened hamount
  exact ⟨hadmin ▸ hne, .opened hcall hnone position hposition hsound haccrued hearned⟩

theorem autoInvest_effect (hs : env.store.Sound) (h : autoInvest vaults env = .ok env') :
    env'.store.admin ≠ none ∧ Effect env .autoInvest env'.store := by
  unfold autoInvest readConfig at h
  simp only [bind_eq_ok, okOr_eq_ok, ensure_eq_ok, I128.checkedSub_eq_some,
    I128.checkedMul_eq_some, I128.checkedDiv_eq_some] at h
  obtain ⟨config, hconfig, -, -, -, -, yieldToken, -, reserve, -, idleFunds, ⟨hidle, rfl⟩, _,
    ⟨-, rfl⟩, maxInvestment, ⟨-, hmax, hmaxInvestment⟩, h⟩ := h
  rw [hmaxInvestment] at hmax
  have hamount : I128.InRange (if maxInvestment < balanceOf env yieldToken - reserve then
      maxInvestment else balanceOf env yieldToken - reserve) := by
    split
    · exact hmax
    · exact hidle
  by_cases hpos : 0 < if maxInvestment < balanceOf env yieldToken - reserve then maxInvestment
      else balanceOf env yieldToken - reserve
  · rw [if_pos hpos] at h
    exact investIdleFunds_effect rfl hamount h
  · rw [if_neg hpos] at h
    obtain rfl := pure_eq_ok.mp h
    refine ⟨fun hadmin => ?_, .kept rfl rfl rfl⟩
    rw [hs.uninitialized hadmin] at hconfig
    cases hconfig

/-- **Inversion** of a call that goes through. -/
theorem exec_effect {call : Call} (hs : env.store.Sound)
    (htyped : call.i128Args.all fun x => I128.InRange x) (h : call.exec vaults env = .ok env') :
    env'.store.admin ≠ none ∧ Effect env call env'.store := by
  cases call with
  | initializeTreasury admin yieldTokenAddress initialConfig =>
      unfold Call.exec initializeTreasury at h
      simp only [bind_eq_ok, ensure_eq_ok, pure_eq_ok] at h
      obtain ⟨-, hnone, -, -, rfl⟩ := h
      refine ⟨by simp, .kept rfl rfl ?_⟩
      rw [hs.uninitialized hnone]
      rfl
  | investIdleFunds amount strategy =>
      exact investIdleFunds_effect rfl (by simpa [Call.i128Args] using htyped) h
  | divestFunds amount =>
      obtain ⟨d, hd, haccrued, hcurrent, hposition, hadmin, hne, hearned⟩ := divestFunds_eq_ok h
      obtain ⟨position, hbefore, -⟩ := bind_eq_ok.mp hd
      exact ⟨hadmin ▸ hne, .divested amount rfl position (okOr_eq_ok.mp hbefore) d hd haccrued
        hcurrent hposition hearned⟩
  | updateConfig newConfig =>
      unfold Call.exec updateConfig requireAdminAuth readAdmin at h
      simp only [bind_eq_ok, okOr_eq_ok, pure_eq_ok] at h
      obtain ⟨-, ⟨admin, hadmin, -⟩, rfl⟩ := h
      exact ⟨by simp [writeConfig, hadmin], .kept rfl rfl rfl⟩
  | emergencyWithdraw amount recipient =>
      unfold Call.exec emergencyWithdraw requireAdminAuth readAdmin at h
      simp only [bind_eq_ok, okOr_eq_ok, Ledger.Env.transfer_eq_ok] at h
      obtain ⟨-, ⟨admin, hadmin, -⟩, _, -, _, -, _, -, _, -, _, -, _, -, rfl⟩ := h
      exact ⟨by simp [hadmin], .kept rfl rfl rfl⟩
  | autoInvest => exact autoInvest_effect hs h
  | harvestYield =>
      obtain ⟨result, hresult, rfl⟩ := map_eq_ok.mp h
      obtain ⟨position, hbefore, -⟩ := bind_eq_ok.mp hresult
      have hbefore : env.store.yieldPosition = some position := okOr_eq_ok.mp hbefore
      obtain ⟨updated, hupdate, -, -, hposition, hadmin, hne, hearned⟩ :=
        harvestYield_eq_ok hbefore (hs.position position hbefore).strategy hresult
      exact ⟨hadmin ▸ hne, .harvested rfl position updated hbefore hupdate hposition hearned⟩

/-! ### Every state -/

/-- A divestment leaves a sound position, if any. -/
theorem Divestment.remaining_sound (h : d.position.Sound)
    (hle : d.amount ≤ d.position.currentValue)
    (hprincipal : d.principal ≤ d.position.investedAmount)
    (hyield : d.yield = d.amount - d.principal)
    (haccrued : I128.InRange (d.position.accruedYield - d.yield))
    (hcurrent : I128.InRange (d.position.currentValue - d.amount))
    (hposition : d.remaining = some position) : position.Sound := by
  unfold Divestment.remaining at hposition
  split at hposition
  · cases hposition
  · case isFalse hremaining =>
    obtain rfl := Option.some.inj hposition
    have hsum := h.current_eq
    exact { strategy := h.strategy, apy_nonneg := h.apy_nonneg
            invested_nonneg := Int.sub_nonneg.mpr hprincipal
            current_pos := by dsimp only; omega
            current_eq := by dsimp only; omega
            accrued_inRange := haccrued, current_inRange := hcurrent }

theorem Effect.sound {call : Call} {store : Store} (hs : env.store.Sound)
    (h : Effect env call store) (hposition : store.yieldPosition = some position) :
    position.Sound := by
  cases h with
  | kept _ hkept _ => exact hs.position position (hkept ▸ hposition)
  | opened _ _ opened hopened hsound _ _ =>
      obtain rfl := Option.some.inj (hopened.symm.trans hposition)
      exact hsound
  | harvested _ before updated hbefore hupdate hupdated _ =>
      obtain rfl := Option.some.inj (hupdated.symm.trans hposition)
      exact ((hs.position before hbefore).update hupdate).1
  | divested amount _ before hbefore d hd haccrued hcurrent hremaining _ =>
      have hsound := hs.position before hbefore
      obtain ⟨hupdate, -, -, hle, hprincipal, hyield⟩ := divestment_eq_ok hbefore hsound hd
      have hupdated := (hsound.update hupdate).1
      exact Divestment.remaining_sound hupdated hle (Divestment.split hupdated hle hprincipal hyield).1
        hyield haccrued hcurrent (hremaining.symm.trans hposition)

/-- The storage of the treasury is sound in every reachable state. -/
theorem store_sound {trace : Ledger.Trace Address Store Call}
    (h : Ledger.Reachable (contract vaults) trace env) : env.store.Sound := by
  refine Ledger.store_invariant (I := Store.Sound) ⟨fun _ => rfl, ?_⟩ ?_ h
  · intro position hposition
    cases hposition
  · intro env result call hexec htyped hs
    obtain ⟨hadmin, heffect⟩ := exec_effect hs htyped hexec
    exact ⟨fun hnone => absurd hnone hadmin, fun position => heffect.sound hs⟩

/-! ### Histories -/

abbrev Trace := Ledger.Trace Address Store Call

abbrev Step := Run.Step Env (Ledger.Event Address Call)

/-- The yield that the step booked. -/
def bookedYield (vaults : Vaults) (e : Step) : Int :=
  if (Ledger.called (contract vaults) e).any Call.booksYield then
    match e.before.store.yieldPosition with
    | some position => (calculateYieldAmount position e.action.timestamp).toOption.getD 0
    | none => 0
  else 0

/-- The yield that has accrued since the treasury was deployed. -/
def yieldAccrued (vaults : Vaults) : Trace → Int
  | [] => 0
  | e :: older => yieldAccrued vaults older + bookedYield vaults e

/-- The position adds up, no divestment took more than there was, and no more yield was paid
out than had accrued. -/
structure Accounted (vaults : Vaults) (trace : Trace) (env : Env) : Prop where
  position : ∀ position, env.store.yieldPosition = some position →
    0 ≤ position.investedAmount ∧ 0 ≤ position.accruedYield ∧
      position.currentValue = position.investedAmount + position.accruedYield
  divested : ∀ e ∈ trace, ∀ amount,
    Ledger.called (contract vaults) e = some (.divestFunds amount) →
      ∃ d, divestment (e.before.enter e.action) amount = .ok d ∧
        d.principal ≤ d.position.investedAmount ∧ d.yield ≤ d.position.accruedYield
  earned : ∀ metrics, env.store.metrics = some metrics →
    metrics.totalYieldEarned ≤ yieldAccrued vaults trace

/-- The position can give `amount` at the time `now`: the yield's share of it, rounded up to
a whole basis point, has accrued. -/
def YieldPosition.Covers (position : YieldPosition) (now : Nat) (amount : Option Int) : Prop :=
  let accrued := position.accruedYield + (calculateYieldAmount position now).toOption.getD 0
  let value := position.investedAmount + accrued
  amount.getD value * (10000 - position.investedAmount * 10000 / value) ≤ accrued * 10000

instance (position : YieldPosition) (now : Nat) (amount : Option Int) :
    Decidable (position.Covers now amount) := inferInstanceAs (Decidable (_ ≤ _))

/-- A divestment that goes through takes an amount that the position covers. -/
def DivestmentCovered (vaults : Vaults) (e : Step) : Prop :=
  match Ledger.called (contract vaults) e, e.before.store.yieldPosition with
  | some (.divestFunds amount), some position => position.Covers e.action.timestamp amount
  | _, _ => True

instance (vaults : Vaults) (e : Step) : Decidable (DivestmentCovered vaults e) := by
  unfold DivestmentCovered
  split
  · exact inferInstance
  · exact inferInstanceAs (Decidable True)

/-- The accrued yield of the position, if any. -/
def Store.accrued (store : Store) : Int :=
  match store.yieldPosition with
  | some position => position.accruedYield
  | none => 0

section Steps

variable {e : Step} {older trace : Trace} {call : Call}

theorem bookedYield_of_idle (h : Ledger.called (contract vaults) e = none) :
    bookedYield vaults e = 0 := by
  simp [bookedYield, h]

theorem bookedYield_of_called (hcalled : Ledger.called (contract vaults) e = some call)
    (hbooks : call.booksYield = false) : bookedYield vaults e = 0 := by
  simp [bookedYield, hcalled, hbooks]

theorem bookedYield_of_update (hcalled : Ledger.called (contract vaults) e = some call)
    (hbooks : call.booksYield = true) (hbefore : e.before.store.yieldPosition = some position)
    {newYield : Int} (hyield : calculateYieldAmount position e.action.timestamp = .ok newYield) :
    bookedYield vaults e = newYield := by
  simp [bookedYield, hcalled, hbooks, hbefore, hyield, Except.toOption]

theorem covered_of_called (hcalled : Ledger.called (contract vaults) e = some call)
    (hbooks : call.booksYield = false ∨ call = .harvestYield) : DivestmentCovered vaults e := by
  unfold DivestmentCovered
  rw [hcalled]
  rcases hbooks with hbooks | rfl
  · cases call with
    | divestFunds => cases hbooks
    | _ => trivial
  · trivial

/-- The condition on a divestment, by its updated position. -/
theorem covered_iff {amount : Option Int} {d : Divestment}
    (hcalled : Ledger.called (contract vaults) e = some (.divestFunds amount))
    (hbefore : e.before.store.yieldPosition = some position) (h : position.Sound)
    (hd : divestment (e.before.enter e.action) amount = .ok d) :
    DivestmentCovered vaults e ↔ d.yield ≤ d.position.accruedYield := by
  have hentered : (e.before.enter e.action).store.yieldPosition = some position := hbefore
  obtain ⟨hupdate, hamount, -, hle, hprincipal, hyield⟩ := divestment_eq_ok hentered h hd
  obtain ⟨newYield, hnew, -, -, hposition⟩ := updateYieldPosition_eq_ok.mp hupdate
  have hnew : calculateYieldAmount position e.action.timestamp = .ok newYield := hnew
  rw [(Divestment.split (h.update hupdate).1 hle hprincipal hyield).2]
  unfold DivestmentCovered YieldPosition.Covers YieldPosition.investmentRatio
  rw [hcalled, hbefore]
  have hgetD : amount.getD d.position.currentValue = d.amount := by
    cases amount with
    | none => exact pure_eq_ok.mp hamount
    | some amount =>
        simp only [divestAmountOf, bind_eq_ok, ensure_eq_ok, pure_eq_ok] at hamount
        obtain ⟨-, -, -, -, hamount⟩ := hamount
        exact hamount
  rw [← hgetD, ← hposition]
  simp only [hnew, Except.toOption, Option.getD_some]

theorem effect_of_next (h : Ledger.Reachable (contract vaults) older e.before)
    (hn : Ledger.Next (contract vaults) e.before e.action e.after) :
    (Ledger.called (contract vaults) e = none ∧ e.after.store = e.before.store) ∨
      ∃ call, Ledger.called (contract vaults) e = some call ∧
        Effect (e.before.enter e.action) call e.after.store := by
  have hs : (e.before.enter e.action).store.Sound := (store_sound h : e.before.store.Sound)
  exact Ledger.effect_of_next hn fun htyped hexec => (exec_effect hs htyped hexec).2

theorem Accounted.accrued_nonneg (h : Accounted vaults trace env) : 0 ≤ env.store.accrued := by
  unfold Store.accrued
  cases hposition : env.store.yieldPosition with
  | none => exact le_rfl
  | some position => exact (h.position position hposition).2.1

/-- The books stay right if what was paid out and what is held have accrued. -/
theorem Accounted.cons (h : Accounted vaults older e.before) (hs : e.after.store.Sound)
    (haccrued : 0 ≤ e.after.store.accrued)
    (hheld : e.after.store.earned + e.after.store.accrued ≤ yieldAccrued vaults (e :: older))
    (hdivested : ∀ amount, Ledger.called (contract vaults) e = some (.divestFunds amount) →
      ∃ d, divestment (e.before.enter e.action) amount = .ok d ∧
        d.principal ≤ d.position.investedAmount ∧ d.yield ≤ d.position.accruedYield) :
    Accounted vaults (e :: older) e.after where
  position position hposition := by
    have hsound := hs.position position hposition
    simp only [Store.accrued, hposition] at haccrued
    exact ⟨hsound.invested_nonneg, haccrued, hsound.current_eq⟩
  divested e' he' := by
    rcases List.mem_cons.mp he' with rfl | he'
    · exact hdivested
    · exact h.divested e' he'
  earned metrics hmetrics := by
    simp only [Store.earned, hmetrics] at hheld
    omega

/-- A step that pays out no yield. -/
theorem accounted_of_unpaid (hI : Accounted vaults older e.before) (hs : e.after.store.Sound)
    (hheld : e.before.store.earned + e.before.store.accrued ≤ yieldAccrued vaults older)
    (hcalled : ∀ amount, Ledger.called (contract vaults) e ≠ some (.divestFunds amount))
    (hcovered : DivestmentCovered vaults e)
    (hearned : e.after.store.earned = e.before.store.earned)
    (haccrued : e.after.store.accrued = e.before.store.accrued + bookedYield vaults e)
    (hbooked : 0 ≤ bookedYield vaults e) :
    (DivestmentCovered vaults e →
      e.after.store.earned + e.after.store.accrued ≤ yieldAccrued vaults (e :: older)) ∧
    (Accounted vaults (e :: older) e.after ↔ DivestmentCovered vaults e) := by
  have hkept : e.after.store.earned + e.after.store.accrued ≤ yieldAccrued vaults (e :: older) := by
    unfold yieldAccrued
    omega
  have hnonneg := hI.accrued_nonneg
  refine ⟨fun _ => hkept, fun _ => hcovered, fun _ => hI.cons hs (by omega) hkept ?_⟩
  intro amount hdivest
  exact absurd hdivest (hcalled amount)

/-- A divestment. -/
theorem accounted_of_divested {amount : Option Int} {d : Divestment}
    (hI : Accounted vaults older e.before) (hs : e.after.store.Sound)
    (hheld : e.before.store.earned + e.before.store.accrued ≤ yieldAccrued vaults older)
    (hcalled : Ledger.called (contract vaults) e = some (.divestFunds amount))
    (hbefore : e.before.store.yieldPosition = some position) (hsound : position.Sound)
    (hd : divestment (e.before.enter e.action) amount = .ok d)
    (hposition : e.after.store.yieldPosition = d.remaining)
    (hearned : e.after.store.earned = e.before.store.earned + d.yield) :
    (DivestmentCovered vaults e →
      e.after.store.earned + e.after.store.accrued ≤ yieldAccrued vaults (e :: older)) ∧
    (Accounted vaults (e :: older) e.after ↔ DivestmentCovered vaults e) := by
  have hentered : (e.before.enter e.action).store.yieldPosition = some position := hbefore
  obtain ⟨hupdate, -, -, hle, hprincipal, hyield⟩ := divestment_eq_ok hentered hsound hd
  obtain ⟨hupdated, -, newYield, hnew, haccrued⟩ := hsound.update hupdate
  have hbooked : bookedYield vaults e = newYield := bookedYield_of_update hcalled rfl hbefore hnew
  have hprincipal := (Divestment.split hupdated hle hprincipal hyield).1
  have hkept (hle : d.yield ≤ d.position.accruedYield) : 0 ≤ e.after.store.accrued ∧
      e.after.store.earned + e.after.store.accrued ≤ yieldAccrued vaults (e :: older) := by
    have hbooks : yieldAccrued vaults (e :: older) =
        yieldAccrued vaults older + newYield := congrArg _ hbooked
    simp only [Store.accrued, hbefore] at hheld
    unfold Store.accrued
    rw [hposition, hearned, hbooks]
    unfold Divestment.remaining
    split_ifs
    · exact ⟨le_rfl, by dsimp only; omega⟩
    · exact ⟨by dsimp only; omega, by dsimp only; omega⟩
  rw [covered_iff hcalled hbefore hsound hd]
  refine ⟨fun hle => (hkept hle).2, fun h => ?_, fun hle => ?_⟩
  · obtain ⟨d', hd', -, hle⟩ := h.divested e List.mem_cons_self amount hcalled
    cases hd.symm.trans hd'
    exact hle
  · refine hI.cons hs (hkept hle).1 (hkept hle).2 fun amount' hcalled' => ?_
    cases hcalled.symm.trans hcalled'
    exact ⟨d, hd, hprincipal, hle⟩

/-- A step from a state in which the books are right. -/
theorem accounted_step (h : Ledger.Reachable (contract vaults) older e.before)
    (hn : Ledger.Next (contract vaults) e.before e.action e.after)
    (hheld : e.before.store.earned + e.before.store.accrued ≤ yieldAccrued vaults older)
    (hI : Accounted vaults older e.before) :
    (DivestmentCovered vaults e →
      e.after.store.earned + e.after.store.accrued ≤ yieldAccrued vaults (e :: older)) ∧
    (Accounted vaults (e :: older) e.after ↔ DivestmentCovered vaults e) := by
  have hsound : e.before.store.Sound := store_sound h
  have hs : e.after.store.Sound := store_sound (.step h hn)
  rcases effect_of_next h hn with ⟨hcalled, hstore⟩ | ⟨call, hcalled, heffect⟩
  · have hbooked := bookedYield_of_idle hcalled
    refine accounted_of_unpaid hI hs hheld (fun amount => ?_) ?_ ?_ ?_ hbooked.ge
    · simp [hcalled]
    · simp [DivestmentCovered, hcalled]
    · rw [hstore]
    · rw [hstore, hbooked, Int.add_zero]
  · have hother (hbooks : call.booksYield = false ∨ call = .harvestYield) (amount : Option Int) :
        Ledger.called (contract vaults) e ≠ some (.divestFunds amount) := by
      rw [hcalled]
      rintro ⟨⟩
      rcases hbooks with hbooks | hbooks <;> cases hbooks
    cases heffect with
    | kept hcall hposition hearned =>
        have hbooked := bookedYield_of_called hcalled hcall
        refine accounted_of_unpaid hI hs hheld (hother (.inl hcall))
          (covered_of_called hcalled (.inl hcall)) hearned ?_ hbooked.ge
        rw [hbooked, Int.add_zero, Store.accrued, hposition]
        rfl
    | opened hcall hnone position hposition _ haccrued hearned =>
        have hbooked := bookedYield_of_called hcalled hcall
        have hnone : e.before.store.yieldPosition = none := hnone
        refine accounted_of_unpaid hI hs hheld (hother (.inl hcall))
          (covered_of_called hcalled (.inl hcall)) hearned ?_ hbooked.ge
        simp [Store.accrued, hbooked, hposition, hnone, haccrued]
    | harvested hcall position updated hbefore hupdate hposition hearned =>
        have hbefore : e.before.store.yieldPosition = some position := hbefore
        have hposition_sound := hsound.position position hbefore
        obtain ⟨-, -, newYield, hnew, haccrued⟩ := hposition_sound.update hupdate
        have hbooked : bookedYield vaults e = newYield :=
          bookedYield_of_update hcalled (by rw [hcall]; rfl) hbefore hnew
        refine accounted_of_unpaid hI hs hheld (hother (.inr hcall))
          (covered_of_called hcalled (.inr hcall)) hearned ?_ ?_
        · simp only [Store.accrued, hposition, hbefore, haccrued, hbooked]
        · exact hbooked ▸ calculateYieldAmount_nonneg hposition_sound hnew
    | divested amount hcall position hbefore d hd _ _ hposition hearned =>
        exact accounted_of_divested hI hs hheld (hcall ▸ hcalled) hbefore
          (hsound.position position hbefore) hd hposition hearned

end Steps

/-- **Position accounting.** In every run, the books of the treasury are right after every
step exactly if every divestment takes an amount that the position covers. -/
theorem position_accounting (vaults : Vaults) {trace : Trace} {env : Env}
    (h : Ledger.Reachable (contract vaults) trace env) :
    Run.Each (fun e older => Accounted vaults (e :: older) e.after) trace ↔
      Run.Each (fun e _ => DivestmentCovered vaults e) trace := by
  refine Run.each_iff_of_invariant (I := Accounted vaults)
    (J := fun older env => env.store.earned + env.store.accrued ≤ yieldAccrued vaults older)
    ?_ ?_ h
  · rintro env ⟨self, tokens, rfl⟩
    refine ⟨le_rfl, fun position hposition => ?_, fun e he => ?_, fun metrics hmetrics => ?_⟩
    · cases hposition
    · cases he
    · cases hmetrics
  · intro e older hrun hn hheld hI
    exact accounted_step hrun hn hheld hI

namespace Demo

def self : Address := ⟨[1]⟩

def admin : Address := ⟨[2]⟩

def token : Address := ⟨[3]⟩

/-- No vault answers. -/
def noVaults : Vaults where
  deposit := fun _ _ _ => none
  getTotalValue := fun _ _ => none

def treasury : Env := .deployed (contract noVaults) self { balance := fun _ _ => 0, log := [] }

theorem treasury_deployed : Ledger.Deployed (contract noVaults) treasury := ⟨_, _, rfl⟩

def call (timestamp : Nat) (call : Call) : Ledger.Event Address Call :=
  ⟨timestamp, 0, .invoke [admin] call⟩

/-- A treasury that has `10 ^ 7` tokens and invests `10 ^ 6` of them at 8 percent. -/
def invested : List (Ledger.Event Address Call) :=
  [call 0 (.initializeTreasury admin token
      { admin, minReserveRatio := 0, maxInvestmentRatio := 10000, autoInvest := false
        yieldStrategy := yieldStrategyStellarAqua, emergencyWithdrawalEnabled := false
        maxSlippage := 0, externalVault := none }),
    ⟨0, 0, .tokenMint token self (10 ^ 7)⟩,
    call 100 (.investIdleFunds (10 ^ 6) none)]

end Demo

/-- Half of the position is divested at once, and the rest when its yield is a fifth of its
value. -/
theorem position_accounting_of_covered :
    let run := Ledger.history (contract Demo.noVaults) Demo.treasury (Demo.invested ++
      [Demo.call 100 (.divestFunds (some 500000)), Demo.call 98550100 .harvestYield,
        Demo.call 98550100 (.divestFunds none)])
    Run.Each (fun e older => Accounted Demo.noVaults (e :: older) e.after) run.1 := by
  intro run
  have hrun : Ledger.Reachable (contract Demo.noVaults) run.1 run.2 :=
    Ledger.history_reachable _ Demo.treasury_deployed (by decide)
  exact (position_accounting Demo.noVaults hrun).mpr (by decide)

/-- One unit of yield has accrued, and half of the position is divested: `50` units count as
yield. -/
theorem position_accounting_fails :
    ¬∀ trace env, Ledger.Reachable (contract Demo.noVaults) trace env →
      Accounted Demo.noVaults trace env := by
  intro h
  let run := Ledger.history (contract Demo.noVaults) Demo.treasury
    (Demo.invested ++ [Demo.call 495 (.divestFunds (some 500000))])
  have hrun : Ledger.Reachable (contract Demo.noVaults) run.1 run.2 :=
    Ledger.history_reachable _ Demo.treasury_deployed (by decide)
  have hpaid := (h _ _ hrun).earned _ rfl
  exact absurd hpaid (by decide)

end YieldTrust.YieldTreasury
