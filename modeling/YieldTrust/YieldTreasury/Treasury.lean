import YieldTrust.GrantStream.Contract
import YieldTrust.Lib.Ledger

/-!
# YieldTrust.YieldTreasury.Treasury

The yield treasury (`yield_treasury.rs`): its records, its entry points in the order of the
source, and the contract they make up.

The external vault is a contract that is not part of the repository. `Vaults` stands for
what its two entry points return.
-/

namespace YieldTrust.YieldTreasury

open Fallible
open GrantStream (Address)

/-! ### Data -/

def yieldStrategyStellarAqua : Nat := 1
def yieldStrategyStellarUsdc : Nat := 2
def yieldStrategyLiquidityPool : Nat := 3
def yieldStrategyExternalVault : Nat := 4

structure YieldPosition where
  strategy : Nat
  investedAmount : Int
  currentValue : Int
  accruedYield : Int
  investedAt : Nat
  lastYieldUpdate : Nat
  /-- Annual percentage yield in basis points. -/
  apy : Int
  deriving DecidableEq

structure TreasuryConfig where
  admin : Address
  minReserveRatio : Int
  maxInvestmentRatio : Int
  autoInvest : Bool
  yieldStrategy : Nat
  emergencyWithdrawalEnabled : Bool
  maxSlippage : Nat
  externalVault : Option Address

structure YieldMetrics where
  totalInvested : Int
  totalYieldEarned : Int
  currentApy : Int
  lastYieldCalculation : Nat
  investmentCount : Nat

inductive YieldError where
  | notInitialized
  | alreadyInitialized
  | notAuthorized
  | insufficientReserve
  | insufficientInvestment
  | invalidAmount
  | invalidStrategy
  | investmentActive
  | investmentInactive
  | mathOverflow
  | yieldCalculationFailed
  | emergencyMode
  | tokenError
  | invalidState
  deriving DecidableEq

/-- What the treasury stores, by its storage keys. -/
structure Store where
  admin : Option Address := none
  yieldToken : Option Address := none
  config : Option TreasuryConfig := none
  metrics : Option YieldMetrics := none
  reserveBalance : Option Int := none
  yieldPosition : Option YieldPosition := none

abbrev Env := Ledger.Env Address Store

abbrev Res (α : Type) := Fallible YieldError α

/-- External vaults: what `deposit` returns and does to the tokens, and `get_total_value`.
`none` is a call that traps. -/
structure Vaults where
  deposit : Address → Env → Int → Option (Int × TokenLedger Address)
  getTotalValue : Address → Env → Option Int

/-! ### Helpers -/

def writeConfig (env : Env) (config : TreasuryConfig) : Env :=
  { env with store := { env.store with config := some config } }

def setYieldPosition (env : Env) (position : Option YieldPosition) : Env :=
  { env with store := { env.store with yieldPosition := position } }

def writeMetrics (env : Env) (metrics : YieldMetrics) : Env :=
  { env with store := { env.store with metrics := some metrics } }

def writeReserveBalance (env : Env) (balance : Int) : Env :=
  { env with store := { env.store with reserveBalance := some balance } }

def readAdmin (env : Env) : Res Address := okOr env.store.admin .notInitialized

def requireAdminAuth (env : Env) : Res Unit := do
  let admin ← readAdmin env
  env.requireAuth admin

def readConfig (env : Env) : Res TreasuryConfig := okOr env.store.config .notInitialized

def readYieldPosition (env : Env) : Res YieldPosition :=
  okOr env.store.yieldPosition .investmentInactive

def readMetrics (env : Env) : Res YieldMetrics := okOr env.store.metrics .notInitialized

def readReserveBalance (env : Env) : Res Int := okOr env.store.reserveBalance .notInitialized

def readYieldToken (env : Env) : Res Address := okOr env.store.yieldToken .notInitialized

def balanceOf (env : Env) (token : Address) : Int := env.tokens.balance token env.self

def secondsInYear : Int := 365 * 24 * 60 * 60

def calculateYieldAmount (position : YieldPosition) (now : Nat) : Res Int :=
  if now ≤ position.lastYieldUpdate then
    pure 0
  else do
    let timeElapsed : Int := (now - position.lastYieldUpdate : Nat)
    let product ← okOr (I128.checkedMul position.investedAmount position.apy) .mathOverflow
    let product ← okOr (I128.checkedMul product timeElapsed) .mathOverflow
    let quotient ← okOr (I128.checkedDiv product 10000) .mathOverflow
    okOr (I128.checkedDiv quotient secondsInYear) .mathOverflow

def updateYieldPosition (env : Env) (position : YieldPosition) : Res YieldPosition := do
  let newYield ← calculateYieldAmount position env.timestamp
  let accruedYield ← okOr (I128.checkedAdd position.accruedYield newYield) .mathOverflow
  let currentValue ← okOr (I128.checkedAdd position.investedAmount accruedYield) .mathOverflow
  return { position with accruedYield, currentValue, lastYieldUpdate := env.timestamp }

def previewYieldPositionValue (position : YieldPosition) (now : Nat) : Res Int :=
  if now ≤ position.lastYieldUpdate then
    pure position.currentValue
  else do
    let yieldSinceUpdate ← calculateYieldAmount position now
    okOr (I128.checkedAdd position.currentValue yieldSinceUpdate) .mathOverflow

def ensureReserveRatio (env : Env) (totalBalance investmentAmount : Int) : Res Unit := do
  let config ← readConfig env
  let product ← okOr (I128.checkedMul totalBalance config.minReserveRatio) .mathOverflow
  let reserveNeeded ← okOr (I128.checkedDiv product 10000) .mathOverflow
  let remainingReserve ←
    okOr (I128.checkedSub totalBalance investmentAmount) .insufficientReserve
  ensure (reserveNeeded ≤ remainingReserve) .insufficientReserve

def getStrategyApy (strategy : Nat) : Res Int :=
  if strategy = yieldStrategyStellarAqua then pure 800
  else if strategy = yieldStrategyStellarUsdc then pure 500
  else if strategy = yieldStrategyLiquidityPool then pure 1200
  else fail .invalidStrategy

/-! ### Entry points -/

def previewPoolHealth (env : Env) (totalLiabilities : Int) : Res Int := do
  let reserve ← readReserveBalance env
  let totalAssets ← match env.store.yieldPosition with
    | some position => do
      let currentValue ← previewYieldPositionValue position env.timestamp
      okOr (I128.checkedAdd reserve currentValue) .mathOverflow
    | none => pure reserve
  if totalLiabilities ≤ 0 then
    return 10000
  let product ← okOr (I128.checkedMul totalAssets 9000) .mathOverflow
  let riskAdjustedAssets := product.tdiv 10000
  let scaled ← okOr (I128.checkedMul riskAdjustedAssets 10000) .mathOverflow
  okOr (I128.checkedDiv scaled totalLiabilities) .mathOverflow

/-- `initialize` -/
def initializeTreasury (env : Env) (admin yieldTokenAddress : Address)
    (initialConfig : TreasuryConfig) : Res Env := do
  ensure (env.store.admin = none) .alreadyInitialized
  env.requireAuth admin
  let metrics : YieldMetrics :=
    { totalInvested := 0, totalYieldEarned := 0, currentApy := 0
      lastYieldCalculation := env.timestamp, investmentCount := 0 }
  return { env with
    store := { env.store with
      admin := some admin
      yieldToken := some yieldTokenAddress
      config := some { initialConfig with admin }
      metrics := some metrics
      reserveBalance := some 0 } }

/-- Hand `amount` over to the strategy. -/
def fundStrategy (vaults : Vaults) (env : Env) (config : TreasuryConfig) (yieldToken : Address)
    (strategy : Nat) (amount : Int) : Res Env :=
  if strategy = yieldStrategyExternalVault then do
    let vaultAddr ← okOr config.externalVault .invalidStrategy
    let (sharesMinted, tokens) ← orTrap (vaults.deposit vaultAddr env amount)
    ensure (0 < sharesMinted) .tokenError
    return { env with tokens }
  else
    env.transfer yieldToken env.self env.self amount

def investIdleFunds (vaults : Vaults) (env : Env) (amount : Int) (strategy : Option Nat) :
    Res Env := do
  requireAdminAuth env
  ensure (0 < amount) .invalidAmount
  let config ← readConfig env
  let yieldToken ← readYieldToken env
  ensure (env.store.yieldPosition = none) .investmentActive
  let contractBalance := balanceOf env yieldToken
  ensureReserveRatio env contractBalance amount
  let investmentStrategy := strategy.getD config.yieldStrategy
  ensure (investmentStrategy ∈ [yieldStrategyStellarAqua, yieldStrategyStellarUsdc,
    yieldStrategyLiquidityPool, yieldStrategyExternalVault]) .invalidStrategy
  let env ← fundStrategy vaults env config yieldToken investmentStrategy amount
  let now := env.timestamp
  -- an external vault has no rate, so investing in one always fails here
  let apy ← getStrategyApy investmentStrategy
  let env := setYieldPosition env (some
    { strategy := investmentStrategy, investedAmount := amount, currentValue := amount
      accruedYield := 0, investedAt := now, lastYieldUpdate := now, apy })
  let newReserve ← okOr (I128.checkedSub contractBalance amount) .insufficientReserve
  let env := writeReserveBalance env newReserve
  let metrics ← readMetrics env
  let totalInvested ← okOr (I128.checkedAdd metrics.totalInvested amount) .mathOverflow
  let investmentCount ← orTrap (U32.checkedAdd metrics.investmentCount 1)
  return writeMetrics env
    { metrics with
      totalInvested, investmentCount, currentApy := apy, lastYieldCalculation := now }

/-- The amount to divest; without one, everything. -/
def divestAmountOf (position : YieldPosition) : Option Int → Res Int
  | some amount => do
    ensure (0 < amount) .invalidAmount
    ensure (amount ≤ position.currentValue) .insufficientInvestment
    return amount
  | none => pure position.currentValue

/-- The principal and the yield in `divestAmount`, by the share of the principal in the value
in basis points. -/
def divestSplit (position : YieldPosition) (divestAmount : Int) : Res (Int × Int) := do
  let investmentRatio ←
    if 0 < position.currentValue then do
      let product ← okOr (I128.checkedMul position.investedAmount 10000) .mathOverflow
      okOr (I128.checkedDiv product position.currentValue) .mathOverflow
    else
      pure 10000
  let product ← okOr (I128.checkedMul divestAmount investmentRatio) .mathOverflow
  let investmentReturn ← okOr (I128.checkedDiv product 10000) .mathOverflow
  let yieldReturn ← okOr (I128.checkedSub divestAmount investmentReturn) .mathOverflow
  return (investmentReturn, yieldReturn)

def divestFunds (env : Env) (amount : Option Int) : Res Env := do
  requireAdminAuth env
  let position ← readYieldPosition env
  let _ ← readYieldToken env
  let position ← updateYieldPosition env position
  let divestAmount ← divestAmountOf position amount
  let remainingValue ← okOr (I128.checkedSub position.currentValue divestAmount) .mathOverflow
  let (investmentReturn, yieldReturn) ← divestSplit position divestAmount
  let investedAmount ←
    okOr (I128.checkedSub position.investedAmount investmentReturn) .mathOverflow
  let accruedYield ← okOr (I128.checkedSub position.accruedYield yieldReturn) .mathOverflow
  let position := { position with investedAmount, accruedYield, currentValue := remainingValue }
  let env := setYieldPosition env (if remainingValue = 0 then none else some position)
  let currentReserve ← readReserveBalance env
  let newReserve ← okOr (I128.checkedAdd currentReserve divestAmount) .mathOverflow
  let env := writeReserveBalance env newReserve
  let metrics ← readMetrics env
  let totalYieldEarned ←
    okOr (I128.checkedAdd metrics.totalYieldEarned yieldReturn) .mathOverflow
  let currentApy := if remainingValue = 0 then 0 else metrics.currentApy
  return writeMetrics env
    { metrics with totalYieldEarned, currentApy, lastYieldCalculation := env.timestamp }

def getYieldPosition (env : Env) : Res YieldPosition := do
  let position ← readYieldPosition env
  updateYieldPosition env position

def updateConfig (env : Env) (newConfig : TreasuryConfig) : Res Env := do
  requireAdminAuth env
  return writeConfig env newConfig

def emergencyWithdraw (env : Env) (amount : Int) (recipient : Address) : Res Env := do
  requireAdminAuth env
  let config ← readConfig env
  ensure (config.emergencyWithdrawalEnabled = true) .emergencyMode
  ensure (0 < amount) .invalidAmount
  let yieldToken ← readYieldToken env
  ensure (amount ≤ balanceOf env yieldToken) .insufficientInvestment
  env.transfer yieldToken env.self recipient amount

def autoInvest (vaults : Vaults) (env : Env) : Res Env := do
  let config ← readConfig env
  ensure (config.autoInvest = true) .invalidState
  ensure (env.store.yieldPosition = none) .investmentActive
  let yieldToken ← readYieldToken env
  let contractBalance := balanceOf env yieldToken
  let reserveBalance ← readReserveBalance env
  let idleFunds ← okOr (I128.checkedSub contractBalance reserveBalance) .insufficientReserve
  let product ← okOr (I128.checkedMul contractBalance config.maxInvestmentRatio) .mathOverflow
  let maxInvestment ← okOr (I128.checkedDiv product 10000) .mathOverflow
  let investmentAmount := if maxInvestment < idleFunds then maxInvestment else idleFunds
  if 0 < investmentAmount then
    investIdleFunds vaults env investmentAmount (some config.yieldStrategy)
  else
    pure env

/-- The position after a harvest, and what was harvested. -/
def harvestPosition (vaults : Vaults) (env : Env) (config : TreasuryConfig)
    (position : YieldPosition) : Res (YieldPosition × Int) :=
  if position.strategy = yieldStrategyExternalVault then do
    let vaultAddr ← okOr config.externalVault .invalidStrategy
    let totalValue ← orTrap (vaults.getTotalValue vaultAddr env)
    let actualYield ←
      if position.currentValue < totalValue then
        orTrap (I128.checkedSub totalValue position.currentValue)
      else
        pure 0
    let accruedYield ← okOr (I128.checkedAdd position.accruedYield actualYield) .mathOverflow
    return ({ position with
      currentValue := totalValue, accruedYield, lastYieldUpdate := env.timestamp }, actualYield)
  else do
    let position ← updateYieldPosition env position
    let actualYield ← calculateYieldAmount position env.timestamp
    return (position, actualYield)

def harvestYield (vaults : Vaults) (env : Env) : Res (Env × Int) := do
  let position ← readYieldPosition env
  let config ← readConfig env
  let (position, actualYield) ← harvestPosition vaults env config position
  let env := setYieldPosition env (some position)
  let metrics ← readMetrics env
  let totalYieldEarned ←
    okOr (I128.checkedAdd metrics.totalYieldEarned actualYield) .mathOverflow
  let env := writeMetrics env
    { metrics with totalYieldEarned, lastYieldCalculation := env.timestamp }
  let _ ← readAdmin env
  return (env, actualYield)

def calculatePoolHealth (env : Env) (totalLiabilities : Int) : Res Int := do
  let reserve ← readReserveBalance env
  let totalAssets ← match env.store.yieldPosition with
    | some position => do
      let position ← updateYieldPosition env position
      okOr (I128.checkedAdd reserve position.currentValue) .mathOverflow
    | none => pure reserve
  if totalLiabilities ≤ 0 then
    return 10000
  let product ← okOr (I128.checkedMul totalAssets 9000) .mathOverflow
  let riskAdjustedAssets := product.tdiv 10000
  let scaled ← okOr (I128.checkedMul riskAdjustedAssets 10000) .mathOverflow
  let healthFactor ← okOr (I128.checkedDiv scaled totalLiabilities) .mathOverflow
  if healthFactor < 10000 then
    -- the admin is named in the warning
    let _ ← readAdmin env
    return healthFactor
  return healthFactor

/-- `get_health_factor` of the streaming contract, which keeps the treasury's storage. -/
def getHealthFactor (streams : GrantStream.Env) (env : Env) : GrantStream.Res Int := do
  let liabilities ← GrantStream.totalAllocatedFunds streams
  mapErr (fun _ => .mathOverflow) (previewPoolHealth env liabilities)

/-! ### The contract -/

/-- The entry points that can change the state, with their arguments. -/
inductive Call where
  | initializeTreasury (admin yieldTokenAddress : Address) (initialConfig : TreasuryConfig)
  | investIdleFunds (amount : Int) (strategy : Option Nat)
  | divestFunds (amount : Option Int)
  | updateConfig (newConfig : TreasuryConfig)
  | emergencyWithdraw (amount : Int) (recipient : Address)
  | autoInvest
  | harvestYield

/-- Perform a call; its return value is dropped. -/
def Call.exec (vaults : Vaults) (env : Env) : Call → Res Env
  | .initializeTreasury admin yieldTokenAddress initialConfig =>
      YieldTreasury.initializeTreasury env admin yieldTokenAddress initialConfig
  | .investIdleFunds amount strategy => YieldTreasury.investIdleFunds vaults env amount strategy
  | .divestFunds amount => YieldTreasury.divestFunds env amount
  | .updateConfig newConfig => YieldTreasury.updateConfig env newConfig
  | .emergencyWithdraw amount recipient => YieldTreasury.emergencyWithdraw env amount recipient
  | .autoInvest => YieldTreasury.autoInvest vaults env
  | .harvestYield => Prod.fst <$> YieldTreasury.harvestYield vaults env

/-- The `i128` values that a call brings into the contract. -/
def Call.i128Args : Call → List Int
  | .initializeTreasury _ _ config | .updateConfig config =>
      [config.minReserveRatio, config.maxInvestmentRatio]
  | .investIdleFunds amount _ => [amount]
  | .divestFunds amount => amount.toList
  | .emergencyWithdraw amount _ => [amount]
  | .autoInvest | .harvestYield => []

def contract (vaults : Vaults) : Ledger.Contract Address Store Call YieldError where
  initial := {}
  typed call := call.i128Args.all fun x => I128.InRange x
  exec := Call.exec vaults

end YieldTrust.YieldTreasury
