import YieldTrust.GrantStream.Types

/-!
# YieldTrust.GrantStream.CircuitBreakers

`circuit_breakers.rs`: the oracle price guard, the velocity limit on
withdrawals, the mass-dispute trigger and the storage-rent guard. A function
reads the environment and returns the state of the breakers that it leaves, so
that no breaker can touch anything else. The functions that no entry point of
the contract reaches (`check_oracle_heartbeat`, `set_manual_exchange_rate`) are
left out.
-/

namespace YieldTrust.GrantStream

open Fallible

/-! ### Constants -/

def priceDeviationBps : Int := 5000

def tvlDrainBps : Int := 2000

def velocityWindowSecs : Nat := 6 * 60 * 60

def disputeWindowSecs : Nat := 24 * 60 * 60

def disputeThresholdBps : Int := 1500

def monthlyRentXlm : Int := 10 ^ 7

def rentBufferMonths : Int := 3

def rentBufferXlm : Int := monthlyRentXlm * rentBufferMonths

/-- `amount` as basis points of `whole`, as the breakers compute it: saturating
on the way, and the largest `i128` where the division fails. -/
def bpsOf (amount whole : Int) : Int :=
  (I128.checkedDiv (I128.saturatingMul amount 10000) whole).getD I128.max

namespace CircuitBreakers

/-! ### Oracle price guard -/

def pingOracleHeartbeat (env : Env) : BreakerState :=
  { env.breakers with oraHeart := env.timestamp, oraFrozenDueToNoHeartbeat := false }

/-- Accept a price within 50% of the last one; trip the guard on any other. -/
def recordOraclePrice (env : Env) (newPrice : Int) : BreakerState × Bool :=
  let breakers := pingOracleHeartbeat env
  let last := breakers.lastPric
  let diff := if newPrice > last then newPrice - last else last - newPrice
  if last > 0 ∧ bpsOf diff last ≥ priceDeviationBps then
    ({ breakers with oraFrozen := true }, false)
  else
    ({ breakers with lastPric := newPrice, oraFrozen := false }, true)

def confirmOraclePrice (env : Env) (caller : Address) (confirmedPrice : Int) :
    Res BreakerState := do
  let sanityOracle ← okOr env.breakers.sanityOracle .notSanityOracle
  ensure (caller = sanityOracle) .notSanityOracle
  env.requireAuth caller
  pure { env.breakers with lastPric := confirmedPrice, oracleFrozen := false }

def isOracleFrozen (env : Env) : Bool :=
  env.breakers.oraFrozen || env.breakers.oraFrozenDueToNoHeartbeat

def setSanityOracle (env : Env) (sanityOracle : Address) : BreakerState :=
  { env.breakers with sanityOra := some sanityOracle }

/-! ### Velocity limit -/

def updateTvlSnapshot (env : Env) (totalLiquidity : Int) : BreakerState :=
  { env.breakers with tvlSnap := totalLiquidity }

def isSoftPaused (env : Env) : Bool := env.breakers.softPa

/-- Add a withdrawal to the window and engage the soft pause at 20% of the
liquidity. The flag tells whether the withdrawal stayed within the limit. -/
def recordWithdrawalVelocity (env : Env) (amount : Int) : Res (BreakerState × Bool) := do
  ensure (isSoftPaused env = false) .softPaused
  -- `assert!(amount > 0)`
  require (amount > 0)
  let now := env.timestamp
  let windowStart := env.breakers.velWinSt.getD now
  let expired := decide (now - windowStart ≥ velocityWindowSecs)
  let velWinSt := if expired then some now else env.breakers.velWinSt
  let accumulator := if expired then 0 else env.breakers.velAccum
  let velAccum := I128.saturatingAdd accumulator amount
  let tvl := env.breakers.tvlSnap
  let breached := decide (tvl > 0 ∧ bpsOf velAccum tvl ≥ tvlDrainBps)
  pure ({ env.breakers with velWinSt, velAccum, softPa := breached }, !breached)

def resumeAfterVelocityCheck (env : Env) (admin : Address) : Res BreakerState := do
  env.requireAuth admin
  pure { env.breakers with
    softPa := false
    velWinSt := some env.timestamp
    velAccum := 0 }

/-! ### Mass-dispute trigger -/

/-- Count a dispute and halt grant creation at 15% of the active grants. The
flag tells whether the count stayed below the threshold. -/
def recordDispute (env : Env) (activeGrantsCount : Nat) : BreakerState × Bool :=
  let now := env.timestamp
  let windowStart := env.breakers.dispWin.getD now
  let expired := decide (now - windowStart ≥ disputeWindowSecs)
  let dispWin := if expired then some now else env.breakers.dispWin
  let accumulator := if expired then 0 else env.breakers.dispAcc
  -- the snapshot is taken at the first dispute of a window
  let actGntSn := if accumulator = 0 then some activeGrantsCount else env.breakers.actGntSn
  -- `saturating_add` on a `u32`
  let dispAcc := min (accumulator + 1) (2 ^ 32 - 1)
  let snapshotGrants := actGntSn.getD activeGrantsCount
  let breached := decide
    (snapshotGrants > 0 ∧ bpsOf (dispAcc : Int) (snapshotGrants : Int) ≥ disputeThresholdBps)
  let gntHalt := if breached then true else env.breakers.gntHalt
  ({ env.breakers with dispWin, dispAcc, actGntSn, gntHalt }, !breached)

def isGrantInitializationHalted (env : Env) : Bool := env.breakers.gntHalt

def resumeGrantInitialization (env : Env) (admin : Address) : Res BreakerState := do
  env.requireAuth admin
  pure { env.breakers with
    gntHalt := false
    dispWin := some env.timestamp
    dispAcc := 0
    actGntSn := some 0 }

/-! ### Storage rent -/

def getCurrentXlmBalance (env : Env) : Int :=
  match env.nativeToken with
  | some nativeToken => env.balanceOf nativeToken env.self
  | none => 0

def isRentPreservationMode (env : Env) : Bool := env.breakers.rentPreservationMode

def checkRentBalance (env : Env) : BreakerState × Bool :=
  let belowThreshold := decide (getCurrentXlmBalance env < rentBufferXlm)
  ({ env.breakers with rentPreservationMode := belowThreshold }, belowThreshold)

def isFunctionAllowed (env : Env) (essential : Bool) : Bool :=
  essential || !isRentPreservationMode env

def disableRentPreservationMode (env : Env) (admin : Address) : Res BreakerState := do
  env.requireAuth admin
  pure { env.breakers with rentPreservationMode := false }

end CircuitBreakers

end YieldTrust.GrantStream
