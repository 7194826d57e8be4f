import YieldTrust.GrantStream.Types

/-!
# YieldTrust.GrantStream.Settlement

The accrual engine of `lib.rs`: `calculate_warmup_multiplier`,
`apply_accrued_split`, `calculate_accrued`, `settle_grant` and
`calculate_unearned_balance`, as the source computes them. They work on a grant
record alone; `YieldTrust.GrantStream.SettlementSpec` says what they do.
-/

namespace YieldTrust.GrantStream

open Fallible

/-! ### Constants of `lib.rs` -/

def scalingFactor : Int := 10000000

def sep38StalenessSeconds : Nat := 5 * 60

def zkCommitmentModulus : Int := 170141183460469231731687303715884105727

/-- The claimable balance below which nothing can be withdrawn. -/
def minWithdrawal : Int := 10000000

def rateIncreaseTimelockSecs : Nat := 48 * 60 * 60

def pruneDelaySeconds : Nat := 180 * 24 * 60 * 60

def milestoneSubmissionDepositXlm : Int := 50000000

/-! ### Accrual -/

/-- The legal document must be signed and is not: nothing streams. -/
def Grant.gateClosed (grant : Grant) : Bool :=
  grant.requiresLegalSignature && !grant.isLegalSigned

/-- The share of the flow rate that streams at `now`, in basis points. -/
def calculateWarmupMultiplier (grant : Grant) (now : Nat) : Res Int :=
  if grant.warmupDuration = 0 then pure 10000
  else do
    -- a plain `u64` addition: it traps on overflow
    let warmupEnd ← orTrap (U64.checkedAdd grant.startTime grant.warmupDuration)
    if now ≥ warmupEnd then pure 10000
    else if now ≤ grant.startTime then pure 2500
    else
      let elapsedWarmup := now - grant.startTime
      let progress := ((elapsedWarmup : Int) * 10000).tdiv (grant.warmupDuration : Int)
      pure (2500 + (7500 * progress).tdiv 10000)

/-- Split `accrued` between the grantee (95%) and the validator (5%), if there is one. -/
def applyAccruedSplit (grant : Grant) (accrued : Int) : Res Grant :=
  if grant.validator.isSome ∧ accrued > 0 then do
    let scaled ← okOr (I128.checkedMul accrued 500) .mathOverflow
    let validatorShare ← okOr (I128.checkedDiv scaled 10000) .mathOverflow
    let granteeShare ← okOr (I128.checkedSub accrued validatorShare) .mathOverflow
    let claimable ← okOr (I128.checkedAdd grant.claimable granteeShare) .mathOverflow
    let validatorClaimable ←
      okOr (I128.checkedAdd grant.validatorClaimable validatorShare) .mathOverflow
    pure { grant with claimable, validatorClaimable }
  else do
    let claimable ← okOr (I128.checkedAdd grant.claimable accrued) .mathOverflow
    pure { grant with claimable }

/-- What the grant accrues over `elapsed` seconds that end at `now`. -/
def calculateAccrued (grant : Grant) (elapsed : Nat) (now : Nat) : Res Int := do
  let baseAccrued ← okOr (I128.checkedMul grant.flowRate (elapsed : Int)) .mathOverflow
  let multiplier ← calculateWarmupMultiplier grant now
  let scaled ← okOr (I128.checkedMul baseAccrued multiplier) .mathOverflow
  okOr (I128.checkedDiv scaled 10000) .mathOverflow

/-- A rate increase was proposed and its timelock has expired at `now`. -/
def Grant.pendingRateDue (grant : Grant) (now : Nat) : Bool :=
  grant.pendingRate > grant.flowRate && grant.effectiveTimestamp ≠ 0 &&
    now ≥ grant.effectiveTimestamp

/-- The accrual of `settle_grant` for an active grant: in one piece, or in two
when a pending rate took effect since the last settlement. -/
def accrueActive (grant : Grant) (elapsed : Nat) (now : Nat) : Res Grant :=
  if grant.pendingRateDue now then do
    let switchTs := grant.effectiveTimestamp
    -- a plain `u64` subtraction: it traps if the switch lies before the last settlement
    let preElapsed ← orTrap (U64.checkedSub switchTs grant.lastUpdateTs)
    let preAccrued ← calculateAccrued grant preElapsed switchTs
    let grant ← applyAccruedSplit grant preAccrued
    let grant := { grant with
      flowRate := grant.pendingRate
      rateUpdatedAt := switchTs
      pendingRate := 0
      effectiveTimestamp := 0
      lastUpdateTs := switchTs }
    let postElapsed ← orTrap (U64.checkedSub now switchTs)
    let postAccrued ← calculateAccrued grant postElapsed now
    applyAccruedSplit grant postAccrued
  else do
    let accrued ← calculateAccrued grant elapsed now
    applyAccruedSplit grant accrued

/-- `withdrawn + claimable + validator_withdrawn + validator_claimable`, checked
as the source checks it in several places. -/
def totalAccounted (grant : Grant) : Res Int := do
  let total ← okOr (I128.checkedAdd grant.withdrawn grant.claimable) .mathOverflow
  let total ← okOr (I128.checkedAdd total grant.validatorWithdrawn) .mathOverflow
  okOr (I128.checkedAdd total grant.validatorClaimable) .mathOverflow

/-- The end of `settle_grant`: cap `claimable` and complete the grant once
everything is accounted for, and restart the clock. -/
def completeAndRestart (grant : Grant) (now : Nat) : Res Grant := do
  let accounted ← totalAccounted grant
  let grant ←
    if accounted ≥ grant.totalAmount then do
      let alreadyPaid ←
        okOr (I128.checkedAdd grant.withdrawn grant.validatorWithdrawn) .mathOverflow
      let alreadyPaid ← okOr (I128.checkedAdd alreadyPaid grant.validatorClaimable) .mathOverflow
      let rest ← okOr (I128.checkedSub grant.totalAmount alreadyPaid) .mathOverflow
      pure { grant with claimable := max rest 0, status := .completed }
    else pure grant
  pure { grant with lastUpdateTs := now }

/-- Bring the balances of a grant up to `now`. -/
def settleGrant (grant : Grant) (now : Nat) : Res Grant :=
  if now < grant.lastUpdateTs then fail .invalidState
  else
    let elapsed := now - grant.lastUpdateTs
    if elapsed = 0 then pure grant
    else if grant.status = .active ∧ grant.gateClosed then
      -- no accrual while a required signature is missing
      pure { grant with lastUpdateTs := now }
    else do
      let grant ← if grant.status = .active then accrueActive grant elapsed now else pure grant
      completeAndRestart grant now

/-- `preview_grant_at_now`: the grant as it would be settled at `now`. -/
def previewGrantAtNow (grant : Grant) (now : Nat) : Res Grant := settleGrant grant now

/-- What has not been earned yet. -/
def calculateUnearnedBalance (grant : Grant) : Res Int := do
  let totalEarned ← totalAccounted grant
  okOr (I128.checkedSub grant.totalAmount totalEarned) .mathOverflow

end YieldTrust.GrantStream
