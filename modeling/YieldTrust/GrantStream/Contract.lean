import YieldTrust.GrantStream.CircuitBreakers
import YieldTrust.GrantStream.MultiThreshold
import YieldTrust.GrantStream.Reporting
import YieldTrust.GrantStream.SecurityCouncil
import YieldTrust.GrantStream.Settlement

/-!
# YieldTrust.GrantStream.Contract

The entry points of `GrantStreamContract` (`lib.rs`), in the order of the
source. An entry point takes the environment it is called in and returns the one
it leaves; a call that fails leaves nothing (`YieldTrust.GrantStream.Calls`).

`try_call_on_withdraw` invokes the recipient and ignores the result. The host
refuses re-entry, so the callee cannot change anything that is modelled here
other than token balances of third parties, and those can change between any two
calls as well.
-/

namespace YieldTrust.GrantStream

open Fallible

/-! ### Storage -/

namespace Env

def writeGrant (env : Env) (grantId : Nat) (grant : Grant) : Env :=
  { env with grants := Function.update env.grants grantId (some grant) }

def removeGrant (env : Env) (grantId : Nat) : Env :=
  { env with grants := Function.update env.grants grantId none }

def setGrantIds (env : Env) (grantIds : List Nat) : Env := { env with grantIds }

def setRecipientGrants (env : Env) (recipient : Address) (ids : List Nat) : Env :=
  { env with recipientGrants := Function.update env.recipientGrants recipient ids }

def setDisputeEscrow (env : Env) (grantId : Nat) (amount : Option Int) : Env :=
  { env with disputeEscrow := Function.update env.disputeEscrow grantId amount }

def setClawbackCheckpoint (env : Env) (grantId : Nat) (ts : Nat) : Env :=
  { env with clawbackCheckpoint := Function.update env.clawbackCheckpoint grantId (some ts) }

def setClaimValueCounter (env : Env) (grantId : Nat) (counter : Option Nat) : Env :=
  { env with claimValueCounter := Function.update env.claimValueCounter grantId counter }

def setClaimValue (env : Env) (grantId index : Nat) (value : ClaimFiatValue) : Env :=
  { env with
    claimValue := Function.update env.claimValue grantId
      (Function.update (env.claimValue grantId) index (some value)) }

def setSubmitNonce (env : Env) (grantId : Nat) (nonce : Option Nat) : Env :=
  { env with milestoneSubmitNonce := Function.update env.milestoneSubmitNonce grantId nonce }

def setMilestone (env : Env) (grantId index : Nat) (proof : Option String) : Env :=
  { env with
    milestone := Function.update env.milestone grantId
      (Function.update (env.milestone grantId) index proof) }

def setSubmissionDeposit (env : Env) (grantId index : Nat) (amount : Option Int) : Env :=
  { env with
    milestoneSubmissionDeposit := Function.update env.milestoneSubmissionDeposit grantId
      (Function.update (env.milestoneSubmissionDeposit grantId) index amount) }

def setTombstone (env : Env) (grantId : Nat) (hash : Bytes) : Env :=
  { env with tombstone := Function.update env.tombstone grantId (some hash) }

def setCommitment (env : Env) (grantId : Nat) (commitment : Int) : Env :=
  { env with
    confidentialGrantCommitment :=
      Function.update env.confidentialGrantCommitment grantId (some commitment) }

def setBreakers (env : Env) (breakers : BreakerState) : Env := { env with breakers }

def setRescue (env : Env) (rescue : RescueState) : Env := { env with rescue }

def setCouncil (env : Env) (council : CouncilState) : Env := { env with council }

def setFlowHistory (env : Env) (flowHistory : Address → List FlowRecord) : Env :=
  { env with flowHistory }

def setAudit (env : Env) (audit : AuditState) : Env := { env with audit }

def setDashboard (env : Env) (dashboard : DashboardState) : Env := { env with dashboard }

end Env

/-! ### Internal helpers -/

def readAdmin (env : Env) : Res Address := okOr env.admin .notInitialized

def readOracle (env : Env) : Res Address := okOr env.oracle .notInitialized

def requireAdminAuth (env : Env) : Res Unit := do
  let admin ← readAdmin env
  env.requireAuth admin

def requireOracleAuth (env : Env) : Res Unit := do
  let oracle ← readOracle env
  env.requireAuth oracle

def readGrant (env : Env) (grantId : Nat) : Res Grant := okOr (env.grants grantId) .grantNotFound

def readGrantToken (env : Env) : Res Address := okOr env.grantToken .notInitialized

def readTreasury (env : Env) : Res Address := okOr env.treasury .notInitialized

def readNativeToken (env : Env) : Res Address := okOr env.nativeToken .notInitialized

/-- A rate that may be used to value a claim at `now`. -/
def Sep38Rate.fresh (rate : Sep38Rate) (tokenAddr : Address) (now : Nat) : Bool :=
  rate.baseAsset = tokenAddr && rate.rate > 0 && rate.scale > 0 &&
    rate.oracleTimestamp ≤ now && now - rate.oracleTimestamp ≤ sep38StalenessSeconds

def quoteSep38Claim (env : Env) (tokenAddr : Address) (amount : Int) (fiatAsset : String) :
    Sep38Quote :=
  let missing : Sep38Quote :=
    { baseAsset := tokenAddr, quoteAsset := fiatAsset, tokenAmount := amount, fiatValue := 0
      rate := 0, scale := scalingFactor, oracleTimestamp := 0, sourceLedgerSequence := 0
      priceDataMissing := true }
  match env.sep38Rate tokenAddr fiatAsset with
  | none => missing
  | some rate =>
    if rate.fresh tokenAddr env.timestamp then
      match (I128.checkedMul amount rate.rate).bind (I128.checkedDiv · rate.scale) with
      | some fiatValue =>
        { baseAsset := tokenAddr, quoteAsset := fiatAsset, tokenAmount := amount, fiatValue
          rate := rate.rate, scale := rate.scale, oracleTimestamp := rate.oracleTimestamp
          sourceLedgerSequence := rate.sourceLedgerSequence, priceDataMissing := false }
      | none => missing
    else missing

/-- Append the fiat valuation of a claim to the grant's claim log. -/
def recordClaimValue (env : Env) (grantId : Nat) (recipient tokenAddr : Address)
    (amount : Int) : Env :=
  let fiatAsset := env.sep38DefaultFiat
  let quote := quoteSep38Claim env tokenAddr amount fiatAsset
  let claimIndex := U64.saturatingAdd ((env.claimValueCounter grantId).getD 0) 1
  (env.setClaimValueCounter grantId (some claimIndex)).setClaimValue grantId claimIndex
    { grantId, claimIndex, recipient, tokenAddress := tokenAddr, tokenAmount := amount
      fiatValue := quote.fiatValue, fiatAsset, rate := quote.rate, rateScale := quote.scale
      oracleTimestamp := quote.oracleTimestamp
      oracleLedgerSequence := quote.sourceLedgerSequence
      claimLedgerSequence := env.sequence
      claimLedgerTimestamp := env.timestamp
      priceDataMissing := quote.priceDataMissing }

/-- A grant whose funds `total_allocated_funds` and `count_active_grants` count. -/
def Grant.isLive (grant : Grant) : Bool := grant.status = .active || grant.status = .paused

/-- The stored grants that `GrantIds` lists, in its order. -/
def listedGrants (env : Env) : List Grant := env.grantIds.filterMap env.grants

/-- `total_amount - withdrawn`, over the active and paused grants. -/
def totalAllocatedFunds (env : Env) : Res Int :=
  (listedGrants env).foldlM
    (fun total grant =>
      if grant.isLive then do
        let remaining ← okOr (I128.checkedSub grant.totalAmount grant.withdrawn) .mathOverflow
        okOr (I128.checkedAdd total remaining) .mathOverflow
      else pure total)
    0

def countActiveGrants (env : Env) : Nat := (listedGrants env).countP Grant.isLive

def requireDonorOrMultisigAuth (env : Env) (grant : Grant) : Res Unit :=
  match grant.donor with
  | some donor => env.requireAuth donor
  | none => requireAdminAuth env

/-- Pay `bounty` of the native token to `target`, if the contract has that much. -/
def payBounty (env : Env) (target : Address) (bounty : Int) : Res Env := do
  let nativeToken ← readNativeToken env
  when (env.balanceOf nativeToken env.self ≥ bounty)
    (fun env => env.transfer nativeToken env.self target bounty) env

/-! ### Set-up -/

def initializeContract (env : Env) (admin grantToken treasury oracle nativeToken : Address) :
    Res Env := do
  ensure (env.admin = none) .alreadyInitialized
  pure { env with
    admin := some admin
    grantToken := some grantToken
    treasury := some treasury
    oracle := some oracle
    nativeToken := some nativeToken
    grantIds := []
    sep38DefaultFiat := "USD" }

def setSep38Rate (env : Env) (fiatAsset : String) (rate scale : Int)
    (oracleTimestamp sourceLedgerSequence : Nat) : Res Env := do
  requireOracleAuth env
  ensure (rate > 0 ∧ scale > 0) .invalidRate
  ensure (oracleTimestamp ≠ 0 ∧ oracleTimestamp ≤ env.timestamp) .invalidTimestamp
  let tokenAddr ← readGrantToken env
  let sep38Rate : Sep38Rate :=
    { baseAsset := tokenAddr, quoteAsset := fiatAsset, rate, scale, oracleTimestamp
      sourceLedgerSequence }
  pure { env with
    sep38Rate := Function.update env.sep38Rate tokenAddr
      (Function.update (env.sep38Rate tokenAddr) fiatAsset (some sep38Rate))
    sep38DefaultFiat := fiatAsset }

/-! ### Creating grants -/

/-- The record of a grant created at `now`. -/
def newGrant (now : Nat) (recipient : Address) (totalAmount flowRate : Int)
    (warmupDuration : Nat) (validator donor : Option Address) (token : Address) : Grant :=
  { recipient
    totalAmount
    withdrawn := 0
    claimable := 0
    flowRate
    lastUpdateTs := now
    rateUpdatedAt := now
    lastClaimTime := now
    pendingRate := 0
    effectiveTimestamp := 0
    status := .active
    redirect := none
    streamType := .fixedAmount
    startTime := now
    warmupDuration
    validator
    validatorWithdrawn := 0
    validatorClaimable := 0
    legalHash := none
    requiresLegalSignature := false
    isLegalSigned := false
    pauseReason := none
    cancellationInitiatedAt := 0
    clawbackEligible := 0
    donor
    clawbackCheckpoint := none
    token
    streamedAmount := 0 }

def createGrant (env : Env) (grantId : Nat) (recipient : Address) (totalAmount flowRate : Int)
    (warmupDuration : Nat) (validator donor : Option Address) : Res Env := do
  requireAdminAuth env
  ensure (CircuitBreakers.isGrantInitializationHalted env = false) .grantInitializationHalted
  ensure (totalAmount > 0 ∧ flowRate ≥ 0) .invalidAmount
  ensure (env.grants grantId = none) .grantAlreadyExists
  let now := env.timestamp
  let grantToken ← readGrantToken env
  let grant := newGrant now recipient totalAmount flowRate warmupDuration validator donor grantToken
  let env := env.writeGrant grantId grant
  let env := env.setGrantIds (env.grantIds ++ [grantId])
  pure (env.setRecipientGrants recipient (env.recipientGrants recipient ++ [grantId]))

def createConfidentialGrant (env : Env) (grantId : Nat) (recipient : Address)
    (amountCommitment : Int) (verifierKeyHash : Bytes) : Res Env := do
  requireAdminAuth env
  ensure (amountCommitment > 0 ∧ amountCommitment < zkCommitmentModulus) .invalidAmount
  ensure (env.confidentialGrantCommitment grantId = none) .grantAlreadyExists
  let env := { env with
    confidentialGrantRecipient :=
      Function.update env.confidentialGrantRecipient grantId (some recipient)
    confidentialGrantVerifierKeyHash :=
      Function.update env.confidentialGrantVerifierKeyHash grantId (some verifierKeyHash) }
  pure (env.setCommitment grantId amountCommitment)

/-- The commitment that is left after a claim, if the proof is the one expected. -/
def verifyConfidentialClaimProof (env : Env) (grantId : Nat) (commitmentBefore claimAmount : Int)
    (nullifier proof : Bytes) : Res Int := do
  ensure (claimAmount > 0 ∧ commitmentBefore > 0) .invalidZKProof
  let verifierKeyHash ← okOr (env.confidentialGrantVerifierKeyHash grantId) .invalidZKProof
  let claimCommitment := claimAmount % zkCommitmentModulus
  ensure (claimCommitment ≤ commitmentBefore) .invalidZKProof
  let commitmentAfter ← okOr (I128.checkedSub commitmentBefore claimCommitment) .mathOverflow
  let publicInputs := AuditLog.toBeBytes 8 grantId ++ env.host.i128ToXdr commitmentBefore ++
    env.host.i128ToXdr commitmentAfter ++ env.host.i128ToXdr claimAmount ++ nullifier ++
    verifierKeyHash
  ensure (proof = env.host.sha256 publicInputs) .invalidZKProof
  pure commitmentAfter

def confidentialClaim (env : Env) (grantId : Nat) (claimAmount : Int) (nullifier proof : Bytes) :
    Res Env := do
  let recipient ← okOr (env.confidentialGrantRecipient grantId) .grantNotFound
  env.requireAuth recipient
  ensure (env.confidentialNullifier nullifier = false) .invalidZKProof
  let commitmentBefore ← okOr (env.confidentialGrantCommitment grantId) .grantNotFound
  let commitmentAfter ←
    verifyConfidentialClaimProof env grantId commitmentBefore claimAmount nullifier proof
  let env := env.setCommitment grantId commitmentAfter
  let env := { env with
    confidentialNullifier := Function.update env.confidentialNullifier nullifier true }
  let tokenAddr ← readGrantToken env
  env.transfer tokenAddr env.self recipient claimAmount

/-! ### Withdrawing -/

/-- Settle the grant and take `amount` from its claimable balance. -/
def debitWithdrawal (grant : Grant) (now : Nat) (amount : Int) : Res Grant := do
  let isDuringCancellation := grant.cancellationInitiatedAt ≠ 0
  let grant ← settleGrant grant now
  ensure (grant.gateClosed = false) .kycMissing
  -- the floor is on the settled balance, not on `amount`
  ensure (grant.claimable ≥ minWithdrawal) .withdrawalBelowMinimum
  ensure (amount ≤ grant.claimable) .invalidAmount
  let claimable ← okOr (I128.checkedSub grant.claimable amount) .mathOverflow
  let withdrawn ← okOr (I128.checkedAdd grant.withdrawn amount) .mathOverflow
  let grant := { grant with claimable, withdrawn, lastClaimTime := now }
  if isDuringCancellation then do
    let clawbackEligible ← okOr (I128.checkedAdd grant.clawbackEligible amount) .mathOverflow
    pure { grant with clawbackEligible }
  else pure grant

/-- Pay a withdrawal of `amount` and record it, once the grant is written. -/
def payWithdrawal (env : Env) (grantId : Nat) (grant : Grant) (amount : Int) : Res Env := do
  let velocity ← CircuitBreakers.recordWithdrawalVelocity env amount
  let env := env.setBreakers velocity.1
  let env := env.setBreakers (CircuitBreakers.checkRentBalance env).1
  let tokenAddr ← readGrantToken env
  let target := grant.redirect.getD grant.recipient
  let env ← env.transfer tokenAddr env.self target amount
  let env := recordClaimValue env grantId grant.recipient tokenAddr amount
  let _ ← readAdmin env
  let env := env.setFlowHistory (TaxReporting.recordFlow env grant.recipient grant.withdrawn)
  pure (env.setAudit (AuditLog.updateAuditLeaf env grantId grant.withdrawn))

def withdraw (env : Env) (grantId : Nat) (amount : Int) : Res Env := do
  let grant ← readGrant env grantId
  env.requireAuth grant.recipient
  ensure (amount > 0) .invalidAmount
  ensure (grant.status ≠ .cancelled ∧ grant.status ≠ .rageQuitted) .invalidState
  -- the guard above does not list `Paused`
  ensure (CircuitBreakers.isSoftPaused env = false) .softPaused
  ensure (CircuitBreakers.isOracleFrozen env = false) .oracleFrozen
  ensure (CircuitBreakers.isFunctionAllowed env false) .rentPreservationMode
  let grant ← debitWithdrawal grant env.timestamp amount
  payWithdrawal (env.writeGrant grantId grant) grantId grant amount

/-! ### Pausing and rates -/

def pauseStream (env : Env) (grantId : Nat) (reason : Option String) : Res Env := do
  requireAdminAuth env
  let grant ← readGrant env grantId
  ensure (grant.status = .active) .invalidState
  let grant ← settleGrant grant env.timestamp
  pure (env.writeGrant grantId { grant with status := .paused, pauseReason := reason })

def resumeStream (env : Env) (grantId : Nat) : Res Env := do
  requireAdminAuth env
  let grant ← readGrant env grantId
  ensure (grant.status = .paused) .invalidState
  -- no settlement: the clock skips the pause, and a pending rate stays pending
  pure (env.writeGrant grantId { grant with
    status := .active
    lastUpdateTs := env.timestamp
    pauseReason := none })

def emergencyPause (env : Env) (reason : String) : Res Env := do
  requireAdminAuth env
  pure { env with protocolPauseReason := some reason }

def proposeRateChange (env : Env) (grantId : Nat) (newRate : Int) : Res Env := do
  requireAdminAuth env
  let grant ← readGrant env grantId
  ensure (grant.status = .active) .invalidState
  ensure (newRate ≥ 0) .invalidRate
  let grant ← settleGrant grant env.timestamp
  let oldRate := grant.flowRate
  let grant ←
    if newRate > oldRate then do
      -- a plain `u64` addition
      let effectiveTimestamp ← orTrap (U64.checkedAdd env.timestamp rateIncreaseTimelockSecs)
      pure { grant with pendingRate := newRate, effectiveTimestamp }
    else
      pure { grant with
        flowRate := newRate
        rateUpdatedAt := env.timestamp
        pendingRate := 0
        effectiveTimestamp := 0 }
  let env := env.writeGrant grantId grant
  let _ ← readGrantToken env
  pure env

def applyKpiMultiplier (env : Env) (grantId : Nat) (multiplier : Int) : Res Env := do
  requireOracleAuth env
  ensure (multiplier > 0) .invalidRate
  ensure (CircuitBreakers.isOracleFrozen env = false) .oraclePriceFrozen
  let grant ← readGrant env grantId
  ensure (grant.status = .active) .invalidState
  let grant ← settleGrant grant env.timestamp
  let scaledRate ← okOr (I128.checkedMul grant.flowRate multiplier) .mathOverflow
  let grant := { grant with flowRate := scaledRate.tdiv 10000 }
  let grant ←
    -- a pending rate is scaled as well and keeps its effective timestamp
    if grant.pendingRate > 0 then do
      let scaledPending ← okOr (I128.checkedMul grant.pendingRate multiplier) .mathOverflow
      pure { grant with pendingRate := scaledPending.tdiv 10000 }
    else pure grant
  let env := env.writeGrant grantId { grant with rateUpdatedAt := env.timestamp }
  let _ ← readAdmin env
  let _ ← readGrantToken env
  pure env

/-! ### Terminating -/

/-- Pay the validator of a grant, if it has one and there is something to pay. -/
def payValidator (env : Env) (tokenAddr : Address) (validator : Option Address) (amount : Int) :
    Res Env :=
  match validator with
  | some validatorAddr =>
    when (amount > 0) (fun env => env.transfer tokenAddr env.self validatorAddr amount) env
  | none => pure env

/-- The transfers of `rage_quit`, once the grant is written. -/
def payRageQuit (env : Env) (grant : Grant) (claimAmount validatorAmount remaining : Int) :
    Res Env := do
  let tokenAddr ← readGrantToken env
  let env ← env.transfer tokenAddr env.self grant.recipient claimAmount
  let env ← payValidator env tokenAddr grant.validator validatorAmount
  when (remaining > 0)
    (fun env => do
      let treasury ← readTreasury env
      env.transfer tokenAddr env.self treasury remaining) env

def rageQuit (env : Env) (grantId : Nat) : Res Env := do
  let grant ← readGrant env grantId
  env.requireAuth grant.recipient
  ensure (grant.status = .paused) .invalidState
  let grant ← settleGrant grant env.timestamp
  let claimAmount := grant.claimable
  let validatorAmount := grant.validatorClaimable
  let withdrawn ← okOr (I128.checkedAdd grant.withdrawn claimAmount) .mathOverflow
  let validatorWithdrawn ←
    okOr (I128.checkedAdd grant.validatorWithdrawn validatorAmount) .mathOverflow
  let grant := { grant with
    claimable := 0
    validatorClaimable := 0
    withdrawn, validatorWithdrawn
    status := .rageQuitted }
  -- what was never earned goes to the treasury
  let totalPaid ← okOr (I128.checkedAdd grant.withdrawn grant.validatorWithdrawn) .mathOverflow
  let remaining ← okOr (I128.checkedSub grant.totalAmount totalPaid) .mathOverflow
  payRageQuit (env.writeGrant grantId grant) grant claimAmount validatorAmount remaining

def cancelGrant (env : Env) (grantId : Nat) : Res Env := do
  let grant ← readGrant env grantId
  requireAdminAuth env
  ensure (grant.status ≠ .completed ∧ grant.status ≠ .rageQuitted) .invalidState
  let grant ← settleGrant grant env.timestamp
  let now := env.timestamp
  let totalPaid ← okOr (I128.checkedAdd grant.withdrawn grant.validatorWithdrawn) .mathOverflow
  let totalPaid ← okOr (I128.checkedAdd totalPaid grant.claimable) .mathOverflow
  let totalPaid ← okOr (I128.checkedAdd totalPaid grant.validatorClaimable) .mathOverflow
  let remaining ← okOr (I128.checkedSub grant.totalAmount totalPaid) .mathOverflow
  -- the claimable balances stay on the record
  let env := env.writeGrant grantId { grant with
    cancellationInitiatedAt := now
    clawbackEligible := 0
    status := .cancelled }
  when (remaining > 0)
    (fun env => do
      let tokenAddr ← readGrantToken env
      let treasury ← readTreasury env
      env.transfer tokenAddr env.self treasury remaining) env

/-- Remove the first occurrence of `grantId`. -/
def removeFirst (ids : List Nat) (grantId : Nat) : List Nat := ids.erase grantId

def changeGrantee (env : Env) (grantId : Nat) (newGrantee : Address) : Res Env := do
  requireAdminAuth env
  let grant ← readGrant env grantId
  ensure (grant.status = .active ∨ grant.status = .paused) .invalidState
  ensure (grant.recipient ≠ newGrantee) .invalidRecipient
  let oldGrantee := grant.recipient
  -- no settlement: what has accrued so far is the new grantee's
  let env := env.writeGrant grantId { grant with recipient := newGrantee, redirect := none }
  let env := env.setRecipientGrants oldGrantee
    (removeFirst (env.recipientGrants oldGrantee) grantId)
  let env := env.setRecipientGrants newGrantee (env.recipientGrants newGrantee ++ [grantId])
  let _ ← readGrantToken env
  pure env

def triggerGrantClawback (env : Env) (grantId : Nat) (reason : String) (contested : Bool) :
    Res Env := do
  let grant ← readGrant env grantId
  ensure (grant.status ≠ .clawbacked) .clawbackAlreadyExecuted
  ensure (grant.status = .active ∨ grant.status = .paused) .invalidState
  ensure (reason ≠ "") .invalidClawbackReason
  requireDonorOrMultisigAuth env grant
  let now := env.timestamp
  let env := env.setClawbackCheckpoint grantId now
  let grant ← settleGrant { grant with clawbackCheckpoint := some now } now
  let unearnedBalance ← calculateUnearnedBalance grant
  if unearnedBalance ≤ 0 then do
    let env := env.writeGrant grantId { grant with status := .clawbacked }
    let _ ← readAdmin env
    let _ ← readGrantToken env
    pure env
  else do
    let tokenAddr ← readGrantToken env
    let env ←
      -- a contested clawback keeps the rest in the contract until it is resolved
      if contested then pure (env.setDisputeEscrow grantId (some unearnedBalance))
      else do
        let donorAddress ← okOr grant.donor .notDonorOrMultiSig
        env.transfer tokenAddr env.self donorAddress unearnedBalance
    let _ ← readAdmin env
    pure (env.writeGrant grantId { grant with status := .clawbacked })

def resolveDisputedClawback (env : Env) (grantId : Nat) (releaseToDonor : Bool) : Res Env := do
  requireAdminAuth env
  let grant ← readGrant env grantId
  ensure (grant.status = .clawbacked) .invalidState
  let escrowAmount ← okOr (env.disputeEscrow grantId) .disputeEscrowNotFound
  ensure (escrowAmount > 0) .invalidAmount
  let tokenAddr ← readGrantToken env
  let env ←
    if releaseToDonor then do
      let donorAddress ← okOr grant.donor .notDonorOrMultiSig
      env.transfer tokenAddr env.self donorAddress escrowAmount
    else do
      let totalAmount ← okOr (I128.checkedAdd grant.totalAmount escrowAmount) .mathOverflow
      let env := env.writeGrant grantId { grant with
        status := .active
        lastUpdateTs := env.timestamp
        totalAmount }
      -- the escrow leaves the contract although it was added to the total
      let treasury ← readTreasury env
      env.transfer tokenAddr env.self treasury escrowAmount
  pure (env.setDisputeEscrow grantId none)

/-! ### Rescue and circuit breakers -/

def rescueTokens (env : Env) (tokenAddress : Address) (amount : Int) (target : Address) :
    Res Env := do
  requireAdminAuth env
  ensure (amount > 0) .invalidAmount
  let balance := env.balanceOf tokenAddress env.self
  let grantToken ← readGrantToken env
  let totalAllocated ← if tokenAddress = grantToken then totalAllocatedFunds env else pure 0
  let rest ← okOr (I128.checkedSub balance amount) .mathOverflow
  ensure (rest ≥ totalAllocated) .rescueWouldViolateAllocated
  env.transfer tokenAddress env.self target amount

def setSanityOracle (env : Env) (sanityOracle : Address) : Res Env := do
  requireAdminAuth env
  pure (env.setBreakers (CircuitBreakers.setSanityOracle env sanityOracle))

def submitOraclePrice (env : Env) (newPrice : Int) : Res (Env × Bool) := do
  requireOracleAuth env
  ensure (newPrice > 0) .invalidAmount
  let recorded := CircuitBreakers.recordOraclePrice env newPrice
  pure (env.setBreakers recorded.1, recorded.2)

def confirmOraclePrice (env : Env) (caller : Address) (confirmedPrice : Int) : Res Env := do
  ensure (confirmedPrice > 0) .invalidAmount
  let breakers ← CircuitBreakers.confirmOraclePrice env caller confirmedPrice
  pure (env.setBreakers breakers)

def updateTvlSnapshot (env : Env) (totalLiquidity : Int) : Res Env := do
  requireAdminAuth env
  ensure (totalLiquidity ≥ 0) .invalidAmount
  pure (env.setBreakers (CircuitBreakers.updateTvlSnapshot env totalLiquidity))

def checkRentBalance (env : Env) : Res (Env × Bool) := do
  requireAdminAuth env
  let checked := CircuitBreakers.checkRentBalance env
  pure (env.setBreakers checked.1, checked.2)

def disableRentPreservationMode (env : Env) : Res Env := do
  let admin ← readAdmin env
  let breakers ← CircuitBreakers.disableRentPreservationMode env admin
  pure (env.setBreakers breakers)

def resumeAfterVelocityCheck (env : Env) : Res Env := do
  let admin ← readAdmin env
  env.requireAuth admin
  let breakers ← CircuitBreakers.resumeAfterVelocityCheck env admin
  pure (env.setBreakers breakers)

def triggerGrantDispute (env : Env) (grantId : Nat) : Res Env := do
  let _ ← readGrant env grantId
  let recorded := CircuitBreakers.recordDispute env (countActiveGrants env)
  -- a breach is announced in an event that names the admin
  if recorded.2 then pure (env.setBreakers recorded.1)
  else do
    let _ ← readAdmin env
    pure (env.setBreakers recorded.1)

def resumeGrantInitialization (env : Env) : Res Env := do
  let admin ← readAdmin env
  let breakers ← CircuitBreakers.resumeGrantInitialization env admin
  pure (env.setBreakers breakers)

/-! ### Views of a grant -/

def getGrant (env : Env) (grantId : Nat) : Res Grant := do
  let grant ← readGrant env grantId
  settleGrant grant env.timestamp

def getCurrentClaimableAmounts (env : Env) (grantId : Nat) : Res (Int × Int) := do
  let grant ← readGrant env grantId
  let preview ← previewGrantAtNow grant env.timestamp
  pure (preview.claimable, preview.validatorClaimable)

def getDisputeEscrowBalance (env : Env) (grantId : Nat) : Res Int :=
  okOr (env.disputeEscrow grantId) .disputeEscrowNotFound

/-! ### Validator and legal document -/

def withdrawValidator (env : Env) (grantId : Nat) (amount : Int) : Res Env := do
  let grant ← readGrant env grantId
  let validatorAddr ← okOr grant.validator .invalidState
  env.requireAuth validatorAddr
  ensure (grant.status ≠ .cancelled ∧ grant.status ≠ .rageQuitted) .invalidState
  let grant ← settleGrant grant env.timestamp
  ensure (amount > 0 ∧ amount ≤ grant.validatorClaimable) .invalidAmount
  let validatorClaimable ← okOr (I128.checkedSub grant.validatorClaimable amount) .mathOverflow
  let validatorWithdrawn ← okOr (I128.checkedAdd grant.validatorWithdrawn amount) .mathOverflow
  let env := env.writeGrant grantId { grant with validatorClaimable, validatorWithdrawn }
  let tokenAddr ← readGrantToken env
  let env ← env.transfer tokenAddr env.self validatorAddr amount
  let _ ← readAdmin env
  pure env

def setLegalMetadata (env : Env) (grantId : Nat) (legalHash : String)
    (requiresSignature : Bool) : Res Env := do
  requireAdminAuth env
  let grant ← readGrant env grantId
  -- no settlement: the next one judges all seconds by the new flags
  let env := env.writeGrant grantId { grant with
    legalHash := some legalHash
    requiresLegalSignature := requiresSignature }
  let _ ← readGrantToken env
  pure env

def signLegalMetadata (env : Env) (grantId : Nat) : Res Env := do
  let grant ← readGrant env grantId
  env.requireAuth grant.recipient
  ensure (grant.legalHash ≠ none) .invalidState
  -- no settlement either, but the clock is restarted
  let env := env.writeGrant grantId { grant with
    isLegalSigned := true
    lastUpdateTs := env.timestamp }
  let _ ← readAdmin env
  let _ ← readGrantToken env
  pure env

/-! ### Milestones -/

def submitMilestoneProof (env : Env) (grantId milestoneIndex : Nat) (proof : String)
    (nonce : Nat) : Res Env := do
  let grant ← readGrant env grantId
  env.requireAuth grant.recipient
  ensure (grant.status ≠ .cancelled ∧ grant.status ≠ .rageQuitted ∧ grant.status ≠ .completed)
    .invalidState
  ensure (env.milestone grantId milestoneIndex = none) .invalidState
  ensure (nonce = (env.milestoneSubmitNonce grantId).getD 0) .invalidNonce
  let nativeToken ← readNativeToken env
  let env ← env.transfer nativeToken grant.recipient env.self milestoneSubmissionDepositXlm
  let env := env.setMilestone grantId milestoneIndex (some proof)
  let env := env.setSubmissionDeposit grantId milestoneIndex (some milestoneSubmissionDepositXlm)
  let nextNonce ← okOr (U64.checkedAdd nonce 1) .mathOverflow
  pure (env.setSubmitNonce grantId (some nextNonce))

def approveMilestoneSubmission (env : Env) (grantId milestoneIndex : Nat) : Res Env := do
  requireAdminAuth env
  let grant ← readGrant env grantId
  let deposit ←
    okOr (env.milestoneSubmissionDeposit grantId milestoneIndex) .submissionDepositNotFound
  let nativeToken ← readNativeToken env
  let env ← env.transfer nativeToken env.self grant.recipient deposit
  pure (env.setSubmissionDeposit grantId milestoneIndex none)

def slashMsSubmissionDeposit (env : Env) (grantId milestoneIndex : Nat) : Res Env := do
  requireAdminAuth env
  let deposit ←
    okOr (env.milestoneSubmissionDeposit grantId milestoneIndex) .submissionDepositNotFound
  let treasury ← readTreasury env
  let nativeToken ← readNativeToken env
  let env ← env.transfer nativeToken env.self treasury deposit
  pure (env.setSubmissionDeposit grantId milestoneIndex none)

/-! ### Deleting grants -/

/-- A settled grant that may be deleted: completed or cancelled, nothing left to
claim, and a completed one accounted for in full. -/
def requirePurgeable (grant : Grant) : Res Unit := do
  ensure (grant.status = .completed ∨ grant.status = .cancelled) .grantNotPurgeable
  ensure (grant.claimable ≤ 0 ∧ grant.validatorClaimable ≤ 0) .grantNotPurgeable
  if grant.status = .completed then do
    let accounted ← totalAccounted grant
    ensure (accounted = grant.totalAmount) .grantNotPurgeable
  else pure ()

def finalizeAndPurge (env : Env) (grantId : Nat) (purger : Address) : Res Env := do
  env.requireAuth purger
  let grant ← readGrant env grantId
  let grant ← settleGrant grant env.timestamp
  requirePurgeable grant
  let env := env.removeGrant grantId
  let env := env.setGrantIds (env.grantIds.filter (· ≠ grantId))
  let env := env.setRecipientGrants grant.recipient
    ((env.recipientGrants grant.recipient).filter (· ≠ grantId))
  payBounty env purger 100000

/-- `for i in 0..nonce { remove(Milestone(grant_id, i as u32)) }` -/
def removeMilestones (env : Env) (grantId nonce : Nat) : Env :=
  { env with
    milestone := Function.update env.milestone grantId fun index =>
      if index < nonce then none else env.milestone grantId index }

def pruneFinalizedGrant (env : Env) (grantId : Nat) (relayer : Address) : Res Env := do
  env.requireAuth relayer
  let grant ← readGrant env grantId
  let lastUpdateTs := grant.lastUpdateTs
  let grant ← settleGrant grant env.timestamp
  ensure (grant.status = .completed ∨ grant.status = .cancelled) .grantNotPurgeable
  ensure (grant.claimable ≤ 0 ∧ grant.validatorClaimable ≤ 0) .grantNotPurgeable
  ensure (env.timestamp ≥ U64.saturatingAdd lastUpdateTs pruneDelaySeconds) .grantNotPurgeable
  requirePurgeable grant
  let env := env.setTombstone grantId (env.host.sha256 (env.host.grantToXdr grant))
  let env := removeMilestones env grantId ((env.milestoneSubmitNonce grantId).getD 0)
  -- the claim valuations are removed from persistent storage, where none are kept
  let env := env.setSubmitNonce grantId none
  let env := env.setClaimValueCounter grantId none
  let env := env.removeGrant grantId
  let env := env.setGrantIds (removeFirst env.grantIds grantId)
  let env := env.setRecipientGrants grant.recipient
    (removeFirst (env.recipientGrants grant.recipient) grantId)
  payBounty env relayer 200000

/-! ### Dashboard and rescue multisig -/

def heartbeatEmit (env : Env) (totalTvl : Int) : Res (Env × Bool) := do
  let emitted ← PublicDashboard.heartbeatEmit env totalTvl
  pure (env.setDashboard emitted.1, emitted.2)

def initializeRescueSigners (env : Env) (signers : List Address) : Res Env := do
  requireAdminAuth env
  let rescue ← MultiThreshold.initializeSigners env signers
  pure (env.setRescue rescue)

def proposeRescue (env : Env) (proposer : Address) (kind : RescueKind) (rescueTo : Address)
    (amount : Int) : Res (Env × Nat) := do
  let proposed ← MultiThreshold.proposeRescue env proposer kind rescueTo amount
  pure (env.setRescue proposed.1, proposed.2)

def approveRescue (env : Env) (signer : Address) (proposalId : Nat) : Res Env := do
  let rescue ← MultiThreshold.approveRescue env signer proposalId
  pure (env.setRescue rescue)

def executeRescue (env : Env) (caller : Address) (proposalId : Nat) (tokenAddress : Address) :
    Res Env := do
  let executed ← MultiThreshold.executeRescue env caller proposalId
  let env := env.setRescue executed.1
  -- neither the balance nor the allocated funds are looked at
  env.transfer tokenAddress env.self executed.2.1 executed.2.2

def cancelRescue (env : Env) (proposer : Address) (proposalId : Nat) : Res Env := do
  let rescue ← MultiThreshold.cancelRescue env proposer proposalId
  pure (env.setRescue rescue)

/-- A grantee of an active or paused grant that still has something to stream or claim. -/
def isActiveGrantee (env : Env) (address : Address) : Bool :=
  ((env.recipientGrants address).filterMap env.grants).any fun grant =>
    let totalWithdrawn := (I128.checkedAdd grant.withdrawn grant.validatorWithdrawn).getD 0
    let totalClaimable := (I128.checkedAdd grant.claimable grant.validatorClaimable).getD 0
    grant.isLive && (totalWithdrawn < grant.totalAmount || totalClaimable > 0)

/-! ### Security council -/

/-- `.map_err(|_| Error::NotAuthorized)` -/
def notAuthorized {α : Type} (x : SecurityCouncil.CouncilRes α) : Res α :=
  mapErr (fun _ => .notAuthorized) x

def initializeSecurityCouncil (env : Env) (members : List Address) : Res Env := do
  requireAdminAuth env
  let council ← notAuthorized (SecurityCouncil.initializeCouncil env members)
  pure (env.setCouncil council)

def createTimelockedAction (env : Env) (actionType : ActionType) (targetGrantId : Option Nat)
    (initiator : Address) (parameters : List Int) : Res (Env × Nat) := do
  requireAdminAuth env
  let created ← notAuthorized
    (SecurityCouncil.createPendingAction env actionType targetGrantId initiator parameters)
  pure (env.setCouncil created.1, created.2)

def councilSignVeto (env : Env) (actionId : Nat) (signer : Address) : Res Env := do
  let council ← notAuthorized (SecurityCouncil.signVeto env actionId signer)
  pure (env.setCouncil council)

def executeTimelockedAction (env : Env) (actionId : Nat) : Res Env := do
  let council ← notAuthorized (SecurityCouncil.executeAction env actionId)
  pure (env.setCouncil council)

def proposeCouncilRotation (env : Env) (newMembers : List Address) (daoAdmin : Address) :
    Res Env := do
  requireAdminAuth env
  let council ← notAuthorized (SecurityCouncil.proposeCouncilRotation env newMembers daoAdmin)
  pure (env.setCouncil council)

def execCouncilRotation (env : Env) : Res Env := do
  requireAdminAuth env
  let council ← notAuthorized (SecurityCouncil.executeCouncilRotation env)
  pure (env.setCouncil council)

def protectedClawback (env : Env) (grantId : Nat) (initiator : Address) : Res (Env × Nat) := do
  requireAdminAuth env
  let created ← notAuthorized
    (SecurityCouncil.createPendingAction env .clawback (some grantId) initiator [(grantId : Int)])
  pure (env.setCouncil created.1, created.2)

def executeProtectedClawback (env : Env) (actionId grantId : Nat) : Res Env := do
  requireAdminAuth env
  let canExecute ← notAuthorized (SecurityCouncil.canExecuteAction env actionId)
  ensure canExecute .invalidState
  let council ← notAuthorized (SecurityCouncil.executeAction env actionId)
  cancelGrant (env.setCouncil council) grantId

end YieldTrust.GrantStream
