import YieldTrust.GrantStream.Reporting
import YieldTrust.Lib.Ledger

/-!
# YieldTrust.Optimized.Contract

The grant contract with a status mask (`optimized.rs`, `self_terminate.rs`): its records,
its helpers and its entry points in the order of the source, and the contract they make up.

The signature check of the host is a parameter, and so is the token that the streaming
contract keeps under the storage key `GrantToken`.
-/

namespace YieldTrust.Optimized

open Fallible
open GrantStream (Address Bytes)

/-! ### Status flags -/

abbrev StatusMask := BitVec 32

/-- Grant is currently active. -/
def statusActive : StatusMask := 0b000000001#32

def statusPaused : StatusMask := 0b000000010#32

def statusCompleted : StatusMask := 0b000000100#32

def statusCancelled : StatusMask := 0b000001000#32

def statusRevocable : StatusMask := 0b000010000#32

/-- Grant uses milestone-based releases. -/
def statusMilestoneBased : StatusMask := 0b000100000#32

def statusAutoRenew : StatusMask := 0b001000000#32

def statusEmergencyPause : StatusMask := 0b010000000#32

/-- Grantee rage quit; grant permanently closed. -/
def statusRageQuit : StatusMask := 0b100000000#32

/-- Grant was self-terminated by its grantee. -/
def statusSelfTerminated : StatusMask := 0b100000000#32

def hasStatus (statusMask flag : StatusMask) : Bool := statusMask &&& flag != 0

def setStatus (statusMask flag : StatusMask) : StatusMask := statusMask ||| flag

def clearStatus (statusMask flag : StatusMask) : StatusMask := statusMask &&& ~~~flag

/-! ### Data -/

structure Grant where
  recipient : Address
  totalAmount : Int
  withdrawn : Int
  claimable : Int
  flowRate : Int
  lastUpdateTs : Nat
  rateUpdatedAt : Nat
  statusMask : StatusMask
  /-- The time after which clawback is allowed. -/
  milestoneDeadline : Nat
  milestoneMet : Bool
  milestoneThreshold : Nat
  milestoneDisputeWindowSecs : Nat
  milestoneEvidenceHash : Option Bytes
  msEvidenceSubmittedAt : Nat
  milestoneDisputeWindowEnd : Nat
  milestoneOracles : List Bytes
  milestoneApprovers : List Bytes
  deriving DecidableEq

inductive Error where
  | notInitialized
  | alreadyInitialized
  | notAuthorized
  | grantNotFound
  | grantAlreadyExists
  | invalidRate
  | invalidAmount
  | invalidState
  | mathOverflow
  | invalidStatusTransition
  | softPaused
  | oracleFrozen
  | invalidMilestoneConfig
  | milestoneEvidenceMissing
  | milestoneAlreadyCompleted
  | milestoneWindowClosed
  | oracleNotWhitelisted
  | duplicateOracleApproval
  | evidenceRequired
  deriving DecidableEq

/-- What the contract stores, by its data keys. -/
structure Store where
  admin : Option Address := none
  grants : Nat → Option Grant := fun _ => none
  /-- The evidence of a milestone, a string. -/
  milestoneEvidence : Nat → Option Bytes := fun _ => none

abbrev Env := Ledger.Env Address Store

abbrev Res (α : Type) := Fallible Error α

/-- What the contract takes from its surroundings. -/
structure Host where
  ed25519Verify : (publicKey message signature : Bytes) → Bool
  grantToken : Option Address

/-! ### Helpers -/

def readAdmin (env : Env) : Res Address := okOr env.store.admin .notInitialized

def requireAdminAuth (env : Env) : Res Unit := do
  let admin ← readAdmin env
  env.requireAuth admin

def readGrant (env : Env) (grantId : Nat) : Res Grant :=
  okOr (env.store.grants grantId) .grantNotFound

def writeGrant (env : Env) (grantId : Nat) (grant : Grant) : Env :=
  { env with store := { env.store with
      grants := Function.update env.store.grants grantId (some grant) } }

def readMilestoneEvidence (env : Env) (grantId : Nat) : Option Bytes :=
  env.store.milestoneEvidence grantId

def clearMilestoneEvidence (env : Env) (grantId : Nat) : Env :=
  { env with store := { env.store with
      milestoneEvidence := Function.update env.store.milestoneEvidence grantId none } }

def settleGrant (grant : Grant) (now : Nat) : Res Grant := do
  ensure (grant.lastUpdateTs ≤ now) .invalidState
  let elapsed := now - grant.lastUpdateTs
  let grant := { grant with lastUpdateTs := now }
  if !hasStatus grant.statusMask statusActive || elapsed == 0 || grant.flowRate == 0 then
    return grant
  ensure (0 ≤ grant.flowRate) .invalidRate
  let accrued ← okOr (I128.checkedMul grant.flowRate elapsed) .mathOverflow
  let accounted ← okOr (I128.checkedAdd grant.withdrawn grant.claimable) .mathOverflow
  ensure (accounted ≤ grant.totalAmount) .invalidState
  let remaining ← okOr (I128.checkedSub grant.totalAmount accounted) .mathOverflow
  let delta := if remaining < accrued then remaining else accrued
  let claimable ← okOr (I128.checkedAdd grant.claimable delta) .mathOverflow
  let grant := { grant with claimable }
  let newAccounted ← okOr (I128.checkedAdd grant.withdrawn grant.claimable) .mathOverflow
  if newAccounted = grant.totalAmount then
    return { grant with
      statusMask := clearStatus (setStatus grant.statusMask statusCompleted) statusActive }
  return grant

/-- Cancel a grant whose milestone deadline has passed. Returns whether it was cancelled. -/
def maybeAutoCancelMilestoneExpiry (env : Env) (grantId : Nat) (grant : Grant) :
    Res (Env × Grant × Bool) :=
  if !hasStatus grant.statusMask statusMilestoneBased then
    pure (env, grant, false)
  else if hasStatus grant.statusMask statusCancelled || hasStatus grant.statusMask statusCompleted
      || hasStatus grant.statusMask statusRageQuit then
    pure (env, grant, false)
  else if grant.milestoneDeadline = 0 ∨ env.timestamp ≤ grant.milestoneDeadline ∨
      grant.milestoneMet = true then
    pure (env, grant, false)
  else do
    let cancelSettleTs :=
      if grant.lastUpdateTs < grant.milestoneDeadline then grant.milestoneDeadline
      else grant.lastUpdateTs
    let grant ← settleGrant grant cancelSettleTs
    let statusMask := setStatus grant.statusMask statusCancelled
    let statusMask := clearStatus statusMask statusActive
    let statusMask := clearStatus statusMask statusPaused
    let grant := { grant with statusMask, flowRate := 0 }
    return (writeGrant env grantId grant, grant, true)

def validateStatusTransition (currentMask newMask : StatusMask) : Res Unit :=
  if hasStatus currentMask statusCompleted || hasStatus currentMask statusCancelled then
    fail .invalidStatusTransition
  -- from any state to cancelled
  else if hasStatus newMask statusCancelled then
    pure ()
  -- from active to paused
  else if hasStatus currentMask statusActive && hasStatus newMask statusPaused
      && !hasStatus newMask statusActive then
    pure ()
  -- from paused to active
  else if hasStatus currentMask statusPaused && hasStatus newMask statusActive
      && !hasStatus newMask statusPaused then
    pure ()
  -- from active or paused to completed
  else if (hasStatus currentMask statusActive || hasStatus currentMask statusPaused)
      && hasStatus newMask statusCompleted
      && !hasStatus newMask statusActive && !hasStatus newMask statusPaused then
    pure ()
  -- creation
  else if currentMask == 0 && hasStatus newMask statusActive && !hasStatus newMask statusPaused
      && !hasStatus newMask statusCompleted && !hasStatus newMask statusCancelled then
    pure ()
  else
    fail .invalidStatusTransition

def containsOracle (oracles : List Bytes) (oracle : Bytes) : Bool := oracles.any (· == oracle)

def validateOracleSet (oracles : List Bytes) (threshold : Nat) : Res Unit := do
  ensure (¬(oracles.isEmpty = true ∨ threshold = 0 ∨ oracles.length < threshold))
    .invalidMilestoneConfig
  ensure oracles.Nodup .invalidMilestoneConfig

/-- `milestone-approval-v1` -/
def milestoneApprovalTag : Bytes :=
  [0x6d, 0x69, 0x6c, 0x65, 0x73, 0x74, 0x6f, 0x6e, 0x65, 0x2d, 0x61, 0x70, 0x70, 0x72, 0x6f, 0x76,
    0x61, 0x6c, 0x2d, 0x76, 0x31]

def buildMilestoneApprovalPayload (env : Env) (grantId : Nat) (evidenceHash : Bytes)
    (disputeWindowEnd : Nat) : Bytes :=
  milestoneApprovalTag ++ env.self.xdr ++ GrantStream.AuditLog.toBeBytes 8 grantId ++
    GrantStream.AuditLog.toBeBytes 8 disputeWindowEnd ++ evidenceHash

def previewGrantAtNow (env : Env) (grant : Grant) : Res Grant := settleGrant grant env.timestamp

/-! ### Entry points -/

def initializeContract (env : Env) (admin : Address) : Res Env := do
  ensure (env.store.admin = none) .alreadyInitialized
  env.requireAuth admin
  return { env with store := { env.store with admin := some admin } }

def createGrant (env : Env) (grantId : Nat) (recipient : Address) (totalAmount flowRate : Int)
    (initialStatusMask : StatusMask) : Res Env := do
  requireAdminAuth env
  ensure (0 < totalAmount) .invalidAmount
  ensure (0 ≤ flowRate) .invalidRate
  validateStatusTransition 0 initialStatusMask
  ensure (env.store.grants grantId = none) .grantAlreadyExists
  let now := env.timestamp
  return writeGrant env grantId
    { recipient, totalAmount, withdrawn := 0, claimable := 0, flowRate
      lastUpdateTs := now, rateUpdatedAt := now, statusMask := initialStatusMask
      milestoneDeadline := 0, milestoneMet := false, milestoneThreshold := 0
      milestoneDisputeWindowSecs := 0, milestoneEvidenceHash := none
      msEvidenceSubmittedAt := 0, milestoneDisputeWindowEnd := 0
      milestoneOracles := [], milestoneApprovers := [] }

def cancelGrantBitmask (env : Env) (grantId : Nat) : Res Env := do
  requireAdminAuth env
  let grant ← readGrant env grantId
  let currentMask := grant.statusMask
  let newMask := setStatus currentMask statusCancelled
  validateStatusTransition currentMask newMask
  let grant ← settleGrant grant env.timestamp
  return writeGrant env grantId { grant with statusMask := newMask, flowRate := 0 }

def pauseGrant (env : Env) (grantId : Nat) : Res Env := do
  requireAdminAuth env
  let grant ← readGrant env grantId
  let currentMask := grant.statusMask
  ensure (hasStatus currentMask statusActive = true) .invalidState
  let newMask := setStatus currentMask statusPaused
  let newMask := clearStatus newMask statusActive
  let grant ← settleGrant grant env.timestamp
  return writeGrant env grantId { grant with statusMask := newMask }

def resumeGrant (env : Env) (grantId : Nat) : Res Env := do
  requireAdminAuth env
  let grant ← readGrant env grantId
  let currentMask := grant.statusMask
  ensure (hasStatus currentMask statusPaused = true) .invalidState
  let newMask := setStatus currentMask statusActive
  let newMask := clearStatus newMask statusPaused
  let grant ← settleGrant grant env.timestamp
  return writeGrant env grantId { grant with statusMask := newMask }

/-- The mask that `setGrantFlags` asks for. -/
def flaggedMask (currentMask flagsToSet flagsToClear : StatusMask) : StatusMask :=
  (currentMask ||| flagsToSet) &&& ~~~flagsToClear

def setGrantFlags (env : Env) (grantId : Nat) (flagsToSet flagsToClear : StatusMask) :
    Res Env := do
  requireAdminAuth env
  let grant ← readGrant env grantId
  let currentMask := grant.statusMask
  let newMask := flaggedMask currentMask flagsToSet flagsToClear
  validateStatusTransition currentMask newMask
  let grant ← settleGrant grant env.timestamp
  return writeGrant env grantId { grant with statusMask := newMask }

/-- The grant as it is now; a grant that has expired is cancelled first. -/
def getGrant (env : Env) (grantId : Nat) : Res (Env × Grant) := do
  let grant ← readGrant env grantId
  let (env, grant, _) ← maybeAutoCancelMilestoneExpiry env grantId grant
  let preview ← previewGrantAtNow env grant
  return (env, preview)

def claimableBitmask (env : Env) (grantId : Nat) : Res (Env × Int) := do
  let grant ← readGrant env grantId
  let (env, grant, _) ← maybeAutoCancelMilestoneExpiry env grantId grant
  let preview ← previewGrantAtNow env grant
  return (env, preview.claimable)

def withdraw (env : Env) (grantId : Nat) (amount : Int) : Res Env := do
  ensure (0 < amount) .invalidAmount
  let grant ← readGrant env grantId
  let (env, grant, _) ← maybeAutoCancelMilestoneExpiry env grantId grant
  ensure (hasStatus grant.statusMask statusActive = true) .invalidState
  env.requireAuth grant.recipient
  let grant ← settleGrant grant env.timestamp
  ensure (amount ≤ grant.claimable) .invalidAmount
  let claimable ← okOr (I128.checkedSub grant.claimable amount) .mathOverflow
  let withdrawn ← okOr (I128.checkedAdd grant.withdrawn amount) .mathOverflow
  let accounted ← okOr (I128.checkedAdd withdrawn claimable) .mathOverflow
  let grant := { grant with claimable, withdrawn }
  let grant :=
    if accounted = grant.totalAmount then
      { grant with
        statusMask := clearStatus (setStatus grant.statusMask statusCompleted) statusActive }
    else grant
  return writeGrant env grantId grant

def processMilestoneExpiry (env : Env) (grantId : Nat) : Res (Env × Bool) := do
  let grant ← readGrant env grantId
  let (env, _, cancelled) ← maybeAutoCancelMilestoneExpiry env grantId grant
  return (env, cancelled)

def updateRate (env : Env) (grantId : Nat) (newRate : Int) : Res Env := do
  requireAdminAuth env
  ensure (0 ≤ newRate) .invalidRate
  let grant ← readGrant env grantId
  ensure (hasStatus grant.statusMask statusActive = true ∨
    hasStatus grant.statusMask statusPaused = true) .invalidState
  let grant ← settleGrant grant env.timestamp
  -- the source writes the settled grant before it fails here; the write is rolled back
  ensure (hasStatus grant.statusMask statusActive = true ∨
    hasStatus grant.statusMask statusPaused = true) .invalidState
  return writeGrant env grantId
    { grant with flowRate := newRate, rateUpdatedAt := grant.lastUpdateTs }

def setMilestoneDeadline (env : Env) (grantId : Nat) (deadline : Nat) : Res Env := do
  requireAdminAuth env
  let grant ← readGrant env grantId
  ensure (hasStatus grant.statusMask statusMilestoneBased = true) .invalidState
  let env := clearMilestoneEvidence env grantId
  return writeGrant env grantId { grant with milestoneDeadline := deadline, milestoneMet := false }

def configureMilestoneOracles (env : Env) (grantId : Nat) (oracles : List Bytes)
    (threshold disputeWindowSecs : Nat) : Res Env := do
  requireAdminAuth env
  let grant ← readGrant env grantId
  ensure (hasStatus grant.statusMask statusMilestoneBased = true ∧ disputeWindowSecs ≠ 0)
    .invalidMilestoneConfig
  validateOracleSet oracles threshold
  return writeGrant env grantId
    { grant with
      milestoneOracles := oracles
      milestoneThreshold := threshold
      milestoneDisputeWindowSecs := disputeWindowSecs
      milestoneEvidenceHash := none
      msEvidenceSubmittedAt := 0
      milestoneDisputeWindowEnd := 0
      milestoneApprovers := []
      milestoneMet := false }

def submitMilestoneEvidence (env : Env) (grantId : Nat) (evidenceHash : Bytes) : Res Env := do
  let grant ← readGrant env grantId
  ensure (hasStatus grant.statusMask statusMilestoneBased = true ∧ grant.milestoneThreshold ≠ 0 ∧
    grant.milestoneOracles ≠ []) .invalidMilestoneConfig
  env.requireAuth grant.recipient
  let now := env.timestamp
  let milestoneDisputeWindowEnd ← orTrap (U64.checkedAdd now grant.milestoneDisputeWindowSecs)
  return writeGrant env grantId
    { grant with
      milestoneEvidenceHash := some evidenceHash
      msEvidenceSubmittedAt := now
      milestoneDisputeWindowEnd
      milestoneApprovers := []
      milestoneMet := false }

/-- Record the approval of one oracle. Returns how many there are. -/
def approveMilestone (host : Host) (env : Env) (grantId : Nat)
    (oraclePublicKey signature : Bytes) : Res (Env × Nat) := do
  let grant ← readGrant env grantId
  ensure (hasStatus grant.statusMask statusMilestoneBased = true) .invalidState
  ensure (grant.milestoneMet = false) .milestoneAlreadyCompleted
  ensure (containsOracle grant.milestoneOracles oraclePublicKey = true) .oracleNotWhitelisted
  ensure (containsOracle grant.milestoneApprovers oraclePublicKey = false) .duplicateOracleApproval
  let evidenceHash ← okOr grant.milestoneEvidenceHash .milestoneEvidenceMissing
  ensure (env.timestamp ≤ grant.milestoneDisputeWindowEnd) .milestoneWindowClosed
  let payload :=
    buildMilestoneApprovalPayload env grantId evidenceHash grant.milestoneDisputeWindowEnd
  require (host.ed25519Verify oraclePublicKey payload signature = true)
  let milestoneApprovers := grant.milestoneApprovers ++ [oraclePublicKey]
  let approvals := milestoneApprovers.length
  let grant := { grant with milestoneApprovers }
  let grant :=
    if grant.milestoneThreshold ≤ approvals then
      { grant with
        milestoneMet := true
        statusMask :=
          if hasStatus grant.statusMask statusPaused then
            setStatus (clearStatus grant.statusMask statusPaused) statusActive
          else grant.statusMask }
    else grant
  return (writeGrant env grantId grant, approvals)

def markMilestoneMet (env : Env) (grantId : Nat) : Res Env := do
  requireAdminAuth env
  let grant ← readGrant env grantId
  ensure (hasStatus grant.statusMask statusMilestoneBased = true) .invalidState
  let evidence ← okOr (readMilestoneEvidence env grantId) .evidenceRequired
  ensure (evidence.length ≠ 0) .evidenceRequired
  return writeGrant env grantId { grant with milestoneMet := true }

def clawbackMilestone (env : Env) (grantId : Nat) : Res Env := do
  requireAdminAuth env
  let grant ← readGrant env grantId
  ensure (hasStatus grant.statusMask statusMilestoneBased = true) .invalidState
  let now := env.timestamp
  ensure (¬(grant.milestoneDeadline = 0 ∨ now ≤ grant.milestoneDeadline)) .invalidState
  ensure (grant.milestoneMet = false) .invalidState
  let grant ← settleGrant grant now
  return writeGrant env grantId { grant with claimable := 0 }

def rageQuit (env : Env) (grantId : Nat) : Res Env := do
  let grant ← readGrant env grantId
  env.requireAuth grant.recipient
  ensure (hasStatus grant.statusMask statusPaused = true) .invalidState
  let grant ← settleGrant grant env.timestamp
  let statusMask := setStatus grant.statusMask statusCompleted
  let statusMask := setStatus statusMask statusRageQuit
  let statusMask := clearStatus statusMask statusPaused
  let statusMask := clearStatus statusMask statusActive
  let withdrawn ← okOr (I128.checkedAdd grant.withdrawn grant.claimable) .mathOverflow
  return writeGrant env grantId
    { grant with statusMask, flowRate := 0, withdrawn, claimable := 0 }

/-! ### `self_terminate.rs` -/

structure SelfTerminateResult where
  grantId : Nat
  finalClaimable : Int
  refundedAmount : Int
  terminatedAt : Nat
  deriving DecidableEq

def validateTerminationEligibility (grant : Grant) : Res Unit := do
  ensure (hasStatus grant.statusMask statusSelfTerminated = false) .invalidStatusTransition
  ensure (hasStatus grant.statusMask statusCompleted = false) .invalidStatusTransition
  ensure (hasStatus grant.statusMask statusCancelled = false) .invalidStatusTransition
  ensure (hasStatus grant.statusMask statusActive = true ∨
    hasStatus grant.statusMask statusPaused = true) .invalidState

def transferToGrantee (host : Host) (env : Env) (grant : Grant) (amount : Int) : Res Env :=
  if amount ≤ 0 then
    pure env
  else do
    let tokenAddress ← orTrap host.grantToken
    env.transfer tokenAddress env.self grant.recipient amount

def refundToAdmin (host : Host) (env : Env) (amount : Int) : Res Env :=
  if amount ≤ 0 then
    pure env
  else do
    let admin ← readAdmin env
    let tokenAddress ← orTrap host.grantToken
    env.transfer tokenAddress env.self admin amount

def selfTerminate (host : Host) (env : Env) (grantId : Nat) : Res (Env × SelfTerminateResult) := do
  let grant ← readGrant env grantId
  validateTerminationEligibility grant
  env.requireAuth grant.recipient
  let grant ← settleGrant grant env.timestamp
  let finalClaimable := grant.claimable
  let totalAccounted ← orTrap (I128.checkedAdd grant.withdrawn finalClaimable)
  let remainingBalance ← orTrap (I128.checkedSub grant.totalAmount totalAccounted)
  let env ← transferToGrantee host env grant finalClaimable
  let env ← refundToAdmin host env remainingBalance
  let statusMask := setStatus grant.statusMask statusSelfTerminated
  let statusMask := clearStatus statusMask statusActive
  let statusMask := clearStatus statusMask statusPaused
  let env := writeGrant env grantId { grant with statusMask, flowRate := 0 }
  return (env, { grantId, finalClaimable, refundedAmount := remainingBalance
                 terminatedAt := env.timestamp })

/-- What is known of a termination afterwards; its time is that of the last rate. -/
def getTerminationDetails (env : Env) (grantId : Nat) : Res SelfTerminateResult := do
  let grant ← readGrant env grantId
  ensure (hasStatus grant.statusMask statusSelfTerminated = true) .invalidState
  let totalAccounted ← orTrap (I128.checkedAdd grant.withdrawn grant.claimable)
  let remainingBalance ← orTrap (I128.checkedSub grant.totalAmount totalAccounted)
  return { grantId, finalClaimable := grant.claimable, refundedAmount := remainingBalance
           terminatedAt := grant.rateUpdatedAt }

def isSelfTerminated (statusMask : StatusMask) : Bool := hasStatus statusMask statusSelfTerminated

/-! ### The contract -/

/-- The entry points that can change the state, with their arguments. -/
inductive Call where
  | initializeContract (admin : Address)
  | createGrant (grantId : Nat) (recipient : Address) (totalAmount flowRate : Int)
      (initialStatusMask : StatusMask)
  | cancelGrantBitmask (grantId : Nat)
  | pauseGrant (grantId : Nat)
  | resumeGrant (grantId : Nat)
  | setGrantFlags (grantId : Nat) (flagsToSet flagsToClear : StatusMask)
  | getGrant (grantId : Nat)
  | claimableBitmask (grantId : Nat)
  | withdraw (grantId : Nat) (amount : Int)
  | processMilestoneExpiry (grantId : Nat)
  | updateRate (grantId : Nat) (newRate : Int)
  | setMilestoneDeadline (grantId deadline : Nat)
  | configureMilestoneOracles (grantId : Nat) (oracles : List Bytes)
      (threshold disputeWindowSecs : Nat)
  | submitMilestoneEvidence (grantId : Nat) (evidenceHash : Bytes)
  | approveMilestone (grantId : Nat) (oraclePublicKey signature : Bytes)
  | markMilestoneMet (grantId : Nat)
  | clawbackMilestone (grantId : Nat)
  | rageQuit (grantId : Nat)
  | selfTerminate (grantId : Nat)
  deriving DecidableEq

/-- Perform a call; its return value is dropped. -/
def Call.exec (host : Host) (env : Env) : Call → Res Env
  | .initializeContract admin => Optimized.initializeContract env admin
  | .createGrant grantId recipient totalAmount flowRate initialStatusMask =>
      Optimized.createGrant env grantId recipient totalAmount flowRate initialStatusMask
  | .cancelGrantBitmask grantId => Optimized.cancelGrantBitmask env grantId
  | .pauseGrant grantId => Optimized.pauseGrant env grantId
  | .resumeGrant grantId => Optimized.resumeGrant env grantId
  | .setGrantFlags grantId flagsToSet flagsToClear =>
      Optimized.setGrantFlags env grantId flagsToSet flagsToClear
  | .getGrant grantId => Prod.fst <$> Optimized.getGrant env grantId
  | .claimableBitmask grantId => Prod.fst <$> Optimized.claimableBitmask env grantId
  | .withdraw grantId amount => Optimized.withdraw env grantId amount
  | .processMilestoneExpiry grantId => Prod.fst <$> Optimized.processMilestoneExpiry env grantId
  | .updateRate grantId newRate => Optimized.updateRate env grantId newRate
  | .setMilestoneDeadline grantId deadline => Optimized.setMilestoneDeadline env grantId deadline
  | .configureMilestoneOracles grantId oracles threshold disputeWindowSecs =>
      Optimized.configureMilestoneOracles env grantId oracles threshold disputeWindowSecs
  | .submitMilestoneEvidence grantId evidenceHash =>
      Optimized.submitMilestoneEvidence env grantId evidenceHash
  | .approveMilestone grantId oraclePublicKey signature =>
      Prod.fst <$> Optimized.approveMilestone host env grantId oraclePublicKey signature
  | .markMilestoneMet grantId => Optimized.markMilestoneMet env grantId
  | .clawbackMilestone grantId => Optimized.clawbackMilestone env grantId
  | .rageQuit grantId => Optimized.rageQuit env grantId
  | .selfTerminate grantId => Prod.fst <$> Optimized.selfTerminate host env grantId

/-- The `u64`, `u32` and `i128` values and the byte arrays of a call have their types. -/
def Call.typed : Call → Bool
  | .initializeContract _ => true
  | .createGrant grantId _ totalAmount flowRate _ =>
      grantId < U64.size && I128.InRange totalAmount && I128.InRange flowRate
  | .withdraw grantId amount => grantId < U64.size && I128.InRange amount
  | .updateRate grantId newRate => grantId < U64.size && I128.InRange newRate
  | .setMilestoneDeadline grantId deadline => grantId < U64.size && deadline < U64.size
  | .configureMilestoneOracles grantId oracles threshold disputeWindowSecs =>
      grantId < U64.size && oracles.all (fun oracle => oracle.length == 32) &&
        threshold < U32.size && disputeWindowSecs < U64.size
  | .submitMilestoneEvidence grantId evidenceHash =>
      grantId < U64.size && evidenceHash.length == 32
  | .approveMilestone grantId oraclePublicKey signature =>
      grantId < U64.size && oraclePublicKey.length == 32 && signature.length == 64
  | .cancelGrantBitmask grantId | .pauseGrant grantId | .resumeGrant grantId
  | .setGrantFlags grantId _ _ | .getGrant grantId | .claimableBitmask grantId
  | .processMilestoneExpiry grantId | .markMilestoneMet grantId | .clawbackMilestone grantId
  | .rageQuit grantId | .selfTerminate grantId => grantId < U64.size

def contract (host : Host) : Ledger.Contract Address Store Call Error where
  initial := {}
  typed := Call.typed
  exec := Call.exec host

/-! ### A deployment to run events on -/

namespace Demo

open GrantStream.AuditLog (toBeBytes)

/-- The contract with the hash 1. -/
def self : Address := ⟨[0, 0, 0, 0x12, 0, 0, 0, 1] ++ toBeBytes 32 1⟩

def admin : Address := ⟨[2]⟩

def grantee : Address := ⟨[3]⟩

def evidence : Bytes := List.replicate 32 9

/-- The public keys of three oracles. -/
def oracle₁ : Bytes :=
  toBeBytes 32 0x8a88e3dd7409f195fd52db2d3cba5d72ca6709bf1d94121bf3748801b40f6f5c

def oracle₂ : Bytes :=
  toBeBytes 32 0x8139770ea87d175f56a35466c34c7ecccb8d8a91b4ee37a25df60f5b8fc9b394

def oracle₃ : Bytes :=
  toBeBytes 32 0xed4928c628d1c2c6eae90338905995612959273a5c63f93636c14614ac8737d1

/-- Their signatures over the approval of `evidence` for grant 7 up to the time 110. -/
def signature₁ : Bytes :=
  toBeBytes 32 0x09343fc374e3e5ff8e1930a1851fd42078a011a585aa5ffee7fbb6027071a234 ++
    toBeBytes 32 0xfa383485af8630ea266575a11e3bbba2fd8c54217091ec81c9bd8b934d3e5f0d

def signature₂ : Bytes :=
  toBeBytes 32 0x15d547eee15a4666b2803056b78db91be8eb152a82650b7cdc82d3b8aa109d66 ++
    toBeBytes 32 0x69ae0578cffda5424e0d7fee75d5cc93043ee73363e053df3b0b704939682f0e

def signature₃ : Bytes :=
  toBeBytes 32 0xb43507322cc8e68b8393daa4eb53b29af9d7289b99a74a1f2869fb490e1e8d72 ++
    toBeBytes 32 0xf7ecda2456d4fc6d4c5e64864c7b34297666b154738989cf4427d15499a67904

/-- A host that accepts these signatures. There is no token. -/
def host : Host where
  ed25519Verify publicKey message signature :=
    message == milestoneApprovalTag ++ self.xdr ++ toBeBytes 8 7 ++ toBeBytes 8 110 ++ evidence &&
      [(oracle₁, signature₁), (oracle₂, signature₂), (oracle₃, signature₃)].contains
        (publicKey, signature)
  grantToken := none

def env : Env := .deployed (contract host) self { balance := fun _ _ => 0, log := [] }

theorem env_deployed : Ledger.Deployed (contract host) env := ⟨_, _, rfl⟩

def call (timestamp : Nat) (call : Call) : Ledger.Event Address Call :=
  ⟨timestamp, 0, .invoke [admin, grantee] call⟩

/-- An active grant of `1000`, of `1` a second. -/
def setUp : List (Ledger.Event Address Call) :=
  [call 0 (.initializeContract admin), call 0 (.createGrant 7 grantee 1000 1 statusActive)]

/-- An active milestone grant with evidence and three oracles, two of which have to approve. -/
def oracleGrant : List (Ledger.Event Address Call) :=
  [call 0 (.initializeContract admin),
    call 0 (.createGrant 7 grantee 1000 1 (statusActive ||| statusMilestoneBased)),
    call 0 (.configureMilestoneOracles 7 [oracle₁, oracle₂, oracle₃] 2 100),
    call 10 (.submitMilestoneEvidence 7 evidence)]

end Demo

end YieldTrust.Optimized
