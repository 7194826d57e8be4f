import YieldTrust.Lib.KeyedList
import YieldTrust.Optimized.Contract

/-!
# YieldTrust.MultiToken.Contract

Grants of several tokens (`multi_token.rs`). They are operations of the same contract as the
grants with one token, and both are stored under the same keys.
-/

namespace YieldTrust.MultiToken

open Fallible
open GrantStream (Address Bytes)
open Optimized (Error StatusMask hasStatus setStatus clearStatus statusActive statusPaused
  statusCompleted validateStatusTransition)

/-! ### Data -/

structure TokenBalance where
  tokenAddress : Address
  /-- The total amount allocated for this token. -/
  totalAmount : Int
  withdrawn : Int
  claimable : Int
  flowRate : Int
  deriving DecidableEq

structure MultiTokenGrant where
  recipient : Address
  tokens : List TokenBalance
  lastUpdateTs : Nat
  rateUpdatedAt : Nat
  statusMask : StatusMask
  deriving DecidableEq

structure TokenWithdrawal where
  tokenAddress : Address
  amount : Int
  deriving DecidableEq

structure MultiTokenWithdrawResult where
  grantId : Nat
  successfulWithdrawals : List TokenWithdrawal
  failedWithdrawals : List TokenWithdrawal
  totalWithdrawn : Address → Option Int
  withdrawnAt : Nat

structure WrappedAssetConfig where
  issuer : Address
  /-- The balance to maintain for security. -/
  securityBuffer : Int
  isHalted : Bool

/-- What the contract stores. A key of a grant holds a record of one of the two types. -/
structure Store where
  optimized : Optimized.Store := {}
  grants : Nat → Option MultiTokenGrant := fun _ => none
  wrappedAsset : Address → Option WrappedAssetConfig := fun _ => none

abbrev Env := Ledger.Env Address Store

abbrev Res (α : Type) := Fallible Error α

/-! ### Helpers -/

def readAdmin (env : Env) : Res Address := okOr env.store.optimized.admin .notInitialized

def requireAdminAuth (env : Env) : Res Unit := do
  let admin ← readAdmin env
  env.requireAuth admin

/-- A record of the other type does not decode. -/
def readMultiTokenGrant (env : Env) (grantId : Nat) : Res MultiTokenGrant := do
  require (env.store.optimized.grants grantId = none)
  okOr (env.store.grants grantId) .grantNotFound

def writeMultiTokenGrant (env : Env) (grantId : Nat) (grant : MultiTokenGrant) : Env :=
  { env with store := { env.store with
      grants := Function.update env.store.grants grantId (some grant) } }

def validateTokenBalance (token : TokenBalance) : Res Unit := do
  ensure (0 < token.totalAmount) .invalidAmount
  ensure (0 ≤ token.flowRate) .invalidRate
  ensure (¬(token.withdrawn < 0 ∨ token.claimable < 0)) .invalidAmount
  ensure (token.withdrawn ≤ token.totalAmount) .invalidState

def validateTokenBalances (tokens : List TokenBalance) : Res Unit :=
  tokens.forM validateTokenBalance

def checkDuplicateTokens (tokens : List TokenBalance) : Res Unit :=
  ensure (tokens.map TokenBalance.tokenAddress).Nodup .grantAlreadyExists

def settleTokenBalance (elapsed : Nat) (token : TokenBalance) : Res TokenBalance :=
  if token.flowRate = 0 then
    pure token
  else do
    let accrued ← okOr (I128.checkedMul token.flowRate elapsed) .mathOverflow
    let accounted ← okOr (I128.checkedAdd token.withdrawn token.claimable) .mathOverflow
    ensure (accounted ≤ token.totalAmount) .invalidState
    let remaining ← okOr (I128.checkedSub token.totalAmount accounted) .mathOverflow
    let delta := if remaining < accrued then remaining else accrued
    let claimable ← okOr (I128.checkedAdd token.claimable delta) .mathOverflow
    return { token with claimable }

def settleMultiTokenGrant (grant : MultiTokenGrant) (now : Nat) : Res MultiTokenGrant := do
  ensure (grant.lastUpdateTs ≤ now) .invalidState
  let elapsed := now - grant.lastUpdateTs
  let grant := { grant with lastUpdateTs := now }
  if !hasStatus grant.statusMask statusActive || elapsed == 0 then
    return grant
  let tokens ← grant.tokens.mapM (settleTokenBalance elapsed)
  return { grant with tokens }

/-- The first entry of the token. -/
def findToken (tokens : List TokenBalance) (tokenAddress : Address) : Option TokenBalance :=
  tokens.find? fun token => token.tokenAddress = tokenAddress

/-- Store a new entry in the place of the first one of its token. -/
def setToken (tokens : List TokenBalance) (token : TokenBalance) : List TokenBalance :=
  KeyedList.set TokenBalance.tokenAddress token tokens

/-- An error is a value here: the caller goes on after it, and keeps the transfer that went
before it. -/
def processTokenWithdrawal (env : Env) (grant : MultiTokenGrant) (withdrawal : TokenWithdrawal) :
    Res (Env × Except Error (MultiTokenGrant × Int)) :=
  if withdrawal.amount ≤ 0 then
    pure (env, .error .invalidAmount)
  else match findToken grant.tokens withdrawal.tokenAddress with
    | none => pure (env, .error .grantNotFound)
    | some token =>
      if token.claimable < withdrawal.amount then
        pure (env, .error .invalidAmount)
      else do
        let env ← env.transfer withdrawal.tokenAddress env.self grant.recipient withdrawal.amount
        match I128.checkedSub token.claimable withdrawal.amount with
        | none => pure (env, .error .mathOverflow)
        | some claimable =>
          match I128.checkedAdd token.withdrawn withdrawal.amount with
          | none => pure (env, .error .mathOverflow)
          | some withdrawn =>
            let tokens := setToken grant.tokens { token with claimable, withdrawn }
            pure (env, .ok ({ grant with tokens }, withdrawal.amount))

def updateTokenFlowRate (grant : MultiTokenGrant) (tokenAddress : Address) (newFlowRate : Int) :
    Res MultiTokenGrant := do
  ensure (0 ≤ newFlowRate) .invalidRate
  let token ← okOr (findToken grant.tokens tokenAddress) .grantNotFound
  return { grant with tokens := setToken grant.tokens { token with flowRate := newFlowRate } }

/-- Whether everything is accounted for; a sum that overflows stops the call. -/
def isGrantFullyWithdrawn : List TokenBalance → Res Bool
  | [] => pure true
  | token :: tokens => do
    let accounted ← orTrap (I128.checkedAdd token.withdrawn token.claimable)
    if accounted < token.totalAmount then
      return false
    isGrantFullyWithdrawn tokens

/-! ### Entry points -/

def createMultiTokenGrant (env : Env) (grantId : Nat) (recipient : Address)
    (tokens : List TokenBalance) (initialStatusMask : StatusMask) : Res Env := do
  ensure (tokens ≠ []) .invalidAmount
  validateTokenBalances tokens
  checkDuplicateTokens tokens
  ensure (env.store.grants grantId = none ∧ env.store.optimized.grants grantId = none)
    .grantAlreadyExists
  validateStatusTransition 0 initialStatusMask
  let now := env.timestamp
  let env := writeMultiTokenGrant env grantId
    { recipient, tokens, lastUpdateTs := now, rateUpdatedAt := now
      statusMask := initialStatusMask }
  -- the administrator is only read for the event
  let _ ← readAdmin env
  return env

/-- The withdrawals that were processed so far. -/
structure Progress where
  env : Env
  grant : MultiTokenGrant
  successfulWithdrawals : List TokenWithdrawal
  failedWithdrawals : List TokenWithdrawal
  totalWithdrawn : Address → Option Int

def isHalted (env : Env) (tokenAddress : Address) : Bool :=
  match env.store.wrappedAsset tokenAddress with
  | some config => config.isHalted
  | none => false

/-- One round of the loop of `multiTokenWithdraw`. -/
def Progress.next (progress : Progress) (withdrawal : TokenWithdrawal) : Res Progress :=
  if isHalted progress.env withdrawal.tokenAddress then
    pure { progress with failedWithdrawals := progress.failedWithdrawals ++ [withdrawal] }
  else do
    let (env, outcome) ← processTokenWithdrawal progress.env progress.grant withdrawal
    match outcome with
    | .ok (grant, amountWithdrawn) =>
      return { progress with
        env, grant
        successfulWithdrawals := progress.successfulWithdrawals ++ [withdrawal]
        totalWithdrawn := Function.update progress.totalWithdrawn withdrawal.tokenAddress
          (some amountWithdrawn) }
    | .error _ =>
      return { progress with
        env, failedWithdrawals := progress.failedWithdrawals ++ [withdrawal] }

def multiTokenWithdraw (env : Env) (grantId : Nat) (withdrawals : List TokenWithdrawal) :
    Res (Env × MultiTokenWithdrawResult) := do
  ensure (withdrawals ≠ []) .invalidAmount
  let grant ← readMultiTokenGrant env grantId
  ensure (hasStatus grant.statusMask statusActive = true) .invalidState
  env.requireAuth grant.recipient
  let grant ← settleMultiTokenGrant grant env.timestamp
  let progress ← withdrawals.foldlM Progress.next
    { env, grant, successfulWithdrawals := [], failedWithdrawals := []
      totalWithdrawn := fun _ => none }
  let grant := progress.grant
  let full ← isGrantFullyWithdrawn grant.tokens
  let grant := if full then
      { grant with
        statusMask := clearStatus (setStatus grant.statusMask statusCompleted) statusActive }
    else grant
  let env := writeMultiTokenGrant progress.env grantId grant
  let _ ← readAdmin env
  return (env,
    { grantId
      successfulWithdrawals := progress.successfulWithdrawals
      failedWithdrawals := progress.failedWithdrawals
      totalWithdrawn := progress.totalWithdrawn
      withdrawnAt := env.timestamp })

def updateMultiTokenRates (env : Env) (grantId : Nat) (tokenUpdates : List TokenBalance) :
    Res Env := do
  requireAdminAuth env
  let grant ← readMultiTokenGrant env grantId
  ensure (hasStatus grant.statusMask statusActive = true ∨
    hasStatus grant.statusMask statusPaused = true) .invalidState
  let grant ← settleMultiTokenGrant grant env.timestamp
  let grant ← tokenUpdates.foldlM
    (fun grant update => updateTokenFlowRate grant update.tokenAddress update.flowRate) grant
  return writeMultiTokenGrant env grantId { grant with rateUpdatedAt := env.timestamp }

def addTokenToGrant (env : Env) (grantId : Nat) (tokenBalance : TokenBalance) : Res Env := do
  requireAdminAuth env
  let grant ← readMultiTokenGrant env grantId
  ensure (findToken grant.tokens tokenBalance.tokenAddress = none) .grantAlreadyExists
  ensure (¬(tokenBalance.totalAmount ≤ 0 ∨ tokenBalance.flowRate < 0)) .invalidAmount
  return writeMultiTokenGrant env grantId { grant with tokens := grant.tokens ++ [tokenBalance] }

/-- Only an entry with nothing left can be removed. -/
def checkRemovable (token : TokenBalance) : Res Unit := do
  ensure (token.claimable ≤ 0) .invalidState
  let remaining ← orTrap (I128.checkedSub token.totalAmount token.withdrawn)
  ensure (remaining ≤ 0) .invalidState

def removeTokenFromGrant (env : Env) (grantId : Nat) (tokenAddress : Address) : Res Env := do
  requireAdminAuth env
  let grant ← readMultiTokenGrant env grantId
  let grant ← settleMultiTokenGrant grant env.timestamp
  let (removed, newTokens) :=
    grant.tokens.partition fun token => token.tokenAddress = tokenAddress
  removed.forM checkRemovable
  ensure (removed ≠ []) .grantNotFound
  ensure (newTokens ≠ []) .invalidAmount
  return writeMultiTokenGrant env grantId { grant with tokens := newTokens }

def configureWrappedAsset (env : Env) (tokenAddress issuer : Address) (securityBuffer : Int) :
    Res Env := do
  requireAdminAuth env
  return { env with store := { env.store with
    wrappedAsset := Function.update env.store.wrappedAsset tokenAddress
      (some { issuer, securityBuffer, isHalted := false }) } }

def setAssetHalt (env : Env) (tokenAddress : Address) (halted : Bool) : Res Env := do
  requireAdminAuth env
  let config ← okOr (env.store.wrappedAsset tokenAddress) .notInitialized
  return { env with store := { env.store with
    wrappedAsset := Function.update env.store.wrappedAsset tokenAddress
      (some { config with isHalted := halted }) } }

/-! ### The contract -/

/-- The grant that an operation of the grants with one token is about. -/
def grantIdOf : Optimized.Call → Option Nat
  | .initializeContract _ => none
  | .createGrant grantId _ _ _ _ | .cancelGrantBitmask grantId | .pauseGrant grantId
  | .resumeGrant grantId | .setGrantFlags grantId _ _ | .getGrant grantId
  | .claimableBitmask grantId | .withdraw grantId _ | .processMilestoneExpiry grantId
  | .updateRate grantId _ | .setMilestoneDeadline grantId _
  | .configureMilestoneOracles grantId _ _ _ | .submitMilestoneEvidence grantId _
  | .approveMilestone grantId _ _ | .markMilestoneMet grantId | .clawbackMilestone grantId
  | .rageQuit grantId | .selfTerminate grantId => some grantId

/-- What the operations of the grants with one token see. -/
def Env.optimized (env : Env) : Optimized.Env :=
  { env with store := env.store.optimized }

/-- An operation of the grants with one token fails on a grant with several: it exists already,
or its record does not decode. -/
def optimizedCall (host : Optimized.Host) (env : Env) (call : Optimized.Call) : Res Env := do
  require (∀ grantId ∈ grantIdOf call, env.store.grants grantId = none)
  let result ← call.exec host env.optimized
  return { result with store := { env.store with optimized := result.store } }

/-- The entry points that can change the state, with their arguments. -/
inductive Call where
  | optimized (call : Optimized.Call)
  | createMultiTokenGrant (grantId : Nat) (recipient : Address) (tokens : List TokenBalance)
      (initialStatusMask : StatusMask)
  | multiTokenWithdraw (grantId : Nat) (withdrawals : List TokenWithdrawal)
  | updateMultiTokenRates (grantId : Nat) (tokenUpdates : List TokenBalance)
  | addTokenToGrant (grantId : Nat) (tokenBalance : TokenBalance)
  | removeTokenFromGrant (grantId : Nat) (tokenAddress : Address)
  | configureWrappedAsset (tokenAddress issuer : Address) (securityBuffer : Int)
  | setAssetHalt (tokenAddress : Address) (halted : Bool)
  deriving DecidableEq

/-- Perform a call; its return value is dropped. -/
def Call.exec (host : Optimized.Host) (env : Env) : Call → Res Env
  | .optimized call => optimizedCall host env call
  | .createMultiTokenGrant grantId recipient tokens initialStatusMask =>
      MultiToken.createMultiTokenGrant env grantId recipient tokens initialStatusMask
  | .multiTokenWithdraw grantId withdrawals =>
      Prod.fst <$> MultiToken.multiTokenWithdraw env grantId withdrawals
  | .updateMultiTokenRates grantId tokenUpdates =>
      MultiToken.updateMultiTokenRates env grantId tokenUpdates
  | .addTokenToGrant grantId tokenBalance => MultiToken.addTokenToGrant env grantId tokenBalance
  | .removeTokenFromGrant grantId tokenAddress =>
      MultiToken.removeTokenFromGrant env grantId tokenAddress
  | .configureWrappedAsset tokenAddress issuer securityBuffer =>
      MultiToken.configureWrappedAsset env tokenAddress issuer securityBuffer
  | .setAssetHalt tokenAddress halted => MultiToken.setAssetHalt env tokenAddress halted

/-- The amounts and the rate of an entry are `i128` values. -/
def TokenBalance.typed (token : TokenBalance) : Bool :=
  I128.InRange token.totalAmount && I128.InRange token.withdrawn &&
    I128.InRange token.claimable && I128.InRange token.flowRate

def Call.typed : Call → Bool
  | .optimized call => call.typed
  | .createMultiTokenGrant grantId _ tokens _ =>
      grantId < U64.size && tokens.all TokenBalance.typed
  | .multiTokenWithdraw grantId withdrawals =>
      grantId < U64.size && withdrawals.all fun withdrawal => I128.InRange withdrawal.amount
  | .updateMultiTokenRates grantId tokenUpdates =>
      grantId < U64.size && tokenUpdates.all TokenBalance.typed
  | .addTokenToGrant grantId tokenBalance => grantId < U64.size && tokenBalance.typed
  | .removeTokenFromGrant grantId _ => grantId < U64.size
  | .configureWrappedAsset _ _ securityBuffer => I128.InRange securityBuffer
  | .setAssetHalt _ _ => true

def contract (host : Optimized.Host) : Ledger.Contract Address Store Call Error where
  initial := {}
  typed := Call.typed
  exec := Call.exec host

/-! ### A deployment to run events on -/

namespace Demo

open Optimized.Demo (self admin grantee)

def host : Optimized.Host := Optimized.Demo.host

/-- Two tokens. -/
def tokenA : Address := ⟨[11]⟩

def tokenB : Address := ⟨[12]⟩

/-- A token that no grant starts with. -/
def tokenC : Address := ⟨[13]⟩

/-- A contract that holds 500 of every token. -/
def env : Env :=
  .deployed (contract host) self
    { balance := fun _ holder => if holder = self then 500 else 0, log := [] }

theorem env_deployed : Ledger.Deployed (contract host) env := ⟨_, _, rfl⟩

def call (timestamp : Nat) (auths : List Address) (call : Call) : Ledger.Event Address Call :=
  ⟨timestamp, 0, .invoke auths call⟩

/-- A fresh entry of `100`, of `1` a second. -/
def entry (tokenAddress : Address) : TokenBalance :=
  { tokenAddress, totalAmount := 100, withdrawn := 0, claimable := 0, flowRate := 1 }

def setUp : List (Ledger.Event Address Call) :=
  [call 0 [admin] (.optimized (.initializeContract admin)),
    call 0 [admin] (.createMultiTokenGrant 7 grantee [entry tokenA, entry tokenB] statusActive)]

end Demo

end YieldTrust.MultiToken
