import YieldTrust.Lib.Checked
import YieldTrust.Lib.Fallible
import YieldTrust.Lib.TokenLedger

/-!
# YieldTrust.GrantStream.Types

The data of the streaming contract: the records it stores (`lib.rs` and its
modules), its error codes, and `Env`, which is everything a call can see: the
ledger, who authorized the call, the token ledgers and the contract's storage.

Design points:

* An `i128` is an `Int` and a `u64` a `Nat`; the overflow checks are made where
  the source makes them (`YieldTrust.Lib.Checked`).
* A storage key with a parameter is a function from the parameter to
  `Option value`. A key whose readers all use the same default, and whose
  presence nothing tests, is stored as a value with that default.
* Events are not modelled: nothing in the contract reads them.
-/

namespace YieldTrust.GrantStream

/-- A byte string. -/
abbrev Bytes := List UInt8

/-- The address of an account or a contract, identified by its XDR encoding. -/
structure Address where
  xdr : Bytes
  deriving DecidableEq

/-! ### `lib.rs` -/

inductive GrantStatus where
  | active
  | paused
  | completed
  | cancelled
  | rageQuitted
  | clawbacked
  deriving DecidableEq

inductive StreamType where
  | fixedAmount
  | fixedEndDate
  deriving DecidableEq

/-- A grant as it is stored under `StorageKey::Grant(id)`. -/
structure Grant where
  recipient : Address
  totalAmount : Int
  withdrawn : Int
  claimable : Int
  flowRate : Int
  lastUpdateTs : Nat
  rateUpdatedAt : Nat
  lastClaimTime : Nat
  pendingRate : Int
  effectiveTimestamp : Nat
  status : GrantStatus
  redirect : Option Address
  streamType : StreamType
  startTime : Nat
  warmupDuration : Nat
  /-- Gets 5% of what accrues, if set. -/
  validator : Option Address
  validatorWithdrawn : Int
  validatorClaimable : Int
  legalHash : Option String
  /-- Nothing streams until the grantee has signed the legal document. -/
  requiresLegalSignature : Bool
  isLegalSigned : Bool
  pauseReason : Option String
  cancellationInitiatedAt : Nat
  clawbackEligible : Int
  donor : Option Address
  clawbackCheckpoint : Option Nat
  token : Address
  streamedAmount : Int
  deriving DecidableEq

structure Sep38Rate where
  baseAsset : Address
  quoteAsset : String
  rate : Int
  scale : Int
  oracleTimestamp : Nat
  sourceLedgerSequence : Nat
  deriving DecidableEq

structure Sep38Quote where
  baseAsset : Address
  quoteAsset : String
  tokenAmount : Int
  fiatValue : Int
  rate : Int
  scale : Int
  oracleTimestamp : Nat
  sourceLedgerSequence : Nat
  priceDataMissing : Bool
  deriving DecidableEq

structure ClaimFiatValue where
  grantId : Nat
  claimIndex : Nat
  recipient : Address
  tokenAddress : Address
  tokenAmount : Int
  fiatValue : Int
  fiatAsset : String
  rate : Int
  rateScale : Int
  oracleTimestamp : Nat
  oracleLedgerSequence : Nat
  claimLedgerSequence : Nat
  claimLedgerTimestamp : Nat
  priceDataMissing : Bool
  deriving DecidableEq

inductive GrantStreamError where
  | notInitialized
  | alreadyInitialized
  | notAuthorized
  | grantNotFound
  | grantAlreadyExists
  | invalidRate
  | invalidAmount
  | invalidState
  | mathOverflow
  | insufficientReserve
  | rescueWouldViolateAllocated
  | granteeMismatch
  | grantNotInactive
  | notValidator
  | kycMissing
  | grantNotPurgeable
  | oraclePriceFrozen
  | softPaused
  | grantInitializationHalted
  | oracleFrozen
  | rentPreservationMode
  | invalidTimestamp
  | invalidRecipient
  | invalidZKProof
  | withdrawalBelowMinimum
  | clawbackAlreadyExecuted
  | invalidClawbackReason
  | notDonorOrMultiSig
  | disputeEscrowNotFound
  | invalidNonce
  | submissionDepositNotFound
  | notRegisteredSigner
  | proposalNotFound
  | proposalNotPending
  | insufficientApprovals
  | notSanityOracle
  deriving DecidableEq

/-- The result of a call of the contract. -/
abbrev Res (α : Type) := Fallible GrantStreamError α

/-! ### `multi_threshold.rs` -/

inductive RescueKind where
  /-- 3-of-5. -/
  | standard
  /-- 7-of-10. -/
  | emergency
  deriving DecidableEq

inductive RescueStatus where
  | pending
  | executed
  | cancelled
  deriving DecidableEq

structure RescueProposal where
  id : Nat
  kind : RescueKind
  proposer : Address
  rescueTo : Address
  amount : Int
  approvals : List Address
  status : RescueStatus
  createdAt : Nat
  deriving DecidableEq

/-- What the module keeps under `RescueKey`. -/
structure RescueState where
  signers : List Address := []
  signerBytes : List Bytes := []
  proposal : Nat → Option RescueProposal := fun _ => none
  proposalCounter : Nat := 0

/-! ### `security_council.rs` -/

inductive ActionType where
  | clawback
  | emergencyPause
  | rateChange
  | treasuryWithdraw
  | adminChange
  deriving DecidableEq

inductive ActionStatus where
  | pending
  | executed
  | vetoed
  | expired
  deriving DecidableEq

structure PendingAction where
  actionId : Nat
  actionType : ActionType
  targetGrantId : Option Nat
  initiator : Address
  createdAt : Nat
  executableAt : Nat
  status : ActionStatus
  parameters : List Int
  deriving DecidableEq

structure CouncilRotation where
  proposedMembers : List Address
  proposedAt : Nat
  executableAt : Nat
  daoApproved : Bool
  executed : Bool
  deriving DecidableEq

inductive SecurityCouncilError where
  | notCouncilMember
  | insufficientSignatures
  | actionNotFound
  | actionAlreadyVetoed
  | actionAlreadyExecuted
  | timelockNotExpired
  | actionExpired
  | invalidCouncilSize
  | rotationNotReady
  | rotationNotApproved
  | alreadySigned
  | notInitialized
  deriving DecidableEq

/-- What the module keeps under its own `StorageKey`. -/
structure CouncilState where
  councilMembers : Option (List Address) := none
  pendingAction : Nat → Option PendingAction := fun _ => none
  actionCounter : Nat := 0
  /-- `Map<Address, bool>` of each action; an address not in the map is `false`. -/
  vetoSignatures : Nat → Address → Bool := fun _ _ => false
  lastRotation : Nat := 0
  pendingRotation : Option CouncilRotation := none
  actionIds : List Nat := []

/-! ### `circuit_breakers.rs`, `tax_reporting.rs`, `audit_log.rs`, `public_dashboard.rs` -/

/-- What `circuit_breakers.rs` keeps. The sanity oracle and the price freeze each
have two storage keys in the source, and both are kept apart here. -/
structure BreakerState where
  lastPric : Int := 0
  oraFrozen : Bool := false
  oraFrozenDueToNoHeartbeat : Bool := false
  oraHeart : Nat := 0
  /-- Key `SanityOra`, written by `set_sanity_oracle`. -/
  sanityOra : Option Address := none
  /-- Key `SanityOracle`, read by `confirm_oracle_price`. -/
  sanityOracle : Option Address := none
  /-- Key `OracleFrozen`, written by `confirm_oracle_price`. -/
  oracleFrozen : Bool := false
  tvlSnap : Int := 0
  velWinSt : Option Nat := none
  velAccum : Int := 0
  softPa : Bool := false
  dispWin : Option Nat := none
  dispAcc : Nat := 0
  actGntSn : Option Nat := none
  gntHalt : Bool := false
  rentPreservationMode : Bool := false

structure FlowRecord where
  timestamp : Nat
  cumulativeAmount : Int
  deriving DecidableEq

structure AuditState where
  txCounter : Nat := 0
  merkleLeaves : List Bytes := []
  merkleRoot : Option Bytes := none

structure DashboardState where
  lastHeartbeat : Nat := 0
  lastTvl : Int := 0

/-! ### The environment of a call -/

/-- Functions of the host that the contract calls and whose definition is not
part of it: the hash and the XDR encodings of a number and of a grant. -/
structure HostFunctions where
  sha256 : Bytes → Bytes
  i128ToXdr : Int → Bytes
  grantToXdr : Grant → Bytes

/-- Everything a call of the contract reads and writes. -/
structure Env where
  /-- `env.ledger().timestamp()` -/
  timestamp : Nat
  /-- `env.ledger().sequence()` -/
  sequence : Nat
  /-- The addresses that authorized this call. -/
  auths : List Address
  /-- `env.current_contract_address()` -/
  self : Address
  host : HostFunctions
  tokens : TokenLedger Address
  admin : Option Address := none
  grantToken : Option Address := none
  treasury : Option Address := none
  oracle : Option Address := none
  nativeToken : Option Address := none
  grantIds : List Nat := []
  grants : Nat → Option Grant := fun _ => none
  recipientGrants : Address → List Nat := fun _ => []
  disputeEscrow : Nat → Option Int := fun _ => none
  clawbackCheckpoint : Nat → Option Nat := fun _ => none
  protocolPauseReason : Option String := none
  sep38DefaultFiat : String := "USD"
  sep38Rate : Address → String → Option Sep38Rate := fun _ _ => none
  claimValueCounter : Nat → Option Nat := fun _ => none
  claimValue : Nat → Nat → Option ClaimFiatValue := fun _ _ => none
  milestoneSubmitNonce : Nat → Option Nat := fun _ => none
  /-- Persistent storage. -/
  milestone : Nat → Nat → Option String := fun _ _ => none
  milestoneSubmissionDeposit : Nat → Nat → Option Int := fun _ _ => none
  /-- Persistent storage. -/
  tombstone : Nat → Option Bytes := fun _ => none
  confidentialGrantRecipient : Nat → Option Address := fun _ => none
  confidentialGrantVerifierKeyHash : Nat → Option Bytes := fun _ => none
  confidentialGrantCommitment : Nat → Option Int := fun _ => none
  /-- Temporary storage: the nullifiers whose entry has not expired. -/
  confidentialNullifier : Bytes → Bool := fun _ => false
  breakers : BreakerState := {}
  rescue : RescueState := {}
  council : CouncilState := {}
  flowHistory : Address → List FlowRecord := fun _ => []
  audit : AuditState := {}
  dashboard : DashboardState := {}

namespace Env

/-- `address.require_auth()`: the host traps unless `address` authorized the call. -/
def requireAuth (env : Env) (address : Address) : Res Unit :=
  Fallible.require (address ∈ env.auths)

/-- `token::Client::transfer`; a failed transfer traps. -/
def transfer (env : Env) (token source target : Address) (amount : Int) : Res Env := do
  let tokens ← Fallible.orTrap (env.tokens.transfer token source target amount)
  pure { env with tokens }

/-- `token::Client::balance` -/
def balanceOf (env : Env) (token holder : Address) : Int := env.tokens.balance token holder

end Env

end YieldTrust.GrantStream
