import YieldTrust.GrantStream.Contract
import YieldTrust.Lib.Run

/-!
# YieldTrust.GrantStream.Calls

The contract on a ledger: the calls it accepts, and the transition system whose
runs are all the histories of one deployed contract.

* `Call` has one constructor for each entry point that can change something.
  The entry points that only read are functions of `Env` and appear in no run.
* A call that fails is rolled back. It still takes place at its own time.
* Between two calls other parties move the tokens they hold, tokens are minted,
  and temporary storage expires.
* `Env.tokens.log` lists the transfers of the current transaction.
-/

namespace YieldTrust.GrantStream

open Fallible

/-! ### Calls -/

/-- The entry points that can change the state, with their arguments. -/
inductive Call where
  | initializeContract (admin grantToken treasury oracle nativeToken : Address)
  | setSep38Rate (fiatAsset : String) (rate scale : Int)
      (oracleTimestamp sourceLedgerSequence : Nat)
  | createGrant (grantId : Nat) (recipient : Address) (totalAmount flowRate : Int)
      (warmupDuration : Nat) (validator donor : Option Address)
  | createConfidentialGrant (grantId : Nat) (recipient : Address) (amountCommitment : Int)
      (verifierKeyHash : Bytes)
  | confidentialClaim (grantId : Nat) (claimAmount : Int) (nullifier proof : Bytes)
  | withdraw (grantId : Nat) (amount : Int)
  | pauseStream (grantId : Nat) (reason : Option String)
  | resumeStream (grantId : Nat)
  | emergencyPause (reason : String)
  | proposeRateChange (grantId : Nat) (newRate : Int)
  | applyKpiMultiplier (grantId : Nat) (multiplier : Int)
  | rageQuit (grantId : Nat)
  | cancelGrant (grantId : Nat)
  | changeGrantee (grantId : Nat) (newGrantee : Address)
  | triggerGrantClawback (grantId : Nat) (reason : String) (contested : Bool)
  | resolveDisputedClawback (grantId : Nat) (releaseToDonor : Bool)
  | rescueTokens (tokenAddress : Address) (amount : Int) (target : Address)
  | setSanityOracle (sanityOracle : Address)
  | submitOraclePrice (newPrice : Int)
  | confirmOraclePrice (caller : Address) (confirmedPrice : Int)
  | updateTvlSnapshot (totalLiquidity : Int)
  | checkRentBalance
  | disableRentPreservationMode
  | resumeAfterVelocityCheck
  | triggerGrantDispute (grantId : Nat)
  | resumeGrantInitialization
  | withdrawValidator (grantId : Nat) (amount : Int)
  | setLegalMetadata (grantId : Nat) (legalHash : String) (requiresSignature : Bool)
  | signLegalMetadata (grantId : Nat)
  | submitMilestoneProof (grantId milestoneIndex : Nat) (proof : String) (nonce : Nat)
  | approveMilestoneSubmission (grantId milestoneIndex : Nat)
  | slashMsSubmissionDeposit (grantId milestoneIndex : Nat)
  | finalizeAndPurge (grantId : Nat) (purger : Address)
  | pruneFinalizedGrant (grantId : Nat) (relayer : Address)
  | heartbeatEmit (totalTvl : Int)
  | initializeRescueSigners (signers : List Address)
  | proposeRescue (proposer : Address) (kind : RescueKind) (rescueTo : Address) (amount : Int)
  | approveRescue (signer : Address) (proposalId : Nat)
  | executeRescue (caller : Address) (proposalId : Nat) (tokenAddress : Address)
  | cancelRescue (proposer : Address) (proposalId : Nat)
  | initializeSecurityCouncil (members : List Address)
  | createTimelockedAction (actionType : ActionType) (targetGrantId : Option Nat)
      (initiator : Address) (parameters : List Int)
  | councilSignVeto (actionId : Nat) (signer : Address)
  | executeTimelockedAction (actionId : Nat)
  | proposeCouncilRotation (newMembers : List Address) (daoAdmin : Address)
  | execCouncilRotation
  | protectedClawback (grantId : Nat) (initiator : Address)
  | executeProtectedClawback (actionId grantId : Nat)

/-- Perform a call; its return value is dropped. -/
def Call.exec (env : Env) : Call → Res Env
  | .initializeContract admin grantToken treasury oracle nativeToken =>
      GrantStream.initializeContract env admin grantToken treasury oracle nativeToken
  | .setSep38Rate fiatAsset rate scale oracleTimestamp sourceLedgerSequence =>
      GrantStream.setSep38Rate env fiatAsset rate scale oracleTimestamp sourceLedgerSequence
  | .createGrant grantId recipient totalAmount flowRate warmupDuration validator donor =>
      GrantStream.createGrant env grantId recipient totalAmount flowRate warmupDuration validator
        donor
  | .createConfidentialGrant grantId recipient amountCommitment verifierKeyHash =>
      GrantStream.createConfidentialGrant env grantId recipient amountCommitment verifierKeyHash
  | .confidentialClaim grantId claimAmount nullifier proof =>
      GrantStream.confidentialClaim env grantId claimAmount nullifier proof
  | .withdraw grantId amount => GrantStream.withdraw env grantId amount
  | .pauseStream grantId reason => GrantStream.pauseStream env grantId reason
  | .resumeStream grantId => GrantStream.resumeStream env grantId
  | .emergencyPause reason => GrantStream.emergencyPause env reason
  | .proposeRateChange grantId newRate => GrantStream.proposeRateChange env grantId newRate
  | .applyKpiMultiplier grantId multiplier =>
      GrantStream.applyKpiMultiplier env grantId multiplier
  | .rageQuit grantId => GrantStream.rageQuit env grantId
  | .cancelGrant grantId => GrantStream.cancelGrant env grantId
  | .changeGrantee grantId newGrantee => GrantStream.changeGrantee env grantId newGrantee
  | .triggerGrantClawback grantId reason contested =>
      GrantStream.triggerGrantClawback env grantId reason contested
  | .resolveDisputedClawback grantId releaseToDonor =>
      GrantStream.resolveDisputedClawback env grantId releaseToDonor
  | .rescueTokens tokenAddress amount target =>
      GrantStream.rescueTokens env tokenAddress amount target
  | .setSanityOracle sanityOracle => GrantStream.setSanityOracle env sanityOracle
  | .submitOraclePrice newPrice => Prod.fst <$> GrantStream.submitOraclePrice env newPrice
  | .confirmOraclePrice caller confirmedPrice =>
      GrantStream.confirmOraclePrice env caller confirmedPrice
  | .updateTvlSnapshot totalLiquidity => GrantStream.updateTvlSnapshot env totalLiquidity
  | .checkRentBalance => Prod.fst <$> GrantStream.checkRentBalance env
  | .disableRentPreservationMode => GrantStream.disableRentPreservationMode env
  | .resumeAfterVelocityCheck => GrantStream.resumeAfterVelocityCheck env
  | .triggerGrantDispute grantId => GrantStream.triggerGrantDispute env grantId
  | .resumeGrantInitialization => GrantStream.resumeGrantInitialization env
  | .withdrawValidator grantId amount => GrantStream.withdrawValidator env grantId amount
  | .setLegalMetadata grantId legalHash requiresSignature =>
      GrantStream.setLegalMetadata env grantId legalHash requiresSignature
  | .signLegalMetadata grantId => GrantStream.signLegalMetadata env grantId
  | .submitMilestoneProof grantId milestoneIndex proof nonce =>
      GrantStream.submitMilestoneProof env grantId milestoneIndex proof nonce
  | .approveMilestoneSubmission grantId milestoneIndex =>
      GrantStream.approveMilestoneSubmission env grantId milestoneIndex
  | .slashMsSubmissionDeposit grantId milestoneIndex =>
      GrantStream.slashMsSubmissionDeposit env grantId milestoneIndex
  | .finalizeAndPurge grantId purger => GrantStream.finalizeAndPurge env grantId purger
  | .pruneFinalizedGrant grantId relayer => GrantStream.pruneFinalizedGrant env grantId relayer
  | .heartbeatEmit totalTvl => Prod.fst <$> GrantStream.heartbeatEmit env totalTvl
  | .initializeRescueSigners signers => GrantStream.initializeRescueSigners env signers
  | .proposeRescue proposer kind rescueTo amount =>
      Prod.fst <$> GrantStream.proposeRescue env proposer kind rescueTo amount
  | .approveRescue signer proposalId => GrantStream.approveRescue env signer proposalId
  | .executeRescue caller proposalId tokenAddress =>
      GrantStream.executeRescue env caller proposalId tokenAddress
  | .cancelRescue proposer proposalId => GrantStream.cancelRescue env proposer proposalId
  | .initializeSecurityCouncil members => GrantStream.initializeSecurityCouncil env members
  | .createTimelockedAction actionType targetGrantId initiator parameters =>
      Prod.fst <$>
        GrantStream.createTimelockedAction env actionType targetGrantId initiator parameters
  | .councilSignVeto actionId signer => GrantStream.councilSignVeto env actionId signer
  | .executeTimelockedAction actionId => GrantStream.executeTimelockedAction env actionId
  | .proposeCouncilRotation newMembers daoAdmin =>
      GrantStream.proposeCouncilRotation env newMembers daoAdmin
  | .execCouncilRotation => GrantStream.execCouncilRotation env
  | .protectedClawback grantId initiator =>
      Prod.fst <$> GrantStream.protectedClawback env grantId initiator
  | .executeProtectedClawback actionId grantId =>
      GrantStream.executeProtectedClawback env actionId grantId

/-- The `i128` values that a call brings into the contract. -/
def Call.i128Args : Call → List Int
  | .setSep38Rate _ rate scale _ _ => [rate, scale]
  | .createGrant _ _ totalAmount flowRate _ _ _ => [totalAmount, flowRate]
  | .createConfidentialGrant _ _ amountCommitment _ => [amountCommitment]
  | .confidentialClaim _ claimAmount _ _ => [claimAmount]
  | .withdraw _ amount => [amount]
  | .withdrawValidator _ amount => [amount]
  | .proposeRateChange _ newRate => [newRate]
  | .applyKpiMultiplier _ multiplier => [multiplier]
  | .rescueTokens _ amount _ => [amount]
  | .submitOraclePrice newPrice => [newPrice]
  | .confirmOraclePrice _ confirmedPrice => [confirmedPrice]
  | .updateTvlSnapshot totalLiquidity => [totalLiquidity]
  | .heartbeatEmit totalTvl => [totalTvl]
  | .proposeRescue _ _ _ amount => [amount]
  | .createTimelockedAction _ _ _ parameters => parameters
  | _ => []

/-- The `u64` values (and the `u32` milestone index) that a call brings into the
contract; an id that only looks something up is not one of them. -/
def Call.u64Args : Call → List Nat
  | .setSep38Rate _ _ _ oracleTimestamp _ => [oracleTimestamp]
  | .createGrant grantId _ _ _ warmupDuration _ _ => [grantId, warmupDuration]
  | .createConfidentialGrant grantId _ _ _ => [grantId]
  | .submitMilestoneProof _ milestoneIndex _ nonce => [milestoneIndex, nonce]
  | .createTimelockedAction _ targetGrantId _ _ => targetGrantId.toList
  | .protectedClawback grantId _ => [grantId]
  | _ => []

/-- The arguments of a call are machine integers. -/
def Call.WellTyped (call : Call) : Prop :=
  (∀ x ∈ call.i128Args, I128.InRange x) ∧ ∀ n ∈ call.u64Args, n < U64.size

instance (call : Call) : Decidable call.WellTyped := inferInstanceAs (Decidable (_ ∧ _))

/-! ### Transactions and runs -/

/-- What happens on the ledger. -/
inductive Transaction where
  /-- Someone calls the contract; `auths` are the addresses that authorized it. -/
  | invoke (auths : List Address) (call : Call)
  /-- A holder other than the contract moves tokens. -/
  | tokenTransfer (token source target : Address) (amount : Int)
  /-- A token is minted. -/
  | tokenMint (token target : Address) (amount : Int)
  /-- The entry of a nullifier in temporary storage expires. -/
  | nullifierExpiry (nullifier : Bytes)

/-- A transaction in the ledger that closes at `timestamp`. -/
structure Event where
  timestamp : Nat
  sequence : Nat
  transaction : Transaction

/-- The environment at the start of the transaction of `event`. -/
def Env.enter (env : Env) (event : Event) : Env :=
  { env with
    timestamp := event.timestamp
    sequence := event.sequence
    auths := match event.transaction with
      | .invoke auths _ => auths
      | _ => []
    tokens := { env.tokens with log := [] } }

/-- Perform the transaction; a call that fails changes nothing. -/
def Transaction.exec (env : Env) : Transaction → Env
  | .invoke _ call => (call.exec env).toOption.getD env
  | .tokenTransfer token source target amount =>
      { env with tokens := (env.tokens.transfer token source target amount).getD env.tokens }
  | .tokenMint token target amount => { env with tokens := env.tokens.mint token target amount }
  | .nullifierExpiry nullifier =>
      { env with
        confidentialNullifier := Function.update env.confidentialNullifier nullifier false }

def execute (env : Env) (event : Event) : Env := event.transaction.exec (env.enter event)

/-- The result of `call` at `timestamp`, authorized by `auths`. -/
def Env.attempt (env : Env) (timestamp sequence : Nat) (auths : List Address) (call : Call) :
    Res Env := call.exec (env.enter ⟨timestamp, sequence, .invoke auths call⟩)

/-- Arguments are machine integers, and nobody but the contract moves the
contract's tokens. -/
def Transaction.WellTyped (self : Address) : Transaction → Prop
  | .invoke _ call => call.WellTyped
  | .tokenTransfer _ source _ _ => source ≠ self
  | .tokenMint _ _ amount => 0 ≤ amount
  | .nullifierExpiry _ => True

instance (self : Address) : (t : Transaction) → Decidable (t.WellTyped self)
  | .invoke _ call => inferInstanceAs (Decidable call.WellTyped)
  | .tokenTransfer _ source _ _ => inferInstanceAs (Decidable (source ≠ self))
  | .tokenMint _ _ amount => inferInstanceAs (Decidable (0 ≤ amount))
  | .nullifierExpiry _ => inferInstanceAs (Decidable True)

/-- What can happen on the ledger next. Time does not go back. -/
structure Admissible (env : Env) (event : Event) : Prop where
  timestamp_le : env.timestamp ≤ event.timestamp
  timestamp_lt : event.timestamp < U64.size
  wellTyped : event.transaction.WellTyped env.self

instance (env : Env) (event : Event) : Decidable (Admissible env event) :=
  decidable_of_iff
    (env.timestamp ≤ event.timestamp ∧ event.timestamp < U64.size ∧
      event.transaction.WellTyped env.self)
    ⟨fun ⟨h₁, h₂, h₃⟩ => ⟨h₁, h₂, h₃⟩, fun ⟨h₁, h₂, h₃⟩ => ⟨h₁, h₂, h₃⟩⟩

/-- The environment of a contract that was just deployed: nothing is stored yet. -/
def Env.deployed (self : Address) (host : HostFunctions) (tokens : TokenLedger Address) : Env :=
  { timestamp := 0, sequence := 0, auths := [], self, host, tokens }

def Deployed (env : Env) : Prop := ∃ self host tokens, env = Env.deployed self host tokens

/-- One event of the ledger. -/
def Next (env : Env) (event : Event) (env' : Env) : Prop :=
  Admissible env event ∧ env' = execute env event

/-- A history of the contract, newest event first. -/
abbrev Trace := List (Run.Step Env Event)

/-- `Reachable trace env`: the contract was deployed, the events of `trace` took
place, and `env` is what they left. -/
abbrev Reachable (trace : Trace) (env : Env) : Prop := Run Deployed Next trace env

/-! ### Performing a list of events -/

/-- The trace of `events`, oldest first, on a contract that was just deployed,
and the environment they leave. -/
def history (env : Env) (events : List Event) : Trace × Env := Run.replay execute env events

/-- Every event can happen after the ones before it. -/
def AllAdmissible : Env → List Event → Prop
  | _, [] => True
  | env, event :: events => Admissible env event ∧ AllAdmissible (execute env event) events

instance : (env : Env) → (events : List Event) → Decidable (AllAdmissible env events)
  | _, [] => inferInstanceAs (Decidable True)
  | env, event :: events =>
    have := instDecidableAllAdmissible (execute env event) events
    inferInstanceAs (Decidable (_ ∧ _))

theorem history_reachable {env : Env} {events : List Event} (h : Deployed env)
    (hadm : AllAdmissible env events) :
    Reachable (history env events).1 (history env events).2 := by
  refine Run.replay_run h ?_
  clear h
  induction events generalizing env with
  | nil => trivial
  | cons event events ih => exact ⟨⟨hadm.1, rfl⟩, ih hadm.2⟩

/-! ### A deployment to run events on -/

namespace Demo

def self : Address := ⟨[0]⟩

def admin : Address := ⟨[1]⟩

def token : Address := ⟨[2]⟩

def treasury : Address := ⟨[3]⟩

def oracle : Address := ⟨[4]⟩

def nativeToken : Address := ⟨[5]⟩

def grantee : Address := ⟨[6]⟩

def validator : Address := ⟨[7]⟩

def donor : Address := ⟨[8]⟩

def env : Env :=
  .deployed self { sha256 := id, i128ToXdr := fun _ => [], grantToXdr := fun _ => [] }
    { balance := fun _ _ => 0, log := [] }

theorem env_deployed : Deployed env := ⟨_, _, _, rfl⟩

/-- A call at `timestamp` that everybody has authorized. -/
def call (timestamp : Nat) (call : Call) : Event :=
  { timestamp, sequence := 0
    transaction := .invoke [admin, oracle, grantee, validator, donor] call }

/-- The contract is set up at time 1 and holds `funds`. -/
def setUp (funds : Int) : List Event :=
  [call 1 (.initializeContract admin token treasury oracle nativeToken),
    { timestamp := 1, sequence := 0, transaction := .tokenMint token self funds },
    { timestamp := 1, sequence := 0, transaction := .tokenMint nativeToken self (10 ^ 9) }]

end Demo

end YieldTrust.GrantStream
