import YieldTrust.GrantStream.Types
import YieldTrust.Lib.Checked
import YieldTrust.Lib.Ledger

/-!
# YieldTrust.GrantGovernance.Contract

The governance of the grants (`governance.rs`): proposals with a stake, conviction votes, their
execution by the council, and what becomes of the stakes.
-/

namespace YieldTrust.GrantGovernance

open Fallible
open GrantStream (Address Bytes)

/-! ### Data -/

inductive ProposalStatus where
  | active
  | passed
  | rejected
  | executed
  | optimistic
  | challenged
  deriving DecidableEq

inductive ProposalType where
  | general
  | setManualExchangeRate (rate : Int)
  deriving DecidableEq

structure Proposal where
  id : Nat
  proposer : Address
  title : String
  description : String
  votingDeadline : Nat
  status : ProposalStatus
  yesVotes : Int
  noVotes : Int
  totalVotingPower : Int
  stakeAmount : Int
  stakeReturned : Bool
  isOptimistic : Bool
  challengeDeadline : Nat
  proposalType : ProposalType
  deriving DecidableEq

structure Vote where
  voter : Address
  proposalId : Nat
  weight : Int
  votingPower : Int
  conviction : Int
  votedAt : Nat
  deriving DecidableEq

structure VotingPower where
  address : Address
  tokenBalance : Int
  votingPower : Int
  conviction : Int
  lastUpdated : Nat
  deriving DecidableEq

/-- The error codes that the modelled functions return. -/
inductive GovernanceError where
  | notInitialized
  | alreadyInitialized
  | proposalNotFound
  | votingEnded
  | invalidWeight
  | mathOverflow
  | quorumNotMet
  | thresholdNotMet
  | notCouncilMember
  | stakeAlreadyReturned
  | proposalNotConcluded
  | invalidOptimisticAmount
  | challengeWindowClosed
  | notOptimistic
  deriving DecidableEq

structure Store where
  governanceToken : Option Address := none
  votingThreshold : Option Int := none
  quorumThreshold : Option Int := none
  stakeToken : Option Address := none
  proposalStakeAmount : Option Int := none
  proposalIds : Option (List Nat) := none
  proposals : Nat → Option Proposal := fun _ => none
  votes : Address → Nat → Option Vote := fun _ _ => none
  votingPower : Address → Option VotingPower := fun _ => none
  councilMembers : Option (List Bytes) := none
  optimisticLimit : Option Int := none
  challengeBond : Option Int := none
  convictionAlpha : Option Int := none
  /-- The rate that `circuit_breakers.rs` uses instead of its oracle. -/
  manRate : Option Int := none
  oraFrozenDueToNoHeartbeat : Option Bool := none

abbrev Env := Ledger.Env Address Store

abbrev Res (α : Type) := Fallible GovernanceError α

/-! ### The council -/

def isCouncilMember (env : Env) (callerBytes : Bytes) : Bool :=
  (env.store.councilMembers.getD []).contains callerBytes

def requireCouncilAuth (env : Env) (caller : Address) : Res Unit := do
  env.requireAuth caller
  ensure (isCouncilMember env caller.xdr = true) .notCouncilMember

/-! ### Helpers -/

def getProposalIds (env : Env) : Res (List Nat) := okOr env.store.proposalIds .notInitialized

def getProposal (env : Env) (proposalId : Nat) : Res Proposal :=
  okOr (env.store.proposals proposalId) .proposalNotFound

def getGovernanceToken (env : Env) : Res Address := okOr env.store.governanceToken .notInitialized

def getVotingThreshold (env : Env) : Res Int := okOr env.store.votingThreshold .notInitialized

def getQuorumThreshold (env : Env) : Res Int := okOr env.store.quorumThreshold .notInitialized

def getStakeToken (env : Env) : Res Address := okOr env.store.stakeToken .notInitialized

def getProposalStakeAmount (env : Env) : Res Int :=
  okOr env.store.proposalStakeAmount .notInitialized

def setProposal (env : Env) (proposal : Proposal) : Env :=
  { env with store := { env.store with
    proposals := Function.update env.store.proposals proposal.id (some proposal) } }

/-- Newton's iteration from `x`, with `y` next. -/
def integerSqrtLoop (n x y : Nat) : Nat :=
  if y < x then integerSqrtLoop n y ((y + n / y) / 2) else x
termination_by x

def integerSqrt (n : Int) : Res Int :=
  if n ≤ 0 then return 0
  else do
    let succ ← orTrap (I128.checkedAdd n 1)
    return (integerSqrtLoop n.toNat n.toNat (succ.toNat / 2) : Int)

/-- Take the stake of a new proposal. -/
def takeStake (env : Env) (proposer : Address) : Res (Env × Int) := do
  let stakeToken ← getStakeToken env
  let stakeAmount ← getProposalStakeAmount env
  let env ← env.transfer stakeToken proposer env.self stakeAmount
  return (env, stakeAmount)

/-- Store a new proposal, and list it. -/
def addProposal (env : Env) (proposalIds : List Nat) (proposal : Proposal) : Env :=
  let env := setProposal env proposal
  { env with store := { env.store with proposalIds := some (proposalIds ++ [proposal.id]) } }

/-- The identifier after the last one. -/
def nextId (proposalIds : List Nat) (increment : Nat → Res Nat) : Res Nat :=
  match proposalIds.getLast? with
  | none => return 0
  | some lastId => increment lastId

/-! ### Entry points -/

/-- The parameters of the stake are not stored. -/
def initializeGovernance (env : Env) (governanceToken : Address)
    (votingThreshold quorumThreshold : Int) (_stakeToken : Address) (_proposalStakeAmount : Int) :
    Res Env := do
  ensure (env.store.governanceToken = none) .alreadyInitialized
  return { env with store := { env.store with
    governanceToken := some governanceToken
    votingThreshold := some votingThreshold
    quorumThreshold := some quorumThreshold
    proposalIds := some []
    councilMembers := some []
    optimisticLimit := some 500
    challengeBond := some 100
    convictionAlpha := some 9000 } }

/-- A member of the council may replace it, and anyone an empty one. -/
def requireAppointer (env : Env) (caller : Address) : Res Unit :=
  if env.store.councilMembers.getD [] ≠ [] then requireCouncilAuth env caller
  else env.requireAuth caller

def setCouncilMembers (env : Env) (caller : Address) (members : List Address) : Res Env := do
  requireAppointer env caller
  return { env with store := { env.store with
    councilMembers := some (members.map Address.xdr) } }

def proposeGrant (env : Env) (proposer : Address) (title description : String)
    (votingPeriod : Nat) : Res (Env × Nat) := do
  env.requireAuth proposer
  let (env, stakeAmount) ← takeStake env proposer
  let votingDeadline ← okOr (U64.checkedAdd env.timestamp votingPeriod) .mathOverflow
  let proposalIds ← getProposalIds env
  let id ← nextId proposalIds fun lastId => okOr (U64.checkedAdd lastId 1) .mathOverflow
  return (addProposal env proposalIds
    { id, proposer, title, description, votingDeadline, status := .active, yesVotes := 0
      noVotes := 0, totalVotingPower := 0, stakeAmount, stakeReturned := false
      isOptimistic := false, challengeDeadline := 0, proposalType := .general }, id)

def createProposal (env : Env) (proposer : Address) (title description : String)
    (votingPeriod : Nat) : Res (Env × Nat) :=
  proposeGrant env proposer title description votingPeriod

def proposeOptimisticGrant (env : Env) (proposer : Address) (title description : String)
    (amount : Int) : Res (Env × Nat) := do
  env.requireAuth proposer
  ensure (amount ≤ env.store.optimisticLimit.getD 500) .invalidOptimisticAmount
  let (env, stakeAmount) ← takeStake env proposer
  let challengeDeadline ← orTrap (U64.checkedAdd env.timestamp (48 * 3600))
  let proposalIds ← getProposalIds env
  let id ← nextId proposalIds fun lastId => orTrap (U64.checkedAdd lastId 1)
  return (addProposal env proposalIds
    { id, proposer, title, description, votingDeadline := challengeDeadline, status := .optimistic
      yesVotes := 0, noVotes := 0, totalVotingPower := 0, stakeAmount, stakeReturned := false
      isOptimistic := true, challengeDeadline, proposalType := .general }, id)

def createSetManualExchangeRateProposal (env : Env) (proposer : Address) (rate : Int)
    (votingPeriod : Nat) : Res (Env × Nat) := do
  env.requireAuth proposer
  let (env, stakeAmount) ← takeStake env proposer
  let votingDeadline ← okOr (U64.checkedAdd env.timestamp votingPeriod) .mathOverflow
  let proposalIds ← getProposalIds env
  let id ← nextId proposalIds fun lastId => orTrap (U64.checkedAdd lastId 1)
  return (addProposal env proposalIds
    { id, proposer, title := "Set Manual Exchange Rate"
      description := "Set manual exchange rate to " ++ toString rate, votingDeadline
      status := .active, yesVotes := 0, noVotes := 0, totalVotingPower := 0, stakeAmount
      stakeReturned := false, isOptimistic := false, challengeDeadline := 0
      proposalType := .setManualExchangeRate rate }, id)

def challengeOptimisticGrant (env : Env) (challenger : Address) (proposalId : Nat) :
    Res Env := do
  env.requireAuth challenger
  let proposal ← getProposal env proposalId
  ensure (proposal.isOptimistic = true ∧ proposal.status = .optimistic) .notOptimistic
  ensure (env.timestamp < proposal.challengeDeadline) .challengeWindowClosed
  let bond := env.store.challengeBond.getD 100
  let stakeToken ← getStakeToken env
  let env ← env.transfer stakeToken challenger env.self bond
  return setProposal env { proposal with status := .challenged }

/-- The record of an address starts again, with no conviction. -/
def calculateVotingPower (env : Env) (address : Address) : Res (Env × Int) := do
  let governanceToken ← getGovernanceToken env
  let tokenBalance := env.tokens.balance governanceToken address
  let votingPower ← integerSqrt tokenBalance
  let record : VotingPower :=
    { address, tokenBalance, votingPower, conviction := 0, lastUpdated := env.timestamp }
  return ({ env with store := { env.store with
    votingPower := Function.update env.store.votingPower address (some record) } }, votingPower)

/-- What is left of the conviction of a record, and the weight. -/
def currentConviction (record : VotingPower) (alpha weight : Int) : Int :=
  let decayed := ((I128.checkedMul record.conviction alpha).getD 0).tdiv 10000
  (I128.checkedAdd decayed weight).getD weight

/-- A stored vote of the voter is overwritten. -/
def quadraticVote (env : Env) (voter : Address) (proposalId : Nat) (weight : Int) : Res Env := do
  env.requireAuth voter
  ensure (0 < weight) .invalidWeight
  let proposal ← getProposal env proposalId
  let now := env.timestamp
  ensure (now < proposal.votingDeadline) .votingEnded
  ensure (proposal.status = .active) .votingEnded
  let (env, votingPower) ← calculateVotingPower env voter
  let record := (env.store.votingPower voter).getD
    { address := voter, tokenBalance := 0, votingPower, conviction := 0, lastUpdated := now }
  let alpha := env.store.convictionAlpha.getD 9000
  let conviction := currentConviction record alpha weight
  let record := { record with conviction, lastUpdated := now }
  let vote : Vote := { voter, proposalId, weight, votingPower, conviction, votedAt := now }
  let env := { env with store := { env.store with
    votingPower := Function.update env.store.votingPower voter (some record)
    votes := Function.update env.store.votes voter
      (Function.update (env.store.votes voter) proposalId (some vote)) } }
  let convictionWeight ← okOr (I128.checkedMul conviction weight) .mathOverflow
  let yesVotes ← okOr (I128.checkedAdd proposal.yesVotes convictionWeight) .mathOverflow
  let totalVotingPower ← okOr (I128.checkedAdd proposal.totalVotingPower votingPower) .mathOverflow
  return setProposal env { proposal with yesVotes, totalVotingPower }

/-- How many of the votes a proposal needs. -/
def requiredThreshold (proposal : Proposal) (votingThreshold : Int) : Res Int :=
  match proposal.proposalType with
  | .setManualExchangeRate _ => do
      let scaled ← orTrap (I128.checkedMul proposal.totalVotingPower 90)
      return scaled.tdiv 100
  | .general => return votingThreshold

/-- What the execution of a proposal does. -/
def perform (env : Env) : ProposalType → Env
  | .setManualExchangeRate rate => { env with store := { env.store with
      manRate := some rate, oraFrozenDueToNoHeartbeat := some false } }
  | .general => env

/-- Write the rejection, and return the error, which drops it. -/
def reject (env : Env) (proposal : Proposal) (e : GovernanceError) : Res Env :=
  let _rejected := setProposal env { proposal with status := .rejected }
  fail e

def executeProposal (env : Env) (caller : Address) (proposalId : Nat) : Res Env := do
  requireCouncilAuth env caller
  let proposal ← getProposal env proposalId
  ensure (proposal.votingDeadline ≤ env.timestamp) .votingEnded
  ensure (proposal.status = .active) .votingEnded
  let quorumThreshold ← getQuorumThreshold env
  let votingThreshold ← getVotingThreshold env
  if proposal.totalVotingPower < quorumThreshold then reject env proposal .quorumNotMet
  else
    let totalVotes := (I128.checkedAdd proposal.yesVotes proposal.noVotes).getD 0
    let required ← requiredThreshold proposal votingThreshold
    if totalVotes = 0 ∨ proposal.yesVotes < required then reject env proposal .thresholdNotMet
    else
      let env := setProposal env { proposal with status := .executed }
      return perform env proposal.proposalType

/-- Pay the stake of a proposal out, if it has one. -/
def payStake (env : Env) (target : Address) (stakeAmount : Int) : Res Env :=
  if 0 < stakeAmount then do
    let stakeToken ← getStakeToken env
    env.transfer stakeToken env.self target stakeAmount
  else return env

def refundStake (env : Env) (proposalId : Nat) : Res Env := do
  let proposal ← getProposal env proposalId
  ensure (proposal.status = .executed ∨ proposal.status = .rejected) .proposalNotConcluded
  ensure (proposal.stakeReturned = false) .stakeAlreadyReturned
  let env := setProposal env { proposal with stakeReturned := true }
  payStake env proposal.proposer proposal.stakeAmount

/-- Nobody checks who the administrator is. -/
def slashStake (env : Env) (admin targetTreasury : Address) (proposalId : Nat) : Res Env := do
  env.requireAuth admin
  let proposal ← getProposal env proposalId
  ensure (proposal.stakeReturned = false) .stakeAlreadyReturned
  let env := setProposal env { proposal with stakeReturned := true }
  payStake env targetTreasury proposal.stakeAmount

/-! ### The contract -/

/-- The entry points with their arguments. -/
inductive Call where
  | initializeGovernance (governanceToken : Address) (votingThreshold quorumThreshold : Int)
      (stakeToken : Address) (proposalStakeAmount : Int)
  | setCouncilMembers (caller : Address) (members : List Address)
  | createProposal (proposer : Address) (title description : String) (votingPeriod : Nat)
  | proposeOptimisticGrant (proposer : Address) (title description : String) (amount : Int)
  | createSetManualExchangeRateProposal (proposer : Address) (rate : Int) (votingPeriod : Nat)
  | challengeOptimisticGrant (challenger : Address) (proposalId : Nat)
  | quadraticVote (voter : Address) (proposalId : Nat) (weight : Int)
  | getVoterPower (voter : Address)
  | executeProposal (caller : Address) (proposalId : Nat)
  | refundStake (proposalId : Nat)
  | slashStake (admin targetTreasury : Address) (proposalId : Nat)
  deriving DecidableEq

/-- Perform a call; its return value is dropped. -/
def Call.exec (env : Env) : Call → Res Env
  | .initializeGovernance governanceToken votingThreshold quorumThreshold stakeToken
      proposalStakeAmount =>
      GrantGovernance.initializeGovernance env governanceToken votingThreshold quorumThreshold
        stakeToken proposalStakeAmount
  | .setCouncilMembers caller members => GrantGovernance.setCouncilMembers env caller members
  | .createProposal proposer title description votingPeriod =>
      Prod.fst <$> GrantGovernance.createProposal env proposer title description votingPeriod
  | .proposeOptimisticGrant proposer title description amount =>
      Prod.fst <$> GrantGovernance.proposeOptimisticGrant env proposer title description amount
  | .createSetManualExchangeRateProposal proposer rate votingPeriod =>
      Prod.fst <$>
        GrantGovernance.createSetManualExchangeRateProposal env proposer rate votingPeriod
  | .challengeOptimisticGrant challenger proposalId =>
      GrantGovernance.challengeOptimisticGrant env challenger proposalId
  | .quadraticVote voter proposalId weight =>
      GrantGovernance.quadraticVote env voter proposalId weight
  | .getVoterPower voter => Prod.fst <$> calculateVotingPower env voter
  | .executeProposal caller proposalId => GrantGovernance.executeProposal env caller proposalId
  | .refundStake proposalId => GrantGovernance.refundStake env proposalId
  | .slashStake admin targetTreasury proposalId =>
      GrantGovernance.slashStake env admin targetTreasury proposalId

def Call.typed : Call → Bool
  | .initializeGovernance _ votingThreshold quorumThreshold _ proposalStakeAmount =>
      I128.InRange votingThreshold ∧ I128.InRange quorumThreshold ∧
        I128.InRange proposalStakeAmount
  | .createProposal _ _ _ votingPeriod => votingPeriod < U64.size
  | .proposeOptimisticGrant _ _ _ amount => I128.InRange amount
  | .createSetManualExchangeRateProposal _ rate votingPeriod =>
      I128.InRange rate ∧ votingPeriod < U64.size
  | .quadraticVote _ proposalId weight => proposalId < U64.size ∧ I128.InRange weight
  | .challengeOptimisticGrant _ proposalId | .executeProposal _ proposalId
  | .refundStake proposalId | .slashStake _ _ proposalId => proposalId < U64.size
  | .setCouncilMembers _ _ | .getVoterPower _ => true

def contract : Ledger.Contract Address Store Call GovernanceError where
  initial := {}
  typed := Call.typed
  exec := Call.exec

abbrev Trace := Ledger.Trace Address Store Call

abbrev Step := Run.Step Env (Ledger.Event Address Call)

/-! ### A deployment to run events on -/

namespace Demo

def self : Address := ⟨[1]⟩

def proposer : Address := ⟨[2]⟩

def voter : Address := ⟨[3]⟩

def stakeToken : Address := ⟨[4]⟩

/-- Proposals have a stake of 5 and need 50 votes. -/
def env : Env where
  timestamp := 0
  sequence := 0
  auths := []
  self := self
  tokens := { balance := fun token _ => if token = stakeToken then 5 else 0, log := [] }
  store :=
    { governanceToken := some ⟨[5]⟩, votingThreshold := some 50, quorumThreshold := some 0
      stakeToken := some stakeToken, proposalStakeAmount := some 5, proposalIds := some []
      councilMembers := some [] }

def call (timestamp : Nat) (call : Call) : Ledger.Event Address Call :=
  ⟨timestamp, 0, .invoke [proposer, voter] call⟩

end Demo

end YieldTrust.GrantGovernance
