import YieldTrust.GrantStream.Types
import YieldTrust.Lib.Checked
import YieldTrust.Lib.KeyedList
import YieldTrust.Lib.Ledger

/-!
# YieldTrust.QuadraticVoting.Contract

The community grants (`quadratic_voting.rs`): holders of a token vote on proposals at a price that
grows with the square of their votes, and after the deadline a pool is shared out.
-/

namespace YieldTrust.QuadraticVoting

open Fallible
open GrantStream (Address)

/-! ### Data -/

/-- Six decimal places. -/
def qvPrecision : Nat := 1000000

def maxVotesPerProposal : Nat := 1000

/-- 7 days. -/
def votingDuration : Nat := 7 * 24 * 60 * 60

inductive ProposalStatus where
  | active
  | approved
  | rejected
  | expired
  deriving DecidableEq

structure Proposal where
  id : Nat
  grantAmount : Int
  description : String
  proposer : Address
  votesReceived : Nat
  uniqueVoters : Nat
  totalCost : Nat
  deadline : Nat
  status : ProposalStatus
  createdAt : Nat
  deriving DecidableEq

structure VoteRecord where
  voter : Address
  proposalId : Nat
  votes : Nat
  cost : Nat
  timestamp : Nat
  deriving DecidableEq

structure GrantAllocation where
  proposalId : Nat
  amount : Int
  votes : Nat
  uniqueVoters : Nat
  quadraticWeight : Nat
  deriving DecidableEq

structure VotingConfig where
  admin : Address
  votingToken : Address
  precision : Nat
  maxVotesPerProposal : Nat
  votingDuration : Nat
  deriving DecidableEq

/-- The error codes that the modelled functions return. -/
inductive QuadraticVotingError where
  | invalidAmount
  | insufficientTokens
  | proposalNotFound
  | votingEnded
  | tooManyVotes
  | alreadyVoted
  | notInitialized
  deriving DecidableEq

structure Store where
  qvConfig : Option VotingConfig := none
  proposals : Option (List Proposal) := none
  /-- By proposal and voter. -/
  voteRecords : Nat → Address → Option VoteRecord := fun _ _ => none
  spent : Address → Option Nat := fun _ => none

abbrev Env := Ledger.Env Address Store

abbrev Res (α : Type) := Fallible QuadraticVotingError α

/-! ### Costs -/

def calculateVoteCost (votes : Nat) : Res Nat := do
  let votesScaled ← orTrap (U128.checkedMul votes qvPrecision)
  let costScaled ← orTrap (U128.checkedMul votesScaled votesScaled)
  return costScaled / qvPrecision

/-- Newton's iteration from `x`, with `y` next. -/
def integerSqrtLoop (n x y : Nat) : Res Nat :=
  if y < x then do
    let quotient ← orTrap (U128.checkedDiv n y)
    let sum ← orTrap (U128.checkedAdd y quotient)
    integerSqrtLoop n y (sum / 2)
  else return x
termination_by x

def integerSqrt (n : Nat) : Res Nat :=
  if n = 0 then return 0
  else do
    let succ ← orTrap (U128.checkedAdd n 1)
    integerSqrtLoop n n (succ / 2)

def calculateVotesFromCost (cost : Nat) : Res Nat := do
  let costScaled ← orTrap (U128.checkedMul cost qvPrecision)
  let votesScaled ← integerSqrt costScaled
  return votesScaled / qvPrecision

def calculateQuadraticWeight (votes : Nat) : Res Nat := orTrap (U128.checkedMul votes votes)

/-! ### Helpers -/

def getVotingConfig (env : Env) : Res VotingConfig := okOr env.store.qvConfig .notInitialized

def getProposals (store : Store) : List Proposal := store.proposals.getD []

/-- The first proposal with the identifier. -/
def getProposal (env : Env) (proposalId : Nat) : Res Proposal :=
  okOr ((getProposals env.store).find? fun proposal => proposal.id = proposalId) .proposalNotFound

/-- The identifier after the largest one. -/
def getNextProposalId (env : Env) : Res Nat :=
  match getProposals env.store with
  | [] => return 1
  | proposals =>
      orTrap (U64.checkedAdd ((proposals.map Proposal.id).foldl max 0) 1)

def getVoterTokensSpent (env : Env) (voter : Address) : Nat := (env.store.spent voter).getD 0

def getProposalVotes (env : Env) (proposalId : Nat) (voter : Address) : Nat :=
  ((env.store.voteRecords proposalId voter).map (·.votes)).getD 0

/-- The updater keeps the identifier of a proposal. -/
def updateProposal (env : Env) (proposalId : Nat) (updater : Proposal → Res Proposal) :
    Res Env := do
  let proposal ← getProposal env proposalId
  let proposal ← updater proposal
  return { env with store := { env.store with
    proposals := some (KeyedList.set Proposal.id proposal (getProposals env.store)) } }

/-- A fixed amount. -/
def getAvailableGrantPool : Nat := 1000000000

/-! ### Entry points -/

def initializeVoting (env : Env) (admin votingToken : Address) : Res Env := do
  env.requireAuth admin
  let config : VotingConfig :=
    { admin, votingToken, precision := qvPrecision, maxVotesPerProposal, votingDuration }
  return { env with store := { env.store with qvConfig := some config } }

def createProposal (env : Env) (proposer : Address) (grantAmount : Int) (description : String) :
    Res (Env × Nat) := do
  ensure (0 < grantAmount) .invalidAmount
  let config ← getVotingConfig env
  let nextId ← getNextProposalId env
  let deadline ← orTrap (U64.checkedAdd env.timestamp config.votingDuration)
  let proposal : Proposal :=
    { id := nextId, grantAmount, description, proposer, votesReceived := 0, uniqueVoters := 0
      totalCost := 0, deadline, status := .active, createdAt := env.timestamp }
  let proposals := getProposals env.store ++ [proposal]
  return ({ env with store := { env.store with proposals := some proposals } }, nextId)

/-- Take the votes of `voter` into the proposal. `env` is read when this is done. -/
def countVote (env : Env) (voter : Address) (proposalId votes cost : Nat) (proposal : Proposal) :
    Res Proposal := do
  let currentVotes := getProposalVotes env proposalId voter
  let votesReceived ← orTrap (U128.checkedAdd proposal.votesReceived votes)
  let totalCost ← orTrap (U128.checkedAdd proposal.totalCost cost)
  let uniqueVoters ←
    if currentVotes = 0 then orTrap (U32.checkedAdd proposal.uniqueVoters 1)
    else pure proposal.uniqueVoters
  return { proposal with votesReceived, totalCost, uniqueVoters }

/-- Nobody has to authorize the vote. -/
def castVote (env : Env) (voter : Address) (proposalId votes : Nat) : Res Env := do
  ensure (votes ≠ 0) .invalidAmount
  let config ← getVotingConfig env
  let proposal ← getProposal env proposalId
  ensure (proposal.status = .active) .proposalNotFound
  ensure (env.timestamp ≤ proposal.deadline) .votingEnded
  ensure (votes ≤ config.maxVotesPerProposal) .tooManyVotes
  let cost ← calculateVoteCost votes
  let voterBalance := env.tokens.balance config.votingToken voter
  let alreadySpent := getVoterTokensSpent env voter
  let required ← orTrap (I128.checkedAdd (U128.toI128 alreadySpent) (U128.toI128 cost))
  ensure (required ≤ voterBalance) .insufficientTokens
  ensure (env.store.voteRecords proposalId voter = none) .alreadyVoted
  let voteRecord : VoteRecord := { voter, proposalId, votes, cost, timestamp := env.timestamp }
  let env := { env with store := { env.store with
    voteRecords := Function.update env.store.voteRecords proposalId
      (Function.update (env.store.voteRecords proposalId) voter (some voteRecord)) } }
  let totalSpent ← orTrap (U128.checkedAdd alreadySpent cost)
  let env := { env with store := { env.store with
    spent := Function.update env.store.spent voter (some totalSpent) } }
  -- the record of this vote is already there
  updateProposal env proposalId (countVote env voter proposalId votes cost)

/-- The part of a weight in the pool. -/
def allocatedAmount (quadraticWeight totalWeight : Nat) : Res Nat := do
  let allocationRatio ←
    if 0 < totalWeight then do
      let scaled ← orTrap (U128.checkedMul quadraticWeight qvPrecision)
      pure (scaled / totalWeight)
    else pure 0
  let product ← orTrap (U128.checkedMul getAvailableGrantPool allocationRatio)
  return product / qvPrecision

/-- Allocate to one proposal that has ended. -/
def allocateGrant (totalWeight : Nat) (state : Env × List GrantAllocation) (proposal : Proposal) :
    Res (Env × List GrantAllocation) :=
  if proposal.votesReceived = 0 then return state
  else do
    let (env, allocations) := state
    let quadraticWeight ← calculateQuadraticWeight proposal.votesReceived
    let grantAmount ← allocatedAmount quadraticWeight totalWeight
    let allocation : GrantAllocation :=
      { proposalId := proposal.id, amount := U128.toI128 grantAmount
        votes := proposal.votesReceived, uniqueVoters := proposal.uniqueVoters, quadraticWeight }
    let env ← updateProposal env proposal.id fun proposal =>
      pure { proposal with status := if 0 < grantAmount then .approved else .rejected }
    return (env, allocations ++ [allocation])

/-- Add the weight of a proposal. -/
def addWeight (totalWeight : Nat) (proposal : Proposal) : Res Nat := do
  let weight ← calculateQuadraticWeight proposal.votesReceived
  orTrap (U128.checkedAdd totalWeight weight)

/-- Anyone can be the `admin`. -/
def allocateGrants (env : Env) (admin : Address) : Res (Env × List GrantAllocation) := do
  env.requireAuth admin
  let endedProposals := (getProposals env.store).filter fun proposal =>
    proposal.status = .active && proposal.deadline < env.timestamp
  if endedProposals.isEmpty then return (env, [])
  let totalWeight ← endedProposals.foldlM addWeight 0
  endedProposals.foldlM (allocateGrant totalWeight) (env, [])

/-! ### The contract -/

/-- The entry points that write, with their arguments. -/
inductive Call where
  | initializeVoting (admin votingToken : Address)
  | createProposal (proposer : Address) (grantAmount : Int) (description : String)
  | castVote (voter : Address) (proposalId votes : Nat)
  | allocateGrants (admin : Address)
  deriving DecidableEq

/-- Perform a call; its return value is dropped. -/
def Call.exec (env : Env) : Call → Res Env
  | .initializeVoting admin votingToken => QuadraticVoting.initializeVoting env admin votingToken
  | .createProposal proposer grantAmount description =>
      Prod.fst <$> QuadraticVoting.createProposal env proposer grantAmount description
  | .castVote voter proposalId votes => QuadraticVoting.castVote env voter proposalId votes
  | .allocateGrants admin => Prod.fst <$> QuadraticVoting.allocateGrants env admin

def Call.typed : Call → Bool
  | .initializeVoting _ _ | .allocateGrants _ => true
  | .createProposal _ grantAmount _ => I128.InRange grantAmount
  | .castVote _ proposalId votes => proposalId < U64.size ∧ votes < U128.size

def contract : Ledger.Contract Address Store Call QuadraticVotingError where
  initial := {}
  typed := Call.typed
  exec := Call.exec

abbrev Trace := Ledger.Trace Address Store Call

abbrev Step := Run.Step Env (Ledger.Event Address Call)

/-! ### A deployment to run events on -/

namespace Demo

def self : Address := ⟨[1]⟩

def admin : Address := ⟨[2]⟩

def token : Address := ⟨[3]⟩

def voter : Address := ⟨[4]⟩

/-- Everyone can afford votes. -/
def env : Env := Ledger.Env.deployed contract self { balance := fun _ _ => 10 ^ 9, log := [] }

def call (timestamp : Nat) (call : Call) : Ledger.Event Address Call :=
  ⟨timestamp, 0, .invoke [admin] call⟩

end Demo

end YieldTrust.QuadraticVoting
