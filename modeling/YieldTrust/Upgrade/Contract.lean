import YieldTrust.GrantStream.Types
import YieldTrust.Lib.Checked
import YieldTrust.Lib.Ledger

/-!
# YieldTrust.Upgrade.Contract

The upgrade manager (`upgrade_manager.rs`): a new contract version is proposed, voted on until a
deadline, finalised after it, and executed 14 days after it at the earliest.
-/

namespace YieldTrust.Upgrade

open Fallible
open GrantStream (Address Bytes)

/-! ### Data -/

/-- 14 days. -/
def upgradeTimelockSecs : Nat := 14 * 24 * 60 * 60

/-- 75%, in basis points. -/
def upgradeMajorityBps : Nat := 7500

def bpsDenom : Nat := 10000

inductive UpgradeStatus where
  | proposed
  | approved
  | executed
  | cancelled
  deriving DecidableEq

structure UpgradeProposal where
  proposalId : Nat
  proposer : Address
  newWasmHash : Bytes
  description : String
  proposedAt : Nat
  executableAfter : Nat
  status : UpgradeStatus
  votesFor : Int
  votesAgainst : Int
  totalVotingPower : Int
  votingDeadline : Nat
  deriving DecidableEq

structure MigrationManifest where
  proposalId : Nat
  oldWasmHash : Bytes
  newWasmHash : Bytes
  migratedAt : Nat
  activeGrants : Nat
  totalLocked : Int
  milestoneClaimIds : List Nat
  deriving DecidableEq

/-- The error codes that the modelled functions return. -/
inductive UpgradeError where
  | proposalNotFound
  | votingEnded
  | votingStillActive
  | alreadyVoted
  | timelockNotExpired
  | proposalNotApproved
  | mathOverflow
  | invalidVotingPower
  deriving DecidableEq

structure Store where
  nextProposalId : Option Nat := none
  proposals : Nat → Option UpgradeProposal := fun _ => none
  proposalIds : Option (List Nat) := none
  /-- The marker of a voter, by proposal. -/
  votes : Nat → Address → Option Bool := fun _ _ => none
  latestMigration : Option MigrationManifest := none

abbrev Env := Ledger.Env Address Store

abbrev Res (α : Type) := Fallible UpgradeError α

/-! ### Helpers -/

/-- The identifier for a new proposal; the counter goes on. -/
def nextProposalId (env : Env) : Res (Env × Nat) := do
  let id := env.store.nextProposalId.getD 1
  let next ← orTrap (U64.checkedAdd id 1)
  return ({ env with store := { env.store with nextProposalId := some next } }, id)

def readProposal (env : Env) (proposalId : Nat) : Res UpgradeProposal :=
  okOr (env.store.proposals proposalId) .proposalNotFound

def writeProposal (env : Env) (proposal : UpgradeProposal) : Env :=
  { env with store := { env.store with
    proposals := Function.update env.store.proposals proposal.proposalId (some proposal) } }

/-- `votesFor` are at least 75% of `totalCast`. -/
def majorityMet (votesFor totalCast : Int) : Res Bool :=
  if 0 < totalCast then do
    let scaledFor ← orTrap (U128.checkedMul (U128.ofI128 votesFor) bpsDenom)
    let scaledCast ← orTrap (U128.checkedMul (U128.ofI128 totalCast) upgradeMajorityBps)
    return decide (scaledCast ≤ scaledFor)
  else return false

/-! ### Entry points -/

def proposeUpgrade (env : Env) (proposer : Address) (newWasmHash : Bytes) (description : String)
    (totalVotingPower : Int) (votingPeriodSecs : Nat) : Res (Env × Nat) := do
  env.requireAuth proposer
  ensure (0 < totalVotingPower) .invalidVotingPower
  let now := env.timestamp
  let (env, proposalId) ← nextProposalId env
  let votingDeadline ← orTrap (U64.checkedAdd now votingPeriodSecs)
  let executableAfter ← orTrap (U64.checkedAdd votingDeadline upgradeTimelockSecs)
  let proposal : UpgradeProposal :=
    { proposalId, proposer, newWasmHash, description, proposedAt := now, executableAfter
      status := .proposed, votesFor := 0, votesAgainst := 0, totalVotingPower, votingDeadline }
  let env := writeProposal env proposal
  let ids := env.store.proposalIds.getD []
  return ({ env with store := { env.store with proposalIds := some (ids ++ [proposalId]) } },
    proposalId)

/-- Count a vote. -/
def addVote (proposal : UpgradeProposal) (approve : Bool) (votingPower : Int) :
    Res UpgradeProposal :=
  if approve then do
    let votesFor ← okOr (I128.checkedAdd proposal.votesFor votingPower) .mathOverflow
    return { proposal with votesFor }
  else do
    let votesAgainst ← okOr (I128.checkedAdd proposal.votesAgainst votingPower) .mathOverflow
    return { proposal with votesAgainst }

def voteOnUpgrade (env : Env) (proposalId : Nat) (voter : Address) (approve : Bool)
    (votingPower : Int) : Res Env := do
  env.requireAuth voter
  ensure (0 < votingPower) .invalidVotingPower
  let proposal ← readProposal env proposalId
  ensure (env.timestamp ≤ proposal.votingDeadline) .votingEnded
  ensure (env.store.votes proposalId voter = none) .alreadyVoted
  let env := { env with store := { env.store with
    votes := Function.update env.store.votes proposalId
      (Function.update (env.store.votes proposalId) voter (some true)) } }
  let proposal ← addVote proposal approve votingPower
  return writeProposal env proposal

def finalizeVote (env : Env) (proposalId : Nat) : Res Env := do
  let proposal ← readProposal env proposalId
  ensure (proposal.votingDeadline < env.timestamp) .votingStillActive
  ensure (proposal.status = .proposed) .proposalNotFound
  let totalCast ← orTrap (I128.checkedAdd proposal.votesFor proposal.votesAgainst)
  let met ← majorityMet proposal.votesFor totalCast
  return writeProposal env { proposal with status := if met then .approved else .cancelled }

/-- Returns the hash of the new code. -/
def executeUpgrade (env : Env) (proposalId : Nat) (admin : Address) (activeGrants : Nat)
    (totalLocked : Int) (milestoneClaimIds : List Nat) (oldWasmHash : Bytes) :
    Res (Env × Bytes) := do
  env.requireAuth admin
  let proposal ← readProposal env proposalId
  ensure (proposal.status = .approved) .proposalNotApproved
  ensure (proposal.executableAfter ≤ env.timestamp) .timelockNotExpired
  let env := writeProposal env { proposal with status := .executed }
  let manifest : MigrationManifest :=
    { proposalId, oldWasmHash, newWasmHash := proposal.newWasmHash, migratedAt := env.timestamp
      activeGrants, totalLocked, milestoneClaimIds }
  return ({ env with store := { env.store with latestMigration := some manifest } },
    proposal.newWasmHash)

/-! ### The contract -/

/-- The entry points with their arguments. -/
inductive Call where
  | proposeUpgrade (proposer : Address) (newWasmHash : Bytes) (description : String)
      (totalVotingPower : Int) (votingPeriodSecs : Nat)
  | voteOnUpgrade (proposalId : Nat) (voter : Address) (approve : Bool) (votingPower : Int)
  | finalizeVote (proposalId : Nat)
  | executeUpgrade (proposalId : Nat) (admin : Address) (activeGrants : Nat) (totalLocked : Int)
      (milestoneClaimIds : List Nat) (oldWasmHash : Bytes)
  deriving DecidableEq

/-- Perform a call; its return value is dropped. -/
def Call.exec (env : Env) : Call → Res Env
  | .proposeUpgrade proposer newWasmHash description totalVotingPower votingPeriodSecs =>
      Prod.fst <$> Upgrade.proposeUpgrade env proposer newWasmHash description totalVotingPower
        votingPeriodSecs
  | .voteOnUpgrade proposalId voter approve votingPower =>
      Upgrade.voteOnUpgrade env proposalId voter approve votingPower
  | .finalizeVote proposalId => Upgrade.finalizeVote env proposalId
  | .executeUpgrade proposalId admin activeGrants totalLocked milestoneClaimIds oldWasmHash =>
      Prod.fst <$> Upgrade.executeUpgrade env proposalId admin activeGrants totalLocked
        milestoneClaimIds oldWasmHash

def Call.typed : Call → Bool
  | .proposeUpgrade _ newWasmHash _ totalVotingPower votingPeriodSecs =>
      newWasmHash.length = 32 ∧ I128.InRange totalVotingPower ∧ votingPeriodSecs < U64.size
  | .voteOnUpgrade proposalId _ _ votingPower =>
      proposalId < U64.size ∧ I128.InRange votingPower
  | .finalizeVote proposalId => proposalId < U64.size
  | .executeUpgrade proposalId _ activeGrants totalLocked milestoneClaimIds oldWasmHash =>
      proposalId < U64.size ∧ activeGrants < U32.size ∧ I128.InRange totalLocked ∧
        (∀ id ∈ milestoneClaimIds, id < U64.size) ∧ oldWasmHash.length = 32

def contract : Ledger.Contract Address Store Call UpgradeError where
  initial := {}
  typed := Call.typed
  exec := Call.exec

abbrev Trace := Ledger.Trace Address Store Call

abbrev Step := Run.Step Env (Ledger.Event Address Call)

/-! ### A deployment to run events on -/

namespace Demo

def self : Address := ⟨[1]⟩

def proposer : Address := ⟨[2]⟩

def voter : Address := ⟨[3]⟩

def wasmHash : Bytes := List.replicate 32 7

def env : Env := Ledger.Env.deployed contract self { balance := fun _ _ => 0, log := [] }

def call (timestamp : Nat) (call : Call) : Ledger.Event Address Call :=
  ⟨timestamp, 0, .invoke [proposer, voter] call⟩

end Demo

end YieldTrust.Upgrade
