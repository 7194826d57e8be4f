import Mathlib.Logic.Function.Basic
import YieldTrust.GrantStream.Types

/-!
# YieldTrust.GrantStream.MultiThreshold

`multi_threshold.rs`: rescue proposals that need 3 (standard) or 7 (emergency)
approvals of the ten registered signers. A function returns the rescue state it
leaves. The gas buffer is left out: it is only put into an event.
-/

namespace YieldTrust.GrantStream.MultiThreshold

open Fallible

def standardThreshold : Nat := 3

def emergencyThreshold : Nat := 7

def emergencySigners : Nat := 10

def isSigner (env : Env) (addr : Address) : Bool := addr.xdr ∈ env.rescue.signerBytes

def thresholdFor : RescueKind → Nat
  | .standard => standardThreshold
  | .emergency => emergencyThreshold

/-- Store a proposal under its id. -/
def writeProposal (rescue : RescueState) (id : Nat) (proposal : RescueProposal) : RescueState :=
  { rescue with proposal := Function.update rescue.proposal id (some proposal) }

/-- Register the signer set: exactly ten addresses. -/
def initializeSigners (env : Env) (signers : List Address) : Res RescueState := do
  ensure (signers.length = emergencySigners) .invalidAmount
  pure { env.rescue with signers, signerBytes := signers.map Address.xdr }

/-- Open a proposal, approved by its proposer. -/
def proposeRescue (env : Env) (proposer : Address) (kind : RescueKind) (rescueTo : Address)
    (amount : Int) : Res (RescueState × Nat) := do
  env.requireAuth proposer
  ensure (isSigner env proposer) .notRegisteredSigner
  ensure (amount > 0) .invalidAmount
  let id := U64.saturatingAdd env.rescue.proposalCounter 1
  let proposal : RescueProposal :=
    { id, kind, proposer, rescueTo, amount
      approvals := [proposer]
      status := .pending
      createdAt := env.timestamp }
  pure (writeProposal { env.rescue with proposalCounter := id } id proposal, id)

/-- Add an approval to a pending proposal. -/
def approveRescue (env : Env) (signer : Address) (proposalId : Nat) : Res RescueState := do
  env.requireAuth signer
  ensure (isSigner env signer) .notRegisteredSigner
  let proposal ← okOr (env.rescue.proposal proposalId) .proposalNotFound
  ensure (proposal.status = .pending) .proposalNotPending
  -- `panic!("already approved")`
  require (signer.xdr ∉ proposal.approvals.map Address.xdr)
  pure (writeProposal env.rescue proposalId
    { proposal with approvals := proposal.approvals ++ [signer] })

/-- Mark a proposal with enough approvals as executed; the destination and the
amount are for the caller to transfer. -/
def executeRescue (env : Env) (caller : Address) (proposalId : Nat) :
    Res (RescueState × Address × Int) := do
  env.requireAuth caller
  ensure (isSigner env caller) .notRegisteredSigner
  let proposal ← okOr (env.rescue.proposal proposalId) .proposalNotFound
  ensure (proposal.status = .pending) .proposalNotPending
  ensure (proposal.approvals.length ≥ thresholdFor proposal.kind) .insufficientApprovals
  pure (writeProposal env.rescue proposalId { proposal with status := .executed },
    proposal.rescueTo, proposal.amount)

/-- Cancel a pending proposal; only its proposer may. -/
def cancelRescue (env : Env) (proposer : Address) (proposalId : Nat) : Res RescueState := do
  env.requireAuth proposer
  let proposal ← okOr (env.rescue.proposal proposalId) .proposalNotFound
  ensure (proposal.proposer = proposer) .notAuthorized
  ensure (proposal.status = .pending) .proposalNotPending
  pure (writeProposal env.rescue proposalId { proposal with status := .cancelled })

end YieldTrust.GrantStream.MultiThreshold
