import Mathlib.Logic.Function.Basic
import YieldTrust.GrantStream.Types

/-!
# YieldTrust.GrantStream.SecurityCouncil

`security_council.rs`: timelocked actions that a council of five can veto with
three signatures, and the rotation of the council. A function returns the
council state it leaves.
-/

namespace YieldTrust.GrantStream.SecurityCouncil

open Fallible

/-- The result of a function of the module. -/
abbrev CouncilRes (α : Type) := Fallible SecurityCouncilError α

def timelockDurationSecs : Nat := 48 * 60 * 60

def councilSize : Nat := 5

def requiredSignatures : Nat := 3

def keyRotationTimelockSecs : Nat := 7 * 24 * 60 * 60

/-! ### Helpers -/

/-- `address.require_auth()` -/
def requireAuth (env : Env) (address : Address) : CouncilRes Unit :=
  require (address ∈ env.auths)

def isCouncilMember (council : CouncilState) (address : Address) : Bool :=
  address ∈ council.councilMembers.getD []

def requireCouncilMember (env : Env) (address : Address) : CouncilRes Unit := do
  ensure (isCouncilMember env.council address) .notCouncilMember
  requireAuth env address

def readPendingAction (council : CouncilState) (actionId : Nat) : CouncilRes PendingAction :=
  okOr (council.pendingAction actionId) .actionNotFound

/-- Store an action under its own id. -/
def writePendingAction (council : CouncilState) (action : PendingAction) : CouncilState :=
  { council with
    pendingAction := Function.update council.pendingAction action.actionId (some action) }

/-- The entries of the member list that have signed. -/
def countVetoSignatures (council : CouncilState) (actionId : Nat) : Nat :=
  (council.councilMembers.getD []).countP fun member => council.vetoSignatures actionId member

/-! ### Public interface -/

/-- Register the five members, once. -/
def initializeCouncil (env : Env) (members : List Address) : CouncilRes CouncilState := do
  ensure (env.council.councilMembers = none) .notInitialized
  ensure (members.length = councilSize) .invalidCouncilSize
  pure { env.council with
    councilMembers := some members
    actionCounter := 0
    lastRotation := env.timestamp
    actionIds := [] }

/-- Queue an action; it can be executed after 48 hours. -/
def createPendingAction (env : Env) (actionType : ActionType) (targetGrantId : Option Nat)
    (initiator : Address) (parameters : List Int) : CouncilRes (CouncilState × Nat) := do
  requireAuth env initiator
  let now := env.timestamp
  let actionId ← orTrap (U64.checkedAdd env.council.actionCounter 1)
  let council := { env.council with actionCounter := actionId }
  let executableAt ← orTrap (U64.checkedAdd now timelockDurationSecs)
  let action : PendingAction :=
    { actionId, actionType, targetGrantId, initiator
      createdAt := now
      executableAt
      status := .pending
      parameters }
  let council := writePendingAction council action
  pure ({ council with actionIds := council.actionIds ++ [actionId] }, actionId)

/-- Sign to veto an action; the third signature blocks it. -/
def signVeto (env : Env) (actionId : Nat) (signer : Address) : CouncilRes CouncilState := do
  let action ← readPendingAction env.council actionId
  ensure (action.status = .pending) .actionAlreadyVetoed
  ensure (env.council.vetoSignatures actionId signer = false) .alreadySigned
  requireCouncilMember env signer
  let signatures := Function.update (env.council.vetoSignatures actionId) signer true
  let council := { env.council with
    vetoSignatures := Function.update env.council.vetoSignatures actionId signatures }
  if countVetoSignatures council actionId ≥ requiredSignatures then
    pure (writePendingAction council { action with status := .vetoed })
  else pure council

/-- Mark an action as executed once its timelock has expired. -/
def executeAction (env : Env) (actionId : Nat) : CouncilRes CouncilState := do
  let action ← readPendingAction env.council actionId
  ensure (action.status ≠ .vetoed) .actionAlreadyVetoed
  ensure (action.status ≠ .executed) .actionAlreadyExecuted
  ensure (env.timestamp ≥ action.executableAt) .timelockNotExpired
  pure (writePendingAction env.council { action with status := .executed })

/-- The timelock has expired and nobody vetoed or executed the action. -/
def canExecuteAction (env : Env) (actionId : Nat) : CouncilRes Bool := do
  let action ← readPendingAction env.council actionId
  pure (decide (action.status = .pending) && decide (env.timestamp ≥ action.executableAt))

/-- Propose five new members; they can be installed after seven days. -/
def proposeCouncilRotation (env : Env) (newMembers : List Address) (daoAdmin : Address) :
    CouncilRes CouncilState := do
  requireAuth env daoAdmin
  ensure (newMembers.length = councilSize) .invalidCouncilSize
  let now := env.timestamp
  let executableAt ← orTrap (U64.checkedAdd now keyRotationTimelockSecs)
  pure { env.council with
    pendingRotation := some
      { proposedMembers := newMembers
        proposedAt := now
        executableAt
        daoApproved := true
        executed := false } }

/-- Install the proposed members. -/
def executeCouncilRotation (env : Env) : CouncilRes CouncilState := do
  let rotation ← okOr env.council.pendingRotation .rotationNotReady
  ensure (rotation.executed = false) .rotationNotReady
  ensure rotation.daoApproved .rotationNotApproved
  let now := env.timestamp
  ensure (now ≥ rotation.executableAt) .timelockNotExpired
  pure { env.council with
    councilMembers := some rotation.proposedMembers
    lastRotation := now
    pendingRotation := some { rotation with executed := true } }

end YieldTrust.GrantStream.SecurityCouncil
