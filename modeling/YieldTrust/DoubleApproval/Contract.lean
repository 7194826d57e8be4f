import YieldTrust.GrantStream.Types
import YieldTrust.Lib.Checked
import YieldTrust.Lib.Ledger

/-!
# YieldTrust.DoubleApproval.Contract

The double approval of high-value milestone payouts (`double_approval.rs`): a request is paid
after two approvers have approved it, within its approval window.
-/

namespace YieldTrust.DoubleApproval

open Fallible
open GrantStream (Address Bytes)

/-! ### Data -/

inductive ApprovalStatus where
  | pending
  | firstApproved
  | fullyApproved
  | executed
  | expired
  | cancelled
  deriving DecidableEq

structure DoubleApprovalRequest where
  grantId : Nat
  milestoneIndex : Nat
  amount : Int
  recipient : Address
  tokenAddress : Address
  firstApprover : Option Address
  secondApprover : Option Address
  createdAt : Nat
  expiresAt : Nat
  status : ApprovalStatus
  reason : Option String
  deriving DecidableEq

structure DoubleApprovalConfig where
  highValueThreshold : Int
  primaryApprover : Address
  secondaryApprover : Address
  approvalWindowSecs : Nat
  enabled : Bool
  deriving DecidableEq

def defaultHighValueThreshold : Int := 100000000000

/-- 7 days. -/
def defaultApprovalWindowSecs : Nat := 7 * 24 * 60 * 60

/-- The error codes that the modelled functions return. -/
inductive Error where
  | notInitialized
  | invalidAmount
  | invalidState
  | notAuthorized
  | grantNotFound
  deriving DecidableEq

structure Store where
  config : Option DoubleApprovalConfig := none
  /-- The request for a milestone, by grant and index. -/
  requests : Nat × Nat → Option DoubleApprovalRequest := fun _ => none

abbrev Env := Ledger.Env Address Store

abbrev Res (α : Type) := Fallible Error α

/-! ### The configuration -/

def initializeConfig (env : Env) (primaryApprover secondaryApprover : Address)
    (highValueThreshold : Option Int) (approvalWindowSecs : Option Nat) : Env :=
  let config : DoubleApprovalConfig :=
    { highValueThreshold := highValueThreshold.getD defaultHighValueThreshold
      primaryApprover, secondaryApprover
      approvalWindowSecs := approvalWindowSecs.getD defaultApprovalWindowSecs, enabled := true }
  { env with store := { env.store with config := some config } }

def getConfig (env : Env) : Res DoubleApprovalConfig := okOr env.store.config .notInitialized

def updateConfig (env : Env) (highValueThreshold : Option Int) (approvalWindowSecs : Option Nat)
    (enabled : Option Bool) : Res Env := do
  let config ← getConfig env
  ensure (∀ threshold ∈ highValueThreshold, 0 < threshold) .invalidAmount
  ensure (∀ window ∈ approvalWindowSecs, window ≠ 0) .invalidAmount
  return { env with store := { env.store with
    config := some { config with
      highValueThreshold := highValueThreshold.getD config.highValueThreshold
      approvalWindowSecs := approvalWindowSecs.getD config.approvalWindowSecs
      enabled := enabled.getD config.enabled } } }

def requiresDoubleApproval (env : Env) (amount : Int) : Res Bool := do
  ensure (0 < amount) .invalidAmount
  let config ← getConfig env
  return config.enabled && decide (config.highValueThreshold ≤ amount)

/-! ### Requests -/

/-- The shift drops the high bits of the time. -/
def requestId (now grantId : Nat) : Nat := ((now <<< 32) % U64.size) ||| (grantId &&& 0xFFFFFFFF)

def setRequest (env : Env) (key : Nat × Nat) (request : DoubleApprovalRequest) : Env :=
  { env with store := { env.store with
    requests := Function.update env.store.requests key (some request) } }

/-- A request that is stored for the milestone is overwritten. -/
def createRequest (env : Env) (grantId milestoneIndex : Nat) (amount : Int)
    (recipient tokenAddress : Address) (reason : Option String) : Res (Env × Nat) := do
  let required ← requiresDoubleApproval env amount
  ensure (required = true) .invalidState
  let config ← getConfig env
  let now := env.timestamp
  let expiresAt ← orTrap (U64.checkedAdd now config.approvalWindowSecs)
  let request : DoubleApprovalRequest :=
    { grantId, milestoneIndex, amount, recipient, tokenAddress, firstApprover := none
      secondApprover := none, createdAt := now, expiresAt, status := .pending, reason }
  return (setRequest env (grantId, milestoneIndex) request, requestId now grantId)

def getRequest (env : Env) (grantId milestoneIndex : Nat) : Res DoubleApprovalRequest :=
  okOr (env.store.requests (grantId, milestoneIndex)) .grantNotFound

/-- Go on until the request expires. Afterwards the status is written, and the error drops it. -/
def checkOpen (env : Env) (grantId milestoneIndex : Nat) (request : DoubleApprovalRequest) :
    Res Unit :=
  if request.expiresAt < env.timestamp then
    let _expired := setRequest env (grantId, milestoneIndex) { request with status := .expired }
    fail .invalidState
  else return ()

/-- Record an approval in the first place that is free. -/
def recordApproval (request : DoubleApprovalRequest) (approver : Address) :
    Res DoubleApprovalRequest :=
  if request.firstApprover = none then
    return { request with firstApprover := some approver, status := .firstApproved }
  else if request.secondApprover = none then
    return { request with secondApprover := some approver, status := .fullyApproved }
  else fail .invalidState

def approveRequest (env : Env) (grantId milestoneIndex : Nat) (approver : Address) : Res Env := do
  let request ← getRequest env grantId milestoneIndex
  let config ← getConfig env
  checkOpen env grantId milestoneIndex request
  ensure (request.status = .pending ∨ request.status = .firstApproved) .invalidState
  ensure (approver = config.primaryApprover ∨ approver = config.secondaryApprover) .notAuthorized
  ensure (request.firstApprover ≠ some approver) .invalidState
  ensure (request.secondApprover ≠ some approver) .invalidState
  let request ← recordApproval request approver
  return setRequest env (grantId, milestoneIndex) request

def executeRequest (env : Env) (grantId milestoneIndex : Nat) (executor : Address) :
    Res Env := do
  let request ← getRequest env grantId milestoneIndex
  ensure (request.status = .fullyApproved) .invalidState
  checkOpen env grantId milestoneIndex request
  let config ← getConfig env
  -- a fully approved request has both approvers, so that the defaults of the source do not matter
  ensure (executor = config.primaryApprover ∨ executor = config.secondaryApprover ∨
    some executor = request.firstApprover ∨ some executor = request.secondApprover) .notAuthorized
  let env ← env.transfer request.tokenAddress env.self request.recipient request.amount
  return setRequest env (grantId, milestoneIndex) { request with status := .executed }

def cancelRequest (env : Env) (grantId milestoneIndex : Nat) (canceller : Address) :
    Res Env := do
  let request ← getRequest env grantId milestoneIndex
  ensure (request.status = .pending ∨ request.status = .firstApproved) .invalidState
  let config ← getConfig env
  ensure (canceller = config.primaryApprover) .notAuthorized
  return setRequest env (grantId, milestoneIndex) { request with status := .cancelled }

/-! ### The contract -/

/-- The functions as calls, with their arguments. -/
inductive Call where
  | initializeConfig (primaryApprover secondaryApprover : Address)
      (highValueThreshold : Option Int) (approvalWindowSecs : Option Nat)
  | updateConfig (highValueThreshold : Option Int) (approvalWindowSecs : Option Nat)
      (enabled : Option Bool)
  | createRequest (grantId milestoneIndex : Nat) (amount : Int) (recipient tokenAddress : Address)
      (reason : Option String)
  | approveRequest (grantId milestoneIndex : Nat) (approver : Address)
  | executeRequest (grantId milestoneIndex : Nat) (executor : Address)
  | cancelRequest (grantId milestoneIndex : Nat) (canceller : Address)
  deriving DecidableEq

/-- Perform a call; its return value is dropped. -/
def Call.exec (env : Env) : Call → Res Env
  | .initializeConfig primaryApprover secondaryApprover highValueThreshold approvalWindowSecs =>
      return DoubleApproval.initializeConfig env primaryApprover secondaryApprover
        highValueThreshold approvalWindowSecs
  | .updateConfig highValueThreshold approvalWindowSecs enabled =>
      DoubleApproval.updateConfig env highValueThreshold approvalWindowSecs enabled
  | .createRequest grantId milestoneIndex amount recipient tokenAddress reason =>
      Prod.fst <$> DoubleApproval.createRequest env grantId milestoneIndex amount recipient
        tokenAddress reason
  | .approveRequest grantId milestoneIndex approver =>
      DoubleApproval.approveRequest env grantId milestoneIndex approver
  | .executeRequest grantId milestoneIndex executor =>
      DoubleApproval.executeRequest env grantId milestoneIndex executor
  | .cancelRequest grantId milestoneIndex canceller =>
      DoubleApproval.cancelRequest env grantId milestoneIndex canceller

def Call.typed : Call → Bool
  | .initializeConfig _ _ highValueThreshold approvalWindowSecs =>
      (∀ threshold ∈ highValueThreshold, I128.InRange threshold) ∧
        ∀ window ∈ approvalWindowSecs, window < U64.size
  | .updateConfig highValueThreshold approvalWindowSecs _ =>
      (∀ threshold ∈ highValueThreshold, I128.InRange threshold) ∧
        ∀ window ∈ approvalWindowSecs, window < U64.size
  | .createRequest grantId milestoneIndex amount _ _ _ =>
      grantId < U64.size ∧ milestoneIndex < U32.size ∧ I128.InRange amount
  | .approveRequest grantId milestoneIndex _ | .executeRequest grantId milestoneIndex _
  | .cancelRequest grantId milestoneIndex _ => grantId < U64.size ∧ milestoneIndex < U32.size

def contract : Ledger.Contract Address Store Call Error where
  initial := {}
  typed := Call.typed
  exec := Call.exec

abbrev Trace := Ledger.Trace Address Store Call

abbrev Step := Run.Step Env (Ledger.Event Address Call)

/-! ### A deployment to run events on -/

namespace Demo

def self : Address := ⟨[1]⟩

def admin : Address := ⟨[2]⟩

def oracle : Address := ⟨[3]⟩

def recipient : Address := ⟨[4]⟩

def token : Address := ⟨[5]⟩

def env : Env := Ledger.Env.deployed contract self
  { balance := fun _ holder => if holder = self then 20 else 0, log := [] }

def call (timestamp : Nat) (call : Call) : Ledger.Event Address Call :=
  ⟨timestamp, 0, .invoke [] call⟩

end Demo

end YieldTrust.DoubleApproval
