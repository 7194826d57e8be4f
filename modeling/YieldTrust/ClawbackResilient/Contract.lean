import YieldTrust.GrantStream.Types
import YieldTrust.Lib.Checked
import YieldTrust.Lib.Ledger

/-!
# YieldTrust.ClawbackResilient.Contract

The share-based accounts (`clawback_resilient.rs`): users have shares of what the contract holds of
a token, whatever the issuer takes away or others add. The tracker does not move tokens itself:
they arrive and depart after its calls.
-/

namespace YieldTrust.ClawbackResilient

open Fallible
open GrantStream (Address)

/-! ### Data -/

/-- Six decimal places; the shares that nobody has. -/
def sharesScalingFactor : Int := 1000000

structure ShareBasedBalance where
  totalShares : Int
  userShares : Address → Option Int
  lastKnownBalance : Int
  balanceTimestamp : Nat
  tokenAddress : Address

structure BalanceAdjustmentEvent where
  oldBalance : Int
  newBalance : Int
  timestamp : Nat
  reason : String
  deriving DecidableEq

inductive BalanceError where
  | insufficientShares
  | mathOverflow
  | invalidAmount
  | zeroShares
  | notInitialized
  deriving DecidableEq

/-- By token. -/
structure Store where
  balances : Address → Option ShareBasedBalance := fun _ => none
  balanceEvents : Address → Option (List BalanceAdjustmentEvent) := fun _ => none

abbrev Env := Ledger.Env Address Store

abbrev Res (α : Type) := Fallible BalanceError α

/-! ### Helpers -/

def getShareBalance (env : Env) (tokenAddress : Address) : Res ShareBasedBalance :=
  okOr (env.store.balances tokenAddress) .notInitialized

/-- What the contract has of the token. -/
def getCurrentPhysicalBalance (env : Env) (tokenAddress : Address) : Int :=
  env.tokens.balance tokenAddress env.self

/-- The product with the scaled amount is not checked by the program. -/
def calculateSharesFromAmount (amount currentBalance totalShares : Int) : Res Int := do
  ensure (¬(currentBalance = 0 ∨ totalShares = 0)) .zeroShares
  let scaledAmount ← okOr (I128.checkedMul amount sharesScalingFactor) .mathOverflow
  let product ← orTrap (I128.checkedMul scaledAmount totalShares)
  let scaledShares ← okOr (I128.checkedDiv product currentBalance) .mathOverflow
  okOr (I128.checkedDiv scaledShares sharesScalingFactor) .mathOverflow

def calculateAmountFromShares (shares currentBalance totalShares : Int) : Res Int := do
  ensure (totalShares ≠ 0) .zeroShares
  let product ← orTrap (I128.checkedMul shares currentBalance)
  okOr (I128.checkedDiv product totalShares) .mathOverflow

def writeShareBalance (env : Env) (tokenAddress : Address) (shareBalance : ShareBasedBalance) :
    Env :=
  { env with store := { env.store with
    balances := Function.update env.store.balances tokenAddress (some shareBalance) } }

def getBalanceEvents (env : Env) (tokenAddress : Address) : List BalanceAdjustmentEvent :=
  (env.store.balanceEvents tokenAddress).getD []

/-! ### Entry points -/

/-- A tracker of the token that is already there is overwritten. -/
def initializeBalanceTracking (env : Env) (admin tokenAddress : Address) (initialBalance : Int) :
    Res Env := do
  env.requireAuth admin
  ensure (0 < initialBalance) .invalidAmount
  return writeShareBalance env tokenAddress
    { totalShares := sharesScalingFactor, userShares := fun _ => none
      lastKnownBalance := initialBalance, balanceTimestamp := env.timestamp, tokenAddress }

def addUserShares (env : Env) (admin tokenAddress user : Address) (amount : Int) : Res Env := do
  env.requireAuth admin
  ensure (0 < amount) .invalidAmount
  let shareBalance ← getShareBalance env tokenAddress
  let currentPhysicalBalance := getCurrentPhysicalBalance env tokenAddress
  let sharesToAdd ←
    calculateSharesFromAmount amount currentPhysicalBalance shareBalance.totalShares
  let currentUserShares := (shareBalance.userShares user).getD 0
  let newUserShares ← okOr (I128.checkedAdd currentUserShares sharesToAdd) .mathOverflow
  let totalShares ← okOr (I128.checkedAdd shareBalance.totalShares sharesToAdd) .mathOverflow
  return writeShareBalance env tokenAddress { shareBalance with
    userShares := Function.update shareBalance.userShares user (some newUserShares)
    totalShares
    lastKnownBalance := currentPhysicalBalance
    balanceTimestamp := env.timestamp }

/-- Returns the amount that is due to the user. -/
def removeUserShares (env : Env) (tokenAddress user : Address) (shares : Int) :
    Res (Env × Int) := do
  ensure (0 < shares) .invalidAmount
  let shareBalance ← getShareBalance env tokenAddress
  let currentUserShares := (shareBalance.userShares user).getD 0
  ensure (shares ≤ currentUserShares) .insufficientShares
  let currentPhysicalBalance := getCurrentPhysicalBalance env tokenAddress
  let tokenAmount ←
    calculateAmountFromShares shares currentPhysicalBalance shareBalance.totalShares
  let newUserShares ← okOr (I128.checkedSub currentUserShares shares) .insufficientShares
  let totalShares ← okOr (I128.checkedSub shareBalance.totalShares shares) .mathOverflow
  let env := writeShareBalance env tokenAddress { shareBalance with
    userShares := Function.update shareBalance.userShares user
      (if newUserShares = 0 then none else some newUserShares)
    totalShares
    lastKnownBalance := currentPhysicalBalance
    balanceTimestamp := env.timestamp }
  return (env, tokenAmount)

def getUserBalance (env : Env) (tokenAddress user : Address) : Res Int := do
  let shareBalance ← getShareBalance env tokenAddress
  let userShares := (shareBalance.userShares user).getD 0
  if userShares = 0 ∨ shareBalance.totalShares = 0 then return 0
  let product ← orTrap (I128.checkedMul userShares (getCurrentPhysicalBalance env tokenAddress))
  orTrap (I128.checkedDiv product shareBalance.totalShares)

def handleBalanceChange (env : Env) (tokenAddress : Address) : Res Env := do
  let shareBalance ← getShareBalance env tokenAddress
  let currentBalance := getCurrentPhysicalBalance env tokenAddress
  let lastBalance := shareBalance.lastKnownBalance
  if currentBalance = lastBalance then return env
  let adjustment : BalanceAdjustmentEvent :=
    { oldBalance := lastBalance, newBalance := currentBalance, timestamp := env.timestamp
      reason := if currentBalance < lastBalance then "External clawback detected"
        else "External deposit detected" }
  let events := getBalanceEvents env tokenAddress ++ [adjustment]
  let env := { env with store := { env.store with
    balanceEvents := Function.update env.store.balanceEvents tokenAddress (some events) } }
  return writeShareBalance env tokenAddress { shareBalance with
    lastKnownBalance := currentBalance, balanceTimestamp := env.timestamp }

/-! ### The tracker and its tokens -/

/-- The environment of a call at another time, with its authorizations. -/
def enter (env : Env) (timestamp : Nat) (auths : List Address) : Env :=
  { env with timestamp, auths }

/-- What happens to the accounts of the tokens. -/
inductive Operation where
  /-- Shares are added, and then the amount arrives. -/
  | deposit (admin tokenAddress user : Address) (amount : Int)
  /-- Shares are removed, and then the amount that was returned departs. -/
  | withdraw (tokenAddress user : Address) (shares : Int)
  /-- The tracker takes note of the balance. -/
  | notice (tokenAddress : Address)
  /-- Tokens are clawed back or added without the tracker. -/
  | external
  deriving DecidableEq

/-- Tokens moved: the contract has `amount` more of the token, and nothing else of it changed. -/
structure Moved (env env' : Env) (tokenAddress : Address) (amount : Int) : Prop where
  store : env'.store = env.store
  balance : getCurrentPhysicalBalance env' tokenAddress =
    getCurrentPhysicalBalance env tokenAddress + amount
  others : ∀ other, other ≠ tokenAddress →
    getCurrentPhysicalBalance env' other = getCurrentPhysicalBalance env other

/-- One operation. The calls are those of the program, at any time and by anyone. -/
inductive Next (env : Env) : Operation → Env → Prop
  | deposit {admin tokenAddress user : Address} {amount : Int} {timestamp : Nat}
      {auths : List Address} {result env' : Env}
      (hcall : addUserShares (enter env timestamp auths) admin tokenAddress user amount =
        .ok result)
      (harrival : Moved result env' tokenAddress amount) :
      Next env (.deposit admin tokenAddress user amount) env'
  | withdraw {tokenAddress user : Address} {shares returned : Int} {timestamp : Nat}
      {auths : List Address} {result env' : Env}
      (hcall : removeUserShares (enter env timestamp auths) tokenAddress user shares =
        .ok (result, returned))
      (hdeparture : Moved result env' tokenAddress (-returned)) :
      Next env (.withdraw tokenAddress user shares) env'
  | notice {tokenAddress : Address} {timestamp : Nat} {auths : List Address} {env' : Env}
      (hcall : handleBalanceChange (enter env timestamp auths) tokenAddress = .ok env') :
      Next env (.notice tokenAddress) env'
  | external {env' : Env} (hstore : env'.store = env.store)
      (hpositive : ∀ tokenAddress, 0 < getCurrentPhysicalBalance env tokenAddress →
        0 < getCurrentPhysicalBalance env' tokenAddress) :
      Next env .external env'

/-- The tracker of the token was just initialised, and the contract has some of the token. -/
def Initialized (tokenAddress : Address) (env : Env) : Prop :=
  (∃ before admin initialBalance,
    initializeBalanceTracking before admin tokenAddress initialBalance = .ok env) ∧
      0 < getCurrentPhysicalBalance env tokenAddress

abbrev Step := Run.Step Env Operation

abbrev Trace := List Step

/-! ### A deposit to look at -/

namespace Demo

def self : Address := ⟨[1]⟩

def admin : Address := ⟨[2]⟩

def token : Address := ⟨[3]⟩

def user : Address := ⟨[4]⟩

/-- The contract has three tokens for each share. -/
def env : Env :=
  { timestamp := 0, sequence := 0, auths := [admin], self
    tokens := { balance := fun _ _ => 3000000, log := [] }, store := {} }

def opened : Env := (initializeBalanceTracking env admin token 3000000).toOption.getD env

/-- Shares were added. -/
def added : Env :=
  (addUserShares (enter opened 1 [admin]) admin token user 500).toOption.getD opened

def deposited : Env := { added with tokens := added.tokens.mint token self 500 }

end Demo

end YieldTrust.ClawbackResilient
