import YieldTrust.GrantStream.Types
import YieldTrust.Lib.Checked
import YieldTrust.Lib.Ledger

/-!
# YieldTrust.FlashLoan.Contract

The defense of the matching pools against flash loans (`flash_loan_defense.rs`): a deposit counts
toward the matching weight when it is 48 hours old. The pool keeps two sums of its deposits, the
mature and the pending ones, which a settlement moves along a list of depositors.
-/

namespace YieldTrust.FlashLoan

open Fallible
open GrantStream (Address)

/-! ### Data -/

/-- 48 hours. -/
def depositAgeRequirementSecs : Nat := 48 * 60 * 60

structure DepositRecord where
  depositor : Address
  poolToken : Address
  amount : Int
  depositedAt : Nat
  deriving DecidableEq

inductive FlashLoanDefenseError where
  | notInitialized
  | notAuthorized
  | invalidAmount
  | depositTooYoung
  | depositNotFound
  | insufficientBalance
  | mathOverflow
  deriving DecidableEq

/-- What is stored by the token of the pool, and by the depositor. -/
structure Store where
  depositLedger : Address → Address → Option DepositRecord := fun _ _ => none
  matureBalance : Address → Option Int := fun _ => none
  pendingBalance : Address → Option Int := fun _ => none

abbrev Env := Ledger.Env Address Store

abbrev Res (α : Type) := Fallible FlashLoanDefenseError α

/-! ### Storage -/

def setDeposit (env : Env) (poolToken depositor : Address) (record : Option DepositRecord) : Env :=
  { env with store := { env.store with
    depositLedger := Function.update env.store.depositLedger poolToken
      (Function.update (env.store.depositLedger poolToken) depositor record) } }

def setMature (env : Env) (poolToken : Address) (balance : Int) : Env :=
  { env with store := { env.store with
    matureBalance := Function.update env.store.matureBalance poolToken (some balance) } }

def setPending (env : Env) (poolToken : Address) (balance : Int) : Env :=
  { env with store := { env.store with
    pendingBalance := Function.update env.store.pendingBalance poolToken (some balance) } }

def getMaturePoolBalance (env : Env) (poolToken : Address) : Int :=
  (env.store.matureBalance poolToken).getD 0

def getPendingPoolBalance (env : Env) (poolToken : Address) : Int :=
  (env.store.pendingBalance poolToken).getD 0

/-! ### Entry points -/

/-- The amount of a deposit together with what the depositor has already. -/
def mergedAmount (env : Env) (poolToken depositor : Address) (amount : Int) : Res Int :=
  match env.store.depositLedger poolToken depositor with
  | some record => okOr (I128.checkedAdd record.amount amount) .mathOverflow
  | none => pure amount

/-- A further deposit makes the whole record new. -/
def recordDeposit (env : Env) (poolToken depositor : Address) (amount : Int) : Res Env := do
  ensure (0 < amount) .invalidAmount
  let now := env.timestamp
  let newAmount ← mergedAmount env poolToken depositor amount
  let record : DepositRecord := { depositor, poolToken, amount := newAmount, depositedAt := now }
  let env := setDeposit env poolToken depositor (some record)
  let newPending ←
    okOr (I128.checkedAdd (getPendingPoolBalance env poolToken) amount) .mathOverflow
  return setPending env poolToken newPending

/-- The amount of the record, once it is old enough. -/
def getMatchingWeight (env : Env) (poolToken depositor : Address) : Int :=
  match env.store.depositLedger poolToken depositor with
  | some record =>
      let age := env.timestamp - record.depositedAt
      if depositAgeRequirementSecs ≤ age then record.amount else 0
  | none => 0

def withdrawFromPool (env : Env) (poolToken depositor : Address) (amount : Int) : Res Env := do
  ensure (0 < amount) .invalidAmount
  let record ← okOr (env.store.depositLedger poolToken depositor) .depositNotFound
  let age := env.timestamp - record.depositedAt
  ensure (depositAgeRequirementSecs ≤ age) .depositTooYoung
  ensure (amount ≤ record.amount) .insufficientBalance
  let remaining ← orTrap (I128.checkedSub record.amount amount)
  let env := setDeposit env poolToken depositor
    (if remaining = 0 then none else some { record with amount := remaining })
  let newMature := I128.saturatingSub (getMaturePoolBalance env poolToken) amount
  return setMature env poolToken newMature

/-- One round of the loop over the depositors. -/
def settleDeposit (env : Env) (poolToken : Address) (newlyMatured : Int) (depositor : Address) :
    Res Int :=
  match env.store.depositLedger poolToken depositor with
  | some record =>
      let age := env.timestamp - record.depositedAt
      if depositAgeRequirementSecs ≤ age then
        okOr (I128.checkedAdd newlyMatured record.amount) .mathOverflow
      else pure newlyMatured
  | none => pure newlyMatured

/-- Returns what the listed depositors have that is old enough. -/
def settlePendingDeposits (env : Env) (poolToken : Address) (depositors : List Address) :
    Res (Env × Int) := do
  let newlyMatured ← depositors.foldlM (settleDeposit env poolToken) 0
  let newMature ←
    okOr (I128.checkedAdd (getMaturePoolBalance env poolToken) newlyMatured) .mathOverflow
  let env := setMature env poolToken newMature
  let newPending := I128.saturatingSub (getPendingPoolBalance env poolToken) newlyMatured
  return (setPending env poolToken newPending, newlyMatured)

/-! ### The contract -/

/-- The functions that change the storage, with their arguments. -/
inductive Call where
  | recordDeposit (poolToken depositor : Address) (amount : Int)
  | withdrawFromPool (poolToken depositor : Address) (amount : Int)
  | settlePendingDeposits (poolToken : Address) (depositors : List Address)
  deriving DecidableEq

/-- Perform a call; its return value is dropped. -/
def Call.exec (env : Env) : Call → Res Env
  | .recordDeposit poolToken depositor amount =>
      FlashLoan.recordDeposit env poolToken depositor amount
  | .withdrawFromPool poolToken depositor amount =>
      FlashLoan.withdrawFromPool env poolToken depositor amount
  | .settlePendingDeposits poolToken depositors =>
      Prod.fst <$> FlashLoan.settlePendingDeposits env poolToken depositors

def Call.typed : Call → Bool
  | .recordDeposit _ _ amount | .withdrawFromPool _ _ amount => decide (I128.InRange amount)
  | .settlePendingDeposits _ _ => true

def contract : Ledger.Contract Address Store Call FlashLoanDefenseError where
  initial := {}
  typed := Call.typed
  exec := Call.exec

abbrev Trace := Ledger.Trace Address Store Call

abbrev Step := Run.Step Env (Ledger.Event Address Call)

/-! ### A deployment to run events on -/

namespace Demo

def self : Address := ⟨[1]⟩

def token : Address := ⟨[2]⟩

def alice : Address := ⟨[3]⟩

def bob : Address := ⟨[4]⟩

def env : Env := Ledger.Env.deployed contract self { balance := fun _ _ => 0, log := [] }

def call (timestamp : Nat) (call : Call) : Ledger.Event Address Call :=
  ⟨timestamp, 0, .invoke [] call⟩

end Demo

end YieldTrust.FlashLoan
