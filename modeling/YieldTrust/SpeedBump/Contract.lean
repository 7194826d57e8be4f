import YieldTrust.GrantStream.Types
import YieldTrust.Lib.Checked
import YieldTrust.Lib.KeyedList
import YieldTrust.Lib.Ledger

/-!
# YieldTrust.SpeedBump.Contract

The speed bump of the treasury (`speed_bump.rs`): a transfer of more than a tenth of the treasury
waits in a queue, in which the administrator can veto it before it is executed.
-/

namespace YieldTrust.SpeedBump

open Fallible
open GrantStream (Address)

/-! ### Data -/

/-- 72 hours. -/
def delaySeconds : Nat := 72 * 60 * 60

/-- 10%, in basis points. -/
def thresholdBps : Nat := 1000

structure PendingTransfer where
  id : Nat
  recipient : Address
  amount : Nat
  approvedAt : Nat
  executableAfter : Nat
  vetoed : Bool
  deriving DecidableEq

structure Store where
  admin : Option Address := none
  tokenContract : Option Address := none
  totalTreasury : Option Nat := none
  pendingTransfers : List PendingTransfer := []

abbrev Env := Ledger.Env Address Store

/-- The contract has no error codes: whatever goes wrong is a panic. -/
abbrev Res (α : Type) := Fallible Empty α

/-! ### Helpers -/

def assertAdmin (env : Env) (caller : Address) : Res Unit := do
  let admin ← orTrap env.store.admin
  require (caller = admin)

def doTransfer (env : Env) (recipient : Address) (amount : Nat) : Res Env := do
  let token ← orTrap env.store.tokenContract
  env.transfer token env.self recipient amount

/-- The shift drops the high bits of the amount. -/
def transferId (now amount : Nat) : Nat := now ^^^ ((amount <<< 8) % U64.size)

def queueTransfer (env : Env) (recipient : Address) (amount : Nat) : Res Env := do
  let now := env.timestamp
  let executableAfter ← orTrap (U64.checkedAdd now delaySeconds)
  let transfer : PendingTransfer :=
    { id := transferId now amount, recipient, amount, approvedAt := now, executableAfter
      vetoed := false }
  return { env with store := { env.store with
    pendingTransfers := env.store.pendingTransfers ++ [transfer] } }

/-- The first transfer of the queue with the id. -/
def findTransfer (transfers : List PendingTransfer) (id : Nat) : Option PendingTransfer :=
  transfers.find? fun transfer => transfer.id = id

/-- The queue without the first transfer with the id. -/
def removeTransfer (transfers : List PendingTransfer) (id : Nat) : List PendingTransfer :=
  transfers.eraseP fun transfer => transfer.id = id

/-! ### Entry points -/

/-- What `initialize` stores. -/
def initialStore (admin tokenContract : Address) (treasuryBalance : Nat) : Store where
  admin := some admin
  tokenContract := some tokenContract
  totalTreasury := some treasuryBalance

/-- Returns whether the transfer was made at once. -/
def approveTransfer (env : Env) (admin recipient : Address) (amount : Nat) : Res (Env × Bool) := do
  env.requireAuth admin
  assertAdmin env admin
  let treasury := env.store.totalTreasury.getD 0
  let scaled ← orTrap (U64.checkedMul treasury thresholdBps)
  let threshold := scaled / 10000
  if threshold < amount then
    let env ← queueTransfer env recipient amount
    return (env, false)
  else
    let env ← doTransfer env recipient amount
    return (env, true)

def executeTransfer (env : Env) (caller : Address) (transferId : Nat) : Res Env := do
  env.requireAuth caller
  assertAdmin env caller
  let transfers := env.store.pendingTransfers
  let transfer ← orTrap (findTransfer transfers transferId)
  require (transfer.vetoed = false)
  require (transfer.executableAfter ≤ env.timestamp)
  let env ← doTransfer env transfer.recipient transfer.amount
  return { env with store := { env.store with
    pendingTransfers := removeTransfer transfers transferId } }

def vetoTransfer (env : Env) (admin : Address) (transferId : Nat) : Res Env := do
  env.requireAuth admin
  assertAdmin env admin
  let transfers := env.store.pendingTransfers
  let transfer ← orTrap (findTransfer transfers transferId)
  require (env.timestamp < transfer.executableAfter)
  return { env with store := { env.store with
    pendingTransfers :=
      KeyedList.set PendingTransfer.id { transfer with vetoed := true } transfers } }

def updateTreasuryBalance (env : Env) (admin : Address) (newBalance : Nat) : Res Env := do
  env.requireAuth admin
  assertAdmin env admin
  return { env with store := { env.store with totalTreasury := some newBalance } }

/-! ### The contract -/

/-- The entry points after the initialization, with their arguments. -/
inductive Call where
  | approveTransfer (admin recipient : Address) (amount : Nat)
  | executeTransfer (caller : Address) (transferId : Nat)
  | vetoTransfer (admin : Address) (transferId : Nat)
  | updateTreasuryBalance (admin : Address) (newBalance : Nat)
  deriving DecidableEq

/-- Perform a call; its return value is dropped. -/
def Call.exec (env : Env) : Call → Res Env
  | .approveTransfer admin recipient amount =>
      Prod.fst <$> SpeedBump.approveTransfer env admin recipient amount
  | .executeTransfer caller transferId => SpeedBump.executeTransfer env caller transferId
  | .vetoTransfer admin transferId => SpeedBump.vetoTransfer env admin transferId
  | .updateTreasuryBalance admin newBalance =>
      SpeedBump.updateTreasuryBalance env admin newBalance

def Call.typed : Call → Bool
  | .approveTransfer _ _ amount => amount < U64.size
  | .executeTransfer _ transferId | .vetoTransfer _ transferId => transferId < U64.size
  | .updateTreasuryBalance _ newBalance => newBalance < U64.size

def contract : Ledger.Contract Address Store Call Empty where
  initial := {}
  typed := Call.typed
  exec := Call.exec

abbrev Trace := Ledger.Trace Address Store Call

abbrev Step := Run.Step Env (Ledger.Event Address Call)

/-! ### A deployment to run events on -/

namespace Demo

def self : Address := ⟨[1]⟩

def admin : Address := ⟨[2]⟩

def token : Address := ⟨[3]⟩

def recipient : Address := ⟨[4]⟩

/-- A treasury of 10, so that 2 wait in the queue. -/
def env : Env where
  timestamp := 0
  sequence := 0
  auths := []
  self := self
  tokens := { balance := fun _ holder => if holder = self then 10 else 0, log := [] }
  store := initialStore admin token 10

def call (timestamp : Nat) (call : Call) : Ledger.Event Address Call :=
  ⟨timestamp, 0, .invoke [admin] call⟩

end Demo

end YieldTrust.SpeedBump
