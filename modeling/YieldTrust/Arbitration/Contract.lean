import YieldTrust.GrantStream.Types
import YieldTrust.Lib.Checked
import YieldTrust.Lib.Ledger

/-!
# YieldTrust.Arbitration.Contract

The arbitration escrow (`arbitration/src/lib.rs`): funders pay the amounts of their disputes into
one balance, and the arbitrators of the disputes award it.
-/

namespace YieldTrust.Arbitration

open Fallible
open GrantStream (Address)

/-! ### Data -/

inductive DisputeStatus where
  | pending
  | inArbitration
  | resolved
  deriving DecidableEq

structure Dispute where
  grantId : Nat
  funder : Address
  grantee : Address
  amount : Int
  status : DisputeStatus
  arbitrator : Address
  deriving DecidableEq

structure Store where
  admin : Option Address := none
  token : Option Address := none
  disputeCounter : Option Nat := none
  disputes : Nat → Option Dispute := fun _ => none

abbrev Env := Ledger.Env Address Store

/-- The contract has no error codes: whatever goes wrong is a panic. -/
abbrev Res (α : Type) := Fallible Empty α

/-! ### Entry points -/

/-- Nobody signs for the contract itself: it does not check signatures, and it is not its own
caller. -/
def requireAuth (env : Env) (addr : Address) : Res Unit := do
  require (addr ≠ env.self)
  env.requireAuth addr

def init (env : Env) (admin token : Address) : Res Env := do
  requireAuth env admin
  require (env.store.admin = none)
  return { env with store := { env.store with
    admin := some admin, token := some token, disputeCounter := some 0 } }

def raiseDispute (env : Env) (grantId : Nat) (funder grantee : Address) (amount : Int)
    (arbitrator : Address) : Res (Env × Nat) := do
  requireAuth env funder
  let token ← orTrap env.store.token
  let env ← env.transfer token funder env.self amount
  let counter ← orTrap env.store.disputeCounter
  let counter ← orTrap (U32.checkedAdd counter 1)
  let dispute : Dispute := { grantId, funder, grantee, amount, status := .pending, arbitrator }
  return ({ env with store := { env.store with
    disputeCounter := some counter
    disputes := Function.update env.store.disputes counter (some dispute) } }, counter)

/-- Only an award that is positive is paid. -/
def payAward (env : Env) (token recipient : Address) (award : Int) : Res Env :=
  if 0 < award then env.transfer token env.self recipient award else pure env

def resolveDispute (env : Env) (disputeId : Nat) (funderAward granteeAward : Int) : Res Env := do
  let dispute ← orTrap (env.store.disputes disputeId)
  requireAuth env dispute.arbitrator
  require (dispute.status ≠ .resolved)
  let awards ← orTrap (I128.checkedAdd funderAward granteeAward)
  require (awards ≤ dispute.amount)
  let token ← orTrap env.store.token
  let env ← payAward env token dispute.funder funderAward
  let env ← payAward env token dispute.grantee granteeAward
  return { env with store := { env.store with
    disputes := Function.update env.store.disputes disputeId
      (some { dispute with status := .resolved }) } }

/-! ### The contract -/

inductive Call where
  | init (admin token : Address)
  | raiseDispute (grantId : Nat) (funder grantee : Address) (amount : Int) (arbitrator : Address)
  | resolveDispute (disputeId : Nat) (funderAward granteeAward : Int)
  deriving DecidableEq

/-- Perform a call; its return value is dropped. -/
def Call.exec (env : Env) : Call → Res Env
  | .init admin token => Arbitration.init env admin token
  | .raiseDispute grantId funder grantee amount arbitrator =>
      Prod.fst <$> Arbitration.raiseDispute env grantId funder grantee amount arbitrator
  | .resolveDispute disputeId funderAward granteeAward =>
      Arbitration.resolveDispute env disputeId funderAward granteeAward

def Call.typed : Call → Bool
  | .init _ _ => true
  | .raiseDispute grantId _ _ amount _ => grantId < U32.size && I128.InRange amount
  | .resolveDispute disputeId funderAward granteeAward =>
      disputeId < U32.size && I128.InRange funderAward && I128.InRange granteeAward

def contract : Ledger.Contract Address Store Call Empty where
  initial := {}
  typed := Call.typed
  exec := Call.exec

abbrev Trace := Ledger.Trace Address Store Call

abbrev Step := Run.Step Env (Ledger.Event Address Call)

/-! ### A deployment to run events on -/

namespace Demo

def self : Address := ⟨[1]⟩

def admin : Address := ⟨[2]⟩

def funder : Address := ⟨[3]⟩

def grantee : Address := ⟨[4]⟩

def arbitrator : Address := ⟨[5]⟩

def token : Address := ⟨[6]⟩

/-- The funder has 1000 of the token, and the contract has nothing. -/
def env : Env :=
  .deployed contract self
    { balance := fun _ holder => if holder = funder then 1000 else 0, log := [] }

theorem env_deployed : Ledger.Deployed contract env := ⟨_, _, rfl⟩

def call (auths : List Address) (call : Call) : Ledger.Event Address Call :=
  ⟨0, 0, .invoke auths call⟩

/-- Two disputes, of 100 and of 900. -/
def setUp : List (Ledger.Event Address Call) :=
  [call [admin] (.init admin token),
    call [funder] (.raiseDispute 1 funder grantee 100 arbitrator),
    call [funder] (.raiseDispute 2 funder grantee 900 arbitrator)]

end Demo

end YieldTrust.Arbitration
