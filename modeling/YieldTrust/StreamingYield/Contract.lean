import YieldTrust.GrantStream.Types
import YieldTrust.Lib.Checked
import YieldTrust.Lib.Ledger

/-!
# YieldTrust.StreamingYield.Contract

The yield on earned grant balances (`streaming_yield.rs`): the balance that a grantee leaves in
the vault bears simple interest, which a withdrawal divides between the grantee and the treasury.

The module is called by the contract that holds the grants; it moves no principal, and of the
interest only the share of the treasury.
-/

namespace YieldTrust.StreamingYield

open Fallible
open GrantStream (Address)

/-! ### Data -/

/-- 70%. -/
def granteeYieldShareBps : Int := 7000

/-- 30%. -/
def treasuryYieldShareBps : Int := 3000

def bpsDenom : Int := 10000

def yearSecs : Int := 365 * 24 * 60 * 60

structure YieldPosition where
  grantId : Nat
  grantee : Address
  principal : Int
  accruedInterest : Int
  apyBps : Int
  lastAccrualTs : Nat
  enabled : Bool
  deriving DecidableEq

structure Store where
  positions : Nat → Option YieldPosition := fun _ => none
  deriving Inhabited

inductive StreamingYieldError where
  | notAuthorized
  | invalidAmount
  | yieldNotEnabled
  | positionNotFound
  | mathOverflow
  | insufficientPrincipal
  deriving DecidableEq

abbrev Env := Ledger.Env Address Store

abbrev Res (α : Type) := Fallible StreamingYieldError α

/-! ### Helpers -/

def readPosition (env : Env) (grantId : Nat) : Res YieldPosition :=
  okOr (env.store.positions grantId) .positionNotFound

def writePosition (env : Env) (grantId : Nat) (pos : YieldPosition) : Env :=
  { env with store := { positions := Function.update env.store.positions grantId (some pos) } }

/-- The interest since the last accrual. Both products saturate. -/
def accrue (pos : YieldPosition) (now : Nat) : Int :=
  let elapsed : Int := ((now - pos.lastAccrualTs : Nat) : Int)
  if elapsed = 0 ∨ pos.principal = 0 then 0
  else
    (I128.saturatingMul (I128.saturatingMul pos.principal pos.apyBps) elapsed).tdiv
      (bpsDenom * yearSecs)

/-! ### The module -/

/-- A position that is already there is replaced by an empty one. -/
def enableYield (env : Env) (grantId : Nat) (grantee : Address) (apyBps : Int) : Res Env := do
  env.requireAuth grantee
  ensure (0 ≤ apyBps) .invalidAmount
  return writePosition env grantId
    { grantId, grantee, principal := 0, accruedInterest := 0, apyBps
      lastAccrualTs := env.timestamp, enabled := true }

def depositToYield (env : Env) (grantId : Nat) (amount : Int) : Res Env := do
  ensure (0 < amount) .invalidAmount
  let pos ← readPosition env grantId
  ensure (pos.enabled = true) .yieldNotEnabled
  let interest := accrue pos env.timestamp
  let accruedInterest ← okOr (I128.checkedAdd pos.accruedInterest interest) .mathOverflow
  let principal ← okOr (I128.checkedAdd pos.principal amount) .mathOverflow
  return writePosition env grantId
    { pos with accruedInterest, principal, lastAccrualTs := env.timestamp }

/-- The shares of the grantee and of the treasury; the product is a plain one. -/
def splitInterest (totalInterest : Int) : Res (Int × Int) := do
  let product ← orTrap (I128.checkedMul totalInterest granteeYieldShareBps)
  let granteeInterest := product.tdiv bpsDenom
  let treasuryInterest ← orTrap (I128.checkedSub totalInterest granteeInterest)
  return (granteeInterest, treasuryInterest)

/-- Returns the withdrawn principal and the shares of the grantee and of the treasury. -/
def withdrawFromYield (env : Env) (grantId : Nat) (amount : Int)
    (tokenAddress treasury : Address) : Res (Env × Int × Int × Int) := do
  ensure (0 < amount) .invalidAmount
  let pos ← readPosition env grantId
  ensure (pos.enabled = true) .yieldNotEnabled
  ensure (amount ≤ pos.principal) .insufficientPrincipal
  let newInterest := accrue pos env.timestamp
  let totalInterest ← okOr (I128.checkedAdd pos.accruedInterest newInterest) .mathOverflow
  let (granteeInterest, treasuryInterest) ← splitInterest totalInterest
  let env := writePosition env grantId
    { pos with
      principal := pos.principal - amount, accruedInterest := 0
      lastAccrualTs := env.timestamp }
  let env ← when (0 < treasuryInterest)
    (fun env => env.transfer tokenAddress env.self treasury treasuryInterest) env
  return (env, amount, granteeInterest, treasuryInterest)

def getYieldPosition (env : Env) (grantId : Nat) : Option YieldPosition :=
  env.store.positions grantId

/-- The operations that change a position, with their arguments. -/
inductive Call where
  | enableYield (grantId : Nat) (grantee : Address) (apyBps : Int)
  | depositToYield (grantId : Nat) (amount : Int)
  | withdrawFromYield (grantId : Nat) (amount : Int) (tokenAddress treasury : Address)
  deriving DecidableEq

/-- Perform a call; its return value is dropped. -/
def Call.exec (env : Env) : Call → Res Env
  | .enableYield grantId grantee apyBps => StreamingYield.enableYield env grantId grantee apyBps
  | .depositToYield grantId amount => StreamingYield.depositToYield env grantId amount
  | .withdrawFromYield grantId amount tokenAddress treasury =>
      Prod.fst <$> StreamingYield.withdrawFromYield env grantId amount tokenAddress treasury

def Call.typed : Call → Bool
  | .enableYield grantId _ apyBps => grantId < U64.size ∧ I128.InRange apyBps
  | .depositToYield grantId amount | .withdrawFromYield grantId amount _ _ =>
      grantId < U64.size ∧ I128.InRange amount

def contract : Ledger.Contract Address Store Call StreamingYieldError where
  initial := {}
  typed := Call.typed
  exec := Call.exec

abbrev Trace := Ledger.Trace Address Store Call

abbrev Step := Run.Step Env (Ledger.Event Address Call)

/-! ### A module to run events on -/

namespace Demo

def self : Address := ⟨[1]⟩

def grantee : Address := ⟨[2]⟩

def treasury : Address := ⟨[3]⟩

def token : Address := ⟨[4]⟩

def env : Env :=
  Ledger.Env.deployed contract self { balance := fun _ _ => 1000000, log := [] }

def call (timestamp : Nat) (call : Call) : Ledger.Event Address Call :=
  ⟨timestamp, 0, .invoke [grantee] call⟩

end Demo

end YieldTrust.StreamingYield
