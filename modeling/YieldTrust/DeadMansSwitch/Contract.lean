import YieldTrust.GrantStream.Types
import YieldTrust.Lib.Checked
import YieldTrust.Lib.Ledger

/-!
# YieldTrust.DeadMansSwitch.Contract

The dead man's switch (`dead_mans_switch.rs`): when the administrator has not been heard of for
half a year, the recovery vault can take over.
-/

namespace YieldTrust.DeadMansSwitch

open Fallible
open GrantStream (Address)

/-! ### Data -/

/-- 180 days. -/
def inactivityPeriod : Nat := 180 * 24 * 60 * 60

structure Store where
  primaryAdmin : Option Address := none
  recoveryVault : Option Address := none
  lastActivityAt : Option Nat := none
  recoveryExecuted : Option Bool := none
  deriving DecidableEq

inductive SwitchError where
  | notInitialized
  | unauthorizedAdmin
  | unauthorizedVault
  | recoveryAlreadyExecuted
  | inactivityPeriodNotElapsed
  deriving DecidableEq

abbrev Env := Ledger.Env Address Store

abbrev Res (α : Type) := Fallible SwitchError α

/-! ### Helpers -/

def assertPrimaryAdmin (env : Env) (caller : Address) : Res Unit := do
  let admin ← okOr env.store.primaryAdmin .notInitialized
  ensure (caller = admin) .unauthorizedAdmin

def assertRecoveryVault (env : Env) (caller : Address) : Res Unit := do
  let vault ← okOr env.store.recoveryVault .notInitialized
  ensure (caller = vault) .unauthorizedVault

/-- A public function of the contract that asks for no authorization. -/
def recordActivity (env : Env) : Env :=
  { env with store := { env.store with lastActivityAt := some env.timestamp } }

/-! ### Entry points -/

/-- A second initialization is refused with the error of a missing one. -/
def initializeSwitch (env : Env) (primaryAdmin recoveryVault : Address) : Res Env := do
  ensure (env.store.primaryAdmin = none) .notInitialized
  env.requireAuth primaryAdmin
  return { env with store :=
    { primaryAdmin := some primaryAdmin, recoveryVault := some recoveryVault
      lastActivityAt := some env.timestamp, recoveryExecuted := some false } }

def heartbeat (env : Env) (admin : Address) : Res Env := do
  env.requireAuth admin
  assertPrimaryAdmin env admin
  return { env with store := { env.store with lastActivityAt := some env.timestamp } }

/-- The countdown is not restarted for the new administrator. -/
def claimAdmin (env : Env) (recoveryVault : Address) : Res Env := do
  env.requireAuth recoveryVault
  assertRecoveryVault env recoveryVault
  let alreadyExecuted := env.store.recoveryExecuted.getD false
  ensure (alreadyExecuted = false) .recoveryAlreadyExecuted
  let lastActivity := env.store.lastActivityAt.getD 0
  let elapsed := env.timestamp - lastActivity
  ensure (inactivityPeriod ≤ elapsed) .inactivityPeriodNotElapsed
  return { env with store := { env.store with
    primaryAdmin := some recoveryVault, recoveryExecuted := some true } }

def updateRecoveryVault (env : Env) (admin newVault : Address) : Res Env := do
  env.requireAuth admin
  assertPrimaryAdmin env admin
  let env := recordActivity env
  return { env with store := { env.store with recoveryVault := some newVault } }

/-! ### Views -/

/-- Both differences saturate. -/
def timeUntilRecovery (env : Env) : Nat :=
  let lastActivity := env.store.lastActivityAt.getD 0
  let elapsed := env.timestamp - lastActivity
  inactivityPeriod - elapsed

def getAdmin (env : Env) : Res Address := okOr env.store.primaryAdmin .notInitialized

def getRecoveryVault (env : Env) : Res Address := okOr env.store.recoveryVault .notInitialized

/-! ### The contract -/

/-- The entry points that change the storage, with their arguments. -/
inductive Call where
  | initializeSwitch (primaryAdmin recoveryVault : Address)
  | heartbeat (admin : Address)
  | recordActivity
  | claimAdmin (recoveryVault : Address)
  | updateRecoveryVault (admin newVault : Address)
  deriving DecidableEq

def Call.exec (env : Env) : Call → Res Env
  | .initializeSwitch primaryAdmin recoveryVault =>
      DeadMansSwitch.initializeSwitch env primaryAdmin recoveryVault
  | .heartbeat admin => DeadMansSwitch.heartbeat env admin
  | .recordActivity => .ok (DeadMansSwitch.recordActivity env)
  | .claimAdmin recoveryVault => DeadMansSwitch.claimAdmin env recoveryVault
  | .updateRecoveryVault admin newVault => DeadMansSwitch.updateRecoveryVault env admin newVault

def contract : Ledger.Contract Address Store Call SwitchError where
  initial := {}
  typed := fun _ => true
  exec := Call.exec

abbrev Trace := Ledger.Trace Address Store Call

abbrev Step := Run.Step Env (Ledger.Event Address Call)

/-! ### A deployment to run events on -/

namespace Demo

def self : Address := ⟨[1]⟩

def admin : Address := ⟨[2]⟩

def vault : Address := ⟨[3]⟩

def env : Env := Ledger.Env.deployed contract self { balance := fun _ _ => 0, log := [] }

def call (timestamp : Nat) (caller : Address) (call : Call) : Ledger.Event Address Call :=
  ⟨timestamp, 0, .invoke [caller] call⟩

end Demo

end YieldTrust.DeadMansSwitch
