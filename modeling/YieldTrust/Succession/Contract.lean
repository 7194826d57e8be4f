import YieldTrust.GrantStream.Types
import YieldTrust.Lib.Ledger

/-!
# YieldTrust.Succession.Contract

The handover of the protocol to a DAO (`protocol_succession.rs`), in two steps: the administrator
proposes the DAO, and the DAO confirms with its own signature.
-/

namespace YieldTrust.Succession

open Fallible
open GrantStream (Address)

/-! ### Data -/

/-- Only `pending` is ever stored. -/
inductive SuccessionStatus where
  | idle
  | pending
  | completed
  deriving DecidableEq

structure SuccessionRecord where
  currentAdmin : Address
  proposedDao : Address
  initiatedAt : Nat
  status : SuccessionStatus
  deriving DecidableEq

structure Store where
  admin : Option Address := none
  pendingSuccession : Option SuccessionRecord := none
  deriving DecidableEq

inductive SuccessionError where
  | notInitialized
  | notAuthorized
  | successionAlreadyPending
  | noSuccessionPending
  | wrongConfirmingAddress
  | successionAlreadyCompleted
  deriving DecidableEq

abbrev Env := Ledger.Env Address Store

abbrev Res (α : Type) := Fallible SuccessionError α

/-! ### The module -/

def readAdmin (env : Env) : Res Address := okOr env.store.admin .notInitialized

/-- Called once, when the contract of the module is initialized; it checks nothing. -/
def initializeSuccession (env : Env) (admin : Address) : Env :=
  { env with store := { env.store with admin := some admin } }

def initiateSuccession (env : Env) (newDao : Address) : Res Env := do
  let currentAdmin ← readAdmin env
  env.requireAuth currentAdmin
  ensure (env.store.pendingSuccession = none) .successionAlreadyPending
  let record : SuccessionRecord :=
    { currentAdmin, proposedDao := newDao, initiatedAt := env.timestamp, status := .pending }
  return { env with store := { env.store with pendingSuccession := some record } }

def confirmSuccession (env : Env) (confirmingDao : Address) : Res Env := do
  env.requireAuth confirmingDao
  let record ← okOr env.store.pendingSuccession .noSuccessionPending
  ensure (record.proposedDao = confirmingDao) .wrongConfirmingAddress
  return { env with store :=
    { env.store with admin := some confirmingDao, pendingSuccession := none } }

def cancelSuccession (env : Env) : Res Env := do
  let currentAdmin ← readAdmin env
  env.requireAuth currentAdmin
  ensure (env.store.pendingSuccession.isSome) .noSuccessionPending
  return { env with store := { env.store with pendingSuccession := none } }

def getAdmin (env : Env) : Res Address := readAdmin env

def getPendingSuccession (env : Env) : Option SuccessionRecord := env.store.pendingSuccession

/-! ### The contract -/

/-- The operations after the initialization, with their arguments. -/
inductive Call where
  | initiateSuccession (newDao : Address)
  | confirmSuccession (confirmingDao : Address)
  | cancelSuccession
  deriving DecidableEq

def Call.exec (env : Env) : Call → Res Env
  | .initiateSuccession newDao => Succession.initiateSuccession env newDao
  | .confirmSuccession confirmingDao => Succession.confirmSuccession env confirmingDao
  | .cancelSuccession => Succession.cancelSuccession env

def contract : Ledger.Contract Address Store Call SuccessionError where
  initial := {}
  typed := fun _ => true
  exec := Call.exec

abbrev Trace := Ledger.Trace Address Store Call

abbrev Step := Run.Step Env (Ledger.Event Address Call)

/-- The module was just initialized with the administrator. -/
def Initialized (admin : Address) (env : Env) : Prop :=
  ∃ before : Env, before.store = {} ∧ env = initializeSuccession before admin

/-! ### A module to run events on -/

namespace Demo

def self : Address := ⟨[1]⟩

def admin : Address := ⟨[2]⟩

def dao : Address := ⟨[3]⟩

def deployed : Env := Ledger.Env.deployed contract self { balance := fun _ _ => 0, log := [] }

def env : Env := initializeSuccession deployed admin

def call (timestamp : Nat) (caller : Address) (call : Call) : Ledger.Event Address Call :=
  ⟨timestamp, 0, .invoke [caller] call⟩

end Demo

end YieldTrust.Succession
