import YieldTrust.GrantStream.Types
import YieldTrust.Lib.Checked
import YieldTrust.Lib.Ledger

/-!
# YieldTrust.Governance.Contract

The governance activity monitor (`governance_activity_monitor.rs`): administrators record changes
of protocol parameters, which can be executed after a timelock. A change past the limit of its
ledger gets the mandatory timelock.
-/

namespace YieldTrust.Governance

open Fallible
open GrantStream (Address Bytes)

/-! ### Data -/

def maxParamChangesPerLedger : Nat := 3

/-- 7 days. -/
def mandatoryTimelockSecs : Nat := 7 * 24 * 60 * 60

/-- 24 hours. -/
def standardTimelockSecs : Nat := 24 * 60 * 60

inductive ParameterType where
  | fee
  | threshold
  | address
  | timelock
  | other
  deriving DecidableEq

inductive ChangeStatus where
  | pending
  | mandatoryTimelock
  | executed
  | cancelled
  deriving DecidableEq

structure ParameterChange where
  changeId : Nat
  admin : Address
  parameterType : ParameterType
  parameterName : String
  oldValue : Bytes
  newValue : Bytes
  proposedAt : Nat
  executableAt : Nat
  status : ChangeStatus
  ledgerNumber : Nat
  reason : String
  deriving DecidableEq

structure LedgerActivity where
  ledgerNumber : Nat
  changeCount : Nat
  changeIds : List Nat
  recordedAt : Nat
  deriving DecidableEq

inductive MonitorError where
  | notInitialized
  | notAuthorized
  | changeNotFound
  | timelockNotExpired
  | alreadyExecuted
  | circuitBreakerTriggered
  | monitorDisabled
  | invalidParameter
  | mathOverflow
  deriving DecidableEq

structure Store where
  nextChangeId : Option Nat := none
  changes : Nat → Option ParameterChange := fun _ => none
  changeIds : Option (List Nat) := none
  currentLedgerActivity : Option LedgerActivity := none
  admin : Option Address := none
  enabled : Option Bool := none
  maxChangesPerLedger : Option Nat := none
  mandatoryTimelockSecs : Option Nat := none

abbrev Env := Ledger.Env Address Store

abbrev Res (α : Type) := Fallible MonitorError α

/-! ### Helpers -/

def isEnabled (env : Env) : Bool := env.store.enabled.getD false

def getAdmin (env : Env) : Res Address := okOr env.store.admin .notInitialized

def assertAdmin (env : Env) (caller : Address) : Res Unit := do
  let admin ← getAdmin env
  ensure (caller = admin) .notAuthorized

/-- The identifier for a new change; the counter goes on. -/
def nextChangeId (env : Env) : Res (Env × Nat) := do
  let id := env.store.nextChangeId.getD 1
  let next ← orTrap (U64.checkedAdd id 1)
  return ({ env with store := { env.store with nextChangeId := some next } }, id)

def getChange (env : Env) (changeId : Nat) : Res ParameterChange :=
  okOr (env.store.changes changeId) .changeNotFound

def getChangeIds (env : Env) : Res (List Nat) := okOr env.store.changeIds .notInitialized

/-- The stored activity, if it is that of the ledger. -/
def getOrCreateLedgerActivity (env : Env) (ledgerNumber : Nat) : LedgerActivity :=
  let created : LedgerActivity :=
    { ledgerNumber, changeCount := 0, changeIds := [], recordedAt := env.timestamp }
  match env.store.currentLedgerActivity with
  | some activity => if activity.ledgerNumber = ledgerNumber then activity else created
  | none => created

def getMaxChangesPerLedger (env : Env) : Res Nat :=
  okOr env.store.maxChangesPerLedger .notInitialized

def getMandatoryTimelock (env : Env) : Res Nat :=
  okOr env.store.mandatoryTimelockSecs .notInitialized

def setChange (env : Env) (change : ParameterChange) (changeId : Nat) : Env :=
  { env with store := { env.store with
    changes := Function.update env.store.changes changeId (some change) } }

/-! ### Entry points -/

/-- A second initialization is refused with `NotInitialized`. -/
def initializeMonitor (env : Env) (admin : Address) : Res Env := do
  ensure (env.store.admin = none) .notInitialized
  env.requireAuth admin
  return { env with store := { env.store with
    admin := some admin
    enabled := some true
    nextChangeId := some 1
    changeIds := some []
    maxChangesPerLedger := some maxParamChangesPerLedger
    mandatoryTimelockSecs := some mandatoryTimelockSecs } }

/-- Returns the identifier of the change, `0` if the monitor is disabled. -/
def recordParameterChange (env : Env) (admin : Address) (parameterType : ParameterType)
    (parameterName : String) (oldValue newValue : Bytes) (reason : String) : Res (Env × Nat) := do
  if isEnabled env then
    env.requireAuth admin
    assertAdmin env admin
    let now := env.timestamp
    let currentLedger := env.sequence
    let activity := getOrCreateLedgerActivity env currentLedger
    let changeCount ← okOr (U32.checkedAdd activity.changeCount 1) .mathOverflow
    let maxChanges ← getMaxChangesPerLedger env
    let triggersBreaker := decide (maxChanges < changeCount)
    let mandatoryTimelock ← getMandatoryTimelock env
    let timelockDuration := if triggersBreaker then mandatoryTimelock else standardTimelockSecs
    let executableAt ← okOr (U64.checkedAdd now timelockDuration) .mathOverflow
    let (env, changeId) ← nextChangeId env
    let change : ParameterChange :=
      { changeId, admin, parameterType, parameterName, oldValue, newValue
        proposedAt := now
        executableAt
        status := if triggersBreaker then .mandatoryTimelock else .pending
        ledgerNumber := currentLedger
        reason }
    let env := setChange env change changeId
    let changeIds ← getChangeIds env
    let activity : LedgerActivity :=
      { activity with
        changeCount
        changeIds := activity.changeIds ++ [changeId]
        recordedAt := now }
    return ({ env with store := { env.store with
      changeIds := some (changeIds ++ [changeId])
      currentLedgerActivity := some activity } }, changeId)
  else
    return (env, 0)

def executeParameterChange (env : Env) (admin : Address) (changeId : Nat) : Res Env := do
  env.requireAuth admin
  assertAdmin env admin
  let change ← getChange env changeId
  ensure (change.status ≠ .executed) .alreadyExecuted
  ensure (change.executableAt ≤ env.timestamp) .timelockNotExpired
  return setChange env { change with status := .executed } changeId

def cancelParameterChange (env : Env) (admin : Address) (changeId : Nat) : Res Env := do
  env.requireAuth admin
  assertAdmin env admin
  let change ← getChange env changeId
  ensure (change.status ≠ .executed) .alreadyExecuted
  return setChange env { change with status := .cancelled } changeId

def setEnabled (env : Env) (admin : Address) (enabled : Bool) : Res Env := do
  env.requireAuth admin
  assertAdmin env admin
  return { env with store := { env.store with enabled := some enabled } }

/-- What is not given stays as it is. -/
def updateConfig (env : Env) (admin : Address) (maxChanges timelock : Option Nat) : Res Env := do
  env.requireAuth admin
  assertAdmin env admin
  return { env with store := { env.store with
    maxChangesPerLedger := maxChanges <|> env.store.maxChangesPerLedger
    mandatoryTimelockSecs := timelock <|> env.store.mandatoryTimelockSecs } }

/-! ### Views -/

def getParameterChange (env : Env) (changeId : Nat) : Res ParameterChange :=
  getChange env changeId

/-- The changes that are found under the listed identifiers. -/
def getAllChanges (env : Env) : Res (List ParameterChange) := do
  let changeIds ← getChangeIds env
  return changeIds.filterMap env.store.changes

def ParameterChange.isPending (change : ParameterChange) : Bool :=
  change.status = .pending ∨ change.status = .mandatoryTimelock

def getPendingChanges (env : Env) (admin : Address) : Res (List ParameterChange) := do
  let changeIds ← getChangeIds env
  return (changeIds.filterMap env.store.changes).filter fun change =>
    change.admin = admin && change.isPending

/-- Nothing is ever stored under `LedgerHistory`. -/
def getLedgerActivity (env : Env) (ledgerNumber : Nat) : Res LedgerActivity :=
  okOr (env.store.currentLedgerActivity.filter fun activity => activity.ledgerNumber = ledgerNumber)
    .changeNotFound

def getCurrentLedgerActivity (env : Env) : Res LedgerActivity :=
  getLedgerActivity env env.sequence

/-! ### The contract -/

/-- The entry points with their arguments. -/
inductive Call where
  | initializeMonitor (admin : Address)
  | recordParameterChange (admin : Address) (parameterType : ParameterType)
      (parameterName : String) (oldValue newValue : Bytes) (reason : String)
  | executeParameterChange (admin : Address) (changeId : Nat)
  | cancelParameterChange (admin : Address) (changeId : Nat)
  | setEnabled (admin : Address) (enabled : Bool)
  | updateConfig (admin : Address) (maxChanges timelock : Option Nat)
  deriving DecidableEq

/-- Perform a call; its return value is dropped. -/
def Call.exec (env : Env) : Call → Res Env
  | .initializeMonitor admin => Governance.initializeMonitor env admin
  | .recordParameterChange admin parameterType parameterName oldValue newValue reason =>
      Prod.fst <$> Governance.recordParameterChange env admin parameterType parameterName oldValue
        newValue reason
  | .executeParameterChange admin changeId => Governance.executeParameterChange env admin changeId
  | .cancelParameterChange admin changeId => Governance.cancelParameterChange env admin changeId
  | .setEnabled admin enabled => Governance.setEnabled env admin enabled
  | .updateConfig admin maxChanges timelock =>
      Governance.updateConfig env admin maxChanges timelock

def Call.typed : Call → Bool
  | .executeParameterChange _ changeId | .cancelParameterChange _ changeId => changeId < U64.size
  | .updateConfig _ maxChanges timelock =>
      maxChanges.all (· < U32.size) && timelock.all (· < U64.size)
  | _ => true

def contract : Ledger.Contract Address Store Call MonitorError where
  initial := {}
  typed := Call.typed
  exec := Call.exec

abbrev Trace := Ledger.Trace Address Store Call

abbrev Step := Run.Step Env (Ledger.Event Address Call)

/-- One event of the ledger. Like the time, the number of the ledger does not go back. -/
def Next (env : Env) (event : Ledger.Event Address Call) (env' : Env) : Prop :=
  Ledger.Next contract env event env' ∧ env.sequence ≤ event.sequence

/-- The histories of a monitor, newest event first. -/
abbrev Reachable (trace : Trace) (env : Env) : Prop :=
  Run (Ledger.Deployed contract) Next trace env

/-! ### A deployment to run events on -/

namespace Demo

def self : Address := ⟨[1]⟩

def admin : Address := ⟨[2]⟩

def env : Env := Ledger.Env.deployed contract self { balance := fun _ _ => 0, log := [] }

def call (timestamp sequence : Nat) (call : Call) : Ledger.Event Address Call :=
  ⟨timestamp, sequence, .invoke [admin] call⟩

/-- A change of the fee. -/
def record (timestamp sequence : Nat) : Ledger.Event Address Call :=
  call timestamp sequence (.recordParameterChange admin .fee "protocol_fee" [100] [150] "")

def history (events : List (Ledger.Event Address Call)) : Trace × Env :=
  Ledger.history contract env events

theorem history_reachable {events : List (Ledger.Event Address Call)}
    (hadm : Ledger.AllAdmissible contract env events)
    (hledgers : ∀ e ∈ (history events).1, e.before.sequence ≤ e.action.sequence) :
    Reachable (history events).1 (history events).2 :=
  (Ledger.history_reachable contract ⟨_, _, rfl⟩ hadm).restrict hledgers

end Demo

end YieldTrust.Governance
