import YieldTrust.GrantStream.Types
import YieldTrust.Lib.Ledger

/-!
# YieldTrust.Reputation.Contract

The reputation of donors (`donor_reputation.rs`): its records, the functions that record what
happens to a project, in the order of the source, and the contract they make up.

The source computes with plain operators here, so an overflow is a trap.
-/

namespace YieldTrust.Reputation

open Fallible
open GrantStream (Address Bytes GrantStatus)

/-! ### Data -/

/-- `1`, in fixed point. -/
def reputationScale : Int := 10 ^ 18
def basisPoints : Int := 10000
def defaultMinFundingThreshold : Int := 100 * 10000000
def maxReputationMultiplier : Int := 3 * reputationScale
def reputationWindowSecs : Nat := 90 * 24 * 60 * 60

structure DonorReputation where
  donor : Address
  reputationScore : Int
  /-- In basis points. -/
  successRate : Int
  totalFunded : Int
  qualifyingProjects : Nat
  successfulProjects : Nat
  lastUpdated : Nat
  influenceMultiplier : Int
  deriving DecidableEq

structure ProjectSuccessMetrics where
  projectId : Nat
  donor : Address
  totalMilestones : Nat
  completedMilestones : Nat
  projectStatus : GrantStatus
  fundedAmount : Int
  createdAt : Nat
  completedAt : Option Nat
  deriving DecidableEq

structure MilestoneRecord where
  projectId : Nat
  milestoneIndex : Nat
  isCompleted : Bool
  completedAt : Option Nat
  evidenceHash : Option Bytes
  deriving DecidableEq

structure ReputationConfig where
  minFundingThreshold : Int
  maxMultiplier : Int
  calculationWindowSecs : Nat
  recencyWeight : Int
  deriving DecidableEq

inductive ReputationUpdateReason where
  | projectFunded
  | milestoneCompleted
  | projectCompleted
  | projectFailed
  | manualAdjustment
  | recalculation
  deriving DecidableEq

structure ReputationUpdate where
  updateId : Nat
  donor : Address
  previousScore : Int
  newScore : Int
  reason : ReputationUpdateReason
  projectId : Option Nat
  timestamp : Nat
  deriving DecidableEq

inductive ReputationError where
  | notInitialized
  | notAuthorized
  | donorNotFound
  | projectNotFound
  | invalidAmount
  | insufficientThreshold
  | mathOverflow
  | invalidTimestamp
  | reputationTooHigh
  | duplicateMilestone
  | invalidMilestoneIndex
  | projectNotCompleted
  | configurationError
  deriving DecidableEq

/-- What is stored, by its storage keys. The key `ReputationUpdateHistory(0)` holds the number
of the last update, the others the updates. -/
structure Store where
  donorReputation : Address → Option DonorReputation := fun _ => none
  projectSuccessMetrics : Nat → Option ProjectSuccessMetrics := fun _ => none
  donorFundedProjects : Address → Option (List Nat) := fun _ => none
  projectMilestoneRecord : Nat → Nat → Option MilestoneRecord := fun _ _ => none
  reputationConfig : Option ReputationConfig := none
  reputationUpdateCounter : Option Nat := none
  reputationUpdateHistory : Nat → Option ReputationUpdate := fun _ => none

abbrev Env := Ledger.Env Address Store

abbrev Res (α : Type) := Fallible ReputationError α

/-! ### Helpers -/

def readDonorReputation (env : Env) (donor : Address) : Res DonorReputation :=
  okOr (env.store.donorReputation donor) .donorNotFound

def writeDonorReputation (env : Env) (donor : Address) (reputation : DonorReputation) : Env :=
  { env with store := { env.store with
      donorReputation := Function.update env.store.donorReputation donor (some reputation) } }

def readProjectMetrics (env : Env) (projectId : Nat) : Res ProjectSuccessMetrics :=
  okOr (env.store.projectSuccessMetrics projectId) .projectNotFound

def writeProjectMetrics (env : Env) (projectId : Nat) (metrics : ProjectSuccessMetrics) : Env :=
  { env with store := { env.store with
      projectSuccessMetrics :=
        Function.update env.store.projectSuccessMetrics projectId (some metrics) } }

def defaultConfig : ReputationConfig where
  minFundingThreshold := defaultMinFundingThreshold
  maxMultiplier := maxReputationMultiplier
  calculationWindowSecs := reputationWindowSecs
  recencyWeight := 50 * basisPoints / 100

/-- The configuration, or the default one. -/
def Store.config (store : Store) : ReputationConfig := store.reputationConfig.getD defaultConfig

def readReputationConfig (env : Env) : ReputationConfig := env.store.config

def writeReputationConfig (env : Env) (config : ReputationConfig) : Env :=
  { env with store := { env.store with reputationConfig := some config } }

/-- The projects that the donor has funded, in order. -/
def Store.fundedProjects (store : Store) (donor : Address) : List Nat :=
  (store.donorFundedProjects donor).getD []

def pushFundedProject (env : Env) (donor : Address) (projectId : Nat) : Env :=
  { env with store := { env.store with
      donorFundedProjects := Function.update env.store.donorFundedProjects donor
        (some (env.store.fundedProjects donor ++ [projectId])) } }

def writeMilestoneRecord (env : Env) (record : MilestoneRecord) : Env :=
  { env with store := { env.store with
      projectMilestoneRecord := Function.update env.store.projectMilestoneRecord record.projectId
        (Function.update (env.store.projectMilestoneRecord record.projectId)
          record.milestoneIndex (some record)) } }

def nextUpdateId (env : Env) : Env × Nat :=
  let id := U64.saturatingAdd (env.store.reputationUpdateCounter.getD 0) 1
  ({ env with store := { env.store with reputationUpdateCounter := some id } }, id)

def recordReputationUpdate (env : Env) (donor : Address) (previousScore newScore : Int)
    (reason : ReputationUpdateReason) (projectId : Option Nat) : Env :=
  let (env, updateId) := nextUpdateId env
  let update : ReputationUpdate :=
    { updateId, donor, previousScore, newScore, reason, projectId, timestamp := env.timestamp }
  { env with store := { env.store with
      reputationUpdateHistory :=
        Function.update env.store.reputationUpdateHistory updateId (some update) } }

/-- Count one project: how many are successful, and how many there are. -/
def countProject (env : Env) (counts : Nat × Nat) (projectId : Nat) : Res (Nat × Nat) :=
  match env.store.projectSuccessMetrics projectId with
  | some metrics => do
    let config := readReputationConfig env
    if config.minFundingThreshold ≤ metrics.fundedAmount then
      let totalCount ← orTrap (U32.checkedAdd counts.2 1)
      if metrics.projectStatus = .completed then
        let successfulCount ← orTrap (U32.checkedAdd counts.1 1)
        return (successfulCount, totalCount)
      return (counts.1, totalCount)
    return counts
  | none => pure counts

def calculateSuccessRate (env : Env) (donor : Address) : Res Int := do
  let fundedProjects := env.store.fundedProjects donor
  if fundedProjects.isEmpty then
    return 0
  let (successfulCount, totalCount) ← fundedProjects.foldlM (countProject env) (0, 0)
  if totalCount = 0 then
    return 0
  let product ← orTrap (I128.checkedMul successfulCount basisPoints)
  orTrap (I128.checkedDiv product totalCount)

def calculateInfluenceMultiplier (reputationScore : Int) (config : ReputationConfig) :
    Res Int := do
  let range ← orTrap (I128.checkedSub config.maxMultiplier reputationScale)
  let product ← orTrap (I128.checkedMul reputationScore range)
  let quotient ← orTrap (I128.checkedDiv product reputationScale)
  let multiplier ← orTrap (I128.checkedAdd reputationScale quotient)
  return min multiplier config.maxMultiplier

/-- Count one project in the record of its donor. -/
def countInReputation (env : Env) (config : ReputationConfig) (reputation : DonorReputation)
    (projectId : Nat) : Res DonorReputation :=
  match env.store.projectSuccessMetrics projectId with
  | some metrics => do
    let totalFunded ← orTrap (I128.checkedAdd reputation.totalFunded metrics.fundedAmount)
    let reputation := { reputation with totalFunded }
    if config.minFundingThreshold ≤ metrics.fundedAmount then
      let qualifyingProjects ← orTrap (U32.checkedAdd reputation.qualifyingProjects 1)
      let reputation := { reputation with qualifyingProjects }
      if metrics.projectStatus = .completed then
        let successfulProjects ← orTrap (U32.checkedAdd reputation.successfulProjects 1)
        return { reputation with successfulProjects }
      return reputation
    return reputation
  | none => pure reputation

def updateDonorReputationInternal (env : Env) (donor : Address)
    (reason : ReputationUpdateReason) (projectId : Option Nat) : Res Env := do
  let config := readReputationConfig env
  let successRate ← calculateSuccessRate env donor
  let product ← orTrap (I128.checkedMul successRate reputationScale)
  let reputationScore ← orTrap (I128.checkedDiv product basisPoints)
  let influenceMultiplier ← calculateInfluenceMultiplier reputationScore config
  match env.store.donorReputation donor with
  | some old => do
    let reputation := { old with
      reputationScore, successRate, influenceMultiplier, lastUpdated := env.timestamp
      qualifyingProjects := 0, successfulProjects := 0, totalFunded := 0 }
    let reputation ←
      (env.store.fundedProjects donor).foldlM (countInReputation env config) reputation
    let env := writeDonorReputation env donor reputation
    return recordReputationUpdate env donor old.reputationScore reputationScore reason projectId
  | none => do
    let metrics := projectId.bind env.store.projectSuccessMetrics
    let reputation : DonorReputation :=
      { donor, reputationScore, successRate, influenceMultiplier
        totalFunded := (metrics.map (·.fundedAmount)).getD 0
        qualifyingProjects := if projectId.isSome then 1 else 0
        successfulProjects := 0
        lastUpdated := env.timestamp }
    let env := writeDonorReputation env donor reputation
    return recordReputationUpdate env donor 0 reputationScore reason projectId

/-! ### Entry points -/

/-- `initialize` -/
def initializeReputation (env : Env) (admin : Address) : Res Env := do
  env.requireAuth admin
  ensure (env.store.reputationConfig = none) .notInitialized
  let env := writeReputationConfig env defaultConfig
  return { env with store := { env.store with reputationUpdateCounter := some 0 } }

/-- Set a field of the configuration, if there is a value for it. -/
def setField {α : Type} (value : Option α) (valid : α → Prop) [DecidablePred valid]
    (e : ReputationError) (set : α → ReputationConfig) (config : ReputationConfig) :
    Res ReputationConfig :=
  match value with
  | some x => do
    ensure (valid x) e
    return set x
  | none => pure config

def updateConfig (env : Env) (admin : Address) (minFundingThreshold maxMultiplier : Option Int)
    (calculationWindowSecs : Option Nat) (recencyWeight : Option Int) : Res Env := do
  env.requireAuth admin
  let config := readReputationConfig env
  let config ← setField minFundingThreshold (0 < ·) .invalidAmount
    (fun threshold => { config with minFundingThreshold := threshold }) config
  let config ← setField maxMultiplier (reputationScale < ·) .invalidAmount
    (fun multiplier => { config with maxMultiplier := multiplier }) config
  let config ← setField calculationWindowSecs (· ≠ 0) .invalidTimestamp
    (fun window => { config with calculationWindowSecs := window }) config
  let config ← setField recencyWeight (fun weight => 0 ≤ weight ∧ weight ≤ basisPoints)
    .configurationError (fun weight => { config with recencyWeight := weight }) config
  return writeReputationConfig env config

def recordProjectFunded (env : Env) (donor : Address) (projectId : Nat) (fundedAmount : Int)
    (totalMilestones : Nat) : Res Env := do
  env.requireAuth donor
  ensure (0 < fundedAmount ∧ totalMilestones ≠ 0) .invalidAmount
  let config := readReputationConfig env
  let metrics : ProjectSuccessMetrics :=
    { projectId, donor, totalMilestones, completedMilestones := 0, projectStatus := .active
      fundedAmount, createdAt := env.timestamp, completedAt := none }
  -- metrics that the project already has are overwritten
  let env := writeProjectMetrics env projectId metrics
  let env := pushFundedProject env donor projectId
  if config.minFundingThreshold ≤ fundedAmount then
    updateDonorReputationInternal env donor .projectFunded (some projectId)
  else
    pure env

def recordMilestoneCompleted (env : Env) (projectId milestoneIndex : Nat)
    (evidenceHash : Option Bytes) : Res Env := do
  let metrics ← readProjectMetrics env projectId
  ensure (milestoneIndex < metrics.totalMilestones) .invalidMilestoneIndex
  ensure (env.store.projectMilestoneRecord projectId milestoneIndex = none) .duplicateMilestone
  let env := writeMilestoneRecord env
    { projectId, milestoneIndex, isCompleted := true, completedAt := some env.timestamp
      evidenceHash }
  let completedMilestones ← orTrap (U32.checkedAdd metrics.completedMilestones 1)
  let metrics := { metrics with completedMilestones }
  let metrics :=
    if metrics.completedMilestones = metrics.totalMilestones then
      { metrics with projectStatus := .completed, completedAt := some env.timestamp }
    else metrics
  let env := writeProjectMetrics env projectId metrics
  updateDonorReputationInternal env metrics.donor .milestoneCompleted (some projectId)

def recordProjectFailed (env : Env) (projectId : Nat) : Res Env := do
  let metrics ← readProjectMetrics env projectId
  ensure (metrics.projectStatus ≠ .completed) .projectNotCompleted
  let metrics := { metrics with
    projectStatus := .cancelled, completedAt := some env.timestamp }
  let env := writeProjectMetrics env projectId metrics
  updateDonorReputationInternal env metrics.donor .projectFailed (some projectId)

def calculateInfluence (env : Env) (donor : Address) : Res Int := do
  let reputation ← readDonorReputation env donor
  let config := readReputationConfig env
  calculateInfluenceMultiplier reputation.reputationScore config

/-! ### The contract -/

/-- The functions that can change the state, with their arguments. -/
inductive Call where
  | initializeReputation (admin : Address)
  | updateConfig (admin : Address) (minFundingThreshold maxMultiplier : Option Int)
      (calculationWindowSecs : Option Nat) (recencyWeight : Option Int)
  | recordProjectFunded (donor : Address) (projectId : Nat) (fundedAmount : Int)
      (totalMilestones : Nat)
  | recordMilestoneCompleted (projectId milestoneIndex : Nat) (evidenceHash : Option Bytes)
  | recordProjectFailed (projectId : Nat)
  deriving DecidableEq

def Call.exec (env : Env) : Call → Res Env
  | .initializeReputation admin => Reputation.initializeReputation env admin
  | .updateConfig admin minFundingThreshold maxMultiplier calculationWindowSecs recencyWeight =>
      Reputation.updateConfig env admin minFundingThreshold maxMultiplier
        calculationWindowSecs recencyWeight
  | .recordProjectFunded donor projectId fundedAmount totalMilestones =>
      Reputation.recordProjectFunded env donor projectId fundedAmount totalMilestones
  | .recordMilestoneCompleted projectId milestoneIndex evidenceHash =>
      Reputation.recordMilestoneCompleted env projectId milestoneIndex evidenceHash
  | .recordProjectFailed projectId => Reputation.recordProjectFailed env projectId

/-- The arguments are values of the machine types of the source. -/
def Call.typed : Call → Bool
  | .initializeReputation _ => true
  | .updateConfig _ minFundingThreshold maxMultiplier calculationWindowSecs recencyWeight =>
      (minFundingThreshold.toList ++ maxMultiplier.toList ++ recencyWeight.toList).all
        (fun x => I128.InRange x) && calculationWindowSecs.toList.all (· < U64.size)
  | .recordProjectFunded _ projectId fundedAmount totalMilestones =>
      projectId < U64.size && I128.InRange fundedAmount && totalMilestones < U32.size
  | .recordMilestoneCompleted projectId milestoneIndex _ =>
      projectId < U64.size && milestoneIndex < U32.size
  | .recordProjectFailed projectId => projectId < U64.size

def contract : Ledger.Contract Address Store Call ReputationError where
  initial := {}
  typed := Call.typed
  exec := Call.exec

end YieldTrust.Reputation
