import YieldTrust.Reputation.Contract

/-!
# YieldTrust.Matching.Contract

The matching pools (`matching_pool.rs`): their records, their entry points in the order of the
source, and the contract they make up together with the reputation of donors, which shares
their storage.
-/

namespace YieldTrust.Matching

open Fallible
open GrantStream (Address)
open Reputation (ReputationError)

/-! ### Data -/

/-- `1`, in fixed point. -/
def fixedPointScale : Int := 10 ^ 18

structure MatchingPool where
  poolId : Nat
  admin : Address
  token : Address
  totalMatchAmount : Int
  remainingMatchAmount : Int
  isActive : Bool
  roundStartedAt : Nat
  roundEndsAt : Nat
  requiresSep12 : Bool
  minDonation : Int
  /-- The maximum donation per donor per project. -/
  maxDonationPerDonor : Int
  deriving DecidableEq

structure Donation where
  poolId : Nat
  projectId : Nat
  donor : Address
  amount : Int
  donatedAt : Nat
  matchedAmount : Int
  deriving DecidableEq

structure ProjectContribution where
  poolId : Nat
  projectId : Nat
  /-- The sum of all donated amounts, by the influence of their donors. -/
  totalContributions : Int
  uniqueDonors : Nat
  sqrtSumOfSqrtDonations : Int
  totalMatched : Int
  deriving DecidableEq

structure MatchingRound where
  poolId : Nat
  isFinalized : Bool
  finalizedAt : Nat
  totalMatchedDistributed : Int
  projectCount : Nat
  donationCount : Nat
  deriving DecidableEq

inductive MatchingError where
  | notInitialized
  | notAuthorized
  | poolNotFound
  | poolInactive
  | invalidAmount
  | insufficientMatchFunds
  | sep12VerificationRequired
  | sep12NotVerified
  | donationTooSmall
  | donationTooLarge
  | roundNotActive
  | roundAlreadyFinalized
  | projectNotFound
  | mathOverflow
  | invalidTimestamp
  | updateAlreadyProcessed
  deriving DecidableEq

/-- What is stored, by its storage keys. -/
structure Store where
  matchingPool : Nat → Option MatchingPool := fun _ => none
  /-- By pool, project and donor. -/
  donation : Nat → Nat → Address → Option Donation := fun _ _ _ => none
  /-- By pool and project. -/
  projectContributions : Nat → Nat → Option ProjectContribution := fun _ _ => none
  poolDonors : Nat → Option (List Address) := fun _ => none
  poolProjects : Nat → Option (List Nat) := fun _ => none
  sep12Identity : Address → Option Bool := fun _ => none
  /-- By pool and project. -/
  projectMatched : Nat → Nat → Option Int := fun _ _ => none
  matchingRound : Nat → Option MatchingRound := fun _ => none
  reputation : Reputation.Store := {}

abbrev Env := Ledger.Env Address Store

abbrev Res (α : Type) := Fallible MatchingError α

/-! ### Helpers -/

def readPool (env : Env) (poolId : Nat) : Res MatchingPool :=
  okOr (env.store.matchingPool poolId) .poolNotFound

def writePool (env : Env) (pool : MatchingPool) : Env :=
  { env with store := { env.store with
      matchingPool := Function.update env.store.matchingPool pool.poolId (some pool) } }

def writeRound (env : Env) (poolId : Nat) (round : MatchingRound) : Env :=
  { env with store := { env.store with
      matchingRound := Function.update env.store.matchingRound poolId (some round) } }

def writePoolDonors (env : Env) (poolId : Nat) (donors : List Address) : Env :=
  { env with store := { env.store with
      poolDonors := Function.update env.store.poolDonors poolId (some donors) } }

def writePoolProjects (env : Env) (poolId : Nat) (projects : List Nat) : Env :=
  { env with store := { env.store with
      poolProjects := Function.update env.store.poolProjects poolId (some projects) } }

def writeDonation (env : Env) (donation : Donation) : Env :=
  { env with store := { env.store with
      donation := Function.update env.store.donation donation.poolId
        (Function.update (env.store.donation donation.poolId) donation.projectId
          (Function.update (env.store.donation donation.poolId donation.projectId) donation.donor
            (some donation))) } }

def writeContributions (env : Env) (poolId projectId : Nat)
    (contributions : ProjectContribution) : Env :=
  { env with store := { env.store with
      projectContributions := Function.update env.store.projectContributions poolId
        (Function.update (env.store.projectContributions poolId) projectId
          (some contributions)) } }

def writeMatched (env : Env) (poolId projectId : Nat) (matchedAmount : Int) : Env :=
  { env with store := { env.store with
      projectMatched := Function.update env.store.projectMatched poolId
        (Function.update (env.store.projectMatched poolId) projectId (some matchedAmount)) } }

/-- The loop of `isqrtFixedPoint`, with the number of rounds that are left. -/
def isqrtLoop (n : Int) : Nat → Int → Res Int
  | 0, x => pure x
  | rounds + 1, x => do
    let quotient ← okOr (I128.checkedDiv n x) .mathOverflow
    let sum ← orTrap (I128.checkedAdd x quotient)
    let next ← okOr (I128.checkedDiv sum 2) .mathOverflow
    if next = x then
      pure next
    else
      isqrtLoop n rounds next

/-- The integer square root, by Newton's method. -/
def isqrtFixedPoint (n : Int) : Res Int :=
  if n < 0 then fail .mathOverflow
  else if n = 0 then pure 0
  else isqrtLoop n 100 (max (n.tdiv 2) 1)

def calculateQuadraticMatchingComponent (projectSqrts : List Int) : Res Int :=
  projectSqrts.foldlM (fun sum sqrtVal => okOr (I128.checkedAdd sum sqrtVal) .mathOverflow) 0

def checkSep12Verification (env : Env) (address : Address) (pool : MatchingPool) : Res Unit :=
  ensure (pool.requiresSep12 = true → (env.store.sep12Identity address).getD false = true)
    .sep12NotVerified

/-! ### Entry points -/

def initializePool (env : Env) (poolId : Nat) (admin token : Address) (totalMatchAmount : Int)
    (roundDurationSecs : Nat) (requiresSep12 : Bool) (minDonation maxDonationPerDonor : Int) :
    Res Env := do
  env.requireAuth admin
  ensure (0 < totalMatchAmount ∧ 0 < minDonation) .invalidAmount
  let now := env.timestamp
  let roundEndsAt ← okOr (U64.checkedAdd now roundDurationSecs) .invalidTimestamp
  -- a pool with this id is overwritten
  let env := writePool env
    { poolId, admin, token, totalMatchAmount, remainingMatchAmount := totalMatchAmount
      isActive := true, roundStartedAt := now, roundEndsAt, requiresSep12, minDonation
      maxDonationPerDonor }
  let env := writeRound env poolId
    { poolId, isFinalized := false, finalizedAt := 0, totalMatchedDistributed := 0
      projectCount := 0, donationCount := 0 }
  let env := writePoolDonors env poolId []
  return writePoolProjects env poolId []

def verifySep12Identity (env : Env) (admin donor : Address) : Res Env := do
  env.requireAuth admin
  return { env with store := { env.store with
      sep12Identity := Function.update env.store.sep12Identity donor (some true) } }

/-- What the reputation functions see. -/
def reputationEnv (env : Env) : Reputation.Env where
  timestamp := env.timestamp
  sequence := env.sequence
  auths := env.auths
  self := env.self
  tokens := env.tokens
  store := env.store.reputation

/-- The influence of the donor; `1` without a reputation. -/
def influenceOf (env : Env) (donor : Address) : Res Int :=
  match Reputation.calculateInfluence (reputationEnv env) donor with
  | .ok multiplier => pure multiplier
  | .error (.error _) => pure fixedPointScale
  | .error .trap => trap

/-- The contributions to the project so far. -/
def readContributions (env : Env) (poolId projectId : Nat) : ProjectContribution :=
  (env.store.projectContributions poolId projectId).getD
    { poolId, projectId, totalContributions := 0, uniqueDonors := 0, sqrtSumOfSqrtDonations := 0
      totalMatched := 0 }

/-- The number of donors after a donation. -/
def countDonor (uniqueDonors : Nat) (isNewDonor : Bool) : Res Nat :=
  if isNewDonor then okOr (U32.checkedAdd uniqueDonors 1) .mathOverflow else pure uniqueDonors

def donate (env : Env) (poolId projectId : Nat) (donor : Address) (amount : Int) : Res Env := do
  env.requireAuth donor
  let pool ← readPool env poolId
  ensure (pool.isActive = true) .poolInactive
  let now := env.timestamp
  ensure (now ≤ pool.roundEndsAt) .roundNotActive
  ensure (pool.minDonation ≤ amount ∧ amount ≤ pool.maxDonationPerDonor) .invalidAmount
  checkSep12Verification env donor pool
  let influenceMultiplier ← influenceOf env donor
  let product ← okOr (I128.checkedMul amount influenceMultiplier) .mathOverflow
  let influencedAmount ← okOr (I128.checkedDiv product fixedPointScale) .mathOverflow
  let env ← env.transfer pool.token donor env.self amount
  let isNewDonor := (env.store.donation poolId projectId donor).isNone
  let env := writeDonation env
    { poolId, projectId, donor, amount, donatedAt := now, matchedAmount := 0 }
  let contributions := readContributions env poolId projectId
  let totalContributions ←
    okOr (I128.checkedAdd contributions.totalContributions influencedAmount) .mathOverflow
  let uniqueDonors ← countDonor contributions.uniqueDonors isNewDonor
  let env := writeContributions env poolId projectId
    { contributions with totalContributions, uniqueDonors }
  let donors := (env.store.poolDonors poolId).getD []
  if donor ∈ donors then
    return env
  return writePoolDonors env poolId (donors ++ [donor])

/-- The first round over the projects: note the square root of what was contributed. -/
def recordSqrt (poolId : Nat) (state : Env × List Int) (projectId : Nat) :
    Res (Env × List Int) := do
  let (env, allSqrtDonations) := state
  let contribs ← okOr (env.store.projectContributions poolId projectId) .projectNotFound
  let product ← okOr (I128.checkedMul contribs.totalContributions fixedPointScale) .mathOverflow
  let sqrtTotal ← isqrtFixedPoint product
  let env := writeContributions env poolId projectId
    { contribs with sqrtSumOfSqrtDonations := sqrtTotal }
  return (env, allSqrtDonations ++ [sqrtTotal])

/-- The part of a project in what remains. -/
def proportionalMatch (sqrtProj remainingMatchAmount matchComponent : Int) : Res Int :=
  if 0 < matchComponent then do
    let product ← okOr (I128.checkedMul sqrtProj remainingMatchAmount) .mathOverflow
    okOr (I128.checkedDiv product matchComponent) .mathOverflow
  else
    pure 0

/-- The second round over the projects: give each its part of what remains. -/
def recordMatch (poolId : Nat) (remainingMatchAmount matchComponent : Int) (state : Env × Int)
    (projectId : Nat) : Res (Env × Int) := do
  let (env, totalToDistribute) := state
  let contribs ← okOr (env.store.projectContributions poolId projectId) .projectNotFound
  let product ← okOr (I128.checkedMul contribs.totalContributions fixedPointScale) .mathOverflow
  let sqrtProj ← isqrtFixedPoint product
  let matchedAmount ← proportionalMatch sqrtProj remainingMatchAmount matchComponent
  let totalToDistribute ← okOr (I128.checkedAdd totalToDistribute matchedAmount) .mathOverflow
  let env := writeMatched env poolId projectId matchedAmount
  let env := writeContributions env poolId projectId { contribs with totalMatched := matchedAmount }
  return (env, totalToDistribute)

def calculateMatching (env : Env) (poolId : Nat) (projects : List Nat) : Res (Env × Int) := do
  let pool ← readPool env poolId
  env.requireAuth pool.admin
  let now := env.timestamp
  ensure (pool.roundEndsAt < now) .roundNotActive
  let round ← okOr (env.store.matchingRound poolId) .poolNotFound
  ensure (round.isFinalized = false) .roundAlreadyFinalized
  let (env, allSqrtDonations) ← projects.foldlM (recordSqrt poolId) (env, [])
  let matchComponent ← calculateQuadraticMatchingComponent allSqrtDonations
  let (env, totalToDistribute) ←
    projects.foldlM (recordMatch poolId pool.remainingMatchAmount matchComponent) (env, 0)
  let actualDistribution := min totalToDistribute pool.remainingMatchAmount
  let remainingMatchAmount ←
    okOr (I128.checkedSub pool.remainingMatchAmount actualDistribution) .mathOverflow
  let env := writePool env { pool with remainingMatchAmount }
  let env := writeRound env poolId
    { round with
      isFinalized := true, finalizedAt := now, totalMatchedDistributed := actualDistribution
      projectCount := projects.length }
  return (env, actualDistribution)

def distributeMatchedFunds (env : Env) (poolId projectId : Nat) (recipient : Address) :
    Res (Env × Int) := do
  let pool ← readPool env poolId
  env.requireAuth pool.admin
  let matchedAmount ← okOr (env.store.projectMatched poolId projectId) .projectNotFound
  if matchedAmount ≤ 0 then
    return (env, 0)
  -- nothing marks the project as paid
  let env ← env.transfer pool.token env.self recipient matchedAmount
  return (env, matchedAmount)

/-! ### The contract -/

/-- The errors of both parts of the contract. -/
inductive Error where
  | matching (e : MatchingError)
  | reputation (e : ReputationError)
  deriving DecidableEq

/-- The entry points that can change the state, with their arguments. -/
inductive Call where
  | initializePool (poolId : Nat) (admin token : Address) (totalMatchAmount : Int)
      (roundDurationSecs : Nat) (requiresSep12 : Bool) (minDonation maxDonationPerDonor : Int)
  | verifySep12Identity (admin donor : Address)
  | donate (poolId projectId : Nat) (donor : Address) (amount : Int)
  | calculateMatching (poolId : Nat) (projects : List Nat)
  | distributeMatchedFunds (poolId projectId : Nat) (recipient : Address)
  | reputation (call : Reputation.Call)
  deriving DecidableEq

/-- Perform a call; its return value is dropped. -/
def Call.exec (env : Env) : Call → Fallible Error Env
  | .initializePool poolId admin token totalMatchAmount roundDurationSecs requiresSep12 minDonation
      maxDonationPerDonor =>
      mapErr .matching (Matching.initializePool env poolId admin token totalMatchAmount
        roundDurationSecs requiresSep12 minDonation maxDonationPerDonor)
  | .verifySep12Identity admin donor =>
      mapErr .matching (Matching.verifySep12Identity env admin donor)
  | .donate poolId projectId donor amount =>
      mapErr .matching (Matching.donate env poolId projectId donor amount)
  | .calculateMatching poolId projects =>
      mapErr .matching (Prod.fst <$> Matching.calculateMatching env poolId projects)
  | .distributeMatchedFunds poolId projectId recipient =>
      mapErr .matching (Prod.fst <$> Matching.distributeMatchedFunds env poolId projectId recipient)
  | .reputation call =>
      mapErr .reputation ((fun result : Reputation.Env =>
        { env with store := { env.store with reputation := result.store } }) <$>
          call.exec (reputationEnv env))

/-- The arguments are values of the machine types of the source. -/
def Call.typed : Call → Bool
  | .initializePool poolId _ _ totalMatchAmount roundDurationSecs _ minDonation
      maxDonationPerDonor =>
      poolId < U64.size && I128.InRange totalMatchAmount && roundDurationSecs < U64.size &&
        I128.InRange minDonation && I128.InRange maxDonationPerDonor
  | .verifySep12Identity _ _ => true
  | .donate poolId projectId _ amount =>
      poolId < U64.size && projectId < U64.size && I128.InRange amount
  | .calculateMatching poolId projects =>
      poolId < U64.size && projects.all (· < U64.size) && projects.length < U32.size
  | .distributeMatchedFunds poolId projectId _ => poolId < U64.size && projectId < U64.size
  | .reputation call => call.typed

def contract : Ledger.Contract Address Store Call Error where
  initial := {}
  typed := Call.typed
  exec := Call.exec

end YieldTrust.Matching
