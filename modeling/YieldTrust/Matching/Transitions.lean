import Mathlib.Algebra.Order.BigOperators.Group.List
import YieldTrust.Lib.PartialMap
import YieldTrust.Matching.Contract
import YieldTrust.Reputation.Influence

/-!
# YieldTrust.Matching.Transitions

What the calls do. `exec_effect` inverts a call that went through: the guards that it passed,
and the environment that it left, without the overflow checks.
-/

namespace YieldTrust.Matching

open Fallible
open GrantStream (Address)

/-! ### Square roots -/

section SquareRoots

variable {n x r : Int} {rounds : Nat}

theorem isqrtLoop_pos (hn : 0 < n) (hx : 0 < x) (h : isqrtLoop n rounds x = .ok r) : 0 < r := by
  induction rounds generalizing x with
  | zero => exact pure_eq_ok.mp h ▸ hx
  | succ rounds ih =>
      simp only [isqrtLoop, bind_eq_ok, okOr_eq_ok, orTrap_eq_ok, I128.checkedDiv_eq_some,
        I128.checkedAdd_eq_some] at h
      obtain ⟨_, ⟨-, -, rfl⟩, _, ⟨-, rfl⟩, _, ⟨-, -, rfl⟩, h⟩ := h
      have hquotient : 0 ≤ n.tdiv x := Int.tdiv_nonneg hn.le hx.le
      have hsum : 2 ≤ x + n.tdiv x := by
        by_cases hone : x = 1
        · subst hone
          rw [Int.tdiv_one]
          omega
        · omega
      have hnext : 0 < (x + n.tdiv x).tdiv 2 := by
        rw [Int.tdiv_eq_ediv_of_nonneg (by omega)]
        omega
      split_ifs at h
      · exact pure_eq_ok.mp h ▸ hnext
      · exact ih hnext h

theorem isqrtFixedPoint_nonneg (h : isqrtFixedPoint n = .ok r) : 0 ≤ r := by
  unfold isqrtFixedPoint at h
  split_ifs at h with hneg hzero
  · exact absurd h fail_ne_ok
  · exact (pure_eq_ok.mp h).le
  · have hn : 0 < n := by omega
    exact (isqrtLoop_pos hn (lt_max_of_lt_right (by decide)) h).le

end SquareRoots

/-! ### The calculation of the matches -/

/-- What counts for the matches. -/
def ProjectContribution.tally (contributions : ProjectContribution) : Int × Nat :=
  (contributions.totalContributions, contributions.uniqueDonors)

/-- The square root of what was contributed to the project. -/
def Store.sqrtOf (store : Store) (poolId projectId : Nat) : Int :=
  match store.projectContributions poolId projectId with
  | some contribs =>
    (isqrtFixedPoint (contribs.totalContributions * fixedPointScale)).toOption.getD 0
  | none => 0

/-- The part of a project with this square root in what remains. -/
def matchShare (remaining component sqrtProj : Int) : Int :=
  if 0 < component then (sqrtProj * remaining).tdiv component else 0

theorem Store.sqrtOf_nonneg (store : Store) (poolId projectId : Nat) :
    0 ≤ store.sqrtOf poolId projectId := by
  unfold sqrtOf
  cases store.projectContributions poolId projectId with
  | none => exact le_rfl
  | some contribs =>
      dsimp only
      cases hr : isqrtFixedPoint (contribs.totalContributions * fixedPointScale) with
      | ok r => exact isqrtFixedPoint_nonneg hr
      | error fault => exact le_rfl

/-- Only the notes of a calculation differ: the matches, and what is noted with the
contributions. -/
structure Recalculated (env env' : Env) : Prop where
  rest : env' = { env with store := { env.store with
    projectContributions := env'.store.projectContributions
    projectMatched := env'.store.projectMatched } }
  tally : ∀ poolId projectId, (env'.store.projectContributions poolId projectId).map (·.tally) =
    (env.store.projectContributions poolId projectId).map (·.tally)

namespace Recalculated

variable {env env' env'' : Env}

theorem refl (env : Env) : Recalculated env env := ⟨rfl, fun _ _ => rfl⟩

theorem trans (h : Recalculated env env') (h' : Recalculated env' env'') :
    Recalculated env env'' where
  rest := by
    rw [h'.rest, h.rest]
  tally poolId projectId := (h'.tally poolId projectId).trans (h.tally poolId projectId)

theorem sqrtOf_eq (h : Recalculated env env') (poolId projectId : Nat) :
    env'.store.sqrtOf poolId projectId = env.store.sqrtOf poolId projectId := by
  have htally := h.tally poolId projectId
  unfold Store.sqrtOf
  cases hc : env.store.projectContributions poolId projectId <;>
    cases hc' : env'.store.projectContributions poolId projectId
  · rfl
  · simp [hc, hc'] at htally
  · simp [hc, hc'] at htally
  · simp only [hc, hc', Option.map_some, Option.some.injEq] at htally
    have htotal := (Prod.ext_iff.mp htally).1
    simp only [ProjectContribution.tally] at htotal
    simp only [htotal]

/-- A write to the contributions of one project that keeps what counts. -/
theorem writeContributions {poolId projectId : Nat} {before after : ProjectContribution}
    (hbefore : env.store.projectContributions poolId projectId = some before)
    (htally : after.tally = before.tally) :
    Recalculated env (Matching.writeContributions env poolId projectId after) where
  rest := rfl
  tally pool project := by
    by_cases hpool : pool = poolId
    · subst hpool
      by_cases hproject : project = projectId
      · subst hproject
        simp [Matching.writeContributions, hbefore, htally]
      · simp [Matching.writeContributions, hproject]
    · simp [Matching.writeContributions, hpool]

end Recalculated

section Loops

variable {env env' : Env} {poolId projectId : Nat} {projects : List Nat}

/-- What both loops read of a project. -/
theorem sqrtOf_eq_of_read {contribs : ProjectContribution} {root : Int}
    (hc : env.store.projectContributions poolId projectId = some contribs)
    (hroot : isqrtFixedPoint (contribs.totalContributions * fixedPointScale) = .ok root) :
    root = env.store.sqrtOf poolId projectId := by
  simp [Store.sqrtOf, hc, hroot, Except.toOption]

theorem recordSqrt_eq_ok {state state' : Env × List Int}
    (h : recordSqrt poolId state projectId = .ok state') :
    Recalculated state.1 state'.1 ∧
      state'.1.store.projectMatched = state.1.store.projectMatched ∧
      state'.2 = state.2 ++ [state.1.store.sqrtOf poolId projectId] := by
  unfold recordSqrt at h
  simp only [bind_eq_ok, okOr_eq_ok, pure_eq_ok, I128.checkedMul_eq_some] at h
  obtain ⟨contribs, hc, _, ⟨-, rfl⟩, root, hroot, rfl⟩ := h
  refine ⟨.writeContributions hc rfl, rfl, ?_⟩
  rw [← sqrtOf_eq_of_read hc hroot]

theorem foldlM_recordSqrt {state state' : Env × List Int}
    (h : projects.foldlM (recordSqrt poolId) state = .ok state') :
    Recalculated state.1 state'.1 ∧
      state'.1.store.projectMatched = state.1.store.projectMatched ∧
      state'.2 = state.2 ++ projects.map (state.1.store.sqrtOf poolId) := by
  induction projects generalizing state with
  | nil =>
      obtain rfl := pure_eq_ok.mp h
      exact ⟨.refl _, rfl, (List.append_nil _).symm⟩
  | cons projectId projects ih =>
      rw [List.foldlM_cons] at h
      obtain ⟨middle, hround, h⟩ := bind_eq_ok.mp h
      obtain ⟨hsame, hmatched, hlist⟩ := recordSqrt_eq_ok hround
      obtain ⟨hsame', hmatched', hlist'⟩ := ih h
      refine ⟨hsame.trans hsame', hmatched'.trans hmatched, ?_⟩
      have hroots : projects.map (middle.1.store.sqrtOf poolId) =
          projects.map (state.1.store.sqrtOf poolId) :=
        List.map_congr_left fun project _ => hsame.sqrtOf_eq poolId project
      rw [hlist', hlist, hroots, List.append_assoc]
      rfl

theorem calculateQuadraticMatchingComponent_eq_ok {roots : List Int} {component : Int}
    (h : calculateQuadraticMatchingComponent roots = .ok component) : component = roots.sum := by
  have hsum := foldl_of_foldlM (g := fun sum root => sum + root)
    (fun {sum root next} hround => ?_) h
  · rw [hsum, List.sum_eq_foldl]
  · simp only [okOr_eq_ok, I128.checkedAdd_eq_some] at hround
    exact hround.2.symm

theorem recordMatch_eq_ok {remaining component : Int} {state state' : Env × Int}
    (h : recordMatch poolId remaining component state projectId = .ok state') :
    Recalculated state.1 state'.1 ∧
      (∀ pool project, state'.1.store.projectMatched pool project =
        if pool = poolId ∧ project = projectId then
          some (matchShare remaining component (state.1.store.sqrtOf poolId projectId))
        else state.1.store.projectMatched pool project) ∧
      state'.2 =
        state.2 + matchShare remaining component (state.1.store.sqrtOf poolId projectId) := by
  unfold recordMatch at h
  simp only [bind_eq_ok, okOr_eq_ok, pure_eq_ok, I128.checkedMul_eq_some,
    I128.checkedAdd_eq_some] at h
  obtain ⟨contribs, hc, _, ⟨-, rfl⟩, root, hroot, share, hshare, _, ⟨-, rfl⟩, rfl⟩ := h
  have hshare : share = matchShare remaining component (state.1.store.sqrtOf poolId projectId) := by
    rw [← sqrtOf_eq_of_read hc hroot]
    unfold proportionalMatch at hshare
    unfold matchShare
    split_ifs at hshare ⊢
    · simp only [bind_eq_ok, okOr_eq_ok, I128.checkedMul_eq_some, I128.checkedDiv_eq_some] at hshare
      obtain ⟨_, ⟨-, rfl⟩, -, -, rfl⟩ := hshare
      rfl
    · exact (pure_eq_ok.mp hshare).symm
  refine ⟨?_, fun pool project => ?_, by rw [hshare]⟩
  · have hwritten : Recalculated state.1 (writeMatched state.1 poolId projectId share) :=
      ⟨rfl, fun _ _ => rfl⟩
    exact hwritten.trans (.writeContributions hc rfl)
  · rw [← hshare]
    by_cases hpool : pool = poolId
    · subst hpool
      by_cases hproject : project = projectId <;>
        simp [writeContributions, writeMatched, hproject]
    · simp [writeContributions, writeMatched, hpool]

theorem foldlM_recordMatch {remaining component : Int} {state state' : Env × Int}
    (h : projects.foldlM (recordMatch poolId remaining component) state = .ok state') :
    Recalculated state.1 state'.1 ∧
      (∀ pool project, state'.1.store.projectMatched pool project =
        if pool = poolId ∧ project ∈ projects then
          some (matchShare remaining component (state.1.store.sqrtOf poolId project))
        else state.1.store.projectMatched pool project) ∧
      state'.2 = state.2 + (projects.map fun project =>
        matchShare remaining component (state.1.store.sqrtOf poolId project)).sum := by
  induction projects generalizing state with
  | nil =>
      obtain rfl := pure_eq_ok.mp h
      exact ⟨.refl _, fun _ _ => by simp, by simp⟩
  | cons projectId projects ih =>
      rw [List.foldlM_cons] at h
      obtain ⟨middle, hround, h⟩ := bind_eq_ok.mp h
      obtain ⟨hsame, hmatched, htotal⟩ := recordMatch_eq_ok hround
      obtain ⟨hsame', hmatched', htotal'⟩ := ih h
      have hroot (project : Nat) : middle.1.store.sqrtOf poolId project =
          state.1.store.sqrtOf poolId project := hsame.sqrtOf_eq poolId project
      simp only [hroot] at hmatched' htotal'
      refine ⟨hsame.trans hsame', fun pool project => ?_, ?_⟩
      · rw [hmatched', hmatched]
        by_cases hpool : pool = poolId
        · by_cases hlater : project ∈ projects
          · simp [hpool, hlater]
          · by_cases hhere : project = projectId <;> simp [hpool, hlater, hhere]
        · simp [hpool]
      · rw [htotal', htotal, List.map_cons, List.sum_cons, Int.add_assoc]

end Loops

/-! ### What a call does -/

/-- The pool that `initializePool` writes. -/
def newPool (now poolId : Nat) (admin token : Address) (totalMatchAmount : Int)
    (roundDurationSecs : Nat) (requiresSep12 : Bool) (minDonation maxDonationPerDonor : Int) :
    MatchingPool where
  poolId := poolId
  admin := admin
  token := token
  totalMatchAmount := totalMatchAmount
  remainingMatchAmount := totalMatchAmount
  isActive := true
  roundStartedAt := now
  roundEndsAt := now + roundDurationSecs
  requiresSep12 := requiresSep12
  minDonation := minDonation
  maxDonationPerDonor := maxDonationPerDonor

@[simp] theorem newPool_poolId (now poolId : Nat) (admin token : Address) (totalMatchAmount : Int)
    (roundDurationSecs : Nat) (requiresSep12 : Bool) (minDonation maxDonationPerDonor : Int) :
    (newPool now poolId admin token totalMatchAmount roundDurationSecs requiresSep12 minDonation
      maxDonationPerDonor).poolId = poolId := rfl

/-- The round of a pool that was just opened. -/
def newRound (poolId : Nat) : MatchingRound where
  poolId := poolId
  isFinalized := false
  finalizedAt := 0
  totalMatchedDistributed := 0
  projectCount := 0
  donationCount := 0

/-- Open a pool, whatever was stored under its id. -/
def openPool (env : Env) (pool : MatchingPool) : Env :=
  writePoolProjects (writePoolDonors (writeRound (writePool env pool) pool.poolId
    (newRound pool.poolId)) pool.poolId []) pool.poolId []

/-- The contributions to a project after a donation. -/
def contributionsAfter (env : Env) (poolId projectId : Nat) (donor : Address)
    (influencedAmount : Int) : ProjectContribution :=
  let contributions := readContributions env poolId projectId
  { contributions with
    totalContributions := contributions.totalContributions + influencedAmount
    uniqueDonors := contributions.uniqueDonors +
      (env.store.donation poolId projectId donor).isNone.toNat }

/-- The donors of a pool after a donation. -/
def donorsAfter (env : Env) (poolId : Nat) (donor : Address) : Env :=
  let donors := (env.store.poolDonors poolId).getD []
  if donor ∈ donors then env else writePoolDonors env poolId (donors ++ [donor])

/-- Record a donation. -/
def recordDonation (env : Env) (poolId projectId : Nat) (donor : Address)
    (amount influencedAmount : Int) : Env :=
  donorsAfter (writeContributions (writeDonation env
      { poolId, projectId, donor, amount, donatedAt := env.timestamp, matchedAmount := 0 })
    poolId projectId (contributionsAfter env poolId projectId donor influencedAmount)) poolId donor

/-- What a project gets of the pool. -/
def matchOf (env : Env) (pool : MatchingPool) (poolId : Nat) (projects : List Nat)
    (projectId : Nat) : Int :=
  matchShare pool.remainingMatchAmount (projects.map (env.store.sqrtOf poolId)).sum
    (env.store.sqrtOf poolId projectId)

/-- What the projects take out of the pool. -/
def distribution (env : Env) (pool : MatchingPool) (poolId : Nat) (projects : List Nat) : Int :=
  min (projects.map (matchOf env pool poolId projects)).sum pool.remainingMatchAmount

/-- What a calculation leaves. -/
structure Calculated (env : Env) (pool : MatchingPool) (round : MatchingRound) (poolId : Nat)
    (projects : List Nat) (env' : Env) : Prop where
  matchingPool : env'.store.matchingPool = Function.update env.store.matchingPool pool.poolId
    (some { pool with
      remainingMatchAmount :=
        pool.remainingMatchAmount - distribution env pool poolId projects })
  matchingRound : env'.store.matchingRound = Function.update env.store.matchingRound poolId
    (some { round with
      isFinalized := true
      finalizedAt := env.timestamp
      totalMatchedDistributed := distribution env pool poolId projects
      projectCount := projects.length })
  projectMatched : ∀ otherPool project, env'.store.projectMatched otherPool project =
    if otherPool = poolId ∧ project ∈ projects then some (matchOf env pool poolId projects project)
    else env.store.projectMatched otherPool project
  tally : ∀ otherPool project,
    (env'.store.projectContributions otherPool project).map (·.tally) =
      (env.store.projectContributions otherPool project).map (·.tally)
  donation : env'.store.donation = env.store.donation
  poolDonors : env'.store.poolDonors = env.store.poolDonors
  reputation : env'.store.reputation = env.store.reputation
  tokens : env'.tokens = env.tokens

/-- What a call that went through has done. -/
inductive Effect (env : Env) : Call → Env → Prop
  | initialized {poolId : Nat} {admin token : Address} {totalMatchAmount : Int}
      {roundDurationSecs : Nat} {requiresSep12 : Bool} {minDonation maxDonationPerDonor : Int}
      (hauth : admin ∈ env.auths) (htotal : 0 < totalMatchAmount) (hmin : 0 < minDonation) :
      Effect env (.initializePool poolId admin token totalMatchAmount roundDurationSecs
        requiresSep12 minDonation maxDonationPerDonor)
        (openPool env (newPool env.timestamp poolId admin token totalMatchAmount
          roundDurationSecs requiresSep12 minDonation maxDonationPerDonor))
  | verified {admin donor : Address} :
      Effect env (.verifySep12Identity admin donor)
        { env with store := { env.store with
          sep12Identity := Function.update env.store.sep12Identity donor (some true) } }
  | donated {poolId projectId : Nat} {donor : Address} {amount multiplier : Int}
      {pool : MatchingPool} {tokens : TokenLedger Address}
      (hpool : env.store.matchingPool poolId = some pool) (hmin : pool.minDonation ≤ amount)
      (hmax : amount ≤ pool.maxDonationPerDonor)
      (hinfluence : influenceOf env donor = .ok multiplier)
      (htransfer : env.tokens.transfer pool.token donor env.self amount = some tokens) :
      Effect env (.donate poolId projectId donor amount)
        (recordDonation { env with tokens } poolId projectId donor amount
          ((amount * multiplier).tdiv fixedPointScale))
  | calculated {poolId : Nat} {projects : List Nat} {pool : MatchingPool} {round : MatchingRound}
      {env' : Env} (hpool : env.store.matchingPool poolId = some pool)
      (hauth : pool.admin ∈ env.auths) (hround : env.store.matchingRound poolId = some round)
      (hopen : round.isFinalized = false)
      (hcalculated : Calculated env pool round poolId projects env') :
      Effect env (.calculateMatching poolId projects) env'
  | unmatched {poolId projectId : Nat} {recipient : Address} {pool : MatchingPool}
      {matchedAmount : Int} (hpool : env.store.matchingPool poolId = some pool)
      (hauth : pool.admin ∈ env.auths)
      (hmatched : env.store.projectMatched poolId projectId = some matchedAmount)
      (hnone : matchedAmount ≤ 0) :
      Effect env (.distributeMatchedFunds poolId projectId recipient) env
  | distributed {poolId projectId : Nat} {recipient : Address} {pool : MatchingPool}
      {matchedAmount : Int} {tokens : TokenLedger Address}
      (hpool : env.store.matchingPool poolId = some pool) (hauth : pool.admin ∈ env.auths)
      (hmatched : env.store.projectMatched poolId projectId = some matchedAmount)
      (hpos : 0 < matchedAmount)
      (htransfer : env.tokens.transfer pool.token env.self recipient matchedAmount = some tokens) :
      Effect env (.distributeMatchedFunds poolId projectId recipient) { env with tokens }
  | reputation {call : Reputation.Call} {result : Reputation.Env}
      (hexec : call.exec (reputationEnv env) = .ok result) :
      Effect env (.reputation call)
        { env with store := { env.store with reputation := result.store } }

section Calls

variable {env env' : Env} {poolId projectId : Nat}

theorem initializePool_effect {admin token : Address} {totalMatchAmount : Int}
    {roundDurationSecs : Nat} {requiresSep12 : Bool} {minDonation maxDonationPerDonor : Int}
    (h : initializePool env poolId admin token totalMatchAmount roundDurationSecs requiresSep12
      minDonation maxDonationPerDonor = .ok env') :
    Effect env (.initializePool poolId admin token totalMatchAmount roundDurationSecs
      requiresSep12 minDonation maxDonationPerDonor) env' := by
  unfold initializePool Ledger.Env.requireAuth at h
  simp only [bind_eq_ok, okOr_eq_ok, ensure_eq_ok, require_eq_ok, pure_eq_ok,
    U64.checkedAdd_eq_some] at h
  obtain ⟨-, hauth, -, ⟨htotal, hmin⟩, _, ⟨-, rfl⟩, rfl⟩ := h
  exact .initialized hauth htotal hmin

theorem verifySep12Identity_effect {admin donor : Address}
    (h : verifySep12Identity env admin donor = .ok env') :
    Effect env (.verifySep12Identity admin donor) env' := by
  unfold verifySep12Identity at h
  simp only [bind_eq_ok, pure_eq_ok] at h
  obtain ⟨-, -, rfl⟩ := h
  exact .verified

theorem countDonor_eq_ok {uniqueDonors count : Nat} {isNewDonor : Bool}
    (h : countDonor uniqueDonors isNewDonor = .ok count) :
    count = uniqueDonors + isNewDonor.toNat := by
  unfold countDonor at h
  cases isNewDonor with
  | true =>
      simp only [if_true, okOr_eq_ok, U32.checkedAdd_eq_some] at h
      exact h.2.symm
  | false => exact (pure_eq_ok.mp h).symm

theorem donate_effect {donor : Address} {amount : Int}
    (h : donate env poolId projectId donor amount = .ok env') :
    Effect env (.donate poolId projectId donor amount) env' := by
  unfold donate readPool at h
  simp only [bind_eq_ok, okOr_eq_ok, ensure_eq_ok, I128.checkedMul_eq_some,
    I128.checkedDiv_eq_some, I128.checkedAdd_eq_some, Ledger.Env.transfer_eq_ok] at h
  obtain ⟨-, -, pool, hpool, -, -, -, -, -, ⟨hmin, hmax⟩, -, -, multiplier, hinfluence, _, ⟨-, rfl⟩,
    _, ⟨-, -, rfl⟩, _, ⟨tokens, htransfer, rfl⟩, _, ⟨-, rfl⟩, count, hcount, h⟩ := h
  have heffect : Effect env (.donate poolId projectId donor amount) _ :=
    .donated hpool hmin hmax hinfluence htransfer
  obtain rfl := countDonor_eq_ok hcount
  unfold recordDonation donorsAfter contributionsAfter at heffect
  dsimp only at h heffect
  split_ifs at h heffect with hmem hmem' hmem'
  · exact pure_eq_ok.mp h ▸ heffect
  · exact absurd hmem hmem'
  · exact absurd hmem' hmem
  · exact pure_eq_ok.mp h ▸ heffect

theorem calculateMatching_effect {projects : List Nat} {result : Env × Int}
    (h : calculateMatching env poolId projects = .ok result) :
    Effect env (.calculateMatching poolId projects) result.1 := by
  unfold calculateMatching readPool Ledger.Env.requireAuth at h
  simp only [bind_eq_ok, okOr_eq_ok, ensure_eq_ok, require_eq_ok, pure_eq_ok,
    I128.checkedSub_eq_some] at h
  obtain ⟨pool, hpool, -, hauth, -, -, round, hround, -, hopen, ⟨noted, roots⟩, hnoted, component,
    hcomponent, ⟨matched, total⟩, hmatched, _, ⟨-, rfl⟩, rfl⟩ := h
  obtain ⟨hsame, hkept, hroots⟩ := foldlM_recordSqrt hnoted
  have hcomponent := calculateQuadraticMatchingComponent_eq_ok hcomponent
  obtain ⟨hsame', hwritten, htotal⟩ := foldlM_recordMatch hmatched
  dsimp only [List.nil_append] at hsame hkept hroots hsame' hwritten htotal
  rw [hroots] at hcomponent
  dsimp only at hcomponent
  simp only [hsame.sqrtOf_eq, hcomponent, Int.zero_add] at hwritten htotal
  have hrecalculated := hsame.trans hsame'
  have hdistribution : min total pool.remainingMatchAmount =
      distribution env pool poolId projects := by
    rw [htotal]
    rfl
  refine .calculated hpool hauth hround hopen ?_
  dsimp only
  rw [hdistribution]
  have hrest := hrecalculated.rest
  exact { matchingPool := by rw [hrest]; rfl
          matchingRound := by rw [hrest]; rfl
          projectMatched := fun pool project => by
            rw [← hkept]
            exact hwritten pool project
          tally := hrecalculated.tally
          donation := by rw [hrest]; rfl
          poolDonors := by rw [hrest]; rfl
          reputation := by rw [hrest]; rfl
          tokens := by rw [hrest]; rfl }

theorem distributeMatchedFunds_effect {recipient : Address} {result : Env × Int}
    (h : distributeMatchedFunds env poolId projectId recipient = .ok result) :
    Effect env (.distributeMatchedFunds poolId projectId recipient) result.1 := by
  unfold distributeMatchedFunds readPool Ledger.Env.requireAuth at h
  simp only [bind_eq_ok, okOr_eq_ok, require_eq_ok] at h
  obtain ⟨pool, hpool, -, hauth, matchedAmount, hmatched, h⟩ := h
  split_ifs at h with hnone
  · obtain rfl := pure_eq_ok.mp h
    exact .unmatched hpool hauth hmatched hnone
  · simp only [bind_eq_ok, pure_eq_ok, Ledger.Env.transfer_eq_ok] at h
    obtain ⟨_, ⟨tokens, htransfer, rfl⟩, rfl⟩ := h
    exact .distributed hpool hauth hmatched (Int.not_le.mp hnone) htransfer

/-- **Inversion** of a call. -/
theorem exec_effect {call : Call} (h : call.exec env = .ok env') : Effect env call env' := by
  cases call with
  | initializePool => exact initializePool_effect (mapErr_eq_ok.mp h)
  | verifySep12Identity => exact verifySep12Identity_effect (mapErr_eq_ok.mp h)
  | donate => exact donate_effect (mapErr_eq_ok.mp h)
  | calculateMatching =>
      obtain ⟨result, hresult, rfl⟩ := map_eq_ok.mp (mapErr_eq_ok.mp h)
      exact calculateMatching_effect hresult
  | distributeMatchedFunds =>
      obtain ⟨result, hresult, rfl⟩ := map_eq_ok.mp (mapErr_eq_ok.mp h)
      exact distributeMatchedFunds_effect hresult
  | reputation call =>
      obtain ⟨result, hresult, rfl⟩ := map_eq_ok.mp (mapErr_eq_ok.mp h)
      exact .reputation hresult

end Calls

/-! ### Pools -/

/-- What holds of every pool that is stored. -/
structure MatchingPool.Sound (pool : MatchingPool) (poolId : Nat) : Prop where
  poolId : pool.poolId = poolId
  remaining_nonneg : 0 ≤ pool.remainingMatchAmount
  remaining_le : pool.remainingMatchAmount ≤ pool.totalMatchAmount
  minDonation_pos : 0 < pool.minDonation

def Store.Sound (store : Store) : Prop :=
  ∀ poolId pool, store.matchingPool poolId = some pool → pool.Sound poolId

section Pools

variable {env env' : Env} {poolId projectId : Nat} {pool : MatchingPool}

theorem matchShare_nonneg {remaining component sqrtProj : Int} (hremaining : 0 ≤ remaining)
    (hsqrt : 0 ≤ sqrtProj) : 0 ≤ matchShare remaining component sqrtProj := by
  unfold matchShare
  split_ifs with hpos
  · exact Int.tdiv_nonneg (Int.mul_nonneg hsqrt hremaining) hpos.le
  · exact le_rfl

theorem distribution_nonneg (h : 0 ≤ pool.remainingMatchAmount) (projects : List Nat) :
    0 ≤ distribution env pool poolId projects := by
  refine le_min (List.sum_nonneg fun share hmem => ?_) h
  obtain ⟨projectId, -, rfl⟩ := List.mem_map.mp hmem
  exact matchShare_nonneg h (env.store.sqrtOf_nonneg poolId projectId)

@[simp] theorem openPool_matchingPool : (openPool env pool).store.matchingPool =
    Function.update env.store.matchingPool pool.poolId (some pool) := rfl

@[simp] theorem openPool_matchingRound : (openPool env pool).store.matchingRound =
    Function.update env.store.matchingRound pool.poolId (some (newRound pool.poolId)) := rfl

@[simp] theorem openPool_poolDonors : (openPool env pool).store.poolDonors =
    Function.update env.store.poolDonors pool.poolId (some []) := rfl

variable {donor : Address} {amount influencedAmount : Int}

/-- A donation changes no pool, no round, no match and no reputation. -/
theorem recordDonation_pools :
    (recordDonation env poolId projectId donor amount influencedAmount).store.matchingPool =
        env.store.matchingPool ∧
      (recordDonation env poolId projectId donor amount influencedAmount).store.matchingRound =
        env.store.matchingRound ∧
      (recordDonation env poolId projectId donor amount influencedAmount).store.projectMatched =
        env.store.projectMatched ∧
      (recordDonation env poolId projectId donor amount influencedAmount).store.reputation =
        env.store.reputation := by
  unfold recordDonation donorsAfter
  dsimp only
  split <;> exact ⟨rfl, rfl, rfl, rfl⟩

theorem recordDonation_donation (otherPool project : Nat) (other : Address) :
    (recordDonation env poolId projectId donor amount influencedAmount).store.donation otherPool
        project other =
      if otherPool = poolId ∧ project = projectId ∧ other = donor then
        some { poolId, projectId, donor, amount, donatedAt := env.timestamp, matchedAmount := 0 }
      else env.store.donation otherPool project other := by
  have hwritten : (recordDonation env poolId projectId donor amount influencedAmount).store.donation
      = (writeDonation env { poolId, projectId, donor, amount, donatedAt := env.timestamp
                             matchedAmount := 0 }).store.donation := by
    unfold recordDonation donorsAfter
    dsimp only
    split <;> rfl
  rw [hwritten]
  by_cases hpool : otherPool = poolId
  · by_cases hproject : project = projectId
    · by_cases hdonor : other = donor <;> simp [writeDonation, hpool, hproject, hdonor]
    · simp [writeDonation, hpool, hproject]
  · simp [writeDonation, hpool]

theorem recordDonation_contributions (otherPool project : Nat) :
    (recordDonation env poolId projectId donor amount
        influencedAmount).store.projectContributions otherPool project =
      if otherPool = poolId ∧ project = projectId then
        some (contributionsAfter env poolId projectId donor influencedAmount)
      else env.store.projectContributions otherPool project := by
  have hwritten : (recordDonation env poolId projectId donor amount
      influencedAmount).store.projectContributions = (writeContributions env poolId projectId
        (contributionsAfter env poolId projectId donor
          influencedAmount)).store.projectContributions := by
    unfold recordDonation donorsAfter
    dsimp only
    split <;> rfl
  rw [hwritten]
  by_cases hpool : otherPool = poolId
  · by_cases hproject : project = projectId <;> simp [writeContributions, hpool, hproject]
  · simp [writeContributions, hpool]

theorem recordDonation_poolDonors (otherPool : Nat) :
    (recordDonation env poolId projectId donor amount influencedAmount).store.poolDonors
        otherPool =
      if otherPool = poolId ∧ donor ∉ (env.store.poolDonors poolId).getD [] then
        some ((env.store.poolDonors poolId).getD [] ++ [donor])
      else env.store.poolDonors otherPool := by
  unfold recordDonation donorsAfter
  dsimp only [writeContributions, writeDonation]
  by_cases hmem : donor ∈ (env.store.poolDonors poolId).getD []
  · simp [hmem]
  · by_cases hpool : otherPool = poolId <;> simp [hmem, hpool, writePoolDonors]

/-- A call keeps the pools sound. -/
theorem Effect.sound {call : Call} (h : Effect env call env') (hs : env.store.Sound) :
    env'.store.Sound := by
  intro otherId other hother
  cases h with
  | @initialized poolId _ _ totalMatchAmount _ _ _ _ _ htotal hmin =>
      rw [openPool_matchingPool] at hother
      rcases PartialMap.update_eq_some.mp hother with ⟨rfl, rfl⟩ | ⟨-, hother⟩
      · exact ⟨rfl, htotal.le, le_rfl, hmin⟩
      · exact hs otherId other hother
  | verified => exact hs otherId other hother
  | donated =>
      rw [recordDonation_pools.1] at hother
      exact hs otherId other hother
  | @calculated poolId projects pool _ _ hpool _ _ _ hcalculated =>
      have hsound := hs poolId pool hpool
      rw [hcalculated.matchingPool, hsound.poolId] at hother
      rcases PartialMap.update_eq_some.mp hother with ⟨rfl, rfl⟩ | ⟨-, hother⟩
      · have hnonneg : 0 ≤ distribution env pool otherId projects :=
          distribution_nonneg hsound.remaining_nonneg projects
        have hle : distribution env pool otherId projects ≤ pool.remainingMatchAmount :=
          min_le_right _ _
        have htotal := hsound.remaining_le
        exact ⟨rfl, by dsimp only; omega, by dsimp only; omega, hsound.minDonation_pos⟩
      · exact hs otherId other hother
  | unmatched => exact hs otherId other hother
  | distributed => exact hs otherId other hother
  | reputation => exact hs otherId other hother

/-- What does not change about a pool: all but the amount that is left. -/
def MatchingPool.terms (pool : MatchingPool) : MatchingPool :=
  { pool with remainingMatchAmount := 0 }

theorem map_of_terms {α : Type} {pool pool' : Option MatchingPool} {f : MatchingPool → α}
    (h : pool'.map (·.terms) = pool.map (·.terms)) (hf : ∀ pool, f pool.terms = f pool) :
    pool'.map f = pool.map f := by
  have hmap := congrArg (Option.map f) h
  simpa [Function.comp_def, hf] using hmap

/-- The call opens a pool. -/
def Call.opens (poolId : Nat) : Call → Bool
  | .initializePool openedId .. => openedId == poolId
  | _ => false

/-- A call that does not open the pool keeps its terms. -/
theorem Effect.terms {call : Call} (h : Effect env call env') (hs : env.store.Sound)
    (hopens : call.opens poolId = false) : (env'.store.matchingPool poolId).map (·.terms) =
      (env.store.matchingPool poolId).map (·.terms) := by
  cases h with
  | @initialized openedId =>
      have hne : poolId ≠ openedId := by
        rintro rfl
        simp [Call.opens] at hopens
      simp [hne]
  | donated => rw [recordDonation_pools.1]
  | @calculated calculatedId _ pool _ _ hpool _ _ _ hcalculated =>
      have hsound := hs calculatedId pool hpool
      rw [hcalculated.matchingPool, hsound.poolId]
      by_cases hne : poolId = calculatedId
      · subst hne
        simp [hpool, hsound.poolId, MatchingPool.terms]
      · simp [hne]
  | verified | unmatched | distributed | reputation => rfl

/-- The reputations change only through their own calls. -/
theorem Effect.reputation_cases {call : Call} (h : Effect env call env') :
    env'.store.reputation = env.store.reputation ∨
      ∃ recorded result, call = .reputation recorded ∧
        recorded.exec (reputationEnv env) = .ok result ∧
        env'.store.reputation = result.store := by
  cases h with
  | donated => exact .inl recordDonation_pools.2.2.2
  | calculated _ _ _ _ hcalculated => exact .inl hcalculated.reputation
  | reputation hexec => exact .inr ⟨_, _, rfl, hexec, rfl⟩
  | initialized | verified | unmatched | distributed => exact .inl rfl

/-- A call keeps the reputations within their bounds. -/
theorem Effect.bounded {call : Call} (h : Effect env call env')
    (hb : env.store.reputation.Bounded) : env'.store.reputation.Bounded := by
  rcases h.reputation_cases with hsame | ⟨_, _, -, hexec, hresult⟩
  · exact hsame ▸ hb
  · exact hresult ▸ (Reputation.exec_effect hexec).bounded hb

/-- The multiplier of a donation is the influence of its donor. -/
theorem influenceOf_eq_ok (hb : env.store.reputation.Bounded) {multiplier : Int}
    (h : influenceOf env donor = .ok multiplier) :
    multiplier = env.store.reputation.influence donor := by
  unfold influenceOf at h
  cases hr : Reputation.calculateInfluence (reputationEnv env) donor with
  | ok m =>
      rw [hr] at h
      have hbounded : (reputationEnv env).store.Bounded := hb
      exact (pure_eq_ok.mp h).symm.trans (Reputation.calculateInfluence_eq_ok hbounded hr)
  | error fault =>
      cases fault with
      | error e =>
          rw [hr] at h
          have hnone : env.store.reputation.donorReputation donor = none :=
            Reputation.calculateInfluence_eq_fail hr
          obtain rfl := pure_eq_ok.mp h
          simp [Reputation.Store.influence, hnone, fixedPointScale, Reputation.reputationScale]
      | trap =>
          rw [hr] at h
          cases h

end Pools

/-! ### Runs -/

abbrev Trace := Ledger.Trace Address Store Call

abbrev Step := Run.Step Env (Ledger.Event Address Call)

/-- **Inversion** of a step. -/
theorem effect_of_next {e : Step} (h : Ledger.Next contract e.before e.action e.after) :
    (Ledger.called contract e = none ∧ e.after.store = e.before.store) ∨
      ∃ call result, Ledger.called contract e = some call ∧
        Effect (e.before.enter e.action) call result ∧ e.after.store = result.store ∧
        e.after.tokens = result.tokens := by
  rcases Ledger.cases_of_next h with hidle | ⟨call, result, hcalled, -, hexec, hafter⟩
  · exact .inl hidle
  · have heffect := exec_effect hexec
    rw [hafter]
    exact .inr ⟨call, result, hcalled, heffect, rfl, rfl⟩

/-- How often the pool was opened. -/
def openings (poolId : Nat) : Trace → Nat
  | [] => 0
  | e :: older =>
    openings poolId older + ((Ledger.called contract e).any (Call.opens poolId)).toNat

theorem openings_cons {e : Step} {older : Trace} {call : Call} {poolId : Nat}
    (hcalled : Ledger.called contract e = some call) :
    openings poolId (e :: older) = openings poolId older + (call.opens poolId).toNat := by
  simp [openings, hcalled]

theorem openings_le_cons (e : Step) (older : Trace) (poolId : Nat) :
    openings poolId older ≤ openings poolId (e :: older) := Nat.le_add_right ..

/-- A pool that was opened at most `count` times was so at every step. -/
theorem each_openings_le {trace : Trace} {poolId count : Nat} (h : openings poolId trace ≤ count) :
    Run.Each (fun e older => openings poolId (e :: older) ≤ count) trace := by
  induction trace with
  | nil => trivial
  | cons e older ih => exact ⟨h, ih ((openings_le_cons e older poolId).trans h)⟩

theorem reputation_bounded {trace : Trace} {env : Env} (h : Ledger.Reachable contract trace env) :
    env.store.reputation.Bounded := by
  refine Ledger.store_invariant (I := fun store => store.reputation.Bounded)
    Reputation.initial_bounded ?_ h
  intro env result call hexec _ hb
  exact (exec_effect hexec).bounded hb

/-- The maximum of the configuration is an `i128`. -/
theorem maxMultiplier_le {trace : Trace} {env : Env} (h : Ledger.Reachable contract trace env) :
    env.store.reputation.config.maxMultiplier ≤ I128.max := by
  refine Ledger.store_invariant
    (I := fun store => store.reputation.config.maxMultiplier ≤ I128.max) (by decide) ?_ h
  intro env result call hexec htyped hle
  rcases (exec_effect hexec).reputation_cases with hsame | ⟨recorded, _, rfl, hrecorded, hresult⟩
  · exact hsame ▸ hle
  · rw [hresult]
    exact Reputation.exec_maxMultiplier_le hrecorded htyped hle

theorem pools_sound {trace : Trace} {env : Env} (h : Ledger.Reachable contract trace env) :
    env.store.Sound := by
  refine Ledger.store_invariant (I := Store.Sound) ?_ ?_ h
  · intro poolId pool hpool
    cases hpool
  · intro env result call hexec _ hs
    exact (exec_effect hexec).sound hs

theorem terms_of_unopened {trace : Trace} {e : Step} {poolId : Nat}
    (h : Ledger.Reachable contract trace e.before)
    (hn : Ledger.Next contract e.before e.action e.after)
    (hopens : openings poolId (e :: trace) = openings poolId trace) :
    (e.after.store.matchingPool poolId).map (·.terms) =
      (e.before.store.matchingPool poolId).map (·.terms) := by
  rcases effect_of_next hn with ⟨-, hstore⟩ | ⟨call, result, hcalled, heffect, hstore, -⟩
  · rw [hstore]
  · rw [openings_cons hcalled] at hopens
    have hunopened : call.opens poolId = false := by simpa using hopens
    have hs : (e.before.enter e.action).store.Sound := (pools_sound h : e.before.store.Sound)
    rw [hstore]
    exact heffect.terms hs hunopened

/-- A pool that was never opened is not there. -/
theorem matchingPool_of_unopened {trace : Trace} {env : Env} {poolId : Nat}
    (h : Ledger.Reachable contract trace env) (hunopened : openings poolId trace = 0) :
    env.store.matchingPool poolId = none := by
  induction h with
  | start h =>
      obtain ⟨self, tokens, rfl⟩ := h
      rfl
  | @step older env event env' h hn ih =>
      let e : Step := ⟨env, event, env'⟩
      have hold : openings poolId older = 0 :=
        Nat.le_zero.mp (hunopened ▸ openings_le_cons e older poolId)
      have hterms := terms_of_unopened (e := e) h hn (hunopened.trans hold.symm)
      have hbefore : e.before.store.matchingPool poolId = none := ih hold
      rw [hbefore] at hterms
      exact Option.map_eq_none_iff.mp hterms

namespace Demo

def self : Address := ⟨[1]⟩

def admin : Address := ⟨[2]⟩

def token : Address := ⟨[3]⟩

def donor : Address := ⟨[4]⟩

def recipient : Address := ⟨[5]⟩

def deployed : Env := .deployed contract self { balance := fun _ _ => 0, log := [] }

theorem deployed_deployed : Ledger.Deployed contract deployed := ⟨_, _, rfl⟩

def call (timestamp : Nat) (caller : Address) (call : Call) : Ledger.Event Address Call :=
  ⟨timestamp, 0, .invoke [caller] call⟩

/-- A pool of `1000` that is open for `100` seconds, for donations from `10` to `50`. -/
def opening (timestamp : Nat) (caller : Address) : Ledger.Event Address Call :=
  call timestamp caller (.initializePool 1 caller token 1000 100 false 10 50)

/-- The contract and a donor have tokens, the pool is opened, and the donor gives `40` to
project `7`. -/
def donated : List (Ledger.Event Address Call) :=
  [⟨0, 0, .tokenMint token self 5000⟩, ⟨0, 0, .tokenMint token donor 500⟩, opening 0 admin,
    call 20 donor (.donate 1 7 donor 40)]

/-- The round is over, and project `7` gets all of the pool. -/
def calculated : List (Ledger.Event Address Call) :=
  donated ++ [call 200 admin (.calculateMatching 1 [7])]

end Demo

end YieldTrust.Matching
