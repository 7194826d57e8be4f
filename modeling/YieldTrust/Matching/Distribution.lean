import YieldTrust.Matching.Payouts
import YieldTrust.Matching.SquareRoot

/-!
# YieldTrust.Matching.Distribution

What one calculation gives to the projects of a pool. The weights are the square roots that
`isqrtFixedPoint` finds, which are in the order of the contributions, and the rest is rounding
down.
-/

namespace YieldTrust.Matching

open Fallible
open GrantStream (Address)

/-! ### The weights -/

/-- What was contributed to the project. -/
def Store.contributed (store : Store) (poolId projectId : Nat) : Int :=
  ((store.projectContributions poolId projectId).map (·.totalContributions)).getD 0

/-- The weight of the project is the root of what was contributed. -/
structure Store.Rooted (store : Store) (poolId projectId : Nat) : Prop where
  inRange : I128.InRange (store.contributed poolId projectId * fixedPointScale)
  root : isqrtFixedPoint (store.contributed poolId projectId * fixedPointScale) =
    .ok (store.sqrtOf poolId projectId)

section Weights

variable {env env' : Env} {store : Store} {poolId p q : Nat} {projects : List Nat}

theorem Store.Rooted.sqrtOf_le (hp : store.Rooted poolId p) (hq : store.Rooted poolId q)
    (hle : store.contributed poolId p ≤ store.contributed poolId q) :
    store.sqrtOf poolId p ≤ store.sqrtOf poolId q :=
  isqrtFixedPoint_mono hp.inRange hq.inRange hp.root hq.root
    (Int.mul_le_mul_of_nonneg_right hle (by decide))

theorem Store.Rooted.sqrtOf_pos (hp : store.Rooted poolId p)
    (hpos : 0 < store.contributed poolId p) : 0 < store.sqrtOf poolId p :=
  isqrtFixedPoint_pos hp.inRange hp.root (Int.mul_pos hpos (by decide))

theorem Recalculated.contributed_eq (h : Recalculated env env') (poolId projectId : Nat) :
    env'.store.contributed poolId projectId = env.store.contributed poolId projectId := by
  have htally := congrArg (Option.map Prod.fst) (h.tally poolId projectId)
  simp only [Option.map_map, Function.comp_def, ProjectContribution.tally] at htally
  unfold Store.contributed
  rw [htally]

theorem Recalculated.rooted_iff (h : Recalculated env env') :
    env'.store.Rooted poolId p ↔ env.store.Rooted poolId p := by
  constructor
  · rintro ⟨hrange, hroot⟩
    rw [h.contributed_eq] at hrange
    rw [h.contributed_eq, h.sqrtOf_eq] at hroot
    exact ⟨hrange, hroot⟩
  · rintro ⟨hrange, hroot⟩
    rw [← h.contributed_eq] at hrange
    rw [← h.contributed_eq, ← h.sqrtOf_eq] at hroot
    exact ⟨hrange, hroot⟩

theorem recordSqrt_rooted {state state' : Env × List Int}
    (h : recordSqrt poolId state p = .ok state') : state.1.store.Rooted poolId p := by
  simp only [recordSqrt, bind_eq_ok, okOr_eq_ok, I128.checkedMul_eq_some] at h
  obtain ⟨contribs, hc, _, ⟨hrange, rfl⟩, root, hroot, -⟩ := h
  have hcontributed : state.1.store.contributed poolId p = contribs.totalContributions := by
    simp [Store.contributed, hc]
  rw [sqrtOf_eq_of_read hc hroot, ← hcontributed] at hroot
  exact ⟨hcontributed ▸ hrange, hroot⟩

/-- The first loop reads the root of every project. -/
theorem foldlM_recordSqrt_rooted {state state' : Env × List Int}
    (h : projects.foldlM (recordSqrt poolId) state = .ok state') :
    ∀ p ∈ projects, state.1.store.Rooted poolId p := by
  induction projects generalizing state with
  | nil => simp
  | cons project projects ih =>
      rw [List.foldlM_cons] at h
      obtain ⟨middle, hround, h⟩ := bind_eq_ok.mp h
      have hsame := (recordSqrt_eq_ok hround).1
      intro p hp
      rcases List.mem_cons.mp hp with rfl | hp
      · exact recordSqrt_rooted hround
      · exact hsame.rooted_iff.mp (ih h p hp)

theorem calculateMatching_rooted {result : Env × Int}
    (h : calculateMatching env poolId projects = .ok result) :
    ∀ p ∈ projects, env.store.Rooted poolId p := by
  simp only [calculateMatching, readPool, Ledger.Env.requireAuth, bind_eq_ok, okOr_eq_ok,
    ensure_eq_ok, require_eq_ok] at h
  obtain ⟨_, -, _, -, _, -, _, -, _, -, noted, hnoted, -⟩ := h
  exact foldlM_recordSqrt_rooted hnoted

end Weights

/-! ### One calculation -/

/-- The listed projects got their parts of `pool`, which became `pool'`. -/
structure Distributes (before after : Store) (poolId : Nat) (projects : List Nat)
    (pool pool' : MatchingPool) : Prop where
  pool_before : before.matchingPool poolId = some pool
  pool_after : after.matchingPool poolId = some pool'
  /-- Over the entries of the list; a project that is listed twice counts twice. -/
  sum_le : (projects.map (after.matched poolId)).sum ≤ pool.remainingMatchAmount
  remaining : pool'.remainingMatchAmount =
    pool.remainingMatchAmount - (projects.map (after.matched poolId)).sum
  remaining_nonneg : 0 ≤ pool'.remainingMatchAmount
  rest_lt : (∃ p ∈ projects, 0 < before.contributed poolId p) →
    pool'.remainingMatchAmount < projects.length
  ordered : ∀ p ∈ projects, ∀ q ∈ projects,
    before.contributed poolId p ≤ before.contributed poolId q →
      after.matched poolId p ≤ after.matched poolId q

section Distributes

variable {env env' : Env} {pool : MatchingPool} {round : MatchingRound} {poolId : Nat}
  {projects : List Nat}

theorem Calculated.matched_eq (h : Calculated env pool round poolId projects env') {p : Nat}
    (hp : p ∈ projects) :
    env'.store.matched poolId p = matchOf env pool poolId projects p := by
  simp [Store.matched, h.projectMatched, hp]

theorem matchShare_mono {remaining component root root' : Int} (hremaining : 0 ≤ remaining)
    (hroot : 0 ≤ root) (hle : root ≤ root') :
    matchShare remaining component root ≤ matchShare remaining component root' := by
  have hprod : root * remaining ≤ root' * remaining :=
    Int.mul_le_mul_of_nonneg_right hle hremaining
  have hnonneg : 0 ≤ root * remaining := Int.mul_nonneg hroot hremaining
  unfold matchShare
  split_ifs with hpos
  · rw [Int.tdiv_eq_ediv_of_nonneg hnonneg, Int.tdiv_eq_ediv_of_nonneg (hnonneg.trans hprod)]
    exact Int.ediv_le_ediv hpos hprod
  · exact le_rfl

/-- What all entries get, and what is left. -/
theorem sum_matchOf_bounds (hremaining : 0 ≤ pool.remainingMatchAmount) (projects : List Nat) :
    (projects.map (matchOf env pool poolId projects)).sum ≤ pool.remainingMatchAmount ∧
      (0 < (projects.map (env.store.sqrtOf poolId)).sum →
        pool.remainingMatchAmount - (projects.map (matchOf env pool poolId projects)).sum <
          projects.length) := by
  by_cases hpos : 0 < (projects.map (env.store.sqrtOf poolId)).sum
  · have hshares := @ProRata.sum_map_shares pool.remainingMatchAmount _ hpos
    have hmatch : projects.map (matchOf env pool poolId projects) =
        (projects.map (env.store.sqrtOf poolId)).map
          (· * pool.remainingMatchAmount / (projects.map (env.store.sqrtOf poolId)).sum) := by
      rw [List.map_map]
      refine List.map_congr_left fun p _ => ?_
      rw [matchOf, matchShare, if_pos hpos, Int.tdiv_eq_ediv_of_nonneg]
      · rfl
      · exact Int.mul_nonneg (env.store.sqrtOf_nonneg poolId p) hremaining
    rw [hmatch]
    rw [List.length_map] at hshares
    exact ⟨hshares.1, fun _ => hshares.2⟩
  · have hnothing : projects.map (matchOf env pool poolId projects) = projects.map fun _ => 0 :=
      List.map_congr_left fun p _ => by rw [matchOf, matchShare, if_neg hpos]
    rw [hnothing]
    exact ⟨by simpa using hremaining, fun h => absurd h hpos⟩

theorem Calculated.distributes (h : Calculated env pool round poolId projects env')
    (hpool : env.store.matchingPool poolId = some pool) (hsound : pool.Sound poolId)
    (hrooted : ∀ p ∈ projects, env.store.Rooted poolId p) :
    ∃ pool', Distributes env.store env'.store poolId projects pool pool' := by
  have hremaining := hsound.remaining_nonneg
  obtain ⟨hle, hrest⟩ := @sum_matchOf_bounds env pool poolId hremaining projects
  have hmatched : projects.map (env'.store.matched poolId) =
      projects.map (matchOf env pool poolId projects) :=
    List.map_congr_left fun p hp => h.matched_eq hp
  have hdistribution : distribution env pool poolId projects =
      (projects.map (env'.store.matched poolId)).sum := by
    rw [hmatched]
    exact min_eq_left hle
  refine ⟨{ pool with remainingMatchAmount :=
    pool.remainingMatchAmount - (projects.map (env'.store.matched poolId)).sum },
    hpool, ?_, ?_, rfl, ?_, ?_, ?_⟩
  · rw [h.matchingPool, hsound.poolId, Function.update_self, hdistribution]
  · rw [hmatched]
    exact hle
  · rw [hmatched]
    exact Int.sub_nonneg_of_le hle
  · rintro ⟨p, hp, hpos⟩
    dsimp only
    rw [hmatched]
    refine hrest ?_
    have hroot : 0 < env.store.sqrtOf poolId p := (hrooted p hp).sqrtOf_pos hpos
    refine hroot.trans_le (List.single_le_sum ?_ _ (List.mem_map_of_mem hp))
    intro root hmem
    obtain ⟨p', -, rfl⟩ := List.mem_map.mp hmem
    exact env.store.sqrtOf_nonneg poolId p'
  · intro p hp q hq hcontributed
    rw [h.matched_eq hp, h.matched_eq hq]
    exact matchShare_mono hremaining (env.store.sqrtOf_nonneg poolId p)
      ((hrooted p hp).sqrtOf_le (hrooted q hq) hcontributed)

end Distributes

/-! ### The round is over -/

/-- The matches of the pool were calculated. -/
def Store.Finalized (store : Store) (poolId : Nat) : Prop :=
  ∃ round, store.matchingRound poolId = some round ∧ round.isFinalized = true

section Finalized

variable {env env' : Env} {poolId : Nat} {call : Call}

/-- A round stays finalized until the pool is opened again. -/
theorem Effect.finalized (h : Effect env call env') (hfinal : env.store.Finalized poolId)
    (hopens : call.opens poolId = false) : env'.store.Finalized poolId := by
  cases h with
  | @initialized openedId =>
      have hne : poolId ≠ openedId := by
        rintro rfl
        simp [Call.opens] at hopens
      obtain ⟨round, hround, hdone⟩ := hfinal
      exact ⟨round, by simpa [hne] using hround, hdone⟩
  | donated =>
      unfold Store.Finalized
      rw [recordDonation_pools.2.1]
      exact hfinal
  | @calculated calculatedId _ _ _ _ _ _ _ _ hcalculated =>
      by_cases hsame : poolId = calculatedId
      · subst hsame
        exact ⟨_, by rw [hcalculated.matchingRound, Function.update_self], rfl⟩
      · obtain ⟨round, hround, hdone⟩ := hfinal
        exact ⟨round, by rwa [hcalculated.matchingRound, Function.update_of_ne hsame], hdone⟩
  | verified | unmatched | distributed | reputation => exact hfinal

theorem Effect.calculated_finalized {projects : List Nat}
    (h : Effect env (.calculateMatching poolId projects) env') :
    ¬env.store.Finalized poolId ∧ env'.store.Finalized poolId := by
  cases h with
  | calculated _ _ hround hopen hcalculated =>
      constructor
      · rintro ⟨round, hround', hdone⟩
        obtain rfl := Option.some.inj (hround.symm.trans hround')
        simp [hopen] at hdone
      · exact ⟨_, by rw [hcalculated.matchingRound, Function.update_self], rfl⟩

/-- While the pool is not opened again, nothing is calculated for it. -/
theorem not_calculated_again {newer : Trace} {later : Env} (hfinal : env.store.Finalized poolId)
    (hrun : Run (· = env) (Ledger.Next contract) newer later) (honce : openings poolId newer = 0) :
    later.store.Finalized poolId ∧ ∀ e ∈ newer, ∀ projects,
      Ledger.called contract e ≠ some (.calculateMatching poolId projects) := by
  induction hrun with
  | start heq =>
      subst heq
      exact ⟨hfinal, by simp⟩
  | @step newer env event env' _ hn ih =>
      let e : Step := ⟨env, event, env'⟩
      have hold : openings poolId newer = 0 :=
        Nat.le_zero.mp (honce ▸ openings_le_cons e newer poolId)
      obtain ⟨ihfinal, ihnone⟩ := ih hold
      rw [List.forall_mem_cons]
      rcases effect_of_next (e := e) hn with
        ⟨hidle, hstore⟩ | ⟨call, result, hcalled, heffect, hstore, -⟩
      · have hstore : env'.store = env.store := hstore
        refine ⟨hstore ▸ ihfinal, fun projects hcalled => ?_, ihnone⟩
        cases hidle.symm.trans hcalled
      · have hopens : call.opens poolId = false := by
          have hcount := @openings_cons e newer call poolId hcalled
          rw [hold, honce] at hcount
          cases hop : call.opens poolId with
          | false => rfl
          | true => simp [hop] at hcount
        have hfinal : (env.enter event).store.Finalized poolId := ihfinal
        have hstore : env'.store = result.store := hstore
        refine ⟨hstore ▸ heffect.finalized hfinal hopens, fun projects hcalled' => ?_, ihnone⟩
        obtain rfl := Option.some.inj (hcalled.symm.trans hcalled')
        exact heffect.calculated_finalized.1 hfinal

end Finalized

/-- **Distribution.** A calculation that goes through gives the entries of its list at most what
was left of the pool, takes exactly that out of the pool, leaves less than one unit for each entry
if anything was contributed, and gives no less for more contributions. Until the pool is opened
again it is the last one. -/
theorem matching_distribution {trace : Trace} {e : Step} {poolId : Nat} {projects : List Nat}
    (h : Ledger.Reachable contract trace e.before)
    (hn : Ledger.Next contract e.before e.action e.after)
    (hcalled : Ledger.called contract e = some (.calculateMatching poolId projects)) :
    (∃ pool pool', Distributes e.before.store e.after.store poolId projects pool pool') ∧
      ∀ newer later, Run (· = e.after) (Ledger.Next contract) newer later →
        openings poolId newer = 0 → ∀ e' ∈ newer, ∀ projects',
          Ledger.called contract e' ≠ some (.calculateMatching poolId projects') := by
  obtain ⟨result, -, hexec, hafter⟩ := Ledger.exec_of_called hn hcalled
  have hexec : Call.exec (e.before.enter e.action) (.calculateMatching poolId projects) =
      .ok result := hexec
  have heffect := exec_effect hexec
  have hstore : e.after.store = result.store := by rw [hafter]; rfl
  obtain ⟨outcome, hok, -⟩ := map_eq_ok.mp (mapErr_eq_ok.mp hexec)
  have hrooted := calculateMatching_rooted hok
  constructor
  · rw [hstore]
    cases heffect with
    | calculated hpool _ _ _ hcalculated =>
        exact ⟨_, hcalculated.distributes hpool (pools_sound h _ _ hpool) hrooted⟩
  · intro newer later hrun honce
    have hfinal : e.after.store.Finalized poolId := hstore ▸ heffect.calculated_finalized.2
    exact (not_calculated_again hfinal hrun honce).2

/-- Project `7` is listed twice and gets `500` for each of its entries. -/
theorem matching_distribution_of_repeated_project :
    let run := Ledger.history contract Demo.deployed Demo.donated
    let e : Step := ⟨run.2, Demo.call 200 Demo.admin (.calculateMatching 1 [7, 7]),
      Ledger.execute contract run.2 (Demo.call 200 Demo.admin (.calculateMatching 1 [7, 7]))⟩
    e.after.store.matched 1 7 = 500 ∧
      ∃ pool pool', Distributes e.before.store e.after.store 1 [7, 7] pool pool' := by
  intro run e
  have hrun : Ledger.Reachable contract run.1 run.2 :=
    Ledger.history_reachable _ Demo.deployed_deployed (by decide)
  exact ⟨by decide, (@matching_distribution run.1 e 1 [7, 7] hrun ⟨by decide, rfl⟩ (by decide)).1⟩

end YieldTrust.Matching
