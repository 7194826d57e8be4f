import YieldTrust.Lib.Distinct
import YieldTrust.Lib.ProRata
import YieldTrust.Matching.Transitions

/-!
# YieldTrust.Matching.Payouts

What a pool pays out. The matches of all projects together are within the pool, since each is
rounded down and a round is calculated once. `distributeMatchedFunds` pays the match whenever it
is called, so the payments are within the matches exactly if no match is asked for twice.
-/

namespace YieldTrust.Matching

open Fallible
open GrantStream (Address)

/-- What the project gets, as it was calculated. -/
def Store.matched (store : Store) (poolId projectId : Nat) : Int :=
  (store.projectMatched poolId projectId).getD 0

/-! ### The matches -/

/-- The matches of the projects are calculated when the round is finalized, and all together
are within the pool. -/
structure Allocated (poolId : Nat) (store : Store) : Prop where
  finalized : ∀ projectId, store.projectMatched poolId projectId ≠ none →
    ∃ pool round, store.matchingPool poolId = some pool ∧
      store.matchingRound poolId = some round ∧ round.isFinalized = true
  nonneg : ∀ projectId, 0 ≤ store.matched poolId projectId
  total : ∀ pool, store.matchingPool poolId = some pool → ∀ projects : Finset Nat,
    ∑ projectId ∈ projects, store.matched poolId projectId ≤ pool.totalMatchAmount

section Allocated

variable {env env' : Env} {store store' : Store} {poolId : Nat} {call : Call}

theorem Allocated.of_unmatched (h : ∀ projectId, store.projectMatched poolId projectId = none)
    (htotal : ∀ pool, store.matchingPool poolId = some pool → 0 ≤ pool.totalMatchAmount) :
    Allocated poolId store where
  finalized projectId hmatched := absurd (h projectId) hmatched
  nonneg projectId := by simp [Store.matched, h]
  total pool hpool projects := by simpa [Store.matched, h] using htotal pool hpool

/-- The matches stay, and so does what is said about the pool. -/
theorem Allocated.congr (h : Allocated poolId store)
    (hmatched : store'.projectMatched poolId = store.projectMatched poolId)
    (hround : store'.matchingRound poolId = store.matchingRound poolId)
    (hpool : store'.matchingPool poolId = store.matchingPool poolId) : Allocated poolId store' where
  finalized := by
    rw [hmatched, hround, hpool]
    exact h.finalized
  nonneg := by
    unfold Store.matched
    rw [hmatched]
    exact h.nonneg
  total := by
    unfold Store.matched
    rw [hmatched, hpool]
    exact h.total

/-- What a calculation gives is within what was left of the pool. -/
theorem sum_matchOf_le {pool : MatchingPool} (hsound : pool.Sound poolId) (projects : List Nat)
    (takers : Finset Nat) (htakers : takers ⊆ projects.toFinset) :
    ∑ projectId ∈ takers, matchOf env pool poolId projects projectId ≤
      pool.remainingMatchAmount := by
  have hroot (projectId : Nat) : 0 ≤ env.store.sqrtOf poolId projectId :=
    env.store.sqrtOf_nonneg poolId projectId
  by_cases hpos : 0 < (projects.map (env.store.sqrtOf poolId)).sum
  · have hweights : ∑ projectId ∈ takers, env.store.sqrtOf poolId projectId ≤
        (projects.map (env.store.sqrtOf poolId)).sum :=
      calc ∑ projectId ∈ takers, env.store.sqrtOf poolId projectId
        _ ≤ ∑ projectId ∈ projects.toFinset, env.store.sqrtOf poolId projectId :=
          Finset.sum_le_sum_of_subset_of_nonneg htakers fun projectId _ _ => hroot projectId
        _ ≤ (projects.map (env.store.sqrtOf poolId)).sum :=
          Distinct.sum_toFinset_le fun projectId _ => hroot projectId
    have hshare (projectId : Nat) : matchOf env pool poolId projects projectId =
        env.store.sqrtOf poolId projectId * pool.remainingMatchAmount /
          (projects.map (env.store.sqrtOf poolId)).sum := by
      rw [matchOf, matchShare, if_pos hpos, Int.tdiv_eq_ediv_of_nonneg]
      exact Int.mul_nonneg (hroot projectId) hsound.remaining_nonneg
    simp only [hshare]
    exact ProRata.sum_shares_le hpos hsound.remaining_nonneg hweights
  · have hnothing (projectId : Nat) : matchOf env pool poolId projects projectId = 0 := by
      rw [matchOf, matchShare, if_neg hpos]
    simpa [hnothing] using hsound.remaining_nonneg

/-- A calculation matches the projects of a pool that had no matches. -/
theorem Allocated.calculated {pool : MatchingPool} {round : MatchingRound} {projects : List Nat}
    (hsound : pool.Sound poolId)
    (hnone : ∀ projectId, env.store.projectMatched poolId projectId = none)
    (h : Calculated env pool round poolId projects env') : Allocated poolId env'.store := by
  have hpool : env'.store.matchingPool poolId = some { pool with
      remainingMatchAmount :=
        pool.remainingMatchAmount - distribution env pool poolId projects } := by
    rw [h.matchingPool, hsound.poolId, Function.update_self]
  have hmatched (projectId : Nat) : env'.store.matched poolId projectId =
      if projectId ∈ projects.toFinset then matchOf env pool poolId projects projectId else 0 := by
    by_cases hmem : projectId ∈ projects <;> simp [Store.matched, h.projectMatched, hnone, hmem]
  constructor
  · intro projectId _
    exact ⟨_, _, hpool, by rw [h.matchingRound, Function.update_self], rfl⟩
  · intro projectId
    rw [hmatched]
    split_ifs
    · exact matchShare_nonneg hsound.remaining_nonneg (env.store.sqrtOf_nonneg _ _)
    · exact le_rfl
  · intro pool' hpool' takers
    obtain rfl := Option.some.inj (hpool.symm.trans hpool')
    simp only [hmatched, Finset.sum_ite_mem]
    calc ∑ projectId ∈ takers ∩ projects.toFinset, matchOf env pool poolId projects projectId
      _ ≤ pool.remainingMatchAmount :=
        sum_matchOf_le hsound projects _ Finset.inter_subset_right
      _ ≤ pool.totalMatchAmount := hsound.remaining_le

/-- A call that does not open the pool a second time changes its matches only if it has none. -/
theorem Effect.allocated (h : Effect env call env') (hs : env.store.Sound)
    (ha : Allocated poolId env.store)
    (hopens : call.opens poolId = true → env.store.matchingPool poolId = none) :
    Allocated poolId env'.store ∧
      (env'.store.projectMatched poolId = env.store.projectMatched poolId ∨
        ∀ projectId, env.store.projectMatched poolId projectId = none) := by
  cases h with
  | @initialized openedId admin token totalMatchAmount _ _ _ _ _ htotal =>
      refine ⟨?_, .inl rfl⟩
      by_cases hpool : poolId = openedId
      · subst hpool
        have hunopened := hopens (by simp [Call.opens])
        refine .of_unmatched (fun projectId => ?_) fun pool hpool => ?_
        · by_contra hmatched
          obtain ⟨_, _, hsome, -⟩ := ha.finalized projectId hmatched
          cases hunopened.symm.trans hsome
        · rw [openPool_matchingPool, newPool_poolId, Function.update_self] at hpool
          exact Option.some.inj hpool ▸ htotal.le
      · exact ha.congr rfl (by simp [hpool]) (by simp [hpool])
  | donated =>
      obtain ⟨hpool, hround, hmatched, -⟩ := recordDonation_pools
      exact ⟨ha.congr (by rw [hmatched]) (by rw [hround]) (by rw [hpool]), .inl (by rw [hmatched])⟩
  | @calculated calculatedId _ pool round _ hpool _ hround hopen hcalculated =>
      have hsound := hs calculatedId pool hpool
      by_cases hsame : poolId = calculatedId
      · subst hsame
        have hnone (projectId : Nat) : env.store.projectMatched poolId projectId = none := by
          by_contra hmatched
          obtain ⟨_, _, -, hsome, hfinal⟩ := ha.finalized projectId hmatched
          obtain rfl := Option.some.inj (hround.symm.trans hsome)
          cases hopen.symm.trans hfinal
        exact ⟨.calculated hsound hnone hcalculated, .inr hnone⟩
      · have hkept : env'.store.projectMatched poolId = env.store.projectMatched poolId := by
          funext projectId
          rw [hcalculated.projectMatched, if_neg fun hall => hsame hall.1]
        refine ⟨ha.congr hkept ?_ ?_, .inl hkept⟩
        · rw [hcalculated.matchingRound, Function.update_of_ne hsame]
        · rw [hcalculated.matchingPool, hsound.poolId, Function.update_of_ne hsame]
  | verified | unmatched | distributed | reputation => exact ⟨ha.congr rfl rfl rfl, .inl rfl⟩

end Allocated

/-! ### The payments -/

/-- The project of the pool whose match the step asks for, if it is positive. -/
def requestOf (poolId : Nat) (e : Step) : Option Nat :=
  match Ledger.called contract e with
  | some (.distributeMatchedFunds pool projectId _) =>
    if pool = poolId ∧ 0 < e.before.store.matched poolId projectId then some projectId else none
  | _ => none

/-- The projects whose matches were asked for, newest first. -/
def requests (poolId : Nat) (trace : Trace) : List Nat := trace.filterMap (requestOf poolId)

/-- What the step transfers for a project of the pool. -/
def paymentsIn (poolId : Nat) (e : Step) : List (Nat × Int) :=
  match Ledger.called contract e with
  | some (.distributeMatchedFunds pool projectId _) =>
    if pool = poolId then e.after.tokens.log.map fun transfer => (projectId, transfer.amount)
    else []
  | _ => []

/-- All that was paid out of the pool, newest first. -/
def payments (poolId : Nat) (trace : Trace) : List (Nat × Int) :=
  trace.flatMap (paymentsIn poolId)

/-- What was paid for the project. -/
def paidTo (poolId projectId : Nat) (trace : Trace) : List Int :=
  ((payments poolId trace).filter (·.1 = projectId)).map (·.2)

/-- Every project is paid once and within its match, and all of them within the pool. -/
structure PaidWithin (poolId : Nat) (trace : Trace) (store : Store) : Prop where
  project : ∀ projectId, (paidTo poolId projectId trace).sum ≤ store.matched poolId projectId
  once : ∀ projectId, (paidTo poolId projectId trace).length ≤ 1
  pool : ∀ pool, store.matchingPool poolId = some pool →
    ((payments poolId trace).map (·.2)).sum ≤ pool.totalMatchAmount

/-- The match was paid each time that it was asked for. -/
structure Paid (poolId : Nat) (trace : Trace) (store : Store) : Prop where
  positive : ∀ projectId ∈ requests poolId trace, 0 < store.matched poolId projectId
  payments : payments poolId trace =
    (requests poolId trace).map fun projectId => (projectId, store.matched poolId projectId)

section Payments

variable {e : Step} {older trace : Trace} {env env' : Env} {poolId : Nat} {call : Call}

theorem requests_cons : requests poolId (e :: older) =
    (requestOf poolId e).toList ++ requests poolId older := by
  unfold requests
  cases h : requestOf poolId e <;> simp [h]

/-- A step pays what is asked for. -/
theorem paymentsIn_eq (hn : Ledger.Next contract e.before e.action e.after) :
    paymentsIn poolId e = (requestOf poolId e).toList.map fun projectId =>
      (projectId, e.before.store.matched poolId projectId) := by
  unfold paymentsIn requestOf
  rcases effect_of_next hn with ⟨hcalled, -⟩ | ⟨call, result, hcalled, heffect, -, htokens⟩
  · simp [hcalled]
  · rw [hcalled, htokens]
    cases heffect with
    | @unmatched pool projectId _ _ matchedAmount _ _ hmatched hnone =>
        have hmatched : e.before.store.projectMatched pool projectId = some matchedAmount :=
          hmatched
        by_cases hpool : pool = poolId
        · subst hpool
          simp [Store.matched, hmatched, Int.not_lt.mpr hnone, Ledger.Env.enter]
        · simp [hpool]
    | @distributed pool projectId _ _ matchedAmount _ _ _ hmatched hpos htransfer =>
        have hmatched : e.before.store.projectMatched pool projectId = some matchedAmount :=
          hmatched
        obtain ⟨-, rfl⟩ := TokenLedger.transfer_eq_some.mp htransfer
        by_cases hpool : pool = poolId
        · subst hpool
          simp [Store.matched, hmatched, hpos, Ledger.Env.enter]
        · simp [hpool]
    | _ => rfl

theorem Paid.congr {store store' : Store} (h : Paid poolId trace store)
    (hkept : ∀ projectId ∈ requests poolId trace,
      store'.matched poolId projectId = store.matched poolId projectId) :
    Paid poolId trace store' where
  positive projectId hmem := by
    rw [hkept projectId hmem]
    exact h.positive projectId hmem
  payments := by
    rw [h.payments]
    exact List.map_congr_left fun projectId hmem => by rw [hkept projectId hmem]

/-- A step pays what is asked for, as it was calculated before. -/
theorem Paid.step (h : Paid poolId older e.before.store)
    (hn : Ledger.Next contract e.before e.action e.after) :
    Paid poolId (e :: older) e.before.store := by
  constructor
  · intro projectId hmem
    rw [requests_cons, List.mem_append, Option.mem_toList] at hmem
    rcases hmem with hrequest | hmem
    · unfold requestOf at hrequest
      split at hrequest
      · split_ifs at hrequest with hasked
        obtain rfl := Option.some.inj hrequest
        exact hasked.2
      · cases hrequest
    · exact h.positive projectId hmem
  · have hpayments := h.payments
    unfold Matching.payments at hpayments ⊢
    rw [List.flatMap_cons, hpayments, paymentsIn_eq hn, requests_cons, List.map_append]

/-- What is calculated and what is paid, in every run that opens the pool once. -/
theorem allocated_paid (h : Ledger.Reachable contract trace env)
    (honce : openings poolId trace ≤ 1) :
    Allocated poolId env.store ∧ Paid poolId trace env.store := by
  induction h with
  | start h =>
      obtain ⟨self, tokens, rfl⟩ := h
      refine ⟨.of_unmatched (fun _ => rfl) fun pool hpool => ?_, fun projectId hmem => ?_, rfl⟩
      · cases hpool
      · cases hmem
  | @step older env event env' h hn ih =>
      let e : Step := ⟨env, event, env'⟩
      obtain ⟨hallocated, hpaid⟩ := ih ((openings_le_cons e older poolId).trans honce)
      have hpaid : Paid poolId (e :: older) e.before.store := hpaid.step hn
      rcases effect_of_next (e := e) hn with
        ⟨-, hstore⟩ | ⟨call, result, hcalled, heffect, hstore, -⟩
      · exact hstore ▸ ⟨hallocated, hpaid⟩
      · have hs : (e.before.enter e.action).store.Sound := (pools_sound h : env.store.Sound)
        have hopens (hopens : call.opens poolId = true) : env.store.matchingPool poolId = none := by
          rw [openings_cons hcalled, hopens] at honce
          exact matchingPool_of_unopened h (Nat.le_zero.mp (Nat.le_of_succ_le_succ honce))
        obtain ⟨hallocated', hkept⟩ := heffect.allocated hs hallocated hopens
        have hstore : env'.store = result.store := hstore
        rw [hstore]
        refine ⟨hallocated', hpaid.congr fun projectId hmem => ?_⟩
        unfold Store.matched
        rcases hkept with hkept | hnone
        · rw [hkept]
          rfl
        · -- nothing was asked for while there were no matches
          have hpositive : 0 < env.store.matched poolId projectId := hpaid.positive projectId hmem
          have hnone : env.store.projectMatched poolId projectId = none := hnone projectId
          rw [Store.matched, hnone] at hpositive
          exact absurd hpositive (lt_irrefl 0)

end Payments

/-! ### The bound -/

theorem paidTo_eq {trace : Trace} {store : Store} {poolId : Nat} (h : Paid poolId trace store)
    (projectId : Nat) : paidTo poolId projectId trace =
      List.replicate ((requests poolId trace).count projectId)
        (store.matched poolId projectId) := by
  unfold paidTo
  rw [h.payments]
  induction requests poolId trace with
  | nil => rfl
  | cons request requests ih =>
      by_cases hsame : request = projectId
      · subst hsame
        simp [List.replicate_succ, ih]
      · simp [hsame, ih]

/-- **Payouts.** In every run that opens a pool once, the pool pays every project once and
within its match, and within its own amount, exactly if no positive match is asked for twice. -/
theorem matching_payouts {poolId : Nat} {trace : Trace} {env : Env}
    (h : Ledger.Reachable contract trace env) (honce : openings poolId trace ≤ 1) :
    PaidWithin poolId trace env.store ↔ (requests poolId trace).Nodup := by
  obtain ⟨hallocated, hpaid⟩ := allocated_paid h honce
  constructor
  · intro hwithin
    refine List.nodup_iff_count_le_one.mpr fun projectId => ?_
    have hlength := hwithin.once projectId
    rw [paidTo_eq hpaid, List.length_replicate] at hlength
    exact hlength
  · intro hnodup
    have hcount (projectId : Nat) : (requests poolId trace).count projectId ≤ 1 :=
      List.nodup_iff_count_le_one.mp hnodup projectId
    refine ⟨fun projectId => ?_, fun projectId => ?_, fun pool hpool => ?_⟩
    · rw [paidTo_eq hpaid, List.sum_replicate]
      calc (requests poolId trace).count projectId • env.store.matched poolId projectId
        _ ≤ 1 • env.store.matched poolId projectId :=
          nsmul_le_nsmul_left (hallocated.nonneg projectId) (hcount projectId)
        _ = env.store.matched poolId projectId := one_nsmul _
    · rw [paidTo_eq hpaid, List.length_replicate]
      exact hcount projectId
    · calc ((payments poolId trace).map (·.2)).sum
        _ = ((requests poolId trace).map (env.store.matched poolId)).sum := by
          rw [hpaid.payments, List.map_map]
          rfl
        _ = ∑ projectId ∈ (requests poolId trace).toFinset, env.store.matched poolId projectId :=
          Distinct.sum_eq_of_nodup hnodup _
        _ ≤ pool.totalMatchAmount := hallocated.total pool hpool _

/-- The match of the only project is paid, and it was all of the pool. -/
theorem matching_payouts_of_one_project :
    let run := Ledger.history contract Demo.deployed
      (Demo.calculated ++ [Demo.call 300 Demo.admin (.distributeMatchedFunds 1 7 Demo.recipient)])
    payments 1 run.1 = [(7, 1000)] ∧ PaidWithin 1 run.1 run.2.store := by
  intro run
  have hrun : Ledger.Reachable contract run.1 run.2 :=
    Ledger.history_reachable _ Demo.deployed_deployed (by decide)
  exact ⟨by decide, (matching_payouts hrun (by decide)).mpr (by decide)⟩

/-- The administrator distributes the match of the same project twice, and `2000` are paid
out of a pool of `1000`. -/
theorem matching_payouts_paid_twice :
    ¬∀ poolId trace env, Ledger.Reachable contract trace env → openings poolId trace = 1 →
      PaidWithin poolId trace env.store := by
  intro h
  let run := Ledger.history contract Demo.deployed
    (Demo.calculated ++ [Demo.call 300 Demo.admin (.distributeMatchedFunds 1 7 Demo.recipient),
      Demo.call 301 Demo.admin (.distributeMatchedFunds 1 7 Demo.recipient)])
  have hrun : Ledger.Reachable contract run.1 run.2 :=
    Ledger.history_reachable _ Demo.deployed_deployed (by decide)
  have hpaid := (h 1 run.1 run.2 hrun (by decide)).project 7
  have htwice : paidTo 1 7 run.1 = [1000, 1000] := by decide
  have hmatched : run.2.store.matched 1 7 = 1000 := by decide
  rw [htwice, hmatched] at hpaid
  exact absurd hpaid (by decide)

end YieldTrust.Matching
