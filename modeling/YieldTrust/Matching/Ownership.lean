import YieldTrust.Matching.Transitions

/-!
# YieldTrust.Matching.Ownership

Who a matching pool belongs to. Its administrator, its token, its amount and its round stay
what they are, unless somebody opens a pool with the same id again: `initializePool` writes
without looking. `pool_ownership` says exactly when nothing is lost.
-/

namespace YieldTrust.Matching

open Fallible
open GrantStream (Address)

/-- The pools of `store` are still there in `store'`, with what they must keep. -/
structure Keeps (store store' : Store) : Prop where
  pool : ∀ poolId pool, store.matchingPool poolId = some pool →
    ∃ pool', store'.matchingPool poolId = some pool' ∧ pool'.admin = pool.admin ∧
      pool'.token = pool.token ∧ pool'.totalMatchAmount = pool.totalMatchAmount ∧
      pool'.remainingMatchAmount ≤ pool.remainingMatchAmount
  round : ∀ poolId round, store.matchingRound poolId = some round → round.isFinalized = true →
    ∃ round', store'.matchingRound poolId = some round' ∧ round'.isFinalized = true
  donors : ∀ poolId donors, store.poolDonors poolId = some donors →
    ∃ donors', store'.poolDonors poolId = some donors' ∧ donors ⊆ donors'

/-- Opening the pool again gives it to its own administrator, with the same token and amount,
and nothing is lost: nothing is given away, the round goes on, and nobody has donated. -/
def Store.CanReopen (store : Store) (poolId : Nat) (admin token : Address)
    (totalMatchAmount : Int) : Prop :=
  (∀ pool ∈ store.matchingPool poolId, admin = pool.admin ∧ token = pool.token ∧
      totalMatchAmount = pool.totalMatchAmount ∧
      totalMatchAmount ≤ pool.remainingMatchAmount) ∧
    (∀ round ∈ store.matchingRound poolId, round.isFinalized = false) ∧
    ∀ donors ∈ store.poolDonors poolId, donors = []

instance (store : Store) (poolId : Nat) (admin token : Address) (totalMatchAmount : Int) :
    Decidable (store.CanReopen poolId admin token totalMatchAmount) :=
  inferInstanceAs (Decidable ((∀ _ ∈ _, _) ∧ (∀ _ ∈ _, _) ∧ ∀ _ ∈ _, _))

namespace Keeps

variable {env env' : Env} {store store' : Store}

theorem of_eq (hpool : store'.matchingPool = store.matchingPool)
    (hround : store'.matchingRound = store.matchingRound)
    (hdonors : store'.poolDonors = store.poolDonors) : Keeps store store' where
  pool _ pool h := ⟨pool, hpool ▸ h, rfl, rfl, rfl, le_rfl⟩
  round _ round h hfinal := ⟨round, hround ▸ h, hfinal⟩
  donors _ donors h := ⟨donors, hdonors ▸ h, List.Subset.refl _⟩

/-- A donation can only add a donor. -/
theorem recordDonation (env : Env) {poolId projectId : Nat} {donor : Address}
    {amount influencedAmount : Int} : Keeps env.store
      (Matching.recordDonation env poolId projectId donor amount influencedAmount).store where
  pool _ pool h := by
    rw [recordDonation_pools.1]
    exact ⟨pool, h, rfl, rfl, rfl, le_rfl⟩
  round _ round h hfinal := by
    rw [recordDonation_pools.2.1]
    exact ⟨round, h, hfinal⟩
  donors otherId donors h := by
    rw [recordDonation_poolDonors]
    split_ifs with hnew
    · obtain ⟨rfl, -⟩ := hnew
      rw [h]
      exact ⟨_, rfl, List.subset_append_left _ _⟩
    · exact ⟨donors, h, List.Subset.refl _⟩

/-- A calculation takes from the pool and finalizes the round. -/
theorem calculated {pool : MatchingPool} {round : MatchingRound} {poolId : Nat}
    {projects : List Nat} (hpool : env.store.matchingPool poolId = some pool)
    (hsound : pool.Sound poolId) (h : Calculated env pool round poolId projects env') :
    Keeps env.store env'.store where
  pool otherId other hother := by
    rw [h.matchingPool, hsound.poolId]
    by_cases hne : otherId = poolId
    · subst hne
      obtain rfl := Option.some.inj (hpool.symm.trans hother)
      have hnonneg : 0 ≤ distribution env pool otherId projects :=
        distribution_nonneg hsound.remaining_nonneg projects
      exact ⟨_, Function.update_self .., rfl, rfl, rfl, by dsimp only; omega⟩
    · exact ⟨other, (Function.update_of_ne hne ..).trans hother, rfl, rfl, rfl, le_rfl⟩
  round otherId other hother hfinal := by
    rw [h.matchingRound]
    by_cases hne : otherId = poolId
    · subst hne
      exact ⟨_, Function.update_self .., rfl⟩
    · exact ⟨other, (Function.update_of_ne hne ..).trans hother, hfinal⟩
  donors _ donors hdonors := ⟨donors, h.poolDonors ▸ hdonors, List.Subset.refl _⟩

/-- Opening a pool keeps all pools exactly if it can be opened again. -/
theorem openPool_iff {pool : MatchingPool}
    (hremaining : pool.remainingMatchAmount = pool.totalMatchAmount) :
    Keeps env.store (openPool env pool).store ↔
      env.store.CanReopen pool.poolId pool.admin pool.token pool.totalMatchAmount := by
  constructor
  · intro h
    refine ⟨fun other hother => ?_, fun round hround => ?_, fun donors hdonors => ?_⟩
    · obtain ⟨pool', hpool', hadmin, htoken, htotal, hle⟩ := h.pool pool.poolId other hother
      rw [openPool_matchingPool, Function.update_self] at hpool'
      obtain rfl := Option.some.inj hpool'
      exact ⟨hadmin, htoken, htotal, hremaining ▸ hle⟩
    · by_contra hfinal
      obtain ⟨round', hround', hfinal'⟩ :=
        h.round pool.poolId round hround (Bool.eq_true_of_not_eq_false hfinal)
      rw [openPool_matchingRound, Function.update_self] at hround'
      obtain rfl := Option.some.inj hround'
      cases hfinal'
    · obtain ⟨donors', hdonors', hsubset⟩ := h.donors pool.poolId donors hdonors
      rw [openPool_poolDonors, Function.update_self] at hdonors'
      obtain rfl := Option.some.inj hdonors'
      exact List.subset_nil.mp hsubset
  · intro ⟨hpool, hround, hdonors⟩
    refine ⟨fun otherId other hother => ?_, fun otherId other hother hfinal => ?_,
      fun otherId donors hother => ?_⟩
    · rw [openPool_matchingPool]
      by_cases hne : otherId = pool.poolId
      · subst hne
        obtain ⟨hadmin, htoken, htotal, hle⟩ := hpool other hother
        exact ⟨pool, Function.update_self .., hadmin, htoken, htotal, hremaining ▸ hle⟩
      · exact ⟨other, (Function.update_of_ne hne ..).trans hother, rfl, rfl, rfl, le_rfl⟩
    · rw [openPool_matchingRound]
      by_cases hne : otherId = pool.poolId
      · subst hne
        cases (hround other hother).symm.trans hfinal
      · exact ⟨other, (Function.update_of_ne hne ..).trans hother, hfinal⟩
    · rw [openPool_poolDonors]
      by_cases hne : otherId = pool.poolId
      · subst hne
        obtain rfl := hdonors donors hother
        exact ⟨[], Function.update_self .., List.Subset.refl _⟩
      · exact ⟨donors, (Function.update_of_ne hne ..).trans hother, List.Subset.refl _⟩

end Keeps

/-! ### Runs -/

/-- The address that opened the pool first. -/
def creatorOf (poolId : Nat) : Trace → Option Address
  | [] => none
  | e :: older =>
    match creatorOf poolId older, Ledger.called contract e with
    | some creator, _ => some creator
    | none, some (.initializePool openedId admin ..) =>
      if openedId = poolId then some admin else none
    | none, _ => none

/-- The pool whose matches the call calculates or pays. -/
def Call.managedPool : Call → Option Nat
  | .calculateMatching poolId _ | .distributeMatchedFunds poolId _ _ => some poolId
  | _ => none

/-- The step takes nothing from a pool, and if it manages a pool, the creator of the pool has
authorized it. -/
structure KeepsPools (e : Step) (older : Trace) : Prop where
  stores : Keeps e.before.store e.after.store
  authorized : ∀ call poolId creator, Ledger.called contract e = some call →
    call.managedPool = some poolId → creatorOf poolId older = some creator →
      creator ∈ (e.before.enter e.action).auths

/-- A pool that is opened in the step can be opened again, if it is already there. -/
def ReopensAlike (e : Step) : Prop :=
  match Ledger.called contract e with
  | some (.initializePool poolId admin token totalMatchAmount ..) =>
    e.before.store.CanReopen poolId admin token totalMatchAmount
  | _ => True

instance (e : Step) : Decidable (ReopensAlike e) := by
  unfold ReopensAlike
  split
  · exact inferInstance
  · exact inferInstanceAs (Decidable True)

section Steps

variable {e : Step} {older : Trace} {call : Call} {poolId : Nat} {result : Env}

theorem creatorOf_of_other (h : ∀ call, Ledger.called contract e = some call →
    call.opens poolId = false) : creatorOf poolId (e :: older) = creatorOf poolId older := by
  rw [creatorOf]
  split
  · rename_i hcreator
    exact hcreator.symm
  · rename_i openedId admin _ _ _ _ _ _ hnone hcalled
    have hopens := h _ hcalled
    rw [if_neg (by simpa [Call.opens] using hopens), hnone]
  · rename_i hnone _
    exact hnone.symm

/-- The administrator of every pool is its creator. -/
def CreatorsAre (trace : Trace) (store : Store) : Prop :=
  ∀ poolId, creatorOf poolId trace = (store.matchingPool poolId).map (·.admin)

/-- A step that opens no pool and keeps the administrators. -/
theorem creators_of_other (hcreators : CreatorsAre older e.before.store)
    (hcalled : ∀ call, Ledger.called contract e = some call → ∀ poolId, call.opens poolId = false)
    (hadmin : ∀ poolId, (e.after.store.matchingPool poolId).map (·.admin) =
      (e.before.store.matchingPool poolId).map (·.admin)) :
    CreatorsAre (e :: older) e.after.store := by
  intro poolId
  rw [creatorOf_of_other fun call h => hcalled call h poolId, hadmin]
  exact hcreators poolId

/-- Who manages a pool has the authorization of its administrator. -/
theorem Effect.authorized {env : Env} (h : Effect env call result)
    (hmanaged : call.managedPool = some poolId) :
    ∃ pool, env.store.matchingPool poolId = some pool ∧ pool.admin ∈ env.auths := by
  cases h with
  | calculated hpool hauth => exact Option.some.inj hmanaged ▸ ⟨_, hpool, hauth⟩
  | unmatched hpool hauth => exact Option.some.inj hmanaged ▸ ⟨_, hpool, hauth⟩
  | distributed hpool hauth => exact Option.some.inj hmanaged ▸ ⟨_, hpool, hauth⟩
  | _ => cases hmanaged

/-- A call that opens no pool keeps the pools and their administrators. -/
theorem Effect.keeps {env : Env} (h : Effect env call result) (hs : env.store.Sound)
    (hopens : ∀ poolId, call.opens poolId = false) :
    Keeps env.store result.store ∧
      ∀ poolId, (result.store.matchingPool poolId).map (·.admin) =
        (env.store.matchingPool poolId).map (·.admin) := by
  refine ⟨?_, fun poolId => ?_⟩
  · cases h with
    | @initialized poolId =>
        have hself := hopens poolId
        simp [Call.opens] at hself
    | verified | unmatched | distributed | reputation => exact .of_eq rfl rfl rfl
    | @donated _ _ _ _ _ _ tokens => exact .recordDonation { env with tokens }
    | @calculated poolId _ pool _ _ hpool _ _ _ hcalculated =>
        exact .calculated hpool (hs poolId pool hpool) hcalculated
  · exact map_of_terms (h.terms hs (hopens poolId)) fun _ => rfl

/-- A step from a state in which every pool belongs to its creator. -/
theorem keepsPools_step (h : Ledger.Reachable contract older e.before)
    (hn : Ledger.Next contract e.before e.action e.after)
    (hcreators : CreatorsAre older e.before.store) :
    (ReopensAlike e → CreatorsAre (e :: older) e.after.store) ∧
      (KeepsPools e older ↔ ReopensAlike e) := by
  have hs : (e.before.enter e.action).store.Sound := (pools_sound h : e.before.store.Sound)
  rcases effect_of_next hn with ⟨hcalled, hstore⟩ | ⟨call, result, hcalled, heffect, hstore, -⟩
  · refine ⟨fun _ => ?_, fun _ => ?_, fun _ => ⟨?_, ?_⟩⟩
    · exact creators_of_other hcreators (by simp [hcalled]) (by simp [hstore])
    · simp [ReopensAlike, hcalled]
    · exact .of_eq (by rw [hstore]) (by rw [hstore]) (by rw [hstore])
    · simp [hcalled]
  · have hauthorized (call' : Call) (poolId : Nat) (creator : Address)
        (hcalled' : Ledger.called contract e = some call')
        (hmanaged : call'.managedPool = some poolId)
        (hcreator : creatorOf poolId older = some creator) :
        creator ∈ (e.before.enter e.action).auths := by
      obtain rfl := Option.some.inj (hcalled.symm.trans hcalled')
      obtain ⟨pool, hpool, hauth⟩ := heffect.authorized hmanaged
      have hpool : e.before.store.matchingPool poolId = some pool := hpool
      rw [hcreators poolId, hpool] at hcreator
      exact Option.some.inj hcreator ▸ hauth
    have hiff : KeepsPools e older ↔ Keeps e.before.store result.store := by
      rw [← hstore]
      exact ⟨fun h => h.stores, fun h => ⟨h, hauthorized⟩⟩
    rw [hiff]
    by_cases hopens : ∀ poolId, call.opens poolId = false
    · obtain ⟨hkeeps, hadmin⟩ := heffect.keeps hs hopens
      refine ⟨fun _ => ?_, fun _ => ?_, fun _ => hkeeps⟩
      · refine creators_of_other hcreators (fun call' hcalled' => ?_) (by rw [hstore]; exact hadmin)
        exact Option.some.inj (hcalled.symm.trans hcalled') ▸ hopens
      · unfold ReopensAlike
        rw [hcalled]
        cases call with
        | initializePool openedId => simp [Call.opens] at hopens
        | _ => trivial
    · cases heffect with
      | @initialized openedId admin token totalMatchAmount =>
          have hreopens : ReopensAlike e ↔
              e.before.store.CanReopen openedId admin token totalMatchAmount := by
            simp [ReopensAlike, hcalled]
          rw [hreopens]
          refine ⟨fun hcan poolId => ?_, Keeps.openPool_iff rfl⟩
          rw [hstore, openPool_matchingPool, newPool_poolId]
          by_cases hne : poolId = openedId
          · subst hne
            rw [creatorOf, hcreators poolId, hcalled]
            cases hpool : e.before.store.matchingPool poolId with
            | none => simp [newPool]
            | some pool => simp [newPool, (hcan.1 pool hpool).1]
          · rw [Function.update_of_ne hne, creatorOf_of_other fun call' hcalled' => ?_]
            · exact hcreators poolId
            · obtain rfl := Option.some.inj (hcalled.symm.trans hcalled')
              simp [Call.opens, Ne.symm hne]
      | _ => exact absurd (fun _ => rfl) hopens

end Steps

/-- **Pool ownership.** In every run, every step keeps the pools, and only their creators
manage them, exactly if every pool that is opened again can be. -/
theorem pool_ownership {trace : Trace} {env : Env} (h : Ledger.Reachable contract trace env) :
    Run.Each KeepsPools trace ↔ Run.Each (fun e _ => ReopensAlike e) trace := by
  refine Run.each_iff_of_kept (J := fun trace env => CreatorsAre trace env.store) ?_ ?_ h
  · rintro env ⟨self, tokens, rfl⟩ poolId
    rfl
  · intro e older hrun hn hcreators
    exact keepsPools_step hrun hn hcreators

/-- A pool that is opened twice by its administrator, before anybody has donated. -/
theorem pool_ownership_of_opened_twice :
    let run := Ledger.history contract Demo.deployed
      (Demo.opening 0 Demo.admin :: Demo.calculated ++
        [Demo.call 300 Demo.admin (.distributeMatchedFunds 1 7 Demo.recipient)])
    Run.Each KeepsPools run.1 := by
  intro run
  have hrun : Ledger.Reachable contract run.1 run.2 :=
    Ledger.history_reachable _ Demo.deployed_deployed (by decide)
  exact (pool_ownership hrun).mpr (by decide)

/-- Somebody else opens the pool again, and is its administrator from then on. -/
theorem pool_ownership_taken_over :
    ¬∀ trace env, Ledger.Reachable contract trace env → Run.Each KeepsPools trace := by
  intro h
  let run := Ledger.history contract Demo.deployed
    (Demo.donated ++ [Demo.opening 30 Demo.recipient])
  have hrun : Ledger.Reachable contract run.1 run.2 :=
    Ledger.history_reachable _ Demo.deployed_deployed (by decide)
  obtain ⟨hkeeps, -⟩ := h _ _ hrun
  let before := Ledger.history contract Demo.deployed Demo.donated
  have hpool : (before.2.store.matchingPool 1).isSome = true := by decide
  obtain ⟨pool, hpool'⟩ := Option.isSome_iff_exists.mp hpool
  obtain ⟨pool', hafter, hadmin, -⟩ := hkeeps.stores.pool 1 pool hpool'
  have hbefore : (before.2.store.matchingPool 1).map (·.admin) = some Demo.admin := by decide
  have htaken : (run.2.store.matchingPool 1).map (·.admin) = some Demo.recipient := by decide
  have hafter : run.2.store.matchingPool 1 = some pool' := hafter
  rw [hafter] at htaken
  rw [hpool'] at hbefore
  have hsame : Demo.recipient = Demo.admin :=
    (Option.some.inj htaken).symm.trans (hadmin.trans (Option.some.inj hbefore))
  exact absurd hsame (by decide)

end YieldTrust.Matching
