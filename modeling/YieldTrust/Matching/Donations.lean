import Mathlib.Data.Finset.Card
import YieldTrust.Matching.Transitions

/-!
# YieldTrust.Matching.Donations

What the contract keeps of the donations: for each project how many donors it has and what
they gave by their influence, and for each pool the list of its donors. `donation_bookkeeping`
compares this with the donations of the run.
-/

namespace YieldTrust.Matching

open Fallible
open GrantStream (Address)

/-! ### The donations of a run -/

/-- A donation to a project, with the influence that its donor had when it was made. -/
structure Gift where
  donor : Address
  amount : Int
  multiplier : Int
  deriving DecidableEq

/-- The amount that counts for the match. -/
def Gift.influenced (gift : Gift) : Int := gift.amount * gift.multiplier / fixedPointScale

/-- The donation to the project that the step made. -/
def giftOf (poolId projectId : Nat) (e : Step) : Option Gift :=
  match Ledger.called contract e with
  | some (.donate pool project donor amount) =>
    if pool = poolId ∧ project = projectId then
      some { donor, amount, multiplier := e.before.store.reputation.influence donor }
    else none
  | _ => none

/-- The donations to the project, newest first. -/
def gifts (poolId projectId : Nat) (trace : Trace) : List Gift :=
  trace.filterMap (giftOf poolId projectId)

/-- The address has donated to the pool. -/
def HasDonated (poolId : Nat) (donor : Address) (trace : Trace) : Prop :=
  ∃ projectId, ∃ gift ∈ gifts poolId projectId trace, gift.donor = donor

/-- The donors of a project. -/
def donorsOf (poolId projectId : Nat) (trace : Trace) : Finset Address :=
  ((gifts poolId projectId trace).map (·.donor)).toFinset

/-- What counts of the contributions to a project. -/
def Store.tallyOf (store : Store) (poolId projectId : Nat) : Int × Nat :=
  ((store.projectContributions poolId projectId).map (·.tally)).getD (0, 0)

theorem readContributions_tally (env : Env) (poolId projectId : Nat) :
    (readContributions env poolId projectId).tally = env.store.tallyOf poolId projectId := by
  unfold readContributions Store.tallyOf
  cases env.store.projectContributions poolId projectId <;> rfl

/-- What a donation changes. -/
structure Donates (e : Step) (poolId projectId : Nat) (gift : Gift) : Prop where
  called : Ledger.called contract e = some (.donate poolId projectId gift.donor gift.amount)
  giftOf : ∀ pool project, giftOf pool project e =
    if pool = poolId ∧ project = projectId then some gift else none
  pool : ∃ pool, e.before.store.matchingPool poolId = some pool ∧ 0 < gift.amount ∧
    gift.amount ≤ pool.maxDonationPerDonor
  matchingPool : e.after.store.matchingPool = e.before.store.matchingPool
  donation : ∃ record : Donation, record.amount = gift.amount ∧ ∀ pool project other,
    e.after.store.donation pool project other =
      if pool = poolId ∧ project = projectId ∧ other = gift.donor then some record
      else e.before.store.donation pool project other
  contributions : ∀ pool project, ¬(pool = poolId ∧ project = projectId) →
    e.after.store.projectContributions pool project =
      e.before.store.projectContributions pool project
  tally : e.after.store.tallyOf poolId projectId =
    ((e.before.store.tallyOf poolId projectId).1 + gift.influenced,
      (e.before.store.tallyOf poolId projectId).2 +
        (e.before.store.donation poolId projectId gift.donor).isNone.toNat)
  poolDonors : ∀ pool, e.after.store.poolDonors pool =
    if pool = poolId ∧ gift.donor ∉ (e.before.store.poolDonors poolId).getD [] then
      some ((e.before.store.poolDonors poolId).getD [] ++ [gift.donor])
    else e.before.store.poolDonors pool

/-- What any other step leaves alone. -/
structure DonatesNothing (e : Step) : Prop where
  giftOf : ∀ poolId projectId, giftOf poolId projectId e = none
  donation : e.after.store.donation = e.before.store.donation
  tally : ∀ poolId projectId,
    e.after.store.tallyOf poolId projectId = e.before.store.tallyOf poolId projectId
  poolDonors : ∀ poolId, e.after.store.poolDonors poolId =
    if (Ledger.called contract e).any (Call.opens poolId) then some []
    else e.before.store.poolDonors poolId

section Steps

variable {e : Step} {older : Trace} {call : Call} {poolId projectId : Nat}

theorem gifts_cons_of_some {gift : Gift} (h : giftOf poolId projectId e = some gift) :
    gifts poolId projectId (e :: older) = gift :: gifts poolId projectId older :=
  List.filterMap_cons_some h

theorem gifts_cons_of_none (h : giftOf poolId projectId e = none) :
    gifts poolId projectId (e :: older) = gifts poolId projectId older :=
  List.filterMap_cons_none h

/-- The call is a donation. -/
def Call.donates : Call → Bool
  | .donate .. => true
  | _ => false

theorem giftOf_of_other (h : ∀ call, Ledger.called contract e = some call →
    call.donates = false) : giftOf poolId projectId e = none := by
  unfold giftOf
  split
  · rename_i hcalled
    cases h _ hcalled
  · rfl

theorem giftOf_of_donate {pool project : Nat} {donor : Address} {amount : Int}
    (h : Ledger.called contract e = some (.donate pool project donor amount)) :
    giftOf poolId projectId e =
      if poolId = pool ∧ projectId = project then
        some { donor, amount, multiplier := e.before.store.reputation.influence donor }
      else none := by
  simp [giftOf, h, eq_comm]

/-- A call that is no donation. -/
theorem Effect.donatesNothing {env result : Env} (h : Effect env call result)
    (hother : call.donates = false) : result.store.donation = env.store.donation ∧
      (∀ poolId projectId, result.store.tallyOf poolId projectId =
        env.store.tallyOf poolId projectId) ∧
      ∀ poolId, result.store.poolDonors poolId =
        if call.opens poolId then some [] else env.store.poolDonors poolId := by
  cases h with
  | donated => cases hother
  | calculated _ _ _ _ hcalculated =>
      refine ⟨hcalculated.donation, fun poolId projectId => ?_, fun poolId => ?_⟩
      · unfold Store.tallyOf
        rw [hcalculated.tally]
      · rw [hcalculated.poolDonors]
        rfl
  | @initialized openedId =>
      refine ⟨rfl, fun _ _ => rfl, fun poolId => ?_⟩
      by_cases hpool : poolId = openedId
      · simp [Call.opens, hpool]
      · simp [Call.opens, hpool, Ne.symm hpool]
  | verified | unmatched | distributed | reputation => exact ⟨rfl, fun _ _ => rfl, fun _ => rfl⟩

/-- The amount that counts, as the contract computes it. -/
theorem influencedAmount_eq {env : Env} {donor : Address} {amount multiplier : Int}
    (hb : env.store.reputation.Bounded) (hamount : 0 < amount)
    (h : influenceOf env donor = .ok multiplier) :
    (amount * multiplier).tdiv fixedPointScale =
      (Gift.mk donor amount (env.store.reputation.influence donor)).influenced := by
  obtain rfl := influenceOf_eq_ok hb h
  have hone : (0 : Int) ≤ env.store.reputation.influence donor :=
    le_trans (by decide) hb.one_le_influence
  exact Int.tdiv_eq_ediv_of_nonneg (Int.mul_nonneg hamount.le hone)

theorem recordDonation_tally (env : Env) {donor : Address} {amount influencedAmount : Int} :
    (recordDonation env poolId projectId donor amount influencedAmount).store.tallyOf poolId
        projectId =
      ((env.store.tallyOf poolId projectId).1 + influencedAmount,
        (env.store.tallyOf poolId projectId).2 +
          (env.store.donation poolId projectId donor).isNone.toNat) := by
  rw [← readContributions_tally env, Store.tallyOf, recordDonation_contributions,
    if_pos ⟨rfl, rfl⟩]
  rfl

/-- **Inversion** of a step, for the donations. -/
theorem donates_of_next (h : Ledger.Reachable contract older e.before)
    (hn : Ledger.Next contract e.before e.action e.after) :
    DonatesNothing e ∨ ∃ poolId projectId gift, Donates e poolId projectId gift := by
  rcases effect_of_next hn with ⟨hcalled, hstore⟩ | ⟨call, result, hcalled, heffect, hstore, -⟩
  · exact .inl ⟨fun _ _ => giftOf_of_other (by simp [hcalled]), by rw [hstore], by simp [hstore],
      by simp [hstore, hcalled]⟩
  cases hdonates : call.donates with
  | false =>
      obtain ⟨hdonation, htally, hdonors⟩ := heffect.donatesNothing hdonates
      rw [← hstore] at hdonation htally hdonors
      refine .inl ⟨fun _ _ => giftOf_of_other fun call' hcalled' => ?_, hdonation, htally, ?_⟩
      · exact Option.some.inj (hcalled.symm.trans hcalled') ▸ hdonates
      · rw [hcalled]
        exact hdonors
  | true =>
      cases heffect with
      | @donated poolId projectId donor amount multiplier pool tokens hpool hmin hmax hinfluence =>
          have hpool : e.before.store.matchingPool poolId = some pool := hpool
          have hpos : 0 < amount := (pools_sound h poolId pool hpool).minDonation_pos.trans_le hmin
          have hb : (e.before.enter e.action).store.reputation.Bounded :=
            (reputation_bounded h : e.before.store.reputation.Bounded)
          rw [influencedAmount_eq hb hpos hinfluence] at hstore
          refine .inr ⟨poolId, projectId,
            ⟨donor, amount, e.before.store.reputation.influence donor⟩, ?_⟩
          exact { called := hcalled
                  giftOf := fun _ _ => giftOf_of_donate hcalled
                  pool := ⟨pool, hpool, hpos, hmax⟩
                  matchingPool := by rw [hstore, recordDonation_pools.1]; rfl
                  donation := by
                    rw [hstore]
                    exact ⟨_, rfl, recordDonation_donation⟩
                  contributions := fun pool project hother => by
                    rw [hstore, recordDonation_contributions, if_neg hother]
                    rfl
                  tally := by
                    rw [hstore]
                    exact recordDonation_tally _
                  poolDonors := by
                    rw [hstore]
                    exact recordDonation_poolDonors }
      | _ => cases hdonates

/-! ### What the contract counts -/

/-- What is stored about a project agrees with the donations to it. -/
structure Counted (poolId projectId : Nat) (trace : Trace) (store : Store) : Prop where
  donation : ∀ donor, store.donation poolId projectId donor = none ↔
    donor ∉ donorsOf poolId projectId trace
  tally : store.tallyOf poolId projectId =
    (((gifts poolId projectId trace).map Gift.influenced).sum,
      (donorsOf poolId projectId trace).card)

theorem donorsOf_cons_of_some {gift : Gift} (h : giftOf poolId projectId e = some gift) :
    donorsOf poolId projectId (e :: older) =
      insert gift.donor (donorsOf poolId projectId older) := by
  simp [donorsOf, gifts_cons_of_some h]

theorem donorsOf_cons_of_none (h : giftOf poolId projectId e = none) :
    donorsOf poolId projectId (e :: older) = donorsOf poolId projectId older := by
  simp [donorsOf, gifts_cons_of_none h]

theorem Counted.idle {store : Store} (h : Counted poolId projectId older e.before.store)
    (hgift : giftOf poolId projectId e = none)
    (hdonation : store.donation poolId projectId = e.before.store.donation poolId projectId)
    (htally : store.tallyOf poolId projectId = e.before.store.tallyOf poolId projectId) :
    Counted poolId projectId (e :: older) store where
  donation donor := by
    rw [hdonation, donorsOf_cons_of_none hgift]
    exact h.donation donor
  tally := by
    rw [htally, donorsOf_cons_of_none hgift, gifts_cons_of_none hgift]
    exact h.tally

theorem Counted.donated {gift : Gift} (h : Counted poolId projectId older e.before.store)
    (hdonates : Donates e poolId projectId gift) :
    Counted poolId projectId (e :: older) e.after.store := by
  have hgift : giftOf poolId projectId e = some gift := by simp [hdonates.giftOf]
  obtain ⟨record, -, hdonation⟩ := hdonates.donation
  constructor
  · intro donor
    rw [hdonation, donorsOf_cons_of_some hgift, Finset.mem_insert, not_or, ← h.donation]
    by_cases hdonor : donor = gift.donor <;> simp [hdonor]
  · rw [hdonates.tally, h.tally, donorsOf_cons_of_some hgift, gifts_cons_of_some hgift,
      List.map_cons, List.sum_cons, Int.add_comm]
    -- a donor is counted at the first donation, when nothing is stored yet
    by_cases hnew : gift.donor ∈ donorsOf poolId projectId older
    · have hstored := mt (h.donation gift.donor).mp (not_not_intro hnew)
      rw [Finset.insert_eq_of_mem hnew]
      simp [Option.isSome_iff_ne_none, hstored]
    · have hstored := (h.donation gift.donor).mpr hnew
      rw [Finset.card_insert_of_notMem hnew, hstored]
      rfl

theorem counted {trace : Trace} {env : Env} (h : Ledger.Reachable contract trace env)
    (poolId projectId : Nat) : Counted poolId projectId trace env.store := by
  induction h with
  | start h =>
      obtain ⟨self, tokens, rfl⟩ := h
      exact ⟨fun donor => iff_of_true rfl (Finset.notMem_empty donor), rfl⟩
  | @step older env event env' h hn ih =>
      rcases donates_of_next (e := ⟨env, event, env'⟩) h hn with
        hidle | ⟨pool, project, gift, hdonates⟩
      · exact ih.idle (hidle.giftOf _ _) (by rw [hidle.donation]) (hidle.tally _ _)
      · by_cases hsame : poolId = pool ∧ projectId = project
        · obtain ⟨rfl, rfl⟩ := hsame
          exact ih.donated hdonates
        · obtain ⟨record, -, hdonation⟩ := hdonates.donation
          refine ih.idle (by rw [hdonates.giftOf, if_neg hsame]) ?_ ?_
          · funext donor
            rw [hdonation, if_neg fun hall => hsame ⟨hall.1, hall.2.1⟩]
          · unfold Store.tallyOf
            rw [hdonates.contributions poolId projectId hsame]

/-! ### The donors of a pool -/

theorem hasDonated_cons {donor : Address} :
    HasDonated poolId donor (e :: older) ↔
      (∃ projectId gift, giftOf poolId projectId e = some gift ∧ gift.donor = donor) ∨
        HasDonated poolId donor older := by
  have hmem (projectId : Nat) (gift : Gift) : gift ∈ gifts poolId projectId (e :: older) ↔
      giftOf poolId projectId e = some gift ∨ gift ∈ gifts poolId projectId older := by
    cases h : giftOf poolId projectId e with
    | none => simp [gifts_cons_of_none h]
    | some made => simp [gifts_cons_of_some h, eq_comm]
  simp only [HasDonated, hmem, or_and_right, exists_or]

theorem DonatesNothing.hasDonated {donor : Address} (h : DonatesNothing e) :
    HasDonated poolId donor (e :: older) ↔ HasDonated poolId donor older := by
  rw [hasDonated_cons]
  simp [h.giftOf]

theorem Donates.hasDonated {gift : Gift} {pool : Nat} {donor : Address}
    (h : Donates e poolId projectId gift) :
    HasDonated pool donor (e :: older) ↔
      (pool = poolId ∧ donor = gift.donor) ∨ HasDonated pool donor older := by
  rw [hasDonated_cons]
  refine or_congr_left ⟨?_, ?_⟩
  · intro ⟨project, gift', hgift, hdonor⟩
    rw [h.giftOf] at hgift
    split_ifs at hgift with hsame
    obtain rfl := Option.some.inj hgift
    exact ⟨hsame.1, hdonor.symm⟩
  · intro ⟨hpool, hdonor⟩
    exact ⟨projectId, gift, by simp [h.giftOf, hpool], hdonor.symm⟩

theorem Donates.openings {gift : Gift} (h : Donates e poolId projectId gift) (pool : Nat) :
    openings pool (e :: older) = openings pool older := openings_cons h.called

/-- The list of the donors of a pool that was opened at most once. -/
structure Listed (poolId : Nat) (trace : Trace) (store : Store) : Prop where
  unopened : openings poolId trace = 0 → ∀ donor, ¬HasDonated poolId donor trace
  donors : openings poolId trace = 1 → ∃ donors, store.poolDonors poolId = some donors ∧
    donors.Nodup ∧ ∀ donor, donor ∈ donors ↔ HasDonated poolId donor trace

theorem Listed.idle (h : Listed poolId older e.before.store) (hidle : DonatesNothing e) :
    Listed poolId (e :: older) e.after.store := by
  have hdonors := hidle.poolDonors poolId
  constructor
  · intro hunopened donor
    rw [hidle.hasDonated]
    rw [openings] at hunopened
    exact h.unopened (by omega) donor
  · intro hopened
    rw [openings] at hopened
    simp only [hidle.hasDonated]
    cases hopens : (Ledger.called contract e).any (Call.opens poolId) with
    | true =>
        simp only [hopens, Bool.toNat_true] at hopened
        rw [hopens, if_pos rfl] at hdonors
        refine ⟨[], hdonors, List.nodup_nil, fun donor => ?_⟩
        exact iff_of_false List.not_mem_nil (h.unopened (by omega) donor)
    | false =>
        simp only [hopens, Bool.toNat_false, Nat.add_zero] at hopened
        rw [hdonors, hopens]
        exact h.donors hopened

theorem Listed.donated {gift : Gift} {pool : Nat} (h : Listed pool older e.before.store)
    (hopened : openings poolId older ≠ 0) (hdonates : Donates e poolId projectId gift) :
    Listed pool (e :: older) e.after.store := by
  constructor
  · intro hunopened donor
    rw [hdonates.openings] at hunopened
    rw [hdonates.hasDonated, not_or]
    refine ⟨fun hsame => ?_, h.unopened hunopened donor⟩
    exact hopened (hsame.1 ▸ hunopened)
  · intro honce
    rw [hdonates.openings] at honce
    obtain ⟨donors, hdonors, hnodup, hmem⟩ := h.donors honce
    simp only [hdonates.poolDonors, hdonates.hasDonated]
    by_cases hpool : pool = poolId
    · subst hpool
      rw [hdonors, Option.getD_some]
      by_cases hlisted : gift.donor ∈ donors
      · refine ⟨donors, by simp [hlisted], hnodup, fun donor => ?_⟩
        rw [← hmem, eq_self, true_and]
        exact ⟨.inr, fun hdonor => hdonor.elim (· ▸ hlisted) id⟩
      · refine ⟨donors ++ [gift.donor], by simp [hlisted], ?_, fun donor => ?_⟩
        · exact List.nodup_append_comm.mp (List.nodup_cons.mpr ⟨hlisted, hnodup⟩)
        · rw [List.mem_append, List.mem_singleton, hmem, or_comm, eq_self, true_and]
    · exact ⟨donors, by simp [hpool, hdonors], hnodup, fun donor => by simp [hpool, hmem]⟩

theorem listed {trace : Trace} {env : Env} (h : Ledger.Reachable contract trace env)
    (poolId : Nat) : Listed poolId trace env.store := by
  induction h with
  | start h => exact ⟨fun _ donor => by simp [HasDonated, gifts], fun h => by cases h⟩
  | @step older env event env' h hn ih =>
      rcases donates_of_next (e := ⟨env, event, env'⟩) h hn with
        hidle | ⟨pool, project, gift, hdonates⟩
      · exact ih.idle hidle
      · obtain ⟨_, hpool, -⟩ := hdonates.pool
        refine ih.donated (fun hunopened => ?_) hdonates
        cases (matchingPool_of_unopened h hunopened).symm.trans hpool

end Steps

/-- What the contract keeps of a pool agrees with the donations to it. -/
structure Bookkept (poolId : Nat) (trace : Trace) (env : Env) : Prop where
  poolDonors : ∃ donors, env.store.poolDonors poolId = some donors ∧ donors.Nodup ∧
    ∀ donor, donor ∈ donors ↔ HasDonated poolId donor trace
  uniqueDonors : ∀ projectId, (readContributions env poolId projectId).uniqueDonors =
    (donorsOf poolId projectId trace).card
  totalContributions : ∀ projectId, (readContributions env poolId projectId).totalContributions =
    ((gifts poolId projectId trace).map Gift.influenced).sum

/-- A donation to another pool, or to another project of the pool, changes none of this. -/
def LeavesOthers (poolId : Nat) (e : Step) : Prop :=
  ∀ pool project donor amount,
    Ledger.called contract e = some (.donate pool project donor amount) →
    (pool ≠ poolId → e.after.store.poolDonors poolId = e.before.store.poolDonors poolId) ∧
    ∀ projectId, pool ≠ poolId ∨ project ≠ projectId →
      e.after.store.projectContributions poolId projectId =
        e.before.store.projectContributions poolId projectId

theorem leavesOthers {older : Trace} {e : Step} (h : Ledger.Reachable contract older e.before)
    (hn : Ledger.Next contract e.before e.action e.after) (poolId : Nat) :
    LeavesOthers poolId e := by
  intro pool project donor amount hcalled
  rcases donates_of_next h hn with hidle | ⟨pool', project', gift, hdonates⟩
  · have hgift := (giftOf_of_donate hcalled).symm.trans (hidle.giftOf pool project)
    simp at hgift
  · have hcall := Option.some.inj (hcalled.symm.trans hdonates.called)
    obtain ⟨rfl, rfl, -, -⟩ := Call.donate.inj hcall
    refine ⟨fun hpool => ?_, fun projectId hother => hdonates.contributions _ _ ?_⟩
    · rw [hdonates.poolDonors, if_neg fun hsame => hpool hsame.1.symm]
    · rw [not_and_or]
      exact hother.imp Ne.symm Ne.symm

/-- **Donation bookkeeping.** In every run that opens a pool once, what the contract keeps of
the donations to it is what was donated. -/
theorem donation_bookkeeping {poolId : Nat} {trace : Trace} {env : Env}
    (h : Ledger.Reachable contract trace env) (honce : openings poolId trace = 1) :
    Bookkept poolId trace env ∧ ∀ e ∈ trace, LeavesOthers poolId e := by
  constructor
  · have htally (projectId : Nat) := (readContributions_tally env poolId projectId).trans
      (counted h poolId projectId).tally
    exact { poolDonors := (listed h poolId).donors honce
            uniqueDonors := fun projectId => congrArg Prod.snd (htally projectId)
            totalContributions := fun projectId => congrArg Prod.fst (htally projectId) }
  · intro e he
    obtain ⟨older, hrun, hn⟩ := h.of_mem he
    exact leavesOthers hrun hn poolId

/-- A donor who gives to one project twice, and then to another one. -/
theorem donation_bookkeeping_of_two_projects :
    let run := Ledger.history contract Demo.deployed
      (Demo.donated ++ [Demo.call 21 Demo.donor (.donate 1 7 Demo.donor 20),
        Demo.call 22 Demo.donor (.donate 1 8 Demo.donor 30)])
    (readContributions run.2 1 7).tally = (60, 1) ∧
      Bookkept 1 run.1 run.2 ∧ ∀ e ∈ run.1, LeavesOthers 1 e := by
  intro run
  have hrun : Ledger.Reachable contract run.1 run.2 :=
    Ledger.history_reachable _ Demo.deployed_deployed (by decide)
  exact ⟨by decide, donation_bookkeeping hrun (by decide)⟩

end YieldTrust.Matching
