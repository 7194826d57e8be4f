import YieldTrust.Matching.Donations

/-!
# YieldTrust.Matching.DonorCap

The limit on what a donor gives to a project. `donate` compares the limit with the one amount
that it is given, and the record of the donation replaces the one before. So the limit and the
record hold for what a donor gave in all exactly if nobody gives to a project twice.
-/

namespace YieldTrust.Matching

open Fallible
open GrantStream (Address)

/-- All that the donor gave to the project. -/
def given (poolId projectId : Nat) (donor : Address) (trace : Trace) : Int :=
  (((gifts poolId projectId trace).filter (·.donor = donor)).map (·.amount)).sum

/-- What the donor gave is on record, and within the limit of the pool. -/
structure OnRecord (poolId projectId : Nat) (donor : Address) (trace : Trace) (store : Store) :
    Prop where
  limit : ∃ limit, (store.matchingPool poolId).map (·.maxDonationPerDonor) = some limit ∧
    given poolId projectId donor trace ≤ limit
  record : (store.donation poolId projectId donor).map (·.amount) =
    some (given poolId projectId donor trace)

/-- What is given to the projects of the pool is on record, and within its limit. -/
def Capped (poolId : Nat) (trace : Trace) (store : Store) : Prop :=
  ∀ projectId, ∀ donor ∈ donorsOf poolId projectId trace,
    OnRecord poolId projectId donor trace store

/-- If the call is a donation to a project of the pool, its donor has none on record there. -/
def Call.DonatesOnce (poolId : Nat) (store : Store) : Call → Prop
  | .donate pool projectId donor _ => pool = poolId → store.donation poolId projectId donor = none
  | _ => True

instance (poolId : Nat) (store : Store) : (call : Call) → Decidable (call.DonatesOnce poolId store)
  | .donate .. => inferInstanceAs (Decidable (_ → _))
  | .initializePool .. | .verifySep12Identity .. | .calculateMatching .. |
    .distributeMatchedFunds .. | .reputation _ => inferInstanceAs (Decidable True)

/-- A donation of the step to a project of the pool is the first one of its donor. -/
def DonatesOnce (poolId : Nat) (e : Step) : Prop :=
  ∀ call ∈ Ledger.called contract e, call.DonatesOnce poolId e.before.store

instance (poolId : Nat) (e : Step) : Decidable (DonatesOnce poolId e) :=
  inferInstanceAs (Decidable (∀ call ∈ _, _))

section Given

variable {e : Step} {older : Trace} {poolId projectId : Nat} {donor : Address}

theorem given_cons_of_some {gift : Gift} (h : giftOf poolId projectId e = some gift) :
    given poolId projectId donor (e :: older) =
      (if gift.donor = donor then gift.amount else 0) + given poolId projectId donor older := by
  unfold given
  rw [gifts_cons_of_some h]
  by_cases hdonor : gift.donor = donor <;> simp [hdonor]

theorem given_cons_of_none (h : giftOf poolId projectId e = none) :
    given poolId projectId donor (e :: older) = given poolId projectId donor older := by
  unfold given
  rw [gifts_cons_of_none h]

theorem given_of_not_donor (h : donor ∉ donorsOf poolId projectId older) :
    given poolId projectId donor older = 0 := by
  have hnone : (gifts poolId projectId older).filter (·.donor = donor) = [] := by
    refine List.filter_eq_nil_iff.mpr fun gift hmem hdonor => h ?_
    rw [donorsOf, List.mem_toFinset]
    exact List.mem_map.mpr ⟨gift, hmem, of_decide_eq_true hdonor⟩
  rw [given, hnone]
  rfl

theorem amount_pos {trace : Trace} {env : Env} (h : Ledger.Reachable contract trace env)
    {gift : Gift} (hgift : gift ∈ gifts poolId projectId trace) : 0 < gift.amount := by
  obtain ⟨e, he, hgift⟩ := List.mem_filterMap.mp hgift
  obtain ⟨older, hrun, hn⟩ := h.of_mem he
  rcases donates_of_next hrun hn with hidle | ⟨pool, project, made, hdonates⟩
  · rw [hidle.giftOf] at hgift
    cases hgift
  · rw [hdonates.giftOf] at hgift
    split_ifs at hgift
    obtain ⟨_, -, hpos, -⟩ := hdonates.pool
    exact Option.some.inj hgift ▸ hpos

theorem given_pos {trace : Trace} {env : Env} (h : Ledger.Reachable contract trace env)
    (hdonor : donor ∈ donorsOf poolId projectId trace) :
    0 < given poolId projectId donor trace := by
  rw [donorsOf, List.mem_toFinset] at hdonor
  obtain ⟨gift, hgift, rfl⟩ := List.mem_map.mp hdonor
  refine List.sum_pos _ (fun amount hmem => ?_) ?_
  · obtain ⟨other, hother, rfl⟩ := List.mem_map.mp hmem
    exact amount_pos h (List.mem_of_mem_filter hother)
  · refine List.ne_nil_of_mem (a := gift.amount) (List.mem_map.mpr ⟨gift, ?_, rfl⟩)
    exact List.mem_filter.mpr ⟨hgift, decide_eq_true rfl⟩

end Given

section Steps

variable {e : Step} {older : Trace} {poolId projectId : Nat} {donor : Address}
  {store store' : Store}

/-- Where a step gives nothing, the record stays, and the limit with the terms of the pool. -/
theorem onRecord_congr {older newer : Trace}
    (hgiven : given poolId projectId donor newer = given poolId projectId donor older)
    (hdonation : store'.donation poolId projectId donor = store.donation poolId projectId donor)
    (hterms : (store'.matchingPool poolId).map (·.terms) =
      (store.matchingPool poolId).map (·.terms)) :
    OnRecord poolId projectId donor newer store' ↔ OnRecord poolId projectId donor older store := by
  have hlimit : (store'.matchingPool poolId).map (·.maxDonationPerDonor) =
      (store.matchingPool poolId).map (·.maxDonationPerDonor) :=
    map_of_terms hterms fun _ => rfl
  constructor
  · intro ⟨⟨limit, hpool, hle⟩, hrecord⟩
    exact ⟨⟨limit, hlimit ▸ hpool, hgiven ▸ hle⟩, by rw [← hdonation, hrecord, hgiven]⟩
  · intro ⟨⟨limit, hpool, hle⟩, hrecord⟩
    exact ⟨⟨limit, hlimit ▸ hpool, hgiven ▸ hle⟩, by rw [hdonation, hrecord, hgiven]⟩

/-- A step that gives nothing to the pool. -/
theorem capped_of_nothing (h : Capped poolId older e.before.store)
    (hgift : ∀ projectId, giftOf poolId projectId e = none)
    (hdonation : ∀ projectId donor, e.after.store.donation poolId projectId donor =
      e.before.store.donation poolId projectId donor)
    (hterms : (∀ projectId donor, donor ∉ donorsOf poolId projectId older) ∨
      (e.after.store.matchingPool poolId).map (·.terms) =
        (e.before.store.matchingPool poolId).map (·.terms)) :
    Capped poolId (e :: older) e.after.store := by
  intro projectId donor hdonor
  rw [donorsOf_cons_of_none (hgift projectId)] at hdonor
  rcases hterms with hnobody | hterms
  · exact absurd hdonor (hnobody projectId donor)
  · exact (onRecord_congr (given_cons_of_none (hgift projectId)) (hdonation projectId donor)
      hterms).mpr (h projectId donor hdonor)

/-- After a donation everything is on record exactly if it is the first one of its donor. -/
theorem capped_donated_iff {gift : Gift} (hrun : Ledger.Reachable contract older e.before)
    (h : Capped poolId older e.before.store) (hdonates : Donates e poolId projectId gift) :
    Capped poolId (e :: older) e.after.store ↔
      e.before.store.donation poolId projectId gift.donor = none := by
  have hgift : giftOf poolId projectId e = some gift := by simp [hdonates.giftOf]
  have hcounted := (counted hrun poolId projectId).donation gift.donor
  obtain ⟨record, hamount, hdonation⟩ := hdonates.donation
  obtain ⟨pool, hpool, -, hmax⟩ := hdonates.pool
  have hrecord : e.after.store.donation poolId projectId gift.donor = some record := by
    simp [hdonation]
  constructor
  · intro hcapped
    by_contra hstored
    have hpositive : 0 < given poolId projectId gift.donor older :=
      given_pos hrun (not_not.mp (mt hcounted.mpr hstored))
    have hafter := hcapped projectId gift.donor (by simp [donorsOf_cons_of_some hgift])
    have hsum := hafter.record
    rw [hrecord, given_cons_of_some hgift, if_pos rfl] at hsum
    have hsum : record.amount = gift.amount + given poolId projectId gift.donor older :=
      Option.some.inj hsum
    omega
  · intro hnew project donor hdonor
    by_cases hfirst : project = projectId ∧ donor = gift.donor
    · obtain ⟨rfl, rfl⟩ := hfirst
      have hnothing := given_of_not_donor (hcounted.mp hnew)
      refine ⟨⟨pool.maxDonationPerDonor, by rw [hdonates.matchingPool, hpool]; rfl, ?_⟩, ?_⟩
      · rw [given_cons_of_some hgift, if_pos rfl, hnothing]
        omega
      · rw [hrecord, given_cons_of_some hgift, if_pos rfl, hnothing, Option.map_some, hamount,
          Int.add_zero]
    · have hkept : e.after.store.donation poolId project donor =
          e.before.store.donation poolId project donor := by
        rw [hdonation, if_neg fun hall => hfirst hall.2]
      have hsame : given poolId project donor (e :: older) = given poolId project donor older ∧
          donor ∈ donorsOf poolId project older := by
        by_cases hproject : project = projectId
        · subst hproject
          have hother : donor ≠ gift.donor := fun hdonor => hfirst ⟨rfl, hdonor⟩
          rw [donorsOf_cons_of_some hgift, Finset.mem_insert] at hdonor
          rw [given_cons_of_some hgift, if_neg hother.symm, Int.zero_add]
          exact ⟨rfl, hdonor.resolve_left hother⟩
        · have hnone : giftOf poolId project e = none := by simp [hdonates.giftOf, hproject]
          rw [donorsOf_cons_of_none hnone] at hdonor
          exact ⟨given_cons_of_none hnone, hdonor⟩
      refine (onRecord_congr hsame.1 hkept ?_).mpr (h project donor hsame.2)
      rw [hdonates.matchingPool]

theorem nobody_of_unopened {trace : Trace} {env : Env} (h : Ledger.Reachable contract trace env)
    (hunopened : openings poolId trace = 0) (projectId : Nat) (donor : Address) :
    donor ∉ donorsOf poolId projectId trace := by
  intro hdonor
  rw [donorsOf, List.mem_toFinset] at hdonor
  obtain ⟨gift, hgift, hsame⟩ := List.mem_map.mp hdonor
  exact (listed h poolId).unopened hunopened donor ⟨projectId, gift, hgift, hsame⟩

theorem DonatesNothing.donatesOnce (h : DonatesNothing e) : DonatesOnce poolId e := by
  intro call hcalled
  cases call with
  | donate pool project donor amount =>
      have hgift := (giftOf_of_donate hcalled).symm.trans (h.giftOf pool project)
      simp at hgift
  | _ => trivial

theorem capped_step (hrun : Ledger.Reachable contract older e.before)
    (hn : Ledger.Next contract e.before e.action e.after)
    (honce : openings poolId (e :: older) ≤ 1) (h : Capped poolId older e.before.store) :
    Capped poolId (e :: older) e.after.store ↔ DonatesOnce poolId e := by
  rcases donates_of_next hrun hn with hidle | ⟨pool, project, gift, hdonates⟩
  · refine iff_of_true (capped_of_nothing h (hidle.giftOf poolId) (by simp [hidle.donation]) ?_)
      hidle.donatesOnce
    by_cases hopens : openings poolId (e :: older) = openings poolId older
    · exact .inr (terms_of_unopened hrun hn hopens)
    · -- the step opens the pool for the first time
      refine .inl (nobody_of_unopened hrun ?_)
      rw [openings] at honce hopens
      omega
  · have hdonatesOnce : DonatesOnce poolId e ↔ (pool = poolId →
        e.before.store.donation poolId project gift.donor = none) := by
      simp [DonatesOnce, Call.DonatesOnce, hdonates.called]
    rw [hdonatesOnce]
    by_cases hpool : pool = poolId
    · subst hpool
      rw [capped_donated_iff hrun h hdonates, eq_self, true_imp_iff]
    · obtain ⟨record, -, hdonation⟩ := hdonates.donation
      refine iff_of_true (capped_of_nothing h ?_ ?_ (.inr (by rw [hdonates.matchingPool])))
        fun hsame => absurd hsame hpool
      · simp [hdonates.giftOf, Ne.symm hpool]
      · simp [hdonation, Ne.symm hpool]

end Steps

/-- **Donor cap.** In every run that opens a pool once, what every donor gives to every project
is on record and within the limit, in every state, exactly if every donation to a project of
the pool is the first one of its donor. -/
theorem donor_cap {poolId : Nat} {trace : Trace} {env : Env}
    (h : Ledger.Reachable contract trace env) (honce : openings poolId trace ≤ 1) :
    Run.Each (fun e older => Capped poolId (e :: older) e.after.store) trace ↔
      Run.Each (fun e _ => DonatesOnce poolId e) trace := by
  refine Run.each_iff_of_step_when (I := fun trace env => Capped poolId trace env.store)
    (c := fun e older => openings poolId (e :: older) ≤ 1) ?_ ?_ h (each_openings_le honce)
  · intro env _ projectId donor hdonor
    exact absurd hdonor (Finset.notMem_empty donor)
  · intro e older hrun hn honce hcapped
    exact capped_step hrun hn honce.1 hcapped

/-- A donor who gives once to each of two projects. -/
theorem donor_cap_of_two_projects :
    let run := Ledger.history contract Demo.deployed
      (Demo.donated ++ [Demo.call 22 Demo.donor (.donate 1 8 Demo.donor 30)])
    Run.Each (fun e older => Capped 1 (e :: older) e.after.store) run.1 := by
  intro run
  have hrun : Ledger.Reachable contract run.1 run.2 :=
    Ledger.history_reachable _ Demo.deployed_deployed (by decide)
  exact (donor_cap hrun (by decide)).mpr (by decide)

/-- The limit is `50`. A donor gives `40` and then `30` to the same project: `70` in all, and
`30` are on record. -/
theorem donor_cap_given_twice :
    ¬∀ poolId trace env, Ledger.Reachable contract trace env → openings poolId trace = 1 →
      Capped poolId trace env.store := by
  intro h
  let run := Ledger.history contract Demo.deployed
    (Demo.donated ++ [Demo.call 22 Demo.donor (.donate 1 7 Demo.donor 30)])
  have hrun : Ledger.Reachable contract run.1 run.2 :=
    Ledger.history_reachable _ Demo.deployed_deployed (by decide)
  have hdonor : Demo.donor ∈ donorsOf 1 7 run.1 := by decide
  obtain ⟨⟨limit, hlimit, hle⟩, -⟩ := h 1 run.1 run.2 hrun (by decide) 7 Demo.donor hdonor
  have hfifty : (run.2.store.matchingPool 1).map (·.maxDonationPerDonor) = some 50 := by decide
  have hgiven : given 1 7 Demo.donor run.1 = 70 := by decide
  rw [hfifty] at hlimit
  obtain rfl := Option.some.inj hlimit
  rw [hgiven] at hle
  exact absurd hle (by decide)

end YieldTrust.Matching
