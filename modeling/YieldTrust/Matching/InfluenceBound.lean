import YieldTrust.Matching.Transitions

/-!
# YieldTrust.Matching.InfluenceBound

How far the reputation of a donor goes. The influence lies between `1` and the maximum of the
configuration, wherever it can be computed; where the product overflows, the donor cannot donate
any more. No limit is set to the maximum, so this can happen.
-/

namespace YieldTrust.Matching

open Fallible
open GrantStream (Address)
open Reputation (DonorReputation ReputationConfig calculateInfluence
  calculateInfluenceMultiplier reputationScale multiplierOf)

/-! ### What is expected -/

/-- What is expected of the multiplier of a score. -/
structure MultiplierSound (config : ReputationConfig) (score multiplier : Int) : Prop where
  one_le : reputationScale ≤ multiplier
  le_max : multiplier ≤ config.maxMultiplier
  full : score = reputationScale → multiplier = config.maxMultiplier
  mono : ∀ lower, 0 ≤ lower → lower ≤ score →
    ∃ m, calculateInfluenceMultiplier lower config = .ok m ∧ m ≤ multiplier

/-- The donor has no reputation. -/
def withoutReputation (env : Env) (donor : Address) : Env :=
  { env with store := { env.store with reputation := { env.store.reputation with
      donorReputation := Function.update env.store.reputation.donorReputation donor none } } }

/-- What is expected of the influence of a donor with this reputation. -/
structure InfluenceSound (env : Env) (donor : Address) (reputation : DonorReputation) : Prop where
  score_nonneg : 0 ≤ reputation.reputationScore
  score_le : reputation.reputationScore ≤ reputationScale
  influence : ∃ multiplier, calculateInfluence (reputationEnv env) donor = .ok multiplier ∧
    MultiplierSound env.store.reputation.config reputation.reputationScore multiplier
  /-- A donation that traps would do so without the reputation, too. -/
  donates : ∀ (event : Ledger.Event Address Call) poolId projectId amount,
    donate (env.enter event) poolId projectId donor amount = trap →
      donate (withoutReputation (env.enter event) donor) poolId projectId donor amount = trap

/-! ### When a donation traps -/

/-- The checks of a donation, up to the influence. -/
structure Takes (env : Env) (pool : MatchingPool) (poolId : Nat) (donor : Address)
    (amount : Int) : Prop where
  stored : env.store.matchingPool poolId = some pool
  active : pool.isActive = true
  running : env.timestamp ≤ pool.roundEndsAt
  inBounds : pool.minDonation ≤ amount ∧ amount ≤ pool.maxDonationPerDonor
  verified : pool.requiresSep12 = true → (env.store.sep12Identity donor).getD false = true

/-- The amount with the influence of its donor can be computed, and the tokens cannot be moved. -/
structure Unpaid (env : Env) (pool : MatchingPool) (donor : Address) (amount multiplier : Int) :
    Prop where
  product : I128.InRange (amount * multiplier)
  quotient : I128.InRange ((amount * multiplier).tdiv fixedPointScale)
  transfer : env.tokens.transfer pool.token donor env.self amount = none

section Traps

variable {env : Env} {poolId projectId : Nat} {donor : Address} {amount : Int}

theorem countDonor_ne_trap {uniqueDonors : Nat} {isNewDonor : Bool} :
    countDonor uniqueDonors isNewDonor ≠ trap := by
  unfold countDonor
  split_ifs
  · exact okOr_ne_trap
  · exact pure_ne_trap

/-- A donation traps without the authorization of its donor; once it is accepted it does so for
its influence, or in the transfer. -/
theorem donate_eq_trap : donate env poolId projectId donor amount = trap ↔
    donor ∉ env.auths ∨ donor ∈ env.auths ∧ ∃ pool, Takes env pool poolId donor amount ∧
      (influenceOf env donor = trap ∨ ∃ multiplier, influenceOf env donor = .ok multiplier ∧
        Unpaid env pool donor amount multiplier) := by
  unfold donate Ledger.Env.requireAuth readPool checkSep12Verification
  simp only [bind_eq_trap, require_eq_trap, require_eq_ok, okOr_ne_trap, okOr_eq_ok,
    ensure_ne_trap, ensure_eq_ok, Ledger.Env.transfer_eq_trap, I128.checkedMul_eq_some,
    I128.checkedDiv_eq_some, countDonor_ne_trap, ite_eq_iff, pure_ne_trap,
    and_false, exists_false, false_or, or_false, exists_const]
  refine or_congr_right (and_congr_right fun _ => exists_congr fun pool => ?_)
  constructor
  · rintro ⟨hstored, hactive, hrunning, hamount, hverified, htraps⟩
    refine ⟨⟨hstored, hactive, hrunning, hamount, hverified⟩, ?_⟩
    rcases htraps with htrap | ⟨multiplier, hinfluence, _, ⟨hproduct, rfl⟩, _, ⟨-, hquotient, -⟩,
      htransfer⟩
    · exact .inl htrap
    · exact .inr ⟨multiplier, hinfluence, hproduct, hquotient, htransfer⟩
  · rintro ⟨⟨hstored, hactive, hrunning, hamount, hverified⟩, htraps⟩
    refine ⟨hstored, hactive, hrunning, hamount, hverified, ?_⟩
    rcases htraps with htrap | ⟨multiplier, hinfluence, hproduct, hquotient, htransfer⟩
    · exact .inl htrap
    · exact .inr ⟨multiplier, hinfluence, _, ⟨hproduct, rfl⟩, _,
        ⟨by decide, hquotient, rfl⟩, htransfer⟩

end Traps

/-! ### The influence of a stored reputation -/

section Influence

variable {env : Env} {donor : Address} {reputation : DonorReputation}

theorem calculateInfluence_of_stored {seen : Reputation.Env}
    (h : seen.store.donorReputation donor = some reputation) :
    calculateInfluence seen donor =
      calculateInfluenceMultiplier reputation.reputationScore seen.store.config := by
  simp only [calculateInfluence, Reputation.readDonorReputation, okOr, h]
  rfl

/-- Without a reputation the influence is `1`. -/
theorem influenceOf_withoutReputation (env : Env) (donor : Address) :
    influenceOf (withoutReputation env donor) donor = .ok fixedPointScale := by
  have hnone : (withoutReputation env donor).store.reputation.donorReputation donor = none :=
    Function.update_self ..
  simp only [influenceOf, calculateInfluence, Reputation.readDonorReputation, reputationEnv, okOr,
    hnone]
  rfl

theorem multiplierSound {config : ReputationConfig} {score : Int} (hnonneg : 0 ≤ score)
    (hle : score ≤ reputationScale) (hmax : reputationScale < config.maxMultiplier)
    (hmachine : config.maxMultiplier ≤ I128.max)
    (hfits : score * (config.maxMultiplier - reputationScale) ≤ I128.max) :
    MultiplierSound config score (multiplierOf score config.maxMultiplier) where
  one_le := (Reputation.multiplierOf_bounds hnonneg hle hmax).1
  le_max := (Reputation.multiplierOf_bounds hnonneg hle hmax).2
  full hfull := by
    subst hfull
    exact Reputation.multiplierOf_full _
  mono lower hlower hlowerLe := by
    have hlowerFits : lower * (config.maxMultiplier - reputationScale) ≤ I128.max :=
      (Int.mul_le_mul_of_nonneg_right hlowerLe (by omega)).trans hfits
    refine ⟨_, ?_, Reputation.multiplierOf_mono hlowerLe hmax⟩
    rw [Reputation.calculateInfluenceMultiplier_eq hlower (hlowerLe.trans hle) hmax hmachine]
    exact if_pos hlowerFits

theorem influenceOf_of_computed {multiplier : Int}
    (h : calculateInfluence (reputationEnv env) donor = .ok multiplier) :
    influenceOf env donor = .ok multiplier := by
  simp only [influenceOf, h]
  rfl

/-- What cannot be paid with an influence cannot be paid with the influence `1`. -/
theorem Unpaid.of_one_le {pool : MatchingPool} {amount multiplier : Int}
    (h : Unpaid env pool donor amount multiplier) (hpos : 0 < amount)
    (hle : fixedPointScale ≤ multiplier) : Unpaid env pool donor amount fixedPointScale := by
  have hproduct : amount * fixedPointScale ≤ amount * multiplier :=
    Int.mul_le_mul_of_nonneg_left hle hpos.le
  have hrange : I128.InRange (amount * fixedPointScale) :=
    h.product.of_nonneg_of_le (Int.mul_nonneg hpos.le (by decide)) hproduct
  have hamount : amount ≤ amount * fixedPointScale :=
    le_mul_of_one_le_right hpos.le (by decide)
  refine ⟨hrange, ?_, h.transfer⟩
  rw [Int.mul_tdiv_cancel _ (by decide)]
  exact hrange.of_nonneg_of_le hpos.le hamount

/-- Where the influence can be computed, the reputation makes no donation trap. -/
theorem donate_withoutReputation {poolId projectId : Nat} {amount multiplier : Int}
    (hsound : env.store.Sound) (hinfluence : influenceOf env donor = .ok multiplier)
    (hle : fixedPointScale ≤ multiplier)
    (htrap : donate env poolId projectId donor amount = trap) :
    donate (withoutReputation env donor) poolId projectId donor amount = trap := by
  rw [donate_eq_trap] at htrap ⊢
  rcases htrap with hauth | ⟨hauth, pool, htakes, hcause⟩
  · exact .inl hauth
  · have htakes' : Takes (withoutReputation env donor) pool poolId donor amount :=
      ⟨htakes.stored, htakes.active, htakes.running, htakes.inBounds, htakes.verified⟩
    refine .inr ⟨hauth, pool, htakes', .inr ⟨_, influenceOf_withoutReputation env donor, ?_⟩⟩
    have hpos : 0 < amount :=
      (hsound poolId pool htakes.stored).minDonation_pos.trans_le htakes.inBounds.1
    rcases hcause with hnone | ⟨multiplier', hinfluence', hunpaid⟩
    · cases hinfluence.symm.trans hnone
    · obtain rfl := Except.ok.inj (hinfluence'.symm.trans hinfluence)
      have hunpaid' := hunpaid.of_one_le hpos hle
      exact ⟨hunpaid'.product, hunpaid'.quotient, hunpaid'.transfer⟩

end Influence

/-- **Influence.** In every reachable state, the influence of a donor is as expected exactly if
the product of the score and the range of the multipliers is an `i128`. -/
theorem influence_sound_iff {trace : Trace} {env : Env} (h : Ledger.Reachable contract trace env)
    {donor : Address} {reputation : DonorReputation}
    (hstored : env.store.reputation.donorReputation donor = some reputation) :
    InfluenceSound env donor reputation ↔
      reputation.reputationScore *
        (env.store.reputation.config.maxMultiplier - reputationScale) ≤ I128.max := by
  have hbounded := reputation_bounded h
  obtain ⟨hnonneg, hle⟩ := hbounded.score donor reputation hstored
  have hmachine := maxMultiplier_le h
  have hinfluence : calculateInfluence (reputationEnv env) donor =
      if reputation.reputationScore *
          (env.store.reputation.config.maxMultiplier - reputationScale) ≤ I128.max then
        .ok (multiplierOf reputation.reputationScore env.store.reputation.config.maxMultiplier)
      else trap :=
    (calculateInfluence_of_stored hstored).trans
      (Reputation.calculateInfluenceMultiplier_eq hnonneg hle hbounded.multiplier hmachine)
  constructor
  · intro hsound
    obtain ⟨multiplier, hcomputed, -⟩ := hsound.influence
    by_contra hoverflow
    rw [hinfluence, if_neg hoverflow] at hcomputed
    cases hcomputed
  · intro hfits
    rw [if_pos hfits] at hinfluence
    have hmultiplier := multiplierSound hnonneg hle hbounded.multiplier hmachine hfits
    refine ⟨hnonneg, hle, ⟨_, hinfluence, hmultiplier⟩, ?_⟩
    intro event poolId projectId amount htrap
    have hpools : (env.enter event).store.Sound := (pools_sound h : env.store.Sound)
    have hentered : influenceOf (env.enter event) donor = .ok _ :=
      influenceOf_of_computed (hinfluence : calculateInfluence
        (reputationEnv (env.enter event)) donor = _)
    exact donate_withoutReputation hpools hentered hmultiplier.one_le htrap

namespace Demo

/-- The donor has funded a project with one milestone, and it was completed. -/
def completed : List (Ledger.Event Address Call) :=
  [⟨0, 0, .tokenMint token donor 500⟩, opening 0 admin,
    call 10 donor (.reputation (.recordProjectFunded donor 1 (10 ^ 9) 1)),
    call 20 donor (.reputation (.recordMilestoneCompleted 1 0 none))]

/-- Then the maximum is raised to `200`. -/
def raised : List (Ledger.Event Address Call) :=
  completed ++
    [call 30 admin (.reputation (.updateConfig admin none (some (200 * 10 ^ 18)) none none))]

/-- The reputation of the donor in both cases. -/
def perfect : DonorReputation where
  donor := donor
  reputationScore := reputationScale
  successRate := Reputation.basisPoints
  totalFunded := 10 ^ 9
  qualifyingProjects := 1
  successfulProjects := 1
  lastUpdated := 20
  influenceMultiplier := Reputation.maxReputationMultiplier

end Demo

open Demo in
/-- With the default configuration a full reputation has its influence. -/
theorem influence_sound_of_completed_project :
    InfluenceSound (Ledger.history contract deployed completed).2 donor perfect :=
  influence_sound_iff (Ledger.history_reachable _ deployed_deployed (by decide)) (by decide)
    |>.mpr (by decide)

open Demo in
/-- With the maximum that the configuration accepted, it has none. -/
theorem influence_overflows_after_raise :
    ¬∀ (trace : Trace) (env : Env), Ledger.Reachable contract trace env →
      ∀ donor reputation, env.store.reputation.donorReputation donor = some reputation →
        InfluenceSound env donor reputation := by
  intro h
  have hrun := Ledger.history_reachable contract deployed_deployed
    (show Ledger.AllAdmissible contract deployed raised by decide)
  obtain ⟨multiplier, hcomputed, -⟩ := (h _ _ hrun donor perfect (by decide)).influence
  have htrap : calculateInfluence
      (reputationEnv (Ledger.history contract deployed raised).2) donor = trap := by decide
  cases htrap.symm.trans hcomputed

open Demo in
/-- The donor cannot donate any more. -/
example :
    let env := (Ledger.history contract deployed raised).2.enter
      (call 40 donor (.donate 1 7 donor 40))
    donate env 1 7 donor 40 = trap := by
  intro env
  have hinfluence : influenceOf env donor = trap := by decide
  have htakes : Takes env (newPool 0 1 admin token 1000 100 false 10 50) 1 donor 40 :=
    ⟨by decide, by decide, by decide, by decide, by decide⟩
  exact donate_eq_trap.mpr (.inr ⟨by decide, _, htakes, .inl hinfluence⟩)

end YieldTrust.Matching
