import YieldTrust.Reputation.Updates

/-!
# YieldTrust.Reputation.Influence

The influence of a donor in a matching round: between `1` and the maximum of the
configuration, by the reputation score, which is never negative and at most `1`.
-/

namespace YieldTrust.Reputation

open Fallible
open GrantStream (Address)

/-- What holds of every stored reputation, and of the configuration. -/
structure Store.Bounded (store : Store) : Prop where
  score : ∀ donor reputation, store.donorReputation donor = some reputation →
    0 ≤ reputation.reputationScore ∧ reputation.reputationScore ≤ reputationScale
  multiplier : reputationScale < store.config.maxMultiplier

/-- The influence of the donor; `1` without a reputation. -/
def Store.influence (store : Store) (donor : Address) : Int :=
  match store.donorReputation donor with
  | some reputation =>
    min (reputationScale + reputation.reputationScore *
      (store.config.maxMultiplier - reputationScale) / reputationScale) store.config.maxMultiplier
  | none => reputationScale

theorem rate_le {successful total : Nat} (h : successful ≤ total) :
    rate successful total ≤ basisPoints := by
  unfold rate
  split_ifs with hzero
  · decide
  · have hpos : (0 : Int) < total := by omega
    have hle : (successful : Int) * basisPoints ≤ total * basisPoints :=
      Int.mul_le_mul_of_nonneg_right (by omega) (by decide)
    calc (successful : Int) * basisPoints / total
      _ ≤ total * basisPoints / total := Int.ediv_le_ediv hpos hle
      _ = basisPoints := Int.mul_ediv_cancel_left _ hpos.ne'

theorem score_bounds {successRate : Int} (hnonneg : 0 ≤ successRate)
    (hle : successRate ≤ basisPoints) :
    0 ≤ successRate * reputationScale / basisPoints ∧
      successRate * reputationScale / basisPoints ≤ reputationScale := by
  have hscaled : successRate * reputationScale ≤ basisPoints * reputationScale :=
    Int.mul_le_mul_of_nonneg_right hle (by decide)
  constructor
  · exact Int.ediv_nonneg (Int.mul_nonneg hnonneg (by decide)) (by decide)
  · calc successRate * reputationScale / basisPoints
      _ ≤ basisPoints * reputationScale / basisPoints := Int.ediv_le_ediv (by decide) hscaled
      _ = reputationScale := by decide

section Bounded

variable {store store' : Store} {donor : Address} {projectId : Nat}

theorem Rebuilt.score_bounds {reputation : DonorReputation}
    (h : Rebuilt store donor projectId reputation) :
    0 ≤ reputation.reputationScore ∧ reputation.reputationScore ≤ reputationScale := by
  have hcount : (store.fundedProjects donor).countP store.succeeded ≤
      (store.fundedProjects donor).countP store.qualifies :=
    List.countP_mono_left fun projectId _ hs => Store.qualifies_of_succeeded hs
  rw [h.reputationScore, h.successRate]
  exact Reputation.score_bounds (rate_nonneg _ _) (rate_le hcount)

theorem Refreshed.config (h : Refreshed store donor projectId store') :
    store'.config = store.config := by
  unfold Store.config
  rw [h.reputationConfig]

theorem Store.Bounded.refreshed (h : store.Bounded)
    (hrefreshed : Refreshed store donor projectId store') : store'.Bounded where
  score other reputation hother := by
    obtain ⟨rebuilt, hrebuilt, hwritten⟩ := hrefreshed.donorReputation
    rw [hwritten] at hother
    by_cases hne : other = donor
    · subst hne
      rw [Function.update_self] at hother
      exact Option.some.inj hother ▸ hrebuilt.score_bounds
    · rw [Function.update_of_ne hne] at hother
      exact h.score other reputation hother
  multiplier := by
    rw [hrefreshed.config]
    exact h.multiplier

theorem Store.Bounded.congr (h : store.Bounded)
    (hreputation : store'.donorReputation = store.donorReputation)
    (hconfig : store'.reputationConfig = store.reputationConfig) : store'.Bounded where
  score := hreputation ▸ h.score
  multiplier := by
    have hmultiplier := h.multiplier
    unfold Store.config at hmultiplier ⊢
    rw [hconfig]
    exact hmultiplier

/-- A call keeps the bounds. -/
theorem Effect.bounded {env : Env} {call : Call} (h : Effect env call store)
    (hb : env.store.Bounded) : store.Bounded := by
  cases h with
  | configured _ hrecords hmultiplier =>
      exact ⟨hrecords.donorReputation ▸ hb.score, hmultiplier hb.multiplier⟩
  | fundedBelow => exact hb.congr rfl rfl
  | funded _ _ _ hrefreshed => exact (hb.congr (by rfl) (by rfl)).refreshed hrefreshed
  | milestone _ _ _ hrefreshed => exact (hb.congr (by rfl) (by rfl)).refreshed hrefreshed
  | failed _ _ hrefreshed => exact (hb.congr (by rfl) (by rfl)).refreshed hrefreshed

/-- Only two functions set the configuration. -/
theorem Effect.config {env : Env} {call : Call} (h : Effect env call store)
    (hcall : call.configures = false) : store.config = env.store.config := by
  cases h with
  | configured hconfigures => cases hcall.symm.trans hconfigures
  | fundedBelow => rfl
  | funded _ _ _ hrefreshed => exact hrefreshed.config
  | milestone _ _ _ hrefreshed => exact hrefreshed.config
  | failed _ _ hrefreshed => exact hrefreshed.config

/-- The maximum stays an `i128`. -/
theorem exec_maxMultiplier_le {env env' : Env} {call : Call} (h : call.exec env = .ok env')
    (htyped : call.typed = true) (hle : env.store.config.maxMultiplier ≤ I128.max) :
    env'.store.config.maxMultiplier ≤ I128.max := by
  have heffect := exec_effect h
  cases call with
  | initializeReputation admin =>
      simp only [Call.exec, initializeReputation, bind_eq_ok, pure_eq_ok] at h
      obtain ⟨-, -, -, -, rfl⟩ := h
      have hdefault : defaultConfig.maxMultiplier ≤ I128.max := by decide
      exact hdefault
  | updateConfig admin minFundingThreshold maxMultiplier calculationWindowSecs recencyWeight =>
      rcases updateConfig_maxMultiplier h with hsame | ⟨-, hset⟩
      · rw [hsame]
        exact hle
      · simp only [Call.typed, hset, Option.toList_some, Bool.and_eq_true, List.all_append,
          List.all_cons, decide_eq_true_eq] at htyped
        exact htyped.1.1.2.1.2
  | recordProjectFunded | recordMilestoneCompleted | recordProjectFailed =>
      rw [heffect.config rfl]
      exact hle

theorem initial_bounded : ({} : Store).Bounded where
  score _ _ h := by cases h
  multiplier := by decide

end Bounded

section Influence

variable {env : Env} {donor : Address}

theorem Store.Bounded.one_le_influence {store : Store} (h : store.Bounded) :
    reputationScale ≤ store.influence donor := by
  unfold Store.influence
  cases hr : store.donorReputation donor with
  | none => exact le_rfl
  | some reputation =>
      have hmultiplier := h.multiplier
      have hextra : 0 ≤ reputation.reputationScore *
          (store.config.maxMultiplier - reputationScale) / reputationScale :=
        Int.ediv_nonneg (Int.mul_nonneg (h.score donor reputation hr).1 (by omega)) (by decide)
      exact le_min (by omega) hmultiplier.le

/-- That there is no reputation is the only error. -/
theorem calculateInfluence_eq_fail {e : ReputationError}
    (h : calculateInfluence env donor = fail e) : env.store.donorReputation donor = none := by
  unfold calculateInfluence readDonorReputation calculateInfluenceMultiplier at h
  simp only [bind_eq_fail, okOr_eq_fail, orTrap_ne_fail, pure_ne_fail, and_false,
    exists_false, or_false] at h
  exact h.1

theorem calculateInfluence_eq_ok (hb : env.store.Bounded) {multiplier : Int}
    (h : calculateInfluence env donor = .ok multiplier) :
    multiplier = env.store.influence donor := by
  unfold calculateInfluence readDonorReputation calculateInfluenceMultiplier
    readReputationConfig at h
  simp only [bind_eq_ok, okOr_eq_ok, orTrap_eq_ok, pure_eq_ok, I128.checkedSub_eq_some,
    I128.checkedMul_eq_some, I128.checkedDiv_eq_some, I128.checkedAdd_eq_some] at h
  obtain ⟨reputation, hr, _, ⟨-, rfl⟩, _, ⟨-, rfl⟩, _, ⟨-, -, rfl⟩, _, ⟨-, rfl⟩, rfl⟩ := h
  have hmultiplier := hb.multiplier
  have hnonneg : 0 ≤ reputation.reputationScore *
      (env.store.config.maxMultiplier - reputationScale) :=
    Int.mul_nonneg (hb.score donor reputation hr).1 (by omega)
  simp only [Store.influence, hr]
  rw [Int.tdiv_eq_ediv_of_nonneg hnonneg]

end Influence

section Multiplier

/-- The multiplier of a score, on the line from `1` to the maximum. -/
def multiplierOf (score maxMultiplier : Int) : Int :=
  reputationScale + score * (maxMultiplier - reputationScale) / reputationScale

variable {score score' maxMultiplier : Int}

theorem multiplierOf_mono (hle : score' ≤ score) (hmax : reputationScale < maxMultiplier) :
    multiplierOf score' maxMultiplier ≤ multiplierOf score maxMultiplier := by
  have hproduct : score' * (maxMultiplier - reputationScale) ≤
      score * (maxMultiplier - reputationScale) :=
    Int.mul_le_mul_of_nonneg_right hle (by omega)
  have hquotient := Int.ediv_le_ediv (show (0 : Int) < reputationScale by decide) hproduct
  unfold multiplierOf
  omega

@[simp] theorem multiplierOf_zero (maxMultiplier : Int) :
    multiplierOf 0 maxMultiplier = reputationScale := by
  simp [multiplierOf]

/-- With full reputation the multiplier is the maximum. -/
@[simp] theorem multiplierOf_full (maxMultiplier : Int) :
    multiplierOf reputationScale maxMultiplier = maxMultiplier := by
  have hquotient : reputationScale * (maxMultiplier - reputationScale) / reputationScale =
      maxMultiplier - reputationScale := Int.mul_ediv_cancel_left _ (by decide)
  unfold multiplierOf
  omega

theorem multiplierOf_bounds (hnonneg : 0 ≤ score) (hle : score ≤ reputationScale)
    (hmax : reputationScale < maxMultiplier) :
    reputationScale ≤ multiplierOf score maxMultiplier ∧
      multiplierOf score maxMultiplier ≤ maxMultiplier := by
  have hlow := multiplierOf_mono hnonneg hmax
  have hhigh := multiplierOf_mono hle hmax
  rw [multiplierOf_zero] at hlow
  rw [multiplierOf_full] at hhigh
  exact ⟨hlow, hhigh⟩

/-- The multiplier is computed unless the product overflows. Nothing else can, and the multiplier
is never cut off. -/
theorem calculateInfluenceMultiplier_eq {config : ReputationConfig} (hnonneg : 0 ≤ score)
    (hle : score ≤ reputationScale) (hmax : reputationScale < config.maxMultiplier)
    (hfits : config.maxMultiplier ≤ I128.max) :
    calculateInfluenceMultiplier score config =
      if score * (config.maxMultiplier - reputationScale) ≤ I128.max then
        .ok (multiplierOf score config.maxMultiplier)
      else trap := by
  have hscale : 0 < reputationScale := by decide
  have hmaxRange : I128.InRange config.maxMultiplier := I128.inRange_max.of_nonneg_of_le
    (hscale.trans hmax).le hfits
  have hrange : I128.InRange (config.maxMultiplier - reputationScale) :=
    hmaxRange.of_nonneg_of_le (by omega) (by omega)
  have hproduct : 0 ≤ score * (config.maxMultiplier - reputationScale) :=
    Int.mul_nonneg hnonneg (by omega)
  have hquotient : (score * (config.maxMultiplier - reputationScale)).tdiv reputationScale =
      score * (config.maxMultiplier - reputationScale) / reputationScale :=
    Int.tdiv_eq_ediv_of_nonneg hproduct
  obtain ⟨hlow, hhigh⟩ := multiplierOf_bounds hnonneg hle hmax
  have hquotientRange : I128.InRange
      (score * (config.maxMultiplier - reputationScale) / reputationScale) := by
    unfold multiplierOf at hlow hhigh
    exact hmaxRange.of_nonneg_of_le (by omega) (by omega)
  have hsumRange : I128.InRange (multiplierOf score config.maxMultiplier) :=
    hmaxRange.of_nonneg_of_le (hscale.le.trans hlow) hhigh
  unfold calculateInfluenceMultiplier
  split_ifs with hoverflow
  · have hproductRange : I128.InRange (score * (config.maxMultiplier - reputationScale)) :=
      I128.inRange_max.of_nonneg_of_le hproduct hoverflow
    simp only [bind_eq_ok, orTrap_eq_ok, pure_eq_ok, I128.checkedSub_eq_some,
      I128.checkedMul_eq_some, I128.checkedDiv_eq_some, I128.checkedAdd_eq_some]
    refine ⟨_, ⟨hrange, rfl⟩, _, ⟨hproductRange, rfl⟩, _, ⟨hscale.ne', ?_, hquotient⟩, _,
      ⟨hsumRange, rfl⟩, min_eq_left hhigh⟩
    rw [hquotient]
    exact hquotientRange
  · simp only [bind_eq_trap, orTrap_eq_trap, orTrap_eq_ok, I128.checkedSub_eq_some]
    refine .inr ⟨_, ⟨hrange, rfl⟩, .inl ?_⟩
    exact if_neg fun hproductRange => hoverflow hproductRange.2

end Multiplier

end YieldTrust.Reputation
