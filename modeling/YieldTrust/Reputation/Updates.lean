import Mathlib.Algebra.BigOperators.Group.List.Basic
import YieldTrust.Reputation.Contract

/-!
# YieldTrust.Reputation.Updates

What the calls do to the storage. Every call that records something first changes the
projects, and then rebuilds the reputation of one donor from them: `exec_effect` says which
projects change, `Refreshed` what the rebuilt reputation holds.
-/

namespace YieldTrust.Reputation

open Fallible
open GrantStream (Address Bytes GrantStatus)

/-! ### Counting projects -/

/-- The share of the successful projects, in basis points. -/
def rate (successful total : Nat) : Int :=
  if total = 0 then 0 else successful * basisPoints / total

/-- What the project was funded with. -/
def Store.fundedAmount (store : Store) (projectId : Nat) : Int :=
  match store.projectSuccessMetrics projectId with
  | some metrics => metrics.fundedAmount
  | none => 0

/-- The project was funded with as much as the threshold asks for. -/
def Store.qualifies (store : Store) (projectId : Nat) : Bool :=
  match store.projectSuccessMetrics projectId with
  | some metrics => store.config.minFundingThreshold ≤ metrics.fundedAmount
  | none => false

/-- The project qualifies and is completed. -/
def Store.succeeded (store : Store) (projectId : Nat) : Bool :=
  match store.projectSuccessMetrics projectId with
  | some metrics =>
    store.config.minFundingThreshold ≤ metrics.fundedAmount && metrics.projectStatus = .completed
  | none => false

section

variable {store : Store} {projectId : Nat} {metrics : ProjectSuccessMetrics}

theorem Store.qualifies_iff (h : store.projectSuccessMetrics projectId = some metrics) :
    store.qualifies projectId = true ↔
      store.config.minFundingThreshold ≤ metrics.fundedAmount := by
  simp [qualifies, h]

theorem Store.succeeded_iff (h : store.projectSuccessMetrics projectId = some metrics) :
    store.succeeded projectId = true ↔
      store.config.minFundingThreshold ≤ metrics.fundedAmount ∧
        metrics.projectStatus = .completed := by
  simp [succeeded, h]

end

theorem Store.qualifies_of_succeeded {store : Store} {projectId : Nat}
    (h : store.succeeded projectId = true) : store.qualifies projectId = true := by
  unfold succeeded at h
  unfold qualifies
  cases hm : store.projectSuccessMetrics projectId with
  | none => simp [hm] at h
  | some metrics => simp_all

theorem rate_nonneg (successful total : Nat) : 0 ≤ rate successful total := by
  unfold rate
  split
  · exact le_rfl
  · exact Int.ediv_nonneg (Int.mul_nonneg (Int.natCast_nonneg _) (by decide))
      (Int.natCast_nonneg _)

theorem rate_zero (total : Nat) : rate 0 total = 0 := by
  simp [rate]

section Loops

variable {env : Env} {config : ReputationConfig} {projectId : Nat}

theorem countProject_eq_ok {counts counts' : Nat × Nat}
    (h : countProject env counts projectId = .ok counts') :
    counts' = (counts.1 + (env.store.succeeded projectId).toNat,
      counts.2 + (env.store.qualifies projectId).toNat) := by
  unfold countProject readReputationConfig at h
  unfold Store.succeeded Store.qualifies
  cases hm : env.store.projectSuccessMetrics projectId with
  | none =>
      rw [hm] at h
      exact (pure_eq_ok.mp h).symm
  | some metrics =>
      simp only [hm] at h
      split_ifs at h with hthreshold hstatus
      · simp only [bind_eq_ok, orTrap_eq_ok, pure_eq_ok, U32.checkedAdd_eq_some] at h
        obtain ⟨_, ⟨-, rfl⟩, _, ⟨-, rfl⟩, rfl⟩ := h
        simp [hthreshold, hstatus]
      · simp only [bind_eq_ok, orTrap_eq_ok, pure_eq_ok, U32.checkedAdd_eq_some] at h
        obtain ⟨_, ⟨-, rfl⟩, rfl⟩ := h
        simp [hthreshold, hstatus]
      · obtain rfl := pure_eq_ok.mp h
        simp [hthreshold]

theorem foldl_counts (store : Store) (projects : List Nat) (counts : Nat × Nat) :
    projects.foldl (fun counts projectId => (counts.1 + (store.succeeded projectId).toNat,
        counts.2 + (store.qualifies projectId).toNat)) counts =
      (counts.1 + projects.countP store.succeeded, counts.2 + projects.countP store.qualifies) := by
  induction projects generalizing counts with
  | nil => rfl
  | cons projectId projects ih =>
      rw [List.foldl_cons, ih, List.countP_cons, List.countP_cons]
      cases store.succeeded projectId <;> cases store.qualifies projectId <;> simp <;> omega

theorem calculateSuccessRate_eq_ok {donor : Address} {successRate : Int}
    (h : calculateSuccessRate env donor = .ok successRate) :
    successRate = rate ((env.store.fundedProjects donor).countP env.store.succeeded)
      ((env.store.fundedProjects donor).countP env.store.qualifies) := by
  unfold calculateSuccessRate at h
  unfold rate
  dsimp only at h
  split_ifs at h with hempty
  · rw [List.isEmpty_iff.mp hempty]
    exact (pure_eq_ok.mp h).symm
  · simp only [bind_eq_ok] at h
    obtain ⟨counts, hcounts, h⟩ := h
    have hcounts := foldl_of_foldlM countProject_eq_ok hcounts
    rw [foldl_counts, Nat.zero_add, Nat.zero_add] at hcounts
    subst hcounts
    split_ifs at h ⊢
    · exact (pure_eq_ok.mp h).symm
    · simp only [bind_eq_ok, orTrap_eq_ok, I128.checkedMul_eq_some, I128.checkedDiv_eq_some] at h
      obtain ⟨_, ⟨-, rfl⟩, -, -, rfl⟩ := h
      exact Int.tdiv_eq_ediv_of_nonneg (Int.mul_nonneg (Int.natCast_nonneg _) (by decide))

theorem countInReputation_eq_ok {reputation reputation' : DonorReputation}
    (h : countInReputation env env.store.config reputation projectId = .ok reputation') :
    reputation' = { reputation with
      totalFunded := reputation.totalFunded + env.store.fundedAmount projectId
      qualifyingProjects :=
        reputation.qualifyingProjects + (env.store.qualifies projectId).toNat
      successfulProjects :=
        reputation.successfulProjects + (env.store.succeeded projectId).toNat } := by
  unfold countInReputation at h
  unfold Store.succeeded Store.qualifies Store.fundedAmount
  cases hm : env.store.projectSuccessMetrics projectId with
  | none =>
      rw [hm] at h
      obtain rfl := pure_eq_ok.mp h
      simp
  | some metrics =>
      simp only [hm, bind_eq_ok, orTrap_eq_ok, I128.checkedAdd_eq_some] at h
      obtain ⟨_, ⟨-, rfl⟩, h⟩ := h
      split_ifs at h with hthreshold hstatus
      · simp only [bind_eq_ok, orTrap_eq_ok, pure_eq_ok, U32.checkedAdd_eq_some] at h
        obtain ⟨_, ⟨-, rfl⟩, _, ⟨-, rfl⟩, rfl⟩ := h
        simp [hthreshold, hstatus]
      · simp only [bind_eq_ok, orTrap_eq_ok, pure_eq_ok, U32.checkedAdd_eq_some] at h
        obtain ⟨_, ⟨-, rfl⟩, rfl⟩ := h
        simp [hthreshold, hstatus]
      · obtain rfl := pure_eq_ok.mp h
        simp [hthreshold]

theorem foldl_reputation (store : Store) (projects : List Nat) (reputation : DonorReputation) :
    projects.foldl (fun (reputation : DonorReputation) projectId => { reputation with
        totalFunded := reputation.totalFunded + store.fundedAmount projectId
        qualifyingProjects := reputation.qualifyingProjects + (store.qualifies projectId).toNat
        successfulProjects := reputation.successfulProjects + (store.succeeded projectId).toNat })
        reputation =
      { reputation with
        totalFunded := reputation.totalFunded + (projects.map store.fundedAmount).sum
        qualifyingProjects := reputation.qualifyingProjects + projects.countP store.qualifies
        successfulProjects := reputation.successfulProjects + projects.countP store.succeeded } := by
  induction projects generalizing reputation with
  | nil => simp
  | cons projectId projects ih =>
      rw [List.foldl_cons, ih, List.map_cons, List.sum_cons, List.countP_cons, List.countP_cons]
      cases store.succeeded projectId <;> cases store.qualifies projectId <;>
        simp [Int.add_assoc, Nat.add_assoc, Nat.add_comm]

end Loops

/-! ### Rebuilding a reputation -/

/-- The reputation of `donor` that an update for the project leaves: counted over the list of
the projects if there was one before, made up from the one project if not. -/
structure Rebuilt (store : Store) (donor : Address) (projectId : Nat)
    (reputation : DonorReputation) : Prop where
  successRate : reputation.successRate =
    rate ((store.fundedProjects donor).countP store.succeeded)
      ((store.fundedProjects donor).countP store.qualifies)
  reputationScore : reputation.reputationScore =
    reputation.successRate * reputationScale / basisPoints
  recounted : store.donorReputation donor ≠ none →
    reputation.totalFunded = ((store.fundedProjects donor).map store.fundedAmount).sum ∧
      reputation.qualifyingProjects = (store.fundedProjects donor).countP store.qualifies ∧
      reputation.successfulProjects = (store.fundedProjects donor).countP store.succeeded
  created : store.donorReputation donor = none →
    reputation.totalFunded = store.fundedAmount projectId ∧
      reputation.qualifyingProjects = 1 ∧ reputation.successfulProjects = 0

/-- The storage after the reputation of `donor` was rebuilt. -/
structure Refreshed (store : Store) (donor : Address) (projectId : Nat) (store' : Store) :
    Prop where
  projectSuccessMetrics : store'.projectSuccessMetrics = store.projectSuccessMetrics
  donorFundedProjects : store'.donorFundedProjects = store.donorFundedProjects
  projectMilestoneRecord : store'.projectMilestoneRecord = store.projectMilestoneRecord
  reputationConfig : store'.reputationConfig = store.reputationConfig
  donorReputation : ∃ reputation, Rebuilt store donor projectId reputation ∧
    store'.donorReputation = Function.update store.donorReputation donor (some reputation)

theorem updateDonorReputationInternal_eq_ok {env env' : Env} {donor : Address}
    {reason : ReputationUpdateReason} {projectId : Nat}
    (h : updateDonorReputationInternal env donor reason (some projectId) = .ok env') :
    Refreshed env.store donor projectId env'.store := by
  unfold updateDonorReputationInternal readReputationConfig at h
  simp only [bind_eq_ok, orTrap_eq_ok, I128.checkedMul_eq_some, I128.checkedDiv_eq_some] at h
  obtain ⟨successRate, hrate, _, ⟨-, rfl⟩, _, ⟨-, -, rfl⟩, multiplier, -, h⟩ := h
  have hrate := calculateSuccessRate_eq_ok hrate
  have hscore : (successRate * reputationScale).tdiv basisPoints =
      successRate * reputationScale / basisPoints :=
    Int.tdiv_eq_ediv_of_nonneg (Int.mul_nonneg (hrate ▸ rate_nonneg _ _) (by decide))
  cases hold : env.store.donorReputation donor with
  | none =>
      simp only [hold, pure_eq_ok] at h
      subst h
      refine ⟨rfl, rfl, rfl, rfl, _, ⟨hrate, hscore, fun hne => absurd hold hne, fun _ => ?_⟩, rfl⟩
      refine ⟨?_, rfl, rfl⟩
      unfold Store.fundedAmount
      cases hm : env.store.projectSuccessMetrics projectId <;> simp [hm]
  | some old =>
      simp only [hold, bind_eq_ok, pure_eq_ok] at h
      obtain ⟨reputation, hfold, rfl⟩ := h
      have hfold := foldl_of_foldlM countInReputation_eq_ok hfold
      rw [foldl_reputation] at hfold
      refine ⟨rfl, rfl, rfl, rfl, reputation, ?_, rfl⟩
      subst hfold
      refine ⟨hrate, hscore, fun _ => ⟨?_, ?_, ?_⟩, fun hnone => ?_⟩
      · exact Int.zero_add _
      · exact Nat.zero_add _
      · exact Nat.zero_add _
      · cases hold.symm.trans hnone

/-! ### What a call does -/

/-- The metrics of a project that was just funded. -/
def newMetrics (donor : Address) (projectId : Nat) (fundedAmount : Int) (totalMilestones now : Nat) :
    ProjectSuccessMetrics where
  projectId := projectId
  donor := donor
  totalMilestones := totalMilestones
  completedMilestones := 0
  projectStatus := .active
  fundedAmount := fundedAmount
  createdAt := now
  completedAt := none

/-- The metrics after one more milestone. -/
def ProjectSuccessMetrics.complete (metrics : ProjectSuccessMetrics) (now : Nat) :
    ProjectSuccessMetrics :=
  if metrics.completedMilestones + 1 = metrics.totalMilestones then
    { metrics with
      completedMilestones := metrics.completedMilestones + 1
      projectStatus := .completed
      completedAt := some now }
  else
    { metrics with completedMilestones := metrics.completedMilestones + 1 }

/-- The metrics after the project failed. -/
def ProjectSuccessMetrics.fail (metrics : ProjectSuccessMetrics) (now : Nat) :
    ProjectSuccessMetrics :=
  { metrics with projectStatus := .cancelled, completedAt := some now }

theorem ProjectSuccessMetrics.complete_donor (metrics : ProjectSuccessMetrics) (now : Nat) :
    (metrics.complete now).donor = metrics.donor := by
  unfold complete
  split <;> rfl

theorem ProjectSuccessMetrics.complete_fundedAmount (metrics : ProjectSuccessMetrics)
    (now : Nat) : (metrics.complete now).fundedAmount = metrics.fundedAmount := by
  unfold complete
  split <;> rfl

theorem ProjectSuccessMetrics.complete_completed {metrics : ProjectSuccessMetrics} {now : Nat}
    (h : metrics.projectStatus ≠ .completed) :
    (metrics.complete now).projectStatus = .completed ↔
      metrics.completedMilestones + 1 = metrics.totalMilestones := by
  unfold complete
  split_ifs with hlast
  · exact iff_of_true rfl hlast
  · exact iff_of_false h hlast

/-- The environment in which the reputation of the donor is rebuilt after a funding. -/
def fund (env : Env) (donor : Address) (projectId : Nat) (fundedAmount : Int)
    (totalMilestones : Nat) : Env :=
  pushFundedProject (writeProjectMetrics env projectId
    (newMetrics donor projectId fundedAmount totalMilestones env.timestamp)) donor projectId

/-- The environment in which the reputation of the donor is rebuilt after a milestone. -/
def completeMilestone (env : Env) (metrics : ProjectSuccessMetrics)
    (projectId milestoneIndex : Nat) (evidenceHash : Option Bytes) : Env :=
  writeProjectMetrics (writeMilestoneRecord env
    { projectId, milestoneIndex, isCompleted := true, completedAt := some env.timestamp
      evidenceHash }) projectId (metrics.complete env.timestamp)

/-- Nothing that was recorded has changed. -/
structure SameRecords (store store' : Store) : Prop where
  projectSuccessMetrics : store'.projectSuccessMetrics = store.projectSuccessMetrics
  donorFundedProjects : store'.donorFundedProjects = store.donorFundedProjects
  projectMilestoneRecord : store'.projectMilestoneRecord = store.projectMilestoneRecord
  donorReputation : store'.donorReputation = store.donorReputation

/-- The call sets the configuration. -/
def Call.configures : Call → Bool
  | .initializeReputation _ | .updateConfig .. => true
  | _ => false

/-- What a call that went through has done. -/
inductive Effect (env : Env) : Call → Store → Prop
  | configured {call : Call} {store : Store} (hcall : call.configures = true)
      (hsame : SameRecords env.store store)
      (hmultiplier : reputationScale < env.store.config.maxMultiplier →
        reputationScale < store.config.maxMultiplier) : Effect env call store
  | fundedBelow {donor : Address} {projectId : Nat} {fundedAmount : Int} {totalMilestones : Nat}
      (hamount : 0 < fundedAmount) (hmilestones : totalMilestones ≠ 0)
      (hbelow : fundedAmount < env.store.config.minFundingThreshold) :
      Effect env (.recordProjectFunded donor projectId fundedAmount totalMilestones)
        (fund env donor projectId fundedAmount totalMilestones).store
  | funded {donor : Address} {projectId : Nat} {fundedAmount : Int} {totalMilestones : Nat}
      {store : Store} (hamount : 0 < fundedAmount) (hmilestones : totalMilestones ≠ 0)
      (hthreshold : env.store.config.minFundingThreshold ≤ fundedAmount)
      (hrefreshed : Refreshed (fund env donor projectId fundedAmount totalMilestones).store donor
        projectId store) :
      Effect env (.recordProjectFunded donor projectId fundedAmount totalMilestones) store
  | milestone {projectId milestoneIndex : Nat} {evidenceHash : Option Bytes}
      {metrics : ProjectSuccessMetrics} {store : Store}
      (hmetrics : env.store.projectSuccessMetrics projectId = some metrics)
      (hindex : milestoneIndex < metrics.totalMilestones)
      (hfresh : env.store.projectMilestoneRecord projectId milestoneIndex = none)
      (hrefreshed : Refreshed (completeMilestone env metrics projectId milestoneIndex
        evidenceHash).store metrics.donor projectId store) :
      Effect env (.recordMilestoneCompleted projectId milestoneIndex evidenceHash) store
  | failed {projectId : Nat} {metrics : ProjectSuccessMetrics} {store : Store}
      (hmetrics : env.store.projectSuccessMetrics projectId = some metrics)
      (hstatus : metrics.projectStatus ≠ .completed)
      (hrefreshed : Refreshed (writeProjectMetrics env projectId (metrics.fail env.timestamp)).store
        metrics.donor projectId store) :
      Effect env (.recordProjectFailed projectId) store

section Calls

variable {env env' : Env}

theorem initializeReputation_effect {admin : Address}
    (h : initializeReputation env admin = .ok env') :
    Effect env (.initializeReputation admin) env'.store := by
  unfold initializeReputation at h
  simp only [bind_eq_ok, pure_eq_ok] at h
  obtain ⟨-, -, -, -, rfl⟩ := h
  have hdefault : reputationScale < defaultConfig.maxMultiplier := by decide
  exact .configured rfl ⟨rfl, rfl, rfl, rfl⟩ fun _ => hdefault

/-- What holds of the configuration, and of it with the field set to a valid value, holds of
the result. -/
theorem setField_keeps {P : ReputationConfig → Prop} {α : Type} {value : Option α}
    {valid : α → Prop} [DecidablePred valid] {error : ReputationError}
    {set : α → ReputationConfig} {config config' : ReputationConfig}
    (h : setField value valid error set config = .ok config') (hbefore : P config)
    (hset : ∀ x, value = some x → valid x → P (set x)) : P config' := by
  unfold setField at h
  cases value with
  | none => exact pure_eq_ok.mp h ▸ hbefore
  | some x =>
      simp only [bind_eq_ok, ensure_eq_ok, pure_eq_ok] at h
      obtain ⟨-, hvalid, rfl⟩ := h
      exact hset x rfl hvalid

/-- The maximum stays, or the new one is more than `1`. -/
theorem updateConfig_maxMultiplier {admin : Address}
    {minFundingThreshold maxMultiplier : Option Int} {calculationWindowSecs : Option Nat}
    {recencyWeight : Option Int}
    (h : updateConfig env admin minFundingThreshold maxMultiplier calculationWindowSecs
      recencyWeight = .ok env') :
    env'.store.config.maxMultiplier = env.store.config.maxMultiplier ∨
      reputationScale < env'.store.config.maxMultiplier ∧
        maxMultiplier = some env'.store.config.maxMultiplier := by
  unfold updateConfig readReputationConfig at h
  simp only [bind_eq_ok, pure_eq_ok] at h
  obtain ⟨-, -, config₁, h₁, config₂, h₂, config₃, h₃, config₄, h₄, rfl⟩ := h
  let P (config : ReputationConfig) : Prop :=
    config.maxMultiplier = env.store.config.maxMultiplier ∨
      reputationScale < config.maxMultiplier ∧ maxMultiplier = some config.maxMultiplier
  have hfirst : P config₁ := setField_keeps h₁ (.inl rfl) fun threshold _ _ => .inl rfl
  have hsecond : P config₂ :=
    setField_keeps h₂ hfirst fun multiplier hvalue hvalid => .inr ⟨hvalid, hvalue⟩
  have hthird : P config₃ := setField_keeps h₃ hsecond fun window _ _ => hsecond
  have hfourth : P config₄ := setField_keeps h₄ hthird fun weight _ _ => hthird
  exact hfourth

theorem updateConfig_effect {admin : Address} {minFundingThreshold maxMultiplier : Option Int}
    {calculationWindowSecs : Option Nat} {recencyWeight : Option Int}
    (h : updateConfig env admin minFundingThreshold maxMultiplier calculationWindowSecs
      recencyWeight = .ok env') :
    Effect env (.updateConfig admin minFundingThreshold maxMultiplier calculationWindowSecs
      recencyWeight) env'.store := by
  have hmultiplier := updateConfig_maxMultiplier h
  unfold updateConfig at h
  simp only [bind_eq_ok, pure_eq_ok] at h
  obtain ⟨-, -, _, -, _, -, _, -, _, -, rfl⟩ := h
  refine .configured rfl ⟨rfl, rfl, rfl, rfl⟩ fun hbefore => ?_
  rcases hmultiplier with hsame | ⟨hlt, -⟩
  · rw [hsame]
    exact hbefore
  · exact hlt

theorem recordProjectFunded_effect {donor : Address} {projectId : Nat} {fundedAmount : Int}
    {totalMilestones : Nat}
    (h : recordProjectFunded env donor projectId fundedAmount totalMilestones = .ok env') :
    Effect env (.recordProjectFunded donor projectId fundedAmount totalMilestones)
      env'.store := by
  unfold recordProjectFunded readReputationConfig at h
  simp only [bind_eq_ok, ensure_eq_ok] at h
  obtain ⟨-, -, -, ⟨hamount, hmilestones⟩, h⟩ := h
  split_ifs at h with hthreshold
  · exact .funded hamount hmilestones hthreshold (updateDonorReputationInternal_eq_ok h)
  · obtain rfl := pure_eq_ok.mp h
    exact .fundedBelow hamount hmilestones (Int.not_le.mp hthreshold)

theorem recordMilestoneCompleted_effect {projectId milestoneIndex : Nat}
    {evidenceHash : Option Bytes}
    (h : recordMilestoneCompleted env projectId milestoneIndex evidenceHash = .ok env') :
    Effect env (.recordMilestoneCompleted projectId milestoneIndex evidenceHash) env'.store := by
  unfold recordMilestoneCompleted readProjectMetrics at h
  simp only [bind_eq_ok, okOr_eq_ok, ensure_eq_ok, orTrap_eq_ok, U32.checkedAdd_eq_some] at h
  obtain ⟨metrics, hmetrics, -, hindex, -, hfresh, _, ⟨-, rfl⟩, h⟩ := h
  have hrefreshed : Refreshed (completeMilestone env metrics projectId milestoneIndex
      evidenceHash).store (metrics.complete env.timestamp).donor projectId env'.store :=
    updateDonorReputationInternal_eq_ok h
  rw [metrics.complete_donor] at hrefreshed
  exact .milestone hmetrics hindex hfresh hrefreshed

theorem recordProjectFailed_effect {projectId : Nat}
    (h : recordProjectFailed env projectId = .ok env') :
    Effect env (.recordProjectFailed projectId) env'.store := by
  unfold recordProjectFailed readProjectMetrics at h
  simp only [bind_eq_ok, okOr_eq_ok, ensure_eq_ok] at h
  obtain ⟨metrics, hmetrics, -, hstatus, h⟩ := h
  exact .failed hmetrics hstatus (updateDonorReputationInternal_eq_ok h)

/-- **Inversion** of a call. -/
theorem exec_effect {call : Call} (h : call.exec env = .ok env') :
    Effect env call env'.store := by
  cases call with
  | initializeReputation => exact initializeReputation_effect h
  | updateConfig => exact updateConfig_effect h
  | recordProjectFunded => exact recordProjectFunded_effect h
  | recordMilestoneCompleted => exact recordMilestoneCompleted_effect h
  | recordProjectFailed => exact recordProjectFailed_effect h

end Calls

/-! ### Runs -/

abbrev Trace := Ledger.Trace Address Store Call

abbrev Step := Run.Step Env (Ledger.Event Address Call)

/-- **Inversion** of a step. -/
theorem effect_of_next {e : Step} (h : Ledger.Next contract e.before e.action e.after) :
    (Ledger.called contract e = none ∧ e.after.store = e.before.store) ∨
      ∃ call, Ledger.called contract e = some call ∧
        Effect (e.before.enter e.action) call e.after.store :=
  Ledger.effect_of_next h fun _ hexec => exec_effect hexec

end YieldTrust.Reputation
