import Mathlib.Data.Set.Card
import YieldTrust.Lib.Distinct
import YieldTrust.Lib.PartialMap
import YieldTrust.Reputation.Updates

/-!
# YieldTrust.Reputation.Recount

The reputation of a donor against a **recount** of the projects that the donor has funded, and
the metrics of a project against the records of its milestones. A project can be funded again,
which overwrites its metrics and lists it twice, and the first reputation of a donor is made
up from one project; `reputation_recount` says exactly when this does no harm.
-/

namespace YieldTrust.Reputation

open Fallible
open GrantStream (Address Bytes GrantStatus)

/-! ### One project -/

/-- The milestones of a project that are recorded. -/
def Store.recorded (store : Store) (projectId : Nat) : Set Nat :=
  PartialMap.keys (store.projectMilestoneRecord projectId)

/-- The metrics agree with the recorded milestones. -/
structure ProjectSuccessMetrics.Sound (metrics : ProjectSuccessMetrics) (recorded : Set Nat) :
    Prop where
  amount_pos : 0 < metrics.fundedAmount
  milestones_pos : 0 < metrics.totalMilestones
  recorded_lt : ∀ i ∈ recorded, i < metrics.totalMilestones
  completed : metrics.completedMilestones = recorded.ncard
  status : metrics.projectStatus = .completed ↔
    metrics.completedMilestones = metrics.totalMilestones

namespace ProjectSuccessMetrics.Sound

variable {metrics : ProjectSuccessMetrics} {recorded : Set Nat} {now : Nat}

theorem subset_range (h : metrics.Sound recorded) :
    recorded ⊆ (Finset.range metrics.totalMilestones : Set Nat) := by
  intro i hi
  exact Finset.mem_coe.mpr (Finset.mem_range.mpr (h.recorded_lt i hi))

theorem finite (h : metrics.Sound recorded) : recorded.Finite :=
  (Finset.finite_toSet _).subset h.subset_range

/-- All milestones are recorded exactly if as many as there are. -/
theorem all_recorded_iff (h : metrics.Sound recorded) :
    (∀ i < metrics.totalMilestones, i ∈ recorded) ↔
      metrics.completedMilestones = metrics.totalMilestones := by
  have hcard : (Finset.range metrics.totalMilestones : Set Nat).ncard =
      metrics.totalMilestones := by
    rw [Set.ncard_coe_finset, Finset.card_range]
  constructor
  · intro hall
    have heq : recorded = (Finset.range metrics.totalMilestones : Set Nat) :=
      h.subset_range.antisymm fun i hi => hall i (Finset.mem_range.mp (Finset.mem_coe.mp hi))
    rw [h.completed, heq, hcard]
  · intro hcount i hi
    have heq : recorded = (Finset.range metrics.totalMilestones : Set Nat) := by
      refine Set.eq_of_subset_of_ncard_le h.subset_range ?_ (Finset.finite_toSet _)
      rw [hcard, ← h.completed, hcount]
    rw [heq]
    exact Finset.mem_coe.mpr (Finset.mem_range.mpr hi)

/-- A project of which no milestone is recorded. -/
theorem new {donor : Address} {projectId : Nat} {fundedAmount : Int} {totalMilestones : Nat}
    (hamount : 0 < fundedAmount) (hmilestones : totalMilestones ≠ 0) :
    (newMetrics donor projectId fundedAmount totalMilestones now).Sound ∅ where
  amount_pos := hamount
  milestones_pos := Nat.pos_of_ne_zero hmilestones
  recorded_lt i hi := hi.elim
  completed := Set.ncard_empty Nat |>.symm
  status := by
    have hactive : GrantStatus.active ≠ .completed := by decide
    exact ⟨fun h => absurd h hactive, fun h => absurd h.symm hmilestones⟩

/-- While a milestone is missing, the project is not completed. -/
theorem lt_of_missing (h : metrics.Sound recorded) {i : Nat} (hi : i < metrics.totalMilestones)
    (hmissing : i ∉ recorded) : metrics.completedMilestones < metrics.totalMilestones := by
  have hle : recorded.ncard ≤ metrics.totalMilestones := by
    have hle := Set.ncard_le_ncard h.subset_range (Finset.finite_toSet _)
    rwa [Set.ncard_coe_finset, Finset.card_range] at hle
  have hne : metrics.completedMilestones ≠ metrics.totalMilestones := fun heq =>
    hmissing (h.all_recorded_iff.mpr heq i hi)
  have hcompleted := h.completed
  omega

theorem complete (h : metrics.Sound recorded) {i : Nat} (hi : i < metrics.totalMilestones)
    (hmissing : i ∉ recorded) : (metrics.complete now).Sound (insert i recorded) := by
  have hlt := h.lt_of_missing hi hmissing
  have hcard : metrics.completedMilestones + 1 = (insert i recorded).ncard := by
    rw [Set.ncard_insert_of_notMem hmissing h.finite, h.completed]
  have hbound : ∀ j ∈ insert i recorded, j < metrics.totalMilestones := by
    intro j hj
    rcases Set.mem_insert_iff.mp hj with rfl | hj
    · exact hi
    · exact h.recorded_lt j hj
  unfold ProjectSuccessMetrics.complete
  split_ifs with hlast
  · exact { amount_pos := h.amount_pos, milestones_pos := h.milestones_pos
            recorded_lt := hbound, completed := hcard
            status := ⟨fun _ => hlast, fun _ => rfl⟩ }
  · refine { amount_pos := h.amount_pos, milestones_pos := h.milestones_pos
             recorded_lt := hbound, completed := hcard
             status := ⟨fun hstatus => ?_, fun heq => absurd heq hlast⟩ }
    exact absurd (h.status.mp hstatus) hlt.ne

theorem fail (h : metrics.Sound recorded) (hstatus : metrics.projectStatus ≠ .completed) :
    (metrics.fail now).Sound recorded where
  amount_pos := h.amount_pos
  milestones_pos := h.milestones_pos
  recorded_lt := h.recorded_lt
  completed := h.completed
  status := by
    have hcancelled : GrantStatus.cancelled ≠ .completed := by decide
    exact ⟨fun h => absurd h hcancelled, fun heq => absurd (h.status.mpr heq) hstatus⟩

end ProjectSuccessMetrics.Sound

/-! ### All projects -/

/-- The metrics of every project agree with its milestones, and a project is listed for the
donor that its metrics name. -/
structure Store.Sound (store : Store) : Prop where
  funded : ∀ projectId metrics, store.projectSuccessMetrics projectId = some metrics →
    metrics.Sound (store.recorded projectId)
  unfunded : ∀ projectId, store.projectSuccessMetrics projectId = none →
    store.recorded projectId = ∅
  listed : ∀ donor projectId, projectId ∈ store.fundedProjects donor ↔
    ∃ metrics, store.projectSuccessMetrics projectId = some metrics ∧ metrics.donor = donor

/-- Funding the project takes it from no other donor, and no milestone of it is recorded. -/
def Store.CanFund (store : Store) (donor : Address) (projectId : Nat) : Prop :=
  ∀ metrics ∈ store.projectSuccessMetrics projectId,
    metrics.donor = donor ∧ metrics.completedMilestones = 0

instance (store : Store) (donor : Address) (projectId : Nat) :
    Decidable (store.CanFund donor projectId) :=
  inferInstanceAs (Decidable (∀ _ ∈ _, _))

theorem fundedProjects_fund {env : Env} {donor : Address} {projectId : Nat} {fundedAmount : Int}
    {totalMilestones : Nat} :
    (fund env donor projectId fundedAmount totalMilestones).store.fundedProjects donor =
      env.store.fundedProjects donor ++ [projectId] := by
  simp [fund, pushFundedProject, writeProjectMetrics, Store.fundedProjects]

theorem fundedProjects_fund_ne {env : Env} {donor other : Address} {projectId : Nat}
    {fundedAmount : Int} {totalMilestones : Nat} (hne : other ≠ donor) :
    (fund env donor projectId fundedAmount totalMilestones).store.fundedProjects other =
      env.store.fundedProjects other := by
  simp [fund, pushFundedProject, writeProjectMetrics, Store.fundedProjects, hne]

namespace Store.Sound

variable {store store' : Store} {donor : Address} {projectId : Nat}
  {metrics metrics' : ProjectSuccessMetrics}

theorem congr (h : store.Sound)
    (hmetrics : store'.projectSuccessMetrics = store.projectSuccessMetrics)
    (hfunded : store'.donorFundedProjects = store.donorFundedProjects)
    (hrecords : store'.projectMilestoneRecord = store.projectMilestoneRecord) :
    store'.Sound := by
  have hrecorded (projectId : Nat) : store'.recorded projectId = store.recorded projectId := by
    unfold recorded
    rw [hrecords]
  have hlist (donor : Address) : store'.fundedProjects donor = store.fundedProjects donor := by
    unfold fundedProjects
    rw [hfunded]
  refine ⟨fun projectId metrics => ?_, fun projectId => ?_, fun donor projectId => ?_⟩
  · rw [hmetrics, hrecorded]
    exact h.funded projectId metrics
  · rw [hmetrics, hrecorded]
    exact h.unfunded projectId
  · rw [hmetrics, hlist]
    exact h.listed donor projectId

/-- Only one project changes. -/
theorem update (h : store.Sound)
    (hmetrics : store'.projectSuccessMetrics =
      Function.update store.projectSuccessMetrics projectId (some metrics'))
    (hother : ∀ other ≠ projectId, store'.recorded other = store.recorded other)
    (hsound : metrics'.Sound (store'.recorded projectId))
    (hlist : ∀ donor other, other ∈ store'.fundedProjects donor ↔
      (other ≠ projectId ∧ other ∈ store.fundedProjects donor) ∨
        (other = projectId ∧ metrics'.donor = donor)) : store'.Sound := by
  have hsame (other : Nat) (hne : other ≠ projectId) :
      store'.projectSuccessMetrics other = store.projectSuccessMetrics other := by
    rw [hmetrics, Function.update_of_ne hne]
  have hself : store'.projectSuccessMetrics projectId = some metrics' := by
    rw [hmetrics, Function.update_self]
  refine ⟨fun other m hm => ?_, fun other hnone => ?_, fun donor other => ?_⟩
  · by_cases hne : other = projectId
    · subst hne
      obtain rfl := Option.some.inj (hself.symm.trans hm)
      exact hsound
    · rw [hother other hne]
      exact h.funded other m ((hsame other hne).symm.trans hm)
  · by_cases hne : other = projectId
    · subst hne
      cases hself.symm.trans hnone
    · rw [hother other hne]
      exact h.unfunded other ((hsame other hne).symm.trans hnone)
  · rw [hlist]
    by_cases hne : other = projectId
    · subst hne
      simp [hself]
    · simp [hne, hsame other hne, h.listed donor other]

/-- The metrics of a project change, and its donor does not. -/
theorem update_metrics (h : store.Sound)
    (hbefore : store.projectSuccessMetrics projectId = some metrics)
    (hmetrics : store'.projectSuccessMetrics =
      Function.update store.projectSuccessMetrics projectId (some metrics'))
    (hdonor : metrics'.donor = metrics.donor)
    (hfunded : store'.donorFundedProjects = store.donorFundedProjects)
    (hother : ∀ other ≠ projectId, store'.recorded other = store.recorded other)
    (hsound : metrics'.Sound (store'.recorded projectId)) : store'.Sound := by
  refine h.update hmetrics hother hsound fun donor other => ?_
  have hlist : store'.fundedProjects donor = store.fundedProjects donor := by
    unfold fundedProjects
    rw [hfunded]
  rw [hlist]
  by_cases hne : other = projectId
  · subst hne
    simp [h.listed donor other, hbefore, hdonor]
  · simp [hne]

theorem recorded_of_canFund (h : store.Sound) (hcan : store.CanFund donor projectId) :
    store.recorded projectId = ∅ := by
  cases hm : store.projectSuccessMetrics projectId with
  | none => exact h.unfunded projectId hm
  | some metrics =>
      have hsound := h.funded projectId metrics hm
      have hzero := (hcan metrics hm).2
      exact (Set.ncard_eq_zero hsound.finite).mp (hsound.completed.symm.trans hzero)

variable {env : Env}

theorem fund (h : env.store.Sound) {fundedAmount : Int} {totalMilestones : Nat}
    (hamount : 0 < fundedAmount) (hmilestones : totalMilestones ≠ 0)
    (hcan : env.store.CanFund donor projectId) :
    (Reputation.fund env donor projectId fundedAmount totalMilestones).store.Sound := by
  refine h.update rfl (fun _ _ => rfl) ?_ fun other project => ?_
  · have hempty : (Reputation.fund env donor projectId fundedAmount totalMilestones).store.recorded
        projectId = ∅ := h.recorded_of_canFund hcan
    rw [hempty]
    exact .new hamount hmilestones
  · have hothers (hmem : projectId ∈ env.store.fundedProjects other) : other = donor := by
      obtain ⟨metrics, hm, hdonor⟩ := (h.listed other projectId).mp hmem
      exact hdonor.symm.trans (hcan metrics hm).1
    by_cases hne : other = donor
    · subst hne
      rw [fundedProjects_fund]
      by_cases hproject : project = projectId <;> simp [hproject, newMetrics]
    · rw [fundedProjects_fund_ne hne]
      by_cases hproject : project = projectId
      · subst hproject
        have hmissing : project ∉ env.store.fundedProjects other := fun hmem => hne (hothers hmem)
        simp [hmissing, newMetrics, Ne.symm hne]
      · simp [hproject]

theorem completeMilestone (h : env.store.Sound) {milestoneIndex : Nat}
    {evidenceHash : Option Bytes} {metrics : ProjectSuccessMetrics}
    (hmetrics : env.store.projectSuccessMetrics projectId = some metrics)
    (hindex : milestoneIndex < metrics.totalMilestones)
    (hfresh : env.store.projectMilestoneRecord projectId milestoneIndex = none) :
    (Reputation.completeMilestone env metrics projectId milestoneIndex
      evidenceHash).store.Sound := by
  refine h.update_metrics hmetrics rfl (metrics.complete_donor _) rfl (fun other hne => ?_) ?_
  · simp [Reputation.completeMilestone, writeMilestoneRecord, writeProjectMetrics,
      Store.recorded, hne]
  · have hmissing : milestoneIndex ∉ env.store.recorded projectId := fun hmem => hmem hfresh
    have hinsert : (Reputation.completeMilestone env metrics projectId milestoneIndex
        evidenceHash).store.recorded projectId =
          insert milestoneIndex (env.store.recorded projectId) := by
      ext i
      by_cases hi : i = milestoneIndex <;>
        simp [Reputation.completeMilestone, writeMilestoneRecord, writeProjectMetrics,
          Store.recorded, PartialMap.keys, hi]
    rw [hinsert]
    exact (h.funded projectId metrics hmetrics).complete hindex hmissing

theorem fail (h : env.store.Sound) {metrics : ProjectSuccessMetrics}
    (hmetrics : env.store.projectSuccessMetrics projectId = some metrics)
    (hstatus : metrics.projectStatus ≠ .completed) :
    (writeProjectMetrics env projectId (metrics.fail env.timestamp)).store.Sound := by
  refine h.update_metrics hmetrics rfl rfl rfl (fun _ _ => rfl) ?_
  have hsound : (metrics.fail env.timestamp).Sound (env.store.recorded projectId) :=
    (h.funded projectId metrics hmetrics).fail hstatus
  exact hsound

theorem refreshed (h : store.Sound) (hrefreshed : Refreshed store donor projectId store') :
    store'.Sound :=
  h.congr hrefreshed.projectSuccessMetrics hrefreshed.donorFundedProjects
    hrefreshed.projectMilestoneRecord

end Store.Sound

/-! ### One update -/

/-- A reputation as it is computed from scratch over the projects. -/
structure DonorReputation.Recounted (reputation : DonorReputation) (store : Store)
    (projects : Finset Nat) : Prop where
  qualifyingProjects : reputation.qualifyingProjects =
    (projects.filter fun projectId => store.qualifies projectId = true).card
  successfulProjects : reputation.successfulProjects =
    (projects.filter fun projectId => store.succeeded projectId = true).card
  totalFunded : reputation.totalFunded = ∑ projectId ∈ projects, store.fundedAmount projectId
  successRate : reputation.successRate =
    rate (projects.filter fun projectId => store.succeeded projectId = true).card
      (projects.filter fun projectId => store.qualifies projectId = true).card
  reputationScore : reputation.reputationScore =
    reputation.successRate * reputationScale / basisPoints

/-- An update for the project counts right: no project is listed twice, or it makes the first
reputation of the donor, from the only project, which qualifies and is not completed. -/
structure Store.CountsRight (store : Store) (donor : Address) (projectId : Nat) : Prop where
  recounted : store.donorReputation donor ≠ none → (store.fundedProjects donor).Nodup
  created : store.donorReputation donor = none →
    (∀ other ∈ store.fundedProjects donor, other = projectId) ∧
      store.qualifies projectId = true ∧ store.succeeded projectId = false

section Update

variable {store store' : Store} {donor : Address} {projectId : Nat}

theorem Refreshed.counts (h : Refreshed store donor projectId store') :
    store'.fundedAmount = store.fundedAmount ∧ store'.qualifies = store.qualifies ∧
      store'.succeeded = store.succeeded := by
  have hconfig : store'.config = store.config := by
    unfold Store.config
    rw [h.reputationConfig]
  refine ⟨?_, ?_, ?_⟩
  · unfold Store.fundedAmount
    rw [h.projectSuccessMetrics]
  · unfold Store.qualifies
    rw [h.projectSuccessMetrics, hconfig]
  · unfold Store.succeeded
    rw [h.projectSuccessMetrics, hconfig]

theorem Store.Sound.fundedAmount_pos (h : store.Sound)
    (hmem : projectId ∈ store.fundedProjects donor) : 0 < store.fundedAmount projectId := by
  obtain ⟨metrics, hm, -⟩ := (h.listed donor projectId).mp hmem
  unfold Store.fundedAmount
  rw [hm]
  exact (h.funded projectId metrics hm).amount_pos

/-- A list whose entries are all the same project. -/
theorem countP_eq_zero_of_all {projects : List Nat} {p : Nat → Bool}
    (hall : ∀ other ∈ projects, other = projectId) (hp : p projectId = false) :
    projects.countP p = 0 := by
  refine List.countP_eq_zero.mpr fun other hmem => ?_
  rw [hall other hmem, hp]
  decide

variable {reputation : DonorReputation}

/-- With a reputation before, the list is counted. -/
theorem Rebuilt.recounted_iff (h : Rebuilt store donor projectId reputation) (hs : store.Sound)
    (hold : store.donorReputation donor ≠ none) :
    reputation.Recounted store (store.fundedProjects donor).toFinset ↔
      (store.fundedProjects donor).Nodup := by
  obtain ⟨htotal, hqualifying, hsuccessful⟩ := h.recounted hold
  constructor
  · intro hrecounted
    exact Distinct.nodup_of_sum_eq (fun other hmem => hs.fundedAmount_pos hmem)
      (htotal.symm.trans hrecounted.totalFunded)
  · intro hnodup
    have hqualify := Distinct.countP_eq_card hnodup store.qualifies
    have hsucceed := Distinct.countP_eq_card hnodup store.succeeded
    exact { qualifyingProjects := hqualifying.trans hqualify
            successfulProjects := hsuccessful.trans hsucceed
            totalFunded := htotal.trans (Distinct.sum_eq_of_nodup hnodup _)
            successRate := by rw [h.successRate, hqualify, hsucceed]
            reputationScore := h.reputationScore }

/-- Without one, it is made up from the one project. -/
theorem Rebuilt.created_iff (h : Rebuilt store donor projectId reputation) (hs : store.Sound)
    (hold : store.donorReputation donor = none) (hmem : projectId ∈ store.fundedProjects donor) :
    reputation.Recounted store (store.fundedProjects donor).toFinset ↔
      (∀ other ∈ store.fundedProjects donor, other = projectId) ∧
        store.qualifies projectId = true ∧ store.succeeded projectId = false := by
  obtain ⟨htotal, hqualifying, hsuccessful⟩ := h.created hold
  have hmem' := List.mem_toFinset.mpr hmem
  constructor
  · intro hrecounted
    have hsingle : (store.fundedProjects donor).toFinset = {projectId} := by
      refine Distinct.eq_singleton_of_sum_eq hmem' (fun other hother => ?_)
        (hrecounted.totalFunded.symm.trans htotal)
      exact hs.fundedAmount_pos (List.mem_toFinset.mp hother)
    have hq := hrecounted.qualifyingProjects
    have hsucc := hrecounted.successfulProjects
    rw [hsingle, Finset.filter_singleton] at hq hsucc
    refine ⟨fun other hother => ?_, ?_, ?_⟩
    · rw [← List.mem_toFinset, hsingle] at hother
      exact Finset.mem_singleton.mp hother
    · by_contra hne
      rw [if_neg hne, hqualifying] at hq
      cases hq
    · by_contra hne
      rw [if_pos (Bool.eq_true_of_not_eq_false hne), hsuccessful] at hsucc
      cases hsucc
  · rintro ⟨hall, hqualifies, hmissed⟩
    have hsingle : (store.fundedProjects donor).toFinset = {projectId} :=
      Finset.eq_singleton_iff_unique_mem.mpr
        ⟨hmem', fun other hother => hall other (List.mem_toFinset.mp hother)⟩
    rw [hsingle]
    refine { qualifyingProjects := ?_, successfulProjects := ?_, totalFunded := ?_
             successRate := ?_, reputationScore := h.reputationScore }
    · simp [hqualifying, Finset.filter_singleton, hqualifies]
    · simp [hsuccessful, Finset.filter_singleton, hmissed]
    · rw [htotal, Finset.sum_singleton]
    · rw [h.successRate, countP_eq_zero_of_all hall hmissed, rate_zero]
      simp [Finset.filter_singleton, hmissed, rate_zero]

/-- The new reputation is the recount exactly if the update counts right. -/
theorem Refreshed.recounted_iff (h : Refreshed store donor projectId store') (hs : store.Sound)
    (hmem : projectId ∈ store.fundedProjects donor) :
    (∃ reputation, store'.donorReputation donor = some reputation ∧
        reputation.Recounted store' (store.fundedProjects donor).toFinset) ↔
      store.CountsRight donor projectId := by
  obtain ⟨reputation, hrebuilt, hwritten⟩ := h.donorReputation
  have hself : store'.donorReputation donor = some reputation := by
    rw [hwritten, Function.update_self]
  have hcongr (projects : Finset Nat) :
      reputation.Recounted store' projects ↔ reputation.Recounted store projects := by
    obtain ⟨hamount, hqualifies, hsucceeded⟩ := h.counts
    constructor <;> intro hr <;>
      exact ⟨by simpa only [hqualifies] using hr.qualifyingProjects,
        by simpa only [hsucceeded] using hr.successfulProjects,
        by simpa only [hamount] using hr.totalFunded,
        by simpa only [hqualifies, hsucceeded] using hr.successRate, hr.reputationScore⟩
  have hexists : (∃ r, store'.donorReputation donor = some r ∧
      r.Recounted store' (store.fundedProjects donor).toFinset) ↔
        reputation.Recounted store (store.fundedProjects donor).toFinset := by
    simp [hself, hcongr]
  rw [hexists]
  by_cases hold : store.donorReputation donor = none
  · rw [hrebuilt.created_iff hs hold hmem]
    exact ⟨fun hc => ⟨fun hne => absurd hold hne, fun _ => hc⟩, fun hc => hc.created hold⟩
  · rw [hrebuilt.recounted_iff hs hold]
    exact ⟨fun hc => ⟨fun _ => hc, fun hnone => absurd hnone hold⟩, fun hc => hc.recounted hold⟩

end Update

/-! ### Runs -/

/-- The distinct projects that the donor has funded in the run. -/
def fundedBy (donor : Address) : Trace → Finset Nat
  | [] => ∅
  | e :: older =>
    match Ledger.called contract e with
    | some (.recordProjectFunded funder projectId _ _) =>
      if funder = donor then insert projectId (fundedBy donor older) else fundedBy donor older
    | _ => fundedBy donor older

/-- The donor whose reputation the call updates. -/
def Call.updatedDonor (store : Store) : Call → Option Address
  | .recordProjectFunded donor _ fundedAmount _ =>
      if store.config.minFundingThreshold ≤ fundedAmount then some donor else none
  | .recordMilestoneCompleted projectId _ _ | .recordProjectFailed projectId =>
      (store.projectSuccessMetrics projectId).map (·.donor)
  | _ => none

/-- The project has the donor that it had, and all its progress. -/
structure ProjectSuccessMetrics.Continues (metrics metrics' : ProjectSuccessMetrics) : Prop where
  donor : metrics'.donor = metrics.donor
  completedMilestones : metrics.completedMilestones ≤ metrics'.completedMilestones
  projectStatus : metrics.projectStatus = .completed → metrics'.projectStatus = .completed

/-- The step is no setback for any project, unless its own donor funds it again. -/
def KeepsProjects (e : Step) : Prop :=
  ∀ projectId metrics, e.before.store.projectSuccessMetrics projectId = some metrics →
    (∀ fundedAmount totalMilestones, Ledger.called contract e ≠
      some (.recordProjectFunded metrics.donor projectId fundedAmount totalMilestones)) →
    ∃ metrics', e.after.store.projectSuccessMetrics projectId = some metrics' ∧
      metrics.Continues metrics'

/-- What the reputations and the metrics should say after a step. -/
structure Accurate (e : Step) (older : Trace) : Prop where
  reputation : ∀ call donor, Ledger.called contract e = some call →
    call.updatedDonor e.before.store = some donor →
      ∃ reputation, e.after.store.donorReputation donor = some reputation ∧
        reputation.Recounted e.after.store (fundedBy donor (e :: older))
  milestones : ∀ projectId metrics, e.after.store.projectSuccessMetrics projectId = some metrics →
    metrics.completedMilestones = (e.after.store.recorded projectId).ncard ∧
      (metrics.projectStatus = .completed ↔
        ∀ i < metrics.totalMilestones, i ∈ e.after.store.recorded projectId)
  kept : KeepsProjects e

/-- Updating the reputation of the donor does no harm: it counts `projects`, none of them twice,
or it makes the donor's first reputation from the only project, which qualifies with what it was
funded and is not completed by the call. -/
def Store.CanUpdate (store : Store) (donor : Address) (projects : List Nat) (projectId : Nat)
    (fundedAmount : Int) (completes : Prop) : Prop :=
  match store.donorReputation donor with
  | some _ => projects.Nodup
  | none => (∀ other ∈ projects, other = projectId) ∧
      store.config.minFundingThreshold ≤ fundedAmount ∧ ¬completes

instance (store : Store) (donor : Address) (projects : List Nat) (projectId : Nat)
    (fundedAmount : Int) (completes : Prop) [Decidable completes] :
    Decidable (store.CanUpdate donor projects projectId fundedAmount completes) := by
  unfold Store.CanUpdate
  split
  · exact inferInstance
  · exact inferInstance

/-- The call does no harm in this state. -/
def Call.Harmless (store : Store) : Call → Prop
  | .recordProjectFunded donor projectId fundedAmount _ =>
      store.CanFund donor projectId ∧
        (store.config.minFundingThreshold ≤ fundedAmount →
          store.CanUpdate donor (store.fundedProjects donor ++ [projectId]) projectId
            fundedAmount False)
  | .recordMilestoneCompleted projectId _ _ =>
      ∀ metrics ∈ store.projectSuccessMetrics projectId,
        store.CanUpdate metrics.donor (store.fundedProjects metrics.donor) projectId
          metrics.fundedAmount (metrics.completedMilestones + 1 = metrics.totalMilestones)
  | .recordProjectFailed projectId =>
      ∀ metrics ∈ store.projectSuccessMetrics projectId,
        store.CanUpdate metrics.donor (store.fundedProjects metrics.donor) projectId
          metrics.fundedAmount False
  | _ => True

instance (store : Store) : DecidablePred (Call.Harmless store)
  | .recordProjectFunded .. => inferInstanceAs (Decidable (_ ∧ (_ → _)))
  | .recordMilestoneCompleted .. => inferInstanceAs (Decidable (∀ _ ∈ _, _))
  | .recordProjectFailed .. => inferInstanceAs (Decidable (∀ _ ∈ _, _))
  | .initializeReputation .. | .updateConfig .. => inferInstanceAs (Decidable True)

/-- If a call goes through in the step, it does no harm. -/
def HarmlessStep (e : Step) : Prop :=
  ∀ call ∈ Ledger.called contract e, call.Harmless e.before.store

instance (e : Step) : Decidable (HarmlessStep e) := inferInstanceAs (Decidable (∀ _ ∈ _, _))

section Steps

variable {e : Step} {older : Trace} {call : Call} {donor : Address} {projectId : Nat}
  {metrics metrics' : ProjectSuccessMetrics} {store : Store}

theorem fundedBy_of_other (h : ∀ projectId fundedAmount totalMilestones, Ledger.called contract e ≠
    some (.recordProjectFunded donor projectId fundedAmount totalMilestones)) :
    fundedBy donor (e :: older) = fundedBy donor older := by
  rw [fundedBy]
  split
  · rename_i funder projectId fundedAmount totalMilestones hcalled
    rw [if_neg]
    intro heq
    exact h projectId fundedAmount totalMilestones (heq ▸ hcalled)
  · rfl

theorem fundedBy_of_funded {fundedAmount : Int} {totalMilestones : Nat}
    (h : Ledger.called contract e =
      some (.recordProjectFunded donor projectId fundedAmount totalMilestones)) :
    fundedBy donor (e :: older) = insert projectId (fundedBy donor older) := by
  simp [fundedBy, h]

/-- Funding a project lists it for its donor. -/
theorem listed_of_funded {fundedAmount : Int} {totalMilestones : Nat}
    (hcalled : Ledger.called contract e =
      some (.recordProjectFunded donor projectId fundedAmount totalMilestones))
    (hlist : e.after.store.donorFundedProjects = (fund (e.before.enter e.action) donor projectId
      fundedAmount totalMilestones).store.donorFundedProjects)
    (ih : ∀ donor, (e.before.store.fundedProjects donor).toFinset = fundedBy donor older)
    (other : Address) :
    (e.after.store.fundedProjects other).toFinset = fundedBy other (e :: older) := by
  have hfunded : e.after.store.fundedProjects other = (fund (e.before.enter e.action) donor
      projectId fundedAmount totalMilestones).store.fundedProjects other := by
    unfold Store.fundedProjects
    rw [hlist]
  rw [hfunded]
  by_cases hother : other = donor
  · subst hother
    have happended : (fund (e.before.enter e.action) other projectId fundedAmount
        totalMilestones).store.fundedProjects other =
          e.before.store.fundedProjects other ++ [projectId] := fundedProjects_fund
    rw [happended, fundedBy_of_funded hcalled, ← ih, List.toFinset_append, List.toFinset_cons,
      List.toFinset_nil, insert_empty_eq, Finset.union_comm, Finset.insert_eq]
  · have hkept : (fund (e.before.enter e.action) donor projectId fundedAmount
        totalMilestones).store.fundedProjects other = e.before.store.fundedProjects other :=
      fundedProjects_fund_ne hother
    rw [hkept, fundedBy_of_other, ih]
    intro _ _ _ hcalled'
    cases hcalled.symm.trans hcalled'
    exact hother rfl

/-- The lists hold the projects that were funded. -/
theorem listed_step (hn : Ledger.Next contract e.before e.action e.after)
    (ih : ∀ donor, (e.before.store.fundedProjects donor).toFinset = fundedBy donor older)
    (donor : Address) :
    (e.after.store.fundedProjects donor).toFinset = fundedBy donor (e :: older) := by
  have hsame (hlist : e.after.store.donorFundedProjects = e.before.store.donorFundedProjects)
      (hcalled : ∀ projectId fundedAmount totalMilestones, Ledger.called contract e ≠
        some (.recordProjectFunded donor projectId fundedAmount totalMilestones)) :
      (e.after.store.fundedProjects donor).toFinset = fundedBy donor (e :: older) := by
    rw [fundedBy_of_other hcalled, ← ih]
    unfold Store.fundedProjects
    rw [hlist]
  rcases effect_of_next hn with ⟨hcalled, hstore⟩ | ⟨call, hcalled, heffect⟩
  · exact hsame (by rw [hstore]) (by simp [hcalled])
  · generalize hafter : e.after.store = store at heffect hsame
    cases heffect with
    | configured hcall hkept =>
        refine hafter ▸ hsame hkept.donorFundedProjects fun _ _ _ hfunded => ?_
        cases hcalled.symm.trans hfunded
        cases hcall
    | fundedBelow => exact hafter ▸ listed_of_funded hcalled (by rw [hafter]) ih donor
    | funded _ _ _ hrefreshed =>
        exact hafter ▸ listed_of_funded hcalled
          (by rw [hafter, hrefreshed.donorFundedProjects]) ih donor
    | milestone _ _ _ hrefreshed =>
        refine hafter ▸ hsame hrefreshed.donorFundedProjects fun _ _ _ hfunded => ?_
        cases hcalled.symm.trans hfunded
    | failed _ _ hrefreshed =>
        refine hafter ▸ hsame hrefreshed.donorFundedProjects fun _ _ _ hfunded => ?_
        cases hcalled.symm.trans hfunded

theorem Store.Sound.milestones (h : store.Sound)
    (hm : store.projectSuccessMetrics projectId = some metrics) :
    metrics.completedMilestones = (store.recorded projectId).ncard ∧
      (metrics.projectStatus = .completed ↔
        ∀ i < metrics.totalMilestones, i ∈ store.recorded projectId) := by
  have hsound := h.funded projectId metrics hm
  exact ⟨hsound.completed, hsound.status.trans hsound.all_recorded_iff.symm⟩

/-- A step that updates no reputation. -/
theorem accurate_of_unchanged (hs : e.after.store.Sound)
    (hupdated : ∀ call, Ledger.called contract e = some call →
      call.updatedDonor e.before.store = none) (hkept : KeepsProjects e) : Accurate e older where
  reputation call donor hcalled hdonor := by
    cases (hupdated call hcalled).symm.trans hdonor
  milestones _ _ hm := hs.milestones hm
  kept := hkept

/-- A step that updates one. -/
theorem accurate_iff_of_update (hcalled : Ledger.called contract e = some call)
    (hupdated : call.updatedDonor e.before.store = some donor) (hs : store.Sound)
    (hrefreshed : Refreshed store donor projectId e.after.store)
    (hmem : projectId ∈ store.fundedProjects donor)
    (hlist : (e.after.store.fundedProjects donor).toFinset = fundedBy donor (e :: older))
    (hkept : KeepsProjects e) :
    Accurate e older ↔ store.CountsRight donor projectId := by
  have hsame : e.after.store.fundedProjects donor = store.fundedProjects donor := by
    unfold Store.fundedProjects
    rw [hrefreshed.donorFundedProjects]
  rw [← hrefreshed.recounted_iff hs hmem, ← hsame, hlist]
  constructor
  · intro h
    exact h.reputation call donor hcalled hupdated
  · intro h
    refine ⟨fun call' donor' hcalled' hupdated' => ?_,
      fun _ _ hm => (hs.refreshed hrefreshed).milestones hm, hkept⟩
    obtain rfl := Option.some.inj (hcalled.symm.trans hcalled')
    obtain rfl := Option.some.inj (hupdated.symm.trans hupdated')
    exact h

theorem countsRight_iff {before : Store} {projects : List Nat} {fundedAmount : Int}
    {completes : Prop} (hreputation : store.donorReputation = before.donorReputation)
    (hprojects : store.fundedProjects donor = projects)
    (hqualifies : store.qualifies projectId = true ↔
      before.config.minFundingThreshold ≤ fundedAmount)
    (hsucceeded : before.config.minFundingThreshold ≤ fundedAmount →
      (store.succeeded projectId = true ↔ completes)) :
    store.CountsRight donor projectId ↔
      before.CanUpdate donor projects projectId fundedAmount completes := by
  have hiff : (store.donorReputation donor ≠ none → projects.Nodup) ∧
      (store.donorReputation donor = none → (∀ other ∈ projects, other = projectId) ∧
        store.qualifies projectId = true ∧ store.succeeded projectId = false) ↔
      store.CountsRight donor projectId := by
    rw [← hprojects]
    exact ⟨fun ⟨h, h'⟩ => ⟨h, h'⟩, fun ⟨h, h'⟩ => ⟨h, h'⟩⟩
  rw [← hiff, hreputation]
  unfold Store.CanUpdate
  cases before.donorReputation donor with
  | some reputation => simp
  | none =>
      simp only [ne_eq, not_true_eq_false, false_imp_iff, true_and, true_imp_iff, hqualifies]
      refine and_congr_right fun _ => and_congr_right fun hthreshold => ?_
      rw [← hsucceeded hthreshold, Bool.not_eq_true]

/-- The projects after a step that writes the metrics of one. -/
theorem keepsProjects_of_update
    (hwritten : e.after.store.projectSuccessMetrics =
      Function.update e.before.store.projectSuccessMetrics projectId (some metrics'))
    (hcontinues : ∀ metrics, e.before.store.projectSuccessMetrics projectId = some metrics →
      (∀ fundedAmount totalMilestones, Ledger.called contract e ≠
        some (.recordProjectFunded metrics.donor projectId fundedAmount totalMilestones)) →
      metrics.Continues metrics') : KeepsProjects e := by
  intro other metrics hm hother
  rw [hwritten]
  by_cases hne : other = projectId
  · subst hne
    exact ⟨metrics', Function.update_self .., hcontinues metrics hm hother⟩
  · rw [Function.update_of_ne hne]
    exact ⟨metrics, hm, rfl, le_rfl, id⟩

variable {fundedAmount : Int} {totalMilestones : Nat}

/-- A funding that the metrics survive takes the project from nobody. -/
theorem canFund_of_accurate (hs : e.before.store.Sound)
    (hcalled : Ledger.called contract e =
      some (.recordProjectFunded donor projectId fundedAmount totalMilestones))
    (hwritten : e.after.store.projectSuccessMetrics =
      Function.update e.before.store.projectSuccessMetrics projectId (some
        (newMetrics donor projectId fundedAmount totalMilestones e.action.timestamp)))
    (hrecorded : e.after.store.recorded projectId = e.before.store.recorded projectId)
    (h : Accurate e older) : e.before.store.CanFund donor projectId := by
  intro metrics hm
  have hself : e.after.store.projectSuccessMetrics projectId = some
      (newMetrics donor projectId fundedAmount totalMilestones e.action.timestamp) := by
    rw [hwritten, Function.update_self]
  have hdonor : metrics.donor = donor := by
    by_contra hne
    obtain ⟨metrics', hm', hcontinues⟩ := h.kept projectId metrics hm fun _ _ hcalled' => by
      cases hcalled.symm.trans hcalled'
      exact hne rfl
    obtain rfl := Option.some.inj (hself.symm.trans hm')
    exact hne hcontinues.donor.symm
  have hcount := (h.milestones projectId _ hself).1
  rw [hrecorded, ← (hs.funded projectId metrics hm).completed] at hcount
  exact ⟨hdonor, hcount.symm⟩

/-- A funding that takes the project from nobody is no setback. -/
theorem keepsProjects_of_canFund
    (hcalled : Ledger.called contract e =
      some (.recordProjectFunded donor projectId fundedAmount totalMilestones))
    (hwritten : e.after.store.projectSuccessMetrics =
      Function.update e.before.store.projectSuccessMetrics projectId (some
        (newMetrics donor projectId fundedAmount totalMilestones e.action.timestamp)))
    (hcan : e.before.store.CanFund donor projectId) : KeepsProjects e := by
  refine keepsProjects_of_update hwritten fun metrics hm hother => ?_
  have hdonor := (hcan metrics hm).1
  exact absurd (hdonor ▸ hcalled) (hother fundedAmount totalMilestones)

theorem metrics_fund {env : Env} :
    (fund env donor projectId fundedAmount totalMilestones).store.projectSuccessMetrics projectId =
      some (newMetrics donor projectId fundedAmount totalMilestones env.timestamp) :=
  Function.update_self ..

theorem qualifies_fund {env : Env} :
    (fund env donor projectId fundedAmount totalMilestones).store.qualifies projectId = true ↔
      env.store.config.minFundingThreshold ≤ fundedAmount := by
  rw [Store.qualifies_iff metrics_fund]
  exact Iff.rfl

theorem succeeded_fund {env : Env} :
    (fund env donor projectId fundedAmount totalMilestones).store.succeeded projectId = false := by
  refine Bool.eq_false_iff.mpr fun h => ?_
  have hstatus := ((Store.succeeded_iff metrics_fund).mp h).2
  cases hstatus

theorem accurate_funded (hs : e.before.store.Sound)
    (hlist : (e.after.store.fundedProjects donor).toFinset = fundedBy donor (e :: older))
    (hcalled : Ledger.called contract e =
      some (.recordProjectFunded donor projectId fundedAmount totalMilestones))
    (hamount : 0 < fundedAmount) (hmilestones : totalMilestones ≠ 0)
    (hthreshold : e.before.store.config.minFundingThreshold ≤ fundedAmount)
    (hrefreshed : Refreshed (fund (e.before.enter e.action) donor projectId fundedAmount
      totalMilestones).store donor projectId e.after.store) :
    (e.before.store.CanFund donor projectId → e.after.store.Sound) ∧
      (Accurate e older ↔ e.before.store.CanFund donor projectId ∧
        e.before.store.CanUpdate donor (e.before.store.fundedProjects donor ++ [projectId])
          projectId fundedAmount False) := by
  have hentered : (e.before.enter e.action).store.Sound := hs
  have hwritten : e.after.store.projectSuccessMetrics =
      Function.update e.before.store.projectSuccessMetrics projectId (some
        (newMetrics donor projectId fundedAmount totalMilestones e.action.timestamp)) :=
    hrefreshed.projectSuccessMetrics
  have hrecorded : e.after.store.recorded projectId = e.before.store.recorded projectId := by
    unfold Store.recorded
    rw [hrefreshed.projectMilestoneRecord]
    rfl
  have hupdated : (Call.recordProjectFunded donor projectId fundedAmount
      totalMilestones).updatedDonor e.before.store = some donor := if_pos hthreshold
  have hfund (hcan : e.before.store.CanFund donor projectId) :=
    hentered.fund hamount hmilestones hcan
  refine ⟨fun hcan => (hfund hcan).refreshed hrefreshed, ?_⟩
  have hiff (hcan : e.before.store.CanFund donor projectId) : Accurate e older ↔
      e.before.store.CanUpdate donor (e.before.store.fundedProjects donor ++ [projectId])
        projectId fundedAmount False := by
    rw [accurate_iff_of_update hcalled hupdated (hfund hcan) hrefreshed ?_ hlist
      (keepsProjects_of_canFund hcalled hwritten hcan)]
    · exact countsRight_iff rfl fundedProjects_fund qualifies_fund
        fun _ => by simp [succeeded_fund]
    · rw [fundedProjects_fund]
      exact List.mem_append_right _ (List.mem_singleton_self projectId)
  constructor
  · intro h
    have hcan := canFund_of_accurate hs hcalled hwritten hrecorded h
    exact ⟨hcan, (hiff hcan).mp h⟩
  · rintro ⟨hcan, hupdate⟩
    exact (hiff hcan).mpr hupdate

theorem accurate_fundedBelow (hs : e.before.store.Sound)
    (hcalled : Ledger.called contract e =
      some (.recordProjectFunded donor projectId fundedAmount totalMilestones))
    (hamount : 0 < fundedAmount) (hmilestones : totalMilestones ≠ 0)
    (hbelow : fundedAmount < e.before.store.config.minFundingThreshold)
    (hafter : e.after.store = (fund (e.before.enter e.action) donor projectId fundedAmount
      totalMilestones).store) :
    (e.before.store.CanFund donor projectId → e.after.store.Sound) ∧
      (Accurate e older ↔ e.before.store.CanFund donor projectId) := by
  have hentered : (e.before.enter e.action).store.Sound := hs
  have hwritten : e.after.store.projectSuccessMetrics =
      Function.update e.before.store.projectSuccessMetrics projectId (some
        (newMetrics donor projectId fundedAmount totalMilestones e.action.timestamp)) := by
    rw [hafter]
    rfl
  have hrecorded : e.after.store.recorded projectId = e.before.store.recorded projectId := by
    rw [hafter]
    rfl
  have hupdated : (Call.recordProjectFunded donor projectId fundedAmount
      totalMilestones).updatedDonor e.before.store = none := if_neg (Int.not_le.mpr hbelow)
  have hsound (hcan : e.before.store.CanFund donor projectId) : e.after.store.Sound :=
    hafter ▸ hentered.fund hamount hmilestones hcan
  refine ⟨hsound, canFund_of_accurate hs hcalled hwritten hrecorded, fun hcan => ?_⟩
  refine accurate_of_unchanged (hsound hcan) (fun call hcalled' => ?_)
    (keepsProjects_of_canFund hcalled hwritten hcan)
  obtain rfl := Option.some.inj (hcalled.symm.trans hcalled')
  exact hupdated

theorem accurate_milestone (hs : e.before.store.Sound)
    (hlist : ∀ donor, (e.after.store.fundedProjects donor).toFinset = fundedBy donor (e :: older))
    {milestoneIndex : Nat} {evidenceHash : Option Bytes}
    (hcalled : Ledger.called contract e =
      some (.recordMilestoneCompleted projectId milestoneIndex evidenceHash))
    (hm : e.before.store.projectSuccessMetrics projectId = some metrics)
    (hindex : milestoneIndex < metrics.totalMilestones)
    (hfresh : e.before.store.projectMilestoneRecord projectId milestoneIndex = none)
    (hrefreshed : Refreshed (completeMilestone (e.before.enter e.action) metrics projectId
      milestoneIndex evidenceHash).store metrics.donor projectId e.after.store) :
    e.after.store.Sound ∧ (Accurate e older ↔
      e.before.store.CanUpdate metrics.donor (e.before.store.fundedProjects metrics.donor)
        projectId metrics.fundedAmount
        (metrics.completedMilestones + 1 = metrics.totalMilestones)) := by
  have hentered : (e.before.enter e.action).store.Sound := hs
  have hsound := hs.funded projectId metrics hm
  have hlt := hsound.lt_of_missing hindex fun hrecorded => hrecorded hfresh
  have hactive : metrics.projectStatus ≠ .completed := fun h => hlt.ne (hsound.status.mp h)
  have hcomplete : (completeMilestone (e.before.enter e.action) metrics projectId milestoneIndex
      evidenceHash).store.Sound := hentered.completeMilestone hm hindex hfresh
  have hupdated : (Call.recordMilestoneCompleted projectId milestoneIndex
      evidenceHash).updatedDonor e.before.store = some metrics.donor := by
    simp [Call.updatedDonor, hm]
  have hwritten : (completeMilestone (e.before.enter e.action) metrics projectId milestoneIndex
      evidenceHash).store.projectSuccessMetrics projectId =
        some (metrics.complete e.action.timestamp) := Function.update_self ..
  have hkept : KeepsProjects e := by
    refine keepsProjects_of_update hrefreshed.projectSuccessMetrics fun metrics₀ hm₀ _ => ?_
    obtain rfl := Option.some.inj (hm.symm.trans hm₀)
    refine ⟨metrics.complete_donor _, ?_, fun h => absurd h hactive⟩
    unfold ProjectSuccessMetrics.complete
    split <;> exact Nat.le_succ _
  refine ⟨hcomplete.refreshed hrefreshed, ?_⟩
  rw [accurate_iff_of_update hcalled hupdated hcomplete hrefreshed
    ((hs.listed _ _).mpr ⟨metrics, hm, rfl⟩) (hlist _) hkept]
  refine countsRight_iff rfl rfl ?_ fun hthreshold => ?_
  · rw [Store.qualifies_iff hwritten, metrics.complete_fundedAmount]
    exact Iff.rfl
  · rw [Store.succeeded_iff hwritten, metrics.complete_fundedAmount,
      ProjectSuccessMetrics.complete_completed hactive]
    exact and_iff_right hthreshold

theorem accurate_failed (hs : e.before.store.Sound)
    (hlist : ∀ donor, (e.after.store.fundedProjects donor).toFinset = fundedBy donor (e :: older))
    (hcalled : Ledger.called contract e = some (.recordProjectFailed projectId))
    (hm : e.before.store.projectSuccessMetrics projectId = some metrics)
    (hstatus : metrics.projectStatus ≠ .completed)
    (hrefreshed : Refreshed (writeProjectMetrics (e.before.enter e.action) projectId
      (metrics.fail e.action.timestamp)).store metrics.donor projectId e.after.store) :
    e.after.store.Sound ∧ (Accurate e older ↔
      e.before.store.CanUpdate metrics.donor (e.before.store.fundedProjects metrics.donor)
        projectId metrics.fundedAmount False) := by
  have hentered : (e.before.enter e.action).store.Sound := hs
  have hfail : (writeProjectMetrics (e.before.enter e.action) projectId
      (metrics.fail e.action.timestamp)).store.Sound := hentered.fail hm hstatus
  have hupdated : (Call.recordProjectFailed projectId).updatedDonor e.before.store =
      some metrics.donor := by
    simp [Call.updatedDonor, hm]
  have hwritten : (writeProjectMetrics (e.before.enter e.action) projectId
      (metrics.fail e.action.timestamp)).store.projectSuccessMetrics projectId =
        some (metrics.fail e.action.timestamp) := Function.update_self ..
  have hkept : KeepsProjects e := by
    refine keepsProjects_of_update hrefreshed.projectSuccessMetrics fun metrics₀ hm₀ _ => ?_
    obtain rfl := Option.some.inj (hm.symm.trans hm₀)
    exact ⟨rfl, le_rfl, fun h => absurd h hstatus⟩
  refine ⟨hfail.refreshed hrefreshed, ?_⟩
  rw [accurate_iff_of_update hcalled hupdated hfail hrefreshed
    ((hs.listed _ _).mpr ⟨metrics, hm, rfl⟩) (hlist _) hkept]
  refine countsRight_iff rfl rfl ?_ fun hthreshold => ?_
  · rw [Store.qualifies_iff hwritten]
    exact Iff.rfl
  · rw [Store.succeeded_iff hwritten]
    simp [ProjectSuccessMetrics.fail]

/-- The condition on a step whose call went through. -/
theorem harmlessStep_iff (hcalled : Ledger.called contract e = some call) :
    HarmlessStep e ↔ call.Harmless e.before.store := by
  unfold HarmlessStep
  rw [hcalled]
  simp

/-- A step from a state in which all metrics are right. -/
theorem accurate_step (hn : Ledger.Next contract e.before e.action e.after)
    (hs : e.before.store.Sound)
    (hlisted : ∀ donor, (e.before.store.fundedProjects donor).toFinset = fundedBy donor older) :
    (HarmlessStep e → e.after.store.Sound) ∧ (Accurate e older ↔ HarmlessStep e) := by
  have hlist := listed_step hn hlisted
  have hkept (hmetrics : e.after.store.projectSuccessMetrics =
      e.before.store.projectSuccessMetrics) : KeepsProjects e := fun projectId metrics hm _ =>
    ⟨metrics, hmetrics ▸ hm, rfl, le_rfl, id⟩
  rcases effect_of_next hn with ⟨hcalled, hstore⟩ | ⟨call, hcalled, heffect⟩
  · have hsound : e.after.store.Sound := by rw [hstore]; exact hs
    refine ⟨fun _ => hsound, fun _ => ?_, fun _ => ?_⟩
    · simp [HarmlessStep, hcalled]
    · exact accurate_of_unchanged hsound (by simp [hcalled]) (hkept (by rw [hstore]))
  · rw [harmlessStep_iff hcalled]
    generalize hafter : e.after.store = store at heffect
    cases heffect with
    | configured hcall hsame =>
        subst hafter
        have hsound := hs.congr hsame.projectSuccessMetrics hsame.donorFundedProjects
          hsame.projectMilestoneRecord
        have hnone : call.updatedDonor e.before.store = none ∧ call.Harmless e.before.store := by
          cases call <;> first | exact ⟨rfl, trivial⟩ | cases hcall
        refine ⟨fun _ => hsound, fun _ => hnone.2, fun _ => ?_⟩
        refine accurate_of_unchanged hsound (fun call' hcalled' => ?_)
          (hkept hsame.projectSuccessMetrics)
        exact Option.some.inj (hcalled.symm.trans hcalled') ▸ hnone.1
    | @fundedBelow donor projectId fundedAmount totalMilestones hamount hmilestones hbelow =>
        have hbelow : fundedAmount < e.before.store.config.minFundingThreshold := hbelow
        obtain ⟨hsound, hiff⟩ : (e.before.store.CanFund donor projectId → e.after.store.Sound) ∧
            (Accurate e older ↔ e.before.store.CanFund donor projectId) :=
          accurate_fundedBelow hs hcalled hamount hmilestones hbelow hafter
        have hcond : (Call.recordProjectFunded donor projectId fundedAmount
            totalMilestones).Harmless e.before.store ↔ e.before.store.CanFund donor projectId :=
          and_iff_left fun hle => absurd hle (Int.not_le.mpr hbelow)
        rw [hcond, ← hafter]
        exact ⟨hsound, hiff⟩
    | @funded donor projectId fundedAmount totalMilestones _ hamount hmilestones hthreshold
        hrefreshed =>
        subst hafter
        obtain ⟨hsound, hiff⟩ := accurate_funded hs (hlist donor) hcalled hamount hmilestones
          hthreshold hrefreshed
        have hcond : (Call.recordProjectFunded donor projectId fundedAmount
            totalMilestones).Harmless e.before.store ↔ e.before.store.CanFund donor projectId ∧
              e.before.store.CanUpdate donor (e.before.store.fundedProjects donor ++ [projectId])
                projectId fundedAmount False :=
          and_congr_right fun _ => imp_iff_right hthreshold
        rw [hcond]
        exact ⟨fun h => hsound h.1, hiff⟩
    | milestone hm hindex hfresh hrefreshed =>
        subst hafter
        obtain ⟨hsound, hiff⟩ := accurate_milestone hs hlist hcalled hm hindex hfresh hrefreshed
        refine ⟨fun _ => hsound, hiff.trans ?_⟩
        simp [Call.Harmless, show e.before.store.projectSuccessMetrics _ = some _ from hm]
    | failed hm hstatus hrefreshed =>
        subst hafter
        obtain ⟨hsound, hiff⟩ := accurate_failed hs hlist hcalled hm hstatus hrefreshed
        refine ⟨fun _ => hsound, hiff.trans ?_⟩
        simp [Call.Harmless, show e.before.store.projectSuccessMetrics _ = some _ from hm]

end Steps

/-- **Reputation and history.** In every run, reputations and metrics are accurate after every
step exactly if every call that goes through is harmless where it is made. -/
theorem reputation_recount {trace : Trace} {env : Env}
    (h : Ledger.Reachable contract trace env) :
    Run.Each Accurate trace ↔ Run.Each (fun e _ => HarmlessStep e) trace := by
  refine Run.each_iff_of_kept (J := fun trace env => env.store.Sound ∧
    ∀ donor, (env.store.fundedProjects donor).toFinset = fundedBy donor trace) ?_ ?_ h
  · rintro env ⟨self, tokens, rfl⟩
    refine ⟨⟨fun _ _ hm => ?_, fun _ _ => ?_, fun _ _ => ?_⟩, fun _ => rfl⟩
    · cases hm
    · simp [Ledger.Env.deployed, contract, Store.recorded, PartialMap.keys]
    · simp [Ledger.Env.deployed, contract, Store.fundedProjects]
  · intro e older _ hn hJ
    obtain ⟨hs, hlisted⟩ := hJ
    obtain ⟨hsound, hiff⟩ := accurate_step hn hs hlisted
    exact ⟨fun hharmless => ⟨hsound hharmless, listed_step hn hlisted⟩, hiff⟩

namespace Demo

def self : Address := ⟨[1]⟩

def donor : Address := ⟨[2]⟩

def deployed : Env := .deployed contract self { balance := fun _ _ => 0, log := [] }

theorem deployed_deployed : Ledger.Deployed contract deployed := ⟨_, _, rfl⟩

def call (timestamp : Nat) (call : Call) : Ledger.Event Address Call :=
  ⟨timestamp, 0, .invoke [donor] call⟩

/-- The donor funds a project with the threshold. -/
def funding (projectId totalMilestones : Nat) : Ledger.Event Address Call :=
  call 10 (.recordProjectFunded donor projectId defaultMinFundingThreshold totalMilestones)

end Demo

/-- One of two funded projects is completed, and the other one fails. -/
theorem reputation_recount_of_two_projects :
    let run := Ledger.history contract Demo.deployed
      [Demo.funding 1 2, Demo.funding 2 1, Demo.call 20 (.recordMilestoneCompleted 1 1 none),
        Demo.call 30 (.recordProjectFailed 2), Demo.call 40 (.recordMilestoneCompleted 1 0 none)]
    Run.Each Accurate run.1 := by
  intro run
  have hrun : Ledger.Reachable contract run.1 run.2 :=
    Ledger.history_reachable _ Demo.deployed_deployed (by decide)
  exact (reputation_recount hrun).mpr (by decide)

/-- A donor funds one project with less than the threshold and another with as much. The
first reputation leaves out what the first project was funded with. -/
theorem reputation_recount_first_record :
    ¬∀ trace env, Ledger.Reachable contract trace env → Run.Each Accurate trace := by
  intro h
  let run := Ledger.history contract Demo.deployed
    [Demo.call 10 (.recordProjectFunded Demo.donor 1 5 1), Demo.funding 2 1]
  have hrun : Ledger.Reachable contract run.1 run.2 :=
    Ledger.history_reachable _ Demo.deployed_deployed (by decide)
  obtain ⟨haccurate, -⟩ := h _ _ hrun
  obtain ⟨reputation, hstored, hrecounted⟩ :=
    haccurate.reputation (.recordProjectFunded Demo.donor 2 defaultMinFundingThreshold 1)
      Demo.donor (by decide) (by decide)
  have htotal := hrecounted.totalFunded
  have hmade : (run.2.store.donorReputation Demo.donor).map (·.totalFunded) =
      some defaultMinFundingThreshold := by decide
  have hsum : ∑ projectId ∈ fundedBy Demo.donor run.1, run.2.store.fundedAmount projectId =
      defaultMinFundingThreshold + 5 := by decide
  have hstored : run.2.store.donorReputation Demo.donor = some reputation := hstored
  rw [hstored] at hmade
  have hmade : reputation.totalFunded = defaultMinFundingThreshold := Option.some.inj hmade
  exact absurd (hmade.symm.trans (htotal.trans hsum)) (by decide)

end YieldTrust.Reputation
