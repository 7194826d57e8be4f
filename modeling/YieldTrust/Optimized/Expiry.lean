import YieldTrust.Optimized.Balances

/-!
# YieldTrust.Optimized.Expiry

The **deadline of a milestone**. Only some operations look whether a milestone has expired;
the others settle the grant up to the present. `earnedBy` is what the stream has earned by a
time, whoever settles it, and `nothing_accrues_after_deadline` says which operations keep to
what it had earned at the deadline.
-/

namespace YieldTrust.Optimized

open Fallible
open GrantStream (Address Bytes)

variable {host : Host} {env : Env} {grant grant' settled : Grant} {grantId now deadline ts : Nat}
  {call : Call}

/-! ### What a stream has earned -/

/-- What the stream has earned by the time `now`. -/
def Grant.earnedBy (grant : Grant) (now : Nat) : Int :=
  if hasStatus grant.statusMask statusActive then
    min grant.totalAmount (grant.accounted + grant.flowRate * (now - grant.lastUpdateTs : Nat))
  else grant.accounted

theorem Grant.earnedBy_of_not_active (h : hasStatus grant.statusMask statusActive = false) :
    grant.earnedBy now = grant.accounted := by
  simp [Grant.earnedBy, h]

theorem Grant.earnedBy_of_active (h : hasStatus grant.statusMask statusActive = true) :
    grant.earnedBy now = min grant.totalAmount
      (grant.accounted + grant.flowRate * (now - grant.lastUpdateTs : Nat)) := by
  simp [Grant.earnedBy, h]

/-- Nothing is earned at the rate zero, or up to the last update. -/
theorem Grant.WellFormed.earnedBy_of_idle (h : grant.WellFormed)
    (hidle : grant.flowRate = 0 ∨ now ≤ grant.lastUpdateTs) :
    grant.earnedBy now = grant.accounted := by
  have hle := h.accounted_le
  have hzero : grant.flowRate * (now - grant.lastUpdateTs : Nat) = 0 := by
    rcases hidle with hrate | hpast
    · simp [hrate]
    · simp [Nat.sub_eq_zero_of_le hpast]
  unfold Grant.earnedBy
  split <;> omega

theorem Grant.WellFormed.earnedBy_mono (h : grant.WellFormed) (hle : now ≤ ts) :
    grant.earnedBy now ≤ grant.earnedBy ts := by
  have helapsed : ((now - grant.lastUpdateTs : Nat) : Int) ≤ (ts - grant.lastUpdateTs : Nat) := by
    omega
  have hmore := Int.mul_le_mul_of_nonneg_left helapsed h.flowRate_nonneg
  unfold Grant.earnedBy
  split <;> omega

theorem Grant.WellFormed.accounted_le_earnedBy (h : grant.WellFormed) :
    grant.accounted ≤ grant.earnedBy now := by
  have hle := h.accounted_le
  have hmore := Int.mul_nonneg h.flowRate_nonneg (Int.natCast_nonneg (now - grant.lastUpdateTs))
  unfold Grant.earnedBy
  split <;> omega

/-- A settlement accounts for what the stream has earned. -/
theorem Settlement.accounted_eq (h : Settlement grant now settled) (hgrant : grant.WellFormed) :
    settled.accounted = grant.earnedBy now := by
  cases h with
  | idle hidle =>
      have hsame : ({ grant with lastUpdateTs := now } : Grant).accounted = grant.accounted := rfl
      rw [hsame]
      rcases hidle with hactive | rfl | hrate
      · exact (Grant.earnedBy_of_not_active hactive).symm
      · exact (hgrant.earnedBy_of_idle (.inr le_rfl)).symm
      · exact (hgrant.earnedBy_of_idle (.inl hrate)).symm
  | accrued hactive htime hrate hbelow =>
      rw [Grant.earnedBy_of_active hactive]
      dsimp only [Grant.accounted]
      omega
  | completed delta hactive htime hrate hnonneg hle hfull =>
      rw [Grant.earnedBy_of_active hactive]
      dsimp only [Grant.accounted]
      omega

/-! ### After the deadline -/

/-- By `ts` the stream earns more than it had earned at the deadline. -/
structure Grant.AccruesPast (grant : Grant) (deadline ts : Nat) : Prop where
  active : hasStatus grant.statusMask statusActive = true
  flowRate_pos : 0 < grant.flowRate
  deadline_lt : deadline < ts
  lastUpdateTs_lt : grant.lastUpdateTs < ts
  earnedBy_lt : grant.earnedBy deadline < grant.totalAmount

instance (grant : Grant) (deadline ts : Nat) : Decidable (grant.AccruesPast deadline ts) :=
  decidable_of_iff
    (hasStatus grant.statusMask statusActive = true ∧ 0 < grant.flowRate ∧ deadline < ts ∧
      grant.lastUpdateTs < ts ∧ grant.earnedBy deadline < grant.totalAmount)
    ⟨fun ⟨h₁, h₂, h₃, h₄, h₅⟩ => ⟨h₁, h₂, h₃, h₄, h₅⟩,
      fun ⟨h₁, h₂, h₃, h₄, h₅⟩ => ⟨h₁, h₂, h₃, h₄, h₅⟩⟩

theorem Grant.WellFormed.accruesPast_iff (h : grant.WellFormed) :
    grant.AccruesPast deadline ts ↔ grant.earnedBy deadline < grant.earnedBy ts := by
  constructor
  · intro hpast
    have hrate := hpast.flowRate_pos
    have hbelow := hpast.earnedBy_lt
    have helapsed : ((deadline - grant.lastUpdateTs : Nat) : Int) <
        (ts - grant.lastUpdateTs : Nat) := by
      have h₁ := hpast.deadline_lt
      have h₂ := hpast.lastUpdateTs_lt
      omega
    have hmore := Int.mul_lt_mul_of_pos_left helapsed hrate
    rw [Grant.earnedBy_of_active hpast.active] at hbelow ⊢
    rw [Grant.earnedBy_of_active hpast.active]
    omega
  · intro hlt
    have hactive : hasStatus grant.statusMask statusActive = true := by
      by_contra hoff
      rw [Bool.not_eq_true] at hoff
      rw [Grant.earnedBy_of_not_active hoff, Grant.earnedBy_of_not_active hoff] at hlt
      exact lt_irrefl _ hlt
    have hmoving : ¬(grant.flowRate = 0 ∨ ts ≤ grant.lastUpdateTs) := by
      intro hidle
      rw [h.earnedBy_of_idle hidle] at hlt
      exact absurd hlt (not_lt_of_ge h.accounted_le_earnedBy)
    have hnonneg := h.flowRate_nonneg
    refine ⟨hactive, by omega, ?_, by omega, ?_⟩
    · by_contra hle
      exact absurd hlt (not_lt_of_ge (h.earnedBy_mono (Nat.le_of_not_lt hle)))
    · have hle : grant.earnedBy ts ≤ grant.totalAmount := by
        rw [Grant.earnedBy_of_active hactive]
        exact min_le_left _ _
      exact hlt.trans_le hle

/-- The next approval resumes a stream that was paused before the deadline. -/
structure Grant.ResumedByApproval (grant : Grant) (deadline : Nat) : Prop where
  paused : hasStatus grant.statusMask statusPaused = true
  not_active : hasStatus grant.statusMask statusActive = false
  threshold_le : grant.milestoneThreshold ≤ grant.milestoneApprovers.length + 1
  lastUpdateTs_lt : grant.lastUpdateTs < deadline
  flowRate_pos : 0 < grant.flowRate
  accounted_lt : grant.accounted < grant.totalAmount

instance (grant : Grant) (deadline : Nat) : Decidable (grant.ResumedByApproval deadline) :=
  decidable_of_iff
    (hasStatus grant.statusMask statusPaused = true ∧
      hasStatus grant.statusMask statusActive = false ∧
      grant.milestoneThreshold ≤ grant.milestoneApprovers.length + 1 ∧
      grant.lastUpdateTs < deadline ∧ 0 < grant.flowRate ∧ grant.accounted < grant.totalAmount)
    ⟨fun ⟨h₁, h₂, h₃, h₄, h₅, h₆⟩ => ⟨h₁, h₂, h₃, h₄, h₅, h₆⟩,
      fun ⟨h₁, h₂, h₃, h₄, h₅, h₆⟩ => ⟨h₁, h₂, h₃, h₄, h₅, h₆⟩⟩

/-- The call approves a milestone of this grant. -/
def Call.approves (grantId : Nat) : Call → Bool
  | .approveMilestone id _ _ => id == grantId
  | _ => false

/-- The call does not let the grant earn anything after the deadline: it settles the grant at
no time by which more is earned, and does not resume it unsettled. -/
def Call.KeepsToDeadline (deadline grantId : Nat) (env : Env) (call : Call) : Prop :=
  ∀ grant ∈ env.store.grants grantId,
    (∀ ts ∈ call.settles grantId grant env.timestamp, ¬grant.AccruesPast deadline ts) ∧
      (call.approves grantId = true → ¬grant.ResumedByApproval deadline)

instance (deadline grantId : Nat) (env : Env) (call : Call) :
    Decidable (call.KeepsToDeadline deadline grantId env) :=
  inferInstanceAs (Decidable (∀ grant ∈ env.store.grants grantId, _))

/-! ### One transition -/

theorem Settlement.lastUpdateTs_eq (h : Settlement grant now settled) :
    settled.lastUpdateTs = now := by
  cases h with
  | idle | accrued | completed => rfl

/-- A grant after a transition that settled it. -/
structure SettledAt (grant : Grant) (now ts : Nat) (call : Call) (grantId : Nat)
    (grant' : Grant) : Prop where
  lastUpdateTs_eq : grant'.lastUpdateTs = ts
  time : ts = now ∨ grant'.flowRate = 0
  accounted_le : grant'.accounted ≤ grant.earnedBy ts
  accounted_eq : call ≠ .clawbackMilestone grantId → grant'.accounted = grant.earnedBy ts

theorem Transition.settledAt (h : Transition host env grantId grant call grant')
    (hgrant : grant.WellFormed) (hts : call.settles grantId grant env.timestamp = some ts) :
    SettledAt grant env.timestamp ts call grantId grant' := by
  have hkept {settled grant' : Grant} (hsettle : settleGrant grant ts = .ok settled)
      (hlast : grant'.lastUpdateTs = settled.lastUpdateTs)
      (haccounted : grant'.accounted = settled.accounted)
      (htime : ts = env.timestamp ∨ grant'.flowRate = 0) :
      SettledAt grant env.timestamp ts call grantId grant' := by
    have hsettlement := settleGrant_eq_ok hsettle
    have heq : grant'.accounted = grant.earnedBy ts :=
      haccounted.trans (hsettlement.accounted_eq hgrant)
    exact ⟨hlast.trans hsettlement.lastUpdateTs_eq, htime, heq.le, fun _ => heq⟩
  cases h with
  | cancelled settled _ hsettle | paused settled _ hsettle | resumed settled _ hsettle
  | flagged _ _ settled _ hsettle | rateUpdated _ settled _ hsettle
  | selfTerminated settled _ hsettle =>
      obtain rfl : env.timestamp = ts := by simpa [Call.settles] using hts
      exact hkept hsettle rfl rfl (.inl rfl)
  | expired _ hcall settled hexpired hsettle =>
      have hexpiry : call.settles grantId grant env.timestamp = some grant.cancelSettleTs := by
        cases call with
        | getGrant | claimableBitmask | processMilestoneExpiry =>
            cases hcall
            simp [Call.settles, hexpired]
        | _ => cases hcall
      cases hexpiry.symm.trans hts
      exact hkept hsettle rfl rfl (.inr rfl)
  | withdrawn amount settled _ _ hsettle =>
      obtain rfl : env.timestamp = ts := by simpa [Call.settles] using hts
      refine hkept hsettle rfl ?_ (.inl rfl)
      dsimp only [Grant.accounted, Grant.paid]
      omega
  | rageQuit settled _ hsettle =>
      obtain rfl : env.timestamp = ts := by simpa [Call.settles] using hts
      refine hkept hsettle rfl ?_ (.inl rfl)
      dsimp only [Grant.accounted, Grant.quit]
      omega
  | clawedBack settled hsettle =>
      obtain rfl : env.timestamp = ts := by simpa [Call.settles] using hts
      have hsettlement := settleGrant_eq_ok hsettle
      have hnonneg := (hsettlement.wellFormed hgrant).claimable_nonneg
      refine ⟨hsettlement.lastUpdateTs_eq, .inl rfl, ?_, fun hne => absurd rfl hne⟩
      rw [← hsettlement.accounted_eq hgrant]
      dsimp only [Grant.accounted]
      omega
  | deadlineSet | oraclesConfigured | evidenceSubmitted | approved | markedMet => cases hts

/-- An approval that resumes nothing changes nothing of what is earned by the deadline. -/
theorem Grant.WellFormed.earnedBy_approvedBy (h : grant.WellFormed) {oracle : Bytes}
    (hresumed : ¬grant.ResumedByApproval deadline) :
    (grant.approvedBy oracle).earnedBy deadline = grant.earnedBy deadline := by
  by_cases hmask : hasStatus (grant.approvedBy oracle).statusMask statusActive =
      hasStatus grant.statusMask statusActive
  · unfold Grant.approvedBy at hmask ⊢
    split
    · case isTrue hmet =>
      rw [if_pos hmet] at hmask
      simp only [Grant.earnedBy, hmask]
      rfl
    · rfl
  · have hpaused : hasStatus grant.statusMask statusPaused = true ∧
        hasStatus grant.statusMask statusActive = false ∧
        grant.milestoneThreshold ≤ grant.milestoneApprovers.length + 1 := by
      unfold Grant.approvedBy at hmask
      split at hmask
      · case isTrue hmet =>
        dsimp only at hmask
        split at hmask
        · case isTrue hpaused => exact ⟨hpaused, by simpa using hmask, by simpa using hmet⟩
        · exact absurd rfl hmask
      · exact absurd rfl hmask
    obtain ⟨hpaused, hoff, hmet⟩ := hpaused
    obtain ⟨hwithdrawn, hclaimable, htotal, hrate⟩ := grant.approvedBy_balances oracle
    have hwf : (grant.approvedBy oracle).WellFormed :=
      h.of_eq hwithdrawn hclaimable htotal (hrate ▸ h.flowRate_nonneg)
    have hsame : (grant.approvedBy oracle).accounted = grant.accounted := by
      rw [Grant.accounted, hwithdrawn, hclaimable]
      rfl
    have hlast : (grant.approvedBy oracle).lastUpdateTs = grant.lastUpdateTs := by
      unfold Grant.approvedBy
      split <;> rfl
    rw [Grant.earnedBy_of_not_active hoff, ← hsame]
    by_cases hidle : grant.flowRate = 0 ∨ deadline ≤ grant.lastUpdateTs
    · exact hwf.earnedBy_of_idle (by rwa [hrate, hlast])
    · -- everything had accrued before the grant was paused
      have hfull : grant.totalAmount ≤ grant.accounted := by
        by_contra hbelow
        refine hresumed ⟨hpaused, hoff, hmet, by omega, ?_, by omega⟩
        have hnonneg := h.flowRate_nonneg
        omega
      have hle : (grant.approvedBy oracle).accounted ≤
          (grant.approvedBy oracle).earnedBy deadline := hwf.accounted_le_earnedBy
      have hge : (grant.approvedBy oracle).earnedBy deadline ≤ grant.totalAmount := by
        have hle := hwf.accounted_le
        unfold Grant.earnedBy
        split <;> omega
      omega

theorem Transition.earnedBy_of_not_settles (h : Transition host env grantId grant call grant')
    (hgrant : grant.WellFormed) (hnone : call.settles grantId grant env.timestamp = none)
    (happroval : call.approves grantId = true → ¬grant.ResumedByApproval deadline) :
    grant'.earnedBy deadline = grant.earnedBy deadline := by
  cases h with
  | deadlineSet | oraclesConfigured | evidenceSubmitted | markedMet => rfl
  | approved oracle =>
      exact hgrant.earnedBy_approvedBy (happroval (by simp [Call.approves]))
  | expired _ hcall settled hexpired =>
      cases call with
      | getGrant | claimableBitmask | processMilestoneExpiry =>
          cases hcall
          simp [Call.settles, hexpired] at hnone
      | _ => cases hcall
  | _ => simp [Call.settles] at hnone

/-- **Step lemma.** After the deadline, a transition that keeps to it lets the grant earn
nothing by the deadline that it had not earned before. -/
theorem Transition.earnedBy_le (h : Transition host env grantId grant call grant')
    (hgrant : grant.WellFormed) (hlate : deadline < env.timestamp)
    (hstored : env.store.grants grantId = some grant)
    (hkeeps : call.KeepsToDeadline deadline grantId env) :
    grant'.earnedBy deadline ≤ grant.earnedBy deadline := by
  obtain ⟨hsettles, happroval⟩ := hkeeps grant hstored
  cases hts : call.settles grantId grant env.timestamp with
  | none => exact (h.earnedBy_of_not_settles hgrant hts happroval).le
  | some ts =>
      have hsettled := h.settledAt hgrant hts
      have hidle : grant'.flowRate = 0 ∨ deadline ≤ grant'.lastUpdateTs := by
        rw [hsettled.lastUpdateTs_eq]
        rcases hsettled.time with rfl | hrate
        · exact .inr hlate.le
        · exact .inl hrate
      have hearned : grant.earnedBy ts ≤ grant.earnedBy deadline := by
        have hnot := hsettles ts hts
        rw [hgrant.accruesPast_iff] at hnot
        exact Int.le_of_not_gt hnot
      calc grant'.earnedBy deadline
          = grant'.accounted := (h.wellFormed hgrant).1.earnedBy_of_idle hidle
        _ ≤ grant.earnedBy ts := hsettled.accounted_le
        _ ≤ grant.earnedBy deadline := hearned

/-! ### Runs -/

/-- The call of the step, if it goes through, keeps to the deadline of the grant. -/
def KeepsToDeadline (host : Host) (deadline grantId : Nat) (e : Step) : Prop :=
  ∀ call ∈ Ledger.called (contract host) e,
    call.KeepsToDeadline deadline grantId (e.before.enter e.action)

instance (host : Host) (deadline grantId : Nat) (e : Step) :
    Decidable (KeepsToDeadline host deadline grantId e) :=
  inferInstanceAs (Decidable (∀ call ∈ Ledger.called (contract host) e, _))

/-- The milestone grant `grant` has this deadline, and its milestone is not met. -/
def Grant.DueAt (grant : Grant) (deadline : Nat) : Prop :=
  hasStatus grant.statusMask statusMilestoneBased = true ∧ 0 < deadline ∧
    grant.milestoneDeadline = deadline ∧ grant.milestoneMet = false

instance (grant : Grant) (deadline : Nat) : Decidable (grant.DueAt deadline) :=
  inferInstanceAs (Decidable (_ ∧ _))

section Runs

variable {older newer : Trace} {start : Env}

/-- A stored grant stays stored. -/
theorem Effect.stored {grants : Nat → Option Grant} (h : Effect host env call grants)
    (hgrant : env.store.grants grantId = some grant) : ∃ grant', grants grantId = some grant' := by
  cases h with
  | initialized _ _ hgrants | unexpired _ _ _ _ _ hgrants => exact ⟨grant, hgrants ▸ hgrant⟩
  | created target _ _ _ _ _ _ _ _ hgrants | moved target _ _ _ _ hgrants =>
      rw [hgrants]
      by_cases hid : grantId = target
      · rw [hid]
        exact ⟨_, Function.update_self ..⟩
      · exact ⟨grant, (Function.update_of_ne hid ..).trans hgrant⟩

/-- A call that settles a stored grant takes it through a transition. -/
theorem Effect.transition_of_settles {grants : Nat → Option Grant}
    (h : Effect host env call grants) (hgrant : env.store.grants grantId = some grant)
    (hts : call.settles grantId grant env.timestamp = some ts) :
    ∃ grant', grants grantId = some grant' ∧ Transition host env grantId grant call grant' := by
  cases h with
  | initialized _ hcall => cases hcall ▸ hts
  | created _ _ _ _ _ hcall => cases hcall ▸ hts
  | unexpired target before hcall hbefore hlive =>
      have hexpired : target = grantId ∧ Expired grant env.timestamp := by
        cases call with
        | getGrant | claimableBitmask | processMilestoneExpiry =>
            cases hcall
            by_contra hnot
            rw [Call.settles, if_neg hnot] at hts
            cases hts
        | _ => cases hcall
      obtain ⟨rfl, hexpired⟩ := hexpired
      cases hgrant.symm.trans hbefore
      exact absurd hexpired hlive
  | moved target before after hbefore htransition hgrants =>
      by_cases hid : grantId = target
      · subst hid
        cases hgrant.symm.trans hbefore
        rw [hgrants]
        exact ⟨after, Function.update_self .., htransition⟩
      · cases (htransition.settles_other hid grant env.timestamp).symm.trans hts

/-- A step after the deadline that keeps to it. -/
theorem earnedBy_le_of_next {e : Step} (h : Ledger.Reachable (contract host) older e.before)
    (hn : Ledger.Next (contract host) e.before e.action e.after)
    (hlate : deadline < e.action.timestamp) (hkeeps : KeepsToDeadline host deadline grantId e)
    (hgrant : e.before.store.grants grantId = some grant) :
    ∃ grant', e.after.store.grants grantId = some grant' ∧
      grant'.earnedBy deadline ≤ grant.earnedBy deadline := by
  rcases effect_of_next hn with ⟨-, hstore⟩ | ⟨call, hcalled, heffect⟩
  · exact ⟨grant, hstore ▸ hgrant, le_rfl⟩
  · obtain ⟨grant', hgrant'⟩ := heffect.stored hgrant
    refine ⟨grant', hgrant', ?_⟩
    cases heffect.grantEffect hgrant' with
    | untouched _ hg _ =>
        cases hgrant.symm.trans hg
        exact le_rfl
    | created _ _ _ _ _ hnone => cases hgrant.symm.trans hnone
    | moved _ _ hbefore htransition =>
        cases hgrant.symm.trans hbefore
        exact htransition.earnedBy_le (wellFormed_of_reachable h hgrant) hlate hgrant
          (hkeeps call hcalled)

/-- **Run lemma.** What the stream has earned by the deadline does not grow after it. -/
theorem earnedBy_le_of_run (hstart : Ledger.Reachable (contract host) older start)
    (hgrant : start.store.grants grantId = some grant)
    (h : Run (· = start) (Ledger.Next (contract host)) newer env)
    (hlate : ∀ e ∈ newer, deadline < e.action.timestamp)
    (hkeeps : ∀ e ∈ newer, KeepsToDeadline host deadline grantId e) :
    ∃ grant', env.store.grants grantId = some grant' ∧
      grant'.earnedBy deadline ≤ grant.earnedBy deadline := by
  induction h with
  | start h => exact ⟨grant, h ▸ hgrant, le_rfl⟩
  | @step newer env event env' hrun hn ih =>
      rw [List.forall_mem_cons] at hlate hkeeps
      obtain ⟨grant₁, hgrant₁, hle₁⟩ := ih hlate.2 hkeeps.2
      obtain ⟨grant₂, hgrant₂, hle₂⟩ := earnedBy_le_of_next (e := ⟨env, event, env'⟩)
        (hstart.append hrun) hn hlate.1 hkeeps.1 hgrant₁
      exact ⟨grant₂, hgrant₂, hle₂.trans hle₁⟩

/-- A step that settles the grant when it has accrued past the deadline accounts for more than
was earned by the deadline. -/
theorem earnedBy_lt_accounted {e : Step} (h : Ledger.Reachable (contract host) older e.before)
    (hn : Ledger.Next (contract host) e.before e.action e.after)
    (hcalled : Ledger.called (contract host) e = some call)
    (hcall : call ≠ .clawbackMilestone grantId)
    (hgrant : e.before.store.grants grantId = some grant)
    (hgrant' : e.after.store.grants grantId = some grant')
    (hts : call.settles grantId grant e.action.timestamp = some ts)
    (hpast : grant.AccruesPast deadline ts) : grant.earnedBy deadline < grant'.accounted := by
  have hwf := wellFormed_of_reachable h hgrant
  rcases effect_of_next hn with ⟨hnone, -⟩ | ⟨_, hcalled', heffect⟩
  · cases hnone.symm.trans hcalled
  · cases hcalled.symm.trans hcalled'
    obtain ⟨_, hmoved, htransition⟩ := heffect.transition_of_settles hgrant hts
    cases hgrant'.symm.trans hmoved
    rw [(htransition.settledAt hwf hts).accounted_eq hcall]
    exact hwf.accruesPast_iff.mp hpast

end Runs

/-- **Milestone deadline.** Let `start` be the state at the deadline of an unmet milestone. In
every run after it whose calls keep to the deadline, the grant never accounts for more than the
stream had earned at the deadline; and a call other than a clawback that settles the grant when
it has accrued past the deadline accounts for more than was earned at the deadline before it. -/
theorem nothing_accrues_after_deadline (host : Host) {older newer : Trace} {start env : Env}
    {grantId deadline : Nat} {grant : Grant}
    (hstart : Ledger.Reachable (contract host) older start)
    (hdue : start.store.grants grantId = some grant ∧ grant.DueAt deadline ∧
      start.timestamp ≤ deadline)
    (h : Run (· = start) (Ledger.Next (contract host)) newer env)
    (hlate : ∀ e ∈ newer, deadline < e.action.timestamp) :
    ((∀ e ∈ newer, KeepsToDeadline host deadline grantId e) →
      ∀ grant', env.store.grants grantId = some grant' →
        grant'.accounted ≤ grant.earnedBy deadline) ∧
    ∀ e ∈ newer, ∀ call ∈ Ledger.called (contract host) e,
      call ≠ .clawbackMilestone grantId → ∀ before after,
        e.before.store.grants grantId = some before → e.after.store.grants grantId = some after →
          ∀ ts ∈ call.settles grantId before e.action.timestamp, before.AccruesPast deadline ts →
            before.earnedBy deadline < after.accounted := by
  constructor
  · intro hkeeps grant' hgrant'
    obtain ⟨_, hstored, hle⟩ := earnedBy_le_of_run hstart hdue.1 h hlate hkeeps
    cases hgrant'.symm.trans hstored
    have hwf := wellFormed_of_reachable (hstart.append h) hgrant'
    exact hwf.accounted_le_earnedBy.trans hle
  · intro e he call hcalled hcall before after hbefore hafter ts hts hpast
    obtain ⟨older', holder, hn⟩ := h.of_mem he
    exact earnedBy_lt_accounted (hstart.append holder) hn hcalled hcall hbefore hafter
      hts hpast

/-- An active milestone grant with the deadline 100, and the run that creates it. -/
def Demo.dueGrant : Grant :=
  { Grant.created Demo.grantee 1000 1 (statusActive ||| statusMilestoneBased) 0 with
    milestoneDeadline := 100 }

def Demo.dueRun : Trace × Env :=
  Ledger.history (contract Demo.host) Demo.env
    [Demo.call 0 (.initializeContract Demo.admin),
      Demo.call 0 (.createGrant 7 Demo.grantee 1000 1 (statusActive ||| statusMilestoneBased)),
      Demo.call 0 (.setMilestoneDeadline 7 100)]

theorem Demo.dueRun_reachable :
    Ledger.Reachable (contract Demo.host) Demo.dueRun.1 Demo.dueRun.2 :=
  Ledger.history_reachable _ Demo.env_deployed (by decide)

theorem Demo.dueRun_due :
    Demo.dueRun.2.store.grants 7 = some Demo.dueGrant ∧ Demo.dueGrant.DueAt 100 ∧
      Demo.dueRun.2.timestamp ≤ 100 := by
  decide

/-- The grant that expires is cancelled by the first call that looks for it. -/
theorem nothing_accrues_after_deadline_of_expired_grant :
    let event := Demo.call 300 (.getGrant 7)
    ∀ grant', (Ledger.execute (contract Demo.host) Demo.dueRun.2 event).store.grants 7 =
      some grant' → grant'.accounted ≤ Demo.dueGrant.earnedBy 100 := by
  intro event
  have hrun : Run (· = Demo.dueRun.2) (Ledger.Next (contract Demo.host)) _
      (Ledger.execute (contract Demo.host) Demo.dueRun.2 event) :=
    .step (.start rfl) ⟨by decide, rfl⟩
  exact (nothing_accrues_after_deadline Demo.host Demo.dueRun_reachable Demo.dueRun_due hrun
    (by decide)).1 (by decide)

/-- A grant that is paused 200 seconds after its deadline has accrued for all of them. -/
theorem nothing_accrues_after_deadline_paused_grant :
    ¬∀ (older newer : Trace) (start env : Env) (grantId deadline : Nat) (grant grant' : Grant),
      Ledger.Reachable (contract Demo.host) older start →
      start.store.grants grantId = some grant ∧ grant.DueAt deadline ∧
        start.timestamp ≤ deadline →
      Run (· = start) (Ledger.Next (contract Demo.host)) newer env →
      (∀ e ∈ newer, deadline < e.action.timestamp) → env.store.grants grantId = some grant' →
        grant'.accounted ≤ grant.earnedBy deadline := by
  intro h
  let event := Demo.call 300 (.pauseGrant 7)
  have hrun : Run (· = Demo.dueRun.2) (Ledger.Next (contract Demo.host)) _
      (Ledger.execute (contract Demo.host) Demo.dueRun.2 event) :=
    .step (.start rfl) ⟨by decide, rfl⟩
  let paused : Grant :=
    { Demo.dueGrant with
      claimable := 300, lastUpdateTs := 300
      statusMask := statusPaused ||| statusMilestoneBased }
  have hle := h _ _ _ _ 7 100 _ paused Demo.dueRun_reachable Demo.dueRun_due hrun (by decide)
    (by decide)
  exact absurd hle (by decide)

end YieldTrust.Optimized
