import YieldTrust.Optimized.Transitions

/-!
# YieldTrust.Optimized.Lifecycle

The **life of a grant** by its status mask: it is active, paused, completed or cancelled, or
none of these after a self-termination. `status_machine` says which runs keep these apart.
-/

namespace YieldTrust.Optimized

open Fallible
open GrantStream (Address Bytes)

variable {host : Host} {env : Env} {grant grant' settled : Grant} {grantId now : Nat}
  {mask newMask : StatusMask} {call : Call}

/-! ### One mask -/

/-- At most one of the flags of a life is set. -/
def AtMostOneStatus (mask : StatusMask) : Prop :=
  [statusActive, statusPaused, statusCompleted, statusCancelled].countP (hasStatus mask) ≤ 1

instance (mask : StatusMask) : Decidable (AtMostOneStatus mask) :=
  inferInstanceAs (Decidable (_ ≤ _))

theorem atMostOneStatus_iff :
    AtMostOneStatus mask ↔
      (hasStatus mask statusActive = true → hasStatus mask statusPaused = false ∧
        hasStatus mask statusCompleted = false ∧ hasStatus mask statusCancelled = false) ∧
      (hasStatus mask statusPaused = true →
        hasStatus mask statusCompleted = false ∧ hasStatus mask statusCancelled = false) ∧
      (hasStatus mask statusCompleted = true → hasStatus mask statusCancelled = false) := by
  unfold AtMostOneStatus
  simp only [List.countP_cons, List.countP_nil]
  cases hasStatus mask statusActive <;> cases hasStatus mask statusPaused <;>
    cases hasStatus mask statusCompleted <;> cases hasStatus mask statusCancelled <;> decide

/-- The grant is completed or cancelled. -/
def Grant.Closed (grant : Grant) : Prop :=
  hasStatus grant.statusMask statusCompleted = true ∨
    hasStatus grant.statusMask statusCancelled = true

theorem Grant.Closed.not_open (h : grant.Closed) (hone : AtMostOneStatus grant.statusMask) :
    hasStatus grant.statusMask statusActive = false ∧
      hasStatus grant.statusMask statusPaused = false := by
  obtain ⟨hactive, hpaused, -⟩ := atMostOneStatus_iff.mp hone
  constructor
  · refine Bool.eq_false_iff.mpr fun h' => ?_
    rcases h with h | h <;> simp [hactive h'] at h
  · refine Bool.eq_false_iff.mpr fun h' => ?_
    rcases h with h | h <;> simp [hpaused h'] at h

/-- No transition starts from a closed grant. -/
theorem validateStatusTransition_open (h : validateStatusTransition mask newMask = .ok ()) :
    hasStatus mask statusCompleted = false ∧ hasStatus mask statusCancelled = false := by
  unfold validateStatusTransition at h
  split at h
  · exact absurd h fail_ne_ok
  · case isFalse hopen => simpa using hopen

/-! ### Settlement -/

/-- All of the grant has accrued by the time `now`. -/
def Grant.AccruedBy (grant : Grant) (now : Nat) : Prop :=
  hasStatus grant.statusMask statusActive = true ∧ grant.lastUpdateTs < now ∧
    0 < grant.flowRate ∧ grant.totalAmount ≤
      grant.withdrawn + (grant.claimable + grant.flowRate * (now - grant.lastUpdateTs : Nat))

instance (grant : Grant) (now : Nat) : Decidable (grant.AccruedBy now) :=
  inferInstanceAs (Decidable (_ ∧ _))

/-- A settlement completes the grant exactly if all of it has accrued. -/
theorem Settlement.mask_cases (h : Settlement grant now settled) :
    (settled.statusMask = grant.statusMask ∧ ¬grant.AccruedBy now) ∨
      (settled.statusMask = clearStatus (setStatus grant.statusMask statusCompleted)
        statusActive ∧ grant.AccruedBy now) := by
  cases h with
  | idle hidle =>
      refine .inl ⟨rfl, fun ⟨hactive, htime, hrate, _⟩ => ?_⟩
      rcases hidle with h | h | h
      · simp [h] at hactive
      · omega
      · omega
  | accrued hactive htime hrate hbelow => exact .inl ⟨rfl, fun ⟨_, _, _, hall⟩ => by omega⟩
  | completed delta hactive htime hrate hnonneg hle hfull =>
      exact .inr ⟨rfl, hactive, htime, hrate, by omega⟩

/-- The flags of a life after a settlement. -/
theorem Settlement.flags (h : Settlement grant now settled) :
    hasStatus settled.statusMask statusPaused = hasStatus grant.statusMask statusPaused ∧
      hasStatus settled.statusMask statusCancelled = hasStatus grant.statusMask statusCancelled ∧
      hasStatus settled.statusMask statusActive =
        (hasStatus grant.statusMask statusActive && !decide (grant.AccruedBy now)) ∧
      hasStatus settled.statusMask statusCompleted =
        (hasStatus grant.statusMask statusCompleted || decide (grant.AccruedBy now)) := by
  rcases h.mask_cases with ⟨hmask, hbelow⟩ | ⟨hmask, hall⟩
  · simp [hmask, hbelow]
  · simp [hmask, hall]

theorem Settlement.of_not_active (h : Settlement grant now settled)
    (hactive : hasStatus grant.statusMask statusActive = false) :
    settled.statusMask = grant.statusMask ∧ settled.withdrawn = grant.withdrawn ∧
      settled.claimable = grant.claimable := by
  cases h with
  | idle => exact ⟨rfl, rfl, rfl⟩
  | accrued h | completed _ h => simp [hactive] at h

theorem Settlement.claimable_nonneg (h : Settlement grant now settled)
    (hnonneg : 0 ≤ grant.claimable) : 0 ≤ settled.claimable := by
  cases h with
  | idle => exact hnonneg
  | accrued _ _ hrate _ =>
      exact Int.add_nonneg hnonneg (Int.mul_nonneg hrate.le (Int.natCast_nonneg _))
  | completed delta _ _ _ hdelta _ _ => exact Int.add_nonneg hnonneg hdelta

/-! ### One transition -/

theorem Transition.claimable_nonneg (h : Transition host env grantId grant call grant')
    (hnonneg : 0 ≤ grant.claimable) : 0 ≤ grant'.claimable := by
  cases h with
  | cancelled _ _ hsettle | paused _ _ hsettle | resumed _ _ hsettle | flagged _ _ _ _ hsettle
  | expired _ _ _ _ hsettle | rateUpdated _ _ _ hsettle | selfTerminated _ _ hsettle =>
      exact (settleGrant_eq_ok hsettle).claimable_nonneg hnonneg
  | withdrawn amount settled _ _ _ hle => exact Int.sub_nonneg.mpr hle
  | approved oracle =>
      unfold Grant.approvedBy
      split <;> exact hnonneg
  | deadlineSet | oraclesConfigured | evidenceSubmitted | markedMet => exact hnonneg
  | clawedBack | rageQuit => exact le_rfl

/-- What a transition keeps of a closed grant. -/
structure StatusKept (grant grant' : Grant) : Prop where
  completed : hasStatus grant.statusMask statusCompleted = true →
    hasStatus grant'.statusMask statusCompleted = true
  cancelled : hasStatus grant.statusMask statusCancelled = true →
    hasStatus grant'.statusMask statusCancelled = true
  closed : grant.Closed → hasStatus grant'.statusMask statusActive = false ∧
    grant'.withdrawn + grant'.claimable ≤ grant.withdrawn + grant.claimable

/-- Same mask and no more funds. -/
theorem StatusKept.of_mask (hone : AtMostOneStatus grant.statusMask)
    (hmask : grant'.statusMask = grant.statusMask)
    (hfunds : grant'.withdrawn + grant'.claimable ≤ grant.withdrawn + grant.claimable) :
    StatusKept grant grant' where
  completed h := hmask ▸ h
  cancelled h := hmask ▸ h
  closed h := ⟨hmask ▸ (h.not_open hone).1, hfunds⟩

theorem StatusKept.of_not_closed (h : ¬grant.Closed) : StatusKept grant grant' where
  completed hc := absurd (.inl hc) h
  cancelled hc := absurd (.inr hc) h
  closed hc := absurd hc h

theorem Transition.statusKept (h : Transition host env grantId grant call grant')
    (hone : AtMostOneStatus grant.statusMask) (hnonneg : 0 ≤ grant.claimable) :
    StatusKept grant grant' := by
  have hvalidated {mask : StatusMask}
      (hvalid : validateStatusTransition grant.statusMask mask = .ok ()) : ¬grant.Closed := by
    obtain ⟨hc, hx⟩ := validateStatusTransition_open hvalid
    simp [Grant.Closed, hc, hx]
  by_cases hclosed : grant.Closed
  · obtain ⟨hactive, hpaused⟩ := hclosed.not_open hone
    have hidle {settled : Grant} {ts : Nat} (hsettle : settleGrant grant ts = .ok settled) :=
      (settleGrant_eq_ok hsettle).of_not_active hactive
    cases h with
    | cancelled _ hvalid | flagged _ _ _ hvalid => exact absurd hclosed (hvalidated hvalid)
    | paused _ h | withdrawn _ _ _ h => simp [hactive] at h
    | resumed _ h | rageQuit _ h => simp [hpaused] at h
    | expired _ _ _ hexpired =>
        rcases hclosed with h | h
        · simp [hexpired.not_completed] at h
        · simp [hexpired.not_cancelled] at h
    | rateUpdated _ settled _ hsettle hopen =>
        simp [(hidle hsettle).1, hactive, hpaused] at hopen
    | deadlineSet | oraclesConfigured | evidenceSubmitted | markedMet =>
        exact .of_mask hone rfl le_rfl
    | approved oracle =>
        unfold Grant.approvedBy
        split
        · exact .of_mask hone (by simp [hpaused]) le_rfl
        · exact .of_mask hone rfl le_rfl
    | clawedBack settled hsettle =>
        obtain ⟨hmask, hwithdrawn, -⟩ := hidle hsettle
        exact .of_mask hone hmask (by dsimp only; omega)
    | selfTerminated _ heligible =>
        simp only [validateTerminationEligibility, bind_eq_ok, ensure_eq_ok] at heligible
        obtain ⟨_, -, _, hc, _, hx, -⟩ := heligible
        rcases hclosed with h | h
        · simp [hc] at h
        · simp [hx] at h
  · exact .of_not_closed hclosed

/-- The condition on a call under which it keeps the flags of a life apart. -/
def Call.StatusGuard (env : Env) : Call → Prop
  | .createGrant _ _ _ _ initialStatusMask => AtMostOneStatus initialStatusMask
  | .cancelGrantBitmask grantId => ∀ grant ∈ env.store.grants grantId,
      hasStatus grant.statusMask statusActive = false ∧
        hasStatus grant.statusMask statusPaused = false
  | .setGrantFlags grantId flagsToSet flagsToClear => ∀ grant ∈ env.store.grants grantId,
      AtMostOneStatus (flaggedMask grant.statusMask flagsToSet flagsToClear)
  | .getGrant grantId | .claimableBitmask grantId | .processMilestoneExpiry grantId =>
      ∀ grant ∈ env.store.grants grantId, Expired grant env.timestamp →
        ¬grant.AccruedBy grant.cancelSettleTs
  | _ => True

instance decidableStatusGuard (env : Env) : (call : Call) → Decidable (call.StatusGuard env)
  | .createGrant _ _ _ _ initialStatusMask =>
      inferInstanceAs (Decidable (AtMostOneStatus initialStatusMask))
  | .cancelGrantBitmask grantId =>
      inferInstanceAs (Decidable (∀ grant ∈ env.store.grants grantId, _))
  | .setGrantFlags grantId _ _ =>
      inferInstanceAs (Decidable (∀ grant ∈ env.store.grants grantId, _))
  | .getGrant grantId | .claimableBitmask grantId | .processMilestoneExpiry grantId =>
      inferInstanceAs (Decidable (∀ grant ∈ env.store.grants grantId,
        Expired grant env.timestamp → ¬grant.AccruedBy grant.cancelSettleTs))
  | .initializeContract _ | .pauseGrant _ | .resumeGrant _ | .withdraw _ _ | .updateRate _ _
  | .setMilestoneDeadline _ _ | .configureMilestoneOracles _ _ _ _
  | .submitMilestoneEvidence _ _ | .approveMilestone _ _ _ | .markMilestoneMet _
  | .clawbackMilestone _ | .rageQuit _ | .selfTerminate _ => inferInstanceAs (Decidable True)

theorem Transition.atMostOneStatus_iff (h : Transition host env grantId grant call grant')
    (hgrant : env.store.grants grantId = some grant) (hone : AtMostOneStatus grant.statusMask) :
    AtMostOneStatus grant'.statusMask ↔ call.StatusGuard env := by
  have hflags := Optimized.atMostOneStatus_iff.mp hone
  have hkept {mask : StatusMask} (hmask : mask = grant.statusMask) : AtMostOneStatus mask :=
    hmask ▸ hone
  have hsettled {settled : Grant} {ts : Nat} (hsettle : settleGrant grant ts = .ok settled) :
      AtMostOneStatus settled.statusMask := by
    rcases (settleGrant_eq_ok hsettle).mask_cases with ⟨hmask, -⟩ | ⟨hmask, hactive, -⟩
    · exact hkept hmask
    · rw [hmask, Optimized.atMostOneStatus_iff]
      simp [hflags.1 hactive]
  cases h with
  | cancelled settled hvalid hsettle =>
      obtain ⟨hc, hx⟩ := validateStatusTransition_open hvalid
      rw [Optimized.atMostOneStatus_iff]
      simp [Call.StatusGuard, hgrant, hc]
  | paused settled hactive hsettle =>
      refine iff_of_true ?_ trivial
      rw [Optimized.atMostOneStatus_iff]
      simp [hflags.1 hactive]
  | resumed settled hpaused hsettle =>
      refine iff_of_true ?_ trivial
      rw [Optimized.atMostOneStatus_iff]
      simp [hflags.2.1 hpaused]
  | flagged flagsToSet flagsToClear settled hvalid hsettle =>
      simp [Call.StatusGuard, hgrant]
  | expired _ hcall settled hexpired hsettle =>
      obtain ⟨-, -, -, hcompleted⟩ := (settleGrant_eq_ok hsettle).flags
      have hguard : call.StatusGuard env ↔ ¬grant.AccruedBy grant.cancelSettleTs := by
        cases call with
        | getGrant | claimableBitmask | processMilestoneExpiry =>
            cases hcall
            simp [Call.StatusGuard, hgrant, hexpired]
        | _ => cases hcall
      rw [hguard, Optimized.atMostOneStatus_iff]
      simp [Grant.autoCancelled, hcompleted, hexpired.not_completed]
  | withdrawn amount settled hpos hactive hsettle hle =>
      refine iff_of_true ?_ trivial
      obtain ⟨hpaused, hcancelled, -, -⟩ := (settleGrant_eq_ok hsettle).flags
      unfold Grant.paid
      dsimp only
      split
      · rw [Optimized.atMostOneStatus_iff]
        simp [hpaused, hcancelled, hflags.1 hactive]
      · exact hsettled hsettle
  | rateUpdated _ settled _ hsettle | clawedBack settled hsettle =>
      have hone' : AtMostOneStatus settled.statusMask := hsettled hsettle
      exact iff_of_true hone' trivial
  | deadlineSet | oraclesConfigured | evidenceSubmitted | markedMet =>
      exact iff_of_true hone trivial
  | approved oracle =>
      refine iff_of_true ?_ trivial
      unfold Grant.approvedBy
      split
      · dsimp only
        split
        · case isTrue hpaused =>
          rw [Optimized.atMostOneStatus_iff]
          simp [hflags.2.1 hpaused]
        · exact hone
      · exact hone
  | rageQuit settled hpaused hsettle =>
      refine iff_of_true ?_ trivial
      obtain ⟨-, hcancelled, -, -⟩ := (settleGrant_eq_ok hsettle).flags
      rw [Optimized.atMostOneStatus_iff]
      simp [Grant.quit, hcancelled, hflags.2.1 hpaused]
  | selfTerminated settled heligible hsettle =>
      refine iff_of_true ?_ trivial
      obtain ⟨-, hcancelled, -, -⟩ := (settleGrant_eq_ok hsettle).flags
      simp only [validateTerminationEligibility, bind_eq_ok, ensure_eq_ok] at heligible
      obtain ⟨_, -, _, -, _, hx, -⟩ := heligible
      rw [Optimized.atMostOneStatus_iff]
      simp [hcancelled, hx]

/-- The condition on a call under which a settlement that completes the grant is not undone
by the mask that the call writes. -/
def Call.CompletionGuard (env : Env) : Call → Prop
  | .pauseGrant grantId =>
      ∀ grant ∈ env.store.grants grantId, ¬grant.AccruedBy env.timestamp
  | .setGrantFlags grantId flagsToSet flagsToClear =>
      ∀ grant ∈ env.store.grants grantId, grant.AccruedBy env.timestamp →
        hasStatus (flaggedMask grant.statusMask flagsToSet flagsToClear) statusCompleted = true
  | _ => True

instance decidableCompletionGuard (env : Env) : (call : Call) → Decidable (call.CompletionGuard env)
  | .pauseGrant grantId =>
      inferInstanceAs (Decidable (∀ grant ∈ env.store.grants grantId, ¬_))
  | .setGrantFlags grantId _ _ =>
      inferInstanceAs (Decidable (∀ grant ∈ env.store.grants grantId, _ → _))
  | .initializeContract _ | .createGrant _ _ _ _ _ | .cancelGrantBitmask _ | .resumeGrant _
  | .getGrant _ | .claimableBitmask _ | .withdraw _ _ | .processMilestoneExpiry _
  | .updateRate _ _ | .setMilestoneDeadline _ _ | .configureMilestoneOracles _ _ _ _
  | .submitMilestoneEvidence _ _ | .approveMilestone _ _ _ | .markMilestoneMet _
  | .clawbackMilestone _ | .rageQuit _ | .selfTerminate _ => inferInstanceAs (Decidable True)

/-- The time at which a call that goes through settles the grant, if it does. -/
def Call.settles (grantId : Nat) (grant : Grant) (now : Nat) : Call → Option Nat
  | .cancelGrantBitmask id | .pauseGrant id | .resumeGrant id | .setGrantFlags id _ _
  | .withdraw id _ | .updateRate id _ | .clawbackMilestone id | .rageQuit id
  | .selfTerminate id => if id = grantId then some now else none
  | .getGrant id | .claimableBitmask id | .processMilestoneExpiry id =>
      if id = grantId ∧ Expired grant now then some grant.cancelSettleTs else none
  | _ => none

/-- A grant that the call settles to completion is completed after the call. -/
def CompletionKept (env : Env) (call : Call) (grantId : Nat) (grant grant' : Grant) : Prop :=
  ∀ ts ∈ call.settles grantId grant env.timestamp, ∀ settled,
    settleGrant grant ts = .ok settled → hasStatus settled.statusMask statusCompleted = true →
      hasStatus grant'.statusMask statusCompleted = true

theorem completionKept_iff {ts : Nat} (hts : call.settles grantId grant env.timestamp = some ts)
    (hsettle : settleGrant grant ts = .ok settled) :
    CompletionKept env call grantId grant grant' ↔
      (hasStatus settled.statusMask statusCompleted = true →
        hasStatus grant'.statusMask statusCompleted = true) := by
  constructor
  · intro hkept
    exact hkept ts hts settled hsettle
  · intro hkept ts' hts' settled' hsettle'
    cases hts.symm.trans hts'
    cases hsettle.symm.trans hsettle'
    exact hkept

theorem Transition.completionKept_iff (h : Transition host env grantId grant call grant')
    (hgrant : env.store.grants grantId = some grant) (hone : AtMostOneStatus grant.statusMask)
    (hguard : call.StatusGuard env) :
    CompletionKept env call grantId grant grant' ↔ call.CompletionGuard env := by
  have hflags := Optimized.atMostOneStatus_iff.mp hone
  cases h with
  | cancelled settled hvalid hsettle =>
      obtain ⟨hc, -⟩ := validateStatusTransition_open hvalid
      have hactive := (hguard grant hgrant).1
      obtain ⟨hmask, -⟩ := (settleGrant_eq_ok hsettle).of_not_active hactive
      refine Iff.trans (Optimized.completionKept_iff (if_pos rfl) hsettle) ?_
      simp [Call.CompletionGuard, hmask, hc]
  | paused settled hactive hsettle =>
      obtain ⟨-, -, -, hcompleted⟩ := (settleGrant_eq_ok hsettle).flags
      refine Iff.trans (Optimized.completionKept_iff (if_pos rfl) hsettle) ?_
      simp [Call.CompletionGuard, hgrant, hcompleted, hflags.1 hactive]
  | resumed settled hpaused hsettle =>
      have hactive : hasStatus grant.statusMask statusActive = false :=
        Bool.eq_false_iff.mpr fun h => by simp [hflags.1 h] at hpaused
      obtain ⟨hmask, -⟩ := (settleGrant_eq_ok hsettle).of_not_active hactive
      refine Iff.trans (Optimized.completionKept_iff (if_pos rfl) hsettle) ?_
      simp [Call.CompletionGuard, hmask]
  | flagged flagsToSet flagsToClear settled hvalid hsettle =>
      obtain ⟨hc, -⟩ := validateStatusTransition_open hvalid
      obtain ⟨-, -, -, hcompleted⟩ := (settleGrant_eq_ok hsettle).flags
      refine Iff.trans (Optimized.completionKept_iff (if_pos rfl) hsettle) ?_
      simp [Call.CompletionGuard, hgrant, hcompleted, hc]
  | expired _ hcall settled hexpired hsettle =>
      have hts : call.settles grantId grant env.timestamp = some grant.cancelSettleTs := by
        cases call with
        | getGrant | claimableBitmask | processMilestoneExpiry =>
            cases hcall
            exact if_pos ⟨rfl, hexpired⟩
        | _ => cases hcall
      have hfree : call.CompletionGuard env := by
        cases call with
        | getGrant | claimableBitmask | processMilestoneExpiry => trivial
        | _ => cases hcall
      refine iff_of_true ?_ hfree
      rw [Optimized.completionKept_iff hts hsettle]
      simp [Grant.autoCancelled]
  | withdrawn amount settled hpos hactive hsettle hle =>
      refine iff_of_true ?_ trivial
      refine Iff.mpr (Optimized.completionKept_iff (if_pos rfl) hsettle) ?_
      unfold Grant.paid
      dsimp only
      split <;> simp
  | rateUpdated _ settled _ hsettle | clawedBack settled hsettle =>
      refine iff_of_true ?_ trivial
      refine Iff.mpr (Optimized.completionKept_iff (if_pos rfl) hsettle) ?_
      exact id
  | deadlineSet | oraclesConfigured | evidenceSubmitted | markedMet | approved =>
      refine iff_of_true (fun ts hts => ?_) trivial
      cases hts
  | rageQuit settled hpaused hsettle =>
      refine iff_of_true (fun _ _ _ _ _ => ?_) trivial
      simp [Grant.quit]
  | selfTerminated settled heligible hsettle =>
      refine iff_of_true ?_ trivial
      refine Iff.mpr (Optimized.completionKept_iff (if_pos rfl) hsettle) ?_
      simp

/-- A transition settles no other grant. -/
theorem Transition.settles_other (h : Transition host env grantId grant call grant')
    {other : Nat} (hother : other ≠ grantId) (g : Grant) (now : Nat) :
    call.settles other g now = none := by
  have hne : grantId ≠ other := hother.symm
  cases h with
  | expired _ hcall =>
      cases call with
      | getGrant | claimableBitmask | processMilestoneExpiry =>
          cases hcall
          exact if_neg fun ⟨hid, _⟩ => hne hid
      | _ => cases hcall
  | deadlineSet | oraclesConfigured | evidenceSubmitted | markedMet | approved => rfl
  | _ => exact if_neg hne

/-! ### One call -/

section Calls

variable {grants : Nat → Option Grant}

theorem Effect.atMostOneStatus_iff (h : Effect host env call grants)
    (hone : ∀ grantId grant, env.store.grants grantId = some grant →
      AtMostOneStatus grant.statusMask) :
    (∀ grantId grant, grants grantId = some grant → AtMostOneStatus grant.statusMask) ↔
      call.StatusGuard env := by
  cases h with
  | initialized admin hcall hgrants =>
      rw [hcall, hgrants]
      exact iff_of_true hone trivial
  | unexpired target grant hcall hgrant hlive hgrants =>
      have hguard : call.StatusGuard env := by
        cases call with
        | getGrant | claimableBitmask | processMilestoneExpiry =>
            cases hcall
            intro g hg hexpired
            cases hgrant.symm.trans hg
            exact absurd hexpired hlive
        | _ => cases hcall
      rw [hgrants]
      exact iff_of_true hone hguard
  | created target recipient totalAmount flowRate mask hcall _ _ _ hgrants =>
      rw [hcall, hgrants]
      constructor
      · intro hall
        exact hall target _ (Function.update_self ..)
      · intro hguard grantId grant hgrant
        by_cases hid : grantId = target
        · rw [hid, Function.update_self] at hgrant
          cases hgrant
          exact hguard
        · rw [Function.update_of_ne hid] at hgrant
          exact hone grantId grant hgrant
  | moved target before after hbefore htransition hgrants =>
      rw [hgrants, ← htransition.atMostOneStatus_iff hbefore (hone target before hbefore)]
      constructor
      · intro hall
        exact hall target _ (Function.update_self ..)
      · intro hafter grantId grant hgrant
        by_cases hid : grantId = target
        · rw [hid, Function.update_self] at hgrant
          cases hgrant
          exact hafter
        · rw [Function.update_of_ne hid] at hgrant
          exact hone grantId grant hgrant

theorem GrantEffect.statusKept (h : GrantEffect host env call grantId grant')
    (hgrant : env.store.grants grantId = some grant) (hone : AtMostOneStatus grant.statusMask)
    (hnonneg : 0 ≤ grant.claimable) : StatusKept grant grant' := by
  cases h with
  | untouched _ hgrant' _ =>
      cases hgrant.symm.trans hgrant'
      exact .of_mask hone rfl le_rfl
  | created _ _ _ _ _ hnone => cases hgrant.symm.trans hnone
  | moved _ _ hbefore htransition =>
      cases hgrant.symm.trans hbefore
      exact htransition.statusKept hone hnonneg

theorem Effect.completionKept_iff (h : Effect host env call grants)
    (hone : ∀ grantId grant, env.store.grants grantId = some grant →
      AtMostOneStatus grant.statusMask) (hguard : call.StatusGuard env) :
    (∀ grantId grant grant', env.store.grants grantId = some grant →
      grants grantId = some grant' → CompletionKept env call grantId grant grant') ↔
      call.CompletionGuard env := by
  cases h with
  | initialized admin hcall hgrants =>
      rw [hcall]
      refine iff_of_true (fun _ _ _ _ _ ts hts => ?_) trivial
      cases hts
  | unexpired target grant hcall hgrant hlive hgrants =>
      have hfree : call.CompletionGuard env := by
        cases call with
        | getGrant | claimableBitmask | processMilestoneExpiry => trivial
        | _ => cases hcall
      refine iff_of_true (fun grantId g g' hg _ ts hts => ?_) hfree
      have hnever : ¬(target = grantId ∧ Expired g env.timestamp) := by
        rintro ⟨rfl, hexpired⟩
        cases hgrant.symm.trans hg
        exact hlive hexpired
      have hsettles : call.settles grantId g env.timestamp = none := by
        cases call with
        | getGrant | claimableBitmask | processMilestoneExpiry =>
            cases hcall
            exact if_neg hnever
        | _ => cases hcall
      cases hsettles.symm.trans hts
  | created target recipient totalAmount flowRate mask hcall _ _ _ hgrants =>
      rw [hcall]
      refine iff_of_true (fun _ _ _ _ _ ts hts => ?_) trivial
      cases hts
  | moved target before after hbefore htransition hgrants =>
      rw [hgrants, ← htransition.completionKept_iff hbefore (hone target before hbefore) hguard]
      constructor
      · intro hall
        exact hall target before after hbefore (Function.update_self ..)
      · intro hkept grantId g g' hg hg'
        by_cases hid : grantId = target
        · subst hid
          rw [Function.update_self] at hg'
          cases hg'
          cases hbefore.symm.trans hg
          exact hkept
        · intro ts hts
          cases (htransition.settles_other hid g env.timestamp).symm.trans hts

end Calls

/-! ### Runs -/

/-- The flags of a life are apart in every grant, and no step has taken anything back from a
closed grant, reopened it or let it accrue. -/
structure StatusesKept (trace : Trace) (env : Env) : Prop where
  atMostOne : ∀ grantId grant, env.store.grants grantId = some grant →
    AtMostOneStatus grant.statusMask
  kept : ∀ e ∈ trace, ∀ grantId grant grant', e.before.store.grants grantId = some grant →
    e.after.store.grants grantId = some grant' → StatusKept grant grant'

/-- The step keeps every completion by a settlement. -/
def CompletionsKept (host : Host) (e : Step) : Prop :=
  ∀ call ∈ Ledger.called (contract host) e, ∀ grantId grant grant',
    e.before.store.grants grantId = some grant → e.after.store.grants grantId = some grant' →
      CompletionKept (e.before.enter e.action) call grantId grant grant'

/-- The call of the step, if it goes through, meets `StatusGuard`. -/
def StatusGuarded (host : Host) (e : Step) : Prop :=
  ∀ call ∈ Ledger.called (contract host) e, call.StatusGuard (e.before.enter e.action)

def CompletionGuarded (host : Host) (e : Step) : Prop :=
  ∀ call ∈ Ledger.called (contract host) e, call.CompletionGuard (e.before.enter e.action)

instance (host : Host) (e : Step) : Decidable (StatusGuarded host e) :=
  inferInstanceAs (Decidable (∀ call ∈ Ledger.called (contract host) e, _))

instance (host : Host) (e : Step) : Decidable (CompletionGuarded host e) :=
  inferInstanceAs (Decidable (∀ call ∈ Ledger.called (contract host) e, _))

section Steps

variable {trace older : Trace} {e : Step}

theorem claimable_nonneg_of_reachable (h : Ledger.Reachable (contract host) trace env)
    (hgrant : env.store.grants grantId = some grant) : 0 ≤ grant.claimable := by
  refine Ledger.store_invariant (I := fun store => ∀ grantId grant,
    store.grants grantId = some grant → 0 ≤ grant.claimable) ?_ ?_ h grantId grant hgrant
  · intro grantId grant hgrant
    cases hgrant
  · intro env result call hexec _ ih id g hg
    have heffect : Effect host env call result.store.grants := exec_effect hexec
    cases heffect.grantEffect hg with
    | untouched _ hg _ => exact ih id g hg
    | created => exact le_rfl
    | moved before _ hbefore htransition =>
        exact htransition.claimable_nonneg (ih id before hbefore)

/-- A step from a state in which all went well. -/
theorem statusesKept_iff (h : Ledger.Reachable (contract host) older e.before)
    (hn : Ledger.Next (contract host) e.before e.action e.after)
    (hI : StatusesKept older e.before) :
    (StatusesKept (e :: older) e.after ↔ StatusGuarded host e) ∧
      (StatusGuarded host e → (CompletionsKept host e ↔ CompletionGuarded host e)) := by
  rcases effect_of_next hn with ⟨hcalled, hstore⟩ | ⟨call, hcalled, heffect⟩
  · refine ⟨iff_of_true ⟨?_, ?_⟩ (fun call hcall => ?_), fun _ =>
      iff_of_true (fun call hcall => ?_) fun call hcall => ?_⟩
    · rw [hstore]
      exact hI.atMostOne
    · intro e' he'
      rcases List.mem_cons.mp he' with rfl | he'
      · intro grantId grant grant' hgrant hgrant'
        rw [hstore] at hgrant'
        cases hgrant.symm.trans hgrant'
        exact .of_mask (hI.atMostOne grantId grant hgrant) rfl le_rfl
      · exact hI.kept e' he'
    all_goals cases hcalled.symm.trans hcall
  · have hguarded : StatusGuarded host e ↔ call.StatusGuard (e.before.enter e.action) := by
      simp [StatusGuarded, hcalled]
    refine ⟨?_, fun hguard => ?_⟩
    · rw [hguarded, ← heffect.atMostOneStatus_iff hI.atMostOne]
      refine ⟨fun h => h.atMostOne, fun hone => ⟨hone, fun e' he' => ?_⟩⟩
      rcases List.mem_cons.mp he' with rfl | he'
      · intro grantId grant grant' hgrant hgrant'
        exact (heffect.grantEffect hgrant').statusKept hgrant (hI.atMostOne grantId grant hgrant)
          (claimable_nonneg_of_reachable h hgrant)
      · exact hI.kept e' he'
    · have hkept := heffect.completionKept_iff hI.atMostOne (hguarded.mp hguard)
      simp only [CompletionsKept, CompletionGuarded, hcalled, Option.mem_def, Option.some.injEq,
        forall_eq']
      exact hkept

theorem StatusesKept.of_deployed (h : Ledger.Deployed (contract host) env) :
    StatusesKept [] env := by
  obtain ⟨self, tokens, rfl⟩ := h
  refine ⟨fun grantId grant hgrant => ?_, fun e he => ?_⟩
  · cases hgrant
  · cases he

theorem statusesKept_of_guarded (h : Ledger.Reachable (contract host) trace env)
    (hguarded : Run.Each (fun e _ => StatusGuarded host e) trace) : StatusesKept trace env := by
  induction h with
  | start h => exact .of_deployed h
  | @step trace env event env' hrun hn ih =>
      have hstep := statusesKept_iff (e := ⟨env, event, env'⟩) hrun hn (ih hguarded.2)
      exact hstep.1.mpr hguarded.1

end Steps

/-- **Status machine of a grant.** In every run, the flags of a life stay apart and a closed
grant stays closed exactly if every call meets `StatusGuard`; and in addition no settlement
that completes a grant is undone exactly if every call also meets `CompletionGuard`. -/
theorem status_mask_machine (host : Host) {trace : Trace} {env : Env}
    (h : Ledger.Reachable (contract host) trace env) :
    (Run.Each (fun e older => StatusesKept (e :: older) e.after) trace ↔
      Run.Each (fun e _ => StatusGuarded host e) trace) ∧
    (Run.Each (fun e older => StatusesKept (e :: older) e.after ∧ CompletionsKept host e) trace ↔
      Run.Each (fun e _ => StatusGuarded host e ∧ CompletionGuarded host e) trace) := by
  have hstatus : Run.Each (fun e older => StatusesKept (e :: older) e.after) trace ↔
      Run.Each (fun e _ => StatusGuarded host e) trace :=
    Run.each_iff_of_step (fun _ => .of_deployed) (fun hrun hn hI => (statusesKept_iff hrun hn hI).1)
      h
  refine ⟨hstatus, ?_⟩
  rw [Run.each_and, Run.each_and, hstatus]
  refine and_congr_right fun hguarded => ?_
  refine Run.each_iff (c := fun e older => Run.Each (fun e _ => StatusGuarded host e) (e :: older))
    h (Run.each_imp h hguarded fun _ hall => hall) ?_
  intro e older hrun hall
  obtain ⟨holder, hn, -⟩ := hrun.uncons
  exact (statusesKept_iff holder hn (statusesKept_of_guarded holder hall.2)).2 hall.1

/-- A grant is paused and resumed, its grantee withdraws and then quits; another grant is
cancelled by its flags. -/
theorem status_mask_machine_of_quit_grant :
    let run := Ledger.history (contract Demo.host) Demo.env (Demo.setUp ++
      [Demo.call 10 (.pauseGrant 7), Demo.call 20 (.resumeGrant 7), Demo.call 30 (.withdraw 7 5),
        Demo.call 40 (.pauseGrant 7), Demo.call 50 (.rageQuit 7),
        Demo.call 50 (.createGrant 8 Demo.grantee 1000 1 statusActive),
        Demo.call 60 (.setGrantFlags 8 statusCancelled statusActive),
        Demo.call 70 (.resumeGrant 8)])
    Run.Each (fun e older => StatusesKept (e :: older) e.after ∧ CompletionsKept Demo.host e)
      run.1 := by
  intro run
  have hrun : Ledger.Reachable (contract Demo.host) run.1 run.2 :=
    Ledger.history_reachable _ Demo.env_deployed (by decide)
  exact (status_mask_machine Demo.host hrun).2.mpr (by decide)

/-- A grant that is cancelled while it is active is active and cancelled. -/
theorem status_mask_machine_cancelled_grant :
    ¬∀ trace env, Ledger.Reachable (contract Demo.host) trace env → StatusesKept trace env := by
  intro h
  let run := Ledger.history (contract Demo.host) Demo.env
    (Demo.setUp ++ [Demo.call 10 (.cancelGrantBitmask 7)])
  have hrun : Ledger.Reachable (contract Demo.host) run.1 run.2 :=
    Ledger.history_reachable _ Demo.env_deployed (by decide)
  have hone := (h _ _ hrun).atMostOne 7 _ rfl
  exact absurd hone (by decide)

end YieldTrust.Optimized
