import YieldTrust.Optimized.Expiry

/-!
# YieldTrust.Optimized.Completion

The **completion of a grant**. A grant is completed when everything has accrued, not when
everything is withdrawn, and a completed grant is not active: what is claimable then can not be
withdrawn any more.
-/

namespace YieldTrust.Optimized

open Fallible
open GrantStream (Address Bytes)

variable {host : Host} {env : Env} {grant grant' settled : Grant} {grantId now : Nat} {call : Call}

/-! ### Completion -/

/-- The call settles the grant to completion or withdraws from it when everything has accrued,
and stores that it is completed. -/
def Call.Completes (grantId : Nat) (grant : Grant) (now : Nat) : Call → Prop
  | .withdraw id _ => id = grantId ∧ grant.earnedBy now = grant.totalAmount
  | .getGrant id | .claimableBitmask id | .processMilestoneExpiry id =>
      id = grantId ∧ Expired grant now ∧ grant.AccruedBy grant.cancelSettleTs
  | .updateRate id _ | .clawbackMilestone id | .rageQuit id | .selfTerminate id =>
      id = grantId ∧ grant.AccruedBy now
  | _ => False

instance decidableCompletes (grantId : Nat) (grant : Grant) (now : Nat) :
    (call : Call) → Decidable (call.Completes grantId grant now)
  | .withdraw _ _ => inferInstanceAs (Decidable (_ ∧ _))
  | .getGrant _ | .claimableBitmask _ | .processMilestoneExpiry _ =>
      inferInstanceAs (Decidable (_ ∧ Expired grant now ∧ grant.AccruedBy grant.cancelSettleTs))
  | .updateRate _ _ | .clawbackMilestone _ | .rageQuit _ | .selfTerminate _ =>
      inferInstanceAs (Decidable (_ ∧ grant.AccruedBy now))
  | .initializeContract _ | .createGrant _ _ _ _ _ | .cancelGrantBitmask _ | .pauseGrant _
  | .resumeGrant _ | .setGrantFlags _ _ _ | .setMilestoneDeadline _ _
  | .configureMilestoneOracles _ _ _ _ | .submitMilestoneEvidence _ _ | .approveMilestone _ _ _
  | .markMilestoneMet _ => inferInstanceAs (Decidable False)

/-- The condition on a call that completes the grant under which it leaves nothing claimable. -/
def Call.LeavesNothing (grant : Grant) : Call → Prop
  | .withdraw _ amount => amount = grant.totalAmount - grant.withdrawn
  | .getGrant _ | .claimableBitmask _ | .processMilestoneExpiry _ | .updateRate _ _
  | .selfTerminate _ => grant.withdrawn = grant.totalAmount
  | _ => True

instance decidableLeavesNothing (grant : Grant) :
    (call : Call) → Decidable (call.LeavesNothing grant)
  | .withdraw _ _ => inferInstanceAs (Decidable (_ = _))
  | .getGrant _ | .claimableBitmask _ | .processMilestoneExpiry _ | .updateRate _ _
  | .selfTerminate _ => inferInstanceAs (Decidable (grant.withdrawn = grant.totalAmount))
  | .initializeContract _ | .createGrant _ _ _ _ _ | .cancelGrantBitmask _ | .pauseGrant _
  | .resumeGrant _ | .setGrantFlags _ _ _ | .setMilestoneDeadline _ _
  | .configureMilestoneOracles _ _ _ _ | .submitMilestoneEvidence _ _ | .approveMilestone _ _ _
  | .markMilestoneMet _ | .clawbackMilestone _ | .rageQuit _ => inferInstanceAs (Decidable True)

/-- A call that completes the grant settles it. -/
theorem Call.Completes.settles (h : call.Completes grantId grant now) :
    ∃ ts, call.settles grantId grant now = some ts := by
  cases call with
  | withdraw | updateRate | clawbackMilestone | rageQuit | selfTerminate =>
      exact ⟨now, if_pos h.1⟩
  | getGrant | claimableBitmask | processMilestoneExpiry =>
      exact ⟨grant.cancelSettleTs, if_pos ⟨h.1, h.2.1⟩⟩
  | _ => cases h

theorem Grant.AccruedBy.earnedBy_eq (h : grant.AccruedBy now) :
    grant.earnedBy now = grant.totalAmount := by
  obtain ⟨hactive, -, -, hall⟩ := h
  rw [Grant.earnedBy_of_active hactive]
  unfold Grant.accounted
  omega

/-- What a settlement to completion leaves. -/
theorem Settlement.completed_of_accruedBy (h : Settlement grant now settled)
    (hgrant : grant.WellFormed) (hall : grant.AccruedBy now) :
    hasStatus settled.statusMask statusCompleted = true ∧
      hasStatus settled.statusMask statusActive = false ∧
      settled.claimable = grant.totalAmount - grant.withdrawn := by
  obtain ⟨-, -, hactive, hcompleted⟩ := h.flags
  have haccounted := h.accounted_eq hgrant
  rw [hall.earnedBy_eq, Grant.accounted, h.withdrawn_eq] at haccounted
  refine ⟨?_, ?_, by omega⟩
  · simp [hcompleted, hall]
  · simp [hactive, hall]

/-- A transition that completes the grant leaves it completed and not active, and nothing
claimable exactly if `LeavesNothing` holds. -/
theorem Transition.completes_spec (h : Transition host env grantId grant call grant')
    (hgrant : grant.WellFormed) (hcompletes : call.Completes grantId grant env.timestamp) :
    hasStatus grant'.statusMask statusCompleted = true ∧
      hasStatus grant'.statusMask statusActive = false ∧
      (grant'.claimable = 0 ↔ call.LeavesNothing grant) := by
  cases h with
  | withdrawn amount settled hpos hactive hsettle hle =>
      have hsettlement := settleGrant_eq_ok hsettle
      have haccounted := hsettlement.accounted_eq hgrant
      rw [hcompletes.2] at haccounted
      have htotal := hsettlement.totalAmount_eq
      have hwithdrawn := hsettlement.withdrawn_eq
      unfold Grant.accounted at haccounted
      have hfull : settled.withdrawn + amount + (settled.claimable - amount) =
          settled.totalAmount := by omega
      unfold Grant.paid Call.LeavesNothing
      rw [if_pos hfull]
      refine ⟨by simp, by simp, ?_⟩
      dsimp only
      omega
  | expired _ hcall settled hexpired hsettle =>
      have hall : grant.AccruedBy grant.cancelSettleTs := by
        cases call with
        | getGrant | claimableBitmask | processMilestoneExpiry => exact hcompletes.2.2
        | _ => cases hcall
      have hleaves : call.LeavesNothing grant ↔ grant.withdrawn = grant.totalAmount := by
        cases call with
        | getGrant | claimableBitmask | processMilestoneExpiry => exact Iff.rfl
        | _ => cases hcall
      obtain ⟨hcompleted, -, hclaimable⟩ :=
        (settleGrant_eq_ok hsettle).completed_of_accruedBy hgrant hall
      rw [hleaves]
      refine ⟨by simp [Grant.autoCancelled, hcompleted], autoCancelled_not_active settled, ?_⟩
      rw [Grant.autoCancelled, hclaimable]
      omega
  | rateUpdated newRate settled _ hsettle =>
      obtain ⟨hcompleted, hactive, hclaimable⟩ :=
        (settleGrant_eq_ok hsettle).completed_of_accruedBy hgrant hcompletes.2
      refine ⟨hcompleted, hactive, ?_⟩
      rw [hclaimable, Call.LeavesNothing]
      omega
  | selfTerminated settled _ hsettle =>
      obtain ⟨hcompleted, hactive, hclaimable⟩ :=
        (settleGrant_eq_ok hsettle).completed_of_accruedBy hgrant hcompletes.2
      refine ⟨by simp [hcompleted], by simp, ?_⟩
      rw [hclaimable, Call.LeavesNothing]
      omega
  | clawedBack settled hsettle =>
      obtain ⟨hcompleted, hactive, -⟩ :=
        (settleGrant_eq_ok hsettle).completed_of_accruedBy hgrant hcompletes.2
      exact ⟨hcompleted, hactive, iff_of_true rfl trivial⟩
  | rageQuit settled _ hsettle =>
      refine ⟨by simp [Grant.quit], by simp [Grant.quit], iff_of_true rfl trivial⟩
  | _ => cases hcompletes

/-- A grant becomes completed in no other way, unless the call itself sets the flag. -/
theorem Transition.completes_of_completed (h : Transition host env grantId grant call grant')
    (hgrant : grant.WellFormed) (hbefore : hasStatus grant.statusMask statusCompleted = false)
    (hafter : hasStatus grant'.statusMask statusCompleted = true) :
    call.Completes grantId grant env.timestamp ∨ call = .rageQuit grantId ∨
      ∃ flagsToSet flagsToClear, call = .setGrantFlags grantId flagsToSet flagsToClear := by
  have hall {settled : Grant} {ts : Nat} (hsettle : settleGrant grant ts = .ok settled)
      (hcompleted : hasStatus settled.statusMask statusCompleted = true) :
      grant.AccruedBy ts := by
    obtain ⟨-, -, -, hflag⟩ := (settleGrant_eq_ok hsettle).flags
    simpa [hcompleted, hbefore] using hflag
  cases h with
  | cancelled | paused | resumed => simp [hbefore] at hafter
  | flagged flagsToSet flagsToClear => exact .inr (.inr ⟨flagsToSet, flagsToClear, rfl⟩)
  | rageQuit => exact .inr (.inl rfl)
  | expired _ hcall settled hexpired hsettle =>
      have haccrued := hall hsettle (by simpa [Grant.autoCancelled] using hafter)
      refine .inl ?_
      cases call with
      | getGrant | claimableBitmask | processMilestoneExpiry =>
          cases hcall
          exact ⟨rfl, hexpired, haccrued⟩
      | _ => cases hcall
  | withdrawn amount settled _ _ hsettle =>
      have hsettlement := settleGrant_eq_ok hsettle
      refine .inl ⟨rfl, ?_⟩
      by_cases hfull : settled.withdrawn + amount + (settled.claimable - amount) =
          settled.totalAmount
      · rw [← hsettlement.accounted_eq hgrant, ← hsettlement.totalAmount_eq, Grant.accounted]
        omega
      · rw [Grant.paid, if_neg hfull] at hafter
        exact (hall hsettle hafter).earnedBy_eq
  | rateUpdated _ settled _ hsettle | clawedBack settled hsettle =>
      exact .inl ⟨rfl, hall hsettle hafter⟩
  | selfTerminated settled _ hsettle => exact .inl ⟨rfl, hall hsettle (by simpa using hafter)⟩
  | deadlineSet | oraclesConfigured | evidenceSubmitted | markedMet =>
      exact absurd (hbefore.symm.trans hafter) (by decide)
  | approved oracle =>
      have hsame : hasStatus (grant.approvedBy oracle).statusMask statusCompleted =
          hasStatus grant.statusMask statusCompleted := by
        unfold Grant.approvedBy
        split
        · dsimp only
          split <;> simp
        · rfl
      rw [hsame, hbefore] at hafter
      cases hafter

/-! ### Exhausted grants -/

/-- Nothing is claimable of the grant and nothing will be: all of it is withdrawn, or it is
completed for good. -/
structure Grant.Exhausted (grant : Grant) : Prop where
  claimable_eq : grant.claimable = 0
  final : grant.withdrawn = grant.totalAmount ∨
    hasStatus grant.statusMask statusCompleted = true ∧
      hasStatus grant.statusMask statusActive = false ∧
      hasStatus grant.statusMask statusPaused = false

/-- A settlement of an exhausted grant. -/
theorem Settlement.of_exhausted (h : Settlement grant now settled) (hgrant : grant.WellFormed)
    (hexhausted : grant.Exhausted) :
    settled.claimable = 0 ∧ (grant.withdrawn = grant.totalAmount ∨
      settled.statusMask = grant.statusMask) := by
  have hzero := hexhausted.claimable_eq
  rcases hexhausted.final with hall | ⟨-, hactive, -⟩
  · have hnonneg := h.claimable_nonneg hgrant.claimable_nonneg
    have hle := h.accounted_le hgrant.accounted_le
    rw [Grant.accounted, h.withdrawn_eq, h.totalAmount_eq] at hle
    exact ⟨by omega, .inl hall⟩
  · obtain ⟨hmask, -, hclaimable⟩ := h.of_not_active hactive
    exact ⟨hclaimable.trans hzero, .inr hmask⟩

/-- All of the grant is withdrawn, and it stays so. -/
theorem Transition.exhausted_of_withdrawn (h : Transition host env grantId grant call grant')
    (hgrant : grant.WellFormed) (hexhausted : grant.Exhausted)
    (hall : grant.withdrawn = grant.totalAmount) : grant'.Exhausted := by
  have hsettled {settled : Grant} {ts : Nat} (hsettle : settleGrant grant ts = .ok settled) :
      settled.claimable = 0 ∧ settled.withdrawn = settled.totalAmount := by
    have hsettlement := settleGrant_eq_ok hsettle
    refine ⟨(hsettlement.of_exhausted hgrant hexhausted).1, ?_⟩
    rw [hsettlement.withdrawn_eq, hsettlement.totalAmount_eq, hall]
  have hzero := hexhausted.claimable_eq
  cases h with
  | cancelled settled _ hsettle | paused settled _ hsettle | resumed settled _ hsettle
  | flagged _ _ settled _ hsettle | expired _ _ settled _ hsettle
  | rateUpdated _ settled _ hsettle | selfTerminated settled _ hsettle =>
      exact ⟨(hsettled hsettle).1, .inl (hsettled hsettle).2⟩
  | clawedBack settled hsettle => exact ⟨rfl, .inl (hsettled hsettle).2⟩
  | rageQuit settled _ hsettle =>
      obtain ⟨hclaimable, hwithdrawn⟩ := hsettled hsettle
      refine ⟨rfl, .inl ?_⟩
      dsimp only [Grant.quit]
      omega
  | withdrawn amount settled hpos _ hsettle hle =>
      have hclaimable := (hsettled hsettle).1
      omega
  | deadlineSet | oraclesConfigured | evidenceSubmitted | markedMet => exact ⟨hzero, .inl hall⟩
  | approved oracle =>
      obtain ⟨hwithdrawn, hclaimable, htotal, -⟩ := grant.approvedBy_balances oracle
      exact ⟨hclaimable.trans hzero, .inl (by rw [hwithdrawn, htotal, hall])⟩

/-- No transition takes an exhausted grant out of this state. -/
theorem Transition.exhausted (h : Transition host env grantId grant call grant')
    (hgrant : grant.WellFormed) (hexhausted : grant.Exhausted) : grant'.Exhausted := by
  rcases hexhausted.final with hall | ⟨hcompleted, hactive, hpaused⟩
  · exact h.exhausted_of_withdrawn hgrant hexhausted hall
  -- what is left are the calls that neither want the grant open nor open it
  have hzero := hexhausted.claimable_eq
  have hidle {settled : Grant} {ts : Nat} (hsettle : settleGrant grant ts = .ok settled) :=
    (settleGrant_eq_ok hsettle).of_not_active hactive
  have hclosed {mask : StatusMask}
      (hvalid : validateStatusTransition grant.statusMask mask = .ok ()) : False := by
    have hopen := (validateStatusTransition_open hvalid).1
    simp [hcompleted] at hopen
  cases h with
  | cancelled _ hvalid | flagged _ _ _ hvalid => exact (hclosed hvalid).elim
  | paused _ h | withdrawn _ _ _ h => simp [hactive] at h
  | resumed _ h | rageQuit _ h => simp [hpaused] at h
  | expired _ _ _ hexpired => simp [hexpired.not_completed] at hcompleted
  | rateUpdated _ settled _ hsettle hopen => simp [(hidle hsettle).1, hactive, hpaused] at hopen
  | selfTerminated _ heligible =>
      simp only [validateTerminationEligibility, bind_eq_ok, ensure_eq_ok] at heligible
      obtain ⟨_, -, _, hopen, -⟩ := heligible
      simp [hcompleted] at hopen
  | clawedBack settled hsettle =>
      refine ⟨rfl, .inr ?_⟩
      dsimp only
      rw [(hidle hsettle).1]
      exact ⟨hcompleted, hactive, hpaused⟩
  | deadlineSet | oraclesConfigured | evidenceSubmitted | markedMet =>
      exact ⟨hzero, .inr ⟨hcompleted, hactive, hpaused⟩⟩
  | approved oracle =>
      obtain ⟨-, hclaimable, -⟩ := grant.approvedBy_balances oracle
      refine ⟨hclaimable.trans hzero, .inr ?_⟩
      unfold Grant.approvedBy
      split
      · simp [hcompleted, hactive, hpaused]
      · exact ⟨hcompleted, hactive, hpaused⟩

/-- The condition on a call that completes the grant under which nobody can open it again with
something left to accrue. -/
def Call.ClosesGrant (grant : Grant) : Call → Prop
  | .clawbackMilestone _ =>
      grant.withdrawn = grant.totalAmount ∨ hasStatus grant.statusMask statusPaused = false
  | _ => True

instance decidableClosesGrant (grant : Grant) : (call : Call) → Decidable (call.ClosesGrant grant)
  | .clawbackMilestone _ =>
      inferInstanceAs (Decidable (_ ∨ hasStatus grant.statusMask statusPaused = false))
  | .initializeContract _ | .createGrant _ _ _ _ _ | .cancelGrantBitmask _ | .pauseGrant _
  | .resumeGrant _ | .setGrantFlags _ _ _ | .setMilestoneDeadline _ _
  | .configureMilestoneOracles _ _ _ _ | .submitMilestoneEvidence _ _ | .approveMilestone _ _ _
  | .markMilestoneMet _ | .getGrant _ | .claimableBitmask _ | .processMilestoneExpiry _
  | .withdraw _ _ | .updateRate _ _ | .rageQuit _ | .selfTerminate _ =>
      inferInstanceAs (Decidable True)

/-- A completion that leaves nothing and closes the grant exhausts it. -/
theorem Transition.exhausted_of_completes (h : Transition host env grantId grant call grant')
    (hgrant : grant.WellFormed) (hcompletes : call.Completes grantId grant env.timestamp)
    (hleaves : call.LeavesNothing grant) (hcloses : call.ClosesGrant grant) :
    grant'.Exhausted := by
  obtain ⟨hcompleted, hactive, hclaimable⟩ := h.completes_spec hgrant hcompletes
  refine ⟨hclaimable.mpr hleaves, ?_⟩
  cases h with
  | withdrawn amount settled hpos _ hsettle hle =>
      have hsettlement := settleGrant_eq_ok hsettle
      have hwithdrawn := hsettlement.withdrawn_eq
      have htotal := hsettlement.totalAmount_eq
      refine .inl ?_
      dsimp only [Grant.paid]
      simp only [Call.LeavesNothing] at hleaves
      omega
  | expired call hcall settled _ hsettle =>
      have hsettlement := settleGrant_eq_ok hsettle
      have hall : grant.withdrawn = grant.totalAmount := by
        cases call with
        | getGrant | claimableBitmask | processMilestoneExpiry => exact hleaves
        | _ => cases hcall
      exact .inl (hsettlement.withdrawn_eq.trans (hall.trans hsettlement.totalAmount_eq.symm))
  | rateUpdated _ settled _ hsettle | selfTerminated settled _ hsettle =>
      have hsettlement := settleGrant_eq_ok hsettle
      exact .inl (hsettlement.withdrawn_eq.trans (hleaves.trans hsettlement.totalAmount_eq.symm))
  | clawedBack settled hsettle =>
      have hsettlement := settleGrant_eq_ok hsettle
      rcases hcloses with hall | hpaused
      · exact .inl (hsettlement.withdrawn_eq.trans (hall.trans hsettlement.totalAmount_eq.symm))
      · exact .inr ⟨hcompleted, hactive, hsettlement.flags.1.trans hpaused⟩
  | rageQuit settled _ hsettle =>
      exact .inr ⟨hcompleted, hactive, by simp [Grant.quit]⟩
  | _ => cases hcompletes

/-- A call leaves an exhausted grant exhausted. -/
theorem Effect.exhausted {grants : Nat → Option Grant} (h : Effect host env call grants)
    (hgrant : env.store.grants grantId = some grant) (hwf : grant.WellFormed)
    (hexhausted : grant.Exhausted) :
    ∃ grant', grants grantId = some grant' ∧ grant'.Exhausted := by
  obtain ⟨grant', hgrant'⟩ := h.stored hgrant
  refine ⟨grant', hgrant', ?_⟩
  cases h.grantEffect hgrant' with
  | untouched _ hsame =>
      cases hgrant.symm.trans hsame
      exact hexhausted
  | created _ _ _ _ _ hnone => cases hgrant.symm.trans hnone
  | moved before _ hbefore htransition =>
      cases hgrant.symm.trans hbefore
      exact htransition.exhausted hwf hexhausted

/-- A call that completes a stored grant and goes through is a transition of it. -/
theorem Effect.transition_of_completes {grants : Nat → Option Grant}
    (h : Effect host env call grants) (hgrant : env.store.grants grantId = some grant)
    (hcompletes : call.Completes grantId grant env.timestamp) :
    ∃ grant', grants grantId = some grant' ∧ Transition host env grantId grant call grant' := by
  obtain ⟨ts, hts⟩ := hcompletes.settles
  exact h.transition_of_settles hgrant hts

/-! ### Withdrawals -/

/-- The recipient can withdraw all that is claimable, at some time from now on. -/
def CanWithdraw (env : Env) (grantId : Nat) (grant : Grant) : Prop :=
  ∃ timestamp auths env', env.timestamp ≤ timestamp ∧
    withdraw { env with timestamp, auths } grantId grant.claimable = .ok env'

/-- Only an active grant lets its recipient withdraw. -/
theorem not_canWithdraw (hgrant : env.store.grants grantId = some grant)
    (hactive : hasStatus grant.statusMask statusActive = false) :
    ¬CanWithdraw env grantId grant := by
  rintro ⟨timestamp, auths, env', -, hwithdraw⟩
  have heffect : Effect Demo.host _ (.withdraw grantId grant.claimable) env'.store.grants :=
    withdraw_effect hwithdraw
  generalize hstore : env'.store.grants = grants at heffect
  cases heffect with
  | initialized _ hcall | unexpired _ _ hcall | created _ _ _ _ _ hcall => cases hcall
  | moved _ before after hbefore htransition =>
      cases htransition with
      | withdrawn amount settled _ hopen =>
          cases hgrant.symm.trans hbefore
          simp [hactive] at hopen
      | expired _ hcall => cases hcall

end YieldTrust.Optimized
