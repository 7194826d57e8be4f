import YieldTrust.GrantStream.Regions

/-!
# YieldTrust.GrantStream.Tombstones

The contract writes tombstones and never reads one: two environments that differ
in nothing else are told apart by no call and by no sequence of events.
-/

namespace YieldTrust.GrantStream

open Fallible

/-- Replace all tombstones. -/
def Env.withTombstones (env : Env) (tombstone : Nat → Option Bytes) : Env := { env with tombstone }

/-- The environments differ in their tombstones only. -/
def SameButTombstones (env env' : Env) : Prop :=
  ∃ tombstone, env' = env.withTombstones tombstone

/-! ### Calls with transfers or branches -/

section

variable {env : Env} (t : Nat → Option Bytes)

theorem updateAuditLeaf_withTombstones (grantId : Nat) (balance : Int) :
    AuditLog.updateAuditLeaf (env.withTombstones t) grantId balance =
      AuditLog.updateAuditLeaf env grantId balance := by
  refine AuditLog.updateAuditLeaf_congr ?_ ?_ grantId balance <;> rfl

theorem transfer_alike {token source target : Address} {amount : Int} :
    Alike SameButTombstones (env.transfer token source target amount)
      ((env.withTombstones t).transfer token source target amount) :=
  .seq fun _ => .pure ⟨t, rfl⟩

theorem payBounty_alike {target : Address} {bounty : Int} :
    Alike SameButTombstones (payBounty env target bounty)
      (payBounty (env.withTombstones t) target bounty) :=
  .seq fun _ => .ite (transfer_alike t) (.pure ⟨t, rfl⟩)

theorem payWithdrawal_alike {grantId : Nat} {grant : Grant} {amount : Int} :
    Alike SameButTombstones (payWithdrawal env grantId grant amount)
      (payWithdrawal (env.withTombstones t) grantId grant amount) := by
  refine .seq fun velocity => .seq fun tokenAddr => .bind (transfer_alike t) ?_
  rintro env₁ _ ⟨t, rfl⟩
  have hrecord : recordClaimValue (env₁.withTombstones t) grantId grant.recipient tokenAddr amount =
      (recordClaimValue env₁ grantId grant.recipient tokenAddr amount).withTombstones t := rfl
  rw [hrecord]
  generalize recordClaimValue env₁ grantId grant.recipient tokenAddr amount = env₂
  refine .seq fun _ => .pure ⟨t, ?_⟩
  have hflow : (env₂.withTombstones t).setFlowHistory (TaxReporting.recordFlow
      (env₂.withTombstones t) grant.recipient grant.withdrawn) = (env₂.setFlowHistory
        (TaxReporting.recordFlow env₂ grant.recipient grant.withdrawn)).withTombstones t := rfl
  rw [hflow, updateAuditLeaf_withTombstones]
  rfl

theorem withdraw_alike {grantId : Nat} {amount : Int} :
    Alike SameButTombstones (withdraw env grantId amount)
      (withdraw (env.withTombstones t) grantId amount) := by
  iterate 8 refine .seq fun _ => ?_
  exact payWithdrawal_alike t

theorem confidentialClaim_alike {grantId : Nat} {claimAmount : Int} {nullifier proof : Bytes} :
    Alike SameButTombstones (confidentialClaim env grantId claimAmount nullifier proof)
      (confidentialClaim (env.withTombstones t) grantId claimAmount nullifier proof) := by
  iterate 6 refine .seq fun _ => ?_
  exact transfer_alike t

theorem cancelGrant_alike {grantId : Nat} :
    Alike SameButTombstones (cancelGrant env grantId)
      (cancelGrant (env.withTombstones t) grantId) := by
  iterate 8 refine .seq fun _ => ?_
  exact .ite (.seq fun _ => .seq fun _ => transfer_alike t) (.pure ⟨t, rfl⟩)

theorem executeProtectedClawback_alike {actionId grantId : Nat} :
    Alike SameButTombstones (executeProtectedClawback env actionId grantId)
      (executeProtectedClawback (env.withTombstones t) actionId grantId) := by
  iterate 4 refine .seq fun _ => ?_
  exact cancelGrant_alike t

theorem payValidator_alike {tokenAddr : Address} {validator : Option Address} {amount : Int} :
    Alike SameButTombstones (payValidator env tokenAddr validator amount)
      (payValidator (env.withTombstones t) tokenAddr validator amount) := by
  cases validator with
  | none => exact .pure ⟨t, rfl⟩
  | some validatorAddr => exact .ite (transfer_alike t) (.pure ⟨t, rfl⟩)

theorem payRageQuit_alike {grant : Grant} {claimAmount validatorAmount remaining : Int} :
    Alike SameButTombstones (payRageQuit env grant claimAmount validatorAmount remaining)
      (payRageQuit (env.withTombstones t) grant claimAmount validatorAmount remaining) := by
  refine .seq fun tokenAddr => .bind (transfer_alike t) ?_
  rintro env₁ _ ⟨t, rfl⟩
  refine .bind (payValidator_alike t) ?_
  rintro env₂ _ ⟨t, rfl⟩
  exact .ite (.seq fun _ => transfer_alike t) (.pure ⟨t, rfl⟩)

theorem rageQuit_alike {grantId : Nat} :
    Alike SameButTombstones (rageQuit env grantId) (rageQuit (env.withTombstones t) grantId) := by
  iterate 8 refine .seq fun _ => ?_
  exact payRageQuit_alike t

theorem proposeRateChange_alike {grantId : Nat} {newRate : Int} :
    Alike SameButTombstones (proposeRateChange env grantId newRate)
      (proposeRateChange (env.withTombstones t) grantId newRate) := by
  iterate 5 refine .seq fun _ => ?_
  refine .ite ?_ ?_
  all_goals
    repeat refine .seq fun _ => ?_
    exact .pure ⟨t, rfl⟩

theorem applyKpiMultiplier_alike {grantId : Nat} {multiplier : Int} :
    Alike SameButTombstones (applyKpiMultiplier env grantId multiplier)
      (applyKpiMultiplier (env.withTombstones t) grantId multiplier) := by
  iterate 7 refine .seq fun _ => ?_
  refine .ite ?_ ?_
  all_goals
    repeat refine .seq fun _ => ?_
    exact .pure ⟨t, rfl⟩

theorem withdrawValidator_alike {grantId : Nat} {amount : Int} :
    Alike SameButTombstones (withdrawValidator env grantId amount)
      (withdrawValidator (env.withTombstones t) grantId amount) := by
  iterate 9 refine .seq fun _ => ?_
  refine .bind (transfer_alike t) ?_
  rintro env₁ _ ⟨t, rfl⟩
  exact .seq fun _ => .pure ⟨t, rfl⟩

theorem triggerGrantClawback_alike {grantId : Nat} {reason : String} {contested : Bool} :
    Alike SameButTombstones (triggerGrantClawback env grantId reason contested)
      (triggerGrantClawback (env.withTombstones t) grantId reason contested) := by
  iterate 7 refine .seq fun _ => ?_
  refine .ite (.seq fun _ => .seq fun _ => .pure ⟨t, rfl⟩) (.seq fun _ => ?_)
  refine .ite (.seq fun _ => .pure ⟨t, rfl⟩) (.seq fun donorAddress => .bind (transfer_alike t) ?_)
  rintro env₁ _ ⟨t, rfl⟩
  exact .seq fun _ => .pure ⟨t, rfl⟩

theorem resolveDisputedClawback_alike {grantId : Nat} {releaseToDonor : Bool} :
    Alike SameButTombstones (resolveDisputedClawback env grantId releaseToDonor)
      (resolveDisputedClawback (env.withTombstones t) grantId releaseToDonor) := by
  iterate 6 refine .seq fun _ => ?_
  refine .ite (.seq fun _ => .bind (transfer_alike t) ?_)
    (.seq fun _ => .seq fun _ => .bind (transfer_alike t) ?_)
  all_goals
    rintro env₁ _ ⟨t, rfl⟩
    exact .pure ⟨t, rfl⟩

theorem rescueTokens_alike {tokenAddress target : Address} {amount : Int} :
    Alike SameButTombstones (rescueTokens env tokenAddress amount target)
      (rescueTokens (env.withTombstones t) tokenAddress amount target) := by
  iterate 3 refine .seq fun _ => ?_
  refine .ite ?_ ?_
  all_goals
    iterate 3 refine .seq fun _ => ?_
    exact transfer_alike t

theorem triggerGrantDispute_alike {grantId : Nat} :
    Alike SameButTombstones (triggerGrantDispute env grantId)
      (triggerGrantDispute (env.withTombstones t) grantId) :=
  .seq fun _ => .ite (.pure ⟨t, rfl⟩) (.seq fun _ => .pure ⟨t, rfl⟩)

theorem executeRescue_alike {caller tokenAddress : Address} {proposalId : Nat} :
    Alike SameButTombstones (executeRescue env caller proposalId tokenAddress)
      (executeRescue (env.withTombstones t) caller proposalId tokenAddress) :=
  .seq fun _ => transfer_alike t

end

/-! ### No call reads a tombstone -/

/-- **Tombstones are not read.** A call ends alike in both environments. -/
theorem exec_alike (env : Env) (t : Nat → Option Bytes) (call : Call) :
    Alike SameButTombstones (call.exec env) (call.exec (env.withTombstones t)) := by
  cases call
  case confidentialClaim => exact confidentialClaim_alike t
  case withdraw => exact withdraw_alike t
  case proposeRateChange => exact proposeRateChange_alike t
  case applyKpiMultiplier => exact applyKpiMultiplier_alike t
  case rageQuit => exact rageQuit_alike t
  case cancelGrant => exact cancelGrant_alike t
  case triggerGrantClawback => exact triggerGrantClawback_alike t
  case resolveDisputedClawback => exact resolveDisputedClawback_alike t
  case rescueTokens => exact rescueTokens_alike t
  case triggerGrantDispute => exact triggerGrantDispute_alike t
  case withdrawValidator => exact withdrawValidator_alike t
  case executeRescue => exact executeRescue_alike t
  case executeProtectedClawback => exact executeProtectedClawback_alike t
  case submitMilestoneProof =>
    iterate 6 refine .seq fun _ => ?_
    refine .bind (transfer_alike t) ?_
    rintro env₁ _ ⟨t, rfl⟩
    exact .seq fun _ => .pure ⟨t, rfl⟩
  case approveMilestoneSubmission | slashMsSubmissionDeposit =>
    iterate 4 refine .seq fun _ => ?_
    refine .bind (transfer_alike t) ?_
    rintro env₁ _ ⟨t, rfl⟩
    exact .pure ⟨t, rfl⟩
  case finalizeAndPurge =>
    iterate 4 refine .seq fun _ => ?_
    exact payBounty_alike t
  case pruneFinalizedGrant =>
    iterate 7 refine .seq fun _ => ?_
    exact payBounty_alike _
  case submitOraclePrice | checkRentBalance | heartbeatEmit | proposeRescue
    | createTimelockedAction | protectedClawback =>
    refine .map (R := fun a b => SameButTombstones a.1 b.1) ?_ fun _ _ h => h
    repeat refine .seq fun _ => ?_
    exact .pure ⟨t, rfl⟩
  all_goals
    repeat refine .seq fun _ => ?_
    exact .pure ⟨t, rfl⟩

theorem enter_withTombstones (env : Env) (t : Nat → Option Bytes) (event : Event) :
    (env.withTombstones t).enter event = (env.enter event).withTombstones t := rfl

theorem execute_alike {env env' : Env} (h : SameButTombstones env env') (event : Event) :
    SameButTombstones (execute env event) (execute env' event) := by
  obtain ⟨t, rfl⟩ := h
  unfold execute Transaction.exec
  rw [enter_withTombstones]
  cases event.transaction with
  | invoke auths call =>
      dsimp only
      have halike := exec_alike (env.enter event) t call
      generalize call.exec (env.enter event) = result at halike ⊢
      generalize call.exec ((env.enter event).withTombstones t) = result' at halike ⊢
      cases halike with
      | ok h => exact h
      | error => exact ⟨t, rfl⟩
  | tokenTransfer | tokenMint | nullifierExpiry => exact ⟨t, rfl⟩

/-- The same events lead to the same environment, but for tombstones. -/
theorem history_alike {env env' : Env} (h : SameButTombstones env env') (events : List Event) :
    SameButTombstones (history env events).2 (history env' events).2 := by
  suffices hfrom : ∀ tr tr' : Trace, SameButTombstones (Run.replayFrom execute tr env events).2
      (Run.replayFrom execute tr' env' events).2 from hfrom [] []
  induction events generalizing env env' with
  | nil => exact fun _ _ => h
  | cons event events ih => exact fun _ _ => ih (execute_alike h event) _ _

end YieldTrust.GrantStream
