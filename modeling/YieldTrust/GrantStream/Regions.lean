import YieldTrust.GrantStream.History

/-!
# YieldTrust.GrantStream.Regions

What a call leaves alone. The environment is divided into **regions** of storage,
`Call.writes` lists the regions that a call may write to, and `frame_of_exec` is
the one frame theorem of the contract: everything else is unchanged. What is
proved about one region (the council, the rescue multisig, the entries of a
grant) only looks at the calls that write to it.
-/

namespace YieldTrust.GrantStream

open Fallible

/-! ### Regions -/

inductive Region where
  /-- The time of the ledger, the caller, and what never changes. -/
  | ledger
  | tokens
  | config
  /-- The grants and `GrantIds`. -/
  | grants
  | recipientIndex
  | escrow
  | checkpoint
  | claims
  | milestones
  | tombstones
  | confidential
  | sep38
  | pauseReason
  | breakers
  | rescue
  | council
  /-- Tax records, audit log and dashboard. -/
  | reports
  deriving DecidableEq

/-- The two environments agree on the region. -/
def Region.Same (env env' : Env) : Region → Prop
  | .ledger => env'.timestamp = env.timestamp ∧ env'.sequence = env.sequence ∧
      env'.auths = env.auths ∧ env'.self = env.self ∧ env'.host = env.host
  | .tokens => env'.tokens = env.tokens
  | .config => env'.admin = env.admin ∧ env'.grantToken = env.grantToken ∧
      env'.treasury = env.treasury ∧ env'.oracle = env.oracle ∧
      env'.nativeToken = env.nativeToken
  | .grants => env'.grants = env.grants ∧ env'.grantIds = env.grantIds
  | .recipientIndex => env'.recipientGrants = env.recipientGrants
  | .escrow => env'.disputeEscrow = env.disputeEscrow
  | .checkpoint => env'.clawbackCheckpoint = env.clawbackCheckpoint
  | .claims => env'.claimValueCounter = env.claimValueCounter ∧ env'.claimValue = env.claimValue
  | .milestones => env'.milestone = env.milestone ∧
      env'.milestoneSubmitNonce = env.milestoneSubmitNonce ∧
      env'.milestoneSubmissionDeposit = env.milestoneSubmissionDeposit
  | .tombstones => env'.tombstone = env.tombstone
  | .confidential => env'.confidentialGrantRecipient = env.confidentialGrantRecipient ∧
      env'.confidentialGrantVerifierKeyHash = env.confidentialGrantVerifierKeyHash ∧
      env'.confidentialGrantCommitment = env.confidentialGrantCommitment ∧
      env'.confidentialNullifier = env.confidentialNullifier
  | .sep38 => env'.sep38DefaultFiat = env.sep38DefaultFiat ∧ env'.sep38Rate = env.sep38Rate
  | .pauseReason => env'.protocolPauseReason = env.protocolPauseReason
  | .breakers => env'.breakers = env.breakers
  | .rescue => env'.rescue = env.rescue
  | .council => env'.council = env.council
  | .reports => env'.flowHistory = env.flowHistory ∧ env'.audit = env.audit ∧
      env'.dashboard = env.dashboard

theorem Region.Same.refl (env : Env) (r : Region) : r.Same env env := by
  cases r <;> simp [Region.Same]

theorem Region.Same.trans {env env₁ env₂ : Env} {r : Region} (h : r.Same env env₁)
    (h' : r.Same env₁ env₂) : r.Same env env₂ := by
  cases r <;> simp_all [Region.Same]

/-- The environments agree outside the regions `rs`. -/
structure Frame (rs : List Region) (env env' : Env) : Prop where
  same : ∀ r, r ∉ rs → r.Same env env'

namespace Frame

variable {rs rs' : List Region} {env env₁ env₂ : Env}

theorem refl (rs : List Region) (env : Env) : Frame rs env env := ⟨fun r _ => .refl env r⟩

theorem trans (h : Frame rs env env₁) (h' : Frame rs env₁ env₂) : Frame rs env env₂ :=
  ⟨fun r hr => (h.same r hr).trans (h'.same r hr)⟩

theorem mono (h : Frame rs env env₁) (hsub : rs ⊆ rs') : Frame rs' env env₁ :=
  ⟨fun r hr => h.same r fun hmem => hr (hsub hmem)⟩

/-- What is written by one part and then by another. -/
theorem comp (h : Frame rs env env₁) (h' : Frame rs' env₁ env₂) : Frame (rs ++ rs') env env₂ :=
  (h.mono (List.subset_append_left rs rs')).trans (h'.mono (List.subset_append_right rs rs'))

end Frame

/-! ### The regions of each call -/

/-- The regions that a call may write to. -/
def Call.writes : Call → List Region
  | .initializeContract .. => [.config, .grants, .sep38]
  | .setSep38Rate .. => [.sep38]
  | .createGrant .. => [.grants, .recipientIndex]
  | .createConfidentialGrant .. => [.confidential]
  | .confidentialClaim .. => [.confidential, .tokens]
  | .withdraw .. => [.grants, .breakers, .tokens, .claims, .reports]
  | .pauseStream .. | .resumeStream .. | .proposeRateChange .. | .applyKpiMultiplier ..
  | .setLegalMetadata .. | .signLegalMetadata .. => [.grants]
  | .emergencyPause .. => [.pauseReason]
  | .rageQuit .. | .cancelGrant .. | .withdrawValidator .. => [.grants, .tokens]
  | .changeGrantee .. => [.grants, .recipientIndex]
  | .triggerGrantClawback .. => [.grants, .checkpoint, .escrow, .tokens]
  | .resolveDisputedClawback .. => [.grants, .escrow, .tokens]
  | .rescueTokens .. => [.tokens]
  | .setSanityOracle .. | .submitOraclePrice .. | .confirmOraclePrice .. | .updateTvlSnapshot ..
  | .checkRentBalance | .disableRentPreservationMode | .resumeAfterVelocityCheck
  | .triggerGrantDispute .. | .resumeGrantInitialization => [.breakers]
  | .submitMilestoneProof .. | .approveMilestoneSubmission .. | .slashMsSubmissionDeposit .. =>
      [.milestones, .tokens]
  | .finalizeAndPurge .. => [.grants, .recipientIndex, .tokens]
  | .pruneFinalizedGrant .. =>
      [.grants, .recipientIndex, .tombstones, .milestones, .claims, .tokens]
  | .heartbeatEmit .. => [.reports]
  | .initializeRescueSigners .. | .proposeRescue .. | .approveRescue .. | .cancelRescue .. =>
      [.rescue]
  | .executeRescue .. => [.rescue, .tokens]
  | .initializeSecurityCouncil .. | .createTimelockedAction .. | .councilSignVeto ..
  | .executeTimelockedAction .. | .proposeCouncilRotation .. | .execCouncilRotation
  | .protectedClawback .. => [.council]
  | .executeProtectedClawback .. => [.council, .grants, .tokens]

/-! ### What is written by a setter -/

theorem writeGrant_frame (env : Env) (grantId : Nat) (grant : Grant) :
    Frame [.grants] env (env.writeGrant grantId grant) := by
  refine ⟨fun r hr => ?_⟩
  cases r <;> first | exact absurd (by decide) hr | (repeat' constructor)

theorem removeGrant_frame (env : Env) (grantId : Nat) :
    Frame [.grants] env (env.removeGrant grantId) := by
  refine ⟨fun r hr => ?_⟩
  cases r <;> first | exact absurd (by decide) hr | (repeat' constructor)

theorem setGrantIds_frame (env : Env) (grantIds : List Nat) :
    Frame [.grants] env (env.setGrantIds grantIds) := by
  refine ⟨fun r hr => ?_⟩
  cases r <;> first | exact absurd (by decide) hr | (repeat' constructor)

theorem setRecipientGrants_frame (env : Env) (recipient : Address) (ids : List Nat) :
    Frame [.recipientIndex] env (env.setRecipientGrants recipient ids) := by
  refine ⟨fun r hr => ?_⟩
  cases r <;> first | exact absurd (by decide) hr | (repeat' constructor)

theorem deleteGrant_frame (env : Env) (grantId : Nat) (grantIds : List Nat)
    (recipient : Address) (ids : List Nat) : Frame [.grants, .recipientIndex] env
      (((env.removeGrant grantId).setGrantIds grantIds).setRecipientGrants recipient ids) :=
  ((removeGrant_frame ..).trans (setGrantIds_frame ..)).comp (setRecipientGrants_frame ..)

theorem setDisputeEscrow_frame (env : Env) (grantId : Nat) (amount : Option Int) :
    Frame [.escrow] env (env.setDisputeEscrow grantId amount) := by
  refine ⟨fun r hr => ?_⟩
  cases r <;> first | exact absurd (by decide) hr | (repeat' constructor)

theorem setClawbackCheckpoint_frame (env : Env) (grantId ts : Nat) :
    Frame [.checkpoint] env (env.setClawbackCheckpoint grantId ts) := by
  refine ⟨fun r hr => ?_⟩
  cases r <;> first | exact absurd (by decide) hr | (repeat' constructor)

theorem setClaimValueCounter_frame (env : Env) (grantId : Nat) (counter : Option Nat) :
    Frame [.claims] env (env.setClaimValueCounter grantId counter) := by
  refine ⟨fun r hr => ?_⟩
  cases r <;> first | exact absurd (by decide) hr | (repeat' constructor)

theorem setClaimValue_frame (env : Env) (grantId index : Nat) (value : ClaimFiatValue) :
    Frame [.claims] env (env.setClaimValue grantId index value) := by
  refine ⟨fun r hr => ?_⟩
  cases r <;> first | exact absurd (by decide) hr | (repeat' constructor)

theorem recordClaimValue_frame (env : Env) (grantId : Nat) (recipient tokenAddr : Address)
    (amount : Int) : Frame [.claims] env (recordClaimValue env grantId recipient tokenAddr amount) :=
  (setClaimValueCounter_frame ..).trans (setClaimValue_frame ..)

theorem setMilestone_frame (env : Env) (grantId index : Nat) (proof : Option String) :
    Frame [.milestones] env (env.setMilestone grantId index proof) := by
  refine ⟨fun r hr => ?_⟩
  cases r <;> first | exact absurd (by decide) hr | (repeat' constructor)

theorem setSubmissionDeposit_frame (env : Env) (grantId index : Nat) (amount : Option Int) :
    Frame [.milestones] env (env.setSubmissionDeposit grantId index amount) := by
  refine ⟨fun r hr => ?_⟩
  cases r <;> first | exact absurd (by decide) hr | (repeat' constructor)

theorem setSubmitNonce_frame (env : Env) (grantId : Nat) (nonce : Option Nat) :
    Frame [.milestones] env (env.setSubmitNonce grantId nonce) := by
  refine ⟨fun r hr => ?_⟩
  cases r <;> first | exact absurd (by decide) hr | (repeat' constructor)

theorem removeMilestones_frame (env : Env) (grantId nonce : Nat) :
    Frame [.milestones] env (removeMilestones env grantId nonce) := by
  refine ⟨fun r hr => ?_⟩
  cases r <;> first | exact absurd (by decide) hr | (repeat' constructor)

theorem setTombstone_frame (env : Env) (grantId : Nat) (hash : Bytes) :
    Frame [.tombstones] env (env.setTombstone grantId hash) := by
  refine ⟨fun r hr => ?_⟩
  cases r <;> first | exact absurd (by decide) hr | (repeat' constructor)

theorem setBreakers_frame (env : Env) (b : BreakerState) :
    Frame [.breakers] env (env.setBreakers b) := by
  refine ⟨fun r hr => ?_⟩
  cases r <;> first | exact absurd (by decide) hr | (repeat' constructor)

theorem setRescue_frame (env : Env) (rescue : RescueState) :
    Frame [.rescue] env (env.setRescue rescue) := by
  refine ⟨fun r hr => ?_⟩
  cases r <;> first | exact absurd (by decide) hr | (repeat' constructor)

theorem setCouncil_frame (env : Env) (c : CouncilState) :
    Frame [.council] env (env.setCouncil c) := by
  refine ⟨fun r hr => ?_⟩
  cases r <;> first | exact absurd (by decide) hr | (repeat' constructor)

theorem setReports_frame (env : Env) (f : Address → List FlowRecord) (a : AuditState) :
    Frame [.reports] env ((env.setFlowHistory f).setAudit a) := by
  refine ⟨fun r hr => ?_⟩
  cases r <;> first | exact absurd (by decide) hr | (repeat' constructor)

/-! ### Calls with transfers or branches -/

theorem transfer_frame {env : Env} {token source target : Address} {amount : Int} :
    Returns (Frame [.tokens] env) (env.transfer token source target amount) := by
  refine .seq fun tokens => .pure ⟨fun r hr => ?_⟩
  cases r <;> first | exact absurd (by decide) hr | (repeat' constructor)

theorem payBounty_frame {env : Env} {target : Address} {bounty : Int} :
    Returns (Frame [.tokens] env) (payBounty env target bounty) :=
  .seq fun _ => .when transfer_frame (.refl _ env)

theorem payWithdrawal_frame {env : Env} {grantId : Nat} {grant : Grant} {amount : Int} :
    Returns (Frame [.breakers, .tokens, .claims, .reports] env)
      (payWithdrawal env grantId grant amount) := by
  refine .seq fun velocity => ?_
  have hbreakers : Frame [.breakers] env ((env.setBreakers velocity.1).setBreakers
      (CircuitBreakers.checkRentBalance (env.setBreakers velocity.1)).1) :=
    (setBreakers_frame ..).trans (setBreakers_frame ..)
  refine .seq fun tokenAddr => ?_
  refine .bind transfer_frame fun env₁ htokens => ?_
  refine .seq fun _ => .pure ?_
  exact hbreakers.comp (htokens.comp ((recordClaimValue_frame ..).comp (setReports_frame ..)))

theorem withdraw_frame {env : Env} {grantId : Nat} {amount : Int} :
    Returns (Frame [.grants, .breakers, .tokens, .claims, .reports] env)
      (withdraw env grantId amount) := by
  iterate 8 refine .seq fun _ => ?_
  exact .mono payWithdrawal_frame fun env' h => (writeGrant_frame ..).comp h

theorem confidentialClaim_frame {env : Env} {grantId : Nat} {claimAmount : Int}
    {nullifier proof : Bytes} : Returns (Frame [.confidential, .tokens] env)
      (confidentialClaim env grantId claimAmount nullifier proof) := by
  iterate 5 refine .seq fun _ => ?_
  refine .seq fun tokenAddr => .mono transfer_frame ?_
  refine fun env' h => Frame.comp (?_ : Frame [.confidential] env _) h
  refine ⟨fun r hr => ?_⟩
  cases r <;> first | exact absurd (by decide) hr | (repeat' constructor)

theorem cancelGrant_frame {env : Env} {grantId : Nat} :
    Returns (Frame [.grants, .tokens] env) (cancelGrant env grantId) := by
  iterate 8 refine .seq fun _ => ?_
  refine .when (.seq fun _ => .seq fun _ => ?_) ((writeGrant_frame ..).mono (by simp))
  exact .mono transfer_frame fun env' h => (writeGrant_frame ..).comp h

theorem executeProtectedClawback_frame {env : Env} {actionId grantId : Nat} :
    Returns (Frame [.council, .grants, .tokens] env)
      (executeProtectedClawback env actionId grantId) := by
  iterate 4 refine .seq fun _ => ?_
  exact .mono cancelGrant_frame fun env' h => (setCouncil_frame ..).comp h

theorem payValidator_frame {env : Env} {tokenAddr : Address} {validator : Option Address}
    {amount : Int} : Returns (Frame [.tokens] env) (payValidator env tokenAddr validator amount) := by
  cases validator with
  | none => exact .pure (.refl _ env)
  | some validatorAddr =>
      unfold payValidator
      exact .when transfer_frame (.refl _ env)

theorem payRageQuit_frame {env : Env} {grant : Grant}
    {claimAmount validatorAmount remaining : Int} :
    Returns (Frame [.tokens] env) (payRageQuit env grant claimAmount validatorAmount remaining) := by
  refine .seq fun tokenAddr => .bind transfer_frame fun env₁ h₁ => ?_
  refine .bind payValidator_frame fun env₂ h₂ => .when ?_ (h₁.trans h₂)
  exact .seq fun _ => .mono transfer_frame fun env₃ h₃ => (h₁.trans h₂).trans h₃

theorem rageQuit_frame {env : Env} {grantId : Nat} :
    Returns (Frame [.grants, .tokens] env) (rageQuit env grantId) := by
  iterate 8 refine .seq fun _ => ?_
  exact .mono payRageQuit_frame fun env' h => (writeGrant_frame ..).comp h

theorem proposeRateChange_frame {env : Env} {grantId : Nat} {newRate : Int} :
    Returns (Frame [.grants] env) (proposeRateChange env grantId newRate) := by
  iterate 5 refine .seq fun _ => ?_
  refine .ite ?_ ?_
  all_goals
    repeat refine .seq fun _ => ?_
    exact .pure (writeGrant_frame ..)

theorem applyKpiMultiplier_frame {env : Env} {grantId : Nat} {multiplier : Int} :
    Returns (Frame [.grants] env) (applyKpiMultiplier env grantId multiplier) := by
  iterate 7 refine .seq fun _ => ?_
  refine .ite ?_ ?_
  all_goals
    repeat refine .seq fun _ => ?_
    exact .pure (writeGrant_frame ..)

theorem withdrawValidator_frame {env : Env} {grantId : Nat} {amount : Int} :
    Returns (Frame [.grants, .tokens] env) (withdrawValidator env grantId amount) := by
  iterate 9 refine .seq fun _ => ?_
  refine .bind transfer_frame fun env₁ h => ?_
  exact .seq fun _ => .pure ((writeGrant_frame ..).comp h)

theorem triggerGrantClawback_frame {env : Env} {grantId : Nat} {reason : String}
    {contested : Bool} : Returns (Frame [.grants, .checkpoint, .escrow, .tokens] env)
      (triggerGrantClawback env grantId reason contested) := by
  iterate 7 refine .seq fun _ => ?_
  refine .ite ?_ (.seq fun _ => .ite ?_ (.seq fun donorAddress => ?_))
  · refine .seq fun _ => .seq fun _ => .pure ?_
    exact ((setClawbackCheckpoint_frame ..).comp (writeGrant_frame ..)).mono (by simp)
  · refine .bind (P := Frame [.escrow] (env.setClawbackCheckpoint grantId env.timestamp))
      (.pure (setDisputeEscrow_frame ..)) fun env₁ h => .seq fun _ => .pure ?_
    exact ((setClawbackCheckpoint_frame ..).comp (h.comp (writeGrant_frame ..))).mono (by simp)
  · refine .bind transfer_frame fun env₁ h => ?_
    refine .seq fun _ => .pure ?_
    exact ((setClawbackCheckpoint_frame ..).comp (h.comp (writeGrant_frame ..))).mono (by simp)

theorem resolveDisputedClawback_frame {env : Env} {grantId : Nat} {releaseToDonor : Bool} :
    Returns (Frame [.grants, .escrow, .tokens] env)
      (resolveDisputedClawback env grantId releaseToDonor) := by
  iterate 6 refine .seq fun _ => ?_
  refine .ite (.seq fun donorAddress => ?_) (.seq fun totalAmount => .seq fun treasury => ?_)
  · refine .bind transfer_frame fun env₁ h => .pure ?_
    exact (h.comp (setDisputeEscrow_frame ..)).mono (by simp)
  · refine .bind transfer_frame fun env₁ h => .pure ?_
    exact ((writeGrant_frame ..).comp (h.comp (setDisputeEscrow_frame ..))).mono (by simp)

theorem rescueTokens_frame {env : Env} {tokenAddress target : Address} {amount : Int} :
    Returns (Frame [.tokens] env) (rescueTokens env tokenAddress amount target) := by
  iterate 3 refine .seq fun _ => ?_
  refine .ite ?_ ?_
  all_goals
    iterate 3 refine .seq fun _ => ?_
    exact transfer_frame

theorem triggerGrantDispute_frame {env : Env} {grantId : Nat} :
    Returns (Frame [.breakers] env) (triggerGrantDispute env grantId) :=
  .seq fun _ => .ite (.pure (setBreakers_frame ..)) (.seq fun _ => .pure (setBreakers_frame ..))

theorem executeRescue_frame {env : Env} {caller tokenAddress : Address} {proposalId : Nat} :
    Returns (Frame [.rescue, .tokens] env) (executeRescue env caller proposalId tokenAddress) := by
  refine .seq fun executed => .mono transfer_frame fun env' h => ?_
  exact (setRescue_frame ..).comp h

/-! ### The frame theorem -/

/-- **Frame.** A successful call writes to no other regions than its own. -/
theorem frame_of_exec {env env' : Env} {call : Call} (h : call.exec env = .ok env') :
    Frame call.writes env env' := by
  refine Returns.elim (P := Frame call.writes env) ?_ h
  cases call
  case confidentialClaim => exact confidentialClaim_frame
  case withdraw => exact withdraw_frame
  case proposeRateChange => exact proposeRateChange_frame
  case applyKpiMultiplier => exact applyKpiMultiplier_frame
  case rageQuit => exact rageQuit_frame
  case cancelGrant => exact cancelGrant_frame
  case triggerGrantClawback => exact triggerGrantClawback_frame
  case resolveDisputedClawback => exact resolveDisputedClawback_frame
  case rescueTokens => exact rescueTokens_frame
  case triggerGrantDispute => exact triggerGrantDispute_frame
  case withdrawValidator => exact withdrawValidator_frame
  case executeRescue => exact executeRescue_frame
  case executeProtectedClawback => exact executeProtectedClawback_frame
  case pauseStream | resumeStream | setLegalMetadata | signLegalMetadata =>
    repeat refine .seq fun _ => ?_
    exact .pure (writeGrant_frame ..)
  case setSanityOracle | confirmOraclePrice | updateTvlSnapshot | disableRentPreservationMode
    | resumeAfterVelocityCheck | resumeGrantInitialization =>
    repeat refine .seq fun _ => ?_
    exact .pure (setBreakers_frame ..)
  case submitOraclePrice | checkRentBalance =>
    refine .map ?_
    repeat refine .seq fun _ => ?_
    exact .pure (setBreakers_frame ..)
  case initializeSecurityCouncil | councilSignVeto | executeTimelockedAction
    | proposeCouncilRotation | execCouncilRotation =>
    repeat refine .seq fun _ => ?_
    exact .pure (setCouncil_frame ..)
  case createTimelockedAction | protectedClawback =>
    refine .map ?_
    repeat refine .seq fun _ => ?_
    exact .pure (setCouncil_frame ..)
  case initializeRescueSigners | approveRescue | cancelRescue =>
    repeat refine .seq fun _ => ?_
    exact .pure (setRescue_frame ..)
  case proposeRescue =>
    refine .map (.seq fun _ => .pure ?_)
    exact setRescue_frame ..
  case initializeContract =>
    refine .seq fun _ => .pure (show Frame [.config, .grants, .sep38] env _ from ⟨fun r hr => ?_⟩)
    cases r <;> first | exact absurd (by decide) hr | (repeat' constructor)
  case setSep38Rate =>
    repeat refine .seq fun _ => ?_
    refine .pure (show Frame [.sep38] env _ from ⟨fun r hr => ?_⟩)
    cases r <;> first | exact absurd (by decide) hr | (repeat' constructor)
  case createGrant =>
    repeat refine .seq fun _ => ?_
    refine .pure ?_
    exact ((writeGrant_frame ..).trans (setGrantIds_frame ..)).comp (setRecipientGrants_frame ..)
  case changeGrantee =>
    repeat refine .seq fun _ => ?_
    refine .pure ?_
    exact (writeGrant_frame ..).comp
      ((setRecipientGrants_frame ..).trans (setRecipientGrants_frame ..))
  case createConfidentialGrant =>
    repeat refine .seq fun _ => ?_
    refine .pure (show Frame [.confidential] env _ from ⟨fun r hr => ?_⟩)
    cases r <;> first | exact absurd (by decide) hr | (repeat' constructor)
  case emergencyPause =>
    refine .seq fun _ => .pure (show Frame [.pauseReason] env _ from ⟨fun r hr => ?_⟩)
    cases r <;> first | exact absurd (by decide) hr | (repeat' constructor)
  case heartbeatEmit =>
    refine .map (.seq fun _ => .pure ?_)
    refine show Frame [.reports] env _ from ⟨fun r hr => ?_⟩
    cases r <;> first | exact absurd (by decide) hr | (repeat' constructor)
  case submitMilestoneProof =>
    iterate 6 refine .seq fun _ => ?_
    refine .bind transfer_frame fun env₁ h => .seq fun nextNonce => .pure ?_
    exact (h.comp ((setMilestone_frame ..).trans ((setSubmissionDeposit_frame ..).trans
      (setSubmitNonce_frame ..)))).mono (by simp [Call.writes])
  case approveMilestoneSubmission =>
    iterate 4 refine .seq fun _ => ?_
    refine .bind transfer_frame fun env₁ h => .pure ?_
    exact (h.comp (setSubmissionDeposit_frame ..)).mono (by simp [Call.writes])
  case slashMsSubmissionDeposit =>
    iterate 4 refine .seq fun _ => ?_
    refine .bind transfer_frame fun env₁ h => .pure ?_
    exact (h.comp (setSubmissionDeposit_frame ..)).mono (by simp [Call.writes])
  case finalizeAndPurge =>
    iterate 4 refine .seq fun _ => ?_
    exact .mono payBounty_frame fun env' h => (deleteGrant_frame ..).comp h
  case pruneFinalizedGrant grantId relayer =>
    iterate 7 refine .seq fun _ => ?_
    refine .mono payBounty_frame fun env' h => ?_
    exact (((setTombstone_frame ..).comp ((removeMilestones_frame ..).comp
      ((setSubmitNonce_frame ..).comp (setClaimValueCounter_frame ..)))).comp
        ((deleteGrant_frame ..).comp h)).mono (by simp [Call.writes])

/-! ### Events -/

/-- The addresses that authorized the event. -/
def Event.auths (event : Event) : List Address :=
  match event.transaction with
  | .invoke auths _ => auths
  | _ => []

/-- The call that the step performed, if it was accepted. -/
def called (e : Run.Step Env Event) : Option Call :=
  match e.action.transaction with
  | .invoke _ call => if e.action.accepted e.before then some call else none
  | _ => none

/-- The operation that a step performed on a grant is that of its call. -/
theorem performed_eq (grantId : Nat) (e : Run.Step Env Event) :
    performed grantId e = (called e).bind fun call => call.grantOp?.bind fun op =>
      if op.1 = grantId then some op.2 else none := by
  unfold performed called Event.opOn
  cases e.action.transaction with
  | invoke auths call =>
      dsimp only
      split_ifs
      · rw [Option.bind_some]
        cases call.grantOp? <;> rfl
      · rfl
  | tokenTransfer | tokenMint | nullifierExpiry =>
      dsimp only
      rw [ite_self]
      rfl

theorem enter_frame (env : Env) (event : Event) : Frame [.ledger, .tokens] env (env.enter event) := by
  refine ⟨fun r hr => ?_⟩
  cases r <;> first | exact absurd (by decide) hr | (repeat' constructor)

/-- Whatever happens next is an accepted call, or only lets time pass, moves
tokens and lets temporary storage expire. -/
theorem called_of_next {env env' : Env} {event : Event} (h : Next env event env') :
    (called ⟨env, event, env'⟩ = none ∧ Frame [.ledger, .tokens, .confidential] env env') ∨
      ∃ call, called ⟨env, event, env'⟩ = some call ∧ call.exec (env.enter event) = .ok env' := by
  obtain ⟨-, rfl⟩ := h
  unfold called
  dsimp only
  cases ht : event.transaction with
  | invoke auths call =>
      dsimp only
      cases hexec : call.exec (env.enter event) with
      | ok env' =>
          rw [if_pos (accepted_of_exec ht hexec), execute_of_exec ht hexec]
          exact .inr ⟨call, rfl, hexec⟩
      | error fault =>
          obtain ⟨hrejected, hsame⟩ := execute_of_error ht hexec
          rw [hrejected, hsame]
          exact .inl ⟨rfl, (enter_frame env event).mono (by simp)⟩
  | tokenTransfer | tokenMint | nullifierExpiry =>
      refine .inl ⟨rfl, ⟨fun r hr => ?_⟩⟩
      unfold execute
      rw [ht]
      cases r <;> first | exact absurd (by decide) hr | (repeat' constructor)

/-- A step that is a call is the execution of that call. -/
theorem exec_of_called {e : Run.Step Env Event} {call : Call}
    (h : Next e.before e.action e.after) (hcall : called e = some call) :
    call.exec (e.before.enter e.action) = .ok e.after := by
  rcases called_of_next h with ⟨hnone, -⟩ | ⟨call', hcall', hexec⟩
  · cases hcall.symm.trans hnone
  · obtain rfl := Option.some.inj (hcall.symm.trans hcall')
    exact hexec

/-- The arguments of an accepted call are machine integers. -/
theorem wellTyped_of_called {e : Run.Step Env Event} {call : Call}
    (h : Next e.before e.action e.after) (hcall : called e = some call) : call.WellTyped := by
  have hwt := h.1.wellTyped
  unfold called at hcall
  cases ht : e.action.transaction with
  | invoke auths call' =>
      rw [ht] at hcall hwt
      dsimp only at hcall
      split_ifs at hcall
      obtain rfl := Option.some.inj hcall
      exact hwt
  | tokenTransfer | tokenMint | nullifierExpiry =>
      rw [ht] at hcall
      cases hcall

/-- Without a call, others move tokens and nullifiers expire. -/
theorem after_of_uncalled {e : Run.Step Env Event} (hn : Next e.before e.action e.after)
    (hcalled : called e = none) :
    ∃ tokens nullifiers,
      e.after = { e.before.enter e.action with tokens, confidentialNullifier := nullifiers } ∧
        ∀ token, e.before.tokens.balance token e.before.self ≤
          tokens.balance token e.before.self := by
  obtain ⟨before, event, after⟩ := e
  obtain ⟨hadm, hafter⟩ := hn
  have hwt := hadm.wellTyped
  dsimp only at hafter hwt ⊢
  cases ht : event.transaction with
  | invoke auths call =>
      cases hexec : call.exec (before.enter event) with
      | ok env' =>
          unfold called at hcalled
          simp [ht, accepted_of_exec ht hexec] at hcalled
      | error fault =>
          rw [hafter, (execute_of_error ht hexec).2]
          exact ⟨_, _, rfl, fun token => le_refl _⟩
  | tokenTransfer token source target amount =>
      rw [ht] at hwt
      rw [hafter]
      unfold execute
      rw [ht]
      refine ⟨_, _, rfl, fun token' => ?_⟩
      cases htransfer : (before.enter event).tokens.transfer token source target amount with
      | none => exact le_refl _
      | some tokens =>
          exact TokenLedger.transfer_balance_le (L := (before.enter event).tokens) htransfer hwt
  | tokenMint token target amount =>
      rw [ht] at hwt
      rw [hafter]
      unfold execute
      rw [ht]
      refine ⟨_, _, rfl, fun token' => ?_⟩
      exact TokenLedger.mint_balance_le (before.enter event).tokens token target token' before.self hwt
  | nullifierExpiry nullifier =>
      rw [hafter]
      unfold execute
      rw [ht]
      exact ⟨_, _, rfl, fun token => le_refl _⟩

/-- The functions of the host never change. -/
theorem host_of_next {e : Run.Step Env Event} (hn : Next e.before e.action e.after) :
    e.after.host = e.before.host := by
  cases hcalled : called e with
  | none =>
      obtain ⟨tokens, nullifiers, hafter, -⟩ := after_of_uncalled hn hcalled
      rw [hafter]
      rfl
  | some call =>
      by_cases hledger : Region.ledger ∈ call.writes
      · cases call <;> simp [Call.writes] at hledger
      · exact ((frame_of_exec (exec_of_called hn hcalled)).same .ledger hledger).2.2.2.2

/-- **Component rule.** Let `f` be what the contract keeps in one region, and
`op?` list the calls that write to it. An event leaves it alone, or is an
accepted call among these. -/
theorem component_of_next {τ ω : Type} {f : Env → τ} {r : Region} {op? : Call → Option ω}
    {R : Env → Event → ω → τ → τ → Prop} (hquiet : r ∉ [Region.ledger, .tokens, .confidential])
    (hview : ∀ {env env'}, r.Same env env' → f env' = f env)
    (hop : ∀ {call}, op? call = none → r ∉ call.writes)
    (hrel : ∀ {env event env' call o}, op? call = some o → call.exec (env.enter event) = .ok env' →
      R env event o (f env) (f env'))
    {env env' : Env} {event : Event} (h : Next env event env') :
    ((called ⟨env, event, env'⟩).bind op? = none ∧ f env' = f env) ∨
      ∃ o, (called ⟨env, event, env'⟩).bind op? = some o ∧
        R env event o (f env) (f env') := by
  rcases called_of_next h with ⟨hcalled, hframe⟩ | ⟨call, hcalled, hexec⟩
  · rw [hcalled]
    exact .inl ⟨rfl, hview (hframe.same r hquiet)⟩
  · rw [hcalled]
    cases ho : op? call with
    | none =>
        have henter := hview ((enter_frame env event).same r fun hr => hquiet (by simp_all))
        exact .inl ⟨ho, (hview ((frame_of_exec hexec).same r (hop ho))).trans henter⟩
    | some o => exact .inr ⟨o, ho, hrel ho hexec⟩

end YieldTrust.GrantStream
