import YieldTrust.GrantStream.Accounts

/-!
# YieldTrust.GrantStream.Simulation

The contract refines the accounts: whatever happens on the ledger, the account
of each grant is left alone, opened by `create_grant`, changed by one
`GrantStep`, or closed by a purge (`accountEffect_of_next`). This is the only
module that looks inside the entry points.
-/

namespace YieldTrust.GrantStream

open Fallible

/-! ### The vault -/

/-- The part of the environment that the grants depend on: the time, the
contract's address and configuration, the grants, their indexes and escrows. -/
structure Vault where
  timestamp : Nat
  self : Address
  admin : Option Address
  grantToken : Option Address
  treasury : Option Address
  nativeToken : Option Address
  grantIds : List Nat
  grants : Nat → Option Grant
  recipientGrants : Address → List Nat
  disputeEscrow : Nat → Option Int

namespace Env

def vault (env : Env) : Vault :=
  { timestamp := env.timestamp
    self := env.self
    admin := env.admin
    grantToken := env.grantToken
    treasury := env.treasury
    nativeToken := env.nativeToken
    grantIds := env.grantIds
    grants := env.grants
    recipientGrants := env.recipientGrants
    disputeEscrow := env.disputeEscrow }

section

variable (env : Env)

@[simp] theorem setClawbackCheckpoint_vault (id ts : Nat) :
    (env.setClawbackCheckpoint id ts).vault = env.vault := rfl

@[simp] theorem setClaimValueCounter_vault (id : Nat) (c : Option Nat) :
    (env.setClaimValueCounter id c).vault = env.vault := rfl

@[simp] theorem setClaimValue_vault (id index : Nat) (v : ClaimFiatValue) :
    (env.setClaimValue id index v).vault = env.vault := rfl

@[simp] theorem setSubmitNonce_vault (id : Nat) (nonce : Option Nat) :
    (env.setSubmitNonce id nonce).vault = env.vault := rfl

@[simp] theorem setMilestone_vault (id index : Nat) (proof : Option String) :
    (env.setMilestone id index proof).vault = env.vault := rfl

@[simp] theorem setSubmissionDeposit_vault (id index : Nat) (amount : Option Int) :
    (env.setSubmissionDeposit id index amount).vault = env.vault := rfl

@[simp] theorem setTombstone_vault (id : Nat) (hash : Bytes) :
    (env.setTombstone id hash).vault = env.vault := rfl

@[simp] theorem setCommitment_vault (id : Nat) (c : Int) :
    (env.setCommitment id c).vault = env.vault := rfl

@[simp] theorem setBreakers_vault (b : BreakerState) : (env.setBreakers b).vault = env.vault := rfl

@[simp] theorem setRescue_vault (r : RescueState) : (env.setRescue r).vault = env.vault := rfl

@[simp] theorem setCouncil_vault (c : CouncilState) : (env.setCouncil c).vault = env.vault := rfl

@[simp] theorem setFlowHistory_vault (f : Address → List FlowRecord) :
    (env.setFlowHistory f).vault = env.vault := rfl

@[simp] theorem setAudit_vault (a : AuditState) : (env.setAudit a).vault = env.vault := rfl

@[simp] theorem setDashboard_vault (d : DashboardState) :
    (env.setDashboard d).vault = env.vault := rfl

@[simp] theorem removeMilestones_vault (id nonce : Nat) :
    (removeMilestones env id nonce).vault = env.vault := rfl

@[simp] theorem recordClaimValue_vault (id : Nat) (recipient tokenAddr : Address) (amount : Int) :
    (recordClaimValue env id recipient tokenAddr amount).vault = env.vault := rfl

@[simp] theorem writeGrant_vault (id : Nat) (grant : Grant) : (env.writeGrant id grant).vault =
    { env.vault with grants := Function.update env.grants id (some grant) } := rfl

@[simp] theorem removeGrant_vault (id : Nat) : (env.removeGrant id).vault =
    { env.vault with grants := Function.update env.grants id none } := rfl

@[simp] theorem setGrantIds_vault (ids : List Nat) : (env.setGrantIds ids).vault =
    { env.vault with grantIds := ids } := rfl

@[simp] theorem setRecipientGrants_vault (recipient : Address) (ids : List Nat) :
    (env.setRecipientGrants recipient ids).vault =
      { env.vault with
        recipientGrants := Function.update env.recipientGrants recipient ids } := rfl

@[simp] theorem setDisputeEscrow_vault (id : Nat) (amount : Option Int) :
    (env.setDisputeEscrow id amount).vault =
      { env.vault with disputeEscrow := Function.update env.disputeEscrow id amount } := rfl

end

end Env

/-! ### Authorization and transfers -/

theorem requireAuth_eq_ok {env : Env} {a : Address} {u : Unit} :
    env.requireAuth a = .ok u ↔ a ∈ env.auths := require_eq_ok

theorem requireAdminAuth_eq_ok {env : Env} {u : Unit} :
    requireAdminAuth env = .ok u ↔ ∃ admin, env.admin = some admin ∧ admin ∈ env.auths := by
  unfold requireAdminAuth readAdmin
  simp only [bind_eq_ok, okOr_eq_ok, requireAuth_eq_ok]

theorem transfer_eq_ok {env env' : Env} {token source target : Address} {amount : Int} :
    env.transfer token source target amount = .ok env' ↔
      ∃ tokens, env.tokens.transfer token source target amount = some tokens ∧
        { env with tokens } = env' := by
  unfold Env.transfer
  simp only [bind_eq_ok, orTrap_eq_ok, pure_eq_ok]

theorem transfer_vault {env env' : Env} {token source target : Address} {amount : Int}
    (h : env.transfer token source target amount = .ok env') : env'.vault = env.vault := by
  obtain ⟨tokens, -, rfl⟩ := transfer_eq_ok.mp h
  rfl

theorem payBounty_vault {env env' : Env} {target : Address} {bounty : Int}
    (h : payBounty env target bounty = .ok env') : env'.vault = env.vault := by
  unfold payBounty at h
  obtain ⟨nativeToken, -, h⟩ := bind_eq_ok.mp h
  rcases when_eq_ok.mp h with ⟨-, h⟩ | ⟨-, rfl⟩
  · exact transfer_vault h
  · rfl

/-! ### Calls that operate on a grant -/

/-- `env'` was reached by making `payments` in the grant token. -/
def Pays (env : Env) (payments : List Payment) (env' : Env) : Prop :=
  (payments = [] ∧ env'.tokens = env.tokens) ∨
    ∃ token, env.grantToken = some token ∧
      env.tokens.payAll token env.self payments = some env'.tokens

theorem Pays.one {env env' : Env} {token target : Address} {amount : Int}
    {tokens : TokenLedger Address} (htoken : env.grantToken = some token)
    (ht : env.tokens.transfer token env.self target amount = some tokens)
    (henv : env'.tokens = tokens) : Pays env [⟨target, amount⟩] env' :=
  .inr ⟨token, htoken, Option.bind_eq_some_iff.mpr ⟨tokens, ht, henv ▸ rfl⟩⟩

/-- Payments one after the other. -/
theorem Pays.append {env env₁ env₂ : Env} {ps qs : List Payment} (h : Pays env ps env₁)
    (hv : env₁.vault = env.vault) (h' : Pays env₁ qs env₂) : Pays env (ps ++ qs) env₂ := by
  have hself : env₁.self = env.self := congrArg Vault.self hv
  have htoken : env₁.grantToken = env.grantToken := congrArg Vault.grantToken hv
  rcases h' with ⟨rfl, hsame'⟩ | ⟨token, htok', hpay'⟩
  · rw [List.append_nil]
    rcases h with ⟨rfl, hsame⟩ | ⟨token, htok, hpay⟩
    · exact .inl ⟨rfl, hsame'.trans hsame⟩
    · exact .inr ⟨token, htok, hsame' ▸ hpay⟩
  · rw [htoken] at htok'
    rw [hself] at hpay'
    refine .inr ⟨token, htok', ?_⟩
    rw [TokenLedger.payAll_append]
    rcases h with ⟨rfl, hsame⟩ | ⟨token₁, htok, hpay⟩
    · rw [hsame] at hpay'
      exact hpay'
    · obtain rfl : token = token₁ := Option.some.inj (htok'.symm.trans htok)
      exact Option.bind_eq_some_iff.mpr ⟨_, hpay, hpay'⟩

/-- `op` on `grantId` was one step of the account of that grant and touched no other. -/
def Operates (env : Env) (grantId : Nat) (op : GrantOp) (env' : Env) : Prop :=
  ∃ g a' payments, env.grants grantId = some g ∧
    GrantStep env.timestamp env.treasury op ⟨g, env.disputeEscrow grantId⟩ a' payments ∧
    Pays env payments env' ∧
    env'.vault = { env.vault with
      grants := Function.update env.grants grantId (some a'.grant)
      disputeEscrow := Function.update env.disputeEscrow grantId a'.escrow
      recipientGrants := env'.recipientGrants }

/-- Writing the grant is all that most operations do to the vault. -/
theorem Operates.of_write {env env' : Env} {grantId : Nat} {op : GrantOp} {g m : Grant}
    {payments : List Payment} (hg : env.grants grantId = some g)
    (hstep : GrantStep env.timestamp env.treasury op ⟨g, env.disputeEscrow grantId⟩
      ⟨m, env.disputeEscrow grantId⟩ payments)
    (hpays : Pays env payments env') (hvault : env'.vault = (env.writeGrant grantId m).vault) :
    Operates env grantId op env' := by
  refine ⟨g, _, payments, hg, hstep, hpays, ?_⟩
  have hindex : env'.recipientGrants = env.recipientGrants :=
    congrArg Vault.recipientGrants hvault
  rw [hvault, hindex, Function.update_eq_self]
  rfl

/-- Only the vault and the tokens of the environment matter for an operation. -/
theorem Operates.of_vault {env env₁ env' : Env} {grantId : Nat} {op : GrantOp}
    (hv : env₁.vault = env.vault) (ht : env₁.tokens = env.tokens)
    (h : Operates env₁ grantId op env') : Operates env grantId op env' := by
  obtain ⟨g, a', payments, hg, hstep, hpays, hvault⟩ := h
  have htime : env₁.timestamp = env.timestamp := congrArg Vault.timestamp hv
  have hself : env₁.self = env.self := congrArg Vault.self hv
  have htoken : env₁.grantToken = env.grantToken := congrArg Vault.grantToken hv
  have htreasury : env₁.treasury = env.treasury := congrArg Vault.treasury hv
  have hgrants : env₁.grants = env.grants := congrArg Vault.grants hv
  have hescrow : env₁.disputeEscrow = env.disputeEscrow := congrArg Vault.disputeEscrow hv
  rw [hgrants] at hg
  rw [htime, htreasury, hescrow] at hstep
  rw [hv, hgrants, hescrow] at hvault
  refine ⟨g, a', payments, hg, hstep, ?_, hvault⟩
  rcases hpays with ⟨hnil, hsame⟩ | ⟨token, htok, hpay⟩
  · exact .inl ⟨hnil, hsame.trans ht⟩
  · exact .inr ⟨token, htoken ▸ htok, by rw [← ht, ← hself, hpay]⟩

theorem debitWithdrawal_eq_ok {grant m : Grant} {now : Nat} {amount : Int}
    (h : debitWithdrawal grant now amount = .ok m) :
    ∃ s, Settles grant now s ∧ s.gateClosed = false ∧ minWithdrawal ≤ s.claimable ∧
      amount ≤ s.claimable ∧ m = { s with
        claimable := s.claimable - amount
        withdrawn := s.withdrawn + amount
        clawbackEligible :=
          if grant.cancellationInitiatedAt ≠ 0 then s.clawbackEligible + amount
          else s.clawbackEligible
        lastClaimTime := now } := by
  unfold debitWithdrawal at h
  simp only [bind_eq_ok, okOr_eq_ok, ensure_eq_ok, I128.checkedSub_eq_some,
    I128.checkedAdd_eq_some] at h
  obtain ⟨s, hs, _, hgate, _, hmin, _, hle, _, ⟨-, rfl⟩, _, ⟨-, rfl⟩, h⟩ := h
  refine ⟨s, settleGrant_eq_ok hs, hgate, hmin, hle, ?_⟩
  by_cases hc : grant.cancellationInitiatedAt ≠ 0
  · rw [if_pos hc] at h ⊢
    simp only [bind_eq_ok, okOr_eq_ok, pure_eq_ok, I128.checkedAdd_eq_some] at h
    obtain ⟨_, ⟨-, rfl⟩, rfl⟩ := h
    rfl
  · rw [if_neg hc] at h ⊢
    exact (pure_eq_ok.mp h).symm

/-- Paying a withdrawal makes one payment and touches no grant. -/
theorem payWithdrawal_eq_ok {env env' : Env} {grantId : Nat} {grant : Grant} {amount : Int}
    (h : payWithdrawal env grantId grant amount = .ok env') :
    Pays env [⟨grant.redirect.getD grant.recipient, amount⟩] env' ∧ env'.vault = env.vault := by
  unfold payWithdrawal readGrantToken readAdmin at h
  simp only [Env.setBreakers, bind_eq_ok, okOr_eq_ok, transfer_eq_ok, pure_eq_ok] at h
  obtain ⟨_, -, token, htoken, _, ⟨tokens, ht, rfl⟩, _, -, rfl⟩ := h
  refine ⟨.one htoken ht rfl, ?_⟩
  simp only [Env.setAudit_vault, Env.setFlowHistory_vault, Env.recordClaimValue_vault]
  rfl

theorem withdraw_operates {env env' : Env} {grantId : Nat} {amount : Int}
    (h : withdraw env grantId amount = .ok env') : Operates env grantId (.withdraw amount) env' := by
  unfold withdraw readGrant at h
  simp only [bind_eq_ok, okOr_eq_ok, ensure_eq_ok, requireAuth_eq_ok] at h
  obtain ⟨g, hg, _, -, _, hamount, _, hstatus, _, -, _, -, _, -, m, hm, h⟩ := h
  obtain ⟨s, hs, hgate, hmin, hle, rfl⟩ := debitWithdrawal_eq_ok hm
  obtain ⟨hpays, hvault⟩ := payWithdrawal_eq_ok h
  exact .of_write hg (.withdraw hs hamount hstatus hgate hmin hle rfl) hpays hvault

theorem withdrawValidator_operates {env env' : Env} {grantId : Nat} {amount : Int}
    (h : withdrawValidator env grantId amount = .ok env') :
    Operates env grantId (.withdrawValidator amount) env' := by
  unfold withdrawValidator readGrant readGrantToken readAdmin at h
  simp only [bind_eq_ok, okOr_eq_ok, ensure_eq_ok, requireAuth_eq_ok, transfer_eq_ok, pure_eq_ok,
    I128.checkedSub_eq_some, I128.checkedAdd_eq_some] at h
  obtain ⟨g, hg, validator, hvalidator, _, -, _, hstatus, s, hs, _, ⟨hamount, hle⟩, _, ⟨-, rfl⟩,
    _, ⟨-, rfl⟩, token, htoken, _, ⟨tokens, ht, rfl⟩, _, -, rfl⟩ := h
  exact .of_write hg (.withdrawValidator (settleGrant_eq_ok hs) hvalidator hstatus hamount hle rfl)
    (.one htoken ht rfl) rfl

theorem pauseStream_operates {env env' : Env} {grantId : Nat} {reason : Option String}
    (h : pauseStream env grantId reason = .ok env') : Operates env grantId (.pause reason) env' := by
  unfold pauseStream readGrant at h
  simp only [bind_eq_ok, okOr_eq_ok, ensure_eq_ok, pure_eq_ok] at h
  obtain ⟨_, -, g, hg, _, hstatus, s, hs, rfl⟩ := h
  exact .of_write hg (.pause (settleGrant_eq_ok hs) hstatus rfl) (.inl ⟨rfl, rfl⟩) rfl

theorem resumeStream_operates {env env' : Env} {grantId : Nat}
    (h : resumeStream env grantId = .ok env') : Operates env grantId .resume env' := by
  unfold resumeStream readGrant at h
  simp only [bind_eq_ok, okOr_eq_ok, ensure_eq_ok, pure_eq_ok] at h
  obtain ⟨_, -, g, hg, _, hstatus, rfl⟩ := h
  exact .of_write hg (.resume hstatus rfl) (.inl ⟨rfl, rfl⟩) rfl

theorem proposeRateChange_operates {env env' : Env} {grantId : Nat} {newRate : Int}
    (h : proposeRateChange env grantId newRate = .ok env') :
    Operates env grantId (.proposeRate newRate) env' := by
  unfold proposeRateChange readGrant readGrantToken at h
  simp only [bind_eq_ok, okOr_eq_ok, ensure_eq_ok] at h
  obtain ⟨_, -, g, hg, _, hstatus, _, hnonneg, s, hs, h⟩ := h
  have hs := settleGrant_eq_ok hs
  by_cases hrate : newRate > s.flowRate
  · rw [if_pos hrate] at h
    simp only [bind_eq_ok, orTrap_eq_ok, okOr_eq_ok, pure_eq_ok, U64.checkedAdd_eq_some] at h
    obtain ⟨_, ⟨hfits, rfl⟩, _, rfl, _, -, rfl⟩ := h
    exact .of_write hg (.proposeIncrease hs hstatus hrate hfits rfl) (.inl ⟨rfl, rfl⟩) rfl
  · rw [if_neg hrate] at h
    simp only [bind_eq_ok, okOr_eq_ok, pure_eq_ok] at h
    obtain ⟨_, rfl, _, -, rfl⟩ := h
    exact .of_write hg (.proposeDecrease hs hstatus hnonneg (not_lt.mp hrate) rfl)
      (.inl ⟨rfl, rfl⟩) rfl

theorem applyKpiMultiplier_operates {env env' : Env} {grantId : Nat} {multiplier : Int}
    (h : applyKpiMultiplier env grantId multiplier = .ok env') :
    Operates env grantId (.applyKpi multiplier) env' := by
  unfold applyKpiMultiplier readGrant readGrantToken readAdmin at h
  simp only [bind_eq_ok, okOr_eq_ok, ensure_eq_ok, I128.checkedMul_eq_some] at h
  obtain ⟨_, -, _, hmultiplier, _, -, g, hg, _, hstatus, s, hs, _, ⟨-, rfl⟩, h⟩ := h
  have hstep : GrantStep env.timestamp env.treasury (.applyKpi multiplier)
      ⟨g, env.disputeEscrow grantId⟩ ⟨_, env.disputeEscrow grantId⟩ [] :=
    .applyKpi (settleGrant_eq_ok hs) hstatus hmultiplier rfl
  by_cases hpending : s.pendingRate > 0
  · rw [if_pos hpending] at h hstep
    simp only [bind_eq_ok, okOr_eq_ok, pure_eq_ok, I128.checkedMul_eq_some] at h
    obtain ⟨_, ⟨-, rfl⟩, _, rfl, _, -, _, -, rfl⟩ := h
    exact .of_write hg hstep (.inl ⟨rfl, rfl⟩) rfl
  · rw [if_neg hpending] at h hstep
    simp only [bind_eq_ok, okOr_eq_ok, pure_eq_ok] at h
    obtain ⟨_, rfl, _, -, _, -, rfl⟩ := h
    exact .of_write hg hstep (.inl ⟨rfl, rfl⟩) rfl

/-- The last payment of a grant that ends: what is left goes to the treasury. -/
theorem sweep_eq_ok {env env' : Env} {remaining : Int} {f : Env → Res Env}
    (hf : ∀ {env'}, f env = .ok env' → ∃ token target, env.grantToken = some token ∧
      env.treasury = some target ∧ env.transfer token env.self target remaining = .ok env')
    (h : when (remaining > 0) f env = .ok env') :
    ∃ sweep, Sweep env.treasury remaining sweep ∧ Pays env sweep env' ∧ env'.vault = env.vault := by
  rcases when_eq_ok.mp h with ⟨hpos, h⟩ | ⟨hpos, rfl⟩
  · obtain ⟨token, target, htoken, htreasury, h⟩ := hf h
    obtain ⟨tokens, ht, rfl⟩ := transfer_eq_ok.mp h
    exact ⟨_, .inr ⟨hpos, target, htreasury, rfl⟩, .one htoken ht rfl, rfl⟩
  · exact ⟨[], .inl ⟨not_lt.mp hpos, rfl⟩, .inl ⟨rfl, rfl⟩, rfl⟩

theorem cancelGrant_operates {env env' : Env} {grantId : Nat}
    (h : cancelGrant env grantId = .ok env') : Operates env grantId .cancel env' := by
  unfold cancelGrant readGrant readGrantToken readTreasury at h
  simp only [bind_eq_ok, okOr_eq_ok, ensure_eq_ok, I128.checkedAdd_eq_some,
    I128.checkedSub_eq_some] at h
  obtain ⟨g, hg, _, -, _, hstatus, s, hs, _, ⟨-, rfl⟩, _, ⟨-, rfl⟩, _, ⟨-, rfl⟩, _, ⟨-, rfl⟩, h⟩ := h
  obtain ⟨sweep, hsweep, hpays, hvault⟩ := sweep_eq_ok
    (fun {env'} h => by
      simp only [bind_eq_ok, okOr_eq_ok] at h
      obtain ⟨token, htoken, target, htarget, h⟩ := h
      exact ⟨token, target, htoken, htarget, h⟩) h
  have hrest : s.totalAmount - (s.withdrawn + s.validatorWithdrawn + s.claimable +
      s.validatorClaimable) = s.totalAmount - s.accounted := by
    unfold Grant.accounted
    ring
  rw [hrest] at hsweep
  exact .of_write hg (.cancel (settleGrant_eq_ok hs) hstatus hsweep rfl) hpays hvault

theorem executeProtectedClawback_operates {env env' : Env} {actionId grantId : Nat}
    (h : executeProtectedClawback env actionId grantId = .ok env') :
    Operates env grantId .cancel env' := by
  unfold executeProtectedClawback at h
  simp only [bind_eq_ok] at h
  obtain ⟨_, -, _, -, _, -, council, -, h⟩ := h
  -- the council state is no part of the vault
  exact .of_vault (env.setCouncil_vault council) rfl (cancelGrant_operates h)

theorem setLegalMetadata_operates {env env' : Env} {grantId : Nat} {legalHash : String}
    {requiresSignature : Bool}
    (h : setLegalMetadata env grantId legalHash requiresSignature = .ok env') :
    Operates env grantId (.setLegal legalHash requiresSignature) env' := by
  unfold setLegalMetadata readGrant readGrantToken at h
  simp only [bind_eq_ok, okOr_eq_ok, pure_eq_ok] at h
  obtain ⟨_, -, g, hg, _, -, rfl⟩ := h
  exact .of_write hg (.setLegal rfl) (.inl ⟨rfl, rfl⟩) rfl

theorem signLegalMetadata_operates {env env' : Env} {grantId : Nat}
    (h : signLegalMetadata env grantId = .ok env') : Operates env grantId .signLegal env' := by
  unfold signLegalMetadata readGrant readGrantToken readAdmin at h
  simp only [bind_eq_ok, okOr_eq_ok, ensure_eq_ok, pure_eq_ok] at h
  obtain ⟨g, hg, _, -, _, hhash, _, -, _, -, rfl⟩ := h
  exact .of_write hg (.signLegal hhash rfl) (.inl ⟨rfl, rfl⟩) rfl

theorem changeGrantee_operates {env env' : Env} {grantId : Nat} {newGrantee : Address}
    (h : changeGrantee env grantId newGrantee = .ok env') :
    Operates env grantId (.changeGrantee newGrantee) env' := by
  unfold changeGrantee readGrant readGrantToken at h
  simp only [bind_eq_ok, okOr_eq_ok, ensure_eq_ok, pure_eq_ok] at h
  obtain ⟨_, -, g, hg, _, hstatus, _, hne, _, -, rfl⟩ := h
  refine ⟨g, ⟨_, env.disputeEscrow grantId⟩, [], hg, .changeGrantee hstatus hne rfl,
    .inl ⟨rfl, rfl⟩, ?_⟩
  rw [Function.update_eq_self]
  rfl

theorem resolveDisputedClawback_operates {env env' : Env} {grantId : Nat} {releaseToDonor : Bool}
    (h : resolveDisputedClawback env grantId releaseToDonor = .ok env') :
    Operates env grantId (.resolve releaseToDonor) env' := by
  unfold resolveDisputedClawback readGrant readGrantToken readTreasury at h
  simp only [bind_eq_ok, okOr_eq_ok, ensure_eq_ok] at h
  obtain ⟨_, -, g, hg, _, hstatus, amount, hescrow, _, hamount, token, htoken, h⟩ := h
  cases releaseToDonor with
  | true =>
      rw [if_pos rfl] at h
      simp only [bind_eq_ok, okOr_eq_ok, transfer_eq_ok, pure_eq_ok] at h
      obtain ⟨donor, hdonor, _, ⟨tokens, ht, rfl⟩, rfl⟩ := h
      have hstep : GrantStep env.timestamp env.treasury (.resolve true)
          ⟨g, env.disputeEscrow grantId⟩ ⟨g, none⟩ [⟨donor, amount⟩] := by
        rw [hescrow]
        exact .resolveToDonor hstatus hamount hdonor
      refine ⟨g, ⟨g, none⟩, _, hg, hstep, .one htoken ht rfl, ?_⟩
      rw [← hg, Function.update_eq_self]
      rfl
  | false =>
      rw [if_neg Bool.false_ne_true] at h
      simp only [Env.writeGrant, bind_eq_ok, okOr_eq_ok, transfer_eq_ok, pure_eq_ok,
        I128.checkedAdd_eq_some] at h
      obtain ⟨_, ⟨hrange, rfl⟩, target, htarget, _, ⟨tokens, ht, rfl⟩, rfl⟩ := h
      have hstep : GrantStep env.timestamp env.treasury (.resolve false)
          ⟨g, env.disputeEscrow grantId⟩
          ⟨{ g with
              status := .active
              lastUpdateTs := env.timestamp
              totalAmount := g.totalAmount + amount }, none⟩ [⟨target, amount⟩] := by
        rw [hescrow]
        exact .resolveToGrantee hstatus hamount htarget hrange rfl
      exact ⟨g, ⟨_, none⟩, _, hg, hstep, .one htoken ht rfl, rfl⟩

theorem calculateUnearnedBalance_eq_ok {grant : Grant} {unearned : Int}
    (h : calculateUnearnedBalance grant = .ok unearned) :
    unearned = grant.totalAmount - grant.accounted := by
  unfold calculateUnearnedBalance at h
  simp only [bind_eq_ok, okOr_eq_ok, I128.checkedSub_eq_some] at h
  obtain ⟨a, ha, -, rfl⟩ := h
  rw [(totalAccounted_eq_ok ha).1]

theorem triggerGrantClawback_operates {env env' : Env} {grantId : Nat} {reason : String}
    {contested : Bool} (h : triggerGrantClawback env grantId reason contested = .ok env') :
    Operates env grantId (.clawback contested) env' := by
  unfold triggerGrantClawback readGrant readGrantToken readAdmin at h
  simp only [Env.setClawbackCheckpoint, bind_eq_ok, okOr_eq_ok, ensure_eq_ok] at h
  obtain ⟨g, hg, _, -, _, hstatus, _, -, _, -, s', hs', unearned, hunearned, h⟩ := h
  obtain ⟨s, hs, rfl⟩ := (settleGrant_eq_ok hs').of_checkpoint
  obtain rfl : unearned = s.totalAmount - s.accounted := calculateUnearnedBalance_eq_ok hunearned
  by_cases hrest : s.totalAmount - s.accounted ≤ 0
  · rw [if_pos hrest] at h
    simp only [bind_eq_ok, okOr_eq_ok, pure_eq_ok] at h
    obtain ⟨_, -, _, -, rfl⟩ := h
    exact .of_write hg (.clawbackNothing hs hstatus hrest rfl) (.inl ⟨rfl, rfl⟩) rfl
  · rw [if_neg hrest] at h
    have hrest := not_le.mp hrest
    simp only [bind_eq_ok, okOr_eq_ok] at h
    obtain ⟨token, htoken, h⟩ := h
    cases contested with
    | true =>
        rw [if_pos rfl] at h
        simp only [bind_eq_ok, pure_eq_ok, okOr_eq_ok] at h
        obtain ⟨_, rfl, _, -, rfl⟩ := h
        exact ⟨g, _, [], hg, .clawbackContested hs hstatus hrest rfl, .inl ⟨rfl, rfl⟩, rfl⟩
    | false =>
        rw [if_neg Bool.false_ne_true] at h
        simp only [bind_eq_ok, pure_eq_ok, okOr_eq_ok, transfer_eq_ok] at h
        obtain ⟨donor, hdonor, _, ⟨tokens, ht, rfl⟩, _, -, rfl⟩ := h
        have hdonor : g.donor = some donor := by
          rw [← hdonor, hs.eq_settled]
          exact (g.settled_donor _).symm
        exact .of_write hg (.clawbackToDonor hs hstatus hrest hdonor rfl) (.one htoken ht rfl) rfl

theorem payValidator_eq_ok {env env' : Env} {token : Address} {validator : Option Address}
    {amount : Int} (htoken : env.grantToken = some token)
    (h : payValidator env token validator amount = .ok env') :
    Pays env (validatorPayout validator amount) env' ∧ env'.vault = env.vault := by
  unfold payValidator at h
  unfold validatorPayout
  cases validator with
  | none =>
      obtain rfl := pure_eq_ok.mp h
      exact ⟨.inl ⟨rfl, rfl⟩, rfl⟩
  | some target =>
      rcases when_eq_ok.mp h with ⟨hpos, h⟩ | ⟨hpos, rfl⟩
      · obtain ⟨tokens, ht, rfl⟩ := transfer_eq_ok.mp h
        dsimp only
        rw [if_pos hpos]
        exact ⟨.one htoken ht rfl, rfl⟩
      · dsimp only
        rw [if_neg hpos]
        exact ⟨.inl ⟨rfl, rfl⟩, rfl⟩

theorem payRageQuit_eq_ok {env env' : Env} {grant : Grant}
    {claimAmount validatorAmount remaining : Int}
    (h : payRageQuit env grant claimAmount validatorAmount remaining = .ok env') :
    ∃ sweep, Sweep env.treasury remaining sweep ∧
      Pays env (⟨grant.recipient, claimAmount⟩ ::
        (validatorPayout grant.validator validatorAmount ++ sweep)) env' ∧
      env'.vault = env.vault := by
  unfold payRageQuit readGrantToken readTreasury at h
  simp only [bind_eq_ok, okOr_eq_ok] at h
  obtain ⟨token, htoken, env₁, h₁, env₂, h₂, h₃⟩ := h
  obtain ⟨tokens₁, ht₁, henv₁⟩ := transfer_eq_ok.mp h₁
  have hpays₁ : Pays env [⟨grant.recipient, claimAmount⟩] env₁ :=
    .one htoken ht₁ (congrArg Env.tokens henv₁).symm
  have hv₁ := transfer_vault h₁
  have htoken₁ : env₁.grantToken = some token := (congrArg Vault.grantToken hv₁).trans htoken
  obtain ⟨hpays₂, hv₂⟩ := payValidator_eq_ok htoken₁ h₂
  have htoken₂ : env₂.grantToken = some token := (congrArg Vault.grantToken hv₂).trans htoken₁
  obtain ⟨sweep, hsweep, hpays₃, hv₃⟩ := sweep_eq_ok
    (fun {env'} h => by
      simp only [bind_eq_ok, okOr_eq_ok] at h
      obtain ⟨target, htarget, h⟩ := h
      exact ⟨token, target, htoken₂, htarget, h⟩) h₃
  have htreasury : env₂.treasury = env.treasury := congrArg Vault.treasury (hv₂.trans hv₁)
  refine ⟨sweep, htreasury ▸ hsweep, ?_, (hv₃.trans hv₂).trans hv₁⟩
  exact hpays₁.append hv₁ (hpays₂.append hv₂ hpays₃)

theorem rageQuit_operates {env env' : Env} {grantId : Nat}
    (h : rageQuit env grantId = .ok env') : Operates env grantId .rageQuit env' := by
  unfold rageQuit readGrant at h
  simp only [bind_eq_ok, okOr_eq_ok, ensure_eq_ok, I128.checkedAdd_eq_some,
    I128.checkedSub_eq_some] at h
  obtain ⟨g, hg, _, -, _, hstatus, s, hs, _, ⟨-, rfl⟩, _, ⟨-, rfl⟩, _, ⟨-, rfl⟩, _, ⟨-, rfl⟩, h⟩ := h
  obtain ⟨sweep, hsweep, hpays, hvault⟩ := payRageQuit_eq_ok h
  exact .of_write hg (.rageQuit (settleGrant_eq_ok hs) hstatus hsweep rfl) hpays hvault

/-! ### Creating and deleting grants -/

theorem createGrant_vault {env env' : Env} {grantId : Nat} {recipient : Address}
    {totalAmount flowRate : Int} {warmupDuration : Nat} {validator donor : Option Address}
    (h : createGrant env grantId recipient totalAmount flowRate warmupDuration validator donor =
      .ok env') :
    env.grants grantId = none ∧ 0 < totalAmount ∧ 0 ≤ flowRate ∧
      ∃ admin token, env.admin = some admin ∧ env.grantToken = some token ∧
        env'.vault = { env.vault with
          grants := Function.update env.grants grantId (some
            (newGrant env.timestamp recipient totalAmount flowRate warmupDuration validator donor
              token))
          grantIds := env.grantIds ++ [grantId]
          recipientGrants := Function.update env.recipientGrants recipient
            (env.recipientGrants recipient ++ [grantId]) } := by
  unfold createGrant readGrantToken at h
  simp only [bind_eq_ok, okOr_eq_ok, ensure_eq_ok, pure_eq_ok, requireAdminAuth_eq_ok] at h
  obtain ⟨_, ⟨admin, hadmin, -⟩, _, -, _, ⟨htotal, hflow⟩, _, hnone, token, htoken, rfl⟩ := h
  exact ⟨hnone, htotal, hflow, admin, token, hadmin, htoken, rfl⟩

/-- A settled grant that may be deleted. -/
structure Purgeable (grant : Grant) : Prop where
  status : grant.status = .completed ∨ grant.status = .cancelled
  claimable : grant.claimable ≤ 0
  validatorClaimable : grant.validatorClaimable ≤ 0
  accounted : grant.status = .completed → grant.accounted = grant.totalAmount

theorem requirePurgeable_eq_ok {grant : Grant} {u : Unit} (h : requirePurgeable grant = .ok u) :
    Purgeable grant := by
  unfold requirePurgeable at h
  simp only [bind_eq_ok, ensure_eq_ok] at h
  obtain ⟨_, hstatus, _, ⟨hc, hv⟩, h⟩ := h
  refine ⟨hstatus, hc, hv, fun hdone => ?_⟩
  rw [if_pos hdone] at h
  simp only [bind_eq_ok, ensure_eq_ok] at h
  obtain ⟨a, ha, haccounted⟩ := h
  rw [← (totalAccounted_eq_ok ha).1, haccounted]

theorem finalizeAndPurge_vault {env env' : Env} {grantId : Nat} {purger : Address}
    (h : finalizeAndPurge env grantId purger = .ok env') :
    ∃ g s, env.grants grantId = some g ∧ Settles g env.timestamp s ∧ Purgeable s ∧
      env'.vault = { env.vault with
        grants := Function.update env.grants grantId none
        grantIds := env.grantIds.filter (· ≠ grantId)
        recipientGrants := Function.update env.recipientGrants s.recipient
          ((env.recipientGrants s.recipient).filter (· ≠ grantId)) } := by
  unfold finalizeAndPurge readGrant at h
  simp only [bind_eq_ok, okOr_eq_ok] at h
  obtain ⟨_, -, g, hg, s, hs, _, hpurge, h⟩ := h
  refine ⟨g, s, hg, settleGrant_eq_ok hs, requirePurgeable_eq_ok hpurge, ?_⟩
  rw [payBounty_vault h]
  rfl

theorem pruneFinalizedGrant_vault {env env' : Env} {grantId : Nat} {relayer : Address}
    (h : pruneFinalizedGrant env grantId relayer = .ok env') :
    ∃ g s, env.grants grantId = some g ∧ Settles g env.timestamp s ∧ Purgeable s ∧
      env'.vault = { env.vault with
        grants := Function.update env.grants grantId none
        grantIds := removeFirst env.grantIds grantId
        recipientGrants := Function.update env.recipientGrants s.recipient
          (removeFirst (env.recipientGrants s.recipient) grantId) } := by
  unfold pruneFinalizedGrant readGrant at h
  simp only [bind_eq_ok, okOr_eq_ok, ensure_eq_ok] at h
  obtain ⟨_, -, g, hg, s, hs, _, -, _, -, _, -, _, hpurge, h⟩ := h
  refine ⟨g, s, hg, settleGrant_eq_ok hs, requirePurgeable_eq_ok hpurge, ?_⟩
  -- removing the other entries of the grant does not touch the vault
  have hdelete : ∀ env₁ : Env, env₁.vault = env.vault →
      ((((env₁.removeGrant grantId).setGrantIds (removeFirst env₁.grantIds grantId))
        ).setRecipientGrants s.recipient
          (removeFirst (env₁.recipientGrants s.recipient) grantId)).vault = { env.vault with
        grants := Function.update env.grants grantId none
        grantIds := removeFirst env.grantIds grantId
        recipientGrants := Function.update env.recipientGrants s.recipient
          (removeFirst (env.recipientGrants s.recipient) grantId) } := by
    intro env₁ hv
    have hgrants : env₁.grants = env.grants := congrArg Vault.grants hv
    have hids : env₁.grantIds = env.grantIds := congrArg Vault.grantIds hv
    have hindex : env₁.recipientGrants = env.recipientGrants := congrArg Vault.recipientGrants hv
    rw [hids, hindex, ← hgrants, ← hids, ← hindex, ← hv]
    rfl
  rw [payBounty_vault h]
  exact hdelete _ (by simp only [Env.setClaimValueCounter_vault, Env.setSubmitNonce_vault,
    Env.removeMilestones_vault, Env.setTombstone_vault])

/-! ### Every other call -/

theorem initializeContract_vault {env env' : Env}
    {admin grantToken treasury oracle nativeToken : Address}
    (h : initializeContract env admin grantToken treasury oracle nativeToken = .ok env') :
    env.admin = none ∧ env'.vault = { env.vault with
      admin := some admin
      grantToken := some grantToken
      treasury := some treasury
      nativeToken := some nativeToken
      grantIds := [] } := by
  unfold initializeContract at h
  simp only [bind_eq_ok, ensure_eq_ok, pure_eq_ok] at h
  obtain ⟨_, hadmin, rfl⟩ := h
  exact ⟨hadmin, rfl⟩

theorem confidentialClaim_vault {env env' : Env} {grantId : Nat} {claimAmount : Int}
    {nullifier proof : Bytes}
    (h : confidentialClaim env grantId claimAmount nullifier proof = .ok env') :
    env'.vault = env.vault := by
  unfold confidentialClaim at h
  simp only [bind_eq_ok] at h
  obtain ⟨_, -, _, -, _, -, _, -, _, -, _, -, h⟩ := h
  rw [transfer_vault h]
  rfl

/-- A rescue ends with the transfer it was called for. -/
theorem rescueTokens_transfer {env env' : Env} {tokenAddress target : Address} {amount : Int}
    (h : rescueTokens env tokenAddress amount target = .ok env') :
    env.transfer tokenAddress env.self target amount = .ok env' := by
  unfold rescueTokens at h
  simp only [bind_eq_ok] at h
  obtain ⟨_, -, _, -, _, -, h⟩ := h
  split_ifs at h
  all_goals
    simp only [bind_eq_ok] at h
    obtain ⟨_, -, _, -, _, -, h⟩ := h
    exact h

theorem rescueTokens_vault {env env' : Env} {tokenAddress target : Address} {amount : Int}
    (h : rescueTokens env tokenAddress amount target = .ok env') : env'.vault = env.vault :=
  transfer_vault (rescueTokens_transfer h)

theorem executeRescue_transfer {env env' : Env} {caller tokenAddress : Address} {proposalId : Nat}
    (h : executeRescue env caller proposalId tokenAddress = .ok env') :
    ∃ proposal rescue, env.rescue.proposal proposalId = some proposal ∧
      (env.setRescue rescue).transfer tokenAddress (env.setRescue rescue).self
        proposal.rescueTo proposal.amount = .ok env' := by
  unfold executeRescue MultiThreshold.executeRescue at h
  simp only [bind_eq_ok, okOr_eq_ok, pure_eq_ok] at h
  obtain ⟨_, ⟨_, -, _, -, proposal, hproposal, _, -, _, -, rfl⟩, h⟩ := h
  exact ⟨proposal, _, hproposal, h⟩

theorem executeRescue_vault {env env' : Env} {caller tokenAddress : Address} {proposalId : Nat}
    (h : executeRescue env caller proposalId tokenAddress = .ok env') :
    env'.vault = env.vault := by
  obtain ⟨_, _, -, h⟩ := executeRescue_transfer h
  exact (transfer_vault h).trans (Env.setRescue_vault ..)

theorem submitMilestoneProof_vault {env env' : Env} {grantId milestoneIndex : Nat}
    {proof : String} {nonce : Nat}
    (h : submitMilestoneProof env grantId milestoneIndex proof nonce = .ok env') :
    env'.vault = env.vault := by
  unfold submitMilestoneProof at h
  simp only [bind_eq_ok, pure_eq_ok] at h
  obtain ⟨_, -, _, -, _, -, _, -, _, -, _, -, env₁, ht, _, -, rfl⟩ := h
  simp [transfer_vault ht]

theorem approveMilestoneSubmission_vault {env env' : Env} {grantId milestoneIndex : Nat}
    (h : approveMilestoneSubmission env grantId milestoneIndex = .ok env') :
    env'.vault = env.vault := by
  unfold approveMilestoneSubmission at h
  simp only [bind_eq_ok, pure_eq_ok] at h
  obtain ⟨_, -, _, -, _, -, _, -, env₁, ht, rfl⟩ := h
  simp [transfer_vault ht]

theorem slashMsSubmissionDeposit_vault {env env' : Env} {grantId milestoneIndex : Nat}
    (h : slashMsSubmissionDeposit env grantId milestoneIndex = .ok env') :
    env'.vault = env.vault := by
  unfold slashMsSubmissionDeposit at h
  simp only [bind_eq_ok, pure_eq_ok] at h
  obtain ⟨_, -, _, -, _, -, _, -, env₁, ht, rfl⟩ := h
  simp [transfer_vault ht]

theorem triggerGrantDispute_vault {env env' : Env} {grantId : Nat}
    (h : triggerGrantDispute env grantId = .ok env') : env'.vault = env.vault := by
  unfold triggerGrantDispute at h
  simp only [bind_eq_ok] at h
  obtain ⟨_, -, h⟩ := h
  split_ifs at h
  · obtain rfl := pure_eq_ok.mp h
    rfl
  · simp only [bind_eq_ok, pure_eq_ok] at h
    obtain ⟨_, -, rfl⟩ := h
    rfl

/-- Every environment that `out` reads off a result of `x` has the vault of `env`. -/
def Frames {α : Type} (env : Env) (out : α → Env) (x : Res α) : Prop :=
  ∀ a, x = .ok a → (out a).vault = env.vault

namespace Frames

variable {α β : Type} {env : Env}

theorem elim (out : α → Env) {x : Res α} (h : Frames env out x) {a : α} (ha : x = .ok a) :
    (out a).vault = env.vault := h a ha

theorem pure {out : α → Env} {a : α} (h : (out a).vault = env.vault) :
    Frames env out (Pure.pure a) := by
  intro b hb
  rw [← pure_eq_ok.mp hb]
  exact h

/-- A guard or a read in front of the rest of a block. -/
theorem bind {out : β → Env} {x : Res α} {f : α → Res β} (h : ∀ a, Frames env out (f a)) :
    Frames env out (x >>= f) := by
  intro b hb
  obtain ⟨a, -, hb⟩ := bind_eq_ok.mp hb
  exact h a b hb

theorem map {out : β → Env} {x : Res α} {f : α → β} (h : Frames env (fun a => out (f a)) x) :
    Frames env out (f <$> x) := by
  intro b hb
  obtain ⟨a, ha, rfl⟩ := map_eq_ok.mp hb
  exact h a ha

end Frames

/-! ### The effect of a call -/

/-- What a successful call does to the vault. -/
inductive CallEffect (env : Env) : Call → Env → Prop
  | keeps {call : Call} {env' : Env} (hop : call.grantOp? = none) (h : env'.vault = env.vault) :
      CallEffect env call env'
  | initialized {admin grantToken treasury oracle nativeToken : Address} {env' : Env}
      (hadmin : env.admin = none) (h : env'.vault = { env.vault with
        admin := some admin
        grantToken := some grantToken
        treasury := some treasury
        nativeToken := some nativeToken
        grantIds := [] }) :
      CallEffect env (.initializeContract admin grantToken treasury oracle nativeToken) env'
  | created {grantId : Nat} {recipient : Address} {totalAmount flowRate : Int}
      {warmupDuration : Nat} {validator donor : Option Address} {admin token : Address}
      {env' : Env} (hnone : env.grants grantId = none) (htotal : 0 < totalAmount)
      (hflow : 0 ≤ flowRate) (hadmin : env.admin = some admin)
      (htoken : env.grantToken = some token) (h : env'.vault = { env.vault with
        grants := Function.update env.grants grantId (some
          (newGrant env.timestamp recipient totalAmount flowRate warmupDuration validator donor
            token))
        grantIds := env.grantIds ++ [grantId]
        recipientGrants := Function.update env.recipientGrants recipient
          (env.recipientGrants recipient ++ [grantId]) }) :
      CallEffect env
        (.createGrant grantId recipient totalAmount flowRate warmupDuration validator donor) env'
  | operated {call : Call} {grantId : Nat} {op : GrantOp} {env' : Env}
      (hop : call.grantOp? = some (grantId, op)) (h : Operates env grantId op env') :
      CallEffect env call env'
  | deleted {call : Call} {grantId : Nat} {g s : Grant} {ids : List Nat} {env' : Env}
      (hop : call.grantOp? = none) (hg : env.grants grantId = some g)
      (hs : Settles g env.timestamp s) (hpurge : Purgeable s)
      (hids : ids = env.grantIds.filter (· ≠ grantId) ∨ ids = env.grantIds.erase grantId)
      (h : env'.vault = { env.vault with
        grants := Function.update env.grants grantId none
        grantIds := ids
        recipientGrants := env'.recipientGrants }) :
      CallEffect env call env'

/-- Every successful call has one of these effects. -/
theorem callEffect_of_exec {env env' : Env} {call : Call} (h : call.exec env = .ok env') :
    CallEffect env call env' := by
  cases call <;> unfold Call.exec at h
  case initializeContract =>
    obtain ⟨hadmin, hv⟩ := initializeContract_vault h
    exact .initialized hadmin hv
  case createGrant =>
    obtain ⟨hnone, htotal, hflow, admin, token, hadmin, htoken, hv⟩ := createGrant_vault h
    exact .created hnone htotal hflow hadmin htoken hv
  case withdraw => exact .operated rfl (withdraw_operates h)
  case withdrawValidator => exact .operated rfl (withdrawValidator_operates h)
  case pauseStream => exact .operated rfl (pauseStream_operates h)
  case resumeStream => exact .operated rfl (resumeStream_operates h)
  case proposeRateChange => exact .operated rfl (proposeRateChange_operates h)
  case applyKpiMultiplier => exact .operated rfl (applyKpiMultiplier_operates h)
  case rageQuit => exact .operated rfl (rageQuit_operates h)
  case cancelGrant => exact .operated rfl (cancelGrant_operates h)
  case changeGrantee => exact .operated rfl (changeGrantee_operates h)
  case triggerGrantClawback => exact .operated rfl (triggerGrantClawback_operates h)
  case resolveDisputedClawback => exact .operated rfl (resolveDisputedClawback_operates h)
  case setLegalMetadata => exact .operated rfl (setLegalMetadata_operates h)
  case signLegalMetadata => exact .operated rfl (signLegalMetadata_operates h)
  case executeProtectedClawback => exact .operated rfl (executeProtectedClawback_operates h)
  case finalizeAndPurge =>
    obtain ⟨g, s, hg, hs, hpurge, hv⟩ := finalizeAndPurge_vault h
    refine .deleted rfl hg hs hpurge (.inl rfl) ?_
    rw [hv, show env'.recipientGrants = _ from congrArg Vault.recipientGrants hv]
  case pruneFinalizedGrant =>
    obtain ⟨g, s, hg, hs, hpurge, hv⟩ := pruneFinalizedGrant_vault h
    refine .deleted rfl hg hs hpurge (.inr rfl) ?_
    rw [hv, show env'.recipientGrants = _ from congrArg Vault.recipientGrants hv]
    rfl
  case confidentialClaim => exact .keeps rfl (confidentialClaim_vault h)
  case rescueTokens => exact .keeps rfl (rescueTokens_vault h)
  case executeRescue => exact .keeps rfl (executeRescue_vault h)
  case submitMilestoneProof => exact .keeps rfl (submitMilestoneProof_vault h)
  case approveMilestoneSubmission => exact .keeps rfl (approveMilestoneSubmission_vault h)
  case slashMsSubmissionDeposit => exact .keeps rfl (slashMsSubmissionDeposit_vault h)
  case triggerGrantDispute => exact .keeps rfl (triggerGrantDispute_vault h)
  case setSep38Rate | createConfidentialGrant | emergencyPause | setSanityOracle
    | confirmOraclePrice | updateTvlSnapshot | disableRentPreservationMode
    | resumeAfterVelocityCheck | resumeGrantInitialization | initializeRescueSigners
    | approveRescue | cancelRescue | initializeSecurityCouncil | councilSignVeto
    | executeTimelockedAction | proposeCouncilRotation | execCouncilRotation =>
    refine .keeps rfl (Frames.elim id ?_ h)
    repeat refine .bind fun _ => ?_
    exact .pure rfl
  case submitOraclePrice | checkRentBalance | heartbeatEmit | proposeRescue
    | createTimelockedAction | protectedClawback =>
    refine .keeps rfl (Frames.elim id (.map ?_) h)
    repeat refine .bind fun _ => ?_
    exact .pure rfl

/-- A call that operates on a grant takes one step of its account. -/
theorem operates_of_exec {env env' : Env} {call : Call} (h : call.exec env = .ok env')
    {grantId : Nat} {op : GrantOp} (hop : call.grantOp? = some (grantId, op)) :
    Operates env grantId op env' := by
  cases callEffect_of_exec h with
  | keeps hnone | deleted hnone => cases hnone.symm.trans hop
  | initialized | created => cases hop
  | operated hop' hoperates =>
      cases hop'.symm.trans hop
      exact hoperates

end YieldTrust.GrantStream
