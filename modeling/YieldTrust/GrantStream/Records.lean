import YieldTrust.GrantStream.Regions

/-!
# YieldTrust.GrantStream.Records

What a withdrawal is recorded as. `withdraw` is the only call that appends to the
claim log, the tax report and the audit log, and `withdraw_records` says what it
appends; everything about these three logs is read off it.
-/

namespace YieldTrust.GrantStream

open Fallible

/-- The index of the next entry of the claim log. -/
def nextClaimIndex (env : Env) (grantId : Nat) : Nat :=
  U64.saturatingAdd ((env.claimValueCounter grantId).getD 0) 1

/-- The claim log of the grant has one more entry, for `amount`. -/
structure ClaimLogged (env : Env) (grantId : Nat) (amount : Int) (env' : Env) : Prop where
  counter : env'.claimValueCounter =
    Function.update env.claimValueCounter grantId (some (nextClaimIndex env grantId))
  value : ∃ value : ClaimFiatValue,
    value.claimIndex = nextClaimIndex env grantId ∧ value.tokenAmount = amount ∧
      env'.claimValue = Function.update env.claimValue grantId
        (Function.update (env.claimValue grantId) (nextClaimIndex env grantId) (some value))

/-- The withdrawal of `amount` from `grant` is in the three logs of `env'`. -/
structure WithdrawalRecorded (env : Env) (grantId : Nat) (amount : Int) (grant : Grant)
    (env' : Env) : Prop where
  claim : ClaimLogged env grantId amount env'
  flow : env'.flowHistory =
    TaxReporting.recordFlow env grant.recipient (grant.withdrawn + amount)
  audit : env'.audit = AuditLog.updateAuditLeaf env grantId (grant.withdrawn + amount)

theorem recordClaimValue_logged {env env₁ : Env}
    (hcounter : env₁.claimValueCounter = env.claimValueCounter)
    (hvalue : env₁.claimValue = env.claimValue) (grantId : Nat) (recipient tokenAddr : Address)
    (amount : Int) :
    ClaimLogged env grantId amount (recordClaimValue env₁ grantId recipient tokenAddr amount) := by
  have hindex : nextClaimIndex env₁ grantId = nextClaimIndex env grantId := by
    unfold nextClaimIndex
    rw [hcounter]
  constructor
  · rw [← hindex, ← hcounter]
    rfl
  · rw [← hindex, ← hvalue]
    exact ⟨_, rfl, rfl, rfl⟩

/-- **Records.** What a successful withdrawal appends to the three logs. -/
theorem withdraw_records {env env' : Env} {grantId : Nat} {amount : Int}
    (h : withdraw env grantId amount = .ok env') :
    ∃ grant s, env.grants grantId = some grant ∧ Settles grant env.timestamp s ∧ 0 < amount ∧
      amount ≤ s.claimable ∧ WithdrawalRecorded env grantId amount grant env' := by
  unfold withdraw payWithdrawal readGrant at h
  simp only [bind_eq_ok, okOr_eq_ok, ensure_eq_ok] at h
  obtain ⟨grant, hg, _, -, _, hamount, _, -, _, -, _, -, _, -, m, hm, velocity, -, tokenAddr, -,
    env₁, htransfer, _, -, h⟩ := h
  obtain ⟨s, hs, -, -, hle, hm⟩ := debitWithdrawal_eq_ok hm
  have hwithdrawn : m.withdrawn = grant.withdrawn + amount := by
    rw [hm, ← grant.settled_withdrawn env.timestamp, hs.eq_settled]
  have hrecipient : m.recipient = grant.recipient := by
    rw [hm, ← grant.settled_recipient env.timestamp, hs.eq_settled]
  -- the logs are still as they were when the claim is recorded
  have hpaid : Frame [.grants, .breakers, .tokens] env env₁ := by
    have hbreakers := (setBreakers_frame (env.writeGrant grantId m) velocity.1).trans
      (setBreakers_frame _ (CircuitBreakers.checkRentBalance
        ((env.writeGrant grantId m).setBreakers velocity.1)).1)
    exact (writeGrant_frame env grantId m).comp (hbreakers.comp (transfer_frame _ htransfer))
  have hlogged := hpaid.comp (recordClaimValue_frame env₁ grantId m.recipient tokenAddr amount)
  obtain ⟨htime, -, -, -, hhost⟩ := hlogged.same .ledger (by decide)
  obtain ⟨hflow, haudit, -⟩ := hlogged.same .reports (by decide)
  obtain ⟨hcounter, hvalue⟩ := hpaid.same .claims (by decide)
  obtain ⟨hcounter, hvalue⟩ :=
    recordClaimValue_logged hcounter hvalue grantId m.recipient tokenAddr amount
  obtain rfl := pure_eq_ok.mp h
  refine ⟨grant, s, hg, hs, hamount, hle, ⟨hcounter, hvalue⟩, ?_, ?_⟩
  · rw [← hwithdrawn, ← hrecipient, ← TaxReporting.recordFlow_congr hflow htime]
    rfl
  · rw [← hwithdrawn]
    refine AuditLog.updateAuditLeaf_congr ?_ ?_ grantId m.withdrawn
    · exact haudit
    · exact hhost

end YieldTrust.GrantStream
