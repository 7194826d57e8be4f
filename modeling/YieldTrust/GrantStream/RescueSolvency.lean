import YieldTrust.GrantStream.Registry
import YieldTrust.Lib.PartialMap

/-!
# YieldTrust.GrantStream.RescueSolvency

What the contract owes in the grant token, and what a rescue leaves of its
balance. `total_allocated_funds` counts the grants that still stream. It does not
count what finished grants may still claim, nor the escrows of disputed
clawbacks, and `execute_rescue` does not look at the balance at all.
-/

namespace YieldTrust.GrantStream

open Fallible

/-! ### Obligations -/

namespace Grant

/-- The settled claimable balances at `now`; the stored ones if the settlement fails. -/
def claimableAt (grant : Grant) (now : Nat) : Int :=
  match settleGrant grant now with
  | .ok s => s.claimable + s.validatorClaimable
  | .error _ => grant.claimable + grant.validatorClaimable

/-- What is owed for the grant: everything that is not paid yet while it streams,
and the claimable balances once it is over. -/
def obligation (grant : Grant) (now : Nat) : Int :=
  match grant.status with
  | .active | .paused => grant.totalAmount - (grant.withdrawn + grant.validatorWithdrawn)
  | .completed | .cancelled | .clawbacked => grant.claimableAt now
  | .rageQuitted => 0

/-- What `total_allocated_funds` counts of the grant. -/
def allocated (grant : Grant) : Int :=
  if grant.isLive then grant.totalAmount - grant.withdrawn else 0

/-- What it does not count: the claimable balances of a grant that is over. What
the validator was paid for a grant that streams it still counts. -/
def uncounted (grant : Grant) (now : Nat) : Int :=
  match grant.status with
  | .active | .paused => -grant.validatorWithdrawn
  | .completed | .cancelled | .clawbacked => grant.claimableAt now
  | .rageQuitted => 0

theorem obligation_eq (grant : Grant) (now : Nat) :
    grant.obligation now = grant.allocated + grant.uncounted now := by
  unfold obligation allocated uncounted isLive
  cases grant.status <;> simp <;> ring

end Grant

namespace Vault

/-- The obligations in the grant token: those of all grants and all open escrows. -/
noncomputable def obligations (v : Vault) : Int :=
  PartialMap.total v.grants (fun g => g.obligation v.timestamp) +
    PartialMap.total v.disputeEscrow id

/-- The sum that `total_allocated_funds` computes. -/
def allocated (v : Vault) : Int := ((v.grantIds.filterMap v.grants).map Grant.allocated).sum

/-- The obligations beyond it: what the grants that are over may still claim, and
the open escrows, less what validators were already paid. -/
noncomputable def uncounted (v : Vault) : Int :=
  PartialMap.total v.grants (fun g => g.uncounted v.timestamp) +
    PartialMap.total v.disputeEscrow id

theorem Registered.keys_finite {v : Vault} (h : v.Registered) :
    (PartialMap.keys v.grants).Finite :=
  v.grantIds.finite_toSet.subset fun id hid => (h.mem_iff id).mpr hid

theorem Registered.obligations_eq {v : Vault} (h : v.Registered) :
    v.obligations = v.allocated + v.uncounted := by
  have hsplit : (fun g : Grant => g.obligation v.timestamp) =
      fun g => g.allocated + g.uncounted v.timestamp :=
    funext fun g => g.obligation_eq v.timestamp
  unfold obligations allocated uncounted
  rw [hsplit, PartialMap.total_add h.keys_finite, PartialMap.total_eq_sum h.nodup h.mem_iff, add_assoc]

/-- With no escrow open, the obligations are a sum over the index. -/
theorem Registered.obligations_eq_sum {v : Vault} (h : v.Registered)
    (hescrow : ∀ id, v.disputeEscrow id = none) :
    v.obligations =
      ((v.grantIds.filterMap v.grants).map fun g => g.obligation v.timestamp).sum := by
  have hempty : PartialMap.keys v.disputeEscrow = ∅ :=
    Set.eq_empty_of_forall_notMem fun id hid => hid (hescrow id)
  unfold obligations
  rw [PartialMap.total_eq_sum h.nodup h.mem_iff, PartialMap.total_of_keys_empty hempty, add_zero]

end Vault

/-- The balance of the contract in the grant token covers its obligations. -/
def Covered (env : Env) (token : Address) : Prop :=
  env.vault.obligations ≤ env.balanceOf token env.self

/-- Only finitely many escrows are open at any time, so all of them count. -/
theorem escrows_finite_of_reachable {trace : Trace} {env : Env} (h : Reachable trace env) :
    (PartialMap.keys env.disputeEscrow).Finite := by
  refine Run.invariant (I := fun env => (PartialMap.keys env.vault.disputeEscrow).Finite) ?_ ?_ h
  · rintro env ⟨self, host, tokens, rfl⟩
    exact Set.finite_empty.subset fun id hid => hid rfl
  · intro env event env' ih hn
    have ih : (PartialMap.keys (env.enter event).vault.disputeEscrow).Finite := ih
    rcases vault_of_next hn with hv | ⟨call, heffect⟩
    · rw [hv]
      exact ih
    · cases heffect with
      | keeps _ hv | initialized _ hv | created _ _ _ _ _ hv | deleted _ _ _ _ _ hv =>
          rw [hv]
          exact ih
      | operated _ hoperates =>
          obtain ⟨g, a', payments, -, -, -, hv⟩ := hoperates
          rw [hv]
          exact PartialMap.keys_update_finite ih _ _

/-! ### The two rescues -/

theorem foldlM_allocated {grants : List Grant} {start a : Int}
    (h : grants.foldlM (fun total grant =>
      if grant.isLive then do
        let remaining ← okOr (I128.checkedSub grant.totalAmount grant.withdrawn) .mathOverflow
        okOr (I128.checkedAdd total remaining) .mathOverflow
      else pure total) start = (.ok a : Res Int)) :
    a = start + (grants.map Grant.allocated).sum := by
  induction grants generalizing start with
  | nil =>
      obtain rfl := pure_eq_ok.mp h
      exact (add_zero start).symm
  | cons g grants ih =>
      rw [List.foldlM_cons] at h
      obtain ⟨next, hnext, h⟩ := bind_eq_ok.mp h
      rw [ih h, List.map_cons, List.sum_cons, ← add_assoc]
      congr 1
      -- one round of the loop adds what is allocated to `g`
      unfold Grant.allocated
      by_cases hlive : g.isLive = true
      · rw [if_pos hlive] at hnext ⊢
        simp only [bind_eq_ok, okOr_eq_ok, I128.checkedSub_eq_some,
          I128.checkedAdd_eq_some] at hnext
        obtain ⟨_, ⟨-, rfl⟩, -, rfl⟩ := hnext
        rfl
      · rw [if_neg hlive] at hnext ⊢
        rw [← pure_eq_ok.mp hnext, add_zero]

theorem totalAllocatedFunds_eq_ok {env : Env} {a : Int} (h : totalAllocatedFunds env = .ok a) :
    a = env.vault.allocated := by
  have hsum := foldlM_allocated h
  rw [zero_add] at hsum
  exact hsum

/-- `Rescues env token amount target env'`: one of the two rescue calls sends
`amount` of the grant token to `target`. -/
inductive Rescues (env : Env) (token : Address) : Int → Address → Env → Prop
  | rescueTokens {amount : Int} {target : Address} {env' : Env}
      (h : GrantStream.rescueTokens env token amount target = .ok env') :
      Rescues env token amount target env'
  | executeRescue {caller : Address} {proposalId : Nat} {proposal : RescueProposal} {env' : Env}
      (hproposal : env.rescue.proposal proposalId = some proposal)
      (h : GrantStream.executeRescue env caller proposalId token = .ok env') :
      Rescues env token proposal.amount proposal.rescueTo env'

/-- A transfer to anyone but the contract itself takes the amount off its balance. -/
theorem transfer_balance {env env' : Env} {token target : Address} {amount : Int}
    (h : env.transfer token env.self target amount = .ok env') :
    env'.balanceOf token env'.self =
      env.balanceOf token env.self - (if target = env.self then 0 else amount) := by
  obtain ⟨tokens, ht, rfl⟩ := transfer_eq_ok.mp h
  exact TokenLedger.transfer_balance_source ht

/-- `rescue_tokens` leaves what `total_allocated_funds` counts. -/
theorem rescueTokens_eq_ok {env env' : Env} {token target : Address} {amount : Int}
    (htoken : env.grantToken = some token)
    (h : rescueTokens env token amount target = .ok env') :
    0 < amount ∧ env.vault.allocated ≤ env.balanceOf token env.self - amount ∧
      env.transfer token env.self target amount = .ok env' := by
  unfold rescueTokens readGrantToken at h
  rw [htoken] at h
  obtain ⟨_, -, h⟩ := bind_eq_ok.mp h
  obtain ⟨_, hamount, h⟩ := bind_eq_ok.mp h
  obtain ⟨grantToken, hgrantToken, h⟩ := bind_eq_ok.mp h
  obtain rfl := Option.some.inj (okOr_eq_ok.mp hgrantToken)
  rw [if_pos rfl] at h
  simp only [bind_eq_ok, okOr_eq_ok, ensure_eq_ok, I128.checkedSub_eq_some] at h
  obtain ⟨a, ha, _, ⟨-, rfl⟩, _, hrest, h⟩ := h
  rw [totalAllocatedFunds_eq_ok ha] at hrest
  exact ⟨ensure_eq_ok.mp hamount, hrest, h⟩

theorem executeRescue_eq_ok {env env' : Env} {caller token : Address} {proposalId : Nat}
    {proposal : RescueProposal} (hproposal : env.rescue.proposal proposalId = some proposal)
    (h : executeRescue env caller proposalId token = .ok env') :
    ∃ rescue, (env.setRescue rescue).transfer token (env.setRescue rescue).self
      proposal.rescueTo proposal.amount = .ok env' := by
  obtain ⟨p, rescue, hp, htransfer⟩ := executeRescue_transfer h
  obtain rfl : proposal = p := Option.some.inj (hproposal.symm.trans hp)
  exact ⟨rescue, htransfer⟩

/-- What either rescue does: the vault stays, and the amount is taken off the balance. -/
theorem Rescues.effect {env env' : Env} {token target : Address} {amount : Int}
    (h : Rescues env token amount target env') (htoken : env.grantToken = some token) :
    env'.vault = env.vault ∧ env'.balanceOf token env'.self =
      env.balanceOf token env.self - (if target = env.self then 0 else amount) := by
  cases h with
  | rescueTokens h => exact ⟨rescueTokens_vault h, transfer_balance (rescueTokens_eq_ok htoken h).2.2⟩
  | executeRescue hproposal h =>
      obtain ⟨rescue, htransfer⟩ := executeRescue_eq_ok hproposal h
      have hbalance := transfer_balance htransfer
      exact ⟨executeRescue_vault h, hbalance⟩

/-- Where nothing is owed beyond the allocated funds, `rescue_tokens` is safe. -/
theorem rescueTokens_covered {env env' : Env} {token target : Address} {amount : Int}
    (hreg : env.vault.Registered) (htoken : env.grantToken = some token)
    (hnothing : env.vault.uncounted ≤ 0)
    (h : rescueTokens env token amount target = .ok env') : Covered env' token := by
  obtain ⟨hamount, hrest, -⟩ := rescueTokens_eq_ok htoken h
  obtain ⟨hvault, hbalance⟩ := (Rescues.rescueTokens h).effect htoken
  unfold Covered
  rw [hvault, hbalance, hreg.obligations_eq]
  split_ifs <;> omega

theorem registered_of_enter {trace : Trace} {env : Env} (h : Reachable trace env) (event : Event) :
    (env.enter event).vault.Registered := by
  have hreg := registered_of_reachable h
  exact ⟨hreg.nodup, hreg.mem_iff, hreg.configured⟩

/-- **Rescue solvency.** A rescue from a contract that covers its obligations
leaves it able to cover them exactly if it sends the tokens to itself or leaves,
on top of the allocated funds, what `total_allocated_funds` does not count. -/
theorem rescue_solvency {trace : Trace} {env : Env} (h : Reachable trace env) {event : Event}
    {token : Address} (htoken : env.grantToken = some token) {amount : Int} {target : Address}
    {env' : Env} (hrescue : Rescues (env.enter event) token amount target env')
    (hcovered : Covered (env.enter event) token) :
    Covered env' token ↔ target = env.self ∨
      (env.enter event).vault.uncounted ≤
        env.balanceOf token env.self - amount - (env.enter event).vault.allocated := by
  have hreg := registered_of_enter h event
  obtain ⟨hvault, hbalance⟩ := hrescue.effect htoken
  have hbefore : (env.enter event).vault.obligations ≤ env.balanceOf token env.self := hcovered
  unfold Covered
  rw [hvault, hbalance]
  show _ ≤ env.balanceOf token env.self - (if target = env.self then 0 else amount) ↔ _
  rw [hreg.obligations_eq] at hbefore ⊢
  by_cases hself : target = env.self
  · rw [if_pos hself, sub_zero]
    exact ⟨fun _ => .inl hself, fun _ => hbefore⟩
  · rw [if_neg hself]
    exact ⟨fun hle => .inr (by omega), fun hle => by
      have := hle.resolve_left hself
      omega⟩

/-- A rescue of half of what is not allocated to a grant that streams. -/
theorem rescue_solvency_of_streaming_grant :
    let run := history Demo.env (Demo.setUp 2000 ++
      [Demo.call 1 (.createGrant 7 Demo.grantee 1000 10 0 none none)])
    let event := Demo.call 11 (.rescueTokens Demo.token 500 Demo.admin)
    ∃ env', Rescues (run.2.enter event) Demo.token 500 Demo.admin env' ∧
      (Covered env' Demo.token ↔ Demo.admin = run.2.self ∨
        (run.2.enter event).vault.uncounted ≤
          run.2.balanceOf Demo.token run.2.self - 500 - (run.2.enter event).vault.allocated) := by
  intro run event
  have hrun : Reachable run.1 run.2 := history_reachable Demo.env_deployed (by decide)
  have hrescue : Rescues (run.2.enter event) Demo.token 500 Demo.admin _ := .rescueTokens rfl
  refine ⟨_, hrescue, @rescue_solvency _ _ hrun event _ rfl _ _ _ hrescue ?_⟩
  unfold Covered
  rw [(registered_of_enter hrun event).obligations_eq_sum fun _ => rfl]
  decide

/-- The admin rescues what a cancelled grant may still claim. -/
theorem rescue_solvency_cancelled_grant :
    ¬∀ trace env event token amount target env', Reachable trace env →
      env.grantToken = some token → Rescues (env.enter event) token amount target env' →
      Covered (env.enter event) token → Covered env' token := by
  intro h
  let run := history Demo.env (Demo.setUp 1000 ++
    [Demo.call 1 (.createGrant 7 Demo.grantee 1000 10 0 none none),
      Demo.call 11 (.cancelGrant 7)])
  let event := Demo.call 21 (.rescueTokens Demo.token 100 Demo.admin)
  have hrun : Reachable run.1 run.2 := history_reachable Demo.env_deployed (by decide)
  have hrescue : Rescues (run.2.enter event) Demo.token 100 Demo.admin _ := .rescueTokens rfl
  have hsum := (registered_of_enter hrun event).obligations_eq_sum fun _ => rfl
  have hcovered : Covered (run.2.enter event) Demo.token := by
    unfold Covered
    rw [hsum]
    decide
  have hafter := h _ _ event _ _ _ _ hrun rfl hrescue hcovered
  unfold Covered at hafter
  rw [(hrescue.effect rfl).1, hsum] at hafter
  exact absurd hafter (by decide)

end YieldTrust.GrantStream
