import YieldTrust.GrantStream.Deletion
import YieldTrust.GrantStream.NativeFlows
import YieldTrust.Lib.DepositPool

/-!
# YieldTrust.GrantStream.MilestoneDeposits

The deposits of milestone submissions. They lie in the native balance of the contract
next to everything else it holds: the bounties for deleting grants and the rescues are
paid from the same balance, and a grant can be deleted while it has an open deposit.
-/

namespace YieldTrust.GrantStream

open Fallible

/-! ### The pool -/

/-- The open deposits, by grant and milestone. -/
def Env.deposits (env : Env) (key : Nat × Nat) : Option Int :=
  env.milestoneSubmissionDeposit key.1 key.2

/-- The native balance and the deposits that lie in it. -/
def Env.depositPool (env : Env) : DepositPool (Nat × Nat) := ⟨env.nativeBalance, env.deposits⟩

theorem deposits_update {env env' : Env} {g i : Nat} {x : Option Int}
    (h : env'.milestoneSubmissionDeposit = Function.update env.milestoneSubmissionDeposit g
      (Function.update (env.milestoneSubmissionDeposit g) i x)) :
    env'.deposits = Function.update env.deposits (g, i) x := by
  funext key
  obtain ⟨g', i'⟩ := key
  unfold Env.deposits
  rw [h]
  by_cases hg : g' = g
  · subst hg
    by_cases hi : i' = i
    · subst hi
      simp
    · simp [Function.update_of_ne, hi]
  · simp [Function.update_of_ne, hg]

/-! ### Taking a deposit and paying it back -/

/-- What `submit_milestone_proof` does: the recipient pays the deposit. -/
theorem submitMilestoneProof_eq_ok {env env' : Env} {g i : Nat} {proof : String} {nonce : Nat}
    (h : submitMilestoneProof env g i proof nonce = .ok env') :
    ∃ grant native, env.grants g = some grant ∧ env.milestone g i = none ∧
      env.nativeToken = some native ∧
      env.tokens.transfer native grant.recipient env.self milestoneSubmissionDepositXlm =
        some env'.tokens ∧
      env'.milestone = Function.update env.milestone g
        (Function.update (env.milestone g) i (some proof)) ∧
      env'.deposits = Function.update env.deposits (g, i) (some milestoneSubmissionDepositXlm) := by
  unfold submitMilestoneProof readGrant readNativeToken at h
  simp only [bind_eq_ok, okOr_eq_ok, ensure_eq_ok, transfer_eq_ok, pure_eq_ok] at h
  obtain ⟨grant, hgrant, _, -, _, -, _, hfirst, _, -, native, hnative, _, ⟨tokens, ht, rfl⟩, _, -,
    rfl⟩ := h
  exact ⟨grant, native, hgrant, hfirst, hnative, ht, rfl, deposits_update rfl⟩

/-- The deposit of `key` is paid to `target`. -/
structure DepositPaid (env : Env) (key : Nat × Nat) (target : Address) (env' : Env) : Prop where
  paid : ∃ amount native, env.deposits key = some amount ∧ env.nativeToken = some native ∧
    env.tokens.transfer native env.self target amount = some env'.tokens
  deposits : env'.deposits = Function.update env.deposits key none
  milestone : env'.milestone = env.milestone

theorem approveMilestoneSubmission_eq_ok {env env' : Env} {g i : Nat}
    (h : approveMilestoneSubmission env g i = .ok env') :
    ∃ grant, env.grants g = some grant ∧ DepositPaid env (g, i) grant.recipient env' := by
  unfold approveMilestoneSubmission readGrant readNativeToken at h
  simp only [bind_eq_ok, okOr_eq_ok, transfer_eq_ok, pure_eq_ok] at h
  obtain ⟨_, -, grant, hgrant, amount, hamount, native, hnative, _, ⟨tokens, ht, rfl⟩, rfl⟩ := h
  exact ⟨grant, hgrant, ⟨amount, native, hamount, hnative, ht⟩, deposits_update rfl, rfl⟩

theorem slashMsSubmissionDeposit_eq_ok {env env' : Env} {g i : Nat}
    (h : slashMsSubmissionDeposit env g i = .ok env') :
    ∃ treasury, env.treasury = some treasury ∧ DepositPaid env (g, i) treasury env' := by
  unfold slashMsSubmissionDeposit readTreasury readNativeToken at h
  simp only [bind_eq_ok, okOr_eq_ok, transfer_eq_ok, pure_eq_ok] at h
  obtain ⟨_, -, amount, hamount, treasury, htreasury, native, hnative, _, ⟨tokens, ht, rfl⟩,
    rfl⟩ := h
  exact ⟨treasury, htreasury, ⟨amount, native, hamount, hnative, ht⟩, deposits_update rfl, rfl⟩

section

variable {env : Env} {g i : Nat} {admin native : Address} {amount : Int}

/-- The admin can pay back any deposit that the native balance covers. -/
theorem slash_succeeds (hadmin : env.admin = some admin) (hauth : admin ∈ env.auths)
    (hamount : env.deposits (g, i) = some amount) {treasury : Address}
    (htreasury : env.treasury = some treasury) (hnative : env.nativeToken = some native)
    (hnonneg : 0 ≤ amount) (hle : amount ≤ env.balanceOf native env.self) :
    ∃ env', slashMsSubmissionDeposit env g i = .ok env' := by
  unfold slashMsSubmissionDeposit readTreasury readNativeToken
  simp only [bind_eq_ok, okOr_eq_ok, requireAdminAuth_eq_ok, transfer_eq_ok, pure_eq_ok]
  obtain ⟨tokens, ht⟩ := TokenLedger.exists_transfer treasury hnonneg hle
  exact ⟨_, (), ⟨admin, hadmin, hauth⟩, amount, hamount, treasury, htreasury, native, hnative, _,
    ⟨_, ht, rfl⟩, rfl⟩

theorem approve_succeeds (hadmin : env.admin = some admin) (hauth : admin ∈ env.auths)
    (hamount : env.deposits (g, i) = some amount) {grant : Grant} (hgrant : env.grants g = some grant)
    (hnative : env.nativeToken = some native) (hnonneg : 0 ≤ amount)
    (hle : amount ≤ env.balanceOf native env.self) :
    ∃ env', approveMilestoneSubmission env g i = .ok env' := by
  unfold approveMilestoneSubmission readGrant readNativeToken
  simp only [bind_eq_ok, okOr_eq_ok, requireAdminAuth_eq_ok, transfer_eq_ok, pure_eq_ok]
  obtain ⟨tokens, ht⟩ := TokenLedger.exists_transfer grant.recipient hnonneg hle
  exact ⟨_, (), ⟨admin, hadmin, hauth⟩, grant, hgrant, amount, hamount, native, hnative, _,
    ⟨_, ht, rfl⟩, rfl⟩

end

/-! ### What a step does to the pool -/

/-- The submission whose deposit the step takes. -/
def submission (e : Run.Step Env Event) : Option (Nat × Nat) :=
  match called e with
  | some (.submitMilestoneProof grantId milestoneIndex _ _) => some (grantId, milestoneIndex)
  | _ => none

/-- The submission whose deposit the step pays back, and to whom: to the recipient of the
grant if it is approved, to the treasury if it is slashed. -/
def payback (e : Run.Step Env Event) : Option ((Nat × Nat) × Address) :=
  match called e with
  | some (.approveMilestoneSubmission grantId milestoneIndex) =>
    (e.before.grants grantId).map fun grant => ((grantId, milestoneIndex), grant.recipient)
  | some (.slashMsSubmissionDeposit grantId milestoneIndex) =>
    e.before.treasury.map fun treasury => ((grantId, milestoneIndex), treasury)
  | _ => none

/-- The effect of a step on the deposits and on what they depend on. -/
inductive DepositEffect (e : Run.Step Env Event) : Prop
  | idle (hcalled : called e = none) (hdeposits : e.after.deposits = e.before.deposits)
      (hmilestone : e.after.milestone = e.before.milestone)
      (hgrants : e.after.grants = e.before.grants)
      (hnative : e.after.nativeToken = e.before.nativeToken)
      (hbalance : e.before.nativeBalance ≤ e.after.nativeBalance)
  | submitted {g i : Nat} {proof : String} {nonce : Nat} {grant : Grant}
      (hcalled : called e = some (.submitMilestoneProof g i proof nonce))
      (hgrant : e.before.grants g = some grant) (hfirst : e.before.milestone g i = none)
      (hset : e.before.nativeToken ≠ none)
      (hdeposits : e.after.deposits =
        Function.update e.before.deposits (g, i) (some milestoneSubmissionDepositXlm))
      (hmilestone : e.after.milestone = Function.update e.before.milestone g
        (Function.update (e.before.milestone g) i (some proof)))
      (hgrants : e.after.grants = e.before.grants)
      (hnative : e.after.nativeToken = e.before.nativeToken)
      (hbalance : e.after.nativeBalance = e.before.nativeBalance +
        (if grant.recipient = e.before.self then 0 else milestoneSubmissionDepositXlm))
  | paidBack {call : Call} {key : Nat × Nat} {target native : Address} {amount : Int}
      (hcalled : called e = some call) (hkey : call.depositKey? = some key)
      (hpayback : payback e = some (key, target))
      (hamount : e.before.deposits key = some amount)
      (hdeposits : e.after.deposits = Function.update e.before.deposits key none)
      (hmilestone : e.after.milestone = e.before.milestone)
      (hgrants : e.after.grants = e.before.grants)
      (hset : e.before.nativeToken = some native)
      (hnative : e.after.nativeToken = e.before.nativeToken)
      (hbalance : e.after.nativeBalance = e.before.nativeBalance -
        (if target = e.before.self then 0 else amount))
      (hlog : e.after.tokens.log = [⟨native, e.before.self, target, amount⟩])
  | initialized {admin grantToken treasury oracle native : Address}
      (hcalled : called e = some (.initializeContract admin grantToken treasury oracle native))
      (hadmin : e.before.admin = none) (hdeposits : e.after.deposits = e.before.deposits)
      (hmilestone : e.after.milestone = e.before.milestone)
      (hbalance : e.after.nativeBalance = e.before.balanceOf native e.before.self)
  | other {call : Call} (hcalled : called e = some call) (hkey : call.depositKey? = none)
      (hconfig : Region.config ∉ call.writes) (hdeposits : e.after.deposits = e.before.deposits)
      (hmilestone : ∀ g, call.deletes g = false → e.after.milestone g = e.before.milestone g)
      (hgrants : ∀ g, e.before.grants g ≠ none →
        (e.after.grants g = none ↔ call.deletes g = true))
      (hnative : e.after.nativeToken = e.before.nativeToken)
      (hbalance : e.after.nativeBalance =
        e.before.nativeBalance - call.nativeOutflow (e.before.enter e.action))

theorem nativeBalance_eq {env : Env} {native : Address} (h : env.nativeToken = some native) :
    env.nativeBalance = env.balanceOf native env.self := by
  unfold Env.nativeBalance
  rw [h]
  rfl

theorem DepositEffect.of_uncalled {e : Run.Step Env Event} (hn : Next e.before e.action e.after)
    (hcalled : called e = none) : DepositEffect e := by
  obtain ⟨tokens, nullifiers, hafter, hbalance⟩ := after_of_uncalled hn hcalled
  refine .idle hcalled ?_ ?_ ?_ ?_ ?_
  · rw [hafter]
    rfl
  · rw [hafter]
    rfl
  · rw [hafter]
    rfl
  · rw [hafter]
    rfl
  · unfold Env.nativeBalance
    rw [hafter]
    show e.before.nativeToken.elim 0 _ ≤ e.before.nativeToken.elim 0 _
    cases e.before.nativeToken with
    | none => exact le_refl 0
    | some native => exact hbalance native

/-- The calls that take a deposit or pay one back write nothing else than the
milestones and the tokens. -/
theorem same_of_deposit {env env' : Env} {call : Call} (h : call.exec env = .ok env')
    (hkey : call.depositKey? ≠ none) :
    env'.self = env.self ∧ env'.nativeToken = env.nativeToken ∧ env'.grants = env.grants := by
  have hframe : Frame [.milestones, .tokens] env env' := by
    refine (frame_of_exec h).mono ?_
    cases call <;> simp [Call.depositKey?, Call.writes] at hkey ⊢
  obtain ⟨-, -, -, hself, -⟩ := hframe.same .ledger (by decide)
  obtain ⟨-, -, -, -, hnative⟩ := hframe.same .config (by decide)
  exact ⟨hself, hnative, (hframe.same .grants (by decide)).1⟩

/-- The other calls change no deposit, and only deletions remove milestones. -/
theorem deposits_of_exec {env env' : Env} {call : Call} (h : call.exec env = .ok env')
    (hkey : call.depositKey? = none) : env'.deposits = env.deposits ∧
      ∀ g, call.deletes g = false → env'.milestone g = env.milestone g := by
  unfold Env.deposits
  by_cases hwrites : Region.milestones ∈ call.writes
  · cases call <;> simp [Call.writes, Call.depositKey?] at hwrites hkey
    case pruneFinalizedGrant id relayer =>
      obtain ⟨-, -, -, -, hmilestone, hdeposit⟩ := pruneFinalizedGrant_left h
      refine ⟨by rw [hdeposit], fun g hg => ?_⟩
      have hid : g ≠ id := fun heq => by simp [Call.deletes, heq] at hg
      rw [hmilestone, Function.update_of_ne hid]
  · obtain ⟨hmilestone, -, hdeposit⟩ := (frame_of_exec h).same .milestones hwrites
    exact ⟨by rw [hdeposit], fun g _ => by rw [hmilestone]⟩

theorem DepositEffect.of_initialized {e : Run.Step Env Event}
    {admin grantToken treasury oracle native : Address}
    (hcalled : called e = some (.initializeContract admin grantToken treasury oracle native))
    (h : initializeContract (e.before.enter e.action) admin grantToken treasury oracle native =
      .ok e.after) : DepositEffect e := by
  unfold initializeContract at h
  simp only [bind_eq_ok, ensure_eq_ok, pure_eq_ok] at h
  obtain ⟨_, hadmin, hafter⟩ := h
  refine .initialized hcalled hadmin ?_ ?_ ?_
  · rw [← hafter]
    rfl
  · rw [← hafter]
    rfl
  · rw [← hafter]
    rfl

theorem DepositEffect.of_paid {e : Run.Step Env Event} (hn : Next e.before e.action e.after)
    {call : Call} {key : Nat × Nat} {target : Address} (hcalled : called e = some call)
    (hkey : call.depositKey? = some key) (hpayback : payback e = some (key, target))
    (h : DepositPaid (e.before.enter e.action) key target e.after) : DepositEffect e := by
  obtain ⟨hself, hnative, hgrants⟩ := same_of_deposit (exec_of_called hn hcalled) (by simp [hkey])
  obtain ⟨amount, native, hamount, hset, ht⟩ := h.paid
  have hset' : e.after.nativeToken = some native := hnative.trans hset
  have hset : e.before.nativeToken = some native := hset
  refine .paidBack hcalled hkey hpayback hamount h.deposits h.milestone hgrants hset hnative ?_ ?_
  · rw [nativeBalance_eq hset', hself]
    refine (TokenLedger.transfer_balance_source ht).trans ?_
    rw [nativeBalance_eq hset]
    rfl
  · obtain ⟨-, htokens⟩ := TokenLedger.transfer_eq_some.mp ht
    rw [← htokens]
    rfl

theorem depositEffect_of_next {e : Run.Step Env Event} (hn : Next e.before e.action e.after) :
    DepositEffect e := by
  cases hcalled : called e with
  | none => exact .of_uncalled hn hcalled
  | some call =>
      have hexec := exec_of_called hn hcalled
      cases hkey : call.depositKey? with
      | some key =>
          cases call <;> simp [Call.depositKey?] at hkey
          case submitMilestoneProof g i proof nonce =>
            obtain ⟨hself, hnative, hgrants⟩ := same_of_deposit hexec (by simp [Call.depositKey?])
            obtain ⟨grant, native, hgrant, hfirst, hset, ht, hmilestone, hdeposits⟩ :=
              submitMilestoneProof_eq_ok hexec
            have hset' : e.after.nativeToken = some native := hnative.trans hset
            have hset : e.before.nativeToken = some native := hset
            refine .submitted hcalled hgrant hfirst (by simp [hset]) hdeposits hmilestone hgrants
              hnative ?_
            have hbalance := TokenLedger.transfer_balance_target ht
            rw [nativeBalance_eq hset', nativeBalance_eq hset, hself]
            exact hbalance
          case approveMilestoneSubmission g i =>
            obtain ⟨grant, hgrant, hpaid⟩ := approveMilestoneSubmission_eq_ok hexec
            have hgrant : e.before.grants g = some grant := hgrant
            refine .of_paid hn hcalled rfl ?_ hpaid
            unfold payback
            rw [hcalled]
            dsimp only
            rw [hgrant]
            rfl
          case slashMsSubmissionDeposit g i =>
            obtain ⟨treasury, htreasury, hpaid⟩ := slashMsSubmissionDeposit_eq_ok hexec
            have htreasury : e.before.treasury = some treasury := htreasury
            refine .of_paid hn hcalled rfl ?_ hpaid
            unfold payback
            rw [hcalled]
            dsimp only
            rw [htreasury]
            rfl
      | none =>
          obtain ⟨hdeposits, hmilestone⟩ := deposits_of_exec hexec hkey
          by_cases hconfig : Region.config ∈ call.writes
          · cases call <;> simp [Call.writes] at hconfig
            case initializeContract => exact .of_initialized hcalled hexec
          · have hbalance := nativeBalance_of_exec hexec hkey hconfig
            obtain ⟨-, -, -, -, hnative⟩ := (frame_of_exec hexec).same .config hconfig
            exact .other hcalled hkey hconfig hdeposits hmilestone
              (fun g hg => grant_none_iff_of_exec hexec hg) hnative hbalance

/-! ### The records -/

/-- The admin, the treasury and the native token are configured together. -/
theorem configured_of_reachable {trace : Trace} {env : Env} (h : Reachable trace env) :
    env.nativeToken ≠ none → env.admin ≠ none ∧ env.treasury ≠ none := by
  induction h with
  | start h =>
      obtain ⟨_, _, _, rfl⟩ := h
      intro hset
      exact absurd rfl hset
  | @step trace env event env' hrun hn ih =>
      cases hcalled : called ⟨env, event, env'⟩ with
      | none =>
          obtain ⟨tokens, nullifiers, hafter, -⟩ :=
            after_of_uncalled (e := ⟨env, event, env'⟩) hn hcalled
          dsimp only at hafter
          rw [hafter]
          exact ih
      | some call =>
          have hexec := exec_of_called (e := ⟨env, event, env'⟩) hn hcalled
          by_cases hconfig : Region.config ∈ call.writes
          · cases call <;> simp [Call.writes] at hconfig
            case initializeContract =>
              have hv := (initializeContract_vault hexec).2
              have hadmin := congrArg Vault.admin hv
              have htreasury := congrArg Vault.treasury hv
              intro _
              simp_all [Env.vault]
          · obtain ⟨hadmin, -, htreasury, -, hnative⟩ :=
              (frame_of_exec hexec).same .config hconfig
            dsimp only at hadmin htreasury hnative
            rw [hadmin, htreasury, hnative]
            exact ih

/-- Finitely many deposits are open, all of the same amount, in a configured contract. -/
structure DepositRecords (env : Env) : Prop where
  finite : (PartialMap.keys env.deposits).Finite
  amount : ∀ key x, env.deposits key = some x → x = milestoneSubmissionDepositXlm
  native : ∀ key, env.deposits key ≠ none → env.nativeToken ≠ none

theorem DepositRecords.wellFormed {env : Env} (h : DepositRecords env) :
    env.depositPool.WellFormed where
  finite := h.finite
  nonneg key x hx := by
    rw [h.amount key x hx]
    decide

theorem DepositRecords.update {env env' : Env} (h : DepositRecords env) {key : Nat × Nat}
    {x : Option Int} (hdeposits : env'.deposits = Function.update env.deposits key x)
    (hx : ∀ y ∈ x, y = milestoneSubmissionDepositXlm) (hset : env'.nativeToken ≠ none) :
    DepositRecords env' where
  finite := by
    rw [hdeposits]
    exact PartialMap.keys_update_finite h.finite key x
  amount key' y hy := by
    rw [hdeposits] at hy
    by_cases hkey : key' = key
    · rw [hkey, Function.update_self] at hy
      exact hx y hy
    · rw [Function.update_of_ne hkey] at hy
      exact h.amount key' y hy
  native _ _ := hset

theorem DepositRecords.same {env env' : Env} (h : DepositRecords env)
    (hdeposits : env'.deposits = env.deposits)
    (hset : env.nativeToken ≠ none → env'.nativeToken ≠ none) : DepositRecords env' where
  finite := by
    rw [hdeposits]
    exact h.finite
  amount := by
    rw [hdeposits]
    exact h.amount
  native key hkey := hset (h.native key (hdeposits ▸ hkey))

/-- Before the set-up there are no deposits. -/
theorem DepositRecords.deposits_none {trace : Trace} {env : Env} (h : DepositRecords env)
    (hrun : Reachable trace env) (hadmin : env.admin = none) (key : Nat × Nat) :
    env.deposits key = none := by
  by_contra hkey
  exact (configured_of_reachable hrun (h.native key hkey)).1 hadmin

theorem depositRecords_of_reachable {trace : Trace} {env : Env} (h : Reachable trace env) :
    DepositRecords env := by
  induction h with
  | start h =>
      obtain ⟨_, _, _, rfl⟩ := h
      exact ⟨Set.finite_empty.subset fun key hkey => hkey rfl, fun _ _ hx => (by cases hx),
        fun key hkey => absurd rfl hkey⟩
  | @step trace env event env' hrun hn ih =>
      cases depositEffect_of_next (e := ⟨env, event, env'⟩) hn with
      | idle _ hdeposits _ _ hnative _ | other _ _ _ hdeposits _ _ hnative _ =>
          exact ih.same hdeposits fun hset => hnative ▸ hset
      | submitted _ _ _ hset hdeposits _ _ hnative _ =>
          exact ih.update hdeposits (by simp) (hnative ▸ hset)
      | paidBack _ _ _ _ hdeposits _ _ hset hnative _ _ =>
          refine ih.update hdeposits (by simp) fun hnone => ?_
          rw [hnative, hset] at hnone
          cases hnone
      | initialized _ hadmin hdeposits _ _ =>
          have hnone (key : Nat × Nat) : env'.deposits key = none :=
            (congrFun hdeposits key).trans (ih.deposits_none hrun hadmin key)
          refine ⟨Set.finite_empty.subset fun key hkey => hkey (hnone key), ?_, ?_⟩
          · intro key x hx
            cases (hnone key).symm.trans hx
          · intro key hkey
            exact absurd (hnone key) hkey

/-! ### Safe deposits -/

/-- How often a deposit was taken for the submission, and how often it was paid back. -/
def submissions (key : Nat × Nat) (trace : Trace) : Nat :=
  trace.countP fun e => submission e = some key

def paybacks (key : Nat × Nat) (trace : Trace) : Nat :=
  trace.countP fun e => (payback e).map Prod.fst = some key

/-- The native balance covers all open deposits, each of them can be approved and slashed
by the admin, and every deposit is open or was paid once, to the one it was due to. -/
structure DepositsSafe (trace : Trace) (env : Env) : Prop where
  solvent : env.depositPool.Solvent
  payable : ∀ g i, env.deposits (g, i) ≠ none → ∀ timestamp sequence auths,
    (∃ admin ∈ auths, env.admin = some admin) →
      (∃ env', env.attempt timestamp sequence auths (.approveMilestoneSubmission g i) =
        .ok env') ∧
      ∃ env', env.attempt timestamp sequence auths (.slashMsSubmissionDeposit g i) = .ok env'
  once : ∀ key, submissions key trace =
    paybacks key trace + if env.deposits key = none then 0 else 1
  paid : ∀ e ∈ trace, ∀ key target, payback e = some (key, target) →
    ∃ native, e.before.nativeToken = some native ∧
      e.after.tokens.log = [⟨native, e.before.self, target, milestoneSubmissionDepositXlm⟩]

/-- The call leaves the deposits alone. -/
structure Call.Spares (env : Env) (call : Call) : Prop where
  /-- The contract starts without a debt in the native token. -/
  starts : ∀ admin grantToken treasury oracle native,
    call = .initializeContract admin grantToken treasury oracle native →
      0 ≤ env.balanceOf native env.self
  /-- A deposit is paid by somebody else, or there is enough for it. -/
  submits : ∀ g i proof nonce, call = .submitMilestoneProof g i proof nonce →
    env.grantee g = some env.self →
      env.depositPool.outstanding + milestoneSubmissionDepositXlm ≤ env.nativeBalance
  /-- No grant with an open deposit is deleted. -/
  deletes : ∀ g i, call.deletes g = true → env.deposits (g, i) = none
  /-- What is paid on other accounts is there on top of the deposits. -/
  pays : call.nativeOutflow env = 0 ∨
    env.depositPool.outstanding + call.nativeOutflow env ≤ env.nativeBalance

/-- The call that the step performed, if any, leaves the deposits alone. -/
def SparesDeposits (e : Run.Step Env Event) (_ : Trace) : Prop :=
  ∀ call ∈ called e, call.Spares (e.before.enter e.action)

/-- The deposits are covered and belong to grants that exist. -/
structure DepositsHeld (env : Env) : Prop where
  solvent : env.depositPool.Solvent
  owned : ∀ g i, env.deposits (g, i) ≠ none → env.grants g ≠ none

theorem sparesDeposits_iff {e : Run.Step Env Event} {older : Trace} {call : Call}
    (hcalled : called e = some call) :
    SparesDeposits e older ↔ call.Spares (e.before.enter e.action) := by
  unfold SparesDeposits
  rw [hcalled]
  simp

theorem nativeOutflow_of_deposit {env : Env} {call : Call} (hkey : call.depositKey? ≠ none) :
    call.nativeOutflow env = 0 := by
  unfold Call.nativeOutflow
  cases env.nativeToken with
  | none => rfl
  | some native => cases call <;> simp [Call.depositKey?] at hkey <;> rfl

theorem spares_of_payback {e : Run.Step Env Event} {call : Call} {key : Nat × Nat}
    {target : Address} (hcalled : called e = some call) (hpayback : payback e = some (key, target))
    (env : Env) : call.Spares env := by
  unfold payback at hpayback
  rw [hcalled] at hpayback
  cases call
  case approveMilestoneSubmission | slashMsSubmissionDeposit =>
    refine ⟨?_, ?_, ?_, .inl (nativeOutflow_of_deposit (by simp [Call.depositKey?]))⟩
    · intro _ _ _ _ _ hcall
      cases hcall
    · intro _ _ _ _ hcall
      cases hcall
    · intro _ _ hdeletes
      cases hdeletes
  all_goals cases hpayback

theorem spares_initialize_iff {env : Env} {admin grantToken treasury oracle native : Address} :
    (Call.initializeContract admin grantToken treasury oracle native).Spares env ↔
      0 ≤ env.balanceOf native env.self := by
  have hpays :
      (Call.initializeContract admin grantToken treasury oracle native).nativeOutflow env = 0 := by
    unfold Call.nativeOutflow
    cases env.nativeToken <;> rfl
  constructor
  · intro hspares
    exact hspares.starts admin grantToken treasury oracle native rfl
  · intro hbalance
    refine ⟨?_, nofun, nofun, .inl hpays⟩
    rintro _ _ _ _ _ ⟨⟩
    exact hbalance

/-- Open deposits can be paid back exactly if their grants exist. -/
theorem payable_iff {trace : Trace} {env : Env} (h : Reachable trace env)
    (hsolvent : env.depositPool.Solvent) :
    (∀ g i, env.deposits (g, i) ≠ none → ∀ timestamp sequence auths,
      (∃ admin ∈ auths, env.admin = some admin) →
        (∃ env', env.attempt timestamp sequence auths (.approveMilestoneSubmission g i) =
          .ok env') ∧
        ∃ env', env.attempt timestamp sequence auths (.slashMsSubmissionDeposit g i) =
          .ok env') ↔
      ∀ g i, env.deposits (g, i) ≠ none → env.grants g ≠ none := by
  have hrecords := depositRecords_of_reachable h
  constructor
  · intro hpayable g i hopen hnone
    obtain ⟨hadmin, -⟩ := configured_of_reachable h (hrecords.native _ hopen)
    obtain ⟨admin, hadmin⟩ := Option.ne_none_iff_exists'.mp hadmin
    obtain ⟨⟨env', happrove⟩, -⟩ :=
      hpayable g i hopen 0 0 [admin] ⟨admin, List.mem_singleton_self _, hadmin⟩
    obtain ⟨grant, hgrant, -⟩ := approveMilestoneSubmission_eq_ok happrove
    cases hnone.symm.trans hgrant
  · rintro howned g i hopen timestamp sequence auths ⟨admin, hauth, hadmin⟩
    have hset := hrecords.native _ hopen
    obtain ⟨-, htreasury⟩ := configured_of_reachable h hset
    obtain ⟨native, hset⟩ := Option.ne_none_iff_exists'.mp hset
    obtain ⟨treasury, htreasury⟩ := Option.ne_none_iff_exists'.mp htreasury
    obtain ⟨amount, hamount⟩ := Option.ne_none_iff_exists'.mp hopen
    obtain ⟨grant, hgrant⟩ := Option.ne_none_iff_exists'.mp (howned g i hopen)
    have hnonneg : 0 ≤ amount := hrecords.wellFormed.nonneg _ _ hamount
    have hle : amount ≤ env.balanceOf native env.self := by
      rw [← nativeBalance_eq hset]
      exact hsolvent.le_balance hrecords.wellFormed hamount
    exact ⟨approve_succeeds hadmin hauth hamount hgrant hset hnonneg hle,
      slash_succeeds hadmin hauth hamount htreasury hset hnonneg hle⟩

/-! ### One step -/

/-- The milestone of every open deposit is stored, so that it is not submitted again. -/
def MilestonesStored (env : Env) : Prop :=
  ∀ g i, env.deposits (g, i) ≠ none → env.milestone g i ≠ none

section

variable {older : Trace} {e : Run.Step Env Event}

theorem deposit_none_of_first (hstored : MilestonesStored e.before) {g i : Nat}
    (hfirst : e.before.milestone g i = none) : e.before.deposits (g, i) = none := by
  by_contra hopen
  exact hstored g i hopen hfirst

/-- A new deposit is covered exactly if somebody else pays it or there is enough for it. -/
theorem held_of_submitted (hrecords : DepositRecords e.before) (hheld : DepositsHeld e.before)
    {g i : Nat} {grant : Grant} (hgrant : e.before.grants g = some grant)
    (hnone : e.before.deposits (g, i) = none)
    (hdeposits : e.after.deposits =
      Function.update e.before.deposits (g, i) (some milestoneSubmissionDepositXlm))
    (hgrants : e.after.grants = e.before.grants)
    (hbalance : e.after.nativeBalance = e.before.nativeBalance +
      (if grant.recipient = e.before.self then 0 else milestoneSubmissionDepositXlm)) :
    DepositsHeld e.after ↔ (grant.recipient = e.before.self →
      e.before.depositPool.outstanding + milestoneSubmissionDepositXlm ≤
        e.before.nativeBalance) := by
  have hiff : e.after.depositPool.Solvent ↔
      e.before.depositPool.outstanding + milestoneSubmissionDepositXlm ≤ e.after.nativeBalance := by
    unfold Env.depositPool
    rw [hdeposits]
    exact DepositPool.solvent_deposit_iff hrecords.wellFormed hnone
  have howned : ∀ g' i', e.after.deposits (g', i') ≠ none → e.after.grants g' ≠ none := by
    intro g' i' hopen
    rw [hgrants]
    by_cases hg : g' = g
    · rw [hg, hgrant]
      simp
    · refine hheld.owned g' i' ?_
      rw [hdeposits, Function.update_of_ne (by simp [hg])] at hopen
      exact hopen
  have hsolvent : e.before.depositPool.outstanding ≤ e.before.nativeBalance := hheld.solvent
  rw [hbalance] at hiff
  constructor
  · intro hafter hself
    have hle := hiff.mp hafter.solvent
    rw [if_pos hself] at hle
    omega
  · intro henough
    refine ⟨hiff.mpr ?_, howned⟩
    split_ifs with hself
    · have hle := henough hself
      omega
    · omega

/-- A deposit that is paid back was covered, and the others still are. -/
theorem held_of_paidBack (hrecords : DepositRecords e.before) (hheld : DepositsHeld e.before)
    {key : Nat × Nat} {target : Address} {amount : Int}
    (hamount : e.before.deposits key = some amount)
    (hdeposits : e.after.deposits = Function.update e.before.deposits key none)
    (hgrants : e.after.grants = e.before.grants)
    (hbalance : e.after.nativeBalance =
      e.before.nativeBalance - (if target = e.before.self then 0 else amount)) :
    DepositsHeld e.after := by
  have hiff : e.after.depositPool.Solvent ↔
      e.before.depositPool.outstanding ≤ e.after.nativeBalance + amount := by
    unfold Env.depositPool
    rw [hdeposits]
    exact DepositPool.solvent_release_iff hrecords.wellFormed hamount
  have hsolvent : e.before.depositPool.outstanding ≤ e.before.nativeBalance := hheld.solvent
  have hnonneg : 0 ≤ amount := hrecords.wellFormed.nonneg _ _ hamount
  constructor
  · rw [hiff, hbalance]
    split_ifs <;> omega
  · intro g i hopen
    rw [hdeposits] at hopen
    rw [hgrants]
    refine hheld.owned g i fun hnone => hopen ?_
    by_cases hkey : (g, i) = key
    · rw [hkey, Function.update_self]
    · rw [Function.update_of_ne hkey, hnone]

/-- Without deposits it is enough that there is no debt. -/
theorem held_of_initialized (hnone : ∀ key, e.before.deposits key = none)
    (hdeposits : e.after.deposits = e.before.deposits) :
    DepositsHeld e.after ↔ 0 ≤ e.after.nativeBalance := by
  have hempty : PartialMap.keys e.after.deposits = ∅ := by
    rw [hdeposits]
    exact Set.eq_empty_of_forall_notMem fun key hkey => hkey (hnone key)
  have houtstanding : e.after.depositPool.outstanding = 0 :=
    PartialMap.total_of_keys_empty hempty id
  constructor
  · intro hafter
    rw [← houtstanding]
    exact hafter.solvent
  · intro hbalance
    refine ⟨houtstanding.trans_le hbalance, fun g i hopen => ?_⟩
    rw [hdeposits] at hopen
    exact absurd (hnone (g, i)) hopen

/-- Where no deposit changes, they stay covered exactly if what is paid on other accounts is
there on top of them and their grants stay. -/
theorem held_of_other (hheld : DepositsHeld e.before) {call : Call} {outflow : Int}
    (hdeposits : e.after.deposits = e.before.deposits)
    (hgrants : ∀ g, e.before.grants g ≠ none →
      (e.after.grants g = none ↔ call.deletes g = true))
    (hbalance : e.after.nativeBalance = e.before.nativeBalance - outflow) :
    DepositsHeld e.after ↔ (∀ g i, call.deletes g = true → e.before.deposits (g, i) = none) ∧
      (outflow = 0 ∨ e.before.depositPool.outstanding + outflow ≤ e.before.nativeBalance) := by
  have hsolvent : e.before.depositPool.outstanding ≤ e.before.nativeBalance := hheld.solvent
  have hiff : e.after.depositPool.Solvent ↔
      e.before.depositPool.outstanding ≤ e.before.nativeBalance - outflow := by
    rw [← hbalance]
    unfold DepositPool.Solvent DepositPool.outstanding Env.depositPool
    rw [hdeposits]
  constructor
  · intro hafter
    have hle := hiff.mp hafter.solvent
    refine ⟨fun g i hdeletes => ?_, .inr (by omega)⟩
    by_contra hopen
    exact hafter.owned g i (hdeposits ▸ hopen) ((hgrants g (hheld.owned g i hopen)).mpr hdeletes)
  · rintro ⟨hdeletes, hpays⟩
    refine ⟨hiff.mpr (by omega), fun g i hopen hnone => ?_⟩
    rw [hdeposits] at hopen
    exact hopen (hdeletes g i ((hgrants g (hheld.owned g i hopen)).mp hnone))

/-- Milestones are only removed with their grants. -/
theorem milestonesStored_of_step (hn : Next e.before e.action e.after)
    (hstored : MilestonesStored e.before) (hspares : SparesDeposits e older) :
    MilestonesStored e.after := by
  cases depositEffect_of_next hn with
  | idle _ hdeposits hmilestone _ _ _ | initialized _ _ hdeposits hmilestone _ =>
      intro g i hopen
      rw [hmilestone]
      exact hstored g i (hdeposits ▸ hopen)
  | @submitted g i proof _ _ _ _ _ _ hdeposits hmilestone _ _ _ =>
      intro g' i' hopen
      rw [hmilestone]
      rw [hdeposits] at hopen
      by_cases hg : g' = g
      · subst hg
        rw [Function.update_self]
        by_cases hi : i' = i
        · simp [hi]
        · rw [Function.update_of_ne hi]
          exact hstored g' i' (by simpa [hi] using hopen)
      · rw [Function.update_of_ne hg]
        exact hstored g' i' (by simpa [hg] using hopen)
  | @paidBack _ key _ _ _ _ _ _ _ hdeposits hmilestone _ _ _ _ _ =>
      intro g i hopen
      rw [hmilestone]
      refine hstored g i fun hnone => hopen ?_
      rw [hdeposits]
      by_cases hkey : (g, i) = key
      · rw [hkey, Function.update_self]
      · rw [Function.update_of_ne hkey, hnone]
  | @other call hcalled _ _ hdeposits hmilestone _ _ _ =>
      have hdeletes := ((sparesDeposits_iff hcalled).mp hspares).deletes
      intro g i hopen
      rw [hdeposits] at hopen
      cases hg : call.deletes g with
      | false =>
          rw [hmilestone g hg]
          exact hstored g i hopen
      | true => exact absurd (hdeletes g i hg) hopen

/-- **Solvency of one step.** -/
theorem depositsHeld_iff (hrun : Reachable older e.before) (hn : Next e.before e.action e.after)
    (hstored : MilestonesStored e.before) (hheld : DepositsHeld e.before) :
    DepositsHeld e.after ↔ SparesDeposits e older := by
  have hrecords := depositRecords_of_reachable hrun
  cases depositEffect_of_next hn with
  | idle hcalled hdeposits _ hgrants _ hbalance =>
      refine iff_of_true ⟨?_, fun g i hopen => ?_⟩ ?_
      · unfold Env.depositPool
        rw [hdeposits]
        exact le_trans hheld.solvent hbalance
      · rw [hgrants]
        exact hheld.owned g i (hdeposits ▸ hopen)
      · unfold SparesDeposits
        simp [hcalled]
  | @submitted g i proof nonce grant hcalled hgrant hfirst _ hdeposits _ hgrants _ hbalance =>
      rw [sparesDeposits_iff hcalled, held_of_submitted hrecords hheld hgrant
        (deposit_none_of_first hstored hfirst) hdeposits hgrants hbalance]
      constructor
      · intro henough
        refine ⟨nofun, ?_, nofun, .inl (nativeOutflow_of_deposit (by simp [Call.depositKey?]))⟩
        rintro _ _ _ _ ⟨⟩ hself
        refine henough ?_
        simpa [Env.grantee, Env.enter, hgrant] using hself
      · intro hspares hself
        refine hspares.submits g i proof nonce rfl ?_
        simpa [Env.grantee, Env.enter, hgrant] using hself
  | paidBack hcalled _ hpayback hamount hdeposits _ hgrants _ _ hbalance _ =>
      rw [sparesDeposits_iff hcalled]
      exact iff_of_true (held_of_paidBack hrecords hheld hamount hdeposits hgrants hbalance)
        (spares_of_payback hcalled hpayback _)
  | initialized hcalled hadmin hdeposits _ hbalance =>
      have hnone := hrecords.deposits_none hrun hadmin
      rw [sparesDeposits_iff hcalled, spares_initialize_iff, held_of_initialized hnone hdeposits,
        hbalance]
      rfl
  | @other call hcalled hkey hconfig hdeposits _ hgrants _ hbalance =>
      rw [sparesDeposits_iff hcalled, held_of_other hheld hdeposits hgrants hbalance]
      constructor
      · rintro ⟨hdeletes, hpays⟩
        refine ⟨?_, ?_, hdeletes, hpays⟩
        · rintro _ _ _ _ _ rfl
          exact absurd (by simp [Call.writes]) hconfig
        · rintro _ _ _ _ rfl
          cases hkey
      · intro hspares
        exact ⟨hspares.deletes, hspares.pays⟩

theorem no_deposit_of_other (hkey : (called e).bind Call.depositKey? = none) :
    submission e = none ∧ payback e = none := by
  unfold submission payback
  cases hcalled : called e with
  | none => exact ⟨rfl, rfl⟩
  | some call =>
      rw [hcalled, Option.bind_some] at hkey
      cases call <;> first | exact ⟨rfl, rfl⟩ | cases hkey

theorem submission_of_payback {key : Nat × Nat} {target : Address}
    (hpayback : payback e = some (key, target)) : submission e = none := by
  unfold submission
  unfold payback at hpayback
  cases hcalled : called e with
  | none => rfl
  | some call =>
      rw [hcalled] at hpayback
      cases call
      case submitMilestoneProof => cases hpayback
      all_goals rfl

/-- Every deposit that was taken is open or was paid back. -/
theorem once_of_step (hn : Next e.before e.action e.after)
    (hstored : MilestonesStored e.before) {key : Nat × Nat}
    (h : submissions key older = paybacks key older + if e.before.deposits key = none then 0 else 1) :
    submissions key (e :: older) =
      paybacks key (e :: older) + if e.after.deposits key = none then 0 else 1 := by
  have hsubmissions : submissions key (e :: older) =
      submissions key older + if submission e = some key then 1 else 0 := by
    unfold submissions
    rw [List.countP_cons]
    simp only [decide_eq_true_eq]
  have hpaybacks : paybacks key (e :: older) =
      paybacks key older + if (payback e).map Prod.fst = some key then 1 else 0 := by
    unfold paybacks
    rw [List.countP_cons]
    simp only [decide_eq_true_eq]
  rw [hsubmissions, hpaybacks]
  cases depositEffect_of_next hn with
  | idle hcalled hdeposits _ _ _ _ | initialized hcalled _ hdeposits _ _ =>
      obtain ⟨hsubmission, hpayback⟩ := no_deposit_of_other (e := e) (by simp [hcalled, Call.depositKey?])
      rw [hsubmission, hpayback, hdeposits]
      simpa using h
  | other hcalled hkey _ hdeposits _ _ _ _ =>
      obtain ⟨hsubmission, hpayback⟩ := no_deposit_of_other (e := e) (by simp [hcalled, hkey])
      rw [hsubmission, hpayback, hdeposits]
      simpa using h
  | @submitted g i _ _ _ hcalled _ hfirst _ hdeposits _ _ _ _ =>
      have hnone := deposit_none_of_first hstored hfirst
      have hsubmission : submission e = some (g, i) := by
        unfold submission
        rw [hcalled]
      have hpayback : payback e = none := by
        unfold payback
        rw [hcalled]
      rw [hsubmission, hpayback, hdeposits]
      by_cases hkey : key = (g, i)
      · subst hkey
        rw [hnone] at h
        simp at h ⊢
        omega
      · rw [Function.update_of_ne hkey]
        simp [Ne.symm hkey, h]
  | @paidBack _ key' _ _ _ hcalled _ hpayback hamount hdeposits _ _ _ _ _ _ =>
      rw [submission_of_payback hpayback, hpayback, hdeposits]
      by_cases hkey : key = key'
      · subst hkey
        rw [hamount] at h
        simp at h ⊢
        omega
      · rw [Function.update_of_ne hkey]
        simp [Ne.symm hkey, h]

/-- Every deposit that was paid back went in full to the one it was due to. -/
theorem paid_of_reachable {trace : Trace} {env : Env} (h : Reachable trace env) :
    ∀ e ∈ trace, ∀ key target, payback e = some (key, target) →
      ∃ native, e.before.nativeToken = some native ∧
        e.after.tokens.log = [⟨native, e.before.self, target, milestoneSubmissionDepositXlm⟩] := by
  intro e he key target hpayback
  obtain ⟨older, hrun, hn⟩ := h.of_mem he
  have hother (hkey : (called e).bind Call.depositKey? = none) : False := by
    cases (no_deposit_of_other hkey).2.symm.trans hpayback
  cases depositEffect_of_next hn with
  | idle hcalled | initialized hcalled =>
      exact (hother (by simp [hcalled, Call.depositKey?])).elim
  | other hcalled hkey => exact (hother (by simp [hcalled, hkey])).elim
  | submitted hcalled =>
      unfold payback at hpayback
      rw [hcalled] at hpayback
      cases hpayback
  | @paidBack _ _ _ native amount _ _ hpayback' hamount _ _ _ hset _ _ hlog =>
      cases hpayback'.symm.trans hpayback
      obtain rfl := (depositRecords_of_reachable hrun).amount _ _ hamount
      exact ⟨native, hset, hlog⟩

end

/-! ### Whole runs -/

theorem depositsSafe_iff {trace : Trace} {env : Env} (h : Reachable trace env)
    (honce : ∀ key, submissions key trace =
      paybacks key trace + if env.deposits key = none then 0 else 1) :
    DepositsSafe trace env ↔ DepositsHeld env := by
  constructor
  · intro hsafe
    exact ⟨hsafe.solvent, (payable_iff h hsafe.solvent).mp hsafe.payable⟩
  · intro hheld
    exact ⟨hheld.solvent, (payable_iff h hheld.solvent).mpr hheld.owned, honce,
      paid_of_reachable h⟩

/-- **Deposit solvency.** In every run the deposits of milestone submissions are safe in
every state exactly if every call spares them. -/
theorem deposit_solvency {trace : Trace} {env : Env} (h : Reachable trace env) :
    Run.Each (fun e older => DepositsSafe (e :: older) e.after) trace ↔
      Run.Each SparesDeposits trace := by
  refine Run.each_iff_of_invariant (I := DepositsSafe) (J := fun _ env => MilestonesStored env)
    ?_ ?_ h
  · rintro env ⟨self, host, tokens, rfl⟩
    have hrun : Reachable [] (Env.deployed self host tokens) := .start ⟨_, _, _, rfl⟩
    refine ⟨fun g i hopen => absurd rfl hopen, (depositsSafe_iff hrun fun key => rfl).mpr ?_⟩
    refine ⟨?_, fun g i hopen => absurd rfl hopen⟩
    have hempty : PartialMap.keys (Env.deployed self host tokens).deposits = ∅ :=
      Set.eq_empty_of_forall_notMem fun key hkey => hkey rfl
    exact (PartialMap.total_of_keys_empty hempty id).le
  · intro e older hrun hn hstored hsafe
    have hheld := (depositsSafe_iff hrun hsafe.once).mp hsafe
    have honce (key : Nat × Nat) := once_of_step hn hstored (hsafe.once key)
    rw [depositsSafe_iff (.step hrun hn) honce]
    exact ⟨milestonesStored_of_step hn hstored, depositsHeld_iff hrun hn hstored hheld⟩

/-- A grant is deleted, and the bounty is paid, while another one has an open deposit. -/
theorem deposit_solvency_of_deleted_grant :
    let run := history Demo.env (Demo.setUp 1000 ++
      [⟨1, 0, .tokenMint Demo.nativeToken Demo.grantee (10 ^ 8)⟩,
        Demo.call 1 (.createGrant 7 Demo.grantee 1000 1 0 none none),
        Demo.call 1 (.submitMilestoneProof 7 0 "proof" 0),
        Demo.call 1 (.createGrant 8 Demo.grantee 1000 1 0 none none),
        Demo.call 1 (.cancelGrant 8), Demo.call 1 (.finalizeAndPurge 8 Demo.admin),
        Demo.call 1 (.approveMilestoneSubmission 7 0)])
    Run.Each (fun e older => DepositsSafe (e :: older) e.after) run.1 := by
  intro run
  have hrun : Reachable run.1 run.2 := history_reachable Demo.env_deployed (by decide)
  refine (deposit_solvency hrun).mpr ⟨?_, ?_, ?_, ?_, ?_, ?_, nofun, nofun, nofun, ?_, trivial⟩
  · exact (@sparesDeposits_iff _ _ (.approveMilestoneSubmission 7 0) rfl).mpr
      ⟨nofun, nofun, nofun, .inl rfl⟩
  · refine (@sparesDeposits_iff _ _ (.finalizeAndPurge 8 Demo.admin) rfl).mpr
      ⟨nofun, nofun, fun g i hg => ?_, .inr ?_⟩
    · obtain rfl : 8 = g := of_decide_eq_true hg
      rfl
    · -- one deposit is open
      have hempty : PartialMap.keys Demo.env.deposits = ∅ :=
        Set.eq_empty_of_forall_notMem fun key hkey => hkey rfl
      have hone : PartialMap.total (Function.update Demo.env.deposits (7, 0)
          (some milestoneSubmissionDepositXlm)) id = milestoneSubmissionDepositXlm := by
        rw [PartialMap.total_update_of_none (hempty ▸ Set.finite_empty) rfl,
          PartialMap.total_of_keys_empty hempty]
        rfl
      unfold DepositPool.outstanding Env.depositPool
      rw [@deposits_update Demo.env _ 7 0 (some milestoneSubmissionDepositXlm) rfl, hone]
      decide
  · exact (@sparesDeposits_iff _ _ (.cancelGrant 8) rfl).mpr ⟨nofun, nofun, nofun, .inl rfl⟩
  · exact (@sparesDeposits_iff _ _ (.createGrant 8 Demo.grantee 1000 1 0 none none) rfl).mpr
      ⟨nofun, nofun, nofun, .inl rfl⟩
  · refine (@sparesDeposits_iff _ _ (.submitMilestoneProof 7 0 "proof" 0) rfl).mpr
      ⟨nofun, ?_, nofun, .inl rfl⟩
    rintro _ _ _ _ ⟨⟩ hself
    exact absurd hself (by decide)
  · exact (@sparesDeposits_iff _ _ (.createGrant 7 Demo.grantee 1000 1 0 none none) rfl).mpr
      ⟨nofun, nofun, nofun, .inl rfl⟩
  · exact (@sparesDeposits_iff _ _ (.initializeContract Demo.admin Demo.token Demo.treasury
      Demo.oracle Demo.nativeToken) rfl).mpr (spares_initialize_iff.mpr (by decide))

/-- The call is a rescue of the token by the admin. -/
def Call.rescues (token : Address) : Call → Bool
  | .rescueTokens tokenAddress _ _ => tokenAddress = token
  | _ => false

/-- The bounty for deleting another grant is paid out of the only deposit. -/
theorem deposit_solvency_bounty :
    ¬∀ trace env native, Reachable trace env → env.nativeToken = some native →
      (∀ e ∈ trace, ∀ call ∈ called e, call.rescues native = false) → DepositsSafe trace env := by
  intro h
  let run := history Demo.env
    [Demo.call 1 (.initializeContract Demo.admin Demo.token Demo.treasury Demo.oracle
        Demo.nativeToken),
      ⟨1, 0, .tokenMint Demo.token Demo.self 1000⟩,
      ⟨1, 0, .tokenMint Demo.nativeToken Demo.grantee 50000000⟩,
      Demo.call 1 (.createGrant 7 Demo.grantee 1000 1 0 none none),
      Demo.call 1 (.submitMilestoneProof 7 0 "proof" 0),
      Demo.call 1 (.createGrant 8 Demo.grantee 1000 1 0 none none),
      Demo.call 1 (.cancelGrant 8), Demo.call 1 (.finalizeAndPurge 8 Demo.admin)]
  have hrun : Reachable run.1 run.2 := history_reachable Demo.env_deployed (by decide)
  have hsafe := h run.1 run.2 Demo.nativeToken hrun (by decide) (by decide)
  obtain ⟨⟨env', happrove⟩, -⟩ :=
    hsafe.payable 7 0 (by decide) 2 0 [Demo.admin] ⟨Demo.admin, by decide, by decide⟩
  have hfails : (run.2.attempt 2 0 [Demo.admin] (.approveMilestoneSubmission 7 0)).toOption.isNone =
      true := by decide
  rw [happrove] at hfails
  cases hfails

end YieldTrust.GrantStream
