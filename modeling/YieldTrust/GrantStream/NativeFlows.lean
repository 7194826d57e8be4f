import YieldTrust.GrantStream.Registry
import YieldTrust.GrantStream.Regions

/-!
# YieldTrust.GrantStream.NativeFlows

What a call takes from the balance of the contract in the native token, computed from
the state before it. The deposits of milestone submissions apart, these are two bounties,
two rescues, and everything that is paid in the grant token if that is the native token.
-/

namespace YieldTrust.GrantStream

open Fallible

/-! ### Payments of an operation -/

/-- The payment to `target`, if there is one. -/
def payTo (target : Option Address) (amount : Int) : List Payment :=
  target.toList.map fun target => ⟨target, amount⟩

/-- The payment of what is left of a grant. -/
def payRest (target : Option Address) (rest : Int) : List Payment :=
  if 0 < rest then payTo target rest else []

/-- What a successful operation pays on behalf of the grant. -/
def GrantOp.payments (now : Nat) (treasury : Option Address) (a : Account) : GrantOp → List Payment
  | .withdraw amount =>
    let s := a.grant.settled now
    [⟨s.redirect.getD s.recipient, amount⟩]
  | .withdrawValidator amount => payTo a.grant.validator amount
  | .rageQuit =>
    let s := a.grant.settled now
    ⟨s.recipient, s.claimable⟩ :: (validatorPayout s.validator s.validatorClaimable ++
      payRest treasury (s.totalAmount - (s.withdrawn + s.claimable +
        (s.validatorWithdrawn + s.validatorClaimable))))
  | .cancel =>
    let s := a.grant.settled now
    payRest treasury (s.totalAmount - s.accounted)
  | .clawback contested =>
    let s := a.grant.settled now
    if contested then [] else payRest a.grant.donor (s.totalAmount - s.accounted)
  | .resolve releaseToDonor =>
    payTo (if releaseToDonor then a.grant.donor else treasury) (a.escrow.getD 0)
  | _ => []

theorem Sweep.eq_payRest {treasury : Option Address} {remaining : Int} {payments : List Payment}
    (h : Sweep treasury remaining payments) : payments = payRest treasury remaining := by
  unfold payRest
  rcases h with ⟨hle, rfl⟩ | ⟨hpos, target, rfl, rfl⟩
  · rw [if_neg (not_lt.mpr hle)]
  · rw [if_pos hpos]
    rfl

theorem GrantStep.payments_eq {now : Nat} {treasury : Option Address} {op : GrantOp}
    {a a' : Account} {payments : List Payment} (hstep : GrantStep now treasury op a a' payments) :
    payments = op.payments now treasury a := by
  cases hstep with
  | withdraw hs | pause hs | proposeIncrease hs | proposeDecrease hs | applyKpi hs =>
      obtain rfl := hs.eq_settled
      rfl
  | withdrawValidator hs hvalidator =>
      simp [GrantOp.payments, payTo, hvalidator]
  | rageQuit hs hstatus hsweep hm | cancel hs hstatus hsweep hm =>
      obtain rfl := hs.eq_settled
      rw [hsweep.eq_payRest]
      rfl
  | @clawbackNothing g s m e contested hs hstatus hrest hm =>
      obtain rfl := hs.eq_settled
      cases contested with
      | true => rfl
      | false =>
          show [] = payRest g.donor _
          rw [payRest, if_neg (not_lt.mpr hrest)]
  | @clawbackToDonor g s m e donor hs hstatus hrest hdonor hm =>
      obtain rfl := hs.eq_settled
      show _ = payRest g.donor _
      rw [payRest, if_pos hrest, hdonor]
      rfl
  | resolveToDonor hstatus hamount hdonor => simp [GrantOp.payments, payTo, hdonor]
  | resolveToGrantee hstatus hamount htreasury => simp [GrantOp.payments, payTo, htreasury]
  | clawbackContested => rfl
  | resume | changeGrantee | setLegal | signLegal => rfl

/-! ### Payments of a call -/

/-- A bounty is only paid by a contract that has it. -/
def bountyPayments (env : Env) (nativeToken target : Address) (bounty : Int) : List Payment :=
  if bounty ≤ env.balanceOf nativeToken env.self then [⟨target, bounty⟩] else []

/-- What a successful call pays in the native token, the deposits apart. -/
def Call.paymentsIn (env : Env) (nativeToken : Address) (call : Call) : List Payment :=
  match call.grantOp? with
  | some (grantId, op) =>
    if env.grantToken = some nativeToken then
      (env.grants grantId).elim [] fun grant =>
        op.payments env.timestamp env.treasury ⟨grant, env.disputeEscrow grantId⟩
    else []
  | none =>
    match call with
    | .confidentialClaim grantId claimAmount _ _ =>
      if env.grantToken = some nativeToken then
        payTo (env.confidentialGrantRecipient grantId) claimAmount
      else []
    | .rescueTokens tokenAddress amount target =>
      if tokenAddress = nativeToken then [⟨target, amount⟩] else []
    | .executeRescue _ proposalId tokenAddress =>
      if tokenAddress = nativeToken then
        (env.rescue.proposal proposalId).toList.map fun proposal =>
          ⟨proposal.rescueTo, proposal.amount⟩
      else []
    | .finalizeAndPurge _ purger => bountyPayments env nativeToken purger 100000
    | .pruneFinalizedGrant _ relayer => bountyPayments env nativeToken relayer 200000
    | _ => []

/-- What the contract holds of the native token. -/
def Env.nativeBalance (env : Env) : Int :=
  env.nativeToken.elim 0 fun nativeToken => env.balanceOf nativeToken env.self

/-- What a successful call takes from the native balance, the deposits apart. -/
def Call.nativeOutflow (env : Env) (call : Call) : Int :=
  env.nativeToken.elim 0 fun nativeToken =>
    TokenLedger.spentBy env.self (call.paymentsIn env nativeToken)

/-- The submission whose deposit the call takes or pays back. -/
def Call.depositKey? : Call → Option (Nat × Nat)
  | .submitMilestoneProof grantId milestoneIndex _ _
  | .approveMilestoneSubmission grantId milestoneIndex
  | .slashMsSubmissionDeposit grantId milestoneIndex => some (grantId, milestoneIndex)
  | _ => none

section

variable {env env' : Env} {native : Address}

/-- Payments in the grant token count if that is the native token. -/
theorem Pays.balance {payments : List Payment} (h : Pays env payments env') :
    env'.balanceOf native env.self = env.balanceOf native env.self -
      TokenLedger.spentBy env.self (if env.grantToken = some native then payments else []) := by
  rcases h with ⟨rfl, hsame⟩ | ⟨token, htoken, hpay⟩
  · unfold Env.balanceOf
    rw [hsame, ite_self]
    exact (Int.sub_zero _).symm
  · rw [htoken]
    by_cases ht : token = native
    · subst ht
      rw [if_pos rfl]
      exact TokenLedger.payAll_balance_source hpay
    · rw [if_neg fun heq => ht (Option.some.inj heq)]
      have hother := congrFun (TokenLedger.payAll_balance_other hpay (Ne.symm ht)) env.self
      exact hother.trans (Int.sub_zero _).symm

theorem transfer_balance_of {token target : Address} {amount : Int}
    (h : env.transfer token env.self target amount = .ok env') :
    env'.balanceOf native env.self = env.balanceOf native env.self -
      TokenLedger.spentBy env.self (if token = native then [⟨target, amount⟩] else []) := by
  obtain ⟨tokens, ht, rfl⟩ := transfer_eq_ok.mp h
  by_cases htoken : token = native
  · subst htoken
    rw [if_pos rfl, TokenLedger.spentBy_cons]
    refine (TokenLedger.transfer_balance_source ht).trans ?_
    rw [TokenLedger.spentBy_nil, Int.add_zero]
    rfl
  · rw [if_neg htoken]
    have hother := congrFun (TokenLedger.transfer_balance_other ht (Ne.symm htoken)) env.self
    exact hother.trans (Int.sub_zero _).symm

/-- The bounty is paid after something else was written. -/
theorem payBounty_balance (rs : List Region) {env₁ : Env} {target : Address} {bounty : Int}
    (hframe : Frame rs env env₁) (hrs : ∀ r ∈ [Region.ledger, .tokens, .config], r ∉ rs)
    (h : payBounty env₁ target bounty = .ok env') (hnative : env.nativeToken = some native) :
    env'.balanceOf native env.self = env.balanceOf native env.self -
      TokenLedger.spentBy env.self (bountyPayments env native target bounty) := by
  obtain ⟨-, -, -, hself, -⟩ := hframe.same .ledger (hrs _ (by simp))
  obtain ⟨-, -, -, -, hconfig⟩ := hframe.same .config (hrs _ (by simp))
  have htokens : env₁.tokens = env.tokens := hframe.same .tokens (hrs _ (by simp))
  have hbefore : env₁.balanceOf native env.self = env.balanceOf native env.self := by
    unfold Env.balanceOf
    rw [htokens]
  rw [← hconfig] at hnative
  unfold payBounty readNativeToken at h
  obtain ⟨token, htoken, h⟩ := okOr_bind_eq_ok.mp h
  obtain rfl := Option.some.inj (hnative.symm.trans htoken)
  unfold bountyPayments
  rw [← hbefore, ← hself]
  rcases when_eq_ok.mp h with ⟨hle, h⟩ | ⟨hlt, rfl⟩
  · have hbalance := @transfer_balance_of _ _ native _ _ _ h
    rw [if_pos rfl] at hbalance
    rw [if_pos hle]
    exact hbalance
  · rw [if_neg hlt]
    exact (Int.sub_zero _).symm

theorem confidentialClaim_balance {grantId : Nat} {claimAmount : Int} {nullifier proof : Bytes}
    (h : confidentialClaim env grantId claimAmount nullifier proof = .ok env') :
    env'.balanceOf native env.self = env.balanceOf native env.self -
      TokenLedger.spentBy env.self
        ((Call.confidentialClaim grantId claimAmount nullifier proof).paymentsIn env native) := by
  unfold confidentialClaim at h
  obtain ⟨recipient, hrecipient, h⟩ := okOr_bind_eq_ok.mp h
  simp only [bind_eq_ok] at h
  obtain ⟨_, -, _, -, _, -, _, -, token, htoken, h⟩ := h
  have htoken : env.grantToken = some token := okOr_eq_ok.mp htoken
  have hpayments :
      (Call.confidentialClaim grantId claimAmount nullifier proof).paymentsIn env native =
        if token = native then [⟨recipient, claimAmount⟩] else [] := by
    show (if env.grantToken = some native then
      payTo (env.confidentialGrantRecipient grantId) claimAmount else []) = _
    rw [hrecipient, htoken]
    exact if_congr Option.some_inj rfl rfl
  have hbalance := @transfer_balance_of _ _ native _ _ _ h
  rw [hpayments]
  exact hbalance

theorem executeRescue_balance {caller token : Address} {proposalId : Nat}
    (h : executeRescue env caller proposalId token = .ok env') :
    env'.balanceOf native env.self = env.balanceOf native env.self -
      TokenLedger.spentBy env.self
        ((Call.executeRescue caller proposalId token).paymentsIn env native) := by
  obtain ⟨proposal, rescue, hproposal, h⟩ := executeRescue_transfer h
  have hpayments : (Call.executeRescue caller proposalId token).paymentsIn env native =
      if token = native then [⟨proposal.rescueTo, proposal.amount⟩] else [] := by
    unfold Call.paymentsIn
    dsimp only [Call.grantOp?]
    rw [hproposal]
    rfl
  have hbalance := @transfer_balance_of _ _ native _ _ _ h
  rw [hpayments]
  exact hbalance

/-- Only calls that write the tokens pay anything. -/
theorem paymentsIn_of_quiet {call : Call} (hop : call.grantOp? = none)
    (htokens : Region.tokens ∉ call.writes) : call.paymentsIn env native = [] := by
  cases call <;> simp_all [Call.paymentsIn, Call.writes, Call.grantOp?]

theorem balance_of_exec {call : Call} (hnative : env.nativeToken = some native)
    (h : call.exec env = .ok env') (hkey : call.depositKey? = none) :
    env'.balanceOf native env.self = env.balanceOf native env.self -
      TokenLedger.spentBy env.self (call.paymentsIn env native) := by
  cases hop : call.grantOp? with
  | some op =>
      obtain ⟨grantId, op⟩ := op
      unfold Call.paymentsIn
      rw [hop]
      dsimp only
      obtain ⟨g, a', payments, hg, hstep, hpays, -⟩ := operates_of_exec h hop
      rw [hg, Option.elim_some, ← hstep.payments_eq]
      exact hpays.balance
  | none =>
      by_cases htokens : Region.tokens ∈ call.writes
      · cases call <;> simp [Call.writes, Call.grantOp?, Call.depositKey?] at htokens hop hkey
        case confidentialClaim grantId claimAmount nullifier proof =>
          exact confidentialClaim_balance h
        case rescueTokens tokenAddress amount target =>
          exact transfer_balance_of (rescueTokens_transfer h)
        case executeRescue caller proposalId tokenAddress => exact executeRescue_balance h
        case finalizeAndPurge grantId purger =>
          unfold Call.exec finalizeAndPurge at h
          simp only [bind_eq_ok] at h
          obtain ⟨_, -, _, -, _, -, _, -, h⟩ := h
          exact payBounty_balance [.grants, .recipientIndex] (deleteGrant_frame ..) (by decide) h
            hnative
        case pruneFinalizedGrant grantId relayer =>
          unfold Call.exec pruneFinalizedGrant at h
          simp only [bind_eq_ok] at h
          obtain ⟨_, -, _, -, _, -, _, -, _, -, _, -, _, -, h⟩ := h
          refine payBounty_balance
            [.tombstones, .milestones, .claims, .grants, .recipientIndex] ?_ (by decide) h hnative
          exact (((setTombstone_frame ..).comp ((removeMilestones_frame ..).comp
            ((setSubmitNonce_frame ..).comp (setClaimValueCounter_frame ..)))).comp
              (deleteGrant_frame ..)).mono (by simp)
      · have hsame : env'.tokens = env.tokens := (frame_of_exec h).same .tokens htokens
        rw [paymentsIn_of_quiet hop htokens]
        unfold Env.balanceOf
        rw [hsame]
        exact (Int.sub_zero _).symm

/-- **Native flows.** What a successful call takes from the native balance. -/
theorem nativeBalance_of_exec {call : Call} (h : call.exec env = .ok env')
    (hkey : call.depositKey? = none) (hconfig : Region.config ∉ call.writes) :
    env'.nativeBalance = env.nativeBalance - call.nativeOutflow env := by
  obtain ⟨-, -, -, -, hnative⟩ := (frame_of_exec h).same .config hconfig
  obtain ⟨-, -, -, hself, -⟩ :=
    (frame_of_exec h).same .ledger (by cases call <;> simp [Call.writes])
  unfold Env.nativeBalance Call.nativeOutflow
  rw [hnative, hself]
  cases htoken : env.nativeToken with
  | none => rfl
  | some native => exact balance_of_exec htoken h hkey

end

end YieldTrust.GrantStream
