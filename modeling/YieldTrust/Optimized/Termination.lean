import YieldTrust.Optimized.Expiry

/-!
# YieldTrust.Optimized.Termination

The **self-termination of a grant**. It leaves a flag in the status mask, which is also the flag
of a rage quit, and the balances of the grant; `termination_identity` says in which runs the
flag and the balances tell who terminated a grant and what was paid out.
-/

namespace YieldTrust.Optimized

open Fallible
open GrantStream (Address Bytes)

variable {host : Host} {env : Env} {grant grant' settled : Grant} {grantId now ts : Nat}
  {call : Call}

/-! ### The flag -/

/-- The flag of a self-termination is that of a rage quit, and none of the life flags. -/
@[simp] theorem selfTerminated_flag :
    hasStatus statusActive statusSelfTerminated = false ∧
      hasStatus statusPaused statusSelfTerminated = false ∧
      hasStatus statusCompleted statusSelfTerminated = false ∧
      hasStatus statusCancelled statusSelfTerminated = false ∧
      hasStatus statusSelfTerminated statusSelfTerminated = true ∧
      hasStatus statusRageQuit statusSelfTerminated = true := by
  decide

theorem Settlement.selfTerminated_eq (h : Settlement grant now settled) :
    hasStatus settled.statusMask statusSelfTerminated =
      hasStatus grant.statusMask statusSelfTerminated := by
  cases h with
  | idle | accrued => rfl
  | completed => simp

/-- What is reported of a grant is what its record says, if it has the flag. -/
theorem getTerminationDetails_eq_ok {result : SelfTerminateResult} :
    getTerminationDetails env grantId = .ok result ↔ ∃ grant,
      env.store.grants grantId = some grant ∧ isSelfTerminated grant.statusMask = true ∧
        I128.InRange grant.accounted ∧ I128.InRange (grant.totalAmount - grant.accounted) ∧
        result = { grantId, finalClaimable := grant.claimable
                   refundedAmount := grant.totalAmount - grant.accounted
                   terminatedAt := grant.rateUpdatedAt } := by
  unfold getTerminationDetails readGrant isSelfTerminated Grant.accounted
  simp only [bind_eq_ok, ensure_eq_ok, okOr_eq_ok, orTrap_eq_ok, pure_eq_ok,
    I128.checkedAdd_eq_some, I128.checkedSub_eq_some]
  constructor
  · rintro ⟨grant, hgrant, -, hflag, _, ⟨hsum, rfl⟩, _, ⟨hrest, rfl⟩, rfl⟩
    exact ⟨grant, hgrant, hflag, hsum, hrest, rfl⟩
  · rintro ⟨grant, hgrant, hflag, hsum, hrest, rfl⟩
    exact ⟨grant, hgrant, (), hflag, _, ⟨hsum, rfl⟩, _, ⟨hrest, rfl⟩, rfl⟩

/-! ### One transition -/

theorem Transition.totalAmount_eq (h : Transition host env grantId grant call grant') :
    grant'.totalAmount = grant.totalAmount := by
  cases h with
  | cancelled _ _ hsettle | paused _ _ hsettle | resumed _ _ hsettle | flagged _ _ _ _ hsettle
  | expired _ _ _ _ hsettle | withdrawn _ _ _ _ hsettle | rateUpdated _ _ _ hsettle
  | clawedBack _ hsettle | rageQuit _ _ hsettle | selfTerminated _ _ hsettle =>
      exact (settleGrant_eq_ok hsettle).totalAmount_eq
  | deadlineSet | oraclesConfigured | evidenceSubmitted | markedMet => rfl
  | approved oracle => exact (grant.approvedBy_balances oracle).2.2.1

/-- Something accrues from the last update of the grant to the time `now`. -/
def Grant.Accrues (grant : Grant) (now : Nat) : Prop := grant.AccruesPast grant.lastUpdateTs now

instance (grant : Grant) (now : Nat) : Decidable (grant.Accrues now) :=
  inferInstanceAs (Decidable (grant.AccruesPast _ _))

theorem Grant.WellFormed.not_accrues_iff (h : grant.WellFormed) :
    ¬grant.Accrues now ↔ grant.earnedBy now = grant.accounted := by
  have hle : grant.accounted ≤ grant.earnedBy now := h.accounted_le_earnedBy
  unfold Grant.Accrues
  rw [h.accruesPast_iff, h.earnedBy_of_idle (.inr le_rfl)]
  omega

/-- A settlement changes the balances exactly if something accrues. -/
theorem Settlement.not_accrues_iff (h : Settlement grant now settled) (hgrant : grant.WellFormed) :
    ¬grant.Accrues now ↔ settled.accounted = grant.accounted := by
  rw [hgrant.not_accrues_iff, h.accounted_eq hgrant]

theorem Settlement.claimable_eq_of_accounted (h : Settlement grant now settled)
    (hsame : settled.accounted = grant.accounted) : settled.claimable = grant.claimable := by
  unfold Grant.accounted at hsame
  rw [h.withdrawn_eq] at hsame
  omega

/-- The condition on a call under which the flag and the balances of a grant keep telling
whether it was terminated and what was paid then. -/
def Call.TerminationGuard (env : Env) : Call → Prop
  | .createGrant _ _ _ _ initialStatusMask => isSelfTerminated initialStatusMask = false
  | .setGrantFlags grantId flagsToSet flagsToClear => ∀ grant ∈ env.store.grants grantId,
      isSelfTerminated (flaggedMask grant.statusMask flagsToSet flagsToClear) =
        isSelfTerminated grant.statusMask ∧
      (isSelfTerminated grant.statusMask = true → ¬grant.Accrues env.timestamp)
  | .rageQuit grantId => ∀ grant ∈ env.store.grants grantId,
      isSelfTerminated grant.statusMask = true ∧ ¬grant.Accrues env.timestamp
  | .selfTerminate grantId => ∀ grant ∈ env.store.grants grantId,
      grant.claimable = 0 ∧ ¬grant.Accrues env.timestamp
  | .cancelGrantBitmask grantId | .pauseGrant grantId | .resumeGrant grantId
  | .withdraw grantId _ | .updateRate grantId _ => ∀ grant ∈ env.store.grants grantId,
      isSelfTerminated grant.statusMask = true → ¬grant.Accrues env.timestamp
  | _ => True

instance decidableTerminationGuard (env : Env) :
    (call : Call) → Decidable (call.TerminationGuard env)
  | .createGrant _ _ _ _ initialStatusMask =>
      inferInstanceAs (Decidable (isSelfTerminated initialStatusMask = false))
  | .setGrantFlags grantId _ _ =>
      inferInstanceAs (Decidable (∀ grant ∈ env.store.grants grantId, _ ∧ (_ → ¬_)))
  | .rageQuit grantId | .selfTerminate grantId =>
      inferInstanceAs (Decidable (∀ grant ∈ env.store.grants grantId, _ ∧ ¬_))
  | .cancelGrantBitmask grantId | .pauseGrant grantId | .resumeGrant grantId
  | .withdraw grantId _ | .updateRate grantId _ =>
      inferInstanceAs (Decidable (∀ grant ∈ env.store.grants grantId,
        isSelfTerminated grant.statusMask = true → ¬grant.Accrues env.timestamp))
  | .initializeContract _ | .getGrant _ | .claimableBitmask _ | .processMilestoneExpiry _
  | .setMilestoneDeadline _ _ | .configureMilestoneOracles _ _ _ _
  | .submitMilestoneEvidence _ _ | .approveMilestone _ _ _ | .markMilestoneMet _
  | .clawbackMilestone _ => inferInstanceAs (Decidable True)

/-- What a transition keeps of a termination that went before. -/
structure TerminationKept (grant grant' : Grant) : Prop where
  flag : isSelfTerminated grant'.statusMask = isSelfTerminated grant.statusMask
  balances : isSelfTerminated grant.statusMask = true →
    grant'.claimable = grant.claimable ∧ grant'.accounted = grant.accounted

/-- What changes neither the flag nor the balances keeps a termination. -/
theorem TerminationKept.of_same
    (hflag : isSelfTerminated grant'.statusMask = isSelfTerminated grant.statusMask)
    (hclaimable : grant'.claimable = grant.claimable)
    (hwithdrawn : grant'.withdrawn = grant.withdrawn) : TerminationKept grant grant' := by
  refine ⟨hflag, fun _ => ⟨hclaimable, ?_⟩⟩
  rw [Grant.accounted, hclaimable, hwithdrawn, Grant.accounted]

/-- A settlement keeps a termination exactly if nothing accrued since. -/
theorem Settlement.terminationKept_iff (h : Settlement grant now settled)
    (hgrant : grant.WellFormed)
    (hflag : isSelfTerminated grant'.statusMask = isSelfTerminated grant.statusMask)
    (hclaimable : grant'.claimable = settled.claimable)
    (hwithdrawn : grant'.withdrawn = settled.withdrawn) :
    TerminationKept grant grant' ↔
      (isSelfTerminated grant.statusMask = true → ¬grant.Accrues now) := by
  have hafter : grant'.accounted = settled.accounted := by
    rw [Grant.accounted, hclaimable, hwithdrawn, Grant.accounted]
  rw [h.not_accrues_iff hgrant, ← hafter]
  constructor
  · intro hkept hterminated
    exact (hkept.balances hterminated).2
  · intro hidle
    refine ⟨hflag, fun hterminated => ⟨?_, hidle hterminated⟩⟩
    rw [hclaimable]
    exact h.claimable_eq_of_accounted (hafter.symm.trans (hidle hterminated))

/-- **Step lemma.** A transition other than a termination. -/
theorem Transition.terminationKept_iff (h : Transition host env grantId grant call grant')
    (hgrant : grant.WellFormed) (hstored : env.store.grants grantId = some grant)
    (hcall : call ≠ .selfTerminate grantId)
    (hpaid : isSelfTerminated grant.statusMask = true → grant.claimable = 0) :
    TerminationKept grant grant' ↔ call.TerminationGuard env := by
  have hmask {settled : Grant} (hsettle : settleGrant grant env.timestamp = .ok settled) :
      isSelfTerminated settled.statusMask = isSelfTerminated grant.statusMask :=
    (settleGrant_eq_ok hsettle).selfTerminated_eq
  cases h with
  | cancelled settled _ hsettle | paused settled _ hsettle | resumed settled _ hsettle =>
      simp only [Call.TerminationGuard, hstored, Option.mem_def, Option.some.injEq, forall_eq']
      have hsettlement := settleGrant_eq_ok hsettle
      exact hsettlement.terminationKept_iff hgrant (by simp [isSelfTerminated]) rfl rfl
  | rateUpdated _ settled _ hsettle =>
      have hflag := hmask hsettle
      simp only [Call.TerminationGuard, hstored, Option.mem_def, Option.some.injEq, forall_eq']
      exact (settleGrant_eq_ok hsettle).terminationKept_iff hgrant hflag rfl rfl
  | flagged flagsToSet flagsToClear settled _ hsettle =>
      simp only [Call.TerminationGuard, hstored, Option.mem_def, Option.some.injEq, forall_eq']
      have hsettlement := settleGrant_eq_ok hsettle
      constructor
      · intro hkept
        have hflag := hkept.flag
        exact ⟨hflag, Iff.mp (hsettlement.terminationKept_iff hgrant hflag rfl rfl) hkept⟩
      · intro hguard
        refine Iff.mpr (hsettlement.terminationKept_iff hgrant ?_ rfl rfl) hguard.2
        exact hguard.1
  | expired _ hcall settled hexpired hsettle =>
      -- an expired grant was not terminated: the flag is that of a rage quit
      have hflag : isSelfTerminated grant.statusMask = false := hexpired.not_rageQuit
      have hfree : call.TerminationGuard env := by
        cases call with
        | getGrant | claimableBitmask | processMilestoneExpiry => trivial
        | _ => cases hcall
      refine iff_of_true ⟨?_, fun hterminated => ?_⟩ hfree
      · have hsame := (settleGrant_eq_ok hsettle).selfTerminated_eq
        simpa [Grant.autoCancelled, isSelfTerminated] using hsame
      · simp [hflag] at hterminated
  | withdrawn amount settled hpos _ hsettle hle =>
      have hsettlement := settleGrant_eq_ok hsettle
      have hafter : (settled.paid amount).accounted = settled.accounted := by
        dsimp only [Grant.accounted, Grant.paid]
        omega
      simp only [Call.TerminationGuard, hstored, Option.mem_def, Option.some.injEq, forall_eq']
      rw [hsettlement.not_accrues_iff hgrant, ← hafter]
      constructor
      · intro hkept hterminated
        exact (hkept.balances hterminated).2
      · intro hidle
        refine ⟨?_, fun hterminated => ?_⟩
        · rw [← hmask hsettle]
          unfold Grant.paid isSelfTerminated
          dsimp only
          split <;> simp
        · -- nothing accrued, so nothing could be withdrawn
          have hsame := hsettlement.claimable_eq_of_accounted
            (hafter.symm.trans (hidle hterminated))
          have hzero := hpaid hterminated
          omega
  | deadlineSet | oraclesConfigured | evidenceSubmitted | markedMet =>
      exact iff_of_true (.of_same rfl rfl rfl) trivial
  | approved oracle =>
      obtain ⟨hwithdrawn, hclaimable, -⟩ := grant.approvedBy_balances oracle
      refine iff_of_true (.of_same ?_ hclaimable hwithdrawn) trivial
      unfold Grant.approvedBy isSelfTerminated
      split
      · dsimp only
        split <;> simp
      · rfl
  | clawedBack settled hsettle =>
      have hflag := hmask hsettle
      have hwithdrawn := (settleGrant_eq_ok hsettle).withdrawn_eq
      refine iff_of_true ⟨hflag, fun hterminated => ?_⟩ trivial
      simp [Grant.accounted, hpaid hterminated, hwithdrawn]
  | rageQuit settled _ hsettle =>
      have hafter : settled.quit.accounted = settled.accounted := by
        dsimp only [Grant.accounted, Grant.quit]
        omega
      have hquit : isSelfTerminated settled.quit.statusMask = true := by
        simp [Grant.quit, isSelfTerminated]
      simp only [Call.TerminationGuard, hstored, Option.mem_def, Option.some.injEq, forall_eq']
      rw [(settleGrant_eq_ok hsettle).not_accrues_iff hgrant, ← hafter]
      constructor
      · intro hkept
        have hterminated := hkept.flag.symm.trans hquit
        exact ⟨hterminated, (hkept.balances hterminated).2⟩
      · intro hguard
        obtain ⟨hterminated, hidle⟩ := hguard
        exact ⟨hquit.trans hterminated.symm, fun _ => ⟨(hpaid hterminated).symm, hidle⟩⟩
  | selfTerminated => exact absurd rfl hcall

/-! ### A termination -/

/-- A settled grant that its grantee terminates. -/
def Grant.terminated (settled : Grant) : Grant :=
  { settled with
    statusMask := clearStatus (clearStatus (setStatus settled.statusMask statusSelfTerminated)
      statusActive) statusPaused
    flowRate := 0 }

theorem Grant.terminated_flag (settled : Grant) :
    isSelfTerminated settled.terminated.statusMask = true := by
  simp [Grant.terminated, isSelfTerminated]

/-- What a termination returns is what it settles. -/
theorem selfTerminate_result {result : Env × SelfTerminateResult}
    (h : selfTerminate host env grantId = .ok result) : ∃ grant settled,
      env.store.grants grantId = some grant ∧ isSelfTerminated grant.statusMask = false ∧
        settleGrant grant env.timestamp = .ok settled ∧
        result.2.finalClaimable = settled.claimable ∧
        result.2.refundedAmount = settled.totalAmount - settled.accounted := by
  unfold selfTerminate readGrant validateTerminationEligibility at h
  simp only [bind_eq_ok, ensure_eq_ok, okOr_eq_ok, orTrap_eq_ok, pure_eq_ok,
    I128.checkedAdd_eq_some, I128.checkedSub_eq_some] at h
  obtain ⟨grant, hgrant, _, ⟨_, hflag, -⟩, -, -, settled, hsettle, _, ⟨-, rfl⟩, _, ⟨-, rfl⟩, _, -,
    _, -, rfl⟩ := h
  exact ⟨grant, settled, hgrant, hflag, hsettle, rfl, rfl⟩

/-- The step terminates the grant, and the call returns `result`. -/
def Terminates (host : Host) (e : Step) (grantId : Nat) (result : SelfTerminateResult) : Prop :=
  Ledger.called (contract host) e = some (.selfTerminate grantId) ∧
    ∃ env', selfTerminate host (e.before.enter e.action) grantId = .ok (env', result)

/-- The grant was terminated. -/
def Terminated (host : Host) (trace : Trace) (grantId : Nat) : Prop :=
  ∃ e ∈ trace, ∃ result, Terminates host e grantId result

/-- What a termination returns and leaves. -/
structure TerminationSpec (e : Step) (grantId : Nat) (result : SelfTerminateResult)
    (grant settled : Grant) : Prop where
  before : e.before.store.grants grantId = some grant
  unflagged : isSelfTerminated grant.statusMask = false
  settles : settleGrant grant e.action.timestamp = .ok settled
  final : result.finalClaimable = settled.claimable
  refunded : result.refundedAmount = settled.totalAmount - settled.accounted
  after : e.after.store.grants grantId = some settled.terminated

section Steps

variable {trace older : Trace} {e : Step} {result : SelfTerminateResult}

theorem terminates_spec (hn : Ledger.Next (contract host) e.before e.action e.after)
    (h : Terminates host e grantId result) :
    ∃ grant settled, TerminationSpec e grantId result grant settled := by
  obtain ⟨hcalled, env', hexec⟩ := h
  obtain ⟨grant, settled, hgrant, hflag, hsettle, hfinal, hrefunded⟩ := selfTerminate_result hexec
  rcases effect_of_next hn with ⟨hnone, -⟩ | ⟨call, hcalled', heffect⟩
  · cases hnone.symm.trans hcalled
  · cases hcalled.symm.trans hcalled'
    obtain ⟨grant', hgrant', htransition⟩ := heffect.transition_of_settles hgrant (if_pos rfl)
    cases htransition with
    | expired _ hcall => cases hcall
    | selfTerminated settled' _ hsettle' =>
        cases hsettle.symm.trans hsettle'
        exact ⟨grant, settled, hgrant, hflag, hsettle, hfinal, hrefunded, hgrant'⟩

theorem terminates_of_called (hn : Ledger.Next (contract host) e.before e.action e.after)
    (hcalled : Ledger.called (contract host) e = some (.selfTerminate grantId)) :
    ∃ result, Terminates host e grantId result := by
  obtain ⟨env', -, hexec, -⟩ := Ledger.exec_of_called hn hcalled
  have hmap : Prod.fst <$> selfTerminate host (e.before.enter e.action) grantId = .ok env' := hexec
  obtain ⟨result, hresult, -⟩ := map_eq_ok.mp hmap
  exact ⟨result.2, hcalled, result.1, hresult⟩

theorem terminated_cons_of_ne (hcall : Ledger.called (contract host) e ≠
    some (.selfTerminate grantId)) :
    Terminated host (e :: older) grantId ↔ Terminated host older grantId := by
  simp [Terminated, Terminates, hcall]

end Steps

/-! ### Runs -/

/-- The state tells that a grant was terminated and what was paid then, and nothing of it is
still claimable. -/
structure TerminationTold (host : Host) (trace : Trace) (env : Env) (grantId : Nat) : Prop where
  details : (∃ r, getTerminationDetails env grantId = .ok r) ↔ Terminated host trace grantId
  flag : (∃ grant, env.store.grants grantId = some grant ∧
    isSelfTerminated grant.statusMask = true) ↔ Terminated host trace grantId
  reported : ∀ e ∈ trace, ∀ result, Terminates host e grantId result →
    ∀ r, getTerminationDetails env grantId = .ok r →
      r.finalClaimable = result.finalClaimable ∧ r.refundedAmount = result.refundedAmount
  recorded : ∀ e ∈ trace, ∀ result, Terminates host e grantId result →
    ∀ grant grant', e.before.store.grants grantId = some grant →
      e.after.store.grants grantId = some grant' →
        grant'.withdrawn = grant.withdrawn + result.finalClaimable ∧ grant'.claimable = 0

/-- `TerminationTold` by the stored grant. -/
structure TerminationShown (host : Host) (trace : Trace) (grant? : Option Grant) (grantId : Nat) :
    Prop where
  flag : (∃ grant ∈ grant?, isSelfTerminated grant.statusMask = true) ↔
    Terminated host trace grantId
  reported : ∀ e ∈ trace, ∀ result, Terminates host e grantId result → ∀ grant ∈ grant?,
    isSelfTerminated grant.statusMask = true →
      grant.claimable = result.finalClaimable ∧
        grant.totalAmount - grant.accounted = result.refundedAmount
  paid : ∀ e ∈ trace, ∀ result, Terminates host e grantId result → result.finalClaimable = 0

section Runs

variable {trace older : Trace} {e : Step}

theorem totalAmount_inRange_of_reachable (h : Ledger.Reachable (contract host) trace env)
    (hgrant : env.store.grants grantId = some grant) : I128.InRange grant.totalAmount := by
  refine Ledger.store_invariant (I := fun store => ∀ grantId grant,
    store.grants grantId = some grant → I128.InRange grant.totalAmount) ?_ ?_ h grantId grant hgrant
  · intro grantId grant hgrant
    cases hgrant
  · intro env result call hexec htyped ih id g hg
    have heffect : Effect host env call result.store.grants := exec_effect hexec
    cases heffect.grantEffect hg with
    | untouched _ hg _ => exact ih id g hg
    | created recipient totalAmount flowRate mask hcall =>
        subst hcall
        have hsize : (decide (id < U64.size) && decide (I128.InRange totalAmount) &&
            decide (I128.InRange flowRate)) = true := htyped
        simp only [Bool.and_eq_true, decide_eq_true_eq] at hsize
        exact hsize.1.2
    | moved before _ hbefore htransition =>
        exact htransition.totalAmount_eq ▸ ih id before hbefore

/-- The details of a flagged grant can always be read. -/
theorem getTerminationDetails_of_reachable (h : Ledger.Reachable (contract host) trace env)
    {r : SelfTerminateResult} :
    getTerminationDetails env grantId = .ok r ↔ ∃ grant ∈ env.store.grants grantId,
      isSelfTerminated grant.statusMask = true ∧
        r = { grantId, finalClaimable := grant.claimable
              refundedAmount := grant.totalAmount - grant.accounted
              terminatedAt := grant.rateUpdatedAt } := by
  rw [getTerminationDetails_eq_ok]
  constructor
  · rintro ⟨grant, hgrant, hflag, -, -, hr⟩
    exact ⟨grant, hgrant, hflag, hr⟩
  · rintro ⟨grant, hgrant, hflag, hr⟩
    have htotal := totalAmount_inRange_of_reachable h hgrant
    have hwf := wellFormed_of_reachable h hgrant
    have hnonneg : 0 ≤ grant.accounted := Int.add_nonneg hwf.withdrawn_nonneg hwf.claimable_nonneg
    have hle := hwf.accounted_le
    exact ⟨grant, hgrant, hflag, htotal.of_nonneg_of_le hnonneg hle,
      htotal.of_nonneg_of_le (by omega) (by omega), hr⟩

/-- The balances of a terminated grant are booked exactly if nothing was paid out. -/
theorem recorded_iff {result : SelfTerminateResult}
    (hn : Ledger.Next (contract host) e.before e.action e.after)
    (h : Terminates host e grantId result) :
    (∀ grant grant', e.before.store.grants grantId = some grant →
      e.after.store.grants grantId = some grant' →
        grant'.withdrawn = grant.withdrawn + result.finalClaimable ∧ grant'.claimable = 0) ↔
      result.finalClaimable = 0 := by
  obtain ⟨grant, settled, hspec⟩ := terminates_spec hn h
  have hwithdrawn : settled.terminated.withdrawn = grant.withdrawn :=
    (settleGrant_eq_ok hspec.settles).withdrawn_eq
  have hclaimable : settled.terminated.claimable = result.finalClaimable := hspec.final.symm
  constructor
  · intro hrecorded
    exact hclaimable.symm.trans (hrecorded grant _ hspec.before hspec.after).2
  · intro hzero grant₁ grant₂ hbefore hafter
    cases hspec.before.symm.trans hbefore
    cases hspec.after.symm.trans hafter
    exact ⟨by rw [hwithdrawn, hzero, add_zero], hclaimable.trans hzero⟩

/-- The two ways to say it agree. -/
theorem terminationTold_iff (h : Ledger.Reachable (contract host) trace env) :
    TerminationTold host trace env grantId ↔
      TerminationShown host trace (env.store.grants grantId) grantId := by
  have hstep {e : Step} (he : e ∈ trace) :
      Ledger.Next (contract host) e.before e.action e.after := by
    obtain ⟨_, -, hn⟩ := h.of_mem he
    exact hn
  constructor
  · intro htold
    refine ⟨htold.flag, fun e he result hterm grant hgrant hflag => ?_, fun e he result hterm => ?_⟩
    · exact htold.reported e he result hterm _
        ((getTerminationDetails_of_reachable h).mpr ⟨grant, hgrant, hflag, rfl⟩)
    · exact (recorded_iff (hstep he) hterm).mp (htold.recorded e he result hterm)
  · intro hshown
    refine ⟨Iff.trans ?_ hshown.flag, hshown.flag, fun e he result hterm r hr => ?_,
      fun e he result hterm => ?_⟩
    · constructor
      · rintro ⟨r, hr⟩
        obtain ⟨grant, hgrant, hflag, -⟩ := (getTerminationDetails_of_reachable h).mp hr
        exact ⟨grant, hgrant, hflag⟩
      · rintro ⟨grant, hgrant, hflag⟩
        exact ⟨_, (getTerminationDetails_of_reachable h).mpr ⟨grant, hgrant, hflag, rfl⟩⟩
    · obtain ⟨grant, hgrant, hflag, rfl⟩ := (getTerminationDetails_of_reachable h).mp hr
      exact hshown.reported e he result hterm grant hgrant hflag
    · exact (recorded_iff (hstep he) hterm).mpr (hshown.paid e he result hterm)

/-- A step that neither terminates the grant nor writes it shows nothing new. -/
theorem terminationShown_cons_of_ne {grant? : Option Grant}
    (hcall : Ledger.called (contract host) e ≠ some (.selfTerminate grantId)) :
    TerminationShown host (e :: older) grant? grantId ↔
      TerminationShown host older grant? grantId := by
  have hnever (result : SelfTerminateResult) : ¬Terminates host e grantId result :=
    fun h => hcall h.1
  constructor
  · intro h
    exact ⟨h.flag.trans (terminated_cons_of_ne hcall),
      fun e' he' => h.reported e' (List.mem_cons_of_mem _ he'),
      fun e' he' => h.paid e' (List.mem_cons_of_mem _ he')⟩
  · intro h
    refine ⟨h.flag.trans (terminated_cons_of_ne hcall).symm, ?_, ?_⟩
    · rw [List.forall_mem_cons]
      exact ⟨fun result hterm => absurd hterm (hnever result), h.reported⟩
    · rw [List.forall_mem_cons]
      exact ⟨fun result hterm => absurd hterm (hnever result), h.paid⟩

/-- What a terminated grant shows: nothing was claimable. -/
theorem TerminationShown.claimable_eq_zero {grant? : Option Grant}
    (h : TerminationShown host trace grant? grantId) (hgrant : grant ∈ grant?)
    (hflag : isSelfTerminated grant.statusMask = true) : grant.claimable = 0 := by
  obtain ⟨e, he, result, hterm⟩ := h.flag.mp ⟨grant, hgrant, hflag⟩
  exact (h.reported e he result hterm grant hgrant hflag).1.trans (h.paid e he result hterm)

/-- Another grant in the place of the stored one shows the same exactly if it keeps the flag and,
with the flag, the balances. -/
theorem terminationShown_iff_of_moved (h : TerminationShown host trace (some grant) grantId)
    (htotal : grant'.totalAmount = grant.totalAmount) :
    TerminationShown host trace (some grant') grantId ↔ TerminationKept grant grant' := by
  have hflag := h.flag
  simp only [Option.mem_some_iff, exists_eq_left'] at hflag
  constructor
  · intro h'
    have hflag' := h'.flag
    simp only [Option.mem_some_iff, exists_eq_left'] at hflag'
    have hsame : isSelfTerminated grant'.statusMask = isSelfTerminated grant.statusMask := by
      rw [Bool.eq_iff_iff]
      exact hflag'.trans hflag.symm
    refine ⟨hsame, fun hterminated => ?_⟩
    obtain ⟨e, he, result, hterm⟩ := hflag.mp hterminated
    obtain ⟨h₁, h₂⟩ := h.reported e he result hterm grant rfl hterminated
    obtain ⟨h₁', h₂'⟩ := h'.reported e he result hterm grant' rfl (hsame.trans hterminated)
    exact ⟨h₁'.trans h₁.symm, by omega⟩
  · intro hkept
    refine ⟨?_, fun e he result hterm g hg hterminated => ?_, h.paid⟩
    · simp only [Option.mem_some_iff, exists_eq_left', hkept.flag]
      exact hflag
    · cases hg
      rw [hkept.flag] at hterminated
      obtain ⟨hclaimable, haccounted⟩ := hkept.balances hterminated
      rw [hclaimable, haccounted, htotal]
      exact h.reported e he result hterm grant rfl hterminated

/-- A settlement leaves nothing claimable exactly if nothing was and nothing accrues. -/
theorem Settlement.claimable_eq_zero_iff (h : Settlement grant now settled)
    (hgrant : grant.WellFormed) :
    settled.claimable = 0 ↔ grant.claimable = 0 ∧ ¬grant.Accrues now := by
  have hnonneg := hgrant.claimable_nonneg
  have hmore : grant.accounted ≤ settled.accounted := by
    rw [h.accounted_eq hgrant]
    exact hgrant.accounted_le_earnedBy
  have hsame := h.withdrawn_eq
  rw [h.not_accrues_iff hgrant]
  unfold Grant.accounted at hmore ⊢
  constructor
  · intro hzero
    omega
  · intro hkept
    omega

/-- A termination shows itself exactly if it paid nothing out. -/
theorem terminationShown_iff_of_terminates {result : SelfTerminateResult}
    (hn : Ledger.Next (contract host) e.before e.action e.after)
    (hterm : Terminates host e grantId result)
    (hI : TerminationShown host older (e.before.store.grants grantId) grantId) :
    TerminationShown host (e :: older) (e.after.store.grants grantId) grantId ↔
      result.finalClaimable = 0 := by
  obtain ⟨grant, settled, hspec⟩ := terminates_spec hn hterm
  have hfresh : ¬Terminated host older grantId := by
    rw [← hI.flag, hspec.before]
    simp [hspec.unflagged]
  have hold {e' : Step} (he' : e' ∈ older) (r : SelfTerminateResult) :
      ¬Terminates host e' grantId r := fun h => hfresh ⟨e', he', r, h⟩
  -- the call returns one result only
  have hunique {r : SelfTerminateResult} (h : Terminates host e grantId r) : r = result := by
    obtain ⟨-, env₁, hexec₁⟩ := h
    obtain ⟨-, env₂, hexec₂⟩ := hterm
    cases hexec₁.symm.trans hexec₂
    rfl
  rw [hspec.after]
  constructor
  · intro h
    exact h.paid e (List.mem_cons_self ..) result hterm
  · intro hzero
    refine ⟨?_, ?_, ?_⟩
    · refine iff_of_true ⟨settled.terminated, rfl, settled.terminated_flag⟩ ?_
      exact ⟨e, List.mem_cons_self .., result, hterm⟩
    · rw [List.forall_mem_cons]
      refine ⟨fun r hr g hg _ => ?_, fun e' he' r hr => absurd hr (hold he' r)⟩
      cases hunique hr
      cases hg
      exact ⟨hspec.final.symm, hspec.refunded.symm⟩
    · rw [List.forall_mem_cons]
      refine ⟨fun r hr => ?_, fun e' he' r hr => absurd hr (hold he' r)⟩
      cases hunique hr
      exact hzero

/-- A grant that was not terminated shows so exactly if it has not the flag. -/
theorem terminationShown_iff_of_fresh (hfresh : ¬Terminated host trace grantId) :
    TerminationShown host trace (some grant) grantId ↔
      isSelfTerminated grant.statusMask = false := by
  constructor
  · intro h
    rw [← Bool.not_eq_true]
    intro hflag
    exact hfresh (h.flag.mp ⟨grant, rfl, hflag⟩)
  · intro hflag
    refine ⟨iff_of_false (by simp [hflag]) hfresh, ?_, ?_⟩
    · intro e he result hterm
      exact absurd ⟨e, he, result, hterm⟩ hfresh
    · intro e he result hterm
      exact absurd ⟨e, he, result, hterm⟩ hfresh

/-- The call of the step, if it goes through, meets `TerminationGuard`. -/
def TerminationGuarded (host : Host) (e : Step) : Prop :=
  ∀ call ∈ Ledger.called (contract host) e, call.TerminationGuard (e.before.enter e.action)

/-- A step from a state that shows every termination. -/
theorem terminationShown_iff_of_next (h : Ledger.Reachable (contract host) older e.before)
    (hn : Ledger.Next (contract host) e.before e.action e.after)
    (hI : ∀ grantId, TerminationShown host older (e.before.store.grants grantId) grantId) :
    (∀ grantId, TerminationShown host (e :: older) (e.after.store.grants grantId) grantId) ↔
      TerminationGuarded host e := by
  rcases effect_of_next hn with ⟨hnone, hstore⟩ | ⟨call, hcalled, heffect⟩
  · refine iff_of_true (fun grantId => ?_) (fun call hcall => ?_)
    · rw [hstore, terminationShown_cons_of_ne (by simp [hnone])]
      exact hI grantId
    · cases hnone.symm.trans hcall
  have hguarded : TerminationGuarded host e ↔ call.TerminationGuard (e.before.enter e.action) := by
    simp [TerminationGuarded, hcalled]
  have hkept {grantId : Nat} (hcall : call ≠ .selfTerminate grantId)
      (hgrant : e.after.store.grants grantId = e.before.store.grants grantId) :
      TerminationShown host (e :: older) (e.after.store.grants grantId) grantId := by
    rw [hgrant, terminationShown_cons_of_ne (by simpa [hcalled] using hcall)]
    exact hI grantId
  have hreduce (target : Nat) (hothers : ∀ grantId, grantId ≠ target →
      call ≠ .selfTerminate grantId ∧
        e.after.store.grants grantId = e.before.store.grants grantId) :
      (∀ grantId, TerminationShown host (e :: older) (e.after.store.grants grantId) grantId) ↔
        TerminationShown host (e :: older) (e.after.store.grants target) target := by
    constructor
    · intro hall
      exact hall target
    · intro htarget grantId
      by_cases hid : grantId = target
      · exact hid ▸ htarget
      · exact hkept (hothers grantId hid).1 (hothers grantId hid).2
  rw [hguarded]
  cases heffect with
  | initialized admin hcall hgrants =>
      subst hcall
      refine iff_of_true (fun grantId => hkept ?_ (by rw [hgrants]; rfl)) trivial
      simp
  | unexpired target grant hcall hgrant hlive hgrants =>
      refine iff_of_true (fun grantId => hkept ?_ (by rw [hgrants]; rfl)) ?_
      · rintro rfl
        cases hcall
      · cases call with
        | getGrant | claimableBitmask | processMilestoneExpiry => trivial
        | _ => cases hcall
  | created target recipient totalAmount flowRate mask hcall hnone hamount hrate hgrants =>
      subst hcall
      have hbefore : e.before.store.grants target = none := hnone
      have hfresh : ¬Terminated host older target := by
        rw [← (hI target).flag, hbefore]
        simp
      refine Iff.trans (hreduce target fun grantId hid => ⟨by simp, ?_⟩) ?_
      · rw [hgrants, Function.update_of_ne hid]
        rfl
      · rw [hgrants, Function.update_self, terminationShown_cons_of_ne (by simp [hcalled]),
          terminationShown_iff_of_fresh hfresh]
        rfl
  | moved target before after hbefore htransition hgrants =>
      have hwf : before.WellFormed := wellFormed_of_reachable h hbefore
      have hstored : e.before.store.grants target = some before := hbefore
      refine Iff.trans (hreduce target fun grantId hid => ⟨?_, ?_⟩) ?_
      · rintro rfl
        simpa [Call.writes] using htransition.writes_other hid
      · rw [hgrants, Function.update_of_ne hid]
        rfl
      · by_cases hcall : call = .selfTerminate target
        · subst hcall
          obtain ⟨result, hterm⟩ := terminates_of_called hn hcalled
          obtain ⟨grant, settled, hspec⟩ := terminates_spec hn hterm
          cases hstored.symm.trans hspec.before
          rw [terminationShown_iff_of_terminates hn hterm (hI target), hspec.final,
            (settleGrant_eq_ok hspec.settles).claimable_eq_zero_iff hwf]
          simp only [Call.TerminationGuard, hbefore, Option.mem_def, Option.some.injEq, forall_eq']
          exact Iff.rfl
        · have hshown := hI target
          rw [hstored] at hshown
          rw [hgrants, Function.update_self,
            terminationShown_cons_of_ne (by simpa [hcalled] using hcall),
            terminationShown_iff_of_moved hshown htransition.totalAmount_eq]
          exact htransition.terminationKept_iff hwf hbefore hcall
            fun hflag => hshown.claimable_eq_zero rfl hflag

instance (host : Host) (e : Step) : Decidable (TerminationGuarded host e) :=
  inferInstanceAs (Decidable (∀ call ∈ Ledger.called (contract host) e, _))

end Runs

/-- **Identity of a self-termination.** In every run, the state tells after every step which
grants were terminated and what was paid then, exactly if every call meets `TerminationGuard`. -/
theorem termination_identity (host : Host) {trace : Trace} {env : Env}
    (h : Ledger.Reachable (contract host) trace env) :
    Run.Each (fun e older => ∀ grantId, TerminationTold host (e :: older) e.after grantId) trace ↔
      Run.Each (fun e _ => TerminationGuarded host e) trace := by
  refine Run.each_iff_of_step
    (I := fun trace env => ∀ grantId, TerminationTold host trace env grantId) ?_ ?_ h
  · intro env hdeployed grantId
    rw [terminationTold_iff (.start hdeployed)]
    obtain ⟨self, tokens, rfl⟩ := hdeployed
    refine ⟨?_, ?_, ?_⟩
    · simp [Ledger.Env.deployed, contract, Terminated]
    · simp
    · simp
  · intro e older hrun hn hI
    have hshown : ∀ grantId,
        TerminationShown host older (e.before.store.grants grantId) grantId := by
      intro grantId
      exact (terminationTold_iff hrun).mp (hI grantId)
    rw [← terminationShown_iff_of_next hrun hn hshown]
    exact forall_congr' fun grantId => terminationTold_iff (.step hrun hn)

/-- A host with a token for the grants. -/
def Demo.tokenHost : Host := { Demo.host with grantToken := some ⟨[9]⟩ }

/-- A contract that holds 1000 of it. -/
def Demo.fundedEnv : Env :=
  .deployed (contract Demo.tokenHost) Demo.self
    { balance := fun token holder => if token = ⟨[9]⟩ ∧ holder = Demo.self then 1000 else 0
      log := [] }

theorem Demo.fundedEnv_deployed : Ledger.Deployed (contract Demo.tokenHost) Demo.fundedEnv :=
  ⟨_, _, rfl⟩

/-- A grantee who has withdrawn everything terminates the grant. -/
theorem termination_identity_of_withdrawn_grant :
    let run := Ledger.history (contract Demo.tokenHost) Demo.fundedEnv (Demo.setUp ++
      [Demo.call 10 (.withdraw 7 10), Demo.call 10 (.selfTerminate 7),
        Demo.call 20 (.setGrantFlags 7 statusCancelled 0)])
    Run.Each (fun e older => ∀ grantId,
      TerminationTold Demo.tokenHost (e :: older) e.after grantId) run.1 := by
  intro run
  have hrun : Ledger.Reachable (contract Demo.tokenHost) run.1 run.2 :=
    Ledger.history_reachable _ Demo.fundedEnv_deployed (by decide)
  exact (termination_identity Demo.tokenHost hrun).mpr (by decide)

/-- What a termination pays out stays claimable and is not withdrawn. -/
theorem termination_identity_paid_grant :
    ¬∀ trace env, Ledger.Reachable (contract Demo.tokenHost) trace env → ∀ grantId,
      TerminationTold Demo.tokenHost trace env grantId := by
  intro h
  let run := Ledger.history (contract Demo.tokenHost) Demo.fundedEnv
    (Demo.setUp ++ [Demo.call 100 (.selfTerminate 7)])
  have hrun : Ledger.Reachable (contract Demo.tokenHost) run.1 run.2 :=
    Ledger.history_reachable _ Demo.fundedEnv_deployed (by decide)
  have hrecorded := (h _ _ hrun 7).recorded _ (List.mem_cons_self ..)
    { grantId := 7, finalClaimable := 100, refundedAmount := 900, terminatedAt := 100 }
    ⟨by decide, _, rfl⟩ _ _ rfl rfl
  exact absurd hrecorded.2 (by decide)

end YieldTrust.Optimized
