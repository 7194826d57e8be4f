import YieldTrust.GrantStream.Invariants

/-!
# YieldTrust.GrantStream.LiquidityLock

The liquidity lock of a paused grant. Nothing accrues while a grant is not
active, and settling it changes none of its balances. What breaks the lock are
the two withdrawals, whose guards do not list `Paused`, and a dispute that is
resolved for the grantee, which reactivates the grant without a resume.
-/

namespace YieldTrust.GrantStream

/-! ### Settling a grant that is not active -/

namespace Grant

/-- A grant that is accounted for in full has its claimable balance capped. -/
def Capped (grant : Grant) : Prop :=
  grant.totalAmount ≤ grant.accounted →
    grant.claimable = max (grant.totalAmount -
      (grant.withdrawn + grant.validatorWithdrawn + grant.validatorClaimable)) 0

theorem Capped.settled {grant : Grant} (h : grant.Capped) (now : Nat) :
    (grant.settled now).Capped := by
  intro hfull
  have hacc := grant.settled_accounted now
  rw [settled_totalAmount] at hfull
  rw [settled_totalAmount, settled_withdrawn, settled_validatorWithdrawn,
    settled_validatorClaimable, settled_claimable]
  by_cases hd : grant.completes now
  · rw [if_pos hd]
  · rw [if_neg hd] at hacc ⊢
    by_cases ha : grant.accrues now
    · -- a settlement that accrues looks for completion
      refine absurd ⟨ha.1, fun hg => ?_, by omega⟩ hd
      have hopen := ha.2.2
      rw [hg.2] at hopen
      cases hopen
    · have hdue : grant.dueAccrual now = 0 := if_neg ha
      have hshare : grant.dueShare now = 0 := if_neg ha
      have hc := h (by omega)
      rw [hdue, hshare]
      omega

/-- Settling a grant that is not active changes no balance. -/
theorem Capped.settled_of_not_active {grant : Grant} (h : grant.Capped)
    (hna : grant.status ≠ .active) (now : Nat) :
    (grant.settled now).claimable = grant.claimable ∧
      (grant.settled now).validatorClaimable = grant.validatorClaimable := by
  rw [settled_claimable, settled_validatorClaimable, dueShare_of_not_active hna,
    dueAccrual_of_not_active hna]
  refine ⟨?_, Int.add_zero _⟩
  by_cases hd : grant.completes now
  · have hfull := hd.2.2
    rw [dueAccrual_of_not_active hna, add_zero] at hfull
    rw [if_pos hd, h hfull, add_zero]
  · rw [if_neg hd]
    omega

/-- Balances that keep their sum, on a grant with the same or a larger total. -/
theorem Capped.moved {s m : Grant} {now : Nat} (h : s.Capped) (hwf : m.WellFormed now)
    (htot : s.totalAmount ≤ m.totalAmount) (hacc : m.accounted = s.accounted)
    (hc : m.claimable ≤ s.claimable) : m.Capped := by
  intro hfull
  have hcap := h (by omega)
  have hnonneg := hwf.claimable_nonneg
  unfold accounted at hacc hfull
  omega

end Grant

theorem GrantStep.capped {now₀ now : Nat} {treasury : Option Address} {op : GrantOp}
    {a a' : Account} {payments : List Payment} (hstep : GrantStep now treasury op a a' payments)
    (hwf : a'.grant.WellFormed now₀) (h : a.grant.Capped) : a'.grant.Capped := by
  have hsettled {g s : Grant} (h : g.Capped) (hs : Settles g now s) : s.Capped := by
    rw [hs.eq_settled]
    exact h.settled now
  cases hstep with
  | withdraw hs _ _ _ _ _ hm | withdrawValidator hs _ _ _ _ hm =>
      have h := hsettled h hs
      subst hm
      refine h.moved hwf (le_refl _) ?_ (by dsimp only; omega)
      unfold Grant.accounted
      dsimp only
      omega
  | rageQuit hs _ _ hm =>
      subst hm
      intro hfull
      unfold Grant.accounted at hfull
      dsimp only at hfull ⊢
      omega
  | pause hs _ hm | proposeIncrease hs _ _ _ hm | proposeDecrease hs _ _ _ hm
  | applyKpi hs _ _ hm | cancel hs _ _ hm | clawbackNothing hs _ _ hm
  | clawbackContested hs _ _ hm | clawbackToDonor hs _ _ _ hm =>
      have h := hsettled h hs
      subst hm
      exact h
  | resume _ hm | changeGrantee _ _ hm | setLegal hm | signLegal _ hm =>
      subst hm
      exact h
  | resolveToDonor => exact h
  | resolveToGrantee _ hamount _ _ hm =>
      subst hm
      exact h.moved hwf (by dsimp only; omega) rfl (le_refl _)

/-! ### Windows of a history -/

/-- The steps since the last operation of the kind `q`, newest first. -/
def stepsSince (grantId : Nat) (q : GrantOp → Bool) : Trace → Option Trace
  | [] => none
  | e :: L =>
      if (performed grantId e).any q then some []
      else (stepsSince grantId q L).map fun W => e :: W

theorem stepsSince_cons {grantId : Nat} {q : GrantOp → Bool} {e : Run.Step Env Event} {L W : Trace}
    (h : stepsSince grantId q (e :: L) = some W) :
    (∃ op, performed grantId e = some op ∧ q op = true ∧ W = []) ∨
      (performed grantId e).any q = false ∧
        ∃ W', stepsSince grantId q L = some W' ∧ W = e :: W' := by
  unfold stepsSince at h
  by_cases hq : (performed grantId e).any q = true
  · rw [if_pos hq] at h
    cases hop : performed grantId e with
    | none =>
        rw [hop] at hq
        cases hq
    | some op =>
        rw [hop] at hq
        exact .inl ⟨op, rfl, hq, (Option.some.inj h).symm⟩
  · rw [if_neg hq] at h
    obtain ⟨W', hW', rfl⟩ := Option.map_eq_some_iff.mp h
    exact .inr ⟨by simpa using hq, W', hW', rfl⟩

def GrantOp.isPause : GrantOp → Bool
  | .pause _ => true
  | _ => false

def GrantOp.isRageQuit : GrantOp → Bool
  | .rageQuit => true
  | _ => false

/-- The operation neither ends the lock nor breaks it. -/
def GrantOp.keepsLock : GrantOp → Bool
  | .resume | .withdraw _ | .withdrawValidator _ | .resolve false => false
  | _ => true

/-! ### One step of a locked grant -/

/-- The payments go to the treasury or back to the donor. -/
def PaidBack (treasury donor : Option Address) (payments : List Payment) : Prop :=
  ∀ p ∈ payments, treasury = some p.target ∨ donor = some p.target

theorem Sweep.paidBack {treasury : Option Address} {remaining : Int} {payments : List Payment}
    (h : Sweep treasury remaining payments) (donor : Option Address) :
    PaidBack treasury donor payments := by
  rcases h with ⟨-, rfl⟩ | ⟨-, target, htarget, rfl⟩
  · intro p hp
    cases hp
  · intro p hp
    rw [List.mem_singleton.mp hp]
    exact .inl htarget

/-- **An operation on a locked grant** leaves it locked, lets no claimable balance
grow and, unless the grantee quits, pays nobody but the treasury and the donor. -/
theorem GrantStep.locked {now₀ now : Nat} {treasury : Option Address} {op : GrantOp}
    {a a' : Account} {payments : List Payment} (hstep : GrantStep now treasury op a a' payments)
    (hwf : a.grant.WellFormed now₀) (hcap : a.grant.Capped) (hna : a.grant.status ≠ .active)
    (hkeep : op.keepsLock = true) :
    a'.grant.status ≠ .active ∧ a'.grant.claimable ≤ a.grant.claimable ∧
      a'.grant.validatorClaimable ≤ a.grant.validatorClaimable ∧
      (op ≠ .rageQuit → PaidBack treasury a.grant.donor payments) := by
  have hbalances {s : Grant} (hs : Settles a.grant now s) :
      s.claimable = a.grant.claimable ∧ s.validatorClaimable = a.grant.validatorClaimable := by
    rw [hs.eq_settled]
    exact hcap.settled_of_not_active hna now
  have hnothing : PaidBack treasury a.grant.donor [] := fun p hp => by cases hp
  cases hstep with
  | withdraw | withdrawValidator | resume | resolveToGrantee => cases hkeep
  | pause _ hstatus | proposeIncrease _ hstatus | proposeDecrease _ hstatus
  | applyKpi _ hstatus => exact absurd hstatus hna
  | rageQuit hs _ _ hm =>
      subst hm
      exact ⟨by dsimp only; decide, hwf.claimable_nonneg, hwf.validatorClaimable_nonneg,
        fun h => absurd rfl h⟩
  | cancel hs _ hsweep hm =>
      obtain ⟨hc, hv⟩ := hbalances hs
      subst hm
      exact ⟨by dsimp only; decide, hc.le, hv.le, fun _ => hsweep.paidBack _⟩
  | clawbackNothing hs _ _ hm | clawbackContested hs _ _ hm =>
      obtain ⟨hc, hv⟩ := hbalances hs
      subst hm
      exact ⟨by dsimp only; decide, hc.le, hv.le, fun _ => hnothing⟩
  | clawbackToDonor hs _ _ hdonor hm =>
      obtain ⟨hc, hv⟩ := hbalances hs
      subst hm
      refine ⟨by dsimp only; decide, hc.le, hv.le, fun _ p hp => .inr ?_⟩
      rw [List.mem_singleton.mp hp]
      exact hdonor
  | changeGrantee _ _ hm | setLegal hm | signLegal _ hm =>
      subst hm
      exact ⟨hna, le_refl _, le_refl _, fun _ => hnothing⟩
  | resolveToDonor _ _ hdonor =>
      refine ⟨hna, le_refl _, le_refl _, fun _ p hp => .inr ?_⟩
      rw [List.mem_singleton.mp hp]
      exact hdonor

theorem GrantStep.pauses {now : Nat} {treasury : Option Address} {op : GrantOp} {a a' : Account}
    {payments : List Payment} (hstep : GrantStep now treasury op a a' payments)
    (hop : op.isPause = true) : a'.grant.status = .paused := by
  cases hstep with
  | pause _ _ hm =>
      subst hm
      rfl
  | _ => cases hop

theorem GrantStep.quits {now : Nat} {treasury : Option Address} {op : GrantOp} {a a' : Account}
    {payments : List Payment} (hstep : GrantStep now treasury op a a' payments)
    (hop : op.isRageQuit = true) : a'.grant.status = .rageQuitted := by
  cases hstep with
  | rageQuit _ _ _ hm =>
      subst hm
      rfl
  | _ => cases hop

/-- Nothing is paid on behalf of a grant whose grantee quit, and it stays that way. -/
theorem GrantStep.rageQuitted {now : Nat} {treasury : Option Address} {op : GrantOp}
    {a a' : Account} {payments : List Payment} (hstep : GrantStep now treasury op a a' payments)
    (h : a.grant.status = .rageQuitted) : a'.grant.status = .rageQuitted ∧ payments = [] := by
  cases hstep with
  | withdraw _ _ hstatus | cancel _ hstatus => exact absurd h hstatus.2
  | withdrawValidator _ _ hstatus => exact absurd h hstatus.2
  | pause _ hstatus | resume hstatus | proposeIncrease _ hstatus | proposeDecrease _ hstatus
  | applyKpi _ hstatus | rageQuit _ hstatus | resolveToDonor hstatus
  | resolveToGrantee hstatus => cases hstatus.symm.trans h
  | changeGrantee hstatus | clawbackNothing _ hstatus | clawbackContested _ hstatus
  | clawbackToDonor _ hstatus => rcases hstatus with hst | hst <;> cases hst.symm.trans h
  | setLegal hm | signLegal _ hm =>
      subst hm
      exact ⟨h, rfl⟩

/-! ### Whole runs -/

theorem capped_of_reachable {trace : Trace} {env : Env} (h : Reachable trace env)
    {grantId : Nat} {g : Grant} (hg : env.grants grantId = some g) : g.Capped := by
  have hinv := account_invariant_when (C := fun _ => True) (P := fun _ _ _ a => a.grant.Capped)
    ?_ ?_ ?_ h hg fun _ _ => trivial
  · obtain ⟨o, -, hcap⟩ := hinv
    exact hcap
  · rintro now recipient totalAmount flowRate warmupDuration validator donor token _ _ htotal _ rfl
    exact fun hfull => absurd (show totalAmount ≤ 0 from hfull) (by omega)
  · intro o L e a _ _ ih _ _ _
    exact ih
  · intro o L e op a a' payments _ hwf ih hle _ _ hstep
    exact hstep.capped (hwf.step hle hstep) ih

/-- What the step pays on behalf of `grantId` goes back to the treasury or the
donor, unless the grantee quits. -/
def PaysBackAt (grantId : Nat) (e : Run.Step Env Event) : Prop :=
  performed grantId e ≠ some .rageQuit → ∀ p ∈ paymentsFor grantId e,
    e.before.treasury = some p.target ∨
      ∃ g, e.before.grants grantId = some g ∧ g.donor = some p.target

/-- At no time in the window `W` was less claimable than the grant `g` holds. -/
def BelowSince (grantId : Nat) (W : Trace) (g : Grant) : Prop :=
  ∀ e ∈ W, ∀ g₁, e.before.grants grantId = some g₁ → ∀ t,
    g.claimable ≤ (g₁.settled t).claimable ∧
      g.validatorClaimable ≤ (g₁.settled t).validatorClaimable

/-- What holds after the window `W` of a lock, of its steps and of the grant that
is left, if it still exists. -/
structure Locked (grantId : Nat) (W : Trace) (g? : Option Grant) : Prop where
  paysBack : ∀ e ∈ W, PaysBackAt grantId e
  not_active : ∀ g, g? = some g → g.status ≠ .active
  below : ∀ g, g? = some g → BelowSince grantId W g

namespace Locked

variable {grantId : Nat} {W : Trace} {e : Run.Step Env Event}

/-- A pause opens the window. -/
theorem opened {g : Grant} (h : g.status = .paused) : Locked grantId [] (some g) where
  paysBack _ he := nomatch he
  not_active g' hg' := by
    obtain rfl := Option.some.inj hg'
    rw [h]
    decide
  below _ _ _ he := nomatch he

/-- A step that does not operate on the grant, and may have deleted it. -/
theorem idle {g? : Option Grant} (h : Locked grantId W (e.before.grants grantId))
    (hop : performed grantId e = none) (hcap : ∀ g, e.before.grants grantId = some g → g.Capped)
    (hg? : ∀ g, g? = some g → e.before.grants grantId = some g) :
    Locked grantId (e :: W) g? where
  paysBack := by
    refine List.forall_mem_cons.mpr ⟨fun _ p hp => ?_, h.paysBack⟩
    rw [paymentsFor_of_none hop] at hp
    cases hp
  not_active g hg := h.not_active g (hg? g hg)
  below g hg := by
    have hbefore := hg? g hg
    refine List.forall_mem_cons.mpr ⟨fun g₁ hg₁ t => ?_, h.below g hbefore⟩
    obtain rfl : g₁ = g := Option.some.inj (hg₁.symm.trans hbefore)
    obtain ⟨hc, hv⟩ := (hcap g₁ hg₁).settled_of_not_active (h.not_active g₁ hbefore) t
    exact ⟨hc.ge, hv.ge⟩

theorem operated {g : Grant} {op : GrantOp} {a' : Account} {payments : List Payment} {now₀ : Nat}
    (h : Locked grantId W (some g)) (hop : performed grantId e = some op)
    (hg : e.before.grants grantId = some g) (hwf : g.WellFormed now₀) (hcap : g.Capped)
    (hstep : GrantStep e.action.timestamp e.before.treasury op
      ⟨g, e.before.disputeEscrow grantId⟩ a' payments)
    (hpay : paymentsFor grantId e = payments) (hkeep : op.keepsLock = true) :
    Locked grantId (e :: W) (some a'.grant) := by
  have hna := h.not_active g rfl
  obtain ⟨hna', hc, hv, hback⟩ := hstep.locked hwf hcap hna hkeep
  refine ⟨List.forall_mem_cons.mpr ⟨fun hne p hp => ?_, h.paysBack⟩, fun g' hg' => ?_,
    fun g' hg' => ?_⟩
  · rw [hpay] at hp
    have hne : op ≠ .rageQuit := fun h => hne (h ▸ hop)
    exact (hback hne p hp).imp_right fun hdonor => ⟨g, hg, hdonor⟩
  · obtain rfl := Option.some.inj hg'
    exact hna'
  · obtain rfl := Option.some.inj hg'
    refine List.forall_mem_cons.mpr ⟨fun g₁ hg₁ t => ?_, fun e' he' g₁ hg₁ t => ?_⟩
    · obtain rfl : g₁ = g := Option.some.inj (hg₁.symm.trans hg)
      obtain ⟨hc', hv'⟩ := hcap.settled_of_not_active hna t
      exact ⟨hc.trans hc'.ge, hv.trans hv'.ge⟩
    · obtain ⟨hc', hv'⟩ := h.below g rfl e' he' g₁ hg₁ t
      exact ⟨hc.trans hc', hv.trans hv'⟩

end Locked

/-- **The window of a paused grant**, as long as every operation in it keeps the lock. -/
theorem locked_of_reachable {trace : Trace} {env : Env} (h : Reachable trace env)
    {grantId : Nat} {W : Trace}
    (hW : stepsSince grantId GrantOp.isPause (life grantId trace) = some W)
    (hkeep : ∀ e ∈ W, (performed grantId e).all GrantOp.keepsLock = true) :
    Locked grantId W (env.grants grantId) := by
  have hinv := @life_induction grantId (fun _ => True)
    (fun _ L now g? _ => (∀ g, g? = some g → g.WellFormed now ∧ g.Capped) ∧
      ∀ W, stepsSince grantId GrantOp.isPause L = some W →
        (∀ e ∈ W, (performed grantId e).all GrantOp.keepsLock = true) → Locked grantId W g?)
    ?_ ?_ ?_ ?_ ?_ _ _ h fun _ _ => trivial
  · exact hinv.2 W hW hkeep
  · exact ⟨fun g hg => (nomatch hg), fun W hW => (nomatch hW)⟩
  · intro o? L e _ ⟨hwf, ih⟩ hle hop
    refine ⟨fun g hg => ⟨(hwf g hg).1.mono hle, (hwf g hg).2⟩, fun W hW hkeep => ?_⟩
    rcases stepsSince_cons hW with ⟨op, hop', -⟩ | ⟨-, W', hW', rfl⟩
    · cases hop.symm.trans hop'
    · exact (ih W' hW' fun e' he' => hkeep e' (List.mem_cons_of_mem _ he')).idle hop
        (fun g hg => (hwf g hg).2) fun g hg => hg
  · intro o? L e recipient totalAmount flowRate warmupDuration validator donor token _ _ _ _
      htotal hflow hrange rfl
    refine ⟨fun g hg => ?_, fun W hW => (nomatch hW)⟩
    obtain rfl := Option.some.inj hg
    refine ⟨.newGrant _ recipient warmupDuration validator donor token htotal hflow hrange, ?_⟩
    exact fun hfull => absurd (show totalAmount ≤ 0 from hfull) (by omega)
  · intro o? L e op g a' payments _ ⟨hwf, ih⟩ hle hop hg hstep hpay _
    obtain ⟨hwf, hcap⟩ := hwf g rfl
    have hwf' := hwf.step hle hstep
    refine ⟨fun g' hg' => ?_, fun W hW hkeep => ?_⟩
    · obtain rfl := Option.some.inj hg'
      exact ⟨hwf', hstep.capped hwf' hcap⟩
    rcases stepsSince_cons hW with ⟨op', hop', hq, rfl⟩ | ⟨-, W', hW', rfl⟩
    -- a pause starts an empty window
    · obtain rfl := Option.some.inj (hop.symm.trans hop')
      exact .opened (hstep.pauses hq)
    · have hop' := hkeep e (List.mem_cons_self ..)
      rw [hop] at hop'
      exact (ih W' hW' fun e' he' => hkeep e' (List.mem_cons_of_mem _ he')).operated hop hg hwf hcap
        hstep hpay hop'
  · intro o? L e g s _ ⟨hwf, ih⟩ hle hop hg _ _
    rw [← hg] at hwf ih
    refine ⟨fun g' hg' => (nomatch hg'), fun W hW hkeep => ?_⟩
    rcases stepsSince_cons hW with ⟨op, hop', -⟩ | ⟨-, W', hW', rfl⟩
    · cases hop.symm.trans hop'
    · exact (ih W' hW' fun e' he' => hkeep e' (List.mem_cons_of_mem _ he')).idle hop
        (fun g hg => (hwf g hg).2) fun g' hg' => (nomatch hg')

/-- Nothing is paid any more once the grantee quit. -/
theorem unpaid_of_rageQuit {trace : Trace} {env : Env} (h : Reachable trace env)
    {grantId : Nat} {W : Trace}
    (hW : stepsSince grantId GrantOp.isRageQuit (life grantId trace) = some W) :
    ∀ e ∈ W, paymentsFor grantId e = [] := by
  have hinv := @life_induction grantId (fun _ => True)
    (fun _ L _ g? _ => ∀ W, stepsSince grantId GrantOp.isRageQuit L = some W →
      (∀ e ∈ W, paymentsFor grantId e = []) ∧ ∀ g, g? = some g → g.status = .rageQuitted)
    ?_ ?_ ?_ ?_ ?_ _ _ h fun _ _ => trivial
  · exact (hinv W hW).1
  · exact fun W hW => (nomatch hW)
  · intro o? L e _ ih _ hop W hW
    rcases stepsSince_cons hW with ⟨op, hop', -⟩ | ⟨-, W', hW', rfl⟩
    · cases hop.symm.trans hop'
    · obtain ⟨hpaid, hquit⟩ := ih W' hW'
      exact ⟨List.forall_mem_cons.mpr ⟨paymentsFor_of_none hop, hpaid⟩, hquit⟩
  · exact fun _ _ _ _ _ _ _ W hW => (nomatch hW)
  · intro o? L e op g a' payments _ ih _ hop _ hstep hpay _ W hW
    rcases stepsSince_cons hW with ⟨op', hop', hq, rfl⟩ | ⟨-, W', hW', rfl⟩
    · obtain rfl := Option.some.inj (hop.symm.trans hop')
      refine ⟨fun e he => (nomatch he), fun g' hg' => ?_⟩
      obtain rfl := Option.some.inj hg'
      exact hstep.quits hq
    · obtain ⟨hpaid, hquit⟩ := ih W' hW'
      obtain ⟨hquit', hnone⟩ := hstep.rageQuitted (hquit g rfl)
      refine ⟨List.forall_mem_cons.mpr ⟨hpay.trans hnone, hpaid⟩, fun g' hg' => ?_⟩
      obtain rfl := Option.some.inj hg'
      exact hquit'
  · intro o? L e g s _ ih _ hop _ _ _ W hW
    rcases stepsSince_cons hW with ⟨op, hop', -⟩ | ⟨-, W', hW', rfl⟩
    · cases hop.symm.trans hop'
    · exact ⟨List.forall_mem_cons.mpr ⟨paymentsFor_of_none hop, (ih W' hW').1⟩,
        fun g' hg' => (nomatch hg')⟩

/-- A call that was rejected, or a transaction of someone else, leaves the grants alone. -/
theorem grants_of_rejected {env env' : Env} {event : Event} (h : Next env event env')
    (hrejected : event.accepted env = false) : env'.grants = env.grants := by
  obtain ⟨-, rfl⟩ := h
  cases ht : event.transaction with
  | invoke auths call =>
      cases hexec : call.exec (env.enter event) with
      | ok env' => exact absurd (accepted_of_exec ht hexec) (by simp [hrejected])
      | error fault =>
          rw [(execute_of_error ht hexec).2]
          rfl
  | tokenTransfer | tokenMint | nullifierExpiry =>
      unfold execute
      rw [ht]
      rfl

/-- The settled claimable balances of the grant are now at most what they were
at any time in the window `W`. -/
def ClaimableNeverGrew (grantId : Nat) (W : Trace) (env : Env) : Prop :=
  ∀ g₁ g₂, (env.grants grantId = some g₁ ∨ ∃ e ∈ W, e.before.grants grantId = some g₁) →
    env.grants grantId = some g₂ →
    ∀ t₁ t₂ q₁ q₂, settleGrant g₁ t₁ = .ok q₁ → settleGrant g₂ t₂ = .ok q₂ →
      q₂.claimable ≤ q₁.claimable ∧ q₂.validatorClaimable ≤ q₁.validatorClaimable

theorem Locked.claimableNeverGrew {grantId : Nat} {W : Trace} {env : Env}
    (h : Locked grantId W (env.grants grantId))
    (hcap : ∀ g, env.grants grantId = some g → g.Capped) : ClaimableNeverGrew grantId W env := by
  intro g₁ g₂ hbefore hnow t₁ t₂ q₁ q₂ hq₁ hq₂
  obtain ⟨hc, hv⟩ := (hcap g₂ hnow).settled_of_not_active (h.not_active g₂ hnow) t₂
  rw [(settleGrant_eq_ok hq₁).eq_settled, (settleGrant_eq_ok hq₂).eq_settled, hc, hv]
  rcases hbefore with hsame | ⟨e, he, hg₁⟩
  · obtain rfl : g₁ = g₂ := Option.some.inj (hsame.symm.trans hnow)
    obtain ⟨hc', hv'⟩ := (hcap g₁ hnow).settled_of_not_active (h.not_active g₁ hnow) t₁
    exact ⟨hc'.ge, hv'.ge⟩
  · exact h.below g₂ hnow e he g₁ hg₁ t₁

/-- **Liquidity lock.** As long as nobody withdraws from a paused grant and no
dispute reactivates it, it pays nobody but the treasury and the donor, apart
from a rage quit, and its settled balances do not grow. A rejected call leaves it
as it was, and after a rage quit nothing is paid at all. -/
theorem liquidity_lock {trace : Trace} {env : Env} (h : Reachable trace env) (grantId : Nat) :
    (∀ W, stepsSince grantId GrantOp.isPause (life grantId trace) = some W →
      (∀ e ∈ W, (performed grantId e).all GrantOp.keepsLock = true) →
      (∀ e ∈ W, PaysBackAt grantId e) ∧ ClaimableNeverGrew grantId W env) ∧
    (∀ e ∈ trace, e.action.accepted e.before = false →
      e.after.grants grantId = e.before.grants grantId) ∧
    ∀ W, stepsSince grantId GrantOp.isRageQuit (life grantId trace) = some W →
      ∀ e ∈ W, paymentsFor grantId e = [] := by
  refine ⟨fun W hW hkeep => ?_, fun e he hrejected => ?_, fun W hW => unpaid_of_rageQuit h hW⟩
  · have hlocked := locked_of_reachable h hW hkeep
    exact ⟨hlocked.paysBack, hlocked.claimableNeverGrew fun g hg => capped_of_reachable h hg⟩
  · obtain ⟨older, -, hnext⟩ := Run.of_mem h he
    exact congrFun (grants_of_rejected hnext hrejected) grantId

/-- A grant that is paused, passed on to another grantee and quit by it. -/
theorem liquidity_lock_of_paused_stream :
    let run := history Demo.env (Demo.setUp 100000000 ++
      [Demo.call 1 (.createGrant 7 Demo.validator 60000000 1000000 0 none none),
        Demo.call 21 (.pauseStream 7 none), Demo.call 31 (.changeGrantee 7 Demo.grantee),
        Demo.call 41 (.rageQuit 7), Demo.call 51 (.withdraw 7 20000000)])
    ∃ W, stepsSince 7 GrantOp.isPause (life 7 run.1) = some W ∧ W.length = 3 ∧
      (∀ e ∈ W, PaysBackAt 7 e) ∧ ClaimableNeverGrew 7 W run.2 := by
  intro run
  have hrun : Reachable run.1 run.2 := history_reachable Demo.env_deployed (by decide)
  exact ⟨_, rfl, rfl, (@liquidity_lock _ _ hrun 7).1 _ rfl (by decide)⟩

/-- The grantee withdraws from a paused grant. -/
theorem liquidity_lock_paused_withdrawal :
    ¬∀ trace env grantId W, Reachable trace env →
      stepsSince grantId GrantOp.isPause (life grantId trace) = some W →
      (∀ e ∈ W, performed grantId e ≠ some .resume) →
      (∀ e ∈ W, PaysBackAt grantId e) ∧ ClaimableNeverGrew grantId W env := by
  intro h
  let run := history Demo.env (Demo.setUp 100000000 ++
    [Demo.call 1 (.createGrant 7 Demo.grantee 60000000 1000000 0 none none),
      Demo.call 21 (.pauseStream 7 none), Demo.call 31 (.withdraw 7 20000000)])
  have hrun : Reachable run.1 run.2 := history_reachable Demo.env_deployed (by decide)
  have hpays := (h run.1 run.2 7 _ hrun rfl (by decide)).1 _ (List.mem_cons_self ..)
  have hback := hpays (by decide) ⟨Demo.grantee, 20000000⟩ (by decide)
  -- the grantee is neither the treasury nor the donor
  rcases hback with htreasury | ⟨g, hg, hdonor⟩
  · exact absurd htreasury (by decide)
  · obtain rfl := Option.some.inj hg
    exact absurd hdonor (by decide)

end YieldTrust.GrantStream
