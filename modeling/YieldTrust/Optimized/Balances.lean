import YieldTrust.Optimized.Lifecycle

/-!
# YieldTrust.Optimized.Balances

The **balances of a grant**: what is withdrawn and what is claimable are never negative and
never more than the grant together, so that a settlement never rejects a stored grant.
-/

namespace YieldTrust.Optimized

open Fallible
open GrantStream (Address Bytes)

variable {host : Host} {env : Env} {grant grant' settled : Grant} {grantId now : Nat} {call : Call}

/-! ### One grant -/

/-- What is withdrawn or claimable. -/
def Grant.accounted (grant : Grant) : Int := grant.withdrawn + grant.claimable

/-- The balances of the grant are within the grant. -/
structure Grant.Balanced (grant : Grant) : Prop where
  withdrawn_nonneg : 0 ≤ grant.withdrawn
  claimable_nonneg : 0 ≤ grant.claimable
  accounted_le : grant.accounted ≤ grant.totalAmount

/-- A stored grant has balances within the grant and a rate that is not negative. -/
structure Grant.WellFormed (grant : Grant) : Prop extends grant.Balanced where
  flowRate_nonneg : 0 ≤ grant.flowRate

theorem Settlement.totalAmount_eq (h : Settlement grant now settled) :
    settled.totalAmount = grant.totalAmount := by
  cases h with
  | idle | accrued | completed => rfl

theorem Settlement.withdrawn_eq (h : Settlement grant now settled) :
    settled.withdrawn = grant.withdrawn := by
  cases h with
  | idle | accrued | completed => rfl

theorem Settlement.flowRate_eq (h : Settlement grant now settled) :
    settled.flowRate = grant.flowRate := by
  cases h with
  | idle | accrued | completed => rfl

theorem Settlement.accounted_le (h : Settlement grant now settled)
    (hle : grant.accounted ≤ grant.totalAmount) : settled.accounted ≤ settled.totalAmount := by
  cases h with
  | idle => exact hle
  | accrued _ _ _ hbelow => exact hbelow.le
  | completed delta _ _ _ _ _ hfull => exact hfull.le

theorem Settlement.wellFormed (h : Settlement grant now settled) (hgrant : grant.WellFormed) :
    settled.WellFormed where
  withdrawn_nonneg := h.withdrawn_eq ▸ hgrant.withdrawn_nonneg
  claimable_nonneg := h.claimable_nonneg hgrant.claimable_nonneg
  accounted_le := h.accounted_le hgrant.accounted_le
  flowRate_nonneg := h.flowRate_eq ▸ hgrant.flowRate_nonneg

/-- Why a settlement fails. -/
theorem settleGrant_eq_fail {e : Error} (h : settleGrant grant now = fail e) :
    (e = .invalidState ∧ (now < grant.lastUpdateTs ∨ grant.totalAmount < grant.accounted)) ∨
      (e = .invalidRate ∧ grant.flowRate < 0) ∨ e = .mathOverflow := by
  unfold settleGrant at h
  rcases bind_eq_fail.mp h with hcheck | ⟨_, -, h⟩
  · obtain ⟨hpast, rfl⟩ := ensure_eq_fail.mp hcheck
    exact .inl ⟨rfl, .inl (Nat.lt_of_not_le hpast)⟩
  dsimp only at h
  split at h
  · exact absurd h pure_ne_fail
  rcases bind_eq_fail.mp h with hcheck | ⟨_, -, h⟩
  · obtain ⟨hrate, rfl⟩ := ensure_eq_fail.mp hcheck
    exact .inr (.inl ⟨rfl, Int.lt_of_not_ge hrate⟩)
  rcases bind_eq_fail.mp h with hoverflow | ⟨accrued, -, h⟩
  · exact .inr (.inr (okOr_eq_fail.mp hoverflow).2.symm)
  rcases bind_eq_fail.mp h with hoverflow | ⟨accounted, haccounted, h⟩
  · exact .inr (.inr (okOr_eq_fail.mp hoverflow).2.symm)
  obtain ⟨-, rfl⟩ := I128.checkedAdd_eq_some.mp (okOr_eq_ok.mp haccounted)
  rcases bind_eq_fail.mp h with hcheck | ⟨_, -, h⟩
  · obtain ⟨hover, rfl⟩ := ensure_eq_fail.mp hcheck
    exact .inl ⟨rfl, .inr (Int.lt_of_not_ge hover)⟩
  -- what is left are checked additions
  refine .inr (.inr ?_)
  simp only [bind_eq_fail, okOr_eq_fail] at h
  rcases h with ⟨-, rfl⟩ | ⟨_, -, ⟨-, rfl⟩ | ⟨_, -, ⟨-, rfl⟩ | ⟨_, -, h⟩⟩⟩
  · rfl
  · rfl
  · rfl
  · split at h <;> exact absurd h pure_ne_fail

/-- A settlement that is not of the past rejects no well-formed grant. -/
theorem Grant.WellFormed.settleGrant_ne_fail (h : grant.WellFormed)
    (hle : grant.lastUpdateTs ≤ now) :
    settleGrant grant now ≠ fail .invalidState ∧ settleGrant grant now ≠ fail .invalidRate := by
  have haccounted := h.accounted_le
  have hrate := h.flowRate_nonneg
  constructor
  · intro hfail
    rcases settleGrant_eq_fail hfail with ⟨-, hcause⟩ | ⟨herror, -⟩ | herror
    · omega
    · cases herror
    · cases herror
  · intro hfail
    rcases settleGrant_eq_fail hfail with ⟨herror, -⟩ | ⟨-, hcause⟩ | herror
    · cases herror
    · omega
    · cases herror

/-! ### One transition -/

theorem Grant.WellFormed.created {recipient : Address} {totalAmount flowRate : Int}
    {initialStatusMask : StatusMask} (hamount : 0 < totalAmount) (hrate : 0 ≤ flowRate) :
    (Grant.created recipient totalAmount flowRate initialStatusMask now).WellFormed where
  withdrawn_nonneg := le_rfl
  claimable_nonneg := le_rfl
  accounted_le := by simpa [Grant.created, Grant.accounted] using hamount.le
  flowRate_nonneg := hrate

/-- Same balances, another rate. -/
theorem Grant.WellFormed.of_eq (h : grant.WellFormed)
    (hwithdrawn : grant'.withdrawn = grant.withdrawn)
    (hclaimable : grant'.claimable = grant.claimable)
    (htotal : grant'.totalAmount = grant.totalAmount) (hrate : 0 ≤ grant'.flowRate) :
    grant'.WellFormed where
  withdrawn_nonneg := hwithdrawn ▸ h.withdrawn_nonneg
  claimable_nonneg := hclaimable ▸ h.claimable_nonneg
  accounted_le := by
    have hle := h.accounted_le
    unfold Grant.accounted at hle ⊢
    omega
  flowRate_nonneg := hrate

theorem Grant.approvedBy_balances (grant : Grant) (oracle : Bytes) :
    (grant.approvedBy oracle).withdrawn = grant.withdrawn ∧
      (grant.approvedBy oracle).claimable = grant.claimable ∧
      (grant.approvedBy oracle).totalAmount = grant.totalAmount ∧
      (grant.approvedBy oracle).flowRate = grant.flowRate := by
  unfold Grant.approvedBy
  split <;> exact ⟨rfl, rfl, rfl, rfl⟩

/-- A transition keeps the balances within the grant, and takes nothing back that was
withdrawn. -/
theorem Transition.wellFormed (h : Transition host env grantId grant call grant')
    (hgrant : grant.WellFormed) : grant'.WellFormed ∧ grant.withdrawn ≤ grant'.withdrawn := by
  have hsettled {settled : Grant} {ts : Nat} (hsettle : settleGrant grant ts = .ok settled) :
      settled.WellFormed ∧ grant.withdrawn ≤ settled.withdrawn :=
    ⟨(settleGrant_eq_ok hsettle).wellFormed hgrant, (settleGrant_eq_ok hsettle).withdrawn_eq.ge⟩
  cases h with
  | cancelled settled _ hsettle | expired _ _ settled _ hsettle
  | selfTerminated settled _ hsettle =>
      obtain ⟨hwf, hle⟩ := hsettled hsettle
      exact ⟨hwf.of_eq rfl rfl rfl le_rfl, hle⟩
  | paused settled _ hsettle | resumed settled _ hsettle | flagged _ _ settled _ hsettle =>
      obtain ⟨hwf, hle⟩ := hsettled hsettle
      exact ⟨hwf.of_eq rfl rfl rfl hwf.flowRate_nonneg, hle⟩
  | rateUpdated newRate settled hrate hsettle =>
      obtain ⟨hwf, hle⟩ := hsettled hsettle
      exact ⟨hwf.of_eq rfl rfl rfl hrate, hle⟩
  | withdrawn amount settled hpos _ hsettle hamount =>
      obtain ⟨hwf, hle⟩ := hsettled hsettle
      have hwithdrawn := hwf.withdrawn_nonneg
      have haccounted := hwf.accounted_le
      unfold Grant.accounted at haccounted
      refine ⟨⟨⟨?_, Int.sub_nonneg.mpr hamount, ?_⟩, hwf.flowRate_nonneg⟩, ?_⟩
      · dsimp only [Grant.paid]
        omega
      · dsimp only [Grant.accounted, Grant.paid]
        omega
      · dsimp only [Grant.paid]
        omega
  | deadlineSet | oraclesConfigured | evidenceSubmitted | markedMet =>
      exact ⟨hgrant.of_eq rfl rfl rfl hgrant.flowRate_nonneg, le_rfl⟩
  | approved oracle =>
      obtain ⟨hwithdrawn, hclaimable, htotal, hrate⟩ := grant.approvedBy_balances oracle
      exact ⟨hgrant.of_eq hwithdrawn hclaimable htotal (hrate ▸ hgrant.flowRate_nonneg),
        hwithdrawn.ge⟩
  | clawedBack settled hsettle =>
      obtain ⟨hwf, hle⟩ := hsettled hsettle
      have hclaimable := hwf.claimable_nonneg
      have haccounted := hwf.accounted_le
      unfold Grant.accounted at haccounted
      refine ⟨⟨⟨hwf.withdrawn_nonneg, le_rfl, ?_⟩, hwf.flowRate_nonneg⟩, hle⟩
      dsimp only [Grant.accounted]
      omega
  | rageQuit settled _ hsettle =>
      obtain ⟨hwf, hle⟩ := hsettled hsettle
      have hwithdrawn := hwf.withdrawn_nonneg
      have hclaimable := hwf.claimable_nonneg
      have haccounted := hwf.accounted_le
      unfold Grant.accounted at haccounted
      refine ⟨⟨⟨?_, le_rfl, ?_⟩, le_rfl⟩, ?_⟩
      · dsimp only [Grant.quit]
        omega
      · dsimp only [Grant.accounted, Grant.quit]
        omega
      · dsimp only [Grant.quit]
        omega

theorem Effect.wellFormed {grants : Nat → Option Grant} (h : Effect host env call grants)
    (hstored : ∀ grantId grant, env.store.grants grantId = some grant → grant.WellFormed)
    (grantId : Nat) (grant : Grant) (hgrant : grants grantId = some grant) :
    grant.WellFormed := by
  cases h.grantEffect hgrant with
  | untouched _ hgrant _ => exact hstored grantId grant hgrant
  | created _ _ _ _ _ _ hamount hrate => exact .created hamount hrate
  | moved before _ hbefore htransition =>
      exact (htransition.wellFormed (hstored grantId before hbefore)).1

/-! ### Runs -/

section Runs

variable {trace : Trace}

theorem wellFormed_of_reachable (h : Ledger.Reachable (contract host) trace env)
    (hgrant : env.store.grants grantId = some grant) : grant.WellFormed := by
  refine Ledger.store_invariant (I := fun store => ∀ grantId grant,
    store.grants grantId = some grant → grant.WellFormed) ?_ ?_ h grantId grant hgrant
  · intro grantId grant hgrant
    cases hgrant
  · intro env result call hexec _ ih
    have heffect : Effect host env call result.store.grants := exec_effect hexec
    exact heffect.wellFormed ih

/-- A stored grant stays stored, and what was withdrawn from it is not taken back. -/
theorem withdrawn_le_of_next {e : Step} (h : Ledger.Reachable (contract host) trace e.before)
    (hn : Ledger.Next (contract host) e.before e.action e.after)
    (hgrant : e.before.store.grants grantId = some grant)
    (hgrant' : e.after.store.grants grantId = some grant') :
    grant.withdrawn ≤ grant'.withdrawn := by
  rcases effect_of_next hn with ⟨-, hstore⟩ | ⟨call, -, heffect⟩
  · rw [hstore] at hgrant'
    cases hgrant.symm.trans hgrant'
    exact le_rfl
  · cases heffect.grantEffect hgrant' with
    | untouched _ hg _ =>
        cases hgrant.symm.trans hg
        exact le_rfl
    | created _ _ _ _ _ hnone => cases hgrant.symm.trans hnone
    | moved _ _ hbefore htransition =>
        cases hgrant.symm.trans hbefore
        exact (htransition.wellFormed (wellFormed_of_reachable h hgrant)).2

end Runs

/-- What `getGrant` shows is the stored grant, settled once or twice. -/
theorem getGrant_balanced {result : Env × Grant}
    (hstored : ∀ grant, env.store.grants grantId = some grant → grant.WellFormed)
    (h : getGrant env grantId = .ok result) : result.2.Balanced := by
  unfold getGrant readGrant previewGrantAtNow at h
  simp only [bind_eq_ok, okOr_eq_ok, pure_eq_ok] at h
  obtain ⟨grant, hgrant, ⟨env₁, grant₁, cancelled⟩, hexpiry, preview, hpreview, rfl⟩ := h
  have hwf := hstored grant hgrant
  have hwf₁ : grant₁.WellFormed := by
    rcases maybeAutoCancelMilestoneExpiry_eq_ok hexpiry with ⟨-, heq⟩ | ⟨settled, -, hsettle, heq⟩
    · cases heq
      exact hwf
    · cases heq
      exact ((settleGrant_eq_ok hsettle).wellFormed hwf).of_eq rfl rfl rfl le_rfl
  exact ((settleGrant_eq_ok hpreview).wellFormed hwf₁).toBalanced

/-- **Balances of a grant.** In every run the balances of every stored grant and of every
preview are within the grant, a settlement that is not of the past rejects no stored grant,
and no step takes back what was withdrawn. -/
theorem balances_within_grant (host : Host) {trace : Trace} {env : Env}
    (h : Ledger.Reachable (contract host) trace env) :
    (∀ grantId grant, env.store.grants grantId = some grant →
      grant.Balanced ∧
      (∀ now settled, settleGrant grant now = .ok settled → settled.Balanced) ∧
      ∀ now, grant.lastUpdateTs ≤ now →
        settleGrant grant now ≠ fail .invalidState ∧ settleGrant grant now ≠ fail .invalidRate) ∧
    (∀ now grantId result, getGrant { env with timestamp := now } grantId = .ok result →
      result.2.Balanced) ∧
    ∀ e ∈ trace, ∀ grantId grant grant', e.before.store.grants grantId = some grant →
      e.after.store.grants grantId = some grant' → grant.withdrawn ≤ grant'.withdrawn := by
  refine ⟨fun grantId grant hgrant => ?_, fun now grantId result hresult => ?_, fun e he => ?_⟩
  · have hwf := wellFormed_of_reachable h hgrant
    refine ⟨hwf.toBalanced, fun now settled hsettle => ?_, fun now hle => ?_⟩
    · exact ((settleGrant_eq_ok hsettle).wellFormed hwf).toBalanced
    · exact hwf.settleGrant_ne_fail hle
  · refine getGrant_balanced ?_ hresult
    intro grant hgrant
    exact wellFormed_of_reachable h hgrant
  · obtain ⟨older, holder, hn⟩ := h.of_mem he
    intro grantId grant grant' hgrant hgrant'
    exact withdrawn_le_of_next holder hn hgrant hgrant'

/-- A grant whose rate is stopped, that is paused, resumed and then quit by its grantee. -/
theorem balances_within_grant_of_quit_grant :
    let run := Ledger.history (contract Demo.host) Demo.env (Demo.setUp ++
      [Demo.call 10 (.withdraw 7 4), Demo.call 20 (.updateRate 7 0), Demo.call 30 (.pauseGrant 7),
        Demo.call 40 (.resumeGrant 7), Demo.call 50 (.updateRate 7 3),
        Demo.call 90 (.pauseGrant 7), Demo.call 95 (.rageQuit 7)])
    ∀ e ∈ run.1, ∀ grantId grant grant', e.before.store.grants grantId = some grant →
      e.after.store.grants grantId = some grant' → grant.withdrawn ≤ grant'.withdrawn := by
  intro run
  have hrun : Ledger.Reachable (contract Demo.host) run.1 run.2 :=
    Ledger.history_reachable _ Demo.env_deployed (by decide)
  exact (balances_within_grant Demo.host hrun).2.2

end YieldTrust.Optimized
