import YieldTrust.GrantStream.Invariants

/-!
# YieldTrust.GrantStream.PendingRate

When `settle_grant` traps. Two `u64` operations in it are unchecked: the end of
the warmup and the time from the last settlement to the switch of a pending
rate. The second underflows once the clock of an active grant has passed the
switch without applying it, which only the operations that restart the clock
without settling can bring about.
-/

namespace YieldTrust.GrantStream

open Fallible

/-! ### The traps of a settlement -/

namespace Grant

/-- The pending rate is due at `now` and its switch lies before the last settlement. -/
def switchUnderflows (grant : Grant) (now : Nat) : Prop :=
  grant.pendingRateDue now = true ∧ grant.effectiveTimestamp < grant.lastUpdateTs

/-- The length of the first segment of the accrual at `now`. -/
def firstElapsed (grant : Grant) (now : Nat) : Nat :=
  if grant.pendingRateDue now then grant.effectiveTimestamp - grant.lastUpdateTs
  else now - grant.lastUpdateTs

end Grant

theorem calculateWarmupMultiplier_eq_trap {grant : Grant} {now : Nat} :
    calculateWarmupMultiplier grant now = trap ↔ grant.warmupOverflows := by
  unfold calculateWarmupMultiplier Grant.warmupOverflows
  by_cases hw : grant.warmupDuration = 0
  · simp [hw, pure_ne_trap]
  · rw [if_neg hw]
    simp only [bind_eq_trap, orTrap_eq_trap, U64.checkedAdd_eq_none, ne_eq, hw, not_false_eq_true,
      true_and, or_iff_left_iff_imp]
    rintro ⟨warmupEnd, -, h⟩
    split_ifs at h <;> exact absurd h pure_ne_trap

theorem calculateAccrued_eq_trap {grant : Grant} {elapsed now : Nat} :
    calculateAccrued grant elapsed now = trap ↔
      I128.InRange (grant.flowRate * (elapsed : Int)) ∧ grant.warmupOverflows := by
  unfold calculateAccrued
  simp only [bind_eq_trap, okOr_ne_trap, false_or, okOr_eq_ok, I128.checkedMul_eq_some,
    calculateWarmupMultiplier_eq_trap, and_false, exists_const, or_false]
  constructor
  · rintro ⟨_, ⟨hr, -⟩, hw⟩
    exact ⟨hr, hw⟩
  · intro ⟨hr, hw⟩
    exact ⟨_, ⟨hr, rfl⟩, hw⟩

theorem applyAccruedSplit_ne_trap {grant : Grant} {a : Int} : applyAccruedSplit grant a ≠ trap := by
  unfold applyAccruedSplit
  split_ifs <;>
    simp only [bind_eq_trap, okOr_ne_trap, pure_ne_trap, and_false, exists_false, or_self, ne_eq,
      not_false_eq_true]

theorem completeAndRestart_ne_trap {grant : Grant} {now : Nat} :
    completeAndRestart grant now ≠ trap := by
  unfold completeAndRestart totalAccounted
  simp only [bind_eq_trap, okOr_ne_trap, false_or, ne_eq]
  rintro (⟨_, -, h⟩ | ⟨a, -, h⟩)
  · simp only [and_false, exists_false] at h
  · split_ifs at h <;>
      simp only [bind_eq_trap, okOr_ne_trap, pure_ne_trap, and_false, exists_false, or_self] at h

/-- Once one segment was computed, the end of the warmup is known to fit. -/
theorem not_warmupOverflows_of_calculateAccrued {grant : Grant} {elapsed now : Nat} {a : Int}
    (h : calculateAccrued grant elapsed now = .ok a) : ¬grant.warmupOverflows := by
  unfold calculateAccrued at h
  simp only [bind_eq_ok, calculateWarmupMultiplier_eq_ok] at h
  obtain ⟨_, -, _, ⟨hw, -⟩, -⟩ := h
  exact hw

theorem accrueActive_eq_trap {grant : Grant} {now : Nat} :
    accrueActive grant (now - grant.lastUpdateTs) now = trap ↔
      grant.switchUnderflows now ∨ grant.warmupOverflows ∧
        I128.InRange (grant.flowRate * (grant.firstElapsed now : Int)) := by
  unfold accrueActive Grant.switchUnderflows Grant.firstElapsed
  by_cases hd : grant.pendingRateDue now = true
  · have hdue : grant.effectiveTimestamp ≤ now := by
      unfold Grant.pendingRateDue at hd
      simp only [Bool.and_eq_true, decide_eq_true_eq] at hd
      exact hd.2
    rw [if_pos hd, if_pos hd]
    simp only [bind_eq_trap, orTrap_eq_trap, U64.checkedSub_eq_none, orTrap_eq_ok,
      U64.checkedSub_eq_some, calculateAccrued_eq_trap, applyAccruedSplit_ne_trap, and_false,
      exists_false, or_false, false_or, hd, true_and]
    constructor
    · rintro (hlt | ⟨_, ⟨hle, rfl⟩, ⟨hr, hw⟩ | ⟨a, ha, g, hg, hlt | ⟨_, -, -, hw⟩⟩⟩)
      · exact .inl hlt
      · exact .inr ⟨hw, hr⟩
      · omega
      · -- the second segment has the same warmup as the first
        refine absurd ?_ (not_warmupOverflows_of_calculateAccrued ha)
        rw [applyAccruedSplit_eq_ok hg] at hw
        exact hw
    · rintro (hlt | ⟨hw, hr⟩)
      · exact .inl hlt
      · rcases Nat.lt_or_ge grant.effectiveTimestamp grant.lastUpdateTs with hlt | hle
        · exact .inl hlt
        · exact .inr ⟨_, ⟨hle, rfl⟩, .inl ⟨hr, hw⟩⟩
  · rw [if_neg hd, if_neg hd]
    simp only [bind_eq_trap, calculateAccrued_eq_trap, applyAccruedSplit_ne_trap, and_false,
      exists_false, or_false, hd]
    rw [and_comm]
    simp

/-- **When settling traps.** Exactly if it accrues and either the switch of a
pending rate underflows or the end of the warmup does not fit in a `u64` (and
the product that is computed before it does). -/
theorem settleGrant_eq_trap {grant : Grant} {now : Nat} :
    settleGrant grant now = trap ↔
      grant.lastUpdateTs ≤ now ∧ grant.accrues now ∧
        (grant.switchUnderflows now ∨ grant.warmupOverflows ∧
          I128.InRange (grant.flowRate * (grant.firstElapsed now : Int))) := by
  unfold settleGrant
  by_cases hlt : now < grant.lastUpdateTs
  · rw [if_pos hlt]
    exact ⟨fun h => absurd h fail_ne_trap, fun h => absurd h.1 (by omega)⟩
  rw [if_neg hlt]
  by_cases heq : now = grant.lastUpdateTs
  · rw [if_pos (by omega)]
    exact ⟨fun h => absurd h pure_ne_trap, fun h => absurd heq h.2.1.1⟩
  rw [if_neg (by omega)]
  by_cases hg : grant.status = .active ∧ grant.gateClosed = true
  · rw [if_pos hg]
    refine ⟨fun h => absurd h pure_ne_trap, fun h => ?_⟩
    have hopen := h.2.1.2.2
    rw [hg.2] at hopen
    cases hopen
  rw [if_neg hg]
  by_cases ha : grant.status = .active
  · have haccrues := (Grant.accrues_iff heq hg).mpr ha
    rw [if_pos ha]
    simp only [bind_eq_trap, completeAndRestart_ne_trap, and_false, exists_false, or_false,
      accrueActive_eq_trap]
    exact ⟨fun h => ⟨by omega, haccrues, h⟩, fun h => h.2.2⟩
  · rw [if_neg ha]
    simp only [bind_eq_trap, completeAndRestart_ne_trap, and_false, exists_false, or_false]
    exact ⟨fun h => absurd h pure_ne_trap, fun h => absurd h.2.1.2.1 ha⟩

/-! ### The pending rate stays ahead -/

namespace Grant

/-- A rate increase is waiting to take effect. -/
def pendingLive (grant : Grant) : Prop :=
  grant.flowRate < grant.pendingRate ∧ grant.effectiveTimestamp ≠ 0

instance (grant : Grant) : Decidable grant.pendingLive := inferInstanceAs (Decidable (_ ∧ _))

/-- While the grant is active, its clock has not passed the switch. -/
def PendingAhead (grant : Grant) : Prop :=
  grant.status = .active → grant.pendingLive → grant.lastUpdateTs ≤ grant.effectiveTimestamp

theorem pendingRateDue_iff {grant : Grant} {now : Nat} :
    grant.pendingRateDue now = true ↔ grant.pendingLive ∧ grant.effectiveTimestamp ≤ now := by
  unfold pendingRateDue pendingLive
  simp

/-- A pending rate that is due stays due. -/
theorem pendingRateDue_mono {grant : Grant} {t₁ t₂ : Nat} (ht : t₁ ≤ t₂)
    (h : grant.pendingRateDue t₁ = true) : grant.pendingRateDue t₂ = true := by
  obtain ⟨hlive, hdue⟩ := pendingRateDue_iff.mp h
  exact pendingRateDue_iff.mpr ⟨hlive, hdue.trans ht⟩

theorem PendingAhead.of_not_active {grant : Grant} (h : grant.status ≠ .active) :
    grant.PendingAhead := fun ha => absurd ha h

theorem PendingAhead.not_switchUnderflows {grant : Grant} {now : Nat} (h : grant.PendingAhead)
    (ha : grant.status = .active) : ¬grant.switchUnderflows now := by
  intro ⟨hd, hlt⟩
  have := h ha (pendingRateDue_iff.mp hd).1
  omega

/-- A settlement applies a pending rate that is due, unless the legal gate stops it. -/
theorem PendingAhead.settled {grant : Grant} {now₀ : Nat} (h : grant.PendingAhead)
    (hwf : grant.WellFormed now₀) (now : Nat)
    (hgate : grant.status = .active → grant.gateClosed = true → grant.pendingLive →
      now ≤ grant.effectiveTimestamp) : (grant.settled now).PendingAhead := by
  intro hactive hlive
  have ha : grant.status = .active := by
    rw [settled_status] at hactive
    split_ifs at hactive
    exact hactive
  rw [settled_lastUpdateTs]
  by_cases hs : grant.switches now
  · -- the pending rate was applied: none is left
    obtain ⟨hflow, hpending, -⟩ := settled_of_switches hs
    have hlive := hlive.1
    have := hwf.pendingRate_nonneg
    omega
  · obtain ⟨hflow, hpending, heffective⟩ := settled_of_not_switches hs
    unfold pendingLive at hlive
    rw [hflow, hpending, heffective] at hlive
    rw [heffective]
    by_cases hg : grant.gateClosed = true
    · exact hgate ha hg hlive
    · by_cases heq : now = grant.lastUpdateTs
      · rw [heq]
        exact h ha hlive
      · have haccrues : grant.accrues now := ⟨heq, ha, by simpa using hg⟩
        by_contra hlt
        exact hs ⟨haccrues, pendingRateDue_iff.mpr ⟨hlive, by omega⟩⟩

end Grant

/-- The operation leaves an active grant whose clock it restarted without
applying a pending rate. -/
def GrantOp.restartsClock (op : GrantOp) (grant : Grant) : Bool :=
  match op with
  | .resume | .resolve false => true
  | .signLegal => grant.status = .active
  | .withdrawValidator _ | .applyKpi _ => grant.status = .active && grant.gateClosed
  | _ => false

/-- The step does not restart the clock of `grantId` beyond the switch of a
pending rate. -/
def PendingAheadAt (grantId : Nat) (e : Run.Step Env Event) : Prop :=
  AtOp grantId e fun op g => op.restartsClock g = true → g.pendingLive →
    e.action.timestamp ≤ g.effectiveTimestamp

instance (grantId : Nat) (e : Run.Step Env Event) : Decidable (PendingAheadAt grantId e) :=
  inferInstanceAs (Decidable (AtOp grantId e _))

/-- Rescaling keeps the order of the two rates: nothing becomes pending. -/
theorem pendingLive_of_rescaled {flowRate pendingRate multiplier : Int} (hflow : 0 ≤ flowRate)
    (hmultiplier : 0 < multiplier)
    (h : (flowRate * multiplier).tdiv 10000 <
      if 0 < pendingRate then (pendingRate * multiplier).tdiv 10000 else pendingRate) :
    flowRate < pendingRate := by
  have hscaled : 0 ≤ (flowRate * multiplier).tdiv 10000 :=
    Int.tdiv_nonneg (mul_nonneg hflow hmultiplier.le) (by decide)
  by_contra hle
  split_ifs at h with hpos
  -- scaling and rounding keep the order of the two rates
  · have hmul : pendingRate * multiplier ≤ flowRate * multiplier :=
      mul_le_mul_of_nonneg_right (by omega) hmultiplier.le
    rw [Int.tdiv_eq_ediv_of_nonneg (mul_nonneg hflow hmultiplier.le),
      Int.tdiv_eq_ediv_of_nonneg (mul_nonneg hpos.le hmultiplier.le)] at h
    have := Int.ediv_le_ediv (show (0 : Int) < 10000 by decide) hmul
    omega
  · omega

theorem GrantStep.pendingAhead {now₀ now : Nat} {treasury : Option Address} {op : GrantOp}
    {a a' : Account} {payments : List Payment} (hstep : GrantStep now treasury op a a' payments)
    (hwf : a.grant.WellFormed now₀) (h : a.grant.PendingAhead)
    (hclock : op.restartsClock a.grant = true → a.grant.pendingLive →
      now ≤ a.grant.effectiveTimestamp) : a'.grant.PendingAhead := by
  cases hstep with
  | @withdraw g s m e amount hs _ _ hgate _ _ hm =>
      have hopen : g.gateClosed = false := by
        rw [hs.eq_settled, Grant.settled_gateClosed] at hgate
        exact hgate
      -- a withdrawal only goes through with the gate open
      have hsettled := h.settled hwf now fun _ hg _ => by
        rw [hopen] at hg
        cases hg
      rw [← hs.eq_settled] at hsettled
      subst hm
      exact hsettled
  | @withdrawValidator g s m e amount validator hs _ _ _ _ hm =>
      have hsettled := h.settled hwf now fun ha hg hlive =>
        hclock (Bool.and_eq_true_iff.mpr ⟨decide_eq_true ha, hg⟩) hlive
      rw [← hs.eq_settled] at hsettled
      subst hm
      exact hsettled
  | @applyKpi g s m e multiplier hs _ hmultiplier hm =>
      have hsettled := h.settled hwf now fun ha hg hlive =>
        hclock (Bool.and_eq_true_iff.mpr ⟨decide_eq_true ha, hg⟩) hlive
      rw [← hs.eq_settled] at hsettled
      have hflow := (hwf.of_settles hs).flowRate_nonneg
      subst hm
      intro ha hlive
      exact hsettled ha ⟨pendingLive_of_rescaled hflow hmultiplier hlive.1, hlive.2⟩
  | proposeIncrease hs _ _ _ hm =>
      subst hm
      intro _ _
      show _ ≤ now + rateIncreaseTimelockSecs
      rw [hs.eq_settled, Grant.settled_lastUpdateTs]
      omega
  | proposeDecrease _ _ _ _ hm =>
      subst hm
      exact fun _ hlive => absurd rfl hlive.2
  | resume _ hm =>
      subst hm
      exact fun _ hlive => hclock rfl hlive
  | resolveToGrantee _ _ _ _ hm =>
      subst hm
      exact fun _ hlive => hclock rfl hlive
  | signLegal _ hm =>
      subst hm
      exact fun ha hlive => hclock (decide_eq_true ha) hlive
  | pause _ _ hm | rageQuit _ _ _ hm | cancel _ _ _ hm | clawbackNothing _ _ _ hm
  | clawbackContested _ _ _ hm | clawbackToDonor _ _ _ _ hm =>
      subst hm
      exact .of_not_active (by dsimp only; decide)
  | changeGrantee _ _ hm | setLegal hm =>
      subst hm
      exact h
  | resolveToDonor => exact h

/-- In a run that never restarts a clock beyond the switch of a pending rate,
every stored grant has its pending rate ahead. -/
theorem pendingAhead_of_reachable {trace : Trace} {env : Env} (h : Reachable trace env)
    {grantId : Nat} {g : Grant} (hg : env.grants grantId = some g)
    (hahead : ∀ e ∈ life grantId trace, PendingAheadAt grantId e) : g.PendingAhead := by
  have hinv := account_invariant_when (C := PendingAheadAt grantId)
    (P := fun _ _ _ a => a.grant.PendingAhead) ?_ ?_ ?_ h hg hahead
  · obtain ⟨o, -, hinv⟩ := hinv
    exact hinv
  · rintro now recipient totalAmount flowRate warmupDuration validator donor token _ _ _ _ rfl
    exact fun _ hlive => absurd rfl hlive.2
  · intro o L e a _ _ ih _ _ _
    exact ih
  · intro o L e op a a' payments hahead hwf ih _ hop hg hstep
    exact hstep.pendingAhead hwf ih (hahead.elim hop hg)

/-- **Settlement is never blocked.** In every run that never restarts the clock
of a grant beyond the switch of its pending rate, settling the grant does not
trap if the end of its warmup fits in a `u64`, and every pending rate it applies
takes effect after the last settlement. -/
theorem settlement_never_traps {trace : Trace} {env : Env} (h : Reachable trace env)
    {grantId : Nat} {g o : Grant} (hg : env.grants grantId = some g)
    (ho : origin grantId trace = some o) (hwarmup : ¬o.warmupOverflows)
    (hahead : ∀ e ∈ life grantId trace, PendingAheadAt grantId e) (now : Nat) :
    settleGrant g now ≠ .error .trap ∧
      (g.switches now → g.lastUpdateTs ≤ g.effectiveTimestamp) := by
  have hpending := pendingAhead_of_reachable h hg hahead
  have hterms := sameTerms_of_reachable h hg ho
  have hfits : ¬g.warmupOverflows := by
    unfold Grant.warmupOverflows
    rw [hterms.startTime, hterms.warmupDuration]
    exact hwarmup
  constructor
  · intro htrap
    obtain ⟨-, haccrues, hunderflow | ⟨hoverflow, -⟩⟩ := settleGrant_eq_trap.mp htrap
    · exact hpending.not_switchUnderflows haccrues.2.1 hunderflow
    · exact hfits hoverflow
  · intro hs
    exact hpending hs.1.2.1 (Grant.pendingRateDue_iff.mp hs.2).1

/-- A stream whose rate is raised, paused and resumed before the timelock expires. -/
theorem settlement_never_traps_after_short_pause :
    let run := history Demo.env (Demo.setUp 1000 ++
      [Demo.call 1 (.createGrant 7 Demo.grantee 1000 1 60 none none),
        Demo.call 11 (.proposeRateChange 7 2), Demo.call 21 (.pauseStream 7 none),
        Demo.call 31 (.resumeStream 7)])
    ∃ g, run.2.grants 7 = some g ∧ settleGrant g 200000 ≠ .error .trap := by
  intro run
  have hrun : Reachable run.1 run.2 := history_reachable Demo.env_deployed (by decide)
  refine ⟨_, rfl, (@settlement_never_traps _ _ hrun 7 _ _ rfl rfl ?_ (by decide) 200000).1⟩
  exact fun hoverflow => absurd hoverflow.2 (by decide)

/-- The products of a settlement at `now`, over all of the elapsed time, fit in an `i128`. -/
def Grant.ProductsFit (grant : Grant) (now : Nat) : Prop :=
  I128.InRange (grant.flowRate * (now - grant.lastUpdateTs : Nat) * 10000) ∧
    I128.InRange (grant.pendingRate * (now - grant.lastUpdateTs : Nat) * 10000)

/-- A stream that is paused while a raise takes effect and resumed afterwards. -/
theorem settlement_never_traps_after_long_pause :
    ¬∀ trace env grantId g now, Reachable trace env → env.grants grantId = some g →
      g.lastUpdateTs ≤ now → g.ProductsFit now → settleGrant g now ≠ .error .trap := by
  intro h
  let run := history Demo.env (Demo.setUp 1000 ++
    [Demo.call 1 (.createGrant 7 Demo.grantee 1000 1 0 none none),
      Demo.call 11 (.proposeRateChange 7 2), Demo.call 21 (.pauseStream 7 none),
      Demo.call 200000 (.resumeStream 7)])
  have hrun : Reachable run.1 run.2 := history_reachable Demo.env_deployed (by decide)
  exact h run.1 run.2 7 _ 200001 hrun rfl (by decide) ⟨by decide, by decide⟩ (by decide)

end YieldTrust.GrantStream
