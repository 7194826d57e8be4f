import Mathlib.Data.Int.ConditionallyCompleteOrder
import Mathlib.Order.ConditionallyCompleteLattice.Basic
import YieldTrust.GrantStream.PendingRate
import YieldTrust.Lib.RateStream

/-!
# YieldTrust.GrantStream.IdealStream

Lazy settlement refines an ideal stream. The ideal stream earns second by second
and knows nothing of settlements: it is driven by the operations on the grant.
The grant lags behind it, and every settlement catches up. The refinement is
stated for grants without a validator, a warmup or a legal document, for which
no rounding takes place.
-/

namespace YieldTrust.GrantStream

/-! ### The ideal stream of a grant -/

/-- The operations on a grant that neither terminate it nor concern a validator
or a legal document. -/
def GrantOp.plain : GrantOp → Bool
  | .withdraw _ | .pause _ | .resume | .proposeRate _ | .applyKpi _ | .changeGrantee _ => true
  | _ => false

/-- What an operation at `now` does to the ideal stream. It does not notice a
withdrawal or a change of the grantee. -/
def GrantOp.drive (op : GrantOp) (now : Nat) (s : RateStream Int) : RateStream Int :=
  match op with
  | .pause _ => s.setActive false
  | .resume => s.setActive true
  | .proposeRate newRate =>
      if s.rate < newRate then s.propose newRate (now + rateIncreaseTimelockSecs)
      else s.setRate newRate
  | .applyKpi multiplier => s.rescale fun r => (r * multiplier).tdiv 10000
  | _ => s

/-- The ideal stream of a grant created with `flowRate`, after the steps `L`. -/
def idealAfter (grantId : Nat) (flowRate : Int) : Trace → RateStream Int
  | [] => .start flowRate
  | e :: L =>
      let s := (idealAfter grantId flowRate L).advance e.before.timestamp
        (e.action.timestamp - e.before.timestamp)
      match performed grantId e with
      | some op => op.drive e.action.timestamp s
      | none => s

theorem GrantOp.drive_earned (op : GrantOp) (now : Nat) (s : RateStream Int) :
    (op.drive now s).earned = s.earned := by
  cases op <;> try rfl
  case proposeRate newRate =>
    unfold drive
    dsimp only
    split_ifs <;> rfl

/-- The stream is driven with rates that are not negative. -/
theorem GrantStep.drive_nonneg {now₀ now : Nat} {treasury : Option Address} {op : GrantOp}
    {a a' : Account} {payments : List Payment} (hstep : GrantStep now treasury op a a' payments)
    (hwf : a.grant.WellFormed now₀) {s : RateStream Int} (h : s.Nonneg) :
    (op.drive now s).Nonneg := by
  have hpropose {newRate : Int} (hnonneg : 0 ≤ newRate) :
      ((GrantOp.proposeRate newRate).drive now s).Nonneg := by
    unfold GrantOp.drive
    dsimp only
    split_ifs
    · exact h.propose hnonneg _
    · exact .setRate s hnonneg
  cases hstep with
  | pause => exact h.setActive false
  | resume => exact h.setActive true
  | proposeIncrease hs _ hrate =>
      exact hpropose ((hwf.of_settles hs).flowRate_nonneg.trans hrate.le)
  | proposeDecrease _ _ hnonneg => exact hpropose hnonneg
  | applyKpi _ _ hmultiplier =>
      exact h.rescale fun r hr => Int.tdiv_nonneg (mul_nonneg hr hmultiplier.le) (by decide)
  | _ => exact h

/-! ### Grants that are in step with their stream -/

/-- The grant has neither a validator nor a warmup nor a legal document to sign. -/
structure Grant.Plain (grant : Grant) : Prop where
  validator : grant.validator = none
  warmupDuration : grant.warmupDuration = 0
  requiresLegalSignature : grant.requiresLegalSignature = false

/-- The grant, as it is at its last settlement, agrees with the stream `s`. -/
structure Grant.InStep (grant : Grant) (s : RateStream Int) : Prop where
  status : grant.status = .active ∨ grant.status = .paused
  active : s.active = true ↔ grant.status = .active
  rate : s.rate = grant.flowRate
  /-- Either both wait for the same increase, or neither's rate will change. -/
  pending : grant.pendingLive ∧ s.pending = some (grant.pendingRate, grant.effectiveTimestamp) ∨
    ¬grant.pendingLive ∧ s.Steady
  earned : s.earned = grant.withdrawn + grant.claimable
  not_full : grant.withdrawn + grant.claimable < grant.totalAmount

/-- Everything has been earned; what the stream does from now on does not matter. -/
structure Grant.Full (grant : Grant) (s : RateStream Int) : Prop where
  claimed : grant.withdrawn + grant.claimable = grant.totalAmount
  earned : grant.totalAmount ≤ s.earned

/-- The settled grant agrees with the stream up to the cap. -/
def Grant.Tracks (grant : Grant) (s : RateStream Int) : Prop := grant.Full s ∨ grant.InStep s

/-- The grant lags behind the stream, which is `s` at `now`. -/
def Grant.Lags (grant : Grant) (s : RateStream Int) (now : Nat) : Prop :=
  grant.Full s ∨ ∃ s₀, grant.InStep s₀ ∧
    s = s₀.advance grant.lastUpdateTs (now - grant.lastUpdateTs)

namespace Grant

theorem Plain.gateClosed {grant : Grant} (h : grant.Plain) : grant.gateClosed = false := by
  unfold Grant.gateClosed
  rw [h.requiresLegalSignature]
  rfl

theorem Plain.accrues_iff {grant : Grant} (h : grant.Plain) (now : Nat) :
    grant.accrues now ↔ now ≠ grant.lastUpdateTs ∧ grant.status = .active := by
  unfold accrues streams
  simp [h.gateClosed]

/-- The two sides of a settlement: the rates of the settled grant are those of
the stream, and it is credited what the stream earned since the last one. -/
structure CaughtUp (grant : Grant) (s₀ s : RateStream Int) (now : Nat) : Prop where
  active : s.active = s₀.active
  rate : s.rate = (grant.settled now).flowRate
  pending : (grant.settled now).pendingLive ∧
      s.pending = some ((grant.settled now).pendingRate, (grant.settled now).effectiveTimestamp) ∨
    ¬(grant.settled now).pendingLive ∧ s.Steady
  earned : s.earned = s₀.earned + grant.dueAccrual now

theorem CaughtUp.of_not_accrues {grant : Grant} {s₀ : RateStream Int} {now : Nat}
    (h : grant.InStep s₀) (hna : ¬grant.accrues now) : CaughtUp grant s₀ s₀ now := by
  obtain ⟨hflow, hpending, heffective⟩ := settled_of_not_switches fun hs => hna hs.1
  refine ⟨rfl, h.rate.trans hflow.symm, ?_, ?_⟩
  · unfold pendingLive
    rw [hflow, hpending, heffective]
    exact h.pending
  · unfold dueAccrual
    rw [if_neg hna, add_zero]

/-- A settlement catches up with the stream. -/
theorem InStep.caughtUp {grant m : Grant} {s₀ : RateStream Int} {now : Nat} (h : grant.InStep s₀)
    (hplain : grant.Plain) (hs : Settles grant now m) :
    CaughtUp grant s₀ (s₀.advance grant.lastUpdateTs (now - grant.lastUpdateTs)) now := by
  have hle := hs.lastUpdateTs_le
  by_cases ha : grant.accrues now
  · obtain ⟨hne, hactive⟩ := (hplain.accrues_iff now).mp ha
    have hact := h.active.mpr hactive
    by_cases hd : grant.pendingRateDue now = true
    · -- two segments
      obtain ⟨hlive, hdue⟩ := pendingRateDue_iff.mp hd
      have hpending : s₀.pending = some (grant.pendingRate, grant.effectiveTimestamp) := by
        rcases h.pending with ⟨-, hp⟩ | ⟨hdead, -⟩
        · exact hp
        · exact absurd hlive hdead
      obtain ⟨hflow, -, heffective⟩ := settled_of_switches ⟨ha, hd⟩
      rw [RateStream.advance_switch hact hpending (hs.switch hne ha.2 hd) (by omega) (by omega)]
      refine ⟨rfl, hflow.symm, .inr ⟨fun hlive => hlive.2 heffective, .of_none rfl⟩, ?_⟩
      have hend : grant.lastUpdateTs + (now - grant.lastUpdateTs) = now := by omega
      rw [dueAccrual_of_due hplain.warmupDuration ha hd, hend, nsmul_eq_mul, nsmul_eq_mul, h.rate]
      ring
    · -- one segment
      obtain ⟨hflow, hpending, heffective⟩ := settled_of_not_switches fun hs => hd hs.2
      have haccrual := dueAccrual_of_not_due hplain.warmupDuration ha hd
      rcases h.pending with ⟨hlive, hp⟩ | ⟨hdead, hsteady⟩
      · have hlater : now < grant.effectiveTimestamp := by
          by_contra hge
          exact hd (pendingRateDue_iff.mpr ⟨hlive, by omega⟩)
        rw [RateStream.advance_before hact fun r effective hp' => by
          rw [hp] at hp'
          cases hp'
          omega]
        refine ⟨rfl, h.rate.trans hflow.symm, .inl ?_, ?_⟩
        · unfold pendingLive
          rw [hflow, hpending, heffective]
          exact ⟨hlive, hp⟩
        · rw [haccrual, nsmul_eq_mul, h.rate, mul_comm]
      · obtain ⟨hsteady', hrate, hearned⟩ :=
          hsteady.advance hact grant.lastUpdateTs (now - grant.lastUpdateTs)
        refine ⟨by rw [RateStream.advance_active], hrate.trans (h.rate.trans hflow.symm), .inr ?_, ?_⟩
        · unfold pendingLive
          rw [hflow, hpending, heffective]
          exact ⟨hdead, hsteady'⟩
        · rw [hearned, haccrual, nsmul_eq_mul, h.rate, mul_comm]
  · have hsame : s₀.advance grant.lastUpdateTs (now - grant.lastUpdateTs) = s₀ := by
      by_cases heq : now = grant.lastUpdateTs
      · rw [heq, Nat.sub_self]
        rfl
      · have hna : s₀.active = false := by
          rw [← Bool.not_eq_true]
          exact fun hact => ha ((hplain.accrues_iff now).mpr ⟨heq, h.active.mp hact⟩)
        exact RateStream.advance_of_not_active hna _ _
    rw [hsame]
    exact .of_not_accrues h ha

/-- **A settled grant agrees with the stream**, up to the cap. -/
theorem Lags.settle {grant m : Grant} {s : RateStream Int} {now₀ now : Nat}
    (h : grant.Lags s now) (hplain : grant.Plain) (hwf : grant.WellFormed now₀)
    (hs : Settles grant now m) : m.Tracks s := by
  obtain rfl := hs.eq_settled
  have hsum := hwf.settled_sum hplain.validator now
  have hdue := hwf.rates.dueAccrual now
  have hle := (hwf.settled now).grantee_le
  rcases h with hfull | ⟨s₀, hin, rfl⟩
  · refine .inl ⟨?_, (grant.settled_totalAmount now).le.trans hfull.earned⟩
    have hclaimed := hfull.claimed
    rw [settled_totalAmount] at hle ⊢
    split_ifs at hsum <;> omega
  · obtain ⟨hactive, hrate, hpending, hearned⟩ := hin.caughtUp hplain hs
    by_cases hd : grant.completes now
    · rw [if_pos hd] at hsum
      refine .inl ⟨hsum.trans (grant.settled_totalAmount now).symm, ?_⟩
      have hcompletes := hd.2.2
      rw [hwf.accounted_of_none hplain.validator] at hcompletes
      rw [settled_totalAmount, hearned, hin.earned]
      exact hcompletes
    · rw [if_neg hd] at hsum
      have hst : (grant.settled now).status = grant.status := by
        rw [settled_status, if_neg hd]
      refine .inr ⟨?_, ?_, hrate, hpending, ?_, ?_⟩
      · rw [hst]
        exact hin.status
      · rw [hst, hactive]
        exact hin.active
      · rw [hearned, hin.earned, hsum]
      · have hnf := hin.not_full
        rw [settled_totalAmount, hsum]
        rcases not_completes hd with ⟨hzero, -⟩ | hlt
        · omega
        · rw [hwf.accounted_of_none hplain.validator] at hlt
          exact hlt

/-- What was read off a settled grant: its two balances are the stream's
earnings, capped. -/
theorem Tracks.sum_eq {grant : Grant} {s : RateStream Int} (h : grant.Tracks s) :
    grant.withdrawn + grant.claimable = min grant.totalAmount s.earned ∧
      (grant.withdrawn + grant.claimable < grant.totalAmount →
        (grant.status = .active ↔ s.active = true)) := by
  rcases h with hfull | hin
  · have hclaimed := hfull.claimed
    rw [min_eq_left hfull.earned]
    exact ⟨hclaimed, fun hlt => absurd hclaimed hlt.ne⟩
  · have hlt := hin.not_full
    rw [hin.earned, min_eq_right hlt.le]
    exact ⟨rfl, fun _ => hin.active.symm⟩

/-- A grant that was settled, or whose clock was restarted, does not lag behind. -/
theorem Tracks.lags {grant : Grant} {s : RateStream Int} {now : Nat} (h : grant.Tracks s)
    (hlast : grant.lastUpdateTs = now) : grant.Lags s now := by
  rcases h with hfull | hin
  · exact .inl hfull
  · refine .inr ⟨s, hin, ?_⟩
    rw [hlast, Nat.sub_self]
    rfl

/-- Balances that add up to the same keep a full grant full. -/
theorem Full.congr {grant m : Grant} {s s' : RateStream Int} (h : grant.Full s)
    (hsum : m.withdrawn + m.claimable = grant.withdrawn + grant.claimable)
    (htot : m.totalAmount = grant.totalAmount) (hearned : s'.earned = s.earned) : m.Full s' :=
  ⟨hsum.trans (h.claimed.trans htot.symm), by rw [htot, hearned]; exact h.earned⟩

theorem newGrant_inStep (now : Nat) (recipient : Address) {totalAmount flowRate : Int}
    (warmupDuration : Nat) (validator donor : Option Address) (token : Address)
    (htotal : 0 < totalAmount) :
    (newGrant now recipient totalAmount flowRate warmupDuration validator donor token).InStep
      (.start flowRate) where
  status := .inl rfl
  active := ⟨fun _ => rfl, fun _ => rfl⟩
  rate := rfl
  pending := .inr ⟨fun hlive => hlive.2 rfl, .of_none rfl⟩
  earned := rfl
  not_full := htotal

/-- Rescaling both rates: an increase stays pending, or rounds to the current rate. -/
theorem InStep.rescale_pending {grant : Grant} {s : RateStream Int} {multiplier : Int}
    (h : grant.InStep s) (hflow : 0 ≤ grant.flowRate) (hmultiplier : 0 < multiplier) {m : Grant}
    (hm : m.flowRate = (grant.flowRate * multiplier).tdiv 10000)
    (hm' : m.pendingRate = if 0 < grant.pendingRate then
      (grant.pendingRate * multiplier).tdiv 10000 else grant.pendingRate)
    (heffective : m.effectiveTimestamp = grant.effectiveTimestamp) :
    let s' := s.rescale fun r => (r * multiplier).tdiv 10000
    m.pendingLive ∧ s'.pending = some (m.pendingRate, m.effectiveTimestamp) ∨
      ¬m.pendingLive ∧ s'.Steady := by
  intro s'
  have hlive_of : m.pendingLive → grant.pendingLive := by
    unfold pendingLive
    rw [hm, hm', heffective]
    exact fun hlive => ⟨pendingLive_of_rescaled hflow hmultiplier hlive.1, hlive.2⟩
  rcases h.pending with ⟨hlive, hp⟩ | ⟨hdead, hsteady⟩
  · have hpos : 0 < grant.pendingRate := hflow.trans_lt hlive.1
    rw [if_pos hpos] at hm'
    have hp' : s'.pending = some (m.pendingRate, m.effectiveTimestamp) := by
      show s.pending.map _ = _
      rw [hp, hm', heffective]
      rfl
    by_cases hlive' : m.pendingLive
    · exact .inl ⟨hlive', hp'⟩
    -- the increase was rounded away: switching to it changes nothing
    · refine .inr ⟨hlive', fun r effective hr => ?_⟩
      rw [hp'] at hr
      cases hr
      show m.pendingRate = (s.rate * multiplier).tdiv 10000
      have hmul : grant.flowRate * multiplier ≤ grant.pendingRate * multiplier :=
        mul_le_mul_of_nonneg_right hlive.1.le hmultiplier.le
      have hle := Int.ediv_le_ediv (show (0 : Int) < 10000 by decide) hmul
      have hge : ¬m.flowRate < m.pendingRate := fun hlt => hlive' ⟨hlt, by
        rw [heffective]
        exact hlive.2⟩
      rw [← Int.tdiv_eq_ediv_of_nonneg (mul_nonneg hflow hmultiplier.le),
        ← Int.tdiv_eq_ediv_of_nonneg (mul_nonneg hpos.le hmultiplier.le), ← hm, ← hm'] at hle
      rw [h.rate, ← hm]
      omega
  · exact .inr ⟨fun hlive => hdead (hlive_of hlive), hsteady.rescale _⟩

end Grant

/-- **Every plain operation keeps the grant in its place behind the stream.** -/
theorem GrantStep.lags {now₀ now : Nat} {treasury : Option Address} {op : GrantOp}
    {a a' : Account} {payments : List Payment} (hstep : GrantStep now treasury op a a' payments)
    (hop : op.plain = true) (hplain : a.grant.Plain) (hwf : a.grant.WellFormed now₀)
    {s : RateStream Int} (h : a.grant.Lags s now) : a'.grant.Lags (op.drive now s) now := by
  have hearned := op.drive_earned now s
  cases hstep with
  | @withdraw g σ m e amount hs _ _ _ _ _ hm =>
      refine Grant.Tracks.lags ?_ (by rw [hm]; exact hs.lastUpdateTs)
      rcases h.settle hplain hwf hs with hfull | hin
      · exact .inl (hfull.congr (by rw [hm]; dsimp only; omega) (by rw [hm]) hearned)
      · subst hm
        refine .inr { hin with earned := ?_, not_full := ?_ }
        · rw [hearned, hin.earned]
          dsimp only
          omega
        · have := hin.not_full
          dsimp only
          omega
  | @pause g σ m e reason hs hstatus hm =>
      refine Grant.Tracks.lags ?_ (by rw [hm]; exact hs.lastUpdateTs)
      rcases h.settle hplain hwf hs with hfull | hin
      · exact .inl (hfull.congr (by rw [hm]) (by rw [hm]) hearned)
      · subst hm
        exact .inr { hin with
          status := .inr rfl
          active := by simp [GrantOp.drive, RateStream.setActive] }
  | @resume g m e hstatus hm =>
      refine Grant.Tracks.lags ?_ (by rw [hm])
      rcases h with hfull | ⟨s₀, hin, rfl⟩
      · exact .inl (hfull.congr (by rw [hm]) (by rw [hm]) hearned)
      · have hna : s₀.active = false := by
          rw [← Bool.not_eq_true, hin.active]
          exact fun ha => by cases hstatus.symm.trans ha
        rw [RateStream.advance_of_not_active hna]
        subst hm
        exact .inr { hin with status := .inl rfl, active := ⟨fun _ => rfl, fun _ => rfl⟩ }
  | @proposeIncrease g σ m e newRate hs hstatus hrate hfits hm =>
      refine Grant.Tracks.lags ?_ (by rw [hm]; exact hs.lastUpdateTs)
      rcases h.settle hplain hwf hs with hfull | hin
      · exact .inl (hfull.congr (by rw [hm]) (by rw [hm]) hearned)
      · have hdrive : (GrantOp.proposeRate newRate).drive now s =
            s.propose newRate (now + rateIncreaseTimelockSecs) := if_pos (by rw [hin.rate]; exact hrate)
        rw [hdrive]
        subst hm
        refine .inr { hin with pending := .inl ⟨⟨hrate, ?_⟩, rfl⟩ }
        show now + rateIncreaseTimelockSecs ≠ 0
        unfold rateIncreaseTimelockSecs
        omega
  | @proposeDecrease g σ m e newRate hs hstatus hnonneg hrate hm =>
      refine Grant.Tracks.lags ?_ (by rw [hm]; exact hs.lastUpdateTs)
      rcases h.settle hplain hwf hs with hfull | hin
      · exact .inl (hfull.congr (by rw [hm]) (by rw [hm]) hearned)
      · have hdrive : (GrantOp.proposeRate newRate).drive now s = s.setRate newRate :=
          if_neg (by rw [hin.rate]; omega)
        rw [hdrive]
        subst hm
        exact .inr { hin with
          rate := rfl
          pending := .inr ⟨fun hlive => hlive.2 rfl, .of_none rfl⟩ }
  | @applyKpi g σ m e multiplier hs hstatus hmultiplier hm =>
      refine Grant.Tracks.lags ?_ (by rw [hm]; exact hs.lastUpdateTs)
      rcases h.settle hplain hwf hs with hfull | hin
      · exact .inl (hfull.congr (by rw [hm]) (by rw [hm]) hearned)
      · have hflow := (hwf.of_settles hs).flowRate_nonneg
        have hpending := hin.rescale_pending hflow hmultiplier (m := m) (by rw [hm]) (by rw [hm])
          (by rw [hm])
        subst hm
        refine .inr { hin with rate := ?_, pending := hpending }
        show (s.rate * multiplier).tdiv 10000 = _
        rw [hin.rate]
  | changeGrantee _ _ hm =>
      subst hm
      rcases h with hfull | ⟨s₀, hin, rfl⟩
      · exact .inl { hfull with }
      · exact .inr ⟨s₀, { hin with }, rfl⟩
  | _ => cases hop

theorem GrantStep.plain {now : Nat} {treasury : Option Address} {op : GrantOp} {a a' : Account}
    {payments : List Payment} (hstep : GrantStep now treasury op a a' payments)
    (hop : op.plain = true) (h : a.grant.Plain) : a'.grant.Plain := by
  have hterms := hstep.sameTerms
  refine ⟨hterms.validator.trans h.validator, hterms.warmupDuration.trans h.warmupDuration, ?_⟩
  have hlegal := h.requiresLegalSignature
  cases hstep with
  | withdraw hs _ _ _ _ _ hm | pause hs _ hm | proposeIncrease hs _ _ _ hm
  | proposeDecrease hs _ _ _ hm | applyKpi hs _ _ hm =>
      subst hm
      rw [hs.eq_settled]
      exact (Grant.settled_requiresLegalSignature ..).trans hlegal
  | resume _ hm | changeGrantee _ _ hm =>
      subst hm
      exact hlegal
  | _ => cases hop

/-! ### Whole runs -/

/-- The ideal stream of `grantId` at `now`, after the run `trace` that ended at `timestamp`. -/
def idealAt (grantId : Nat) (flowRate : Int) (trace : Trace) (timestamp now : Nat) :
    RateStream Int :=
  (idealAfter grantId flowRate (life grantId trace)).advance timestamp (now - timestamp)

theorem Grant.Lags.mono {grant : Grant} {s : RateStream Int} {now now' : Nat}
    (h : grant.Lags s now) (hlast : grant.lastUpdateTs ≤ now) (hle : now ≤ now')
    (hs : s.Nonneg) : grant.Lags (s.advance now (now' - now)) now' := by
  rcases h with hfull | ⟨s₀, hin, rfl⟩
  · exact .inl ⟨hfull.claimed, hfull.earned.trans (hs.advance now (now' - now)).2⟩
  · refine .inr ⟨s₀, hin, ?_⟩
    -- the stream ran in one piece since the last settlement
    have hsplit : now' - grant.lastUpdateTs = (now - grant.lastUpdateTs) + (now' - now) := by omega
    have hnow : grant.lastUpdateTs + (now - grant.lastUpdateTs) = now := by omega
    rw [hsplit, RateStream.advance_add, hnow]

/-- A stored grant lags behind the stream that its operations drive. -/
theorem lags_of_reachable {trace : Trace} {env : Env} (h : Reachable trace env) {grantId : Nat}
    {g o : Grant} (hg : env.grants grantId = some g) (ho : origin grantId trace = some o)
    (hvalidator : o.validator = none) (hwarmup : o.warmupDuration = 0)
    (hplain : ∀ e ∈ life grantId trace, (performed grantId e).all GrantOp.plain = true) :
    g.Plain ∧ (idealAfter grantId o.flowRate (life grantId trace)).Nonneg ∧
      g.Lags (idealAfter grantId o.flowRate (life grantId trace)) env.timestamp := by
  have hinv := account_invariant_when
    (C := fun e => (performed grantId e).all GrantOp.plain = true)
    (P := fun o L now a => o.validator = none → o.warmupDuration = 0 →
      a.grant.Plain ∧ (idealAfter grantId o.flowRate L).Nonneg ∧
        a.grant.Lags (idealAfter grantId o.flowRate L) now)
    ?_ ?_ ?_ h hg hplain
  · obtain ⟨o', ho', hinv⟩ := hinv
    obtain rfl : o' = o := Option.some.inj (ho'.symm.trans ho)
    exact hinv hvalidator hwarmup
  · intro now recipient totalAmount flowRate warmupDuration validator donor token _ _ htotal hflow
      rfl hvalidator hwarmup
    refine ⟨⟨hvalidator, hwarmup, rfl⟩, .start hflow, ?_⟩
    exact Grant.Tracks.lags
      (.inr (Grant.newGrant_inStep now recipient warmupDuration validator donor token htotal)) rfl
  · intro o L e a _ hwf ih hle hop _ hvalidator hwarmup
    obtain ⟨hplain, hnonneg, hlags⟩ := ih hvalidator hwarmup
    unfold idealAfter
    rw [hop]
    exact ⟨hplain, (hnonneg.advance _ _).1, hlags.mono hwf.lastUpdateTs_le hle hnonneg⟩
  · intro o L e op a a' payments hplainOp hwf ih hle hop _ hstep hvalidator hwarmup
    obtain ⟨hplain, hnonneg, hlags⟩ := ih hvalidator hwarmup
    rw [hop] at hplainOp
    -- the stream runs on until the operation, and is driven by it
    have hlags := hlags.mono hwf.lastUpdateTs_le hle hnonneg
    unfold idealAfter
    rw [hop]
    exact ⟨hstep.plain hplainOp hplain, hstep.drive_nonneg hwf (hnonneg.advance _ _).1,
      hstep.lags hplainOp hplain hwf hlags⟩

/-- **Lazy settlement refines the ideal stream.** Whenever a grant without
validator and warmup, on which only plain operations were performed, can be
settled, its two balances are what the ideal stream has earned by then, capped
at the total amount, and until the cap is reached the grant is active exactly
while the stream is. -/
theorem settlement_refines_ideal_stream {trace : Trace} {env : Env} (h : Reachable trace env)
    {grantId : Nat} {g o p : Grant} {now : Nat} (hg : env.grants grantId = some g)
    (ho : origin grantId trace = some o) (hvalidator : o.validator = none)
    (hwarmup : o.warmupDuration = 0)
    (hplain : ∀ e ∈ life grantId trace, (performed grantId e).all GrantOp.plain = true)
    (hnow : env.timestamp ≤ now) (hp : settleGrant g now = .ok p) :
    let s := idealAt grantId o.flowRate trace env.timestamp now
    p.withdrawn + p.claimable = min p.totalAmount s.earned ∧
      (p.withdrawn + p.claimable < p.totalAmount → (p.status = .active ↔ s.active = true)) := by
  have hwf := wellFormed_of_reachable h hg
  obtain ⟨hplain, hnonneg, hlags⟩ := lags_of_reachable h hg ho hvalidator hwarmup hplain
  have hlags := hlags.mono hwf.lastUpdateTs_le hnow hnonneg
  exact (hlags.settle hplain hwf (settleGrant_eq_ok hp)).sum_eq

/-- A stream that is withdrawn from, paused, resumed, halved and raised. -/
theorem settlement_refines_ideal_stream_of_resumed_stream :
    let run := history Demo.env (Demo.setUp 100000000 ++
      [Demo.call 1 (.createGrant 7 Demo.grantee 60000000 1000000 0 none none),
        Demo.call 21 (.withdraw 7 12000000), Demo.call 31 (.pauseStream 7 none),
        Demo.call 41 (.resumeStream 7), Demo.call 51 (.applyKpiMultiplier 7 5000),
        Demo.call 61 (.proposeRateChange 7 2000000)])
    ∃ g p, run.2.grants 7 = some g ∧ settleGrant g 66 = .ok p ∧ p.withdrawn + p.claimable =
      min p.totalAmount (idealAt 7 1000000 run.1 run.2.timestamp 66).earned := by
  intro run
  have hrun : Reachable run.1 run.2 := history_reachable Demo.env_deployed (by decide)
  exact ⟨_, _, rfl, rfl, (@settlement_refines_ideal_stream _ _ hrun 7 _ _ _ 66 rfl rfl rfl rfl
    (by decide) (by decide) rfl).1⟩

end YieldTrust.GrantStream
