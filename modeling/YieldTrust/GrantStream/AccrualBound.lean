import YieldTrust.GrantStream.Streaming

/-!
# YieldTrust.GrantStream.AccrualBound

The accrual rate invariant: what is accounted for never exceeds what the grant
streamed in the seconds in which it was stored as active, at the rate in force.
-/

namespace YieldTrust.GrantStream

namespace Grant

/-- The rate in force at the second `t`: a pending increase counts from its
effective timestamp on. -/
def rateInForce (grant : Grant) (t : Nat) : Int :=
  if grant.pendingLive ∧ grant.effectiveTimestamp ≤ t then grant.pendingRate else grant.flowRate

/-- Only an active grant earns. -/
def earning (grant : Grant) (t : Nat) : Int :=
  if grant.status = .active then grant.rateInForce t else 0

theorem RatesNonneg.earning {grant : Grant} (h : grant.RatesNonneg) (t : Nat) :
    0 ≤ grant.earning t := by
  unfold Grant.earning rateInForce
  split_ifs
  · exact h.pendingRate
  · exact h.flowRate
  · exact le_refl 0

theorem earning_of_lt {grant : Grant} {t : Nat} (ha : grant.status = .active)
    (h : grant.pendingLive → t < grant.effectiveTimestamp) : grant.earning t = grant.flowRate := by
  unfold earning rateInForce
  rw [if_pos ha, if_neg fun hd => by have := h hd.1; omega]

theorem earning_of_ge {grant : Grant} {t : Nat} (ha : grant.status = .active)
    (hlive : grant.pendingLive) (h : grant.effectiveTimestamp ≤ t) :
    grant.earning t = grant.pendingRate := by
  unfold earning rateInForce
  rw [if_pos ha, if_pos ⟨hlive, h⟩]

theorem earning_congr {grant grant' : Grant} (hst : grant'.status = grant.status)
    (hflow : grant'.flowRate = grant.flowRate) (hpending : grant'.pendingRate = grant.pendingRate)
    (heffective : grant'.effectiveTimestamp = grant.effectiveTimestamp) (t : Nat) :
    grant'.earning t = grant.earning t := by
  have hlive : grant'.pendingLive ↔ grant.pendingLive := by
    unfold pendingLive
    rw [hflow, hpending, heffective]
  have hrate : grant'.rateInForce t = grant.rateInForce t := by
    unfold rateInForce
    rw [hpending, hflow]
    exact if_congr (by rw [hlive, heffective]) rfl rfl
  unfold earning
  rw [hst, hrate]

/-- A settlement credits at most what was earned since the last one. -/
theorem dueAccrual_le_earned {grant m : Grant} {now : Nat} (h : grant.RatesNonneg)
    (hs : Settles grant now m) :
    grant.dueAccrual now ≤ grant.overTime earning grant.lastUpdateTs now := by
  have hle := hs.lastUpdateTs_le
  by_cases ha : grant.accrues now
  · have hactive := ha.2.1
    unfold dueAccrual newAccrual firstAccrual secondAccrual
    rw [if_pos ha]
    by_cases hd : grant.pendingRateDue now = true
    -- two segments, each bounded by the rate in force during it
    · obtain ⟨hlive, hdue⟩ := pendingRateDue_iff.mp hd
      have hswitch := hs.switch ha.1 ha.2 hd
      have hfirst : grant.overTime earning grant.lastUpdateTs grant.effectiveTimestamp = _ :=
        overTime_const fun t _ hlt => earning_of_lt hactive fun _ => hlt
      have hsecond : grant.overTime earning grant.effectiveTimestamp now = _ :=
        overTime_const fun t hge _ => earning_of_ge hactive hlive hge
      rw [if_pos hd, if_pos hd, ← overTime_add grant hswitch hdue, hfirst, hsecond]
      exact add_le_add (accrual_le grant h.flowRate _ _) (accrual_le grant h.pendingRate _ _)
    · have hall : grant.overTime earning grant.lastUpdateTs now = _ :=
        overTime_const fun t _ hlt => earning_of_lt hactive fun hlive => by
          by_contra hge
          exact hd (pendingRateDue_iff.mpr ⟨hlive, by omega⟩)
      rw [if_neg hd, if_neg hd, hall, add_zero]
      exact accrual_le grant h.flowRate _ _
  · unfold dueAccrual
    rw [if_neg ha]
    exact overTime_nonneg h.earning _ _

/-- The cap only ever lowers what is accounted for. -/
theorem settled_accounted_le {grant : Grant} {now₀ : Nat} (h : grant.WellFormed now₀) (now : Nat) :
    (grant.settled now).accounted ≤ grant.accounted + grant.dueAccrual now := by
  have hc := h.claimable_nonneg
  have hshare := h.rates.dueShare_le now
  rw [settled_accounted]
  by_cases hd : grant.completes now
  · have hfull := hd.2.2
    rw [if_pos hd]
    unfold accounted at hfull ⊢
    omega
  · rw [if_neg hd]

/-- What the grant is accounted for, with what it has earned since its last
settlement, is at most `total`. -/
def EarnedWithin (grant : Grant) (total : Int) (now : Nat) : Prop :=
  grant.accounted + grant.overTime earning grant.lastUpdateTs now ≤ total

theorem EarnedWithin.settles {grant s : Grant} {total : Int} {now₀ now : Nat}
    (h : grant.EarnedWithin total now) (hwf : grant.WellFormed now₀) (hs : Settles grant now s) :
    s.accounted ≤ total := by
  have hdue := dueAccrual_le_earned hwf.rates hs
  have hle := settled_accounted_le hwf now
  unfold EarnedWithin at h
  rw [hs.eq_settled]
  omega

theorem EarnedWithin.mono {grant : Grant} {total : Int} {now now' : Nat}
    (h : grant.EarnedWithin total now) (hlast : grant.lastUpdateTs ≤ now) (hle : now ≤ now') :
    grant.EarnedWithin (grant.overTime earning now now' + total) now' := by
  unfold EarnedWithin at h ⊢
  rw [← overTime_add grant hlast hle]
  omega

end Grant

/-- No operation credits more than was earned. -/
theorem GrantStep.earnedWithin {now₀ now : Nat} {treasury : Option Address} {op : GrantOp}
    {a a' : Account} {payments : List Payment} {total : Int}
    (hstep : GrantStep now treasury op a a' payments) (hwf : a.grant.WellFormed now₀)
    (h : a.grant.EarnedWithin total now) : a'.grant.EarnedWithin total now := by
  unfold Grant.EarnedWithin
  have hearned : 0 ≤ a.grant.overTime Grant.earning a.grant.lastUpdateTs now :=
    Grant.overTime_nonneg hwf.rates.earning _ _
  rcases hstep.accounted with ⟨hsettles, s, hs, hacc, -⟩ | ⟨-, hacc, -⟩
  · have hle := h.settles hwf hs
    rcases hstep.clock with hlast | ⟨hno, -⟩
    · rw [hlast, hacc, Grant.overTime_self]
      omega
    · rw [hsettles] at hno
      cases hno
  · unfold Grant.EarnedWithin at h
    rcases hstep.clock with hlast | ⟨-, hlast, hst, hflow, hpending, heffective⟩
    · -- the clock was restarted without a settlement: what was earned is lost
      rw [hlast, hacc, Grant.overTime_self]
      omega
    · rw [hlast, hacc,
        Grant.overTime_congr (Grant.earning_congr hst hflow hpending heffective)]
      exact h

/-- An increase becomes pending by a proposal, with the timelock still to run. -/
theorem GrantStep.pendingLive {now₀ now : Nat} {treasury : Option Address} {op : GrantOp}
    {a a' : Account} {payments : List Payment} (hstep : GrantStep now treasury op a a' payments)
    (hwf : a.grant.WellFormed now₀) (hlive : a'.grant.pendingLive) :
    (a.grant.pendingLive ∧ a'.grant.effectiveTimestamp = a.grant.effectiveTimestamp) ∨
      ∃ newRate, op = .proposeRate newRate ∧
        a'.grant.effectiveTimestamp = now + rateIncreaseTimelockSecs := by
  have hsettled {g s : Grant} (hs : Settles g now s) (hwf : g.WellFormed now₀)
      (hlive : s.pendingLive) :
      g.pendingLive ∧ s.effectiveTimestamp = g.effectiveTimestamp := by
    obtain rfl := hs.eq_settled
    by_cases hsw : g.switches now
    · exact absurd (Grant.settled_of_switches hsw).2.2 hlive.2
    · obtain ⟨hflow, hpending, heffective⟩ := Grant.settled_of_not_switches hsw
      unfold Grant.pendingLive at hlive
      rw [hflow, hpending, heffective] at hlive
      exact ⟨hlive, heffective⟩
  cases hstep with
  | withdraw hs _ _ _ _ _ hm | withdrawValidator hs _ _ _ _ hm | pause hs _ hm
  | rageQuit hs _ _ hm | cancel hs _ _ hm | clawbackNothing hs _ _ hm
  | clawbackContested hs _ _ hm | clawbackToDonor hs _ _ _ hm =>
      subst hm
      have hkept := hsettled hs hwf hlive
      exact .inl hkept
  | proposeIncrease _ _ _ _ hm =>
      subst hm
      exact .inr ⟨_, rfl, rfl⟩
  | proposeDecrease _ _ _ _ hm =>
      subst hm
      exact absurd rfl hlive.2
  | applyKpi hs _ hmultiplier hm =>
      have hflow := (hwf.of_settles hs).flowRate_nonneg
      subst hm
      have hkept := hsettled hs hwf
        ⟨pendingLive_of_rescaled hflow hmultiplier hlive.1, hlive.2⟩
      exact .inl hkept
  | resume _ hm | changeGrantee _ _ hm | resolveToGrantee _ _ _ _ hm | setLegal hm
  | signLegal _ hm =>
      subst hm
      exact .inl ⟨hlive, rfl⟩
  | resolveToDonor => exact .inl ⟨hlive, rfl⟩

/-- The steps `L` propose a rate change whose timelock ends at `effective`. -/
def ProposedFor (grantId : Nat) (L : Trace) (effective : Nat) : Prop :=
  ∃ e ∈ L, ∃ newRate, performed grantId e = some (.proposeRate newRate) ∧
    effective = e.action.timestamp + rateIncreaseTimelockSecs

theorem ProposedFor.cons {grantId : Nat} {L : Trace} {effective : Nat}
    (h : ProposedFor grantId L effective) (e : Run.Step Env Event) :
    ProposedFor grantId (e :: L) effective := by
  obtain ⟨e', he', h⟩ := h
  exact ⟨e', List.mem_cons_of_mem e he', h⟩

end YieldTrust.GrantStream
