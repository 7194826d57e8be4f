import YieldTrust.GrantStream.Invariants
import YieldTrust.GrantStream.PendingRate

/-!
# YieldTrust.GrantStream.TimeFlow

How the balances of an active grant move when only time passes. What accrues and
both shares of it grow with time. The cap at the end of the stream is taken off
the grantee's share alone: once the grant is accounted for in full, every second
moves claimable balance to the validator.
-/

namespace YieldTrust.GrantStream

/-! ### One budget and two shares -/

/-- Of two amounts that are both credited more, the net one is capped by `room`.
It does not shrink exactly if it was used up already or the growth of the share
`v` fits in what `room` left. -/
theorem cappedNet_le_iff {room x₁ x₂ v₁ v₂ : Int} (hx : x₁ ≤ x₂)
    (hnet : x₁ - v₁ ≤ x₂ - v₂) :
    max (min room x₁ - v₁) 0 ≤ max (min room x₂ - v₂) 0 ↔
      min room x₁ ≤ v₁ ∨ v₂ - v₁ ≤ max (room - x₁) 0 := by
  omega

/-- The net amount together with the share never shrinks. -/
theorem cappedNet_add_le {room x₁ x₂ v₁ v₂ : Int} (hx : x₁ ≤ x₂) (hv : v₁ ≤ v₂) :
    max (min room x₁ - v₁) 0 + v₁ ≤ max (min room x₂ - v₂) 0 + v₂ := by
  omega

namespace Grant

/-- What the total amount leaves for `claimable`; negative if the validator has
been credited too much. -/
def room (grant : Grant) : Int :=
  grant.totalAmount - (grant.withdrawn + grant.validatorWithdrawn + grant.validatorClaimable)

/-- `claimable` is within what the total amount leaves for it. -/
def WithinRoom (grant : Grant) : Prop := grant.claimable ≤ max grant.room 0

/-- The claimable balance after a settlement: what is credited up to the room,
less what the validator gets of it. -/
theorem settled_claimable_eq {grant : Grant} {now₀ : Nat} (h : grant.WellFormed now₀)
    (hroom : grant.WithinRoom) (now : Nat) :
    (grant.settled now).claimable =
      max (min grant.room (grant.claimable + grant.dueAccrual now) - grant.dueShare now) 0 := by
  have hc := h.claimable_nonneg
  have hle := h.rates.dueShare_le now
  have hdue := h.rates.dueAccrual now
  unfold WithinRoom at hroom
  rw [settled_claimable]
  by_cases hd : grant.completes now
  · have hfull := hd.2.2
    unfold accounted at hfull
    unfold room
    rw [if_pos hd]
    omega
  · rw [if_neg hd]
    rcases not_completes hd with ⟨ha, hs⟩ | hlt
    · omega
    · unfold accounted at hlt
      unfold room at hroom ⊢
      omega

theorem settled_room (grant : Grant) (now : Nat) :
    (grant.settled now).room = grant.room - grant.dueShare now := by
  simp only [room, settled_totalAmount, settled_withdrawn, settled_validatorWithdrawn,
    settled_validatorClaimable]
  omega

theorem WithinRoom.settled {grant : Grant} {now₀ : Nat} (hroom : grant.WithinRoom)
    (h : grant.WellFormed now₀) (now : Nat) : (grant.settled now).WithinRoom := by
  unfold WithinRoom
  rw [settled_claimable_eq h hroom, settled_room]
  omega

theorem WithinRoom.of_settles {grant s : Grant} {now₀ now : Nat} (hroom : grant.WithinRoom)
    (h : grant.WellFormed now₀) (hs : Settles grant now s) : s.WithinRoom := by
  rw [hs.eq_settled]
  exact hroom.settled h now

/-- Every operation keeps `claimable` within the room. -/
theorem WithinRoom.step {now₀ now : Nat} {treasury : Option Address} {op : GrantOp}
    {a a' : Account} {payments : List Payment} (hroom : a.grant.WithinRoom)
    (h : a.grant.WellFormed now₀) (hstep : GrantStep now treasury op a a' payments) :
    a'.grant.WithinRoom := by
  cases hstep with
  | withdraw hs hamount _ _ _ hle hm =>
      have hroom := hroom.of_settles h hs
      subst hm
      unfold WithinRoom room at hroom ⊢
      dsimp only
      omega
  | withdrawValidator hs _ _ _ _ hm =>
      have hroom := hroom.of_settles h hs
      subst hm
      unfold WithinRoom room at hroom ⊢
      dsimp only
      omega
  | rageQuit hs _ _ hm =>
      subst hm
      unfold WithinRoom
      exact le_max_right _ _
  | pause hs _ hm | proposeIncrease hs _ _ _ hm | proposeDecrease hs _ _ _ hm | applyKpi hs _ _ hm
  | cancel hs _ _ hm | clawbackNothing hs _ _ hm | clawbackContested hs _ _ hm
  | clawbackToDonor hs _ _ _ hm =>
      have hroom := hroom.of_settles h hs
      subst hm
      exact hroom
  | resolveToGrantee _ hamount _ _ hm =>
      subst hm
      unfold WithinRoom room at hroom ⊢
      dsimp only at hroom ⊢
      omega
  | resume _ hm | changeGrantee _ _ hm | setLegal hm | signLegal _ hm =>
      subst hm
      exact hroom
  | resolveToDonor => exact hroom

end Grant

theorem withinRoom_of_reachable {trace : Trace} {env : Env} (h : Reachable trace env)
    {grantId : Nat} {g : Grant} (hg : env.grants grantId = some g) : g.WithinRoom := by
  have hinv := account_invariant
    (P := fun _ _ now a => a.grant.WellFormed now ∧ a.grant.WithinRoom) ?_ ?_ ?_ h hg
  · obtain ⟨o, -, -, hroom⟩ := hinv
    exact hroom
  · intro now recipient totalAmount flowRate warmupDuration validator donor token _ _ htotal hflow
      hrange rfl
    exact ⟨.newGrant now recipient warmupDuration validator donor token htotal hflow hrange,
      le_max_right _ _⟩
  · intro o L e a ⟨hwf, hroom⟩ hle _ _
    exact ⟨hwf.mono hle, hroom⟩
  · intro o L e op a a' payments ⟨hwf, hroom⟩ hle _ _ hstep _ _
    exact ⟨hwf.step hle hstep, hroom.step hwf hstep⟩

/-! ### What accrues grows with time -/

namespace Grant

theorem warmupProgress_mono (grant : Grant) {t₁ t₂ : Nat} (h : t₁ ≤ t₂) :
    grant.warmupProgress t₁ ≤ grant.warmupProgress t₂ := by
  unfold warmupProgress
  rw [Int.tdiv_eq_ediv_of_nonneg (by omega), Int.tdiv_eq_ediv_of_nonneg (by omega)]
  by_cases hw : grant.warmupDuration = 0
  · simp [hw]
  · exact Int.ediv_le_ediv (by omega) (by omega)

/-- The ramp only rises. -/
theorem warmupBps_mono (grant : Grant) {t₁ t₂ : Nat} (h : t₁ ≤ t₂) :
    grant.warmupBps t₁ ≤ grant.warmupBps t₂ := by
  by_cases hend : grant.warmupDuration = 0 ∨ grant.startTime + grant.warmupDuration ≤ t₂
  · have hfull : grant.warmupBps t₂ = 10000 := if_pos hend
    rw [hfull]
    exact grant.warmupBps_le t₁
  · have hend₁ : ¬(grant.warmupDuration = 0 ∨ grant.startTime + grant.warmupDuration ≤ t₁) := by
      omega
    have hp₁ := grant.warmupProgress_nonneg t₁
    have hp₂ := grant.warmupProgress_nonneg t₂
    have hp := grant.warmupProgress_mono h
    simp only [warmupBps, if_neg hend, if_neg hend₁]
    rw [Int.tdiv_eq_ediv_of_nonneg (by omega), Int.tdiv_eq_ediv_of_nonneg (by omega)]
    split_ifs <;> omega

theorem accrual_mono (grant : Grant) {rate : Int} (hrate : 0 ≤ rate) {e₁ e₂ t₁ t₂ : Nat}
    (he : e₁ ≤ e₂) (ht : t₁ ≤ t₂) : grant.accrual rate e₁ t₁ ≤ grant.accrual rate e₂ t₂ := by
  have hb₁ := grant.warmupBps_nonneg t₁
  have hx₁ : 0 ≤ rate * (e₁ : Int) := mul_nonneg hrate (by omega)
  have hx : rate * (e₁ : Int) ≤ rate * (e₂ : Int) :=
    mul_le_mul_of_nonneg_left (by omega) hrate
  have hprod : rate * (e₁ : Int) * grant.warmupBps t₁ ≤ rate * (e₂ : Int) * grant.warmupBps t₂ :=
    mul_le_mul hx (grant.warmupBps_mono ht) hb₁ (hx₁.trans hx)
  have hnonneg := mul_nonneg hx₁ hb₁
  unfold accrual
  rw [Int.tdiv_eq_ediv_of_nonneg hnonneg, Int.tdiv_eq_ediv_of_nonneg (hnonneg.trans hprod)]
  exact Int.ediv_le_ediv (by decide) hprod

/-- Both parts of a growing amount grow. -/
theorem validatorShare_mono (grant : Grant) {a b : Int} (ha : 0 ≤ a) (h : a ≤ b) :
    grant.validatorShare a ≤ grant.validatorShare b ∧
      a - grant.validatorShare a ≤ b - grant.validatorShare b := by
  by_cases hv : grant.validator.isSome = true
  · simp only [validatorShare, hv, true_and]
    rw [Int.tdiv_eq_ediv_of_nonneg (by omega), Int.tdiv_eq_ediv_of_nonneg (by omega)]
    split_ifs <;> omega
  · simpa [validatorShare, hv] using h

/-- The part before a pending rate stops growing when the rate takes effect. -/
theorem firstAccrual_mono {grant : Grant} (h : grant.RatesNonneg) {t₁ t₂ : Nat} (ht : t₁ ≤ t₂) :
    grant.firstAccrual t₁ ≤ grant.firstAccrual t₂ := by
  unfold firstAccrual
  by_cases h₁ : grant.pendingRateDue t₁ = true
  · have h₂ := pendingRateDue_mono ht h₁
    rw [if_pos h₁, if_pos h₂]
  · rw [if_neg h₁]
    by_cases h₂ : grant.pendingRateDue t₂ = true
    · obtain ⟨hlive, -⟩ := pendingRateDue_iff.mp h₂
      have hlt : t₁ ≤ grant.effectiveTimestamp := by
        by_contra hge
        exact h₁ (pendingRateDue_iff.mpr ⟨hlive, by omega⟩)
      rw [if_pos h₂]
      exact grant.accrual_mono h.flowRate (by omega) hlt
    · rw [if_neg h₂]
      exact grant.accrual_mono h.flowRate (by omega) ht

theorem secondAccrual_mono {grant : Grant} (h : grant.RatesNonneg) {t₁ t₂ : Nat} (ht : t₁ ≤ t₂) :
    grant.secondAccrual t₁ ≤ grant.secondAccrual t₂ := by
  by_cases h₁ : grant.pendingRateDue t₁ = true
  · have h₂ := pendingRateDue_mono ht h₁
    unfold secondAccrual
    rw [if_pos h₁, if_pos h₂]
    exact grant.accrual_mono h.pendingRate (by omega) ht
  · have hzero : grant.secondAccrual t₁ = 0 := if_neg h₁
    rw [hzero]
    exact h.secondAccrual t₂

/-- What a settlement credits, to the validator and to the grantee, grows with time. -/
theorem due_mono {grant : Grant} (h : grant.RatesNonneg) {t₁ t₂ : Nat}
    (hlast : grant.lastUpdateTs ≤ t₁) (ht : t₁ ≤ t₂) :
    grant.dueShare t₁ ≤ grant.dueShare t₂ ∧
      grant.dueAccrual t₁ - grant.dueShare t₁ ≤ grant.dueAccrual t₂ - grant.dueShare t₂ := by
  by_cases h₁ : grant.accrues t₁
  · have h₂ : grant.accrues t₂ := ⟨by have := h₁.1; omega, h₁.2⟩
    have hfirst := grant.validatorShare_mono (h.firstAccrual t₁) (firstAccrual_mono h ht)
    have hsecond := grant.validatorShare_mono (h.secondAccrual t₁) (secondAccrual_mono h ht)
    simp only [dueAccrual, dueShare, newAccrual, newValidatorShare, if_pos h₁, if_pos h₂]
    omega
  · have hzero : grant.dueAccrual t₁ = 0 ∧ grant.dueShare t₁ = 0 := ⟨if_neg h₁, if_neg h₁⟩
    have hshare := grant.dueShare_nonneg t₂
    have hle := h.dueShare_le t₂
    omega

end Grant

/-! ### Settling later -/

/-- Nothing that can be claimed of `s₁` is missing in `s₂`. -/
structure FlowsForward (s₁ s₂ : Grant) : Prop where
  claimable : s₁.claimable ≤ s₂.claimable
  validatorClaimable : s₁.validatorClaimable ≤ s₂.validatorClaimable
  sum : s₁.claimable + s₁.validatorClaimable ≤ s₂.claimable + s₂.validatorClaimable

/-- The share that the validator is credited between `t₁` and `t₂` fits in what
the total amount leaves at `t₁`, or nothing was left for the grantee by then. -/
def Grant.ShareFitsBetween (grant : Grant) (t₁ t₂ : Nat) : Prop :=
  min grant.room (grant.claimable + grant.dueAccrual t₁) ≤ grant.dueShare t₁ ∨
    grant.dueShare t₂ - grant.dueShare t₁ ≤
      max (grant.room - (grant.claimable + grant.dueAccrual t₁)) 0

instance (grant : Grant) (t₁ t₂ : Nat) : Decidable (grant.ShareFitsBetween t₁ t₂) :=
  inferInstanceAs (Decidable (_ ∨ _))

namespace Grant

theorem settled_flowsForward_iff {grant : Grant} {now₀ : Nat} (h : grant.WellFormed now₀)
    (hroom : grant.WithinRoom) {t₁ t₂ : Nat} (hlast : grant.lastUpdateTs ≤ t₁) (ht : t₁ ≤ t₂) :
    FlowsForward (grant.settled t₁) (grant.settled t₂) ↔ grant.ShareFitsBetween t₁ t₂ := by
  obtain ⟨hshare, hnet⟩ := due_mono h.rates hlast ht
  have hcredit : grant.claimable + grant.dueAccrual t₁ ≤ grant.claimable + grant.dueAccrual t₂ := by
    omega
  have hkept : grant.claimable + grant.dueAccrual t₁ - grant.dueShare t₁ ≤
      grant.claimable + grant.dueAccrual t₂ - grant.dueShare t₂ := by
    omega
  have hiff := @cappedNet_le_iff grant.room _ _ _ _ hcredit hkept
  have hsum := @cappedNet_add_le grant.room _ _ _ _ hcredit hshare
  rw [← settled_claimable_eq h hroom, ← settled_claimable_eq h hroom] at hiff hsum
  constructor
  · intro hflow
    exact hiff.mp hflow.claimable
  · intro hfits
    refine ⟨hiff.mpr hfits, ?_, ?_⟩
    · rw [settled_validatorClaimable, settled_validatorClaimable]
      omega
    · rw [settled_validatorClaimable, settled_validatorClaimable]
      omega

/-- Without a validator nothing is taken off the grantee's share. -/
theorem shareFitsBetween_of_none {grant : Grant} (h : grant.validator = none) (t₁ t₂ : Nat) :
    grant.ShareFitsBetween t₁ t₂ := by
  right
  rw [dueShare_of_none h, dueShare_of_none h]
  exact le_max_right _ _

/-- As long as the stream does not end by `t₂`, the share fits. -/
theorem shareFitsBetween_of_not_full {grant : Grant} (h : grant.RatesNonneg) {t₁ t₂ : Nat}
    (hlast : grant.lastUpdateTs ≤ t₁) (ht : t₁ ≤ t₂)
    (hlt : grant.accounted + grant.dueAccrual t₂ ≤ grant.totalAmount) :
    grant.ShareFitsBetween t₁ t₂ := by
  obtain ⟨hshare, hnet⟩ := due_mono h hlast ht
  right
  unfold room
  unfold accounted at hlt
  omega

end Grant

/-- **Time flow.** Settling an active grant at `t₂` instead of `t₁ ≤ t₂` takes
nothing away exactly if the validator's share of the time between fits in what
the total amount leaves at `t₁`. -/
theorem time_flow_monotone_iff {trace : Trace} {env : Env} (h : Reachable trace env) {grantId : Nat}
    {g s₁ s₂ : Grant} {t₁ t₂ : Nat} (hg : env.grants grantId = some g)
    (_hactive : g.status = .active) (ht : t₁ ≤ t₂) (h₁ : settleGrant g t₁ = .ok s₁)
    (h₂ : settleGrant g t₂ = .ok s₂) : FlowsForward s₁ s₂ ↔ g.ShareFitsBetween t₁ t₂ := by
  have hwf := wellFormed_of_reachable h hg
  have hs₁ := settleGrant_eq_ok h₁
  rw [hs₁.eq_settled, (settleGrant_eq_ok h₂).eq_settled]
  exact Grant.settled_flowsForward_iff hwf (withinRoom_of_reachable h hg) hs₁.lastUpdateTs_le ht

/-- A grant of 1000 with a warmup and a validator, settled twice before its end. -/
theorem time_flow_monotone_of_running_stream :
    let run := history Demo.env (Demo.setUp 1000 ++
      [Demo.call 1 (.createGrant 7 Demo.grantee 1000 20 60 (some Demo.validator) none)])
    ∃ g s₁ s₂, run.2.grants 7 = some g ∧ settleGrant g 11 = .ok s₁ ∧ settleGrant g 31 = .ok s₂ ∧
      FlowsForward s₁ s₂ := by
  intro run
  have hrun : Reachable run.1 run.2 := history_reachable Demo.env_deployed (by decide)
  exact ⟨_, _, _, rfl, rfl, rfl,
    (@time_flow_monotone_iff _ _ hrun 7 _ _ _ 11 31 rfl rfl (by decide) rfl rfl).mpr (by decide)⟩

/-- A grant of 100 that streams 10 a second: at its end 95 are claimable, ten
seconds later 90. -/
theorem time_flow_past_the_end :
    ¬∀ trace env grantId g s₁ s₂ t₁ t₂, Reachable trace env → env.grants grantId = some g →
      g.status = .active → t₁ ≤ t₂ → settleGrant g t₁ = .ok s₁ → settleGrant g t₂ = .ok s₂ →
      FlowsForward s₁ s₂ := by
  intro h
  let run := history Demo.env (Demo.setUp 1000 ++
    [Demo.call 1 (.createGrant 7 Demo.grantee 100 10 0 (some Demo.validator) none)])
  have hrun : Reachable run.1 run.2 := history_reachable Demo.env_deployed (by decide)
  have hflow := (h run.1 run.2 7 _ _ _ 11 21 hrun rfl rfl (by decide) rfl rfl).claimable
  exact absurd hflow (by decide)

end YieldTrust.GrantStream
