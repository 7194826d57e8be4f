import YieldTrust.GrantStream.Supply

/-!
# YieldTrust.GrantStream.ValidatorShare

How much the validator of a grant gets in all. Every settlement credits 5% of
what elapsed since the last one, and nothing compares the sum with 5% of the
total amount: a settlement that comes after the end of the stream credits the
validator for time that the grantee is not paid for.
-/

namespace YieldTrust.GrantStream

namespace Grant

/-- What the validator has been credited. -/
def validatorTotal (grant : Grant) : Int := grant.validatorWithdrawn + grant.validatorClaimable

/-- 5% of the total amount. -/
def shareLimit (grant : Grant) : Int := grant.totalAmount * 500 / 10000

/-- The validator has its 5% at most, and a completed grant leaves 95% to the grantee. -/
structure ValidatorCapped (grant : Grant) : Prop where
  within : grant.validatorTotal ≤ grant.shareLimit
  none : grant.validator = none → grant.validatorWithdrawn = 0 ∧ grant.validatorClaimable = 0
  completed : grant.status = .completed →
    grant.totalAmount * 95 ≤ (grant.withdrawn + grant.claimable) * 100

/-- What a settlement at `now` credits to the validator fits in its 5%. -/
def DueShareFits (grant : Grant) (now : Nat) : Prop :=
  grant.validatorTotal + grant.dueShare now ≤ grant.shareLimit

instance (grant : Grant) (now : Nat) : Decidable (grant.DueShareFits now) :=
  inferInstanceAs (Decidable (_ ≤ _))

/-- Completed grants are accounted for in full. -/
def FullIfCompleted (grant : Grant) : Prop :=
  grant.status = .completed → grant.totalAmount ≤ grant.accounted

@[simp] theorem settled_validatorTotal (grant : Grant) (now : Nat) :
    (grant.settled now).validatorTotal = grant.validatorTotal + grant.dueShare now := by
  simp only [validatorTotal, settled_validatorWithdrawn, settled_validatorClaimable]
  omega

/-- Everything else follows from the bound on the validator's amounts. -/
theorem validatorCapped_iff {grant : Grant} {now : Nat} (h : grant.WellFormed now)
    (hfull : grant.FullIfCompleted) :
    grant.ValidatorCapped ↔ grant.validatorTotal ≤ grant.shareLimit := by
  constructor
  · exact ValidatorCapped.within
  · intro hle
    refine ⟨hle, h.validator_zero, fun hstatus => ?_⟩
    have hfull := hfull hstatus
    unfold accounted at hfull
    unfold validatorTotal shareLimit at hle
    omega

theorem FullIfCompleted.settled {grant : Grant} (h : grant.FullIfCompleted) (now : Nat) :
    (grant.settled now).FullIfCompleted := by
  intro hstatus
  rw [settled_status] at hstatus
  rw [settled_totalAmount, settled_accounted]
  by_cases hd : grant.completes now
  · rw [if_pos hd]
    exact le_max_left _ _
  · rw [if_neg hd] at hstatus ⊢
    have hzero : grant.dueAccrual now = 0 := dueAccrual_of_not_active (by simp [hstatus]) now
    rw [hzero, add_zero]
    exact h hstatus

theorem FullIfCompleted.of_settles {grant s : Grant} {now : Nat} (h : grant.FullIfCompleted)
    (hs : Settles grant now s) : s.FullIfCompleted := by
  rw [hs.eq_settled]
  exact h.settled now

/-- No operation completes a grant but the settlement in front of it. -/
theorem FullIfCompleted.step {now : Nat} {treasury : Option Address} {op : GrantOp}
    {a a' : Account} {payments : List Payment} (h : a.grant.FullIfCompleted)
    (hstep : GrantStep now treasury op a a' payments) : a'.grant.FullIfCompleted := by
  cases hstep with
  | withdraw hs _ _ _ _ _ hm | withdrawValidator hs _ _ _ _ hm =>
      have h := h.of_settles hs
      subst hm
      unfold FullIfCompleted accounted at h ⊢
      dsimp only
      intro hstatus
      have := h hstatus
      omega
  | proposeIncrease hs _ _ _ hm | proposeDecrease hs _ _ _ hm | applyKpi hs _ _ hm =>
      have h := h.of_settles hs
      subst hm
      exact h
  | pause _ _ hm | rageQuit _ _ _ hm | cancel _ _ _ hm | clawbackNothing _ _ _ hm
  | clawbackContested _ _ _ hm | clawbackToDonor _ _ _ _ hm | resolveToGrantee _ _ _ _ hm
  | resume _ hm =>
      subst hm
      intro hstatus
      cases hstatus
  | changeGrantee _ _ hm | setLegal hm | signLegal _ hm =>
      subst hm
      exact h
  | resolveToDonor => exact h

/-- The validator's share is a twentieth of what is credited, rounded down. -/
theorem RatesNonneg.dueShare_mul_le {grant : Grant} (h : grant.RatesNonneg) (now : Nat) :
    20 * grant.dueShare now ≤ grant.dueAccrual now := by
  have hshare {a : Int} (ha : 0 ≤ a) : 20 * grant.validatorShare a ≤ a := by
    unfold validatorShare
    rw [Int.tdiv_eq_ediv_of_nonneg (by omega)]
    split_ifs <;> omega
  have h₁ := hshare (h.firstAccrual now)
  have h₂ := hshare (h.secondAccrual now)
  unfold dueShare newValidatorShare Grant.dueAccrual newAccrual
  split_ifs <;> omega

end Grant

theorem fullIfCompleted_of_reachable {trace : Trace} {env : Env} (h : Reachable trace env)
    {grantId : Nat} {g : Grant} (hg : env.grants grantId = some g) : g.FullIfCompleted := by
  have hinv := account_invariant (P := fun _ _ _ a => a.grant.FullIfCompleted) ?_ ?_ ?_ h hg
  · obtain ⟨o, -, hfull⟩ := hinv
    exact hfull
  · rintro now recipient totalAmount flowRate warmupDuration validator donor token _ _ _ _ _ rfl
      hstatus
    cases hstatus
  · intro o L e a ih _ _ _
    exact ih
  · intro o L e op a a' payments ih _ _ _ hstep _ _
    exact ih.step hstep

theorem validatorCapped_iff_of_reachable {trace : Trace} {env : Env} (h : Reachable trace env)
    {grantId : Nat} {g : Grant} (hg : env.grants grantId = some g) :
    g.ValidatorCapped ↔ g.validatorTotal ≤ g.shareLimit :=
  Grant.validatorCapped_iff (wellFormed_of_reachable h hg) (fullIfCompleted_of_reachable h hg)

/-! ### The bound over a run -/

theorem Settles.validatorTotal {grant s : Grant} {now : Nat} (hs : Settles grant now s) :
    s.validatorTotal = grant.validatorTotal + grant.dueShare now ∧
      s.shareLimit = grant.shareLimit := by
  rw [hs.eq_settled]
  simp [Grant.shareLimit]

/-- After settling, no operation changes what the validator got in all. -/
theorem GrantStep.validatorTotal {now : Nat} {treasury : Option Address} {op : GrantOp}
    {a a' : Account} {payments : List Payment} (h : GrantStep now treasury op a a' payments) :
    (op.settles = true ∧ a'.grant.validatorTotal =
      a.grant.validatorTotal + a.grant.dueShare now ∧ a'.grant.shareLimit = a.grant.shareLimit) ∨
    (op.settles = false ∧ a'.grant.validatorTotal = a.grant.validatorTotal ∧
      a.grant.shareLimit ≤ a'.grant.shareLimit) := by
  cases h with
  | withdrawValidator hs _ _ _ _ hm | rageQuit hs _ _ hm =>
      obtain ⟨hsum, hlimit⟩ := hs.validatorTotal
      subst hm
      refine .inl ⟨rfl, ?_, hlimit⟩
      rw [← hsum]
      unfold Grant.validatorTotal
      dsimp only
      omega
  | withdraw hs _ _ _ _ _ hm | pause hs _ hm | proposeIncrease hs _ _ _ hm
  | proposeDecrease hs _ _ _ hm | applyKpi hs _ _ hm | cancel hs _ _ hm | clawbackNothing hs _ _ hm
  | clawbackContested hs _ _ hm | clawbackToDonor hs _ _ _ hm =>
      obtain ⟨hsum, hlimit⟩ := hs.validatorTotal
      subst hm
      exact .inl ⟨rfl, hsum, hlimit⟩
  | resolveToGrantee _ hamount _ _ hm =>
      subst hm
      refine .inr ⟨rfl, rfl, ?_⟩
      unfold Grant.shareLimit
      dsimp only
      omega
  | resume _ hm | changeGrantee _ _ hm | setLegal hm | signLegal _ hm =>
      subst hm
      exact .inr ⟨rfl, rfl, le_refl _⟩
  | resolveToDonor => exact .inr ⟨rfl, rfl, le_refl _⟩

/-- If the step settles `grantId`, what it credits to the validator fits in its 5%. -/
def DueShareFitsAt (grantId : Nat) (e : Run.Step Env Event) : Prop :=
  AtOp grantId e fun op g => op.settles = true → g.DueShareFits e.action.timestamp

instance (grantId : Nat) (e : Run.Step Env Event) : Decidable (DueShareFitsAt grantId e) :=
  inferInstanceAs (Decidable (AtOp grantId e _))

/-- The grant, if there is one, is within the bounds. -/
def ValidatorCappedIn (grantId : Nat) (env : Env) : Prop :=
  ∀ g, env.grants grantId = some g → g.ValidatorCapped

/-- An operation leaves the validator within its 5% exactly if what it settles fits. -/
theorem GrantStep.validatorTotal_le_iff {now : Nat} {treasury : Option Address} {op : GrantOp}
    {a a' : Account} {payments : List Payment} (h : GrantStep now treasury op a a' payments)
    (hle : a.grant.validatorTotal ≤ a.grant.shareLimit) :
    a'.grant.validatorTotal ≤ a'.grant.shareLimit ↔
      (op.settles = true → a.grant.DueShareFits now) := by
  rcases h.validatorTotal with ⟨hsettles, hsum, hlimit⟩ | ⟨hsettles, hsum, hlimit⟩
  · simp [hsettles, hsum, hlimit, Grant.DueShareFits]
  · simp only [hsettles, Bool.false_eq_true, false_imp_iff, iff_true]
    omega

/-- **The validator's 5%.** In a run the validator never gets more than 5% of the
total amount, nothing without a validator, and a completed grant leaves 95% to the
grantee, exactly if at every settlement what is due to the validator fits in its 5%. -/
theorem validator_share_capped_iff {trace : Trace} {env : Env} (h : Reachable trace env)
    (grantId : Nat) :
    Run.Each (fun e _ => ValidatorCappedIn grantId e.after) trace ↔
      Run.Each (fun e _ => DueShareFitsAt grantId e) trace := by
  refine Run.each_iff_of_step (I := fun _ env => ValidatorCappedIn grantId env) ?_ ?_ h
  · rintro _ ⟨_, _, _, rfl⟩ g hg
    cases hg
  · intro e older hrun hn hcapped
    have hafter : Reachable (e :: older) e.after := .step hrun hn
    cases accountEffect_of_next hn grantId with
    | idle hop hgrant =>
        refine iff_of_true (fun g hg => ?_) (atOp_of_none hop)
        exact hcapped g (hgrant ▸ hg)
    | opened _ hop _ htotal _ hgrant =>
        refine iff_of_true (fun g hg => ?_) (atOp_of_none hop)
        rw [validatorCapped_iff_of_reachable hafter hg]
        obtain rfl := Option.some.inj (hgrant.symm.trans hg)
        exact Int.ediv_nonneg (by dsimp only [newGrant]; omega) (by decide)
    | @operated op g a' _ hop hg hstep hgrant =>
        have hle := (hcapped g hg).within
        have hfits : DueShareFitsAt grantId e ↔
            (op.settles = true → g.DueShareFits e.action.timestamp) := atOp_iff hop hg
        rw [hfits, ← hstep.validatorTotal_le_iff hle]
        constructor
        · intro hafter'
          exact (hafter' _ hgrant).within
        · intro hle' g hg'
          rw [validatorCapped_iff_of_reachable hafter hg']
          obtain rfl := Option.some.inj (hgrant.symm.trans hg')
          exact hle'
    | closed hop _ _ _ hgrant =>
        refine iff_of_true (fun g hg => ?_) (atOp_of_none hop)
        cases hgrant.symm.trans hg

/-- A grant whose validator withdraws while it streams. -/
theorem validator_share_capped_of_slow_stream :
    let run := history Demo.env (Demo.setUp 1000 ++
      [Demo.call 1 (.createGrant 7 Demo.grantee 1000 20 0 (some Demo.validator) none),
        Demo.call 11 (.withdrawValidator 7 10), Demo.call 51 (.pauseStream 7 none)])
    Run.Each (fun e _ => ValidatorCappedIn 7 e.after) run.1 := by
  intro run
  have hrun : Reachable run.1 run.2 := history_reachable Demo.env_deployed (by decide)
  exact (validator_share_capped_iff hrun 7).mpr (by decide)

/-- A grant of 100 that streams 10000 a second: one second after the start the
validator withdraws 500. -/
theorem validator_share_capped_late_withdrawal :
    ¬∀ trace env grantId, Reachable trace env →
      Run.Each (fun e _ => ValidatorCappedIn grantId e.after) trace := by
  intro h
  let run := history Demo.env (Demo.setUp 1000 ++
    [Demo.call 1 (.createGrant 7 Demo.grantee 100 10000 0 (some Demo.validator) none),
      Demo.call 2 (.withdrawValidator 7 500)])
  have hrun : Reachable run.1 run.2 := history_reachable Demo.env_deployed (by decide)
  have hwithin := ((h run.1 run.2 7 hrun).1 _ rfl).within
  exact absurd hwithin (by decide)

/-! ### Settlements within the stream -/

/-- The settlement at `now` does not come after the end of the stream. -/
def Grant.SettlesInTime (grant : Grant) (now : Nat) : Prop :=
  grant.accounted + grant.dueAccrual now ≤ grant.totalAmount

/-- If the step settles `grantId`, it does so before the stream has ended. -/
def SettlesInTimeAt (grantId : Nat) (e : Run.Step Env Event) : Prop :=
  AtOp grantId e fun op g => op.settles = true → g.SettlesInTime e.action.timestamp

/-- The validator has at most a twentieth of what is accounted for. -/
structure Grant.InTime (grant : Grant) : Prop where
  share_le : 20 * grant.validatorTotal ≤ grant.accounted
  accounted_le : grant.accounted ≤ grant.totalAmount

namespace Grant

theorem InTime.settled {grant : Grant} {now₀ now : Nat} (h : grant.InTime)
    (hwf : grant.WellFormed now₀) (hin : grant.SettlesInTime now) : (grant.settled now).InTime := by
  have hshare := hwf.rates.dueShare_mul_le now
  have hnonneg := hwf.rates.dueAccrual now
  have hclaimable := hwf.claimable_nonneg
  have hle := h.share_le
  unfold SettlesInTime at hin
  -- the cap finds nothing to take away
  have haccounted : (grant.settled now).accounted = grant.accounted + grant.dueAccrual now := by
    rw [settled_accounted]
    by_cases hd : grant.completes now
    · have hfull := hd.2.2
      rw [if_pos hd]
      unfold accounted at hin hfull ⊢
      omega
    · rw [if_neg hd]
  constructor
  · rw [haccounted, settled_validatorTotal]
    omega
  · rw [haccounted, settled_totalAmount]
    exact hin

theorem InTime.validatorTotal_le {grant : Grant} (h : grant.InTime) :
    grant.validatorTotal ≤ grant.shareLimit := by
  have hshare := h.share_le
  have haccounted := h.accounted_le
  unfold shareLimit
  omega

end Grant

theorem GrantStep.inTime {now₀ now : Nat} {treasury : Option Address} {op : GrantOp}
    {a a' : Account} {payments : List Payment} (hstep : GrantStep now treasury op a a' payments)
    (h : a.grant.InTime) (hwf : a.grant.WellFormed now₀)
    (hin : op.settles = true → a.grant.SettlesInTime now) : a'.grant.InTime := by
  rcases hstep.accounted with ⟨hsettles, s, hs, hacc, htotal⟩ | ⟨hsettles, hacc, htotal⟩
  · have h' := h.settled hwf (hin hsettles)
    rcases hstep.validatorTotal with ⟨-, hsum, -⟩ | ⟨hno, -⟩
    · rw [hs.eq_settled] at hacc htotal
      constructor
      · rw [hacc, hsum, ← Grant.settled_validatorTotal]
        exact h'.share_le
      · rw [hacc, htotal]
        exact h'.accounted_le
    · simp [hsettles] at hno
  · rcases hstep.validatorTotal with ⟨hyes, -⟩ | ⟨-, hsum, -⟩
    · simp [hsettles] at hyes
    · have hle := h.share_le
      have hle' := h.accounted_le
      exact ⟨by omega, by omega⟩

/-- A grant that is only settled while it streams keeps its validator within 5%. -/
theorem validatorCapped_of_in_time {trace : Trace} {env : Env} (h : Reachable trace env)
    {grantId : Nat} {g : Grant} (hg : env.grants grantId = some g)
    (hin : ∀ e ∈ life grantId trace, SettlesInTimeAt grantId e) : g.ValidatorCapped := by
  have hinv := account_invariant_when (C := SettlesInTimeAt grantId)
    (P := fun _ _ _ a => a.grant.InTime) ?_ ?_ ?_ h hg hin
  · obtain ⟨o, -, hin⟩ := hinv
    exact (validatorCapped_iff_of_reachable h hg).mpr hin.validatorTotal_le
  · rintro now recipient totalAmount flowRate warmupDuration validator donor token _ _ htotal _ rfl
    exact ⟨le_refl 0, htotal.le⟩
  · intro o L e a _ _ ih _ _ _
    exact ih
  · intro o L e op a a' payments hin hwf ih _ hop hg hstep
    exact hstep.inTime ih hwf (hin.elim hop hg)

end YieldTrust.GrantStream
