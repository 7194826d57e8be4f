import YieldTrust.GrantStream.Invariants

/-!
# YieldTrust.GrantStream.Supply

The total supply invariant: the four balances of a grant are not negative and
together at most its total amount. The cap at the end of a settlement only
rewrites the grantee's claimable balance, so the invariant depends on the
validator's share fitting under the total amount whenever the grant is settled.
-/

namespace YieldTrust.GrantStream

namespace Grant

/-- The balances are not negative and add up to at most the total amount. -/
structure Balanced (grant : Grant) : Prop where
  withdrawn_nonneg : 0 ≤ grant.withdrawn
  claimable_nonneg : 0 ≤ grant.claimable
  validatorWithdrawn_nonneg : 0 ≤ grant.validatorWithdrawn
  validatorClaimable_nonneg : 0 ≤ grant.validatorClaimable
  accounted_le : grant.accounted ≤ grant.totalAmount

/-- What the validator has, together with its share of what a settlement at
`now` credits, fits next to what was withdrawn. -/
def ValidatorShareFits (grant : Grant) (now : Nat) : Prop :=
  grant.withdrawn + grant.validatorWithdrawn + grant.validatorClaimable + grant.dueShare now ≤
    grant.totalAmount

instance (grant : Grant) (now : Nat) : Decidable (grant.ValidatorShareFits now) :=
  inferInstanceAs (Decidable (_ ≤ _))

theorem WellFormed.balanced {grant : Grant} {now : Nat} (h : grant.WellFormed now)
    (hle : grant.accounted ≤ grant.totalAmount) : grant.Balanced :=
  ⟨h.withdrawn_nonneg, h.claimable_nonneg, h.validatorWithdrawn_nonneg,
    h.validatorClaimable_nonneg, hle⟩

/-- A settlement of a balanced grant is balanced exactly if the validator's
share fits. -/
theorem settled_balanced_iff {grant : Grant} {now₀ now : Nat} (h : grant.WellFormed now₀)
    (hle : grant.accounted ≤ grant.totalAmount) :
    (grant.settled now).Balanced ↔ grant.ValidatorShareFits now := by
  have hwf := h.settled now
  have hc := hwf.claimable_nonneg
  have haccounted := grant.settled_accounted now
  -- only the claimable balance is capped
  have hshare : (grant.settled now).accounted = (grant.settled now).claimable +
      (grant.withdrawn + grant.validatorWithdrawn + grant.validatorClaimable +
        grant.dueShare now) := by
    unfold accounted
    rw [settled_withdrawn, settled_validatorWithdrawn, settled_validatorClaimable]
    omega
  constructor
  · intro hb
    have := hb.accounted_le
    rw [settled_totalAmount, hshare] at this
    unfold ValidatorShareFits
    omega
  · intro hfits
    refine hwf.balanced ?_
    unfold ValidatorShareFits at hfits
    rw [settled_totalAmount, haccounted]
    by_cases hd : grant.completes now
    · rw [if_pos hd]
      omega
    · rw [if_neg hd]
      rcases not_completes hd with ⟨ha, -⟩ | hlt <;> omega

end Grant

/-! ### The invariant over a run -/

/-- The operations that settle the grant first. -/
def GrantOp.settles : GrantOp → Bool
  | .withdraw _ | .withdrawValidator _ | .pause _ | .proposeRate _ | .applyKpi _ | .rageQuit
  | .cancel | .clawback _ => true
  | .resume | .changeGrantee _ | .resolve _ | .setLegal _ _ | .signLegal => false

/-- If the step settles `grantId`, the validator's share fits. -/
def ShareFitsAt (grantId : Nat) (e : Run.Step Env Event) : Prop :=
  AtOp grantId e fun op g => op.settles = true → g.ValidatorShareFits e.action.timestamp

instance (grantId : Nat) (e : Run.Step Env Event) : Decidable (ShareFitsAt grantId e) :=
  inferInstanceAs (Decidable (AtOp grantId e _))

/-- After settling, no operation changes what is accounted for; only the
resolution of a dispute changes the total amount, upwards. -/
theorem GrantStep.accounted {now : Nat} {treasury : Option Address} {op : GrantOp} {a a' : Account}
    {payments : List Payment} (h : GrantStep now treasury op a a' payments) :
    (op.settles = true ∧ ∃ s, Settles a.grant now s ∧
      a'.grant.accounted = s.accounted ∧ a'.grant.totalAmount = s.totalAmount) ∨
    (op.settles = false ∧ a'.grant.accounted = a.grant.accounted ∧
      a.grant.totalAmount ≤ a'.grant.totalAmount) := by
  cases h with
  | withdraw hs _ _ _ _ _ hm | withdrawValidator hs _ _ _ _ hm | rageQuit hs _ _ hm =>
      subst hm
      refine .inl ⟨rfl, _, hs, ?_, rfl⟩
      unfold Grant.accounted
      dsimp only
      omega
  | pause hs _ hm | proposeIncrease hs _ _ _ hm | proposeDecrease hs _ _ _ hm | applyKpi hs _ _ hm
  | cancel hs _ _ hm | clawbackNothing hs _ _ hm | clawbackContested hs _ _ hm
  | clawbackToDonor hs _ _ _ hm =>
      subst hm
      exact .inl ⟨rfl, _, hs, rfl, rfl⟩
  | resolveToGrantee _ hamount _ _ hm =>
      subst hm
      refine .inr ⟨rfl, rfl, ?_⟩
      dsimp only
      omega
  | resume _ hm | changeGrantee _ _ hm | setLegal hm | signLegal _ hm =>
      subst hm
      exact .inr ⟨rfl, rfl, le_refl _⟩
  | resolveToDonor => exact .inr ⟨rfl, rfl, le_refl _⟩

/-- An operation that finds the validator's share fitting leaves the grant
accounted for at most in full. -/
theorem GrantStep.accounted_le {now₀ now : Nat} {treasury : Option Address} {op : GrantOp}
    {a a' : Account} {payments : List Payment} (hstep : GrantStep now treasury op a a' payments)
    (hwf : a.grant.WellFormed now₀) (hle : a.grant.accounted ≤ a.grant.totalAmount)
    (hfits : op.settles = true → a.grant.ValidatorShareFits now) :
    a'.grant.accounted ≤ a'.grant.totalAmount := by
  rcases hstep.accounted with ⟨hsettles, s, hs, hacc, htot⟩ | ⟨-, hacc, htot⟩
  · have hb := (Grant.settled_balanced_iff hwf hle).mpr (hfits hsettles)
    rw [hacc, htot, hs.eq_settled]
    exact hb.accounted_le
  · omega

theorem accounted_le_of_reachable {trace : Trace} {env : Env} (h : Reachable trace env)
    {grantId : Nat} {g : Grant} (hg : env.grants grantId = some g)
    (hfits : ∀ e ∈ life grantId trace, ShareFitsAt grantId e) :
    g.accounted ≤ g.totalAmount := by
  have hinv := account_invariant_when (C := ShareFitsAt grantId)
    (P := fun _ _ _ a => a.grant.accounted ≤ a.grant.totalAmount) ?_ ?_ ?_ h hg hfits
  · obtain ⟨o, -, hle⟩ := hinv
    exact hle
  · rintro now recipient totalAmount flowRate warmupDuration validator donor token _ _ htotal _ rfl
    exact htotal.le
  · intro o L e a _ _ ih _ _ _
    exact ih
  · intro o L e op a a' payments hfits hwf ih _ hop hg hstep
    exact hstep.accounted_le hwf ih (hfits.elim hop hg)

/-- **Total supply.** In every run in which the validator's share fits whenever
the grant is settled, every stored grant is balanced, and a preview of it is
balanced exactly if the validator's share fits at that time too. -/
theorem supply_invariant {trace : Trace} {env : Env} (h : Reachable trace env) {grantId : Nat}
    {g : Grant} (hg : env.grants grantId = some g)
    (hfits : ∀ e ∈ life grantId trace, ShareFitsAt grantId e) :
    g.Balanced ∧ ∀ now p, env.timestamp ≤ now → previewGrantAtNow g now = .ok p →
      (p.Balanced ↔ g.ValidatorShareFits now) := by
  have hwf := wellFormed_of_reachable h hg
  have hle := accounted_le_of_reachable h hg hfits
  refine ⟨hwf.balanced hle, fun now p _ hp => ?_⟩
  rw [(settleGrant_eq_ok hp).eq_settled]
  exact Grant.settled_balanced_iff hwf hle

/-- A grant whose validator is paid within its share. -/
theorem supply_invariant_of_slow_stream :
    let run := history Demo.env (Demo.setUp 1000 ++
      [Demo.call 1 (.createGrant 7 Demo.grantee 1000 20 0 (some Demo.validator) none),
        Demo.call 11 (.withdrawValidator 7 10), Demo.call 21 (.pauseStream 7 none)])
    ∃ g, run.2.grants 7 = some g ∧ g.Balanced := by
  intro run
  have hrun : Reachable run.1 run.2 := history_reachable Demo.env_deployed (by decide)
  exact ⟨_, rfl, (@supply_invariant _ _ hrun 7 _ rfl (by decide)).1⟩

/-- A grant of 100 that streams 10000 a second: its first settlement, one second
late, credits the validator with 500. -/
theorem supply_invariant_late_settlement :
    ¬∀ trace env grantId g now p, Reachable trace env → env.grants grantId = some g →
      env.timestamp ≤ now → previewGrantAtNow g now = .ok p → g.Balanced ∧ p.Balanced := by
  intro h
  let run := history Demo.env (Demo.setUp 1000 ++
    [Demo.call 1 (.createGrant 7 Demo.grantee 100 10000 0 (some Demo.validator) none)])
  have hrun : Reachable run.1 run.2 := history_reachable Demo.env_deployed (by decide)
  have hb := (h run.1 run.2 7 _ 2 _ hrun rfl (by decide) rfl).2.accounted_le
  exact absurd hb (by decide)

end YieldTrust.GrantStream
