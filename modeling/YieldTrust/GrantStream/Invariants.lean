import YieldTrust.GrantStream.History

/-!
# YieldTrust.GrantStream.Invariants

What holds of every stored grant in every run, without any condition: the
balances and the rates are not negative, the clock of the grant is not ahead of
the ledger, and the grantee's side never exceeds the total amount.
-/

namespace YieldTrust.GrantStream

/-! ### Invariants of existing grants -/

/-- **Invariant rule for a grant.** What holds of a new grant, and is kept by the
passing of time and by every `GrantStep`, holds of the grant as long as it
exists. `L` is what happened since it was created as `o`. -/
theorem account_invariant {grantId : Nat} {P : Grant → Trace → Nat → Account → Prop}
    (opened : ∀ (now : Nat) (recipient : Address) (totalAmount flowRate : Int)
      (warmupDuration : Nat) (validator donor : Option Address) (token : Address) (g : Grant)
      (escrow : Option Int), 0 < totalAmount → 0 ≤ flowRate → I128.InRange totalAmount →
      g = newGrant now recipient totalAmount flowRate warmupDuration validator donor token →
      P g [] now ⟨g, escrow⟩)
    (idle : ∀ {o : Grant} {L : Trace} {e : Run.Step Env Event} {a : Account},
      P o L e.before.timestamp a → e.before.timestamp ≤ e.action.timestamp →
      performed grantId e = none → e.before.grants grantId = some a.grant →
      P o (e :: L) e.action.timestamp a)
    (operated : ∀ {o : Grant} {L : Trace} {e : Run.Step Env Event} {op : GrantOp}
      {a a' : Account} {payments : List Payment},
      P o L e.before.timestamp a → e.before.timestamp ≤ e.action.timestamp →
      performed grantId e = some op → e.before.grants grantId = some a.grant →
      GrantStep e.action.timestamp e.before.treasury op a a' payments →
      paymentsFor grantId e = payments → (∀ p ∈ payments, 0 ≤ p.amount) →
      P o (e :: L) e.action.timestamp a')
    {trace : Trace} {env : Env} (h : Reachable trace env) {g : Grant}
    (hg : env.grants grantId = some g) :
    ∃ o, origin grantId trace = some o ∧
      P o (life grantId trace) env.timestamp ⟨g, env.disputeEscrow grantId⟩ := by
  refine life_induction (C := fun _ => True)
    (I := fun o? L now g? x => ∀ g, g? = some g → ∃ o, o? = some o ∧ P o L now ⟨g, x⟩)
    ?_ ?_ ?_ ?_ ?_ h (fun _ _ => trivial) g hg
  · intro g hg
    cases hg
  · intro o? L e _ ih hle hop g hg
    obtain ⟨o, ho, ih⟩ := ih g hg
    exact ⟨o, ho, idle ih hle hop hg⟩
  · intro o? L e recipient totalAmount flowRate warmupDuration validator donor token g _ _ _ htotal
      hflow hrange hnew g' hg'
    cases hg'
    exact ⟨g, rfl, opened _ _ _ _ _ _ _ _ _ _ htotal hflow hrange hnew⟩
  · intro o? L e op g a' payments _ ih hle hop hg hstep hpay hnonneg g' hg'
    cases hg'
    obtain ⟨o, ho, ih⟩ := ih g rfl
    exact ⟨o, ho, operated (a := ⟨g, _⟩) ih hle hop hg hstep hpay hnonneg⟩
  · intro o? L e g s _ _ _ _ _ _ _ g' hg'
    cases hg'

/-! ### Well-formed grants -/

/-- What is true of the record of a grant at every time `now` from its last
change on. -/
structure Grant.WellFormed (grant : Grant) (now : Nat) : Prop where
  flowRate_nonneg : 0 ≤ grant.flowRate
  pendingRate_nonneg : 0 ≤ grant.pendingRate
  lastUpdateTs_le : grant.lastUpdateTs ≤ now
  totalAmount_pos : 0 < grant.totalAmount
  totalAmount_inRange : I128.InRange grant.totalAmount
  withdrawn_nonneg : 0 ≤ grant.withdrawn
  claimable_nonneg : 0 ≤ grant.claimable
  validatorWithdrawn_nonneg : 0 ≤ grant.validatorWithdrawn
  validatorClaimable_nonneg : 0 ≤ grant.validatorClaimable
  /-- Only the grantee's side: the validator's may exceed the total amount. -/
  grantee_le : grant.withdrawn + grant.claimable ≤ grant.totalAmount
  validator_zero : grant.validator = none →
    grant.validatorWithdrawn = 0 ∧ grant.validatorClaimable = 0

namespace Grant

/-- A settlement that does not complete the grant either credits nothing or
leaves something to stream. -/
theorem not_completes {grant : Grant} {now : Nat} (h : ¬grant.completes now) :
    grant.dueAccrual now = 0 ∧ grant.dueShare now = 0 ∨
      grant.accounted + grant.dueAccrual now < grant.totalAmount := by
  by_cases ha : grant.accrues now
  · right
    by_contra hle
    exact h ⟨ha.1, fun hg => by simp [ha.2.2] at hg, not_lt.mp hle⟩
  · left
    unfold dueAccrual dueShare
    rw [if_neg ha, if_neg ha]
    exact ⟨rfl, rfl⟩

theorem WellFormed.rates {grant : Grant} {now : Nat} (h : grant.WellFormed now) :
    grant.RatesNonneg := ⟨h.flowRate_nonneg, h.pendingRate_nonneg⟩

theorem WellFormed.mono {grant : Grant} {now now' : Nat} (h : grant.WellFormed now)
    (hle : now ≤ now') : grant.WellFormed now' :=
  { h with lastUpdateTs_le := h.lastUpdateTs_le.trans hle }

theorem WellFormed.settled {grant : Grant} {now₀ : Nat} (h : grant.WellFormed now₀) (now : Nat) :
    (grant.settled now).WellFormed now where
  flowRate_nonneg := (h.rates.settled now).flowRate
  pendingRate_nonneg := (h.rates.settled now).pendingRate
  lastUpdateTs_le := (grant.settled_lastUpdateTs now).le
  totalAmount_pos := by
    rw [settled_totalAmount]
    exact h.totalAmount_pos
  totalAmount_inRange := by
    rw [settled_totalAmount]
    exact h.totalAmount_inRange
  withdrawn_nonneg := by
    rw [settled_withdrawn]
    exact h.withdrawn_nonneg
  claimable_nonneg := settled_claimable_nonneg h.rates h.claimable_nonneg now
  validatorWithdrawn_nonneg := by
    rw [settled_validatorWithdrawn]
    exact h.validatorWithdrawn_nonneg
  validatorClaimable_nonneg := by
    rw [settled_validatorClaimable]
    exact add_nonneg h.validatorClaimable_nonneg (grant.dueShare_nonneg now)
  grantee_le := by
    -- either the cap applies, or something is left to stream
    have hw := h.validatorWithdrawn_nonneg
    have hv := h.validatorClaimable_nonneg
    have hs := grant.dueShare_nonneg now
    have hle := h.grantee_le
    have hc := h.claimable_nonneg
    rw [settled_withdrawn, settled_totalAmount, settled_claimable]
    by_cases hd : grant.completes now
    · rw [if_pos hd]
      omega
    · rw [if_neg hd]
      rcases not_completes hd with ⟨ha, hs'⟩ | hlt
      · omega
      · unfold accounted at hlt
        omega
  validator_zero hnone := by
    rw [settled_validator] at hnone
    rw [settled_validatorWithdrawn, settled_validatorClaimable, dueShare_of_none hnone]
    simpa using h.validator_zero hnone

/-- Without a validator only the grantee's side counts. -/
theorem WellFormed.accounted_of_none {grant : Grant} {now : Nat} (h : grant.WellFormed now)
    (hnone : grant.validator = none) : grant.accounted = grant.withdrawn + grant.claimable := by
  obtain ⟨hw, hc⟩ := h.validator_zero hnone
  unfold accounted
  omega

/-- What a settlement leaves of the two balances of the grantee's side. -/
theorem WellFormed.settled_sum {grant : Grant} {now₀ : Nat} (h : grant.WellFormed now₀)
    (hnone : grant.validator = none) (now : Nat) :
    (grant.settled now).withdrawn + (grant.settled now).claimable =
      if grant.completes now then grant.totalAmount
      else grant.withdrawn + grant.claimable + grant.dueAccrual now := by
  obtain ⟨hw, hc⟩ := h.validator_zero hnone
  have hshare := dueShare_of_none hnone now
  have hle := h.grantee_le
  have hnonneg := h.claimable_nonneg
  rw [settled_withdrawn, settled_claimable, hw, hc, hshare]
  split_ifs <;> omega

theorem WellFormed.of_settles {grant s : Grant} {now₀ now : Nat} (h : grant.WellFormed now₀)
    (hs : Settles grant now s) : s.WellFormed now := by
  rw [hs.eq_settled]
  exact h.settled now

theorem WellFormed.newGrant (now : Nat) (recipient : Address) {totalAmount flowRate : Int}
    (warmupDuration : Nat) (validator donor : Option Address) (token : Address)
    (htotal : 0 < totalAmount) (hflow : 0 ≤ flowRate) (hrange : I128.InRange totalAmount) :
    (newGrant now recipient totalAmount flowRate warmupDuration validator donor
      token).WellFormed now where
  flowRate_nonneg := hflow
  pendingRate_nonneg := le_refl 0
  lastUpdateTs_le := le_refl now
  totalAmount_pos := htotal
  totalAmount_inRange := hrange
  withdrawn_nonneg := le_refl 0
  claimable_nonneg := le_refl 0
  validatorWithdrawn_nonneg := le_refl 0
  validatorClaimable_nonneg := le_refl 0
  grantee_le := htotal.le
  validator_zero _ := ⟨rfl, rfl⟩

/-- Every operation keeps the record well formed. -/
theorem WellFormed.step {now₀ now : Nat} {treasury : Option Address} {op : GrantOp}
    {a a' : Account} {payments : List Payment} (h : a.grant.WellFormed now₀) (hle : now₀ ≤ now)
    (hstep : GrantStep now treasury op a a' payments) : a'.grant.WellFormed now := by
  cases hstep with
  | withdraw hs hamount _ _ _ hle hm =>
      have h := h.of_settles hs
      have hw := h.withdrawn_nonneg
      subst hm
      exact { h with
        withdrawn_nonneg := by dsimp only; omega
        claimable_nonneg := by dsimp only; omega
        grantee_le := by have := h.grantee_le; dsimp only; omega }
  | withdrawValidator hs hvalidator _ hamount hle hm =>
      have h := h.of_settles hs
      have hw := h.validatorWithdrawn_nonneg
      subst hm
      exact { h with
        validatorWithdrawn_nonneg := by dsimp only; omega
        validatorClaimable_nonneg := by dsimp only; omega
        validator_zero := fun hnone => by
          rw [hs.eq_settled, settled_validator, hvalidator] at hnone
          cases hnone }
  | pause hs _ hm =>
      subst hm
      exact { h.of_settles hs with }
  | resume _ hm =>
      subst hm
      exact { h.mono hle with lastUpdateTs_le := le_refl now }
  | proposeIncrease hs _ hrate _ hm =>
      have h := h.of_settles hs
      subst hm
      exact { h with pendingRate_nonneg := h.flowRate_nonneg.trans hrate.le }
  | proposeDecrease hs _ hnonneg _ hm =>
      subst hm
      exact { h.of_settles hs with flowRate_nonneg := hnonneg, pendingRate_nonneg := le_refl 0 }
  | applyKpi hs _ hmultiplier hm =>
      have h := h.of_settles hs
      subst hm
      exact { h with
        flowRate_nonneg :=
          Int.tdiv_nonneg (mul_nonneg h.flowRate_nonneg hmultiplier.le) (by decide)
        pendingRate_nonneg := by
          dsimp only
          split_ifs
          · exact Int.tdiv_nonneg (mul_nonneg h.pendingRate_nonneg hmultiplier.le) (by decide)
          · exact h.pendingRate_nonneg }
  | rageQuit hs _ _ hm =>
      have h := h.of_settles hs
      have hw := h.withdrawn_nonneg
      have hc := h.claimable_nonneg
      have hvw := h.validatorWithdrawn_nonneg
      have hvc := h.validatorClaimable_nonneg
      subst hm
      exact { h with
        withdrawn_nonneg := by dsimp only; omega
        claimable_nonneg := le_refl 0
        validatorWithdrawn_nonneg := by dsimp only; omega
        validatorClaimable_nonneg := le_refl 0
        grantee_le := by have := h.grantee_le; dsimp only; omega
        validator_zero := fun hnone => by
          have := h.validator_zero hnone
          dsimp only
          omega }
  | cancel hs _ _ hm =>
      subst hm
      exact { h.of_settles hs with }
  | changeGrantee _ _ hm =>
      subst hm
      exact { h.mono hle with }
  | clawbackNothing hs _ _ hm | clawbackContested hs _ _ hm | clawbackToDonor hs _ _ _ hm =>
      subst hm
      exact { h.of_settles hs with }
  | resolveToDonor => exact h.mono hle
  | resolveToGrantee _ hamount _ hrange hm =>
      have hp := h.totalAmount_pos
      have hg := h.grantee_le
      dsimp only at hp hg
      subst hm
      exact { h.mono hle with
        lastUpdateTs_le := le_refl now
        totalAmount_pos := by dsimp only; omega
        totalAmount_inRange := hrange
        grantee_le := by dsimp only; omega }
  | setLegal hm =>
      subst hm
      exact { h.mono hle with }
  | signLegal _ hm =>
      subst hm
      exact { h.mono hle with lastUpdateTs_le := le_refl now }

end Grant

/-- Every stored grant is well formed at the current time. -/
theorem wellFormed_of_reachable {trace : Trace} {env : Env} (h : Reachable trace env)
    {grantId : Nat} {g : Grant} (hg : env.grants grantId = some g) :
    g.WellFormed env.timestamp := by
  have hinv := account_invariant (P := fun _ _ now a => a.grant.WellFormed now) ?_ ?_ ?_ h hg
  · obtain ⟨o, -, hwf⟩ := hinv
    exact hwf
  · intro now recipient totalAmount flowRate warmupDuration validator donor token _ _ htotal hflow
      hrange rfl
    exact .newGrant now recipient warmupDuration validator donor token htotal hflow hrange
  · intro o L e a ih hle _ _
    exact ih.mono hle
  · intro o L e op a a' payments ih hle _ _ hstep _ _
    exact ih.step hle hstep

/-- **Invariant rule with a condition on the steps.** As `account_invariant`, for
runs whose steps since the grant was created all meet `C`; the grant may be taken
to be well formed. -/
theorem account_invariant_when {grantId : Nat} {C : Run.Step Env Event → Prop}
    {P : Grant → Trace → Nat → Account → Prop}
    (opened : ∀ (now : Nat) (recipient : Address) (totalAmount flowRate : Int)
      (warmupDuration : Nat) (validator donor : Option Address) (token : Address) (g : Grant)
      (escrow : Option Int), 0 < totalAmount → 0 ≤ flowRate →
      g = newGrant now recipient totalAmount flowRate warmupDuration validator donor token →
      P g [] now ⟨g, escrow⟩)
    (idle : ∀ {o : Grant} {L : Trace} {e : Run.Step Env Event} {a : Account},
      C e → a.grant.WellFormed e.before.timestamp → P o L e.before.timestamp a →
      e.before.timestamp ≤ e.action.timestamp → performed grantId e = none →
      e.before.grants grantId = some a.grant → P o (e :: L) e.action.timestamp a)
    (operated : ∀ {o : Grant} {L : Trace} {e : Run.Step Env Event} {op : GrantOp}
      {a a' : Account} {payments : List Payment},
      C e → a.grant.WellFormed e.before.timestamp → P o L e.before.timestamp a →
      e.before.timestamp ≤ e.action.timestamp → performed grantId e = some op →
      e.before.grants grantId = some a.grant →
      GrantStep e.action.timestamp e.before.treasury op a a' payments →
      P o (e :: L) e.action.timestamp a')
    {trace : Trace} {env : Env} (h : Reachable trace env) {g : Grant}
    (hg : env.grants grantId = some g) (hC : ∀ e ∈ life grantId trace, C e) :
    ∃ o, origin grantId trace = some o ∧
      P o (life grantId trace) env.timestamp ⟨g, env.disputeEscrow grantId⟩ := by
  have hinv := account_invariant
    (P := fun o L now a => a.grant.WellFormed now ∧ ((∀ e ∈ L, C e) → P o L now a))
    ?_ ?_ ?_ h hg
  · obtain ⟨o, ho, -, hinv⟩ := hinv
    exact ⟨o, ho, hinv hC⟩
  · intro now recipient totalAmount flowRate warmupDuration validator donor token g escrow htotal
      hflow hrange rfl
    refine ⟨.newGrant now recipient warmupDuration validator donor token htotal hflow hrange, ?_⟩
    exact fun _ => opened _ _ _ _ _ _ _ _ _ escrow htotal hflow rfl
  · intro o L e a ⟨hwf, ih⟩ hle hop hg
    refine ⟨hwf.mono hle, fun hall => ?_⟩
    obtain ⟨hCe, hall⟩ := List.forall_mem_cons.mp hall
    exact idle hCe hwf (ih hall) hle hop hg
  · intro o L e op a a' payments ⟨hwf, ih⟩ hle hop hg hstep _ _
    refine ⟨hwf.step hle hstep, fun hall => ?_⟩
    obtain ⟨hCe, hall⟩ := List.forall_mem_cons.mp hall
    exact operated hCe hwf (ih hall) hle hop hg hstep

/-! ### What creation fixes -/

/-- The two records agree on what no operation changes. -/
structure Grant.SameTerms (grant original : Grant) : Prop where
  startTime : grant.startTime = original.startTime
  warmupDuration : grant.warmupDuration = original.warmupDuration
  validator : grant.validator = original.validator
  donor : grant.donor = original.donor

theorem Grant.SameTerms.refl (grant : Grant) : grant.SameTerms grant := ⟨rfl, rfl, rfl, rfl⟩

theorem Grant.SameTerms.trans {g₁ g₂ g₃ : Grant} (h : g₁.SameTerms g₂) (h' : g₂.SameTerms g₃) :
    g₁.SameTerms g₃ :=
  ⟨h.startTime.trans h'.startTime, h.warmupDuration.trans h'.warmupDuration,
    h.validator.trans h'.validator, h.donor.trans h'.donor⟩

theorem Settles.sameTerms {grant s : Grant} {now : Nat} (hs : Settles grant now s) :
    s.SameTerms grant := by
  rw [hs.eq_settled]
  exact ⟨grant.settled_startTime now, grant.settled_warmupDuration now,
    grant.settled_validator now, grant.settled_donor now⟩

theorem GrantStep.sameTerms {now : Nat} {treasury : Option Address} {op : GrantOp}
    {a a' : Account} {payments : List Payment} (hstep : GrantStep now treasury op a a' payments) :
    a'.grant.SameTerms a.grant := by
  cases hstep with
  | withdraw hs _ _ _ _ _ hm | withdrawValidator hs _ _ _ _ hm | pause hs _ hm
  | proposeIncrease hs _ _ _ hm | proposeDecrease hs _ _ _ hm | applyKpi hs _ _ hm
  | rageQuit hs _ _ hm | cancel hs _ _ hm | clawbackNothing hs _ _ hm
  | clawbackContested hs _ _ hm | clawbackToDonor hs _ _ _ hm =>
      have h := hs.sameTerms
      subst hm
      exact ⟨h.startTime, h.warmupDuration, h.validator, h.donor⟩
  | resume _ hm | changeGrantee _ _ hm | resolveToGrantee _ _ _ _ hm | setLegal hm
  | signLegal _ hm =>
      subst hm
      exact ⟨rfl, rfl, rfl, rfl⟩
  | resolveToDonor => exact .refl _

/-- A stored grant is on the terms it was created with. -/
theorem sameTerms_of_reachable {trace : Trace} {env : Env} (h : Reachable trace env)
    {grantId : Nat} {g o : Grant} (hg : env.grants grantId = some g)
    (ho : origin grantId trace = some o) : g.SameTerms o := by
  have hinv := account_invariant (P := fun o _ _ a => a.grant.SameTerms o) ?_ ?_ ?_ h hg
  · obtain ⟨o', ho', hsame⟩ := hinv
    obtain rfl : o' = o := Option.some.inj (ho'.symm.trans ho)
    exact hsame
  · intro now recipient totalAmount flowRate warmupDuration validator donor token g _ _ _ _ _
    exact .refl g
  · intro o L e a ih _ _ _
    exact ih
  · intro o L e op a a' payments ih _ _ _ hstep _ _
    exact hstep.sameTerms.trans ih

end YieldTrust.GrantStream
