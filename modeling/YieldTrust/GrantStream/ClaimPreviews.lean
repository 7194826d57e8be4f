import YieldTrust.GrantStream.TerminalFunds

/-!
# YieldTrust.GrantStream.ClaimPreviews

What the **previews** of a grant are worth. The two amounts that a view tells are what the grantee
and the validator can take, no more and no less, and what they take comes off what the view tells
next; what else a withdrawal depends on is listed here completely.
-/

namespace YieldTrust.GrantStream

open Fallible

variable {env env' : Env} {grantId timestamp sequence : Nat} {auths : List Address} {g p m : Grant}
  {amount granteeDue validatorDue : Int} {trace : Trace}

/-- A grant is settled once a second. -/
theorem settleGrant_of_lastUpdateTs (h : g.lastUpdateTs = timestamp) :
    settleGrant g timestamp = .ok g := by
  unfold settleGrant
  rw [if_neg (by omega), if_pos (by omega)]
  rfl

theorem getCurrentClaimableAmounts_eq_ok : getCurrentClaimableAmounts env grantId =
    .ok (granteeDue, validatorDue) ↔ ∃ g p, env.grants grantId = some g ∧
      settleGrant g env.timestamp = .ok p ∧ p.claimable = granteeDue ∧
        p.validatorClaimable = validatorDue := by
  simp only [getCurrentClaimableAmounts, readGrant, previewGrantAtNow, bind_eq_ok, okOr_eq_ok,
    pure_eq_ok, Prod.mk.injEq]
  constructor
  · rintro ⟨g, hg, p, hp, hdue⟩
    exact ⟨g, p, hg, hp, hdue⟩
  · rintro ⟨g, p, hg, hp, hdue⟩
    exact ⟨g, hg, p, hp, hdue⟩

/-! ### What stops a withdrawal -/

/-- What a withdrawal leaves of the settled grant. -/
def Grant.debited (p : Grant) (amount : Int) (now : Nat) : Grant :=
  { p with
    claimable := p.claimable - amount
    withdrawn := p.withdrawn + amount
    lastClaimTime := now }

theorem debitWithdrawal_of_le (hp : settleGrant g timestamp = .ok p)
    (hmark : g.cancellationInitiatedAt = 0) (hgate : p.gateClosed = false)
    (hmin : minWithdrawal ≤ p.claimable) (hamount : 0 < amount) (hle : amount ≤ p.claimable)
    (hclaimable : I128.InRange p.claimable) (hrange : I128.InRange (p.withdrawn + p.claimable))
    (hwithdrawn : 0 ≤ p.withdrawn) :
    debitWithdrawal g timestamp amount = .ok (p.debited amount timestamp) := by
  unfold debitWithdrawal
  simp only [bind_eq_ok, ensure_eq_ok, okOr_eq_ok, I128.checkedSub_eq_some,
    I128.checkedAdd_eq_some]
  refine ⟨p, hp, (), hgate, (), hmin, (), hle, _, ⟨?_, rfl⟩, _, ⟨?_, rfl⟩, ?_⟩
  · exact hclaimable.of_nonneg_of_le (by omega) (by omega)
  · exact hrange.of_nonneg_of_le (by omega) (by omega)
  · rw [if_neg (by simp [hmark])]
    rfl

/-- Everything that a payment depends on. -/
theorem balance_of_payWithdrawal (h : payWithdrawal env grantId g amount = .ok env') :
    env.Holds amount := by
  unfold payWithdrawal readGrantToken readAdmin at h
  simp only [Env.setBreakers, bind_eq_ok, okOr_eq_ok, transfer_eq_ok, TokenLedger.transfer_eq_some]
    at h
  obtain ⟨_, -, token, htoken, _, ⟨_, ⟨⟨-, hle⟩, -⟩, -⟩, -⟩ := h
  intro token' htoken'
  obtain rfl := Option.some.inj (htoken'.symm.trans htoken)
  exact hle

theorem withdraw_iff (hg : env.grants grantId = some g) (hp : settleGrant g env.timestamp = .ok p)
    (hmark : g.status ≠ .cancelled → g.cancellationInitiatedAt = 0)
    (hclaimable : I128.InRange p.claimable) (hrange : I128.InRange (p.withdrawn + p.claimable))
    (hwithdrawn : 0 ≤ p.withdrawn) (htoken : env.grantToken ≠ none) (hadmin : env.admin ≠ none) :
    (∃ env', withdraw env grantId amount = .ok env') ↔
      g.recipient ∈ env.auths ∧ (g.status ≠ .cancelled ∧ g.status ≠ .rageQuitted) ∧
        env.Unobstructed ∧ p.gateClosed = false ∧ minWithdrawal ≤ p.claimable ∧ 0 < amount ∧
          amount ≤ p.claimable ∧ env.Holds amount := by
  constructor
  · rintro ⟨env', h⟩
    obtain ⟨g₁, hg₁, h⟩ := bind_eq_ok.mp h
    obtain rfl := Option.some.inj ((okOr_eq_ok.mp hg₁).symm.trans hg)
    simp only [bind_eq_ok, ensure_eq_ok, requireAuth_eq_ok] at h
    obtain ⟨_, hauth, _, hamount, _, hstatus, _, hsoft, _, hfrozen, _, hrent, m, hm, hpay⟩ := h
    obtain ⟨s, hs, hgate, hmin, hle, -⟩ := debitWithdrawal_eq_ok hm
    obtain rfl := hs.eq_settled.trans (settleGrant_eq_ok hp).eq_settled.symm
    have hholds : (env.writeGrant grantId m).Holds amount := balance_of_payWithdrawal hpay
    exact ⟨hauth, hstatus, ⟨hsoft, hfrozen, hrent⟩, hgate, hmin, hamount, hle, hholds⟩
  · rintro ⟨hauth, hstatus, hfree, hgate, hmin, hamount, hle, hholds⟩
    obtain ⟨token, htoken⟩ := Option.ne_none_iff_exists'.mp htoken
    have hdebit := debitWithdrawal_of_le hp (hmark hstatus.1) hgate hmin hamount hle hclaimable
      hrange hwithdrawn
    obtain ⟨env', hpay, -⟩ := payWithdrawal_succeeds (env.writeGrant grantId
      (p.debited amount env.timestamp)) grantId (p.debited amount env.timestamp) hfree.softPaused
      hamount htoken hadmin (hholds token htoken)
    refine ⟨env', ?_⟩
    unfold withdraw readGrant
    simp only [bind_eq_ok, okOr_eq_ok, ensure_eq_ok, Env.requireAuth, require_eq_ok]
    exact ⟨g, hg, (), hauth, (), hamount, (), hstatus, (), hfree.softPaused, (), hfree.oracleFrozen,
      (), hfree.rent, _, hdebit, hpay⟩

theorem withdrawValidator_iff (hg : env.grants grantId = some g)
    (hp : settleGrant g env.timestamp = .ok p) (hclaimable : I128.InRange p.validatorClaimable)
    (hrange : I128.InRange (p.validatorWithdrawn + p.validatorClaimable))
    (hwithdrawn : 0 ≤ p.validatorWithdrawn) (htoken : env.grantToken ≠ none)
    (hadmin : env.admin ≠ none) :
    (∃ env', withdrawValidator env grantId amount = .ok env') ↔
      (∃ validator ∈ env.auths, g.validator = some validator) ∧
        (g.status ≠ .cancelled ∧ g.status ≠ .rageQuitted) ∧ 0 < amount ∧
          amount ≤ p.validatorClaimable ∧ env.Holds amount := by
  unfold withdrawValidator readGrant readGrantToken readAdmin
  simp only [bind_eq_ok, okOr_eq_ok, ensure_eq_ok, requireAuth_eq_ok, transfer_eq_ok, pure_eq_ok,
    I128.checkedSub_eq_some, I128.checkedAdd_eq_some, TokenLedger.transfer_eq_some]
  constructor
  · rintro ⟨env', g₁, hg₁, validator, hvalidator, _, hauth, _, hstatus, s, hs, _, ⟨hamount, hle⟩,
      _, -, _, -, token, htoken, _, ⟨_, ⟨⟨-, hholds⟩, -⟩, -⟩, -⟩
    obtain rfl := Option.some.inj (hg₁.symm.trans hg)
    obtain rfl := Except.ok.inj (hs.symm.trans hp)
    refine ⟨⟨validator, hauth, hvalidator⟩, hstatus, hamount, hle, ?_⟩
    intro token' htoken'
    obtain rfl := Option.some.inj (htoken'.symm.trans htoken)
    exact hholds
  · rintro ⟨⟨validator, hauth, hvalidator⟩, hstatus, hamount, hle, hholds⟩
    obtain ⟨token, htoken⟩ := Option.ne_none_iff_exists'.mp htoken
    obtain ⟨admin, hadmin⟩ := Option.ne_none_iff_exists'.mp hadmin
    exact ⟨_, g, hg, validator, hvalidator, (), hauth, (), hstatus, p, hp, (), ⟨hamount, hle⟩,
      _, ⟨hclaimable.of_nonneg_of_le (by omega) (by omega), rfl⟩,
      _, ⟨hrange.of_nonneg_of_le (by omega) (by omega), rfl⟩, token, htoken, _,
      ⟨_, ⟨⟨hamount.le, hholds token htoken⟩, rfl⟩, rfl⟩, admin, hadmin, rfl⟩

/-! ### Reachable states -/

/-- What `grantId`, which is `g`, pays out at `timestamp` to those in `auths`, if the view tells
`granteeDue` and `validatorDue`. -/
structure Previewed (env : Env) (timestamp sequence : Nat) (auths : List Address) (grantId : Nat)
    (g : Grant) (granteeDue validatorDue : Int) : Prop where
  grantee : ∀ amount,
    (∃ env', env.attempt timestamp sequence auths (.withdraw grantId amount) = .ok env') ↔
      g.recipient ∈ auths ∧ (g.status ≠ .cancelled ∧ g.status ≠ .rageQuitted) ∧
        env.Unobstructed ∧ g.gateClosed = false ∧ minWithdrawal ≤ granteeDue ∧ 0 < amount ∧
          amount ≤ granteeDue ∧ env.Holds amount
  validator : ∀ amount,
    (∃ env', env.attempt timestamp sequence auths (.withdrawValidator grantId amount) =
        .ok env') ↔
      (∃ validator ∈ auths, g.validator = some validator) ∧
        (g.status ≠ .cancelled ∧ g.status ≠ .rageQuitted) ∧ 0 < amount ∧
          amount ≤ validatorDue ∧ env.Holds amount
  granteeLeft : ∀ amount env',
    env.attempt timestamp sequence auths (.withdraw grantId amount) = .ok env' →
      getCurrentClaimableAmounts { env' with timestamp } grantId =
        .ok (granteeDue - amount, validatorDue)
  validatorLeft : ∀ amount env',
    env.attempt timestamp sequence auths (.withdrawValidator grantId amount) = .ok env' →
      getCurrentClaimableAmounts { env' with timestamp } grantId =
        .ok (granteeDue, validatorDue - amount)

/-- **Previews.** In every reachable state and at every time, whenever the view of a grant tells
two amounts, its grantee and its validator can take any amount up to theirs, if nothing that is
listed stands in the way, and nothing else; and what one takes comes off what the view tells. -/
theorem previews_exact (h : Reachable trace env) (hg : env.grants grantId = some g)
    (hpreview : getCurrentClaimableAmounts { env with timestamp } grantId =
      .ok (granteeDue, validatorDue)) (sequence : Nat) (auths : List Address) :
    Previewed env timestamp sequence auths grantId g granteeDue validatorDue := by
  obtain ⟨g', p, hg', hp, rfl, rfl⟩ := getCurrentClaimableAmounts_eq_ok.mp hpreview
  obtain rfl : g = g' := Option.some.inj (hg.symm.trans hg')
  dsimp only at hp
  have hs := settleGrant_eq_ok hp
  have hwf₀ := wellFormed_of_reachable h hg
  have hwf := hwf₀.of_settles hs
  have hsealed := sealed_of_reachable h hg
  have hvrange := hs.validatorRange hwf₀ hsealed.validatorRange
  have hrange : I128.InRange (p.withdrawn + p.claimable) :=
    hwf.totalAmount_inRange.of_nonneg_of_le
      (add_nonneg hwf.withdrawn_nonneg hwf.claimable_nonneg) hwf.grantee_le
  have hclaimable := hwf.claimable_nonneg
  have hvclaimable := hwf.validatorClaimable_nonneg
  have hwithdrawn := hwf.withdrawn_nonneg
  have hvwithdrawn := hwf.validatorWithdrawn_nonneg
  have hmark : g.status ≠ .cancelled → g.cancellationInitiatedAt = 0 := by
    intro hnc
    by_contra hc
    exact hnc (hsealed.cancelled hc)
  have hgate : p.gateClosed = g.gateClosed := by
    rw [hs.eq_settled]
    exact g.settled_gateClosed timestamp
  obtain ⟨hadmin, htoken⟩ := (registered_of_reachable h).configured grantId
    (show env.grants grantId ≠ none by simp [hg])
  have hunobstructed {event : Event} : (env.enter event).Unobstructed ↔ env.Unobstructed :=
    ⟨fun hfree => ⟨hfree.1, hfree.2, hfree.3⟩, fun hfree => ⟨hfree.1, hfree.2, hfree.3⟩⟩
  have hleft {env' : Env} {m : Grant} (hm : env'.grants grantId = some m)
      (hlast : m.lastUpdateTs = timestamp) :
      getCurrentClaimableAmounts { env' with timestamp } grantId =
        .ok (m.claimable, m.validatorClaimable) :=
    getCurrentClaimableAmounts_eq_ok.mpr
      ⟨m, m, hm, settleGrant_of_lastUpdateTs hlast, rfl, rfl⟩
  refine ⟨fun amount => ?_, fun amount => ?_, fun amount env' hexec => ?_,
    fun amount env' hexec => ?_⟩
  · let event : Event := ⟨timestamp, sequence, .invoke auths (.withdraw grantId amount)⟩
    have hg₁ : (env.enter event).grants grantId = some g := hg
    have hp₁ : settleGrant g (env.enter event).timestamp = .ok p := hp
    have hiff : (∃ env', withdraw (env.enter event) grantId amount = .ok env') ↔ _ :=
      withdraw_iff hg₁ hp₁ hmark (hrange.of_nonneg_of_le hclaimable (by omega)) hrange hwithdrawn
        htoken hadmin
    rw [hunobstructed, hgate] at hiff
    exact hiff
  · let event : Event := ⟨timestamp, sequence, .invoke auths (.withdrawValidator grantId amount)⟩
    have hg₁ : (env.enter event).grants grantId = some g := hg
    have hp₁ : settleGrant g (env.enter event).timestamp = .ok p := hp
    exact withdrawValidator_iff hg₁ hp₁ (hvrange.of_nonneg_of_le hvclaimable (by omega)) hvrange
      hvwithdrawn htoken hadmin
  · obtain ⟨g₁, a', payments, hg₁, hstep, -, hv⟩ := withdraw_operates hexec
    obtain rfl : g₁ = g := Option.some.inj (hg₁.symm.trans hg)
    have hgrant : env'.grants grantId = some a'.grant :=
      (congrFun (congrArg Vault.grants hv) grantId).trans (Function.update_self ..)
    cases hstep with
    | withdraw hs' _ _ _ _ _ hm =>
        obtain rfl := hs'.eq_settled.trans hs.eq_settled.symm
        subst hm
        exact hleft hgrant hs.lastUpdateTs
  · obtain ⟨g₁, a', payments, hg₁, hstep, -, hv⟩ := withdrawValidator_operates hexec
    obtain rfl : g₁ = g := Option.some.inj (hg₁.symm.trans hg)
    have hgrant : env'.grants grantId = some a'.grant :=
      (congrFun (congrArg Vault.grants hv) grantId).trans (Function.update_self ..)
    cases hstep with
    | withdrawValidator hs' _ _ _ _ hm =>
        obtain rfl := hs'.eq_settled.trans hs.eq_settled.symm
        subst hm
        exact hleft hgrant hs.lastUpdateTs

/-- A grantee takes a part of what it is told after a stream has run out, and not more than it is
told. -/
theorem previews_exact_of_stream :
    let run := history Demo.env (Demo.setUp 60000000 ++
      [Demo.call 1 (.createGrant 7 Demo.grantee 60000000 1000000 0 none none)])
    (∃ env', run.2.attempt 100 0 [Demo.grantee] (.withdraw 7 12000000) = .ok env') ∧
      ¬∃ env', run.2.attempt 100 0 [Demo.grantee] (.withdraw 7 60000001) = .ok env' := by
  intro run
  have hrun : Reachable run.1 run.2 := history_reachable Demo.env_deployed (by decide)
  have hgrant : run.2.grants 7 =
      some (newGrant 1 Demo.grantee 60000000 1000000 0 none none Demo.token) := rfl
  have hdue : getCurrentClaimableAmounts { run.2 with timestamp := 100 } 7 =
      .ok (60000000, 0) := by
    have hsettle :
        settleGrant (newGrant 1 Demo.grantee 60000000 1000000 0 none none Demo.token) 100 =
          .ok _ := rfl
    exact getCurrentClaimableAmounts_eq_ok.mpr ⟨_, _, hgrant, hsettle, rfl, rfl⟩
  have hexact := previews_exact hrun hgrant hdue 0 [Demo.grantee]
  refine ⟨(hexact.grantee 12000000).mpr ⟨by decide, by decide, ⟨rfl, rfl, rfl⟩, rfl, by decide,
    by decide, by decide, ?_⟩, ?_⟩
  · intro token htoken
    cases htoken
    decide
  · rw [hexact.grantee]
    rintro ⟨-, -, -, -, -, -, hle, -⟩
    exact absurd hle (by decide)

end YieldTrust.GrantStream
