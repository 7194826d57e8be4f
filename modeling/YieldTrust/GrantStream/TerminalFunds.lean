import YieldTrust.GrantStream.Invariants
import YieldTrust.GrantStream.Registry

/-!
# YieldTrust.GrantStream.TerminalFunds

What a grant that has ended still holds for its grantee and its validator. A
completed grant can be claimed from, in full, as long as the claimable balance
reaches the minimum; a cancelled one keeps its balances but pays nothing any
more. Nothing of this is swept or deleted.
-/

namespace YieldTrust.GrantStream

open Fallible

/-! ### Fields that the end of a grant leaves -/

/-- What a stored grant looks like once it was terminated, and what keeps the
validator's side payable. -/
structure Grant.Sealed (grant : Grant) : Prop where
  cancelled : grant.cancellationInitiatedAt ≠ 0 → grant.status = .cancelled
  rageQuitted : grant.status = .rageQuitted →
    grant.claimable = 0 ∧ grant.validatorClaimable = 0
  validatorRange : I128.InRange (grant.validatorWithdrawn + grant.validatorClaimable)

@[simp] theorem Grant.settled_cancellationInitiatedAt (grant : Grant) (now : Nat) :
    (grant.settled now).cancellationInitiatedAt = grant.cancellationInitiatedAt := by
  rw [settled_eq]

/-- The sum that a settlement checks bounds the validator's side. -/
theorem Settles.validatorRange {grant s : Grant} {now₀ now : Nat} (hs : Settles grant now s)
    (hwf : grant.WellFormed now₀)
    (h : I128.InRange (grant.validatorWithdrawn + grant.validatorClaimable)) :
    I128.InRange (s.validatorWithdrawn + s.validatorClaimable) := by
  have hrange := hs.inRange
  obtain rfl := hs.eq_settled
  rw [Grant.settled_validatorWithdrawn, Grant.settled_validatorClaimable]
  by_cases ha : grant.accrues now
  · have hgate : ¬(grant.status = .active ∧ grant.gateClosed = true) := by
      rintro ⟨-, hg⟩
      rw [ha.2.2] at hg
      cases hg
    have hsum := hrange ha.1 hgate
    rw [Grant.credited_accounted ha.1 hgate] at hsum
    have hshare := hwf.rates.dueShare_le now
    have hnonneg := grant.dueShare_nonneg now
    have hw := hwf.withdrawn_nonneg
    have hc := hwf.claimable_nonneg
    have hvw := hwf.validatorWithdrawn_nonneg
    have hvc := hwf.validatorClaimable_nonneg
    refine hsum.of_nonneg_of_le (by omega) ?_
    unfold Grant.accounted
    omega
  · unfold Grant.dueShare
    rw [if_neg ha, add_zero]
    exact h

theorem Settles.status_ne {grant s : Grant} {now : Nat} {status : GrantStatus}
    (hs : Settles grant now s) (h : grant.status ≠ status) (hc : status ≠ .completed) :
    s.status ≠ status := by
  rw [hs.eq_settled, Grant.settled_status]
  split_ifs
  · exact hc.symm
  · exact h

theorem Settles.cancellationInitiatedAt {grant s : Grant} {now : Nat} (hs : Settles grant now s) :
    s.cancellationInitiatedAt = grant.cancellationInitiatedAt := by
  rw [hs.eq_settled]
  exact grant.settled_cancellationInitiatedAt now

/-- A grant that is neither cancelled nor quit, before and after. -/
theorem Grant.Sealed.of_live {grant m : Grant} (h : grant.Sealed) (hnc : grant.status ≠ .cancelled)
    (hmark : m.cancellationInitiatedAt = grant.cancellationInitiatedAt)
    (hst : m.status ≠ .rageQuitted)
    (hrange : I128.InRange (m.validatorWithdrawn + m.validatorClaimable)) : m.Sealed := by
  refine ⟨fun hc => ?_, fun hr => absurd hr hst, hrange⟩
  rw [hmark] at hc
  exact absurd (h.cancelled hc) hnc

theorem GrantStep.sealed {now₀ now : Nat} {treasury : Option Address} {op : GrantOp}
    {a a' : Account} {payments : List Payment} (hstep : GrantStep now treasury op a a' payments)
    (hwf : a.grant.WellFormed now₀) (h : a.grant.Sealed) : a'.grant.Sealed := by
  have hactive {g : Grant} (hst : g.status = .active) :
      g.status ≠ .cancelled ∧ g.status ≠ .rageQuitted := by
    rw [hst]
    decide
  have hpaused {g : Grant} (hst : g.status = .paused) :
      g.status ≠ .cancelled ∧ g.status ≠ .rageQuitted := by
    rw [hst]
    decide
  cases hstep with
  | withdraw hs _ hstatus _ _ _ hm =>
      have hrange := hs.validatorRange hwf h.validatorRange
      subst hm
      exact h.of_live hstatus.1 hs.cancellationInitiatedAt (hs.status_ne hstatus.2 (by decide)) hrange
  | withdrawValidator hs _ hstatus _ _ hm =>
      have hrange := hs.validatorRange hwf h.validatorRange
      subst hm
      refine h.of_live hstatus.1 hs.cancellationInitiatedAt (hs.status_ne hstatus.2 (by decide)) ?_
      dsimp only
      rwa [show ∀ x y d : Int, x + d + (y - d) = x + y by omega]
  | pause hs hstatus hm =>
      have hrange := hs.validatorRange hwf h.validatorRange
      subst hm
      exact h.of_live (hactive hstatus).1 hs.cancellationInitiatedAt (by dsimp only; decide) hrange
  | proposeIncrease hs hstatus _ _ hm | proposeDecrease hs hstatus _ _ hm
  | applyKpi hs hstatus _ hm =>
      have hrange := hs.validatorRange hwf h.validatorRange
      subst hm
      exact h.of_live (hactive hstatus).1 hs.cancellationInitiatedAt
        (hs.status_ne (hactive hstatus).2 (by decide)) hrange
  | clawbackNothing hs hstatus _ hm | clawbackContested hs hstatus _ hm
  | clawbackToDonor hs hstatus _ _ hm =>
      have hrange := hs.validatorRange hwf h.validatorRange
      have hnc := (hstatus.elim hactive hpaused).1
      subst hm
      exact h.of_live hnc hs.cancellationInitiatedAt (by dsimp only; decide) hrange
  | rageQuit hs hstatus _ hm =>
      have hrange := hs.validatorRange hwf h.validatorRange
      have hmark := hs.cancellationInitiatedAt
      subst hm
      refine ⟨fun hc => ?_, fun _ => ⟨rfl, rfl⟩, by dsimp only; rwa [add_zero]⟩
      exact absurd (h.cancelled (hmark ▸ hc)) (hpaused hstatus).1
  | cancel hs _ _ hm =>
      have hrange := hs.validatorRange hwf h.validatorRange
      subst hm
      exact ⟨fun _ => rfl, fun hr => absurd hr (by dsimp only; decide), hrange⟩
  | resume hstatus hm =>
      subst hm
      exact h.of_live (hpaused hstatus).1 rfl (by dsimp only; decide) h.validatorRange
  | changeGrantee hstatus _ hm =>
      subst hm
      exact { h with }
  | resolveToDonor => exact h
  | resolveToGrantee hstatus _ _ _ hm =>
      subst hm
      exact h.of_live (by rw [hstatus]; decide) rfl (by dsimp only; decide) h.validatorRange
  | setLegal hm | signLegal _ hm =>
      subst hm
      exact { h with }

theorem sealed_of_reachable {trace : Trace} {env : Env} (h : Reachable trace env)
    {grantId : Nat} {g : Grant} (hg : env.grants grantId = some g) : g.Sealed := by
  have hinv := account_invariant_when (C := fun _ => True) (P := fun _ _ _ a => a.grant.Sealed)
    ?_ ?_ ?_ h hg fun _ _ => trivial
  · obtain ⟨o, -, hsealed⟩ := hinv
    exact hsealed
  · rintro now recipient totalAmount flowRate warmupDuration validator donor token _ _ _ _ rfl
    exact ⟨fun hc => absurd rfl hc, fun hr => absurd hr (by dsimp only [newGrant]; decide),
      I128.inRange_zero⟩
  · intro o L e a _ _ ih _ _ _
    exact ih
  · intro o L e op a a' payments _ hwf ih _ _ _ hstep
    exact hstep.sealed hwf ih

/-- A grant whose grantee quit holds nothing, settled or not. -/
theorem Grant.Sealed.settled_rageQuitted {grant : Grant} (h : grant.Sealed)
    (hr : grant.status = .rageQuitted) (now : Nat) :
    (grant.settled now).claimable = 0 ∧ (grant.settled now).validatorClaimable = 0 := by
  obtain ⟨hc, hv⟩ := h.rageQuitted hr
  have hna : grant.status ≠ .active := by
    rw [hr]
    decide
  rw [settled_claimable, settled_validatorClaimable, dueShare_of_not_active hna,
    dueAccrual_of_not_active hna, hc, hv]
  refine ⟨?_, rfl⟩
  split_ifs with hd
  · have hfull := hd.2.2
    rw [dueAccrual_of_not_active hna] at hfull
    unfold accounted at hfull
    omega
  · rfl

/-! ### Withdrawals that go through -/

/-- No circuit breaker stops a withdrawal. -/
structure Env.Unobstructed (env : Env) : Prop where
  softPaused : CircuitBreakers.isSoftPaused env = false
  oracleFrozen : CircuitBreakers.isOracleFrozen env = false
  rent : CircuitBreakers.isFunctionAllowed env false = true

theorem recordWithdrawalVelocity_succeeds {env : Env} {amount : Int}
    (hfree : CircuitBreakers.isSoftPaused env = false) (hamount : 0 < amount) :
    ∃ v, CircuitBreakers.recordWithdrawalVelocity env amount = .ok v := by
  unfold CircuitBreakers.recordWithdrawalVelocity
  simp only [bind_eq_ok, ensure_eq_ok, require_eq_ok]
  exact ⟨_, (), hfree, (), hamount, rfl⟩

theorem Env.transfer_succeeds (env : Env) (token target : Address) {amount : Int}
    (hamount : 0 ≤ amount) (hbalance : amount ≤ env.balanceOf token env.self) :
    ∃ tokens, env.transfer token env.self target amount = .ok { env with tokens } := by
  unfold Env.transfer
  simp only [bind_eq_ok, orTrap_eq_ok, TokenLedger.transfer_eq_some]
  exact ⟨_, _, ⟨⟨hamount, hbalance⟩, rfl⟩, rfl⟩

/-- Everything claimable can be taken from a settled grant. -/
theorem debitWithdrawal_succeeds {grant p : Grant} {now : Nat} (hp : settleGrant grant now = .ok p)
    (hmark : grant.cancellationInitiatedAt = 0) (hgate : p.gateClosed = false)
    (hmin : minWithdrawal ≤ p.claimable) (hrange : I128.InRange (p.withdrawn + p.claimable)) :
    debitWithdrawal grant now p.claimable = .ok { p with
      claimable := 0
      withdrawn := p.withdrawn + p.claimable
      lastClaimTime := now } := by
  unfold debitWithdrawal
  simp only [bind_eq_ok, ensure_eq_ok, okOr_eq_ok, I128.checkedSub_eq_some,
    I128.checkedAdd_eq_some]
  refine ⟨p, hp, (), hgate, (), hmin, (), le_refl _, _, ⟨?_, rfl⟩, _, ⟨hrange, rfl⟩, ?_⟩
  · rw [Int.sub_self]
    decide
  · rw [if_neg (by simp [hmark]), Int.sub_self]
    rfl

theorem payWithdrawal_succeeds (env : Env) (grantId : Nat) (grant : Grant) {token : Address}
    {amount : Int} (hfree : CircuitBreakers.isSoftPaused env = false) (hamount : 0 < amount)
    (htoken : env.grantToken = some token) (hadmin : env.admin ≠ none)
    (hbalance : amount ≤ env.balanceOf token env.self) :
    ∃ env', payWithdrawal env grantId grant amount = .ok env' ∧
      env'.grants = env.grants := by
  obtain ⟨v, hv⟩ := recordWithdrawalVelocity_succeeds hfree hamount
  obtain ⟨admin, hadmin⟩ := Option.ne_none_iff_exists'.mp hadmin
  have hpay (env₁ : Env) (target : Address) (ht : env₁.tokens = env.tokens)
      (hself : env₁.self = env.self) :
      ∃ tokens, env₁.transfer token env₁.self target amount = .ok { env₁ with tokens } := by
    refine env₁.transfer_succeeds token target hamount.le ?_
    unfold Env.balanceOf
    rw [ht, hself]
    exact hbalance
  obtain ⟨tokens, htransfer⟩ := hpay
    ((env.setBreakers v.1).setBreakers (CircuitBreakers.checkRentBalance (env.setBreakers v.1)).1)
    (grant.redirect.getD grant.recipient) rfl rfl
  unfold payWithdrawal readGrantToken readAdmin
  simp only [bind_eq_ok, okOr_eq_ok]
  refine ⟨_, ⟨v, hv, token, htoken, _, htransfer, admin, hadmin, pure_eq_ok.mpr rfl⟩, ?_⟩
  -- what is recorded after the transfer does not touch the vault
  have hgrants (e : Env) : e.grants = e.vault.grants := rfl
  rw [hgrants, Env.setAudit_vault, Env.setFlowHistory_vault, Env.recordClaimValue_vault]
  rfl

theorem withdraw_succeeds {env : Env} {grantId : Nat} {g p : Grant} {token : Address}
    (hg : env.grants grantId = some g) (hp : settleGrant g env.timestamp = .ok p)
    (hauth : g.recipient ∈ env.auths)
    (hstatus : g.status ≠ .cancelled ∧ g.status ≠ .rageQuitted) (hfree : env.Unobstructed)
    (hgate : p.gateClosed = false) (hmin : minWithdrawal ≤ p.claimable)
    (hmark : g.cancellationInitiatedAt = 0) (hrange : I128.InRange (p.withdrawn + p.claimable))
    (htoken : env.grantToken = some token) (hadmin : env.admin ≠ none)
    (hbalance : p.claimable ≤ env.balanceOf token env.self) :
    ∃ env' g', withdraw env grantId p.claimable = .ok env' ∧ env'.grants grantId = some g' ∧
      g'.claimable = 0 := by
  have hpos : 0 < p.claimable := by
    unfold minWithdrawal at hmin
    omega
  have hdebit := debitWithdrawal_succeeds hp hmark hgate hmin hrange
  obtain ⟨m, hm⟩ : ∃ m, m = { p with
      claimable := 0
      withdrawn := p.withdrawn + p.claimable
      lastClaimTime := env.timestamp } := ⟨_, rfl⟩
  rw [← hm] at hdebit
  obtain ⟨env', hpay, hgrants⟩ := payWithdrawal_succeeds (env.writeGrant grantId m) grantId m
    hfree.softPaused hpos htoken hadmin hbalance
  refine ⟨env', m, ?_, (congrFun hgrants grantId).trans (Function.update_self ..), by rw [hm]⟩
  unfold withdraw readGrant
  simp only [bind_eq_ok, okOr_eq_ok, ensure_eq_ok, Env.requireAuth, require_eq_ok]
  exact ⟨g, hg, (), hauth, (), hpos, (), hstatus, (), hfree.softPaused, (), hfree.oracleFrozen,
    (), hfree.rent, m, hdebit, hpay⟩

theorem withdrawValidator_succeeds {env : Env} {grantId : Nat} {g p : Grant}
    {validator token : Address} (hg : env.grants grantId = some g)
    (hp : settleGrant g env.timestamp = .ok p) (hvalidator : g.validator = some validator)
    (hauth : validator ∈ env.auths)
    (hstatus : g.status ≠ .cancelled ∧ g.status ≠ .rageQuitted)
    (hpos : 0 < p.validatorClaimable)
    (hrange : I128.InRange (p.validatorWithdrawn + p.validatorClaimable))
    (htoken : env.grantToken = some token) (hadmin : env.admin ≠ none)
    (hbalance : p.validatorClaimable ≤ env.balanceOf token env.self) :
    ∃ env' g', withdrawValidator env grantId p.validatorClaimable = .ok env' ∧
      env'.grants grantId = some g' ∧ g'.validatorClaimable = 0 := by
  obtain ⟨admin, hadmin⟩ := Option.ne_none_iff_exists'.mp hadmin
  obtain ⟨m, hm⟩ : ∃ m, m = { p with
      validatorClaimable := 0
      validatorWithdrawn := p.validatorWithdrawn + p.validatorClaimable } := ⟨_, rfl⟩
  obtain ⟨tokens, htransfer⟩ := (env.writeGrant grantId m).transfer_succeeds token validator
    hpos.le hbalance
  have hok : withdrawValidator env grantId p.validatorClaimable =
      .ok { env.writeGrant grantId m with tokens } := by
    unfold withdrawValidator readGrant readGrantToken readAdmin
    simp only [bind_eq_ok, okOr_eq_ok, ensure_eq_ok, Env.requireAuth, require_eq_ok,
      I128.checkedSub_eq_some, I128.checkedAdd_eq_some]
    rw [hm] at htransfer ⊢
    refine ⟨g, hg, validator, hvalidator, (), hauth, (), hstatus, p, hp, (), ⟨hpos, le_refl _⟩,
      0, ⟨?_, Int.sub_self _⟩, _, ⟨hrange, rfl⟩, token, htoken, _, htransfer, admin, hadmin, rfl⟩
    rw [Int.sub_self]
    decide
  refine ⟨_, m, hok, Function.update_self .., ?_⟩
  rw [hm]

/-! ### A grant that has ended -/

/-- The contract has `amount` of the grant token. -/
def Env.Holds (env : Env) (amount : Int) : Prop :=
  ∀ token, env.grantToken = some token → amount ≤ env.balanceOf token env.self

/-- What is left to claim from `grantId`, which is `g` and would be settled to
`p`, can be claimed. -/
structure Claimable (env : Env) (timestamp sequence : Nat) (auths : List Address) (grantId : Nat)
    (g p : Grant) : Prop where
  grantee : minWithdrawal ≤ p.claimable → g.recipient ∈ auths → p.gateClosed = false →
    env.Unobstructed → env.Holds p.claimable →
    ∃ env' g', env.attempt timestamp sequence auths (.withdraw grantId p.claimable) = .ok env' ∧
      env'.grants grantId = some g' ∧ g'.claimable = 0
  validator : ∀ validator, g.validator = some validator → 0 < p.validatorClaimable →
    validator ∈ auths → env.Holds p.validatorClaimable →
    ∃ env' g', env.attempt timestamp sequence auths
        (.withdrawValidator grantId p.validatorClaimable) = .ok env' ∧
      env'.grants grantId = some g' ∧ g'.validatorClaimable = 0

/-- What is left to claim from `grantId` is neither swept by a cancellation nor
deleted by a purge. -/
structure KeptBack (env : Env) (timestamp sequence : Nat) (auths : List Address) (grantId : Nat)
    (p : Grant) : Prop where
  cancel : ∀ env', env.attempt timestamp sequence auths (.cancelGrant grantId) = .ok env' →
    ∃ g' payments, env'.grants grantId = some g' ∧ g'.claimable = p.claimable ∧
      g'.validatorClaimable = p.validatorClaimable ∧
      Pays (env.enter ⟨timestamp, sequence, .invoke auths (.cancelGrant grantId)⟩) payments env' ∧
      Sweep env.treasury (p.totalAmount - p.accounted) payments
  purge : 0 < p.claimable ∨ 0 < p.validatorClaimable → ∀ purger env',
    env.attempt timestamp sequence auths (.finalizeAndPurge grantId purger) ≠ .ok env'

theorem claimable_of_not_cancelled {trace : Trace} {env : Env} (h : Reachable trace env)
    {grantId : Nat} {g p : Grant} (hg : env.grants grantId = some g) {timestamp : Nat}
    (hp : settleGrant g timestamp = .ok p) (sequence : Nat) (auths : List Address)
    (hnc : g.status ≠ .cancelled) :
    Claimable env timestamp sequence auths grantId g p := by
  have hs := settleGrant_eq_ok hp
  have hwf := (wellFormed_of_reachable h hg).of_settles hs
  have hsealed := sealed_of_reachable h hg
  have hrange := hs.validatorRange (wellFormed_of_reachable h hg) hsealed.validatorRange
  have hmark : g.cancellationInitiatedAt = 0 := by
    by_contra hc
    exact hnc (hsealed.cancelled hc)
  have hquit (hr : g.status = .rageQuitted) : p.claimable = 0 ∧ p.validatorClaimable = 0 := by
    rw [hs.eq_settled]
    exact hsealed.settled_rageQuitted hr timestamp
  obtain ⟨hadmin, htoken⟩ := (registered_of_reachable h).configured grantId
    (show env.grants grantId ≠ none by simp [hg])
  obtain ⟨token, htoken⟩ := Option.ne_none_iff_exists'.mp htoken
  constructor
  · intro hmin hauth hgate hfree hholds
    have hnr : g.status ≠ .rageQuitted := fun hr => by
      rw [(hquit hr).1] at hmin
      exact absurd hmin (by decide)
    exact withdraw_succeeds hg hp hauth ⟨hnc, hnr⟩ ⟨hfree.1, hfree.2, hfree.3⟩ hgate hmin hmark
      (hwf.totalAmount_inRange.of_nonneg_of_le
        (add_nonneg hwf.withdrawn_nonneg hwf.claimable_nonneg) hwf.grantee_le)
      htoken hadmin (hholds token htoken)
  · intro validator hvalidator hpos hauth hholds
    have hnr : g.status ≠ .rageQuitted := fun hr => by
      rw [(hquit hr).2] at hpos
      exact absurd hpos (by decide)
    exact withdrawValidator_succeeds hg hp hvalidator hauth ⟨hnc, hnr⟩ hpos hrange htoken hadmin
      (hholds token htoken)

theorem keptBack_of_reachable {env : Env} {grantId : Nat} {g p : Grant}
    (hg : env.grants grantId = some g) {timestamp : Nat} (hp : settleGrant g timestamp = .ok p)
    (sequence : Nat) (auths : List Address) : KeptBack env timestamp sequence auths grantId p := by
  have hs := settleGrant_eq_ok hp
  have hsame {s : Grant} (hs' : Settles g timestamp s) : s = p :=
    hs'.eq_settled.trans hs.eq_settled.symm
  constructor
  · intro env' hcancel
    obtain ⟨g₁, a', payments, hg₁, hstep, hpays, hv⟩ := cancelGrant_operates hcancel
    obtain rfl : g₁ = g := Option.some.inj (hg₁.symm.trans hg)
    have hgrant : env'.grants grantId = some a'.grant :=
      (congrFun (congrArg Vault.grants hv) grantId).trans (Function.update_self ..)
    cases hstep with
    | cancel hs' _ hsweep hm =>
        obtain rfl := hsame hs'
        subst hm
        exact ⟨_, payments, hgrant, rfl, rfl, hpays, hsweep⟩
  · intro hleft purger env' hpurge
    obtain ⟨g₁, s, hg₁, hs', hpurgeable, -⟩ := finalizeAndPurge_vault hpurge
    obtain rfl : g₁ = g := Option.some.inj (hg₁.symm.trans hg)
    obtain rfl := hsame hs'
    have hc := hpurgeable.claimable
    have hv := hpurgeable.validatorClaimable
    omega

/-- Nothing can be withdrawn from a grant that is stored as cancelled. -/
theorem withdrawals_rejected (env : Env) {grantId : Nat} {g : Grant}
    (hg : env.grants grantId = some g) (hc : g.status = .cancelled) (amount : Int) (env' : Env) :
    withdraw env grantId amount ≠ .ok env' ∧ withdrawValidator env grantId amount ≠ .ok env' := by
  constructor
  · intro h
    obtain ⟨g₁, a', payments, hg₁, hstep, -⟩ := withdraw_operates h
    obtain rfl : g₁ = g := Option.some.inj (hg₁.symm.trans hg)
    cases hstep with
    | withdraw _ _ hstatus => exact hstatus.1 hc
  · intro h
    obtain ⟨g₁, a', payments, hg₁, hstep, -⟩ := withdrawValidator_operates h
    obtain rfl : g₁ = g := Option.some.inj (hg₁.symm.trans hg)
    cases hstep with
    | withdrawValidator _ _ hstatus => exact hstatus.1 hc

/-- **Funds of a grant that has ended.** In every reachable state, a grant that
was not cancelled, completed or not, can be claimed from in full by its grantee,
from the minimum withdrawal on, and by its validator; a cancelled one by
neither. A cancellation keeps back what is left to claim, and a purge is refused
until it is gone. -/
theorem terminal_funds {trace : Trace} {env : Env} (h : Reachable trace env) {grantId : Nat}
    {g p : Grant} (hg : env.grants grantId = some g) {timestamp : Nat}
    (hp : settleGrant g timestamp = .ok p) (sequence : Nat) (auths : List Address) :
    (g.status ≠ .cancelled → Claimable env timestamp sequence auths grantId g p) ∧
    (g.status = .cancelled → ∀ amount env',
      env.attempt timestamp sequence auths (.withdraw grantId amount) ≠ .ok env' ∧
      env.attempt timestamp sequence auths (.withdrawValidator grantId amount) ≠ .ok env') ∧
    KeptBack env timestamp sequence auths grantId p :=
  ⟨claimable_of_not_cancelled h hg hp sequence auths,
    fun hc amount env' => ⟨(withdrawals_rejected (env.enter _) hg hc amount env').1,
      (withdrawals_rejected (env.enter _) hg hc amount env').2⟩,
    keptBack_of_reachable hg hp sequence auths⟩

/-- A completed grant of 60 that is claimed from by its grantee. -/
theorem terminal_funds_of_completed_stream :
    let run := history Demo.env (Demo.setUp 60000000 ++
      [Demo.call 1 (.createGrant 7 Demo.grantee 60000000 1000000 0 none none)])
    ∃ env' g', run.2.attempt 100 0 [Demo.grantee] (.withdraw 7 60000000) = .ok env' ∧
      env'.grants 7 = some g' ∧ g'.claimable = 0 := by
  intro run
  have hrun : Reachable run.1 run.2 := history_reachable Demo.env_deployed (by decide)
  have hclaimable := (@terminal_funds _ _ hrun 7 _ _ rfl 100 rfl 0 [Demo.grantee]).1 (by decide)
  exact hclaimable.grantee (by decide) (by decide) rfl ⟨rfl, rfl, rfl⟩ fun token htoken => by
    cases htoken
    decide

/-- A grant that is cancelled with a claimable balance above the minimum. -/
theorem terminal_funds_cancelled_stream :
    ¬∀ trace env grantId g timestamp p, Reachable trace env → env.grants grantId = some g →
      settleGrant g timestamp = .ok p → p.status = .completed ∨ p.status = .cancelled →
      0 < p.claimable → p.gateClosed = false → env.Unobstructed → env.Holds p.claimable →
      ∃ env', env.attempt timestamp 0 [g.recipient] (.withdraw grantId p.claimable) = .ok env' := by
  intro h
  let run := history Demo.env (Demo.setUp 60000000 ++
    [Demo.call 1 (.createGrant 7 Demo.grantee 60000000 1000000 0 none none),
      Demo.call 21 (.cancelGrant 7)])
  have hrun : Reachable run.1 run.2 := history_reachable Demo.env_deployed (by decide)
  obtain ⟨env', hok⟩ := h run.1 run.2 7 _ 31 _ hrun rfl rfl (.inr rfl) (by decide) rfl
    ⟨rfl, rfl, rfl⟩ fun token htoken => by
      cases htoken
      decide
  exact (withdrawals_rejected (run.2.enter _) rfl rfl _ env').1 hok

end YieldTrust.GrantStream
