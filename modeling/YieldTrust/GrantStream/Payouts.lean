import YieldTrust.GrantStream.Supply

/-!
# YieldTrust.GrantStream.Payouts

Seven operations pay out of the allocation of a grant, and each computes the
rest from other fields. What bounds their sum is a potential: what the contract
still **owes** on behalf of the grant, which a payment reduces by at least its
amount.
-/

namespace YieldTrust.GrantStream

/-! ### What is still owed -/

/-- What can still be paid on behalf of a grant, its escrow apart: the rest of
the allocation while the grant can be settled and terminated, afterwards what
was left to claim. -/
def Grant.owed (grant : Grant) : Int :=
  match grant.status with
  | .active | .paused | .completed =>
    grant.totalAmount - (grant.withdrawn + grant.validatorWithdrawn)
  | .cancelled | .rageQuitted | .clawbacked => grant.claimable + grant.validatorClaimable

def Account.owed (a : Account) : Int := a.grant.owed + a.escrow.getD 0

/-- An open escrow belongs to a clawbacked grant and is part of what the grant
has not earned. -/
def Account.EscrowFits (a : Account) : Prop :=
  ∀ x, a.escrow = some x → 0 < x ∧ a.grant.status = .clawbacked ∧
    a.grant.accounted + x ≤ a.grant.totalAmount

namespace Grant

theorem owed_of_open {grant : Grant}
    (h : grant.status = .active ∨ grant.status = .paused ∨ grant.status = .completed) :
    grant.owed = grant.totalAmount - (grant.withdrawn + grant.validatorWithdrawn) := by
  unfold owed
  rcases h with h | h | h <;> rw [h]

theorem owed_of_closed {grant : Grant}
    (h : grant.status = .cancelled ∨ grant.status = .rageQuitted ∨ grant.status = .clawbacked) :
    grant.owed = grant.claimable + grant.validatorClaimable := by
  unfold owed
  rcases h with h | h | h <;> rw [h]

/-- Moving `d` from the claimable to the withdrawn balances. -/
theorem owed_moved {s m : Grant} {d : Int} (hst : m.status = s.status)
    (htot : m.totalAmount = s.totalAmount)
    (hw : m.withdrawn + m.validatorWithdrawn = s.withdrawn + s.validatorWithdrawn + d)
    (hc : m.claimable + m.validatorClaimable = s.claimable + s.validatorClaimable - d) :
    m.owed = s.owed - d ∧ m.accounted = s.accounted := by
  constructor
  · unfold owed
    rw [hst, htot]
    cases s.status <;> dsimp only <;> omega
  · unfold accounted
    omega

/-- In every status at least the claimable balances are owed. -/
theorem claimable_le_owed {grant : Grant} (h : grant.accounted ≤ grant.totalAmount) :
    grant.claimable + grant.validatorClaimable ≤ grant.owed := by
  unfold accounted at h
  unfold owed
  split <;> omega

theorem status_cases (grant : Grant) :
    (grant.status = .active ∨ grant.status = .paused ∨ grant.status = .completed) ∨
    (grant.status = .cancelled ∨ grant.status = .rageQuitted ∨ grant.status = .clawbacked) := by
  cases grant.status <;> simp

/-- Settling a grant does not raise what is owed. -/
theorem owed_settled_le (grant : Grant) (now : Nat) :
    (grant.settled now).owed ≤ grant.owed := by
  have hst := grant.settled_status now
  rcases grant.status_cases with hopen | hclosed
  · have hopen' : (grant.settled now).status = .active ∨ (grant.settled now).status = .paused ∨
        (grant.settled now).status = .completed := by
      rw [hst]
      split_ifs
      · exact .inr (.inr rfl)
      · exact hopen
    rw [owed_of_open hopen, owed_of_open hopen']
    simp
  · have hna : grant.status ≠ .active := by
      rcases hclosed with h | h | h <;> rw [h] <;> decide
    rw [owed_of_closed hclosed]
    by_cases hd : grant.completes now
    · have hle := hd.2.2
      rw [dueAccrual_of_not_active hna] at hle
      rw [if_pos hd] at hst
      rw [owed_of_open (.inr (.inr hst)), settled_totalAmount, settled_withdrawn,
        settled_validatorWithdrawn]
      unfold accounted at hle
      omega
    · rw [if_neg hd] at hst
      rw [← hst] at hclosed
      rw [owed_of_closed hclosed, settled_validatorClaimable, settled_claimable, if_neg hd,
        dueAccrual_of_not_active hna, dueShare_of_not_active hna]
      omega

end Grant

theorem paymentSum_cons (p : Payment) (payments : List Payment) :
    paymentSum (p :: payments) = p.amount + paymentSum payments := rfl

theorem paymentSum_append (ps qs : List Payment) :
    paymentSum (ps ++ qs) = paymentSum ps + paymentSum qs := by
  simp [paymentSum]

theorem Sweep.sum {treasury : Option Address} {remaining : Int} {payments : List Payment}
    (h : Sweep treasury remaining payments) : paymentSum payments = max remaining 0 := by
  rcases h with ⟨hle, rfl⟩ | ⟨hpos, _, -, rfl⟩
  · exact (max_eq_right hle).symm
  · rw [max_eq_left hpos.le]
    exact Int.add_zero remaining

theorem validatorPayout_sum_le {validator : Option Address} {amount : Int} (h : 0 ≤ amount) :
    paymentSum (validatorPayout validator amount) ≤ amount := by
  unfold validatorPayout
  cases validator with
  | none => exact h
  | some target =>
      dsimp only
      split_ifs
      · exact (Int.add_zero amount).le
      · exact h

/-! ### Open escrows -/

namespace Account.EscrowFits

theorem escrow_none {a : Account} (h : a.EscrowFits) (hst : a.grant.status ≠ .clawbacked) :
    a.escrow = none := by
  cases hx : a.escrow with
  | none => rfl
  | some x => exact absurd (h x hx).2.1 hst

/-- Next to a grant that is accounted for in full there is no room for an escrow. -/
theorem escrow_none_of_full {g : Grant} {e : Option Int} (h : EscrowFits ⟨g, e⟩)
    (hfull : g.totalAmount ≤ g.accounted) : e = none := by
  cases he : e with
  | none => rfl
  | some x =>
      have hfits := h x he
      dsimp only at hfits
      omega

theorem of_none (g : Grant) : EscrowFits ⟨g, none⟩ := by
  intro x hx
  cases hx

theorem congr {g g' : Grant} {e : Option Int} (h : EscrowFits ⟨g, e⟩)
    (hst : g'.status = g.status) (hacc : g'.accounted = g.accounted)
    (htot : g'.totalAmount = g.totalAmount) : EscrowFits ⟨g', e⟩ := by
  intro x hx
  obtain ⟨hpos, hclaw, hle⟩ := h x hx
  refine ⟨hpos, hst.trans hclaw, ?_⟩
  show g'.accounted + x ≤ g'.totalAmount
  rw [hacc, htot]
  exact hle

/-- Settling a grant with an open escrow changes nothing but its clock. -/
theorem settled {g : Grant} {e : Option Int} (h : EscrowFits ⟨g, e⟩) (now : Nat) :
    EscrowFits ⟨g.settled now, e⟩ := by
  intro x hx
  obtain ⟨hpos, hclaw, hle⟩ := h x hx
  dsimp only at hclaw hle
  have hna : g.status ≠ .active := by
    rw [hclaw]
    decide
  have hd : ¬g.completes now := by
    intro hd
    have := hd.2.2
    rw [g.dueAccrual_of_not_active hna] at this
    omega
  refine ⟨hpos, ?_, ?_⟩
  · show (g.settled now).status = .clawbacked
    rw [g.settled_status, if_neg hd, hclaw]
  · show (g.settled now).accounted + x ≤ (g.settled now).totalAmount
    rw [g.settled_accounted, if_neg hd, g.dueAccrual_of_not_active hna, g.settled_totalAmount]
    omega

end Account.EscrowFits

/-! ### One step -/

/-- The operations that pay the same amount twice are not performed: the grant
is cancelled while it is active or paused (or nothing is left to sweep), and no
escrow is returned to the grant. -/
def GrantOp.PaysOnce (op : GrantOp) (grant : Grant) : Prop :=
  (op = .cancel → grant.status = .active ∨ grant.status = .paused ∨
    grant.totalAmount ≤ grant.accounted) ∧ op ≠ .resolve false

instance (op : GrantOp) (grant : Grant) : Decidable (op.PaysOnce grant) :=
  inferInstanceAs (Decidable (_ ∧ _))

/-- A grant that is accounted for in full stays so when it is settled. -/
theorem Settles.full {g s : Grant} {now₀ now : Nat} (hs : Settles g now s)
    (hwf : g.WellFormed now₀) (hfull : g.totalAmount ≤ g.accounted) :
    s.totalAmount ≤ s.accounted := by
  have hdue := hwf.rates.dueAccrual now
  rw [hs.eq_settled, Grant.settled_accounted, Grant.settled_totalAmount]
  split_ifs <;> omega

/-- What a settlement leaves of the account, if the validator's share fits. -/
structure SettledAccount (g s : Grant) (e : Option Int) (now : Nat) : Prop where
  wellFormed : s.WellFormed now
  accounted_le : s.accounted ≤ s.totalAmount
  owed_le : s.owed ≤ g.owed
  totalAmount : s.totalAmount = g.totalAmount
  status : s.status = .completed ∨ s.status = g.status
  escrowFits : Account.EscrowFits ⟨s, e⟩

theorem Settles.account {g s : Grant} {e : Option Int} {now₀ now : Nat} (hs : Settles g now s)
    (hwf : g.WellFormed now₀) (hle : g.accounted ≤ g.totalAmount)
    (hescrow : Account.EscrowFits ⟨g, e⟩) (hfits : g.ValidatorShareFits now) :
    SettledAccount g s e now := by
  obtain rfl := hs.eq_settled
  have hb := (Grant.settled_balanced_iff hwf hle).mpr hfits
  refine ⟨hwf.settled now, hb.accounted_le, g.owed_settled_le now, g.settled_totalAmount now, ?_,
    hescrow.settled now⟩
  rw [g.settled_status]
  split_ifs
  · exact .inl rfl
  · exact .inr rfl

/-- A settled grant that was active or paused owes the rest of its allocation. -/
theorem SettledAccount.owed_open {g s : Grant} {e : Option Int} {now : Nat}
    (h : SettledAccount g s e now) (hst : g.status = .active ∨ g.status = .paused) :
    s.owed = s.totalAmount - (s.withdrawn + s.validatorWithdrawn) ∧ s.status ≠ .clawbacked ∧
      e = none := by
  have hopen : s.status = .active ∨ s.status = .paused ∨ s.status = .completed := by
    rcases h.status with hd | hd
    · exact .inr (.inr hd)
    · rw [hd]
      rcases hst with hst | hst
      · exact .inl hst
      · exact .inr (.inl hst)
  have hne : s.status ≠ .clawbacked := by
    rcases hopen with hd | hd | hd <;> rw [hd] <;> decide
  exact ⟨Grant.owed_of_open hopen, hne, h.escrowFits.escrow_none hne⟩

/-- Moving `d` from the claimable to the withdrawn balances of a settled grant. -/
theorem SettledAccount.moved {g s m : Grant} {e : Option Int} {now : Nat} {d : Int}
    (h : SettledAccount g s e now) (hst : m.status = s.status)
    (htot : m.totalAmount = s.totalAmount)
    (hw : m.withdrawn + m.validatorWithdrawn = s.withdrawn + s.validatorWithdrawn + d)
    (hc : m.claimable + m.validatorClaimable = s.claimable + s.validatorClaimable - d) :
    d + Account.owed ⟨m, e⟩ ≤ Account.owed ⟨g, e⟩ ∧ Account.EscrowFits ⟨m, e⟩ ∧
      m.totalAmount = g.totalAmount := by
  obtain ⟨howed, hacc⟩ := Grant.owed_moved hst htot hw hc
  have hle := h.owed_le
  refine ⟨?_, h.escrowFits.congr hst hacc htot, htot.trans h.totalAmount⟩
  unfold Account.owed
  dsimp only
  omega

/-- Closing a settled grant that was active or paused: what is paid, what stays
claimable and what goes to the escrow is at most what was owed. -/
theorem SettledAccount.closed {g s m : Grant} {e e' : Option Int} {now : Nat} {d : Int}
    (h : SettledAccount g s e now) (hst : g.status = .active ∨ g.status = .paused)
    (hclosed : m.status = .cancelled ∨ m.status = .rageQuitted ∨ m.status = .clawbacked)
    (hle : d + (m.claimable + m.validatorClaimable) + e'.getD 0 ≤
      s.totalAmount - (s.withdrawn + s.validatorWithdrawn)) :
    d + Account.owed ⟨m, e'⟩ ≤ Account.owed ⟨g, e⟩ := by
  obtain ⟨howed, -, rfl⟩ := h.owed_open hst
  have hsettled := h.owed_le
  unfold Account.owed
  rw [Grant.owed_of_closed hclosed]
  dsimp only [Option.getD_none]
  omega

/-- A grant whose record keeps its status and its balances. -/
theorem Account.owed_kept {g m : Grant} {e : Option Int} (hescrow : Account.EscrowFits ⟨g, e⟩)
    (hst : m.status = g.status) (htot : m.totalAmount = g.totalAmount)
    (hw : m.withdrawn = g.withdrawn) (hc : m.claimable = g.claimable)
    (hvw : m.validatorWithdrawn = g.validatorWithdrawn)
    (hvc : m.validatorClaimable = g.validatorClaimable) :
    0 + Account.owed ⟨m, e⟩ ≤ Account.owed ⟨g, e⟩ ∧ Account.EscrowFits ⟨m, e⟩ ∧
      m.totalAmount = g.totalAmount := by
  obtain ⟨howed, hacc⟩ := Grant.owed_moved (d := 0) hst htot (by omega) (by omega)
  refine ⟨?_, hescrow.congr hst hacc htot, htot⟩
  unfold Account.owed
  dsimp only
  omega

/-- **A payment is taken from what is owed.** -/
theorem GrantStep.owed_le {now₀ now : Nat} {treasury : Option Address} {op : GrantOp}
    {a a' : Account} {payments : List Payment} (hstep : GrantStep now treasury op a a' payments)
    (hwf : a.grant.WellFormed now₀) (hle : a.grant.accounted ≤ a.grant.totalAmount)
    (hescrow : a.EscrowFits)
    (hfits : op.settles = true → a.grant.ValidatorShareFits now) (hop : op.PaysOnce a.grant) :
    paymentSum payments + a'.owed ≤ a.owed ∧ a'.EscrowFits ∧
      a'.grant.totalAmount = a.grant.totalAmount := by
  cases hstep with
  | @withdraw g s m e amount hs hamount hstatus hgate hmin hamt hm =>
      have h := hs.account hwf hle hescrow (hfits rfl)
      have hpaid : paymentSum [⟨s.redirect.getD s.recipient, amount⟩] = amount := Int.add_zero amount
      rw [hpaid]
      subst hm
      exact h.moved rfl rfl (by dsimp only; omega) (by dsimp only; omega)
  | @withdrawValidator g s m e amount validator hs _ _ hamount hamt hm =>
      have h := hs.account hwf hle hescrow (hfits rfl)
      have hpaid : paymentSum [⟨validator, amount⟩] = amount := Int.add_zero amount
      rw [hpaid]
      subst hm
      exact h.moved rfl rfl (by dsimp only; omega) (by dsimp only; omega)
  | @pause g s m e reason hs hstatus hm =>
      have h := hs.account hwf hle hescrow (hfits rfl)
      obtain ⟨howed, -, rfl⟩ := h.owed_open (.inl hstatus)
      have hsettled := h.owed_le
      have hpaused : m.owed = s.owed := by
        rw [howed, hm]
        rfl
      refine ⟨?_, .of_none m, by rw [hm]; exact h.totalAmount⟩
      show 0 + (m.owed + 0) ≤ g.owed + 0
      omega
  | @resume g m e hstatus hm =>
      have hnone := hescrow.escrow_none (by rw [hstatus]; decide)
      dsimp only at hnone
      subst hnone
      have hactive : m.owed = g.owed := by
        rw [Grant.owed_of_open (.inr (.inl hstatus)), hm]
        rfl
      refine ⟨?_, .of_none m, by rw [hm]⟩
      show 0 + (m.owed + 0) ≤ g.owed + 0
      omega
  | proposeIncrease hs _ _ _ hm | proposeDecrease hs _ _ _ hm | applyKpi hs _ _ hm =>
      have h := hs.account hwf hle hescrow (hfits rfl)
      subst hm
      exact h.moved (d := 0) rfl rfl (by dsimp only; omega) (by dsimp only; omega)
  | @rageQuit g s m e sweep hs hstatus hsweep hm =>
      have h := hs.account hwf hle hescrow (hfits rfl)
      obtain ⟨-, -, rfl⟩ := h.owed_open (.inr hstatus)
      have hacc := h.accounted_le
      have hv := @validatorPayout_sum_le s.validator _ h.wellFormed.validatorClaimable_nonneg
      have hsum := hsweep.sum
      unfold Grant.accounted at hacc
      subst hm
      refine ⟨h.closed (.inr hstatus) (.inr (.inl rfl)) ?_, .of_none _, h.totalAmount⟩
      rw [paymentSum_cons, paymentSum_append]
      dsimp only [Option.getD_none]
      omega
  | @cancel g s m e sweep hs hstatus hsweep hm =>
      have h := hs.account hwf hle hescrow (hfits rfl)
      have hacc := h.accounted_le
      have hsum := hsweep.sum
      have hopen := hop.1 rfl
      rw [← or_assoc] at hopen
      rcases hopen with hopen | hfull
      · obtain ⟨-, -, rfl⟩ := h.owed_open hopen
        unfold Grant.accounted at hacc hsum
        subst hm
        refine ⟨h.closed hopen (.inl rfl) ?_, .of_none _, h.totalAmount⟩
        dsimp only [Option.getD_none]
        omega
      · -- everything is accounted for: there is no escrow and nothing to sweep
        obtain rfl := hescrow.escrow_none_of_full hfull
        have hrest := hs.full hwf hfull
        have hclaimable := Grant.claimable_le_owed hacc
        have hsettled := h.owed_le
        have hcancelled : m.owed = s.claimable + s.validatorClaimable := by
          rw [hm]
          rfl
        refine ⟨?_, .of_none m, by rw [hm]; exact h.totalAmount⟩
        show paymentSum payments + (m.owed + 0) ≤ g.owed + 0
        omega
  | changeGrantee _ _ hm | setLegal hm | signLegal _ hm =>
      subst hm
      exact Account.owed_kept hescrow rfl rfl rfl rfl rfl rfl
  | @clawbackNothing g s m e contested hs hstatus hrest hm =>
      have h := hs.account hwf hle hescrow (hfits rfl)
      obtain ⟨-, -, rfl⟩ := h.owed_open hstatus
      have hacc := h.accounted_le
      unfold Grant.accounted at hacc
      subst hm
      refine ⟨h.closed hstatus (.inr (.inr rfl)) ?_, .of_none _, h.totalAmount⟩
      show 0 + _ + 0 ≤ _
      dsimp only
      omega
  | @clawbackContested g s m e hs hstatus hrest hm =>
      have h := hs.account hwf hle hescrow (hfits rfl)
      -- the rest moves to the escrow and stays owed
      have hescrow' : Account.EscrowFits ⟨m, some (s.totalAmount - s.accounted)⟩ := by
        intro x hx
        cases hx
        subst hm
        refine ⟨hrest, rfl, ?_⟩
        show s.accounted + _ ≤ s.totalAmount
        omega
      refine ⟨h.closed hstatus (.inr (.inr (by rw [hm]))) ?_, hescrow', by
        rw [hm]
        exact h.totalAmount⟩
      rw [hm]
      show 0 + _ + (s.totalAmount - s.accounted) ≤ _
      unfold Grant.accounted
      dsimp only
      omega
  | @clawbackToDonor g s m e donor hs hstatus hrest _ hm =>
      have h := hs.account hwf hle hescrow (hfits rfl)
      obtain ⟨-, -, rfl⟩ := h.owed_open hstatus
      have hpaid : paymentSum [⟨donor, s.totalAmount - s.accounted⟩] =
          s.totalAmount - s.accounted := Int.add_zero _
      subst hm
      refine ⟨h.closed hstatus (.inr (.inr rfl)) ?_, .of_none _, h.totalAmount⟩
      rw [hpaid]
      unfold Grant.accounted
      dsimp only [Option.getD_none]
      omega
  | @resolveToDonor g amount donor hstatus hamount =>
      refine ⟨?_, .of_none g, rfl⟩
      show amount + 0 + (g.owed + 0) ≤ g.owed + amount
      omega
  | resolveToGrantee => exact absurd rfl hop.2

/-! ### A whole life -/

/-- The step pays nothing twice: the validator's share fits where the grant is
settled, and the operation is one that `PaysOnce`. -/
def PaysOnceAt (grantId : Nat) (e : Run.Step Env Event) : Prop :=
  ShareFitsAt grantId e ∧ AtOp grantId e GrantOp.PaysOnce

instance (grantId : Nat) (e : Run.Step Env Event) : Decidable (PaysOnceAt grantId e) :=
  inferInstanceAs (Decidable (_ ∧ _))

/-- The account of an existing grant that was created with `total` and on behalf
of which `paidOut` was paid since then. -/
structure Account.Covered (a : Account) (total paidOut : Int) (now : Nat) : Prop where
  wellFormed : a.grant.WellFormed now
  accounted_le : a.grant.accounted ≤ a.grant.totalAmount
  escrowFits : a.EscrowFits
  totalAmount : a.grant.totalAmount = total
  paid_le : paidOut + a.owed ≤ total

theorem Account.Covered.step {a a' : Account} {total paidOut : Int} {now₀ now : Nat}
    {treasury : Option Address} {op : GrantOp} {payments : List Payment}
    (h : a.Covered total paidOut now₀) (hle : now₀ ≤ now)
    (hstep : GrantStep now treasury op a a' payments)
    (hfits : op.settles = true → a.grant.ValidatorShareFits now) (hop : op.PaysOnce a.grant) :
    a'.Covered total (paymentSum payments + paidOut) now := by
  obtain ⟨howed, hescrow, htot⟩ :=
    hstep.owed_le h.wellFormed h.accounted_le h.escrowFits hfits hop
  have hwf := h.wellFormed.step hle hstep
  refine ⟨hwf, ?_, hescrow, htot.trans h.totalAmount, ?_⟩
  · exact hstep.accounted_le h.wellFormed h.accounted_le hfits
  · have := h.paid_le
    omega

/-- Nothing of what is owed is negative. -/
theorem Account.Covered.paidOut_le {a : Account} {total paidOut : Int} {now : Nat}
    (h : a.Covered total paidOut now) : paidOut ≤ total := by
  have hclaimable := Grant.claimable_le_owed h.accounted_le
  have hc := h.wellFormed.claimable_nonneg
  have hv := h.wellFormed.validatorClaimable_nonneg
  have hx : 0 ≤ a.escrow.getD 0 := by
    cases hx : a.escrow with
    | none => exact le_refl 0
    | some x => exact (h.escrowFits x hx).1.le
  have hpaid := h.paid_le
  unfold Account.owed at hpaid
  omega

/-- A grant that can be deleted has no open escrow. -/
theorem Account.Covered.escrow_none_of_purgeable {g s : Grant} {e : Option Int}
    {total paidOut : Int} {now₀ now : Nat} (h : Account.Covered ⟨g, e⟩ total paidOut now₀)
    (hs : Settles g now s) (hpurge : Purgeable s) : e = none := by
  refine Account.EscrowFits.escrow_none (a := ⟨s, e⟩) ?_ ?_
  · rw [hs.eq_settled]
    exact h.escrowFits.settled now
  · rcases hpurge.status with hd | hd <;> rw [hd] <;> decide

/-- **Payout bound.** In every run in which no step pays anything twice, what was
paid on behalf of a grant since it was created is at most the total amount it
was created with, also after it was deleted. -/
theorem payout_bound {trace : Trace} {env : Env} (h : Reachable trace env) {grantId : Nat}
    (honce : ∀ e ∈ trace, PaysOnceAt grantId e) {o : Grant} (ho : origin grantId trace = some o) :
    paid grantId (life grantId trace) ≤ o.totalAmount := by
  have hinv := @life_induction grantId (PaysOnceAt grantId)
    (fun o? L now g? x => match g? with
      | none => x = none ∧ ∀ o, o? = some o → paid grantId L ≤ o.totalAmount
      | some g => ∃ o, o? = some o ∧
          Account.Covered ⟨g, x⟩ o.totalAmount (paid grantId L) now)
    ?_ ?_ ?_ ?_ ?_ _ _ h honce
  · cases hg : env.grants grantId with
    | none =>
        rw [hg] at hinv
        exact hinv.2 o ho
    | some g =>
        rw [hg] at hinv
        obtain ⟨o', ho', hcovered⟩ := hinv
        obtain rfl : o' = o := Option.some.inj (ho'.symm.trans ho)
        exact hcovered.paidOut_le
  · exact ⟨rfl, fun o ho => by cases ho⟩
  · intro o? L e _ ih hle hop
    have hpaid : paid grantId (e :: L) = paid grantId L := by
      rw [paid_cons, paymentsFor_of_none hop]
      exact Int.zero_add _
    rw [hpaid]
    cases hg : e.before.grants grantId with
    | none =>
        rw [hg] at ih
        exact ih
    | some g =>
        rw [hg] at ih
        obtain ⟨o, ho, hcovered⟩ := ih
        exact ⟨o, ho, { hcovered with wellFormed := hcovered.wellFormed.mono hle }⟩
  · rintro o? L e recipient totalAmount flowRate warmupDuration validator donor token g _ ⟨hnone, -⟩
      hle htotal hflow hrange rfl
    rw [hnone]
    refine ⟨_, rfl, .newGrant _ recipient warmupDuration validator donor token htotal hflow hrange,
      htotal.le, .of_none _, rfl, ?_⟩
    show 0 + (totalAmount - (0 + 0) + 0) ≤ totalAmount
    omega
  · rintro o? L e op g a' payments ⟨hfits, honce⟩ ⟨o, ho, hcovered⟩ hle hop hg hstep hpay -
    refine ⟨o, ho, ?_⟩
    rw [paid_cons, hpay]
    exact hcovered.step hle hstep (hfits.elim hop hg) (honce.elim hop hg)
  · intro o? L e g s _ ⟨o, ho, hcovered⟩ hle hop hg hs hpurge
    refine ⟨hcovered.escrow_none_of_purgeable hs hpurge, fun o' ho' => ?_⟩
    obtain rfl : o = o' := Option.some.inj (ho.symm.trans ho')
    rw [paid_cons, paymentsFor_of_none hop]
    have := hcovered.paidOut_le
    show 0 + paid grantId L ≤ o.totalAmount
    omega

/-- A grant that is withdrawn from, paused, cancelled with its rest going to the
treasury, and withdrawn from in vain. -/
theorem payout_bound_of_cancelled_stream :
    let run := history Demo.env (Demo.setUp 100000000 ++
      [Demo.call 1 (.createGrant 7 Demo.grantee 60000000 1000000 0 none none),
        Demo.call 21 (.withdraw 7 20000000), Demo.call 31 (.pauseStream 7 none),
        Demo.call 41 (.cancelGrant 7), Demo.call 51 (.withdraw 7 10000000)])
    paid 7 (life 7 run.1) ≤ 60000000 := by
  intro run
  have hrun : Reachable run.1 run.2 := history_reachable Demo.env_deployed (by decide)
  exact @payout_bound _ _ hrun 7 (by decide) _ rfl

/-- Cancelling twice pays the treasury twice. -/
theorem payout_bound_cancelled_twice :
    ¬∀ trace env grantId o, Reachable trace env → origin grantId trace = some o →
      paid grantId (life grantId trace) ≤ o.totalAmount := by
  intro h
  let run := history Demo.env (Demo.setUp 2000 ++
    [Demo.call 1 (.createGrant 7 Demo.grantee 1000 1 0 none none),
      Demo.call 1 (.cancelGrant 7), Demo.call 1 (.cancelGrant 7)])
  have hrun : Reachable run.1 run.2 := history_reachable Demo.env_deployed (by decide)
  exact absurd (h run.1 run.2 7 _ hrun rfl) (by decide)

end YieldTrust.GrantStream
