import YieldTrust.ClawbackResilient.SharePrice
import YieldTrust.Lib.ProRata

/-!
# YieldTrust.ClawbackResilient.Solvency

What the users are told they have is **backed by the balance**, also after a clawback: the tracker
never promises more than the contract has, whoever asks gets what was promised, and a clawback
takes the same part from everyone.
-/

namespace YieldTrust.ClawbackResilient

open Fallible
open GrantStream (Address)

variable {env env' result : Env} {token user : Address} {tracker : ShareBasedBalance}
  {trace : Trace} {due due' returned : Int}

theorem Tracked.sharesOf_nonneg (h : Tracked token env tracker) (user : Address) :
    0 ≤ sharesOf env token user := by
  rw [h.sharesOf_eq]
  cases huser : tracker.userShares user with
  | none => exact le_rfl
  | some shares => exact h.nonneg user shares huser

/-- The users of a set do not have more than all shares. -/
theorem Tracked.sum_sharesOf_le (h : Tracked token env tracker) (users : Finset Address) :
    ∑ user ∈ users, sharesOf env token user ≤ tracker.totalShares := by
  have hterm (user : Address) :
      sharesOf env token user = (tracker.userShares user).elim 0 id := by
    rw [h.sharesOf_eq]
    cases tracker.userShares user <;> rfl
  have hall : PartialMap.total tracker.userShares id =
      ∑ user ∈ users ∪ h.finite.toFinset, sharesOf env token user := by
    unfold PartialMap.total
    rw [Finset.sum_congr rfl fun user _ => hterm user]
    refine finsum_eq_sum_of_support_subset _ fun user huser => ?_
    have hkey := PartialMap.support_subset tracker.userShares id huser
    exact Finset.mem_coe.mpr (Finset.mem_union_right _ (h.finite.mem_toFinset.mpr hkey))
  have hscale := sharesScalingFactor_pos
  calc ∑ user ∈ users, sharesOf env token user
    _ ≤ ∑ user ∈ users ∪ h.finite.toFinset, sharesOf env token user :=
      Finset.sum_le_sum_of_subset_of_nonneg Finset.subset_union_left
        fun user _ _ => h.sharesOf_nonneg user
    _ = PartialMap.total tracker.userShares id := hall.symm
    _ ≤ tracker.totalShares := by
      have hsum := h.sum
      omega

/-- A user is told its part of the balance, rounded down. -/
theorem Tracked.getUserBalance_eq (h : Tracked token env tracker)
    (hcall : getUserBalance env token user = .ok due) :
    due = sharesOf env token user * getCurrentPhysicalBalance env token / tracker.totalShares := by
  have hshares : 0 < tracker.totalShares := h.opened.shares_pos
  have hproduct : 0 ≤ sharesOf env token user * getCurrentPhysicalBalance env token :=
    Int.mul_nonneg (h.sharesOf_nonneg user) h.balance_pos.le
  simp only [getUserBalance, getShareBalance, bind_eq_ok, okOr_eq_ok] at hcall
  obtain ⟨tracker', hfind, hcall⟩ := hcall
  obtain rfl := Option.some.inj (h.find.symm.trans hfind)
  rw [← h.sharesOf_eq] at hcall
  split_ifs at hcall with hzero
  · rcases hzero with huser | htotal
    · rw [← pure_eq_ok.mp hcall, huser, zero_mul, Int.zero_ediv]
    · exact absurd htotal hshares.ne'
  · simp only [bind_eq_ok, orTrap_eq_ok, I128.checkedMul_eq_some, I128.checkedDiv_eq_some] at hcall
    obtain ⟨_, ⟨-, rfl⟩, -, -, rfl⟩ := hcall
    exact Int.tdiv_eq_ediv_of_nonneg hproduct

/-- What a user gets for all its shares. -/
theorem Tracked.removeUserShares_eq (h : Tracked token env tracker)
    (hcall : ClawbackResilient.removeUserShares env token user (sharesOf env token user) =
      .ok (result, returned)) :
    returned = sharesOf env token user * getCurrentPhysicalBalance env token /
      tracker.totalShares := by
  have hproduct : 0 ≤ sharesOf env token user * getCurrentPhysicalBalance env token :=
    Int.mul_nonneg (h.sharesOf_nonneg user) h.balance_pos.le
  simp only [ClawbackResilient.removeUserShares, getShareBalance, calculateAmountFromShares,
    bind_eq_ok, ensure_eq_ok, okOr_eq_ok, orTrap_eq_ok, I128.checkedMul_eq_some,
    I128.checkedDiv_eq_some, pure_eq_ok, Prod.mk.injEq] at hcall
  obtain ⟨_, -, tracker', hfind, _, -, _, ⟨_, -, _, ⟨-, rfl⟩, -, -, rfl⟩, _, -, _, -, -, rfl⟩ :=
    hcall
  obtain rfl := Option.some.inj (h.find.symm.trans hfind)
  exact Int.tdiv_eq_ediv_of_nonneg hproduct

/-- Nothing of the tracker changes from outside. -/
theorem Tracked.external (h : Tracked token env tracker) (hn : Next env .external env') :
    Tracked token env' tracker ∧ sharesOf env' token user = sharesOf env token user := by
  cases hn with
  | external hstore hpositive =>
      have hfind := congrArg (·.balances token) hstore
      refine ⟨h.of_same hfind (hpositive token h.balance_pos), ?_⟩
      simp only [sharesOf, hstore]

/-- **Solvency.** From the initialization on, whatever happens to the balance from outside: what
any users are told they have is together no more than the balance; a user who removes all its
shares gets what it was told; and what a clawback or a gift leaves of what a user has is as what it
leaves of the balance, up to a unit. -/
theorem balances_backed (h : Run (Initialized token) Next trace env) :
    (∀ (users : Finset Address) (told : Address → Int),
      (∀ user ∈ users, getUserBalance env token user = .ok (told user)) →
        ∑ user ∈ users, told user ≤ getCurrentPhysicalBalance env token) ∧
      (∀ user due timestamp auths result returned, getUserBalance env token user = .ok due →
        removeUserShares (enter env timestamp auths) token user (sharesOf env token user) =
          .ok (result, returned) → returned = due) ∧
      ∀ env' user due due', Next env .external env' → getUserBalance env token user = .ok due →
        getUserBalance env' token user = .ok due' →
          due' * getCurrentPhysicalBalance env token <
              (due + 1) * getCurrentPhysicalBalance env' token ∧
            due * getCurrentPhysicalBalance env' token <
              (due' + 1) * getCurrentPhysicalBalance env token := by
  obtain ⟨tracker, htracked⟩ := tracked_of_run (fun _ => tracked_of_initialized) h
  have hshares : 0 < tracker.totalShares := htracked.opened.shares_pos
  refine ⟨fun users told htold => ?_, ?_, ?_⟩
  · rw [Finset.sum_congr rfl fun user huser => htracked.getUserBalance_eq (htold user huser)]
    exact ProRata.sum_shares_le hshares htracked.balance_pos.le (htracked.sum_sharesOf_le users)
  · intro user due timestamp auths result returned htold hcall
    rw [htracked.getUserBalance_eq htold]
    exact (htracked.enter timestamp auths).removeUserShares_eq hcall
  · intro env' user due due' hn htold htold'
    obtain ⟨hkept, hsame⟩ := htracked.external hn
    rw [htracked.getUserBalance_eq htold, hkept.getUserBalance_eq htold', hsame]
    exact ⟨ProRata.part_lt_part hshares htracked.balance_pos hkept.balance_pos,
      ProRata.part_lt_part hshares hkept.balance_pos htracked.balance_pos⟩

namespace Demo

/-- The issuer takes half of what the contract has. -/
def halved : Env := { deposited with tokens := { balance := fun _ _ => 1500250, log := [] } }

end Demo

/-- What is left of a deposit of `500` when the issuer has taken half of the balance. -/
theorem balances_backed_after_clawback :
    ∃ env', Next Demo.deposited .external env' ∧
      getUserBalance Demo.deposited Demo.token Demo.user = .ok 498 ∧
      getUserBalance env' Demo.token Demo.user = .ok 249 ∧
      (249 : Int) * 3000500 < (498 + 1) * 1500250 ∧
      ∑ _user ∈ {Demo.user}, (498 : Int) ≤ getCurrentPhysicalBalance Demo.deposited Demo.token := by
  have hopened : Initialized Demo.token Demo.opened :=
    ⟨⟨Demo.env, Demo.admin, 3000000, rfl⟩, by decide⟩
  have hadded : addUserShares (enter Demo.opened 1 [Demo.admin]) Demo.admin Demo.token Demo.user
      500 = .ok Demo.added := rfl
  have harrival : Moved Demo.added Demo.deposited Demo.token 500 := by
    refine ⟨rfl, by decide, fun other hother => ?_⟩
    simp [getCurrentPhysicalBalance, Demo.deposited, TokenLedger.mint, TokenLedger.credit, hother]
  have hclawback : Next Demo.deposited .external Demo.halved := by
    refine .external rfl fun tokenAddress _ => ?_
    show (0 : Int) < 1500250
    decide
  have hbefore : getUserBalance Demo.deposited Demo.token Demo.user = .ok 498 := rfl
  have hafter : getUserBalance Demo.halved Demo.token Demo.user = .ok 249 := rfl
  obtain ⟨hsum, -, hexternal⟩ := balances_backed (.step (.start hopened)
    (.deposit hadded harrival))
  refine ⟨Demo.halved, hclawback, hbefore, hafter, ?_, ?_⟩
  · exact (hexternal _ _ _ _ hclawback hbefore hafter).1
  · exact hsum {Demo.user} (fun _ => 498) (by simp [hbefore])

end YieldTrust.ClawbackResilient
