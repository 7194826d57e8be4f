import YieldTrust.ClawbackResilient.Contract
import YieldTrust.Lib.PartialMap
import YieldTrust.Lib.SharePool

/-!
# YieldTrust.ClawbackResilient.SharePrice

What a share is worth. The users together have all shares but the ones of the initialization, so
no withdrawal empties the pool; every division rounds in favour of the pool, so neither deposits
nor withdrawals lower the price of a share.
-/

namespace YieldTrust.ClawbackResilient

open Fallible
open GrantStream (Address)

variable {env env' result : Env} {token admin user : Address} {amount shares returned : Int}
  {tracker tracker' : ShareBasedBalance} {operation : Operation} {trace newer : Trace}

/-! ### The pool of a token -/

def pool (env : Env) (token : Address) (tracker : ShareBasedBalance) : SharePool :=
  ⟨getCurrentPhysicalBalance env token, tracker.totalShares⟩

/-- What a share of the token is worth: the balance by the total shares. -/
def sharePrice (env : Env) (token : Address) : ℚ :=
  (env.store.balances token).elim 0 fun tracker => (pool env token tracker).price

/-- The shares of the user. -/
def sharesOf (env : Env) (token user : Address) : Int :=
  ((env.store.balances token).bind (·.userShares user)).getD 0

/-- The users have all shares but those of the initialization, and there is something to share. -/
structure Tracked (token : Address) (env : Env) (tracker : ShareBasedBalance) : Prop where
  find : env.store.balances token = some tracker
  finite : (PartialMap.keys tracker.userShares).Finite
  nonneg : ∀ user shares, tracker.userShares user = some shares → 0 ≤ shares
  sum : PartialMap.total tracker.userShares id + sharesScalingFactor = tracker.totalShares
  balance_pos : 0 < getCurrentPhysicalBalance env token

theorem sharesScalingFactor_pos : 0 < sharesScalingFactor := by decide

theorem Tracked.opened (h : Tracked token env tracker) : (pool env token tracker).Open := by
  refine ⟨h.balance_pos, ?_⟩
  have htotal : 0 ≤ PartialMap.total tracker.userShares id := PartialMap.total_nonneg h.nonneg
  have hscale := sharesScalingFactor_pos
  have hsum := h.sum
  simp only [pool]
  omega

theorem Tracked.sharePrice_eq (h : Tracked token env tracker) :
    sharePrice env token = (pool env token tracker).price := by
  simp [sharePrice, h.find]

theorem Tracked.sharesOf_eq (h : Tracked token env tracker) :
    sharesOf env token user = (tracker.userShares user).getD 0 := by
  simp [sharesOf, h.find]

/-- A user does not have all shares. -/
theorem Tracked.userShares_lt (h : Tracked token env tracker) (user : Address) :
    (tracker.userShares user).getD 0 < tracker.totalShares := by
  have hscale := sharesScalingFactor_pos
  have hsum := h.sum
  cases huser : tracker.userShares user with
  | none =>
      have htotal : 0 ≤ PartialMap.total tracker.userShares id := PartialMap.total_nonneg h.nonneg
      simp only [Option.getD_none]
      omega
  | some shares =>
      have hsplit := PartialMap.total_eq_add_of_some h.finite huser id
      have hrest : 0 ≤ PartialMap.total (Function.update tracker.userShares user none) id := by
        refine PartialMap.total_nonneg fun other x hx => ?_
        by_cases hother : other = user
        · simp [hother] at hx
        · exact h.nonneg other x (by simpa [hother] using hx)
      simp only [Option.getD_some]
      simp only [id] at hsplit hrest
      omega

/-- The shares of one user change, and the total with them. -/
theorem Tracked.update {x : Option Int} {delta : Int} (h : Tracked token env tracker)
    (hfind : env'.store.balances token = some tracker')
    (hshares : tracker'.userShares = Function.update tracker.userShares user x)
    (htotal : tracker'.totalShares = tracker.totalShares + delta) (hnonneg : ∀ y ∈ x, 0 ≤ y)
    (hx : x.getD 0 = (tracker.userShares user).getD 0 + delta)
    (hbalance : 0 < getCurrentPhysicalBalance env' token) : Tracked token env' tracker' := by
  refine ⟨hfind, ?_, fun other y hy => ?_, ?_, hbalance⟩
  · rw [hshares]
    exact PartialMap.keys_update_finite h.finite user x
  · rw [hshares] at hy
    by_cases hother : other = user
    · exact hnonneg y (by simpa [hother] using hy)
    · exact h.nonneg other y (by simpa [hother] using hy)
  · have helim (o : Option Int) : o.elim 0 id = o.getD 0 := by cases o <;> rfl
    have hsum := h.sum
    rw [hshares, htotal, PartialMap.total_update h.finite, helim, helim, hx]
    omega

/-- What is written for one token, read at a token. -/
theorem balances_write (env : Env) (other : Address) (tracker : ShareBasedBalance) :
    (writeShareBalance env other tracker).store.balances token =
      if token = other then some tracker else env.store.balances token := by
  by_cases h : token = other <;> simp [writeShareBalance, h]

/-! ### The calls -/

/-- The tracker with other shares of one user, after a call. -/
def ShareBasedBalance.change (tracker : ShareBasedBalance) (env : Env) (token user : Address)
    (x : Option Int) (delta : Int) : ShareBasedBalance :=
  { tracker with
    userShares := Function.update tracker.userShares user x
    totalShares := tracker.totalShares + delta
    lastKnownBalance := getCurrentPhysicalBalance env token
    balanceTimestamp := env.timestamp }

/-- Adding shares: they are worth no more than the amount. -/
theorem Tracked.addUserShares (h : Tracked token env tracker)
    (hcall : addUserShares env admin token user amount = .ok result) :
    ∃ shares, 0 < amount ∧ 0 ≤ shares ∧ (pool env token tracker).Covered amount shares ∧
      result = writeShareBalance env token (tracker.change env token user
        (some ((tracker.userShares user).getD 0 + shares)) shares) := by
  simp only [ClawbackResilient.addUserShares, getShareBalance, calculateSharesFromAmount,
    bind_eq_ok, ensure_eq_ok, okOr_eq_ok, orTrap_eq_ok, I128.checkedMul_eq_some,
    I128.checkedDiv_eq_some, I128.checkedAdd_eq_some, pure_eq_ok] at hcall
  obtain ⟨_, -, _, hamount, tracker', hfind, shares, ⟨_, -, _, ⟨-, rfl⟩, _, ⟨-, rfl⟩, _,
    ⟨-, -, rfl⟩, -, -, hshares⟩, _, ⟨-, rfl⟩, _, ⟨-, rfl⟩, rfl⟩ := hcall
  obtain rfl := Option.some.inj (h.find.symm.trans hfind)
  have hscale := sharesScalingFactor_pos
  have hproduct : 0 ≤ amount * sharesScalingFactor * tracker.totalShares :=
    Int.mul_nonneg (Int.mul_nonneg hamount.le hscale.le) h.opened.shares_pos.le
  have hscaled := Int.ediv_nonneg hproduct h.balance_pos.le
  rw [Int.tdiv_eq_ediv_of_nonneg hproduct, Int.tdiv_eq_ediv_of_nonneg hscaled] at hshares
  subst hshares
  exact ⟨_, hamount, Int.ediv_nonneg hscaled hscale.le, SharePool.covered_of_scaled h.opened hscale,
    rfl⟩

/-- Removing shares: what is returned is worth no more than they are. -/
theorem Tracked.removeUserShares (h : Tracked token env tracker)
    (hcall : removeUserShares env token user shares = .ok (result, returned)) :
    ∃ x, 0 < shares ∧ shares < tracker.totalShares ∧ (∀ y ∈ x, 0 ≤ y) ∧
      x.getD 0 = (tracker.userShares user).getD 0 + -shares ∧
      (pool env token tracker).Earned returned shares ∧
      result = writeShareBalance env token (tracker.change env token user x (-shares)) := by
  simp only [ClawbackResilient.removeUserShares, getShareBalance, calculateAmountFromShares,
    bind_eq_ok, ensure_eq_ok, okOr_eq_ok, orTrap_eq_ok, I128.checkedMul_eq_some,
    I128.checkedDiv_eq_some, I128.checkedSub_eq_some, pure_eq_ok, Prod.mk.injEq] at hcall
  obtain ⟨_, hshares, tracker', hfind, _, hle, _, ⟨_, -, _, ⟨-, rfl⟩, -, -, rfl⟩, _, ⟨-, rfl⟩, _,
    ⟨-, rfl⟩, rfl, hreturned⟩ := hcall
  obtain rfl := Option.some.inj (h.find.symm.trans hfind)
  have hproduct : 0 ≤ shares * getCurrentPhysicalBalance env token :=
    Int.mul_nonneg hshares.le h.balance_pos.le
  rw [Int.tdiv_eq_ediv_of_nonneg hproduct] at hreturned
  subst hreturned
  refine ⟨_, hshares, hle.trans_lt (h.userShares_lt user), fun y hy => ?_, ?_,
    SharePool.earned_of_div h.opened, rfl⟩
  · split_ifs at hy with hzero
    · cases hy
    · cases hy
      exact Int.sub_nonneg_of_le hle
  · split_ifs with hzero
    · rw [Option.getD_none]
      omega
    · rfl

/-- What a call leaves as it was: the tokens, and the trackers of other tokens. -/
structure OnlyTracker (token : Address) (env result : Env) : Prop where
  tokens : result.tokens = env.tokens
  self : result.self = env.self
  others : ∀ other, other ≠ token → result.store.balances other = env.store.balances other

theorem onlyTracker_write (env : Env) (tracker : ShareBasedBalance) :
    OnlyTracker token env (writeShareBalance env token tracker) :=
  ⟨rfl, rfl, fun other hother => by rw [balances_write, if_neg hother]⟩

theorem OnlyTracker.balance_eq (h : OnlyTracker token env result) (other : Address) :
    getCurrentPhysicalBalance result other = getCurrentPhysicalBalance env other := by
  unfold getCurrentPhysicalBalance
  rw [h.tokens, h.self]

theorem addUserShares_onlyTracker (hcall : addUserShares env admin token user amount = .ok result) :
    OnlyTracker token env result := by
  simp only [addUserShares, bind_eq_ok, pure_eq_ok] at hcall
  obtain ⟨_, -, _, -, tracker, -, _, -, _, -, _, -, rfl⟩ := hcall
  exact onlyTracker_write env _

theorem removeUserShares_onlyTracker
    (hcall : removeUserShares env token user shares = .ok (result, returned)) :
    OnlyTracker token env result := by
  simp only [removeUserShares, bind_eq_ok, pure_eq_ok, Prod.mk.injEq] at hcall
  obtain ⟨_, -, tracker, -, _, -, _, -, _, -, _, -, rfl, -⟩ := hcall
  exact onlyTracker_write env _

/-- The tracker takes note of the balance, or nothing happens. -/
theorem handleBalanceChange_eq_ok (hcall : handleBalanceChange env token = .ok result) :
    OnlyTracker token env result ∧ ∃ tracker tracker',
      env.store.balances token = some tracker ∧ result.store.balances token = some tracker' ∧
        tracker'.userShares = tracker.userShares ∧ tracker'.totalShares = tracker.totalShares := by
  simp only [handleBalanceChange, getShareBalance, bind_eq_ok, okOr_eq_ok] at hcall
  obtain ⟨tracker, hfind, hcall⟩ := hcall
  by_cases hsame : getCurrentPhysicalBalance env token = tracker.lastKnownBalance
  · rw [if_pos hsame] at hcall
    cases pure_eq_ok.mp hcall
    exact ⟨⟨rfl, rfl, fun _ _ => rfl⟩, tracker, tracker, hfind, hfind, rfl, rfl⟩
  · rw [if_neg hsame] at hcall
    cases pure_eq_ok.mp hcall
    refine ⟨⟨rfl, rfl, fun other hother => ?_⟩, tracker, _, hfind,
      (balances_write _ token _).trans (if_pos rfl), rfl, rfl⟩
    rw [balances_write, if_neg hother]

/-! ### One operation -/

theorem Tracked.enter (h : Tracked token env tracker) (timestamp : Nat) (auths : List Address) :
    Tracked token (enter env timestamp auths) tracker :=
  ⟨h.find, h.finite, h.nonneg, h.sum, h.balance_pos⟩

/-- Another tracker and balance of the same token with the same shares and balance. -/
theorem Tracked.of_same (h : Tracked token env tracker)
    (hfind : env'.store.balances token = env.store.balances token)
    (hbalance : 0 < getCurrentPhysicalBalance env' token) : Tracked token env' tracker :=
  ⟨hfind.trans h.find, h.finite, h.nonneg, h.sum, hbalance⟩

theorem Tracked.deposit {timestamp : Nat} {auths : List Address} (h : Tracked token env tracker)
    (hcall : ClawbackResilient.addUserShares (ClawbackResilient.enter env timestamp auths) admin
      token user amount = .ok result)
    (harrival : Moved result env' token amount) :
    ∃ tracker' shares, Tracked token env' tracker' ∧ 0 ≤ shares ∧
      (pool env token tracker).Covered amount shares ∧
      pool env' token tracker' = (pool env token tracker).deposit amount shares ∧
      sharesOf env' token user = sharesOf env token user + shares := by
  obtain ⟨shares, hamount, hshares, hcovered, rfl⟩ :=
    (h.enter timestamp auths).addUserShares hcall
  have hbalance : getCurrentPhysicalBalance env' token =
      getCurrentPhysicalBalance env token + amount := harrival.balance
  have hfind := congrArg (·.balances token) harrival.store
  simp only [balances_write, if_true] at hfind
  have huser : 0 ≤ (tracker.userShares user).getD 0 := by
    cases huser : tracker.userShares user with
    | none => exact le_rfl
    | some shares => exact h.nonneg user shares huser
  have hkept : Tracked token env' _ := h.update hfind rfl rfl (by simp; omega) rfl
    (by rw [hbalance]; have := h.balance_pos; omega)
  refine ⟨_, shares, hkept, hshares, hcovered, ?_, ?_⟩
  · simp only [pool, SharePool.deposit, hbalance]
    rfl
  · rw [hkept.sharesOf_eq, h.sharesOf_eq]
    simp [ShareBasedBalance.change]

theorem Tracked.withdraw {timestamp : Nat} {auths : List Address} (h : Tracked token env tracker)
    (hcall : ClawbackResilient.removeUserShares (ClawbackResilient.enter env timestamp auths)
      token user shares = .ok (result, returned))
    (hdeparture : Moved result env' token (-returned)) :
    ∃ tracker', Tracked token env' tracker' ∧ shares < tracker.totalShares ∧
      (pool env token tracker).Earned returned shares ∧
      pool env' token tracker' = (pool env token tracker).withdraw returned shares := by
  obtain ⟨x, hshares, hlt, hnonneg, hx, hearned, rfl⟩ :=
    (h.enter timestamp auths).removeUserShares hcall
  have hbalance : getCurrentPhysicalBalance env' token =
      getCurrentPhysicalBalance env token + -returned := hdeparture.balance
  have hfind := congrArg (·.balances token) hdeparture.store
  simp only [balances_write, if_true] at hfind
  have hleft : returned < getCurrentPhysicalBalance env token :=
    SharePool.Earned.lt_balance h.opened hearned hlt
  have hkept : Tracked token env' _ := h.update hfind rfl rfl hnonneg hx
    (by rw [hbalance]; omega)
  refine ⟨_, hkept, hlt, hearned, ?_⟩
  simp only [pool, SharePool.withdraw, hbalance]
  rfl

/-- Tokens of another kind, and what is stored for them, do not matter. -/
theorem Tracked.other {other : Address} (h : Tracked token env tracker) (hother : token ≠ other)
    (honly : OnlyTracker other env result) (hmoved : Moved result env' other amount) :
    Tracked token env' tracker ∧ sharePrice env' token = sharePrice env token := by
  have hfind : env'.store.balances token = env.store.balances token := by
    rw [hmoved.store]
    exact honly.others token hother
  have hbalance : getCurrentPhysicalBalance env' token = getCurrentPhysicalBalance env token :=
    (hmoved.others token hother).trans (honly.balance_eq token)
  have hkept := h.of_same hfind (hbalance ▸ h.balance_pos)
  refine ⟨hkept, ?_⟩
  rw [hkept.sharePrice_eq, h.sharePrice_eq]
  simp only [pool, hbalance]

/-- **Step lemma**, by cases on the operation. -/
theorem Next.tracked (hn : Next env operation env') (h : Tracked token env tracker) :
    (∃ tracker', Tracked token env' tracker') ∧
      (operation ≠ .external → sharePrice env token ≤ sharePrice env' token) := by
  cases hn with
  | @deposit admin other user amount timestamp auths result _ hcall harrival =>
      by_cases hother : token = other
      · subst hother
        obtain ⟨tracker', shares, hkept, hshares, hcovered, hpool, -⟩ := h.deposit hcall harrival
        refine ⟨⟨tracker', hkept⟩, fun _ => ?_⟩
        rw [hkept.sharePrice_eq, h.sharePrice_eq, hpool]
        exact SharePool.price_le_deposit h.opened hshares hcovered
      · obtain ⟨hkept, hprice⟩ :=
          (h.enter timestamp auths).other hother (addUserShares_onlyTracker hcall) harrival
        exact ⟨⟨tracker, hkept⟩, fun _ => hprice.ge⟩
  | @withdraw other user shares returned timestamp auths result _ hcall hdeparture =>
      by_cases hother : token = other
      · subst hother
        obtain ⟨tracker', hkept, hlt, hearned, hpool⟩ := h.withdraw hcall hdeparture
        refine ⟨⟨tracker', hkept⟩, fun _ => ?_⟩
        rw [hkept.sharePrice_eq, h.sharePrice_eq, hpool]
        exact SharePool.price_le_withdraw h.opened hearned hlt
      · obtain ⟨hkept, hprice⟩ :=
          (h.enter timestamp auths).other hother (removeUserShares_onlyTracker hcall) hdeparture
        exact ⟨⟨tracker, hkept⟩, fun _ => hprice.ge⟩
  | @notice other timestamp auths _ hcall =>
      obtain ⟨honly, tracker₁, tracker₂, hfind, hfind', hshares, htotal⟩ :=
        handleBalanceChange_eq_ok hcall
      have hbalance : getCurrentPhysicalBalance env' token = getCurrentPhysicalBalance env token :=
        honly.balance_eq token
      by_cases hother : token = other
      · subst hother
        obtain rfl := Option.some.inj (h.find.symm.trans hfind)
        have hkept : Tracked token env' tracker₂ :=
          ⟨hfind', hshares ▸ h.finite, hshares ▸ h.nonneg, by rw [hshares, htotal]; exact h.sum,
            hbalance ▸ h.balance_pos⟩
        refine ⟨⟨tracker₂, hkept⟩, fun _ => ?_⟩
        rw [hkept.sharePrice_eq, h.sharePrice_eq]
        simp only [pool, hbalance, htotal, le_refl]
      · have hkept := h.of_same (honly.others token hother) (hbalance ▸ h.balance_pos)
        refine ⟨⟨tracker, hkept⟩, fun _ => ?_⟩
        rw [hkept.sharePrice_eq, h.sharePrice_eq]
        simp only [pool, hbalance, le_refl]
  | external hstore hpositive =>
      have hfind := congrArg (·.balances token) hstore
      exact ⟨⟨tracker, h.of_same hfind (hpositive token h.balance_pos)⟩, fun hne => absurd rfl hne⟩

/-! ### The whole run -/

/-- A tracker that was just initialised. -/
theorem tracked_of_initialized (h : Initialized token env) :
    ∃ tracker, Tracked token env tracker := by
  obtain ⟨⟨before, admin, initialBalance, hcall⟩, hbalance⟩ := h
  simp only [initializeBalanceTracking, bind_eq_ok, pure_eq_ok] at hcall
  obtain ⟨_, -, _, -, rfl⟩ := hcall
  have hempty : PartialMap.keys (fun _ : Address => (none : Option Int)) = ∅ := by
    simp [PartialMap.keys]
  refine ⟨_, (balances_write _ token _).trans (if_pos rfl), ?_, ?_, ?_, hbalance⟩
  · rw [hempty]
    exact Set.finite_empty
  · intro user shares huser
    cases huser
  · rw [PartialMap.total_of_keys_empty hempty, zero_add]

/-- Tracked is kept by every operation. -/
theorem tracked_of_run {init : Env → Prop}
    (hinit : ∀ env, init env → ∃ tracker, Tracked token env tracker) (h : Run init Next trace env) :
    ∃ tracker, Tracked token env tracker :=
  Run.invariant (I := fun env => ∃ tracker, Tracked token env tracker) hinit
    (fun _ _ _ ⟨_, htracked⟩ hn => (hn.tracked htracked).1) h

/-- Deposits and withdrawals, in any order. -/
theorem sharePrice_le_of_run (htracked : ∃ tracker, Tracked token env tracker)
    (h : Run (· = env) Next newer env') (hown : ∀ e ∈ newer, e.action ≠ .external) :
    sharePrice env token ≤ sharePrice env' token := by
  induction h with
  | start heq => rw [heq]
  | @step newer middle operation env' hrun hn ih =>
      rw [List.forall_mem_cons] at hown
      obtain ⟨tracker, hmiddle⟩ := tracked_of_run (fun _ heq => heq ▸ htracked) hrun
      exact (ih hown.2).trans ((hn.tracked hmiddle).2 hown.1)

/-- Whoever removes the shares of a deposit right after it gets no more than the deposit. -/
theorem Tracked.round_trip {timestamp : Nat} {auths : List Address}
    (h : Tracked token env tracker) (hn : Next env (.deposit admin token user amount) env')
    (hcall : ClawbackResilient.removeUserShares (ClawbackResilient.enter env' timestamp auths)
      token user (sharesOf env' token user - sharesOf env token user) = .ok (result, returned)) :
    returned ≤ amount := by
  cases hn with
  | deposit hdeposit harrival =>
      obtain ⟨tracker', shares, hkept, hshares, hcovered, hpool, hsharesOf⟩ :=
        h.deposit hdeposit harrival
      obtain ⟨-, -, -, -, -, hearned, -⟩ := (hkept.enter timestamp auths).removeUserShares hcall
      have hreceived : sharesOf env' token user - sharesOf env token user = shares := by omega
      have hpool' : pool (ClawbackResilient.enter env' timestamp auths) token tracker' =
          (pool env token tracker).deposit amount shares := hpool
      rw [hreceived, hpool'] at hearned
      exact SharePool.round_trip_le h.opened hshares hcovered hearned

/-- The state of the accounts of a token: the shares add up, and the balance and the shares are
positive. -/
structure SharesAddUp (token : Address) (env : Env) (tracker : ShareBasedBalance) : Prop where
  find : env.store.balances token = some tracker
  finite : (PartialMap.keys tracker.userShares).Finite
  sum : PartialMap.total tracker.userShares id + sharesScalingFactor = tracker.totalShares
  shares_pos : 0 < tracker.totalShares
  balance_pos : 0 < getCurrentPhysicalBalance env token

/-- **The share price.** From the initialization on, whatever happens to the balance from outside,
the shares of the users and those of the initialization are all shares. From there, no sequence of
deposits and withdrawals of any users lowers the price of a share, and a deposit that is withdrawn
immediately brings back no more than was deposited. -/
theorem share_price_kept (h : Run (Initialized token) Next trace env) :
    (∃ tracker, SharesAddUp token env tracker) ∧
      (∀ newer env', Run (· = env) Next newer env' → (∀ e ∈ newer, e.action ≠ .external) →
        sharePrice env token ≤ sharePrice env' token) ∧
      ∀ admin user amount env' timestamp auths result returned,
        Next env (.deposit admin token user amount) env' →
        removeUserShares (enter env' timestamp auths) token user
          (sharesOf env' token user - sharesOf env token user) = .ok (result, returned) →
        returned ≤ amount := by
  obtain ⟨tracker, htracked⟩ := tracked_of_run (fun _ => tracked_of_initialized) h
  refine ⟨⟨tracker, htracked.find, htracked.finite, htracked.sum, htracked.opened.shares_pos,
    htracked.balance_pos⟩, fun newer env' hrun hown => ?_, ?_⟩
  · exact sharePrice_le_of_run ⟨tracker, htracked⟩ hrun hown
  · intro admin user amount env' timestamp auths result returned hn hcall
    exact htracked.round_trip hn hcall

/-- A deposit of `500` at that price brings `166` shares, for which `498` are returned. -/
theorem share_price_kept_by_deposit :
    sharesOf Demo.deposited Demo.token Demo.user = 166 ∧
      sharePrice Demo.opened Demo.token ≤ sharePrice Demo.deposited Demo.token ∧
      ∃ result, removeUserShares (enter Demo.deposited 2 []) Demo.token Demo.user 166 =
        .ok (result, 498) ∧ (498 : Int) ≤ 500 := by
  have hopened : Initialized Demo.token Demo.opened :=
    ⟨⟨Demo.env, Demo.admin, 3000000, rfl⟩, by decide⟩
  have hadded : addUserShares (enter Demo.opened 1 [Demo.admin]) Demo.admin Demo.token Demo.user
      500 = .ok Demo.added := rfl
  have harrival : Moved Demo.added Demo.deposited Demo.token 500 := by
    refine ⟨rfl, by decide, fun other hother => ?_⟩
    simp [getCurrentPhysicalBalance, Demo.deposited, TokenLedger.mint, TokenLedger.credit, hother]
  have hnext : Next Demo.opened (.deposit Demo.admin Demo.token Demo.user 500) Demo.deposited :=
    .deposit hadded harrival
  obtain ⟨-, hprice, hround⟩ := share_price_kept (.start hopened)
  refine ⟨by decide, hprice _ _ (.step (.start rfl) hnext) (by simp), ?_⟩
  obtain ⟨result, hremove⟩ : ∃ result, removeUserShares (enter Demo.deposited 2 []) Demo.token
      Demo.user 166 = .ok (result, 498) := ⟨_, rfl⟩
  refine ⟨result, hremove, hround _ _ _ _ 2 [] result 498 hnext ?_⟩
  exact hremove

end YieldTrust.ClawbackResilient
