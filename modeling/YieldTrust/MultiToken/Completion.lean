import YieldTrust.MultiToken.Backing
import YieldTrust.Optimized.Completion

/-!
# YieldTrust.MultiToken.Completion

The **completion of the grants**, with one token and with several. It is decided by what has
accrued, and closes the grant: what its recipient has not withdrawn by then stays where it is.
-/

namespace YieldTrust.MultiToken

open Fallible
open GrantStream (Address Bytes)
open Optimized (Error StatusMask hasStatus setStatus clearStatus statusActive statusPaused
  statusCompleted validateStatusTransition)

variable {host : Optimized.Host} {env env' : Env} {grant grant' : MultiTokenGrant}
  {grantId now secs : Nat} {token token' : TokenBalance} {tokens tokens' : List TokenBalance}
  {log : List (TokenLedger.Transfer Address)} {call : Call} {withdrawals : List TokenWithdrawal}

/-! ### Entries that fit their type -/

/-- The balances of the entry are `i128` values. -/
structure TokenBalance.Representable (token : TokenBalance) : Prop where
  withdrawn : I128.InRange token.withdrawn
  claimable : I128.InRange token.claimable

theorem TokenBalance.Representable.of_typed (h : token.typed = true) : token.Representable := by
  simp only [TokenBalance.typed, Bool.and_eq_true, decide_eq_true_eq] at h
  exact ⟨h.1.1.2, h.1.2⟩

theorem settleTokenBalance_representable (h : settleTokenBalance secs token = .ok token')
    (hrep : token.Representable) : token'.Representable := by
  unfold settleTokenBalance at h
  split at h
  · rw [← pure_eq_ok.mp h]
    exact hrep
  · simp only [bind_eq_ok, okOr_eq_ok, pure_eq_ok, I128.checkedAdd_eq_some] at h
    obtain ⟨_, -, _, -, _, -, _, -, claimable, ⟨hrange, rfl⟩, rfl⟩ := h
    exact ⟨hrep.withdrawn, hrange⟩

theorem settleMultiTokenGrant_representable (h : settleMultiTokenGrant grant now = .ok grant')
    (hrep : ∀ token ∈ grant.tokens, token.Representable) :
    ∀ token ∈ grant'.tokens, token.Representable := by
  rw [settleMultiTokenGrant_eq (settleMultiTokenGrant_le h)] at h
  split at h
  · rw [← Except.ok.inj h]
    exact hrep
  · obtain ⟨tokens, htokens, rfl⟩ := map_eq_ok.mp h
    intro token' htoken'
    obtain ⟨token, htoken, hsettle⟩ := exists_of_mem_mapM htokens htoken'
    exact settleTokenBalance_representable hsettle (hrep token htoken)

theorem TokenBalance.Representable.request (h : token.Representable) (env : Env)
    (withdrawal : TokenWithdrawal) : (token.request env withdrawal).Representable := by
  unfold TokenBalance.request TokenBalance.draw
  split
  · split
    · case isTrue hdraw => exact ⟨hdraw.2.2.2, hdraw.2.2.1⟩
    · exact h
  · exact h

/-- A withdrawal moves what is claimable to what is withdrawn. -/
theorem TokenBalance.request_accounted (env : Env) (withdrawal : TokenWithdrawal)
    (token : TokenBalance) :
    (token.request env withdrawal).accounted = token.accounted ∧
      (token.request env withdrawal).totalAmount = token.totalAmount := by
  unfold TokenBalance.request TokenBalance.draw
  split
  · split
    · refine ⟨?_, rfl⟩
      unfold TokenBalance.accounted
      dsimp only
      omega
    · exact ⟨rfl, rfl⟩
  · exact ⟨rfl, rfl⟩

theorem TokenBalance.requests_accounted (env : Env) (withdrawals : List TokenWithdrawal)
    (token : TokenBalance) :
    (token.requests env withdrawals).accounted = token.accounted ∧
      (token.requests env withdrawals).totalAmount = token.totalAmount := by
  induction withdrawals generalizing token with
  | nil => exact ⟨rfl, rfl⟩
  | cons withdrawal withdrawals ih =>
      obtain ⟨haccounted, htotal⟩ := ih (token.request env withdrawal)
      obtain ⟨haccounted₁, htotal₁⟩ := token.request_accounted env withdrawal
      rw [TokenBalance.requests_cons, haccounted, htotal]
      exact ⟨haccounted₁, htotal₁⟩

/-- The entries of a stored grant. -/
structure Stored (tokens : List TokenBalance) : Prop where
  distinct : (addresses tokens).Nodup
  representable : ∀ token ∈ tokens, token.Representable

theorem Stored.settled (h : Stored grant.tokens)
    (hsettle : settleMultiTokenGrant grant now = .ok (grant.settled now)) :
    Stored (grant.settled now).tokens where
  distinct := grant.nodup_settled h.distinct now
  representable := settleMultiTokenGrant_representable hsettle h.representable

/-- **Step lemma.** -/
theorem Transition.stored (h : Transition env grantId grant call grant' log)
    (hgrant : Stored grant.tokens) (htyped : call.typed = true) : Stored grant'.tokens := by
  refine ⟨h.distinct hgrant.distinct, ?_⟩
  cases h with
  | withdrawn withdrawals progress full hactive hloop hfull hsettle =>
      have hsettled := hgrant.settled hsettle
      rw [MultiTokenGrant.completedIf, withdrawals_grant_eq hloop hsettled.distinct]
      intro token htoken
      obtain ⟨before, hbefore, rfl⟩ := List.mem_map.mp htoken
      exact TokenBalance.requests_induction (fun _ withdrawal h => h.request env withdrawal)
        withdrawals (hsettled.representable before hbefore)
  | ratesUpdated _ tokens hrates hsettle =>
      have hsettled := hgrant.settled hsettle
      intro token' htoken'
      obtain ⟨token, htoken, hsame, -⟩ := hrates.balances token' htoken'
      rw [hsame]
      exact ⟨(hsettled.representable token htoken).withdrawn,
        (hsettled.representable token htoken).claimable⟩
  | added token =>
      intro t ht
      rcases List.mem_append.mp ht with ht | ht
      · exact hgrant.representable t ht
      · cases List.mem_singleton.mp ht
        simp only [Call.typed, Bool.and_eq_true] at htyped
        exact .of_typed htyped.2
  | removed tokenAddress removed kept hpartition hempty hsettle =>
      intro token htoken
      exact (hgrant.settled hsettle).representable token
        ((sublist_of_partition hpartition).subset htoken)

/-! ### What is left after the withdrawals of one call -/

/-- What is left of `claimable` after requests for `amounts`: one that is not positive or asks
for more than what is left is rejected. -/
def remaining (claimable : Int) (amounts : List Int) : Int :=
  amounts.foldl (fun left amount => if 0 < amount ∧ amount ≤ left then left - amount else left)
    claimable

/-- The amounts that the withdrawals request of the token, if it is not halted. -/
def requested (env : Env) (tokenAddress : Address) (withdrawals : List TokenWithdrawal) :
    List Int :=
  (withdrawals.filter fun withdrawal => tokenAddress = withdrawal.tokenAddress ∧
    isHalted env withdrawal.tokenAddress = false).map TokenWithdrawal.amount

theorem requested_cons (env : Env) (tokenAddress : Address) (withdrawal : TokenWithdrawal)
    (withdrawals : List TokenWithdrawal) :
    requested env tokenAddress (withdrawal :: withdrawals) =
      if tokenAddress = withdrawal.tokenAddress ∧
          isHalted env withdrawal.tokenAddress = false then
        withdrawal.amount :: requested env tokenAddress withdrawals
      else requested env tokenAddress withdrawals := by
  unfold requested
  rw [List.filter_cons]
  split
  · case isTrue h => rw [if_pos (by simpa using h), List.map_cons]
  · case isFalse h => rw [if_neg (by simpa using h)]

theorem remaining_cons (claimable amount : Int) (amounts : List Int) :
    remaining claimable (amount :: amounts) =
      remaining (if 0 < amount ∧ amount ≤ claimable then claimable - amount else claimable)
        amounts := rfl

/-- A drawn entry whose sum is an `i128` value never overflows. -/
theorem TokenBalance.Representable.draw_claimable (h : token.Representable)
    (haccounted : I128.InRange token.accounted) (amount : Int) :
    (token.draw amount).claimable =
      if 0 < amount ∧ amount ≤ token.claimable then token.claimable - amount
      else token.claimable := by
  unfold TokenBalance.draw
  by_cases hdraw : 0 < amount ∧ amount ≤ token.claimable
  · obtain ⟨hpos, hle⟩ := hdraw
    have hclaimable : I128.InRange (token.claimable - amount) :=
      h.claimable.of_nonneg_of_le (by omega) (by omega)
    have hwithdrawn : I128.InRange (token.withdrawn + amount) := by
      refine h.withdrawn.of_between haccounted (by omega) ?_
      unfold TokenBalance.accounted
      omega
    rw [if_pos ⟨hpos, hle, hclaimable, hwithdrawn⟩, if_pos ⟨hpos, hle⟩]
  · rw [if_neg fun hall => hdraw ⟨hall.1, hall.2.1⟩, if_neg hdraw]

/-- **Loop lemma.** What the withdrawals of a call leave claimable. -/
theorem TokenBalance.Representable.requests_claimable (h : token.Representable)
    (haccounted : I128.InRange token.accounted) (env : Env) (withdrawals : List TokenWithdrawal) :
    (token.requests env withdrawals).claimable =
      remaining token.claimable (requested env token.tokenAddress withdrawals) := by
  induction withdrawals generalizing token with
  | nil => rfl
  | cons withdrawal withdrawals ih =>
      have hsame := (token.request_accounted env withdrawal).1
      have hrest := ih (h.request env withdrawal) (hsame ▸ haccounted)
      rw [token.request_tokenAddress] at hrest
      rw [TokenBalance.requests_cons, hrest, requested_cons]
      by_cases hmine : token.tokenAddress = withdrawal.tokenAddress ∧
          isHalted env withdrawal.tokenAddress = false
      · rw [if_pos hmine, remaining_cons, TokenBalance.request, if_pos hmine,
          h.draw_claimable haccounted]
      · rw [if_neg hmine, TokenBalance.request, if_neg hmine]

/-- Whether everything is accounted for. -/
theorem isGrantFullyWithdrawn_eq_ok {full : Bool} (h : isGrantFullyWithdrawn tokens = .ok full) :
    (full = true ↔ ∀ token ∈ tokens, token.totalAmount ≤ token.accounted) ∧
      (full = true → ∀ token ∈ tokens, I128.InRange token.accounted) := by
  induction tokens with
  | nil =>
      rw [← pure_eq_ok.mp h]
      simp
  | cons token tokens ih =>
      unfold isGrantFullyWithdrawn at h
      simp only [bind_eq_ok, orTrap_eq_ok, I128.checkedAdd_eq_some] at h
      obtain ⟨_, ⟨hrange, rfl⟩, h⟩ := h
      simp only [List.forall_mem_cons]
      split at h
      · case isTrue hbelow =>
        rw [← pure_eq_ok.mp h]
        simp only [TokenBalance.accounted, Bool.false_eq_true, false_iff, not_and, false_implies,
          and_true]
        intro hall
        omega
      · case isFalse hall =>
        obtain ⟨hiff, hranges⟩ := ih h
        rw [hiff]
        refine ⟨⟨fun hrest => ⟨Int.not_lt.mp hall, hrest⟩, fun hrest => hrest.2⟩, fun hrest => ?_⟩
        exact ⟨hrange, hranges (hiff.mpr hrest)⟩

/-! ### Completion of a grant of several tokens -/

/-- All of every entry has accrued by the time `now`. -/
def MultiTokenGrant.AllAccrued (grant : MultiTokenGrant) (now : Nat) : Prop :=
  ∀ token ∈ (grant.settled now).tokens, token.totalAmount ≤ token.accounted

instance (grant : MultiTokenGrant) (now : Nat) : Decidable (grant.AllAccrued now) :=
  inferInstanceAs (Decidable (∀ token ∈ _, _))

/-- The withdrawals request all that is claimable of every entry. -/
def MultiTokenGrant.AllRequested (grant : MultiTokenGrant) (env : Env)
    (withdrawals : List TokenWithdrawal) : Prop :=
  ∀ token ∈ (grant.settled env.timestamp).tokens,
    remaining token.claimable (requested env token.tokenAddress withdrawals) = 0

instance (grant : MultiTokenGrant) (env : Env) (withdrawals : List TokenWithdrawal) :
    Decidable (grant.AllRequested env withdrawals) :=
  inferInstanceAs (Decidable (∀ token ∈ _, _))

/-- Nothing is claimable of the grant. -/
def MultiTokenGrant.Drained (grant : MultiTokenGrant) : Prop :=
  ∀ token ∈ grant.tokens, token.claimable = 0

/-- The grant is completed, its recipient can not withdraw, and there is nothing to withdraw. -/
structure MultiTokenGrant.Closed (grant : MultiTokenGrant) : Prop where
  completed : hasStatus grant.statusMask statusCompleted = true
  not_active : hasStatus grant.statusMask statusActive = false
  drained : grant.Drained

/-- Withdrawals from a grant of which all has accrued complete it, and leave nothing exactly if
they request everything. -/
theorem Transition.completed_spec
    (h : Transition env grantId grant (.multiTokenWithdraw grantId withdrawals) grant' log)
    (hgrant : Stored grant.tokens) (hall : grant.AllAccrued env.timestamp) :
    hasStatus grant'.statusMask statusCompleted = true ∧
      hasStatus grant'.statusMask statusActive = false ∧
      (grant'.Drained ↔ grant.AllRequested env withdrawals) := by
  cases h with
  | withdrawn _ progress full hactive hloop hfull hsettle =>
      have hsettled := hgrant.settled hsettle
      have htokens := withdrawals_grant_eq hloop hsettled.distinct
      have hprogress : progress.grant.tokens = (grant.settled env.timestamp).tokens.map
          (TokenBalance.requests env withdrawals) := by rw [htokens]
      obtain ⟨hiff, hranges⟩ := isGrantFullyWithdrawn_eq_ok hfull
      have hfull : full = true := by
        refine hiff.mpr fun token htoken => ?_
        rw [hprogress] at htoken
        obtain ⟨before, hbefore, rfl⟩ := List.mem_map.mp htoken
        obtain ⟨haccounted, htotal⟩ := before.requests_accounted env withdrawals
        rw [haccounted, htotal]
        exact hall before hbefore
      have hclaimable : ∀ token ∈ (grant.settled env.timestamp).tokens,
          (token.requests env withdrawals).claimable =
            remaining token.claimable (requested env token.tokenAddress withdrawals) := by
        intro token htoken
        have hrange := hranges hfull (token.requests env withdrawals)
          (hprogress ▸ List.mem_map_of_mem htoken)
        rw [(token.requests_accounted env withdrawals).1] at hrange
        exact (hsettled.representable token htoken).requests_claimable hrange env withdrawals
      subst hfull
      refine ⟨by simp [MultiTokenGrant.completedIf], by simp [MultiTokenGrant.completedIf], ?_⟩
      rw [MultiTokenGrant.Drained, MultiTokenGrant.completedIf, hprogress, List.forall_mem_map]
      exact forall₂_congr fun token htoken => by rw [hclaimable token htoken]

/-- A grant becomes completed in no other way. -/
theorem Transition.completes_of_completed (h : Transition env grantId grant call grant' log)
    (hgrant : Stored grant.tokens) (hbefore : hasStatus grant.statusMask statusCompleted = false)
    (hafter : hasStatus grant'.statusMask statusCompleted = true) :
    (∃ withdrawals, call = .multiTokenWithdraw grantId withdrawals) ∧
      grant.AllAccrued env.timestamp := by
  cases h with
  | withdrawn withdrawals progress full hactive hloop hfull hsettle =>
      refine ⟨⟨withdrawals, rfl⟩, ?_⟩
      have htokens := withdrawals_grant_eq hloop (hgrant.settled hsettle).distinct
      cases full with
      | false =>
          rw [MultiTokenGrant.completedIf, htokens] at hafter
          simp [MultiTokenGrant.settled, hbefore] at hafter
      | true =>
          have hall := (isGrantFullyWithdrawn_eq_ok hfull).1.mp rfl
          rw [htokens, List.forall_mem_map] at hall
          intro token htoken
          obtain ⟨haccounted, htotal⟩ := token.requests_accounted env withdrawals
          have hle := hall token htoken
          rw [haccounted, htotal] at hle
          exact hle
  | ratesUpdated | removed => exact absurd (hbefore.symm.trans hafter) (by decide)
  | added => exact absurd (hbefore.symm.trans hafter) (by decide)

/-- The condition on a call under which nothing becomes claimable of completed grants later. -/
def Call.KeepsClosed (env : Env) : Call → Prop
  | .optimized call => ∀ grantId ∈ grantIdOf call,
      ∀ grant ∈ env.store.optimized.grants grantId,
        call.Completes grantId grant env.timestamp → call.ClosesGrant grant
  | .addTokenToGrant grantId token => ∀ grant ∈ env.store.grants grantId,
      hasStatus grant.statusMask statusCompleted = true → token.claimable = 0
  | _ => True

instance decidableKeepsClosed (env : Env) : (call : Call) → Decidable (call.KeepsClosed env)
  | .optimized call => inferInstanceAs (Decidable (∀ grantId ∈ grantIdOf call,
      ∀ grant ∈ env.store.optimized.grants grantId,
        call.Completes grantId grant env.timestamp → call.ClosesGrant grant))
  | .addTokenToGrant grantId token =>
      inferInstanceAs (Decidable (∀ grant ∈ env.store.grants grantId,
        hasStatus grant.statusMask statusCompleted = true → token.claimable = 0))
  | .createMultiTokenGrant _ _ _ _ | .multiTokenWithdraw _ _ | .updateMultiTokenRates _ _
  | .removeTokenFromGrant _ _ | .configureWrappedAsset _ _ _ | .setAssetHalt _ _ =>
      inferInstanceAs (Decidable True)

/-- A closed grant stays closed. -/
theorem Transition.closed (h : Transition env grantId grant call grant' log)
    (hgrant : env.store.grants grantId = some grant) (hclosed : grant.Closed)
    (hkeeps : call.KeepsClosed env) : grant'.Closed := by
  have hidle : (grant.settled env.timestamp).tokens = grant.tokens := by
    simp [MultiTokenGrant.settled, MultiTokenGrant.elapsed, hclosed.not_active,
      TokenBalance.settled_zero]
  cases h with
  | withdrawn _ _ _ hactive => simp [hclosed.not_active] at hactive
  | ratesUpdated _ tokens hrates =>
      refine ⟨hclosed.completed, hclosed.not_active, fun token htoken => ?_⟩
      obtain ⟨before, hbefore, hsame, -⟩ := hrates.balances token htoken
      rw [hsame]
      exact hclosed.drained before (hidle ▸ hbefore)
  | added token =>
      refine ⟨hclosed.completed, hclosed.not_active, fun t ht => ?_⟩
      rcases List.mem_append.mp ht with ht | ht
      · exact hclosed.drained t ht
      · cases List.mem_singleton.mp ht
        exact hkeeps grant hgrant hclosed.completed
  | removed tokenAddress removed kept hpartition =>
      refine ⟨hclosed.completed, hclosed.not_active, fun token htoken => ?_⟩
      exact hclosed.drained token (hidle ▸ (sublist_of_partition hpartition).subset htoken)

/-- The recipient can withdraw all that is claimable of the entry, at some time from now on. -/
def CanWithdraw (env : Env) (grantId : Nat) (token : TokenBalance) : Prop :=
  ∃ timestamp auths result, env.timestamp ≤ timestamp ∧
    multiTokenWithdraw { env with timestamp, auths } grantId
      [⟨token.tokenAddress, token.claimable⟩] = .ok result

/-- Only an active grant lets its recipient withdraw. -/
theorem not_canWithdraw (hgrant : env.store.grants grantId = some grant)
    (hactive : hasStatus grant.statusMask statusActive = false) : ¬CanWithdraw env grantId token := by
  rintro ⟨timestamp, auths, result, -, h⟩
  unfold multiTokenWithdraw at h
  simp only [bind_eq_ok, ensure_eq_ok] at h
  obtain ⟨_, -, stored, hstored, _, hopen, -⟩ := h
  cases hgrant.symm.trans (readMultiTokenGrant_eq_ok hstored)
  simp [hactive] at hopen

/-! ### Completion of the grants -/

/-- The call completes the grant with one token. -/
def Call.CompletesSingle (env : Env) (grantId : Nat) (grant : Optimized.Grant) : Call → Prop
  | .optimized call => call.Completes grantId grant env.timestamp
  | _ => False

/-- The call completes the grant of several tokens. -/
def Call.CompletesMulti (env : Env) (grantId : Nat) (grant : MultiTokenGrant) : Call → Prop
  | .multiTokenWithdraw id _ => id = grantId ∧ grant.AllAccrued env.timestamp
  | _ => False

/-- The condition on a call under which a grant that it completes has nothing claimable. -/
def Call.LeavesNothing (env : Env) : Call → Prop
  | .optimized call => ∀ grantId ∈ grantIdOf call,
      ∀ grant ∈ env.store.optimized.grants grantId,
        call.Completes grantId grant env.timestamp → call.LeavesNothing grant
  | .multiTokenWithdraw grantId withdrawals => ∀ grant ∈ env.store.grants grantId,
      grant.AllAccrued env.timestamp → grant.AllRequested env withdrawals
  | _ => True

instance decidableLeavesNothing (env : Env) : (call : Call) → Decidable (call.LeavesNothing env)
  | .optimized call => inferInstanceAs (Decidable (∀ grantId ∈ grantIdOf call,
      ∀ grant ∈ env.store.optimized.grants grantId,
        call.Completes grantId grant env.timestamp → call.LeavesNothing grant))
  | .multiTokenWithdraw grantId withdrawals =>
      inferInstanceAs (Decidable (∀ grant ∈ env.store.grants grantId,
        grant.AllAccrued env.timestamp → grant.AllRequested env withdrawals))
  | .createMultiTokenGrant _ _ _ _ | .updateMultiTokenRates _ _ | .addTokenToGrant _ _
  | .removeTokenFromGrant _ _ | .configureWrappedAsset _ _ _ | .setAssetHalt _ _ =>
      inferInstanceAs (Decidable True)

theorem grantIdOf_of_completes {c : Optimized.Call} {grant : Optimized.Grant}
    (h : c.Completes grantId grant now) : grantIdOf c = some grantId := by
  cases c with
  | withdraw | updateRate | clawbackMilestone | rageQuit | selfTerminate | getGrant
  | claimableBitmask | processMilestoneExpiry => exact congrArg some h.1
  | _ => cases h

/-! ### Runs -/

/-- What a completing step leaves can be withdrawn, if there is anything. -/
structure LocksNothing (host : Optimized.Host) (e : Step) : Prop where
  single : ∀ call ∈ Ledger.called (contract host) e, ∀ grantId grant grant',
    e.before.store.optimized.grants grantId = some grant →
    call.CompletesSingle (e.before.enter e.action) grantId grant →
    e.after.store.optimized.grants grantId = some grant' →
    grant'.claimable = 0 ∨ Optimized.CanWithdraw e.after.optimized grantId grant'
  multi : ∀ call ∈ Ledger.called (contract host) e, ∀ grantId grant grant',
    e.before.store.grants grantId = some grant →
    call.CompletesMulti (e.before.enter e.action) grantId grant →
    e.after.store.grants grantId = some grant' →
    ∀ token ∈ grant'.tokens, token.claimable = 0 ∨ CanWithdraw e.after grantId token

/-- The mask of a grant comes to say that the grant is completed. -/
def BecomesCompleted (mask mask' : StatusMask) : Prop :=
  hasStatus mask statusCompleted = false ∧ hasStatus mask' statusCompleted = true

/-- A grant that becomes completed is completed by the call, or the call is one that sets the
flag itself. -/
structure CompletionsCovered (host : Optimized.Host) (e : Step) : Prop where
  single : ∀ call ∈ Ledger.called (contract host) e, ∀ grantId grant grant',
    e.before.store.optimized.grants grantId = some grant →
    e.after.store.optimized.grants grantId = some grant' →
    BecomesCompleted grant.statusMask grant'.statusMask →
    call.CompletesSingle (e.before.enter e.action) grantId grant ∨
      call = .optimized (.rageQuit grantId) ∨
      ∃ flagsToSet flagsToClear,
        call = .optimized (.setGrantFlags grantId flagsToSet flagsToClear)
  multi : ∀ call ∈ Ledger.called (contract host) e, ∀ grantId grant grant',
    e.before.store.grants grantId = some grant → e.after.store.grants grantId = some grant' →
    BecomesCompleted grant.statusMask grant'.statusMask →
    call.CompletesMulti (e.before.enter e.action) grantId grant

/-- The step completes the grant with one token. -/
def CompletesSingle (host : Optimized.Host) (grantId : Nat) (e : Step) : Prop :=
  ∃ call ∈ Ledger.called (contract host) e,
    ∃ grant ∈ e.before.store.optimized.grants grantId,
      call.CompletesSingle (e.before.enter e.action) grantId grant

/-- The step completes the grant of several tokens. -/
def CompletesMulti (host : Optimized.Host) (grantId : Nat) (e : Step) : Prop :=
  ∃ call ∈ Ledger.called (contract host) e, ∃ grant ∈ e.before.store.grants grantId,
    call.CompletesMulti (e.before.enter e.action) grantId grant

/-- Whatever is claimable of a grant that was completed can be withdrawn. -/
structure Unlocked (host : Optimized.Host) (trace : Trace) (env : Env) : Prop where
  single : ∀ grantId grant, env.store.optimized.grants grantId = some grant →
    (∃ e ∈ trace, CompletesSingle host grantId e) →
    grant.claimable = 0 ∨ Optimized.CanWithdraw env.optimized grantId grant
  multi : ∀ grantId grant, env.store.grants grantId = some grant →
    (∃ e ∈ trace, CompletesMulti host grantId e) →
    ∀ token ∈ grant.tokens, token.claimable = 0 ∨ CanWithdraw env grantId token

/-- The call of the step, if it goes through, leaves nothing claimable of a grant it completes. -/
def LeavesNothing (host : Optimized.Host) (e : Step) : Prop :=
  ∀ call ∈ Ledger.called (contract host) e, call.LeavesNothing (e.before.enter e.action)

/-- The call of the step, if it goes through, keeps completed grants closed. -/
def KeepsClosed (host : Optimized.Host) (e : Step) : Prop :=
  ∀ call ∈ Ledger.called (contract host) e, call.KeepsClosed (e.before.enter e.action)

instance (host : Optimized.Host) (e : Step) : Decidable (LeavesNothing host e) :=
  inferInstanceAs (Decidable (∀ call ∈ Ledger.called (contract host) e, _))

instance (host : Optimized.Host) (e : Step) : Decidable (KeepsClosed host e) :=
  inferInstanceAs (Decidable (∀ call ∈ Ledger.called (contract host) e, _))

section Runs

variable {trace older : Trace} {e : Step}

/-- What holds of the grants in every reachable state. -/
structure WellStored (store : Store) : Prop where
  single : ∀ grantId grant, store.optimized.grants grantId = some grant → grant.WellFormed
  multi : ∀ grantId grant, store.grants grantId = some grant → Stored grant.tokens

theorem Effect.wellStored {store : Store} (h : Effect host env call store log)
    (hstored : WellStored env.store) (htyped : call.typed = true) : WellStored store := by
  constructor
  · cases h with
    | optimized c hcall heffect => exact heffect.wellFormed hstored.single
    | configured _ hoptimized | created _ _ _ _ _ _ _ _ hoptimized | moved _ _ _ _ _ hoptimized =>
        exact hoptimized ▸ hstored.single
  · intro grantId grant hgrant
    cases h.grantEffect hgrant with
    | untouched _ hbefore => exact hstored.multi grantId grant hbefore
    | created recipient tokens mask hcall _ hnodup =>
        subst hcall
        simp only [Call.typed, Bool.and_eq_true, List.all_eq_true] at htyped
        exact ⟨hnodup, fun token htoken => .of_typed (htyped.2 token htoken)⟩
    | moved before _ hbefore htransition =>
        exact htransition.stored (hstored.multi grantId before hbefore) htyped

theorem wellStored_of_reachable (h : Ledger.Reachable (contract host) trace env) :
    WellStored env.store := by
  refine Ledger.store_invariant (I := WellStored) ?_ ?_ h
  · refine ⟨fun grantId grant hgrant => ?_, fun grantId grant hgrant => ?_⟩
    · cases hgrant
    · cases hgrant
  · intro env result call hexec htyped ih
    have heffect : Effect host env call result.store result.tokens.log := exec_effect hexec
    exact heffect.wellStored ih htyped

/-- A call that completes a grant with one token. -/
theorem Effect.completesSingle {store : Store} {grant : Optimized.Grant}
    (h : Effect host env call store log) (hstored : WellStored env.store)
    (hgrant : env.store.optimized.grants grantId = some grant)
    (hcompletes : call.CompletesSingle env grantId grant) :
    ∃ c grant', call = .optimized c ∧ store.optimized.grants grantId = some grant' ∧
      hasStatus grant'.statusMask statusActive = false ∧
      (grant'.claimable = 0 ↔ c.LeavesNothing grant) ∧
      (c.LeavesNothing grant → c.ClosesGrant grant → grant'.Exhausted) := by
  have hwf := hstored.single grantId grant hgrant
  cases h with
  | optimized c hcall heffect =>
      subst hcall
      obtain ⟨grant', hgrant', htransition⟩ := heffect.transition_of_completes hgrant hcompletes
      obtain ⟨-, hactive, hclaimable⟩ := htransition.completes_spec hwf hcompletes
      exact ⟨c, grant', rfl, hgrant', hactive, hclaimable,
        htransition.exhausted_of_completes hwf hcompletes⟩
  | configured hcall =>
      cases call with
      | configureWrappedAsset | setAssetHalt => cases hcompletes
      | _ => cases hcall
  | created _ _ _ _ hcall =>
      subst hcall
      cases hcompletes
  | moved _ _ _ _ htransition => cases htransition <;> cases hcompletes

/-- A call that completes a grant of several tokens. -/
theorem Effect.completesMulti {store : Store} (h : Effect host env call store log)
    (hstored : WellStored env.store) (hgrant : env.store.grants grantId = some grant)
    (hcompletes : call.CompletesMulti env grantId grant) :
    ∃ withdrawals grant', call = .multiTokenWithdraw grantId withdrawals ∧
      store.grants grantId = some grant' ∧
      hasStatus grant'.statusMask statusCompleted = true ∧
      hasStatus grant'.statusMask statusActive = false ∧
      (grant'.Drained ↔ grant.AllRequested env withdrawals) := by
  have hwf := hstored.multi grantId grant hgrant
  cases h with
  | optimized _ hcall =>
      subst hcall
      cases hcompletes
  | configured hcall =>
      cases call with
      | configureWrappedAsset | setAssetHalt => cases hcompletes
      | _ => cases hcall
  | created _ _ _ _ hcall =>
      subst hcall
      cases hcompletes
  | moved target before after hbefore htransition _ hgrants =>
      have hwithdraws : ∃ withdrawals, call = .multiTokenWithdraw grantId withdrawals ∧
          target = grantId := by
        cases htransition with
        | withdrawn withdrawals =>
            obtain ⟨rfl, -⟩ := hcompletes
            exact ⟨withdrawals, rfl, rfl⟩
        | _ => cases hcompletes
      obtain ⟨withdrawals, rfl, rfl⟩ := hwithdraws
      cases hgrant.symm.trans hbefore
      refine ⟨withdrawals, after, rfl, by rw [hgrants, Function.update_self], ?_⟩
      exact htransition.completed_spec hwf hcompletes.2

/-- A call leaves an exhausted grant exhausted. -/
theorem Effect.exhausted {store : Store} {grant : Optimized.Grant}
    (h : Effect host env call store log) (hstored : WellStored env.store)
    (hgrant : env.store.optimized.grants grantId = some grant) (hexhausted : grant.Exhausted) :
    ∃ grant', store.optimized.grants grantId = some grant' ∧ grant'.Exhausted := by
  cases h with
  | optimized c hcall heffect =>
      exact heffect.exhausted hgrant (hstored.single grantId grant hgrant) hexhausted
  | configured _ hoptimized | created _ _ _ _ _ _ _ _ hoptimized | moved _ _ _ _ _ hoptimized =>
      exact ⟨grant, hoptimized ▸ hgrant, hexhausted⟩

/-- A call that keeps completed grants closed leaves a closed grant closed. -/
theorem Effect.closed {store : Store} (h : Effect host env call store log)
    (hgrant : env.store.grants grantId = some grant) (hclosed : grant.Closed)
    (hkeeps : call.KeepsClosed env) :
    ∃ grant', store.grants grantId = some grant' ∧ grant'.Closed := by
  cases h with
  | optimized _ _ _ hgrants | configured _ _ hgrants =>
      exact ⟨grant, hgrants ▸ hgrant, hclosed⟩
  | created target _ _ _ _ _ _ hnone _ hgrants =>
      have hid : grantId ≠ target := by
        rintro rfl
        cases hgrant.symm.trans hnone
      rw [hgrants, Function.update_of_ne hid]
      exact ⟨grant, hgrant, hclosed⟩
  | moved target before after hbefore htransition _ hgrants =>
      rw [hgrants]
      by_cases hid : grantId = target
      · subst hid
        cases hgrant.symm.trans hbefore
        exact ⟨after, Function.update_self .., htransition.closed hgrant hclosed hkeeps⟩
      · exact ⟨grant, (Function.update_of_ne hid ..).trans hgrant, hclosed⟩

/-- A step locks nothing exactly if it leaves nothing. -/
theorem locksNothing_iff (h : Ledger.Reachable (contract host) older e.before)
    (hn : Ledger.Next (contract host) e.before e.action e.after) :
    LocksNothing host e ↔ LeavesNothing host e := by
  have hstored := wellStored_of_reachable h
  rcases effect_of_next hn with ⟨hnone, -⟩ | ⟨call, hcalled, -, heffect⟩
  · refine iff_of_true ⟨?_, ?_⟩ ?_ <;>
    · intro call hcall
      cases hnone.symm.trans hcall
  constructor
  · intro hlocks call' hcall'
    cases hcalled.symm.trans hcall'
    cases call with
    | optimized c =>
        intro grantId hid grant hgrant hcompletes
        obtain ⟨_, grant', hcall, hgrant', hactive, hclaimable, -⟩ :=
          heffect.completesSingle hstored hgrant hcompletes
        cases hcall
        rcases hlocks.single _ hcalled grantId grant grant' hgrant hcompletes hgrant' with
          hzero | hcan
        · exact hclaimable.mp hzero
        · exact absurd hcan (Optimized.not_canWithdraw hgrant' hactive)
    | multiTokenWithdraw grantId withdrawals =>
        intro grant hgrant hall
        have hcompletes : (Call.multiTokenWithdraw grantId withdrawals).CompletesMulti
            (e.before.enter e.action) grantId grant := ⟨rfl, hall⟩
        obtain ⟨_, grant', hcall, hgrant', -, hactive, hdrained⟩ :=
          heffect.completesMulti hstored hgrant hcompletes
        cases hcall
        refine hdrained.mp fun token htoken => ?_
        rcases hlocks.multi _ hcalled grantId grant grant' hgrant hcompletes hgrant' token htoken
          with hzero | hcan
        · exact hzero
        · exact absurd hcan (not_canWithdraw hgrant' hactive)
    | _ => trivial
  · intro hleaves
    have hleaves := hleaves call hcalled
    constructor
    · intro call' hcall' grantId grant after hgrant hcompletes hafter
      cases hcalled.symm.trans hcall'
      obtain ⟨c, grant', rfl, hgrant', -, hclaimable, -⟩ :=
        heffect.completesSingle hstored hgrant hcompletes
      cases hgrant'.symm.trans hafter
      have hid := grantIdOf_of_completes hcompletes
      exact .inl (hclaimable.mpr (hleaves grantId hid grant hgrant hcompletes))
    · intro call' hcall' grantId grant after hgrant hcompletes hafter token htoken
      cases hcalled.symm.trans hcall'
      obtain ⟨withdrawals, grant', rfl, hgrant', -, -, hdrained⟩ :=
        heffect.completesMulti hstored hgrant hcompletes
      cases hgrant'.symm.trans hafter
      exact .inl (hdrained.mpr (hleaves grant hgrant hcompletes.2) token htoken)

/-- The completions of a step are covered. -/
theorem completionsCovered (h : Ledger.Reachable (contract host) older e.before)
    (hn : Ledger.Next (contract host) e.before e.action e.after) : CompletionsCovered host e := by
  have hstored := wellStored_of_reachable h
  rcases effect_of_next hn with ⟨hnone, -⟩ | ⟨call, hcalled, -, heffect⟩
  · constructor <;>
    · intro call hcall
      cases hnone.symm.trans hcall
  generalize e.after.tokens.log = log at heffect
  constructor
  · intro call' hcall' grantId grant grant' hgrant hgrant' ⟨hbefore, hafter⟩
    cases hcalled.symm.trans hcall'
    have hunchanged (hsame : e.after.store.optimized = e.before.store.optimized) : False := by
      rw [hsame] at hgrant'
      cases hgrant.symm.trans hgrant'
      simp [hbefore] at hafter
    cases heffect with
    | optimized c hcall hsingle =>
        subst hcall
        cases hsingle.grantEffect hgrant' with
        | untouched _ hsame =>
            cases hgrant.symm.trans hsame
            simp [hbefore] at hafter
        | created _ _ _ _ _ hnone => cases hgrant.symm.trans hnone
        | moved before _ hmoved htransition =>
            cases hgrant.symm.trans hmoved
            rcases htransition.completes_of_completed (hstored.single grantId grant hgrant) hbefore
              hafter with hcompletes | rfl | ⟨flagsToSet, flagsToClear, rfl⟩
            · exact .inl hcompletes
            · exact .inr (.inl rfl)
            · exact .inr (.inr ⟨flagsToSet, flagsToClear, rfl⟩)
    | configured _ hoptimized => exact (hunchanged hoptimized).elim
    | created _ _ _ _ _ _ _ _ hoptimized => exact (hunchanged hoptimized).elim
    | moved _ _ _ _ _ hoptimized => exact (hunchanged hoptimized).elim
  · intro call' hcall' grantId grant grant' hgrant hgrant' ⟨hbefore, hafter⟩
    cases hcalled.symm.trans hcall'
    cases heffect.grantEffect hgrant' with
    | untouched _ hsame =>
        cases hgrant.symm.trans hsame
        simp [hbefore] at hafter
    | created _ _ _ _ _ _ hnone => cases hgrant.symm.trans hnone
    | moved before _ hmoved htransition =>
        cases hgrant.symm.trans hmoved
        obtain ⟨⟨withdrawals, rfl⟩, hall⟩ :=
          htransition.completes_of_completed (hstored.multi grantId grant hgrant) hbefore hafter
        exact ⟨rfl, hall⟩

/-- The grants that were completed stay exhausted and closed. -/
structure ClosedGrants (host : Optimized.Host) (trace : Trace) (env : Env) : Prop where
  single : ∀ grantId, (∃ e ∈ trace, CompletesSingle host grantId e) →
    ∃ grant, env.store.optimized.grants grantId = some grant ∧ grant.Exhausted
  multi : ∀ grantId, (∃ e ∈ trace, CompletesMulti host grantId e) →
    ∃ grant, env.store.grants grantId = some grant ∧ grant.Closed

theorem ClosedGrants.unlocked (h : ClosedGrants host trace env) : Unlocked host trace env where
  single grantId grant hgrant hcompleted := by
    obtain ⟨stored, hstored, hexhausted⟩ := h.single grantId hcompleted
    cases hgrant.symm.trans hstored
    exact .inl hexhausted.claimable_eq
  multi grantId grant hgrant hcompleted token htoken := by
    obtain ⟨stored, hstored, hclosed⟩ := h.multi grantId hcompleted
    cases hgrant.symm.trans hstored
    exact .inl (hclosed.drained token htoken)

/-- **Step lemma.** -/
theorem ClosedGrants.step (hI : ClosedGrants host older e.before)
    (h : Ledger.Reachable (contract host) older e.before)
    (hn : Ledger.Next (contract host) e.before e.action e.after)
    (hleaves : LeavesNothing host e) (hkeeps : KeepsClosed host e) :
    ClosedGrants host (e :: older) e.after := by
  have hstored := wellStored_of_reachable h
  rcases effect_of_next hn with ⟨hnone, hstore⟩ | ⟨call, hcalled, -, heffect⟩
  · constructor
    · rintro grantId ⟨e', he', hcompletes⟩
      rw [hstore]
      rcases List.mem_cons.mp he' with rfl | he'
      · obtain ⟨call, hcall, -⟩ := hcompletes
        cases hnone.symm.trans hcall
      · exact hI.single grantId ⟨e', he', hcompletes⟩
    · rintro grantId ⟨e', he', hcompletes⟩
      rw [hstore]
      rcases List.mem_cons.mp he' with rfl | he'
      · obtain ⟨call, hcall, -⟩ := hcompletes
        cases hnone.symm.trans hcall
      · exact hI.multi grantId ⟨e', he', hcompletes⟩
  have hleaves := hleaves call hcalled
  have hkeeps := hkeeps call hcalled
  constructor
  · rintro grantId ⟨e', he', hcompletes⟩
    rcases List.mem_cons.mp he' with rfl | he'
    · obtain ⟨call', hcall', grant, hgrant, hcompletes⟩ := hcompletes
      cases hcalled.symm.trans hcall'
      obtain ⟨c, grant', rfl, hgrant', -, -, hexhausted⟩ :=
        heffect.completesSingle hstored hgrant hcompletes
      have hid := grantIdOf_of_completes hcompletes
      exact ⟨grant', hgrant', hexhausted (hleaves grantId hid grant hgrant hcompletes)
        (hkeeps grantId hid grant hgrant hcompletes)⟩
    · obtain ⟨grant, hgrant, hexhausted⟩ := hI.single grantId ⟨e', he', hcompletes⟩
      exact heffect.exhausted hstored hgrant hexhausted
  · rintro grantId ⟨e', he', hcompletes⟩
    rcases List.mem_cons.mp he' with rfl | he'
    · obtain ⟨call', hcall', grant, hgrant, hcompletes⟩ := hcompletes
      cases hcalled.symm.trans hcall'
      obtain ⟨withdrawals, grant', rfl, hgrant', hcompleted, hactive, hdrained⟩ :=
        heffect.completesMulti hstored hgrant hcompletes
      exact ⟨grant', hgrant', hcompleted, hactive,
        hdrained.mpr (hleaves grant hgrant hcompletes.2)⟩
    · obtain ⟨grant, hgrant, hclosed⟩ := hI.multi grantId ⟨e', he', hcompletes⟩
      exact heffect.closed hgrant hclosed hkeeps

/-- **Run lemma.** -/
theorem closedGrants_of_run (h : Ledger.Reachable (contract host) trace env)
    (hguarded : Run.Each (fun e _ => LeavesNothing host e ∧ KeepsClosed host e) trace) :
    ClosedGrants host trace env := by
  induction h with
  | start => exact ⟨by simp, by simp⟩
  | step h hn ih =>
      obtain ⟨⟨hleaves, hkeeps⟩, hguarded⟩ := hguarded
      exact (ih hguarded).step h hn hleaves hkeeps

end Runs

/-- **Completion of grants.** A step that completes a grant leaves nothing that its recipient
can not withdraw exactly if it leaves nothing at all. In a run whose completions leave nothing
and keep the grants closed, nothing of a completed grant is ever locked. -/
theorem completion_locks_nothing (host : Optimized.Host) {trace : Trace} {env : Env}
    (h : Ledger.Reachable (contract host) trace env) :
    Run.Each (fun e _ => CompletionsCovered host e) trace ∧
    (Run.Each (fun e _ => LocksNothing host e) trace ↔
      Run.Each (fun e _ => LeavesNothing host e) trace) ∧
    (Run.Each (fun e _ => LeavesNothing host e ∧ KeepsClosed host e) trace →
      Unlocked host trace env) := by
  have hsteps {p : Step → Prop} (hp : ∀ {e : Step} {older : Trace},
      Ledger.Reachable (contract host) (e :: older) e.after → p e) :
      Run.Each (fun e _ => p e) trace := by
    induction h with
    | start => trivial
    | step h hn ih => exact ⟨hp (.step h hn), ih⟩
  refine ⟨hsteps fun hrun => ?_, ?_, fun hguarded => (closedGrants_of_run h hguarded).unlocked⟩
  · obtain ⟨hrun, hn, -⟩ := hrun.uncons
    exact completionsCovered hrun hn
  · refine Run.each_iff h (hsteps (p := fun _ => True) fun _ => trivial) fun hrun _ => ?_
    obtain ⟨hrun, hn, -⟩ := hrun.uncons
    exact locksNothing_iff hrun hn

/-- A grant of 1000, and one of two tokens; both are withdrawn in full. -/
theorem completion_locks_nothing_of_full_withdrawals :
    let run := Ledger.history (contract Demo.host) Demo.env (Demo.setUp ++
      [Demo.call 0 [Optimized.Demo.admin]
          (.optimized (.createGrant 3 Optimized.Demo.grantee 1000 1 statusActive)),
        Demo.call 100 [Optimized.Demo.grantee] (.optimized (.withdraw 3 100)),
        Demo.call 200 [Optimized.Demo.grantee]
          (.multiTokenWithdraw 7 [⟨Demo.tokenA, 60⟩, ⟨Demo.tokenB, 100⟩, ⟨Demo.tokenA, 40⟩]),
        Demo.call 2000 [Optimized.Demo.grantee] (.optimized (.withdraw 3 900))])
    Unlocked Demo.host run.1 run.2 := by
  intro run
  have hrun : Ledger.Reachable (contract Demo.host) run.1 run.2 :=
    Ledger.history_reachable _ Demo.env_deployed (by decide)
  exact (completion_locks_nothing Demo.host hrun).2.2 (by decide)

/-- All 1000 have accrued, 400 of them are withdrawn, and the other 600 are locked. -/
theorem completion_locks_nothing_partial_withdrawal :
    ¬∀ trace env, Ledger.Reachable (contract Demo.host) trace env →
      Unlocked Demo.host trace env := by
  intro h
  let run := Ledger.history (contract Demo.host) Demo.env
    [Demo.call 0 [Optimized.Demo.admin]
        (.optimized (.initializeContract Optimized.Demo.admin)),
      Demo.call 0 [Optimized.Demo.admin]
        (.optimized (.createGrant 3 Optimized.Demo.grantee 1000 1 statusActive)),
      Demo.call 2000 [Optimized.Demo.grantee] (.optimized (.withdraw 3 400))]
  have hrun : Ledger.Reachable (contract Demo.host) run.1 run.2 :=
    Ledger.history_reachable _ Demo.env_deployed (by decide)
  let grant := Optimized.Grant.created Optimized.Demo.grantee 1000 1 statusActive 0
  have hstored : run.2.store.optimized.grants 3 = some { grant with
      lastUpdateTs := 2000, withdrawn := 400, claimable := 600, statusMask := statusCompleted } := by
    decide
  have hcompleted : ∃ e ∈ run.1, CompletesSingle Demo.host 3 e :=
    ⟨_, List.mem_cons_self, .optimized (.withdraw 3 400), by decide, grant, by decide, rfl,
      by decide⟩
  rcases (h _ _ hrun).single 3 _ hstored hcompleted with hzero | hcan
  · exact absurd hzero (by decide)
  · exact absurd hcan (Optimized.not_canWithdraw hstored (by decide))

end YieldTrust.MultiToken
