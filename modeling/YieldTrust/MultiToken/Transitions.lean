import YieldTrust.MultiToken.Contract
import YieldTrust.Optimized.Transitions

/-!
# YieldTrust.MultiToken.Transitions

What a call that goes through does to the grants of several tokens, entry by entry: a settlement
and the withdrawals of one call are maps over the entries of the grant.
-/

namespace YieldTrust.MultiToken

open Fallible
open GrantStream (Address Bytes)
open Optimized (Error StatusMask hasStatus setStatus clearStatus statusActive statusPaused
  statusCompleted validateStatusTransition)

variable {host : Optimized.Host} {env env' : Env} {grant grant' : MultiTokenGrant}
  {grantId now secs : Nat} {token token' : TokenBalance} {tokens tokens' : List TokenBalance}

/-- The addresses of the entries. -/
def addresses (tokens : List TokenBalance) : List Address := tokens.map TokenBalance.tokenAddress

/-! ### Settlement -/

def TokenBalance.accounted (token : TokenBalance) : Int := token.withdrawn + token.claimable

/-- The entry after `secs` seconds. -/
def TokenBalance.settled (token : TokenBalance) (secs : Nat) : TokenBalance :=
  if secs = 0 ∨ token.flowRate = 0 then token
  else { token with
    claimable := token.claimable +
      min (token.totalAmount - token.accounted) (token.flowRate * secs) }

theorem settleTokenBalance_eq_ok (h : settleTokenBalance secs token = .ok token') :
    (secs = 0 ∨ token.flowRate = 0 ∨ token.accounted ≤ token.totalAmount) ∧
      (secs ≠ 0 → token' = token.settled secs) := by
  unfold settleTokenBalance at h
  split at h
  · case isTrue hzero =>
    rw [← pure_eq_ok.mp h]
    exact ⟨.inr (.inl hzero), fun _ => by simp [TokenBalance.settled, hzero]⟩
  · case isFalse hne =>
    simp only [bind_eq_ok, ensure_eq_ok, okOr_eq_ok, pure_eq_ok, I128.checkedMul_eq_some,
      I128.checkedAdd_eq_some, I128.checkedSub_eq_some] at h
    obtain ⟨_, ⟨-, rfl⟩, _, ⟨-, rfl⟩, _, hle, _, ⟨-, rfl⟩, _, ⟨-, rfl⟩, rfl⟩ := h
    refine ⟨.inr (.inr hle), fun hsecs => ?_⟩
    simp only [TokenBalance.settled, TokenBalance.accounted, hsecs, hne, or_self, if_false]
    congr 2
    split <;> omega

/-- The time for which a settlement at `now` lets the entries accrue. -/
def MultiTokenGrant.elapsed (grant : MultiTokenGrant) (now : Nat) : Nat :=
  if hasStatus grant.statusMask statusActive then now - grant.lastUpdateTs else 0

/-- The grant after a settlement at `now`. -/
def MultiTokenGrant.settled (grant : MultiTokenGrant) (now : Nat) : MultiTokenGrant :=
  { grant with
    lastUpdateTs := now
    tokens := grant.tokens.map fun token => token.settled (grant.elapsed now) }

theorem TokenBalance.settled_zero (token : TokenBalance) : token.settled 0 = token := by
  simp [TokenBalance.settled]

/-- A settlement goes through the entries only if they can have accrued something. -/
theorem settleMultiTokenGrant_eq (hle : grant.lastUpdateTs ≤ now) :
    settleMultiTokenGrant grant now =
      if grant.elapsed now = 0 then .ok { grant with lastUpdateTs := now }
      else (fun tokens => { grant with lastUpdateTs := now, tokens }) <$>
        grant.tokens.mapM (settleTokenBalance (grant.elapsed now)) := by
  have hensure : (ensure (grant.lastUpdateTs ≤ now) .invalidState : Res Unit) = .ok () :=
    ensure_eq_ok.mpr hle
  unfold settleMultiTokenGrant MultiTokenGrant.elapsed
  rw [hensure]
  change (if (!hasStatus grant.statusMask statusActive || now - grant.lastUpdateTs == 0) = true
    then _ else _) = _
  cases hasStatus grant.statusMask statusActive with
  | false => rfl
  | true =>
      by_cases hzero : now - grant.lastUpdateTs = 0
      · rw [hzero]
        rfl
      · rw [if_neg (by simpa using hzero), if_pos rfl, if_neg hzero]
        rfl

theorem settleMultiTokenGrant_le (h : settleMultiTokenGrant grant now = .ok grant') :
    grant.lastUpdateTs ≤ now := by
  unfold settleMultiTokenGrant at h
  obtain ⟨_, hle, -⟩ := bind_eq_ok.mp h
  exact ensure_eq_ok.mp hle

theorem settleMultiTokenGrant_eq_ok (h : settleMultiTokenGrant grant now = .ok grant') :
    grant' = grant.settled now := by
  rw [settleMultiTokenGrant_eq (settleMultiTokenGrant_le h)] at h
  split at h
  · case isTrue hzero =>
    rw [← Except.ok.inj h]
    simp [MultiTokenGrant.settled, hzero, TokenBalance.settled_zero]
  · case isFalse hne =>
    obtain ⟨tokens, htokens, rfl⟩ := map_eq_ok.mp h
    have hmap := map_of_mapM (g := fun token => token.settled (grant.elapsed now))
      (fun hentry => (settleTokenBalance_eq_ok hentry).2 hne) htokens
    rw [hmap, MultiTokenGrant.settled]

theorem TokenBalance.settled_tokenAddress (token : TokenBalance) (secs : Nat) :
    (token.settled secs).tokenAddress = token.tokenAddress := by
  unfold TokenBalance.settled
  split <;> rfl

/-- A change of the entries that keeps their addresses. -/
theorem addresses_map {f : TokenBalance → TokenBalance}
    (hf : ∀ token, (f token).tokenAddress = token.tokenAddress) (tokens : List TokenBalance) :
    addresses (tokens.map f) = addresses tokens := by
  simp [addresses, hf]

/-! ### Withdrawals -/

/-- Withdraw `amount` from the entry, if that is possible. -/
def TokenBalance.draw (token : TokenBalance) (amount : Int) : TokenBalance :=
  if 0 < amount ∧ amount ≤ token.claimable ∧ I128.InRange (token.claimable - amount) ∧
      I128.InRange (token.withdrawn + amount) then
    { token with
      claimable := token.claimable - amount
      withdrawn := token.withdrawn + amount }
  else token

theorem TokenBalance.draw_tokenAddress (token : TokenBalance) (amount : Int) :
    (token.draw amount).tokenAddress = token.tokenAddress := by
  unfold TokenBalance.draw
  split <;> rfl

/-- What a withdrawal does to an entry of the grant. -/
def TokenBalance.request (env : Env) (withdrawal : TokenWithdrawal) (token : TokenBalance) :
    TokenBalance :=
  if token.tokenAddress = withdrawal.tokenAddress ∧
      isHalted env withdrawal.tokenAddress = false then
    token.draw withdrawal.amount
  else token

theorem TokenBalance.request_tokenAddress (env : Env) (withdrawal : TokenWithdrawal)
    (token : TokenBalance) :
    (token.request env withdrawal).tokenAddress = token.tokenAddress := by
  unfold TokenBalance.request
  split
  · exact token.draw_tokenAddress withdrawal.amount
  · rfl

/-- One round of the withdrawals: it is rejected, or tokens are transferred. -/
inductive Round (progress : Progress) (withdrawal : TokenWithdrawal) (progress' : Progress) : Prop
  | rejected (henv : progress'.env = progress.env) (hgrant : progress'.grant = progress.grant)
      (hreject : isHalted progress.env withdrawal.tokenAddress = true ∨ withdrawal.amount ≤ 0 ∨
        ∀ token ∈ findToken progress.grant.tokens withdrawal.tokenAddress,
          token.claimable < withdrawal.amount)
  | paid (token : TokenBalance) (ledger : TokenLedger Address)
      (hlive : isHalted progress.env withdrawal.tokenAddress = false)
      (hfind : findToken progress.grant.tokens withdrawal.tokenAddress = some token)
      (hpos : 0 < withdrawal.amount) (hle : withdrawal.amount ≤ token.claimable)
      (htransfer : progress.env.tokens.transfer withdrawal.tokenAddress progress.env.self
        progress.grant.recipient withdrawal.amount = some ledger)
      (henv : progress'.env = { progress.env with tokens := ledger })
      (hgrant : progress'.grant = { progress.grant with
        tokens := setToken progress.grant.tokens (token.draw withdrawal.amount) })

/-- What the entry holds after a withdrawal of `amount` are `i128` values. -/
def TokenBalance.Books (token : TokenBalance) (amount : Int) : Prop :=
  I128.InRange (token.claimable - amount) ∧ I128.InRange (token.withdrawn + amount)

/-- What is claimable is drawn exactly if it can be booked. -/
theorem TokenBalance.draw_of_le {amount : Int} (hpos : 0 < amount)
    (hle : amount ≤ token.claimable) :
    (token.Books amount → token.draw amount = { token with
      claimable := token.claimable - amount, withdrawn := token.withdrawn + amount }) ∧
    (¬token.Books amount → token.draw amount = token) :=
  ⟨fun hbooks => if_pos ⟨hpos, hle, hbooks⟩, fun hbooks => if_neg fun hdraw => hbooks hdraw.2.2⟩

/-- A withdrawal is rejected without an effect, or pays and leaves its result. -/
theorem processTokenWithdrawal_eq_ok {withdrawal : TokenWithdrawal}
    {outcome : Except Error (MultiTokenGrant × Int)}
    (h : processTokenWithdrawal env grant withdrawal = .ok (env', outcome)) :
    (env' = env ∧ (∃ e, outcome = .error e) ∧ (withdrawal.amount ≤ 0 ∨
      ∀ token ∈ findToken grant.tokens withdrawal.tokenAddress,
        token.claimable < withdrawal.amount)) ∨
    ∃ token ledger, findToken grant.tokens withdrawal.tokenAddress = some token ∧
      0 < withdrawal.amount ∧ withdrawal.amount ≤ token.claimable ∧
      env.tokens.transfer withdrawal.tokenAddress env.self grant.recipient withdrawal.amount =
        some ledger ∧
      env' = { env with tokens := ledger } ∧
      ((∃ e, outcome = .error e) ∧ ¬token.Books withdrawal.amount ∨
        token.Books withdrawal.amount ∧ outcome = .ok ({ grant with
          tokens := setToken grant.tokens (token.draw withdrawal.amount) },
            withdrawal.amount)) := by
  unfold processTokenWithdrawal at h
  split at h
  · case isTrue hamount =>
    cases pure_eq_ok.mp h
    exact .inl ⟨rfl, ⟨_, rfl⟩, .inl hamount⟩
  · case isFalse hamount =>
    split at h
    · case h_1 hnone =>
      cases pure_eq_ok.mp h
      refine .inl ⟨rfl, ⟨_, rfl⟩, .inr fun token htoken => ?_⟩
      cases hnone.symm.trans htoken
    · case h_2 token hfind =>
      split at h
      · case isTrue hbelow =>
        cases pure_eq_ok.mp h
        refine .inl ⟨rfl, ⟨_, rfl⟩, .inr fun token' htoken => ?_⟩
        cases hfind.symm.trans htoken
        exact hbelow
      · case isFalse hle =>
        obtain ⟨env₁, htransfer, h⟩ := bind_eq_ok.mp h
        obtain ⟨ledger, hledger, rfl⟩ := Ledger.Env.transfer_eq_ok.mp htransfer
        refine .inr ⟨token, ledger, hfind, Int.lt_of_not_ge hamount, Int.le_of_not_gt hle,
          hledger, ?_⟩
        split at h
        · case h_1 hsub =>
          cases pure_eq_ok.mp h
          refine ⟨rfl, .inl ⟨⟨_, rfl⟩, fun hbooks => ?_⟩⟩
          cases hsub.symm.trans (I128.checkedSub_eq_some.mpr ⟨hbooks.1, rfl⟩)
        · case h_2 claimable hsub =>
          obtain ⟨hrange, rfl⟩ := I128.checkedSub_eq_some.mp hsub
          split at h
          · case h_1 hadd =>
            cases pure_eq_ok.mp h
            refine ⟨rfl, .inl ⟨⟨_, rfl⟩, fun hbooks => ?_⟩⟩
            cases hadd.symm.trans (I128.checkedAdd_eq_some.mpr ⟨hbooks.2, rfl⟩)
          · case h_2 withdrawn hadd =>
            obtain ⟨hrange', rfl⟩ := I128.checkedAdd_eq_some.mp hadd
            cases pure_eq_ok.mp h
            have hdraw := (token.draw_of_le (Int.lt_of_not_ge hamount) (Int.le_of_not_gt hle)).1
              ⟨hrange, hrange'⟩
            refine ⟨rfl, .inr ⟨⟨hrange, hrange'⟩, ?_⟩⟩
            rw [hdraw]

theorem Progress.next_eq_ok {progress progress' : Progress} {withdrawal : TokenWithdrawal}
    (h : progress.next withdrawal = .ok progress') : Round progress withdrawal progress' := by
  unfold Progress.next at h
  split at h
  · case isTrue hhalted =>
    rw [← pure_eq_ok.mp h]
    exact .rejected rfl rfl (.inl hhalted)
  · case isFalse hlive =>
    rw [Bool.not_eq_true] at hlive
    obtain ⟨⟨env₁, outcome⟩, hprocess, h⟩ := bind_eq_ok.mp h
    rcases processTokenWithdrawal_eq_ok hprocess with ⟨rfl, ⟨e, rfl⟩, hreject⟩ |
      ⟨token, ledger, hfind, hpos, hle, htransfer, rfl, ⟨⟨e, rfl⟩, hbooks⟩ | ⟨hbooks, rfl⟩⟩
    · rw [← pure_eq_ok.mp h]
      exact .rejected rfl rfl (.inr hreject)
    · rw [← pure_eq_ok.mp h]
      refine .paid token ledger hlive hfind hpos hle htransfer rfl ?_
      rw [(token.draw_of_le hpos hle).2 hbooks, setToken, KeyedList.set_of_find? hfind]
    · rw [← pure_eq_ok.mp h]
      exact .paid token ledger hlive hfind hpos hle htransfer rfl rfl

/-! ### The withdrawals of one call -/

section Withdrawals

variable {progress progress' : Progress} {withdrawal : TokenWithdrawal}
  {withdrawals : List TokenWithdrawal}

theorem TokenBalance.draw_of_not_le {amount : Int} (h : amount ≤ 0 ∨ token.claimable < amount) :
    token.draw amount = token := by
  refine if_neg fun hdraw => ?_
  omega

/-- One round changes the entry of its token only. -/
theorem Round.grant_eq (h : Round progress withdrawal progress')
    (hnodup : (addresses progress.grant.tokens).Nodup) :
    progress'.grant = { progress.grant with
      tokens := progress.grant.tokens.map (TokenBalance.request progress.env withdrawal) } := by
  cases h with
  | rejected henv hgrant hreject =>
      have hsame : progress.grant.tokens.map (TokenBalance.request progress.env withdrawal) =
          progress.grant.tokens := by
        refine (List.map_congr_left fun token htoken => ?_).trans (List.map_id _)
        refine ite_eq_right_iff.mpr fun hrequest => ?_
        obtain ⟨hkey, hlive⟩ := hrequest
        rcases hreject with hhalted | hamount | hbelow
        · simp [hlive] at hhalted
        · exact TokenBalance.draw_of_not_le (.inl hamount)
        · have hfind := KeyedList.find?_of_mem hnodup htoken
          rw [hkey] at hfind
          exact TokenBalance.draw_of_not_le (.inr (hbelow token hfind))
      rw [hgrant, hsame]
  | paid token ledger hlive hfind hpos hle htransfer henv hgrant =>
      have hmap := KeyedList.set_eq_map_of_find? hnodup (TokenBalance.draw · withdrawal.amount)
        (fun token => token.draw_tokenAddress _) hfind
      have hrequest : TokenBalance.request progress.env withdrawal = fun token =>
          if token.tokenAddress = withdrawal.tokenAddress then token.draw withdrawal.amount
          else token := by
        funext token
        simp [TokenBalance.request, hlive]
      rw [hgrant, setToken, hmap, hrequest]

theorem Round.env_eq (h : Round progress withdrawal progress') :
    progress'.env = { progress.env with tokens := progress'.env.tokens } := by
  cases h with
  | rejected henv => rw [henv]
  | paid _ ledger _ _ _ _ _ henv => rw [henv]

/-- An entry after all withdrawals of a call. -/
def TokenBalance.requests (env : Env) (withdrawals : List TokenWithdrawal)
    (token : TokenBalance) : TokenBalance :=
  withdrawals.foldl (fun token withdrawal => token.request env withdrawal) token

theorem TokenBalance.requests_cons (env : Env) (withdrawal : TokenWithdrawal)
    (withdrawals : List TokenWithdrawal) (token : TokenBalance) :
    token.requests env (withdrawal :: withdrawals) =
      (token.request env withdrawal).requests env withdrawals := rfl

/-- What holds of an entry after every withdrawal. -/
theorem TokenBalance.requests_induction {P : TokenBalance → Prop} {env : Env}
    (step : ∀ token withdrawal, P token → P (token.request env withdrawal))
    (withdrawals : List TokenWithdrawal) (h : P token) : P (token.requests env withdrawals) := by
  induction withdrawals generalizing token with
  | nil => exact h
  | cons withdrawal withdrawals ih =>
      rw [TokenBalance.requests_cons]
      exact ih (step token withdrawal h)

theorem TokenBalance.requests_tokenAddress (env : Env) (withdrawals : List TokenWithdrawal)
    (token : TokenBalance) :
    (token.requests env withdrawals).tokenAddress = token.tokenAddress := by
  refine TokenBalance.requests_induction (P := fun t => t.tokenAddress = token.tokenAddress)
    (fun t withdrawal h => ?_) withdrawals rfl
  rw [t.request_tokenAddress, h]

/-- The withdrawals of a call change nothing but the token ledger and the grant. -/
theorem withdrawals_env_eq (h : withdrawals.foldlM Progress.next progress = .ok progress') :
    progress'.env = { progress.env with tokens := progress'.env.tokens } := by
  induction withdrawals generalizing progress with
  | nil => rw [← pure_eq_ok.mp h]
  | cons withdrawal withdrawals ih =>
      rw [List.foldlM_cons] at h
      obtain ⟨progress₁, hround, h⟩ := bind_eq_ok.mp h
      rw [ih h, (Progress.next_eq_ok hround).env_eq]

theorem isHalted_env {env env' : Env} (h : env'.store = env.store) :
    isHalted env' = isHalted env := by
  funext tokenAddress
  unfold isHalted
  rw [h]

theorem TokenBalance.requests_env {env env' : Env} (h : env'.store = env.store)
    (withdrawals : List TokenWithdrawal) :
    TokenBalance.requests env' withdrawals = TokenBalance.requests env withdrawals := by
  funext token
  induction withdrawals generalizing token with
  | nil => rfl
  | cons withdrawal withdrawals ih =>
      have hrequest : token.request env' withdrawal = token.request env withdrawal := by
        simp only [TokenBalance.request, isHalted_env h]
      rw [TokenBalance.requests_cons, TokenBalance.requests_cons, hrequest, ih]

theorem Round.nodup (h : Round progress withdrawal progress')
    (hnodup : (addresses progress.grant.tokens).Nodup) :
    (addresses progress'.grant.tokens).Nodup := by
  rw [h.grant_eq hnodup, addresses_map (TokenBalance.request_tokenAddress _ _)]
  exact hnodup

/-- **Loop lemma.** The withdrawals of a call change the entries one by one. -/
theorem withdrawals_grant_eq (h : withdrawals.foldlM Progress.next progress = .ok progress')
    (hnodup : (addresses progress.grant.tokens).Nodup) :
    progress'.grant = { progress.grant with
      tokens := progress.grant.tokens.map (TokenBalance.requests progress.env withdrawals) } := by
  induction withdrawals generalizing progress with
  | nil =>
      have hid : TokenBalance.requests progress.env [] = id := rfl
      rw [← pure_eq_ok.mp h, hid, List.map_id]
  | cons withdrawal withdrawals ih =>
      rw [List.foldlM_cons] at h
      obtain ⟨progress₁, hround, h⟩ := bind_eq_ok.mp h
      have hround := Progress.next_eq_ok hround
      have hstore : progress₁.env.store = progress.env.store := by rw [hround.env_eq]
      rw [ih h (hround.nodup hnodup), hround.grant_eq hnodup, TokenBalance.requests_env hstore,
        List.map_map]
      rfl

end Withdrawals

/-! ### Transitions -/

/-- What is left of an entry by an update of its rate. -/
def SameBalances (token token' : TokenBalance) : Prop :=
  token' = { token with flowRate := token'.flowRate }

/-- The entries of a grant under new rates. -/
structure RatesUpdated (tokens tokens' : List TokenBalance) : Prop where
  addresses_eq : addresses tokens' = addresses tokens
  balances : ∀ token' ∈ tokens', ∃ token ∈ tokens, SameBalances token token' ∧
    (token'.flowRate = token.flowRate ∨ 0 ≤ token'.flowRate)

theorem RatesUpdated.refl (tokens : List TokenBalance) : RatesUpdated tokens tokens where
  addresses_eq := rfl
  balances token htoken := ⟨token, htoken, rfl, .inl rfl⟩

theorem RatesUpdated.trans {tokens₁ tokens₂ tokens₃ : List TokenBalance}
    (h : RatesUpdated tokens₁ tokens₂) (h' : RatesUpdated tokens₂ tokens₃) :
    RatesUpdated tokens₁ tokens₃ where
  addresses_eq := h'.addresses_eq.trans h.addresses_eq
  balances token₃ h₃ := by
    obtain ⟨token₂, h₂, hsame₃, hrate₃⟩ := h'.balances token₃ h₃
    obtain ⟨token₁, h₁, hsame₂, hrate₂⟩ := h.balances token₂ h₂
    refine ⟨token₁, h₁, ?_, ?_⟩
    · unfold SameBalances at hsame₂ hsame₃ ⊢
      rw [hsame₃, hsame₂]
    · rcases hrate₃ with heq | hnonneg
      · rw [heq]
        exact hrate₂
      · exact .inr hnonneg

theorem updateTokenFlowRate_eq_ok {tokenAddress : Address} {newFlowRate : Int}
    (h : updateTokenFlowRate grant tokenAddress newFlowRate = .ok grant') :
    RatesUpdated grant.tokens grant'.tokens ∧ grant' = { grant with tokens := grant'.tokens } := by
  unfold updateTokenFlowRate at h
  simp only [bind_eq_ok, ensure_eq_ok, okOr_eq_ok, pure_eq_ok] at h
  obtain ⟨_, hrate, token, hfind, rfl⟩ := h
  refine ⟨⟨KeyedList.map_key_set, fun token' htoken' => ?_⟩, rfl⟩
  rcases KeyedList.mem_set htoken' with rfl | htoken'
  · exact ⟨token, (KeyedList.find?_eq_some hfind).1, rfl, .inr hrate⟩
  · exact ⟨token', htoken', rfl, .inl rfl⟩

theorem updateRates_eq_ok {tokenUpdates : List TokenBalance}
    (h : tokenUpdates.foldlM (fun grant update =>
      updateTokenFlowRate grant update.tokenAddress update.flowRate) grant = .ok grant') :
    RatesUpdated grant.tokens grant'.tokens ∧ grant' = { grant with tokens := grant'.tokens } := by
  induction tokenUpdates generalizing grant with
  | nil =>
      rw [← pure_eq_ok.mp h]
      exact ⟨.refl _, rfl⟩
  | cons update tokenUpdates ih =>
      rw [List.foldlM_cons] at h
      obtain ⟨grant₁, hupdate, h⟩ := bind_eq_ok.mp h
      obtain ⟨hrates₁, hgrant₁⟩ := updateTokenFlowRate_eq_ok hupdate
      obtain ⟨hrates, hgrant⟩ := ih h
      refine ⟨hrates₁.trans hrates, ?_⟩
      rw [hgrant, hgrant₁]

/-- The administrator authorized the call. -/
def AdminAuthorized (env : Env) : Prop :=
  ∃ admin, env.store.optimized.admin = some admin ∧ admin ∈ env.auths

theorem requireAdminAuth_eq_ok {u : Unit} (h : requireAdminAuth env = .ok u) :
    AdminAuthorized env := by
  unfold requireAdminAuth readAdmin Ledger.Env.requireAuth at h
  simp only [bind_eq_ok, okOr_eq_ok, require_eq_ok] at h
  exact h

/-- The grant with the mask that a call leaves after its withdrawals. -/
def MultiTokenGrant.completedIf (grant : MultiTokenGrant) (full : Bool) : MultiTokenGrant :=
  { grant with
    statusMask :=
      if full then clearStatus (setStatus grant.statusMask statusCompleted) statusActive
      else grant.statusMask }

/-- `Transition env grantId grant call grant' log`: the call takes the grant to `grant'`, with the
transfers of `log`. -/
inductive Transition (env : Env) (grantId : Nat) (grant : MultiTokenGrant) :
    Call → MultiTokenGrant → List (TokenLedger.Transfer Address) → Prop
  | withdrawn (withdrawals : List TokenWithdrawal) (progress : Progress) (full : Bool)
      (hactive : hasStatus grant.statusMask statusActive = true)
      (hloop : withdrawals.foldlM Progress.next
        { env, grant := grant.settled env.timestamp, successfulWithdrawals := []
          failedWithdrawals := [], totalWithdrawn := fun _ => none } = .ok progress)
      (hfull : isGrantFullyWithdrawn progress.grant.tokens = .ok full)
      (hsettle : settleMultiTokenGrant grant env.timestamp = .ok (grant.settled env.timestamp)) :
      Transition env grantId grant (.multiTokenWithdraw grantId withdrawals)
        (progress.grant.completedIf full) progress.env.tokens.log
  | ratesUpdated (tokenUpdates tokens : List TokenBalance)
      (hrates : RatesUpdated (grant.settled env.timestamp).tokens tokens)
      (hsettle : settleMultiTokenGrant grant env.timestamp = .ok (grant.settled env.timestamp)) :
      Transition env grantId grant (.updateMultiTokenRates grantId tokenUpdates)
        { grant.settled env.timestamp with tokens, rateUpdatedAt := env.timestamp }
        env.tokens.log
  | added (token : TokenBalance) (hauth : AdminAuthorized env)
      (hfresh : token.tokenAddress ∉ addresses grant.tokens)
      (htotal : 0 < token.totalAmount) (hrate : 0 ≤ token.flowRate) :
      Transition env grantId grant (.addTokenToGrant grantId token)
        { grant with tokens := grant.tokens ++ [token] } env.tokens.log
  | removed (tokenAddress : Address) (removed kept : List TokenBalance)
      (hpartition : (grant.settled env.timestamp).tokens.partition
        (fun token => token.tokenAddress = tokenAddress) = (removed, kept))
      (hempty : ∀ token ∈ removed, token.claimable ≤ 0 ∧ token.totalAmount ≤ token.withdrawn)
      (hsettle : settleMultiTokenGrant grant env.timestamp = .ok (grant.settled env.timestamp)) :
      Transition env grantId grant (.removeTokenFromGrant grantId tokenAddress)
        { grant.settled env.timestamp with tokens := kept } env.tokens.log

theorem MultiTokenGrant.addresses_settled (grant : MultiTokenGrant) (now : Nat) :
    addresses (grant.settled now).tokens = addresses grant.tokens :=
  addresses_map (fun token => token.settled_tokenAddress (grant.elapsed now)) grant.tokens

theorem MultiTokenGrant.nodup_settled (h : (addresses grant.tokens).Nodup) (now : Nat) :
    (addresses (grant.settled now).tokens).Nodup := by
  rw [grant.addresses_settled]
  exact h

theorem sublist_of_partition {p : TokenBalance → Bool} {removed kept : List TokenBalance}
    (h : tokens.partition p = (removed, kept)) : kept.Sublist tokens := by
  rw [List.partition_eq_filter_filter, Prod.mk.injEq] at h
  rw [← h.2]
  exact List.filter_sublist

/-- A transition leaves one entry of each token. -/
theorem Transition.distinct {call : Call} {log : List (TokenLedger.Transfer Address)}
    (h : Transition env grantId grant call grant' log)
    (hnodup : (addresses grant.tokens).Nodup) : (addresses grant'.tokens).Nodup := by
  have hsettled := MultiTokenGrant.nodup_settled hnodup env.timestamp
  cases h with
  | withdrawn withdrawals progress full hactive hloop =>
      rw [MultiTokenGrant.completedIf, withdrawals_grant_eq hloop hsettled]
      dsimp only
      rw [addresses_map (TokenBalance.requests_tokenAddress env withdrawals)]
      exact hsettled
  | ratesUpdated _ tokens hrates => exact hrates.addresses_eq ▸ hsettled
  | added token hauth hfresh =>
      dsimp only
      rw [addresses, List.map_append, List.nodup_append]
      refine ⟨hnodup, by simp, ?_⟩
      intro a ha b hb
      rw [List.map_singleton, List.mem_singleton] at hb
      rintro rfl
      exact hfresh (hb ▸ ha)
  | removed tokenAddress removed kept hpartition =>
      exact ((sublist_of_partition hpartition).map _).nodup hsettled

/-- The call is about a wrapped asset. -/
def Call.configures : Call → Bool
  | .configureWrappedAsset _ _ _ | .setAssetHalt _ _ => true
  | _ => false

/-- What a call does to the grants. -/
inductive Effect (host : Optimized.Host) (env : Env) (call : Call) (store : Store)
    (log : List (TokenLedger.Transfer Address)) : Prop
  | optimized (c : Optimized.Call) (hcall : call = .optimized c)
      (heffect : Optimized.Effect host env.optimized c store.optimized.grants)
      (hgrants : store.grants = env.store.grants)
  | configured (hcall : call.configures = true)
      (hoptimized : store.optimized = env.store.optimized)
      (hgrants : store.grants = env.store.grants)
  | created (grantId : Nat) (recipient : Address) (tokens : List TokenBalance)
      (initialStatusMask : StatusMask)
      (hcall : call = .createMultiTokenGrant grantId recipient tokens initialStatusMask)
      (hvalid : ∀ token ∈ tokens, validateTokenBalance token = .ok ())
      (hnodup : (addresses tokens).Nodup) (hnone : env.store.grants grantId = none)
      (hoptimized : store.optimized = env.store.optimized)
      (hgrants : store.grants = Function.update env.store.grants grantId
        (some { recipient, tokens, lastUpdateTs := env.timestamp, rateUpdatedAt := env.timestamp
                statusMask := initialStatusMask }))
  | moved (grantId : Nat) (grant grant' : MultiTokenGrant)
      (hgrant : env.store.grants grantId = some grant)
      (htransition : Transition env grantId grant call grant' log)
      (hoptimized : store.optimized = env.store.optimized)
      (hgrants : store.grants = Function.update env.store.grants grantId (some grant'))

theorem readMultiTokenGrant_eq_ok (h : readMultiTokenGrant env grantId = .ok grant) :
    env.store.grants grantId = some grant := by
  unfold readMultiTokenGrant at h
  simp only [bind_eq_ok, okOr_eq_ok] at h
  obtain ⟨_, -, h⟩ := h
  exact h

/-- **Inversion** of a call that goes through. -/
theorem exec_effect {call : Call} (h : call.exec host env = .ok env') :
    Effect host env call env'.store env'.tokens.log := by
  cases call with
  | optimized call =>
      unfold Call.exec optimizedCall at h
      simp only [bind_eq_ok, pure_eq_ok] at h
      obtain ⟨_, -, result, hresult, rfl⟩ := h
      exact .optimized call rfl (Optimized.exec_effect hresult) rfl
  | createMultiTokenGrant grantId recipient tokens mask =>
      unfold Call.exec createMultiTokenGrant validateTokenBalances checkDuplicateTokens at h
      simp only [bind_eq_ok, ensure_eq_ok, forM_eq_ok, pure_eq_ok] at h
      obtain ⟨_, -, _, hvalid, _, hdistinct, _, ⟨hnone, -⟩, _, -, _, -, rfl⟩ := h
      exact .created grantId recipient tokens mask rfl hvalid hdistinct hnone rfl rfl
  | multiTokenWithdraw grantId withdrawals =>
      unfold Call.exec multiTokenWithdraw at h
      simp only [map_eq_ok, bind_eq_ok, ensure_eq_ok, pure_eq_ok] at h
      obtain ⟨_, ⟨_, -, grant, hgrant, _, hactive, _, -, settled, hsettle, progress, hloop, full,
        hfull, _, -, rfl⟩, rfl⟩ := h
      cases settleMultiTokenGrant_eq_ok hsettle
      have henv := withdrawals_env_eq hloop
      have hstore : progress.env.store = env.store := by rw [henv]
      refine .moved grantId grant (progress.grant.completedIf full)
        (readMultiTokenGrant_eq_ok hgrant)
        (.withdrawn withdrawals progress full hactive hloop hfull hsettle) ?_ ?_
      · dsimp only [writeMultiTokenGrant]
        rw [hstore]
      · dsimp only [writeMultiTokenGrant]
        rw [hstore]
        cases full <;> rfl
  | updateMultiTokenRates grantId tokenUpdates =>
      unfold Call.exec updateMultiTokenRates at h
      simp only [bind_eq_ok, ensure_eq_ok, pure_eq_ok] at h
      obtain ⟨_, -, grant, hgrant, _, -, settled, hsettle, updated, hupdated, rfl⟩ := h
      obtain ⟨hrates, hupdated⟩ := updateRates_eq_ok hupdated
      cases settleMultiTokenGrant_eq_ok hsettle
      refine .moved grantId grant _ (readMultiTokenGrant_eq_ok hgrant)
        (.ratesUpdated tokenUpdates updated.tokens hrates hsettle) rfl ?_
      rw [hupdated]
      rfl
  | addTokenToGrant grantId token =>
      unfold Call.exec addTokenToGrant at h
      simp only [bind_eq_ok, ensure_eq_ok, pure_eq_ok, not_or, Int.not_le, Int.not_lt] at h
      obtain ⟨_, hauth, grant, hgrant, _, hfresh, _, ⟨htotal, hrate⟩, rfl⟩ := h
      exact .moved grantId grant _ (readMultiTokenGrant_eq_ok hgrant)
        (.added token (requireAdminAuth_eq_ok hauth) (KeyedList.find?_eq_none.mp hfresh) htotal
          hrate) rfl rfl
  | removeTokenFromGrant grantId tokenAddress =>
      unfold Call.exec removeTokenFromGrant checkRemovable at h
      simp only [bind_eq_ok, ensure_eq_ok, orTrap_eq_ok, forM_eq_ok, pure_eq_ok,
        I128.checkedSub_eq_some] at h
      obtain ⟨_, -, grant, hgrant, settled, hsettle, _, hremovable, _, -, _, -, rfl⟩ := h
      cases settleMultiTokenGrant_eq_ok hsettle
      refine .moved grantId grant _ (readMultiTokenGrant_eq_ok hgrant)
        (.removed tokenAddress _ _ rfl (fun token htoken => ?_) hsettle) rfl rfl
      obtain ⟨_, hclaimable, _, ⟨-, rfl⟩, hremaining⟩ := hremovable token htoken
      exact ⟨hclaimable, by omega⟩
  | configureWrappedAsset tokenAddress issuer securityBuffer =>
      unfold Call.exec configureWrappedAsset at h
      simp only [bind_eq_ok, pure_eq_ok] at h
      obtain ⟨_, -, rfl⟩ := h
      exact .configured rfl rfl rfl
  | setAssetHalt tokenAddress halted =>
      unfold Call.exec setAssetHalt at h
      simp only [bind_eq_ok, pure_eq_ok] at h
      obtain ⟨_, -, _, -, rfl⟩ := h
      exact .configured rfl rfl rfl

/-! ### One grant -/

/-- The grant of several tokens that the call is about. -/
def Call.target : Call → Option Nat
  | .createMultiTokenGrant grantId _ _ _ | .multiTokenWithdraw grantId _
  | .updateMultiTokenRates grantId _ | .addTokenToGrant grantId _
  | .removeTokenFromGrant grantId _ => some grantId
  | .optimized _ | .configureWrappedAsset _ _ _ | .setAssetHalt _ _ => none

theorem Transition.target_eq {call : Call} {log : List (TokenLedger.Transfer Address)}
    (h : Transition env grantId grant call grant' log) : call.target = some grantId := by
  cases h with
  | withdrawn | ratesUpdated | added | removed => rfl

/-- What a call does to the grant that it leaves under `grantId`. -/
inductive GrantEffect (env : Env) (call : Call) (grantId : Nat)
    (log : List (TokenLedger.Transfer Address)) : MultiTokenGrant → Prop
  | untouched (grant : MultiTokenGrant) (hgrant : env.store.grants grantId = some grant)
      (htarget : call.target ≠ some grantId) : GrantEffect env call grantId log grant
  | created (recipient : Address) (tokens : List TokenBalance) (initialStatusMask : StatusMask)
      (hcall : call = .createMultiTokenGrant grantId recipient tokens initialStatusMask)
      (hvalid : ∀ token ∈ tokens, validateTokenBalance token = .ok ())
      (hnodup : (addresses tokens).Nodup) (hnone : env.store.grants grantId = none) :
      GrantEffect env call grantId log
        { recipient, tokens, lastUpdateTs := env.timestamp, rateUpdatedAt := env.timestamp
          statusMask := initialStatusMask }
  | moved (grant grant' : MultiTokenGrant) (hgrant : env.store.grants grantId = some grant)
      (htransition : Transition env grantId grant call grant' log) :
      GrantEffect env call grantId log grant'

theorem Effect.grantEffect {call : Call} {store : Store}
    {log : List (TokenLedger.Transfer Address)} (h : Effect host env call store log)
    (hgrant : store.grants grantId = some grant) : GrantEffect env call grantId log grant := by
  cases h with
  | optimized c hcall _ hgrants =>
      subst hcall
      exact .untouched grant (hgrants ▸ hgrant) (by simp [Call.target])
  | configured hcall _ hgrants =>
      cases call with
      | configureWrappedAsset | setAssetHalt =>
          exact .untouched grant (hgrants ▸ hgrant) (by simp [Call.target])
      | _ => cases hcall
  | created target recipient tokens mask hcall hvalid hnodup hnone _ hgrants =>
      rw [hgrants] at hgrant
      by_cases hid : grantId = target
      · subst hid
        rw [Function.update_self, Option.some.injEq] at hgrant
        rw [← hgrant]
        exact .created recipient tokens mask hcall hvalid hnodup hnone
      · rw [Function.update_of_ne hid] at hgrant
        subst hcall
        exact .untouched grant hgrant (by simpa [Call.target] using Ne.symm hid)
  | moved target before after hbefore htransition _ hgrants =>
      rw [hgrants] at hgrant
      by_cases hid : grantId = target
      · subst hid
        rw [Function.update_self, Option.some.injEq] at hgrant
        rw [← hgrant]
        exact .moved before after hbefore htransition
      · rw [Function.update_of_ne hid] at hgrant
        exact .untouched grant hgrant (by simpa [htransition.target_eq] using Ne.symm hid)

abbrev Trace := Ledger.Trace Address Store Call

abbrev Step := Run.Step Env (Ledger.Event Address Call)

/-- What one event does to the grants. -/
theorem effect_of_next {e : Step} (h : Ledger.Next (contract host) e.before e.action e.after) :
    (Ledger.called (contract host) e = none ∧ e.after.store = e.before.store) ∨
      ∃ call, Ledger.called (contract host) e = some call ∧ call.typed = true ∧
        Effect host (e.before.enter e.action) call e.after.store e.after.tokens.log := by
  rcases Ledger.cases_of_next h with hidle | ⟨call, result, hcalled, htyped, hexec, hafter⟩
  · exact .inl hidle
  · have heffect : Effect host (e.before.enter e.action) call result.store result.tokens.log :=
      exec_effect hexec
    rw [hafter]
    exact .inr ⟨call, hcalled, htyped, heffect⟩

end YieldTrust.MultiToken
