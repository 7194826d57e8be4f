import YieldTrust.MultiToken.Transitions

/-!
# YieldTrust.MultiToken.Backing

What is paid out of a grant of several tokens against what was **allocated**: the balances of its
entries stay within their totals, and so does what is paid out of each of them, if every entry
comes from the administrator and starts within its total.
-/

namespace YieldTrust.MultiToken

open Fallible
open GrantStream (Address Bytes)
open Optimized (Error StatusMask hasStatus setStatus clearStatus statusActive statusPaused
  statusCompleted validateStatusTransition)

variable {host : Optimized.Host} {env env' : Env} {grant grant' : MultiTokenGrant}
  {grantId now secs : Nat} {token token' : TokenBalance} {tokens tokens' : List TokenBalance}
  {log : List (TokenLedger.Transfer Address)} {call : Call}

/-! ### One entry -/

/-- The balances of the entry are within its total. -/
structure TokenBalance.Fits (token : TokenBalance) : Prop where
  withdrawn_nonneg : 0 ≤ token.withdrawn
  claimable_nonneg : 0 ≤ token.claimable
  accounted_le : token.accounted ≤ token.totalAmount

instance (token : TokenBalance) : Decidable token.Fits :=
  decidable_of_iff
    (0 ≤ token.withdrawn ∧ 0 ≤ token.claimable ∧ token.accounted ≤ token.totalAmount)
    ⟨fun ⟨h₁, h₂, h₃⟩ => ⟨h₁, h₂, h₃⟩, fun ⟨h₁, h₂, h₃⟩ => ⟨h₁, h₂, h₃⟩⟩

/-- An entry that fits, of a rate that is not negative. -/
structure TokenBalance.WellFormed (token : TokenBalance) : Prop extends token.Fits where
  flowRate_nonneg : 0 ≤ token.flowRate
  inRange : I128.InRange token.totalAmount

theorem TokenBalance.WellFormed.settled (h : token.WellFormed) :
    (token.settled secs).WellFormed ∧ (token.settled secs).withdrawn = token.withdrawn := by
  have hnonneg := h.claimable_nonneg
  have hle := h.accounted_le
  have haccrued := Int.mul_nonneg h.flowRate_nonneg (Int.natCast_nonneg secs)
  unfold TokenBalance.settled
  split
  · exact ⟨h, rfl⟩
  · refine ⟨⟨⟨h.withdrawn_nonneg, ?_, ?_⟩, h.flowRate_nonneg, h.inRange⟩, rfl⟩
    · dsimp only
      omega
    · unfold TokenBalance.accounted at hle ⊢
      dsimp only
      omega

theorem TokenBalance.WellFormed.draw (h : token.WellFormed) (amount : Int) :
    (token.draw amount).WellFormed := by
  unfold TokenBalance.draw
  split
  · case isTrue hdraw =>
    have hnonneg := h.withdrawn_nonneg
    have hle := h.accounted_le
    unfold TokenBalance.accounted at hle
    refine ⟨⟨?_, ?_, ?_⟩, h.flowRate_nonneg, h.inRange⟩
    · dsimp only
      omega
    · dsimp only
      omega
    · unfold TokenBalance.accounted
      dsimp only
      omega
  · exact h

/-- What is claimable of a well-formed entry can be drawn. -/
theorem TokenBalance.WellFormed.draw_withdrawn (h : token.WellFormed) {amount : Int}
    (hpos : 0 < amount) (hle : amount ≤ token.claimable) :
    (token.draw amount).withdrawn = token.withdrawn + amount := by
  have hnonneg := h.withdrawn_nonneg
  have haccounted := h.accounted_le
  unfold TokenBalance.accounted at haccounted
  have hclaimable : I128.InRange (token.claimable - amount) :=
    h.inRange.of_nonneg_of_le (by omega) (by omega)
  have hwithdrawn : I128.InRange (token.withdrawn + amount) :=
    h.inRange.of_nonneg_of_le (by omega) (by omega)
  rw [TokenBalance.draw, if_pos ⟨hpos, hle, hclaimable, hwithdrawn⟩]

theorem TokenBalance.WellFormed.request (h : token.WellFormed) (env : Env)
    (withdrawal : TokenWithdrawal) : (token.request env withdrawal).WellFormed := by
  unfold TokenBalance.request
  split
  · exact h.draw withdrawal.amount
  · exact h

theorem TokenBalance.WellFormed.requests (h : token.WellFormed) (env : Env)
    (withdrawals : List TokenWithdrawal) : (token.requests env withdrawals).WellFormed :=
  TokenBalance.requests_induction (fun _ withdrawal h => h.request env withdrawal) withdrawals h

/-! ### What the withdrawals of one call pay -/

section Withdrawals

variable {progress progress' : Progress} {withdrawal : TokenWithdrawal}
  {withdrawals : List TokenWithdrawal}

/-- A round pays what it takes out of the entry of its token. -/
theorem Round.sent_eq (h : Round progress withdrawal progress')
    (hnodup : (addresses progress.grant.tokens).Nodup) (htoken : token ∈ progress.grant.tokens)
    (hwf : token.WellFormed) :
    TokenLedger.sent token.tokenAddress progress'.env.tokens.log =
      TokenLedger.sent token.tokenAddress progress.env.tokens.log +
        ((token.request progress.env withdrawal).withdrawn - token.withdrawn) := by
  have hfind := KeyedList.find?_of_mem hnodup htoken
  cases h with
  | rejected henv _ hreject =>
      have hsame : token.request progress.env withdrawal = token := by
        refine ite_eq_right_iff.mpr fun hrequest => ?_
        obtain ⟨hkey, hlive⟩ := hrequest
        rcases hreject with hhalted | hamount | hbelow
        · simp [hlive] at hhalted
        · exact TokenBalance.draw_of_not_le (.inl hamount)
        · rw [hkey] at hfind
          exact TokenBalance.draw_of_not_le (.inr (hbelow token hfind))
      rw [henv, hsame]
      omega
  | paid found ledger hlive hfound hpos hle htransfer henv _ =>
      obtain ⟨-, rfl⟩ := TokenLedger.transfer_eq_some.mp htransfer
      rw [henv]
      by_cases hkey : token.tokenAddress = withdrawal.tokenAddress
      · rw [hkey] at hfind
        cases hfound.symm.trans hfind
        have hdrawn := hwf.draw_withdrawn hpos hle
        rw [TokenBalance.request, if_pos ⟨hkey, hlive⟩, hdrawn, hkey]
        dsimp only
        rw [TokenLedger.sent_cons_self]
        omega
      · rw [TokenBalance.request, if_neg fun hrequest => hkey hrequest.1]
        dsimp only
        rw [TokenLedger.sent_cons_of_ne (Ne.symm hkey)]
        omega

/-- **Loop lemma.** The withdrawals of a call pay what they take out of each entry. -/
theorem withdrawals_sent_eq (h : withdrawals.foldlM Progress.next progress = .ok progress')
    (hnodup : (addresses progress.grant.tokens).Nodup) (htoken : token ∈ progress.grant.tokens)
    (hwf : token.WellFormed) :
    TokenLedger.sent token.tokenAddress progress'.env.tokens.log =
      TokenLedger.sent token.tokenAddress progress.env.tokens.log +
        ((token.requests progress.env withdrawals).withdrawn - token.withdrawn) := by
  induction withdrawals generalizing progress token with
  | nil =>
      rw [← pure_eq_ok.mp h]
      simp [TokenBalance.requests]
  | cons withdrawal withdrawals ih =>
      rw [List.foldlM_cons] at h
      obtain ⟨progress₁, hround, h⟩ := bind_eq_ok.mp h
      have hround := Progress.next_eq_ok hround
      have htoken₁ : token.request progress.env withdrawal ∈ progress₁.grant.tokens := by
        rw [hround.grant_eq hnodup]
        exact List.mem_map_of_mem htoken
      have hstore : progress₁.env.store = progress.env.store := by rw [hround.env_eq]
      have hrest := ih h (hround.nodup hnodup) htoken₁ (hwf.request progress.env withdrawal)
      rw [token.request_tokenAddress, TokenBalance.requests_env hstore,
        hround.sent_eq hnodup htoken hwf] at hrest
      rw [TokenBalance.requests_cons]
      omega

end Withdrawals

/-! ### One call -/

/-- The call brings the entry of the token into the grant. -/
def Call.enters (grantId : Nat) (tokenAddress : Address) : Call → Bool
  | .createMultiTokenGrant id _ tokens _ => id == grantId && tokenAddress ∈ addresses tokens
  | .addTokenToGrant id token => id == grantId && token.tokenAddress == tokenAddress
  | _ => false

/-- The call brings entries into a grant. -/
def Call.allocates : Call → Bool
  | .createMultiTokenGrant _ _ _ _ | .addTokenToGrant _ _ => true
  | _ => false

/-- The call withdraws from the grant. -/
def Call.withdraws (grantId : Nat) : Call → Bool
  | .multiTokenWithdraw id _ => id == grantId
  | _ => false

/-- What a call pays out of the entry of the token. -/
def Call.pays (grantId : Nat) (tokenAddress : Address)
    (log : List (TokenLedger.Transfer Address)) (call : Call) : Int :=
  if call.withdraws grantId = true then TokenLedger.sent tokenAddress log else 0

/-- The condition on a call under which the entries it brings are authorized and fit. -/
def Call.BackingGuard (env : Env) : Call → Prop
  | .createMultiTokenGrant _ _ tokens _ => AdminAuthorized env ∧ ∀ token ∈ tokens, token.Fits
  | .addTokenToGrant _ token => token.Fits
  | _ => True

instance (env : Env) : Decidable (AdminAuthorized env) :=
  decidable_of_iff (∃ admin ∈ env.store.optimized.admin, admin ∈ env.auths) Iff.rfl

instance decidableBackingGuard (env : Env) : (call : Call) → Decidable (call.BackingGuard env)
  | .createMultiTokenGrant _ _ tokens _ =>
      inferInstanceAs (Decidable (_ ∧ ∀ token ∈ tokens, token.Fits))
  | .addTokenToGrant _ token => inferInstanceAs (Decidable token.Fits)
  | .optimized _ | .multiTokenWithdraw _ _ | .updateMultiTokenRates _ _
  | .removeTokenFromGrant _ _ | .configureWrappedAsset _ _ _ | .setAssetHalt _ _ =>
      inferInstanceAs (Decidable True)

/-- The entries of a grant: one of each token, all well formed, and no more paid out of any than
it says. -/
structure GrantBacked (paid : Address → Int) (tokens : List TokenBalance) : Prop where
  distinct : (addresses tokens).Nodup
  wellFormed : ∀ token ∈ tokens, token.WellFormed
  paid_le : ∀ token ∈ tokens, paid token.tokenAddress ≤ token.withdrawn

theorem GrantBacked.settled {paid : Address → Int} (h : GrantBacked paid grant.tokens) :
    GrantBacked paid (grant.settled now).tokens where
  distinct := grant.nodup_settled h.distinct now
  wellFormed token htoken := by
    obtain ⟨before, hbefore, rfl⟩ := List.mem_map.mp htoken
    exact (h.wellFormed before hbefore).settled.1
  paid_le token htoken := by
    obtain ⟨before, hbefore, rfl⟩ := List.mem_map.mp htoken
    rw [before.settled_tokenAddress, (h.wellFormed before hbefore).settled.2]
    exact h.paid_le before hbefore

/-- **Step lemma.** -/
theorem Transition.backed (h : Transition env grantId grant call grant' log)
    {paid paid' : Address → Int} (hgrant : GrantBacked paid grant.tokens)
    (hlog : env.tokens.log = []) (htyped : call.typed = true) (hguard : call.BackingGuard env)
    (hpaid : ∀ tokenAddress, paid' tokenAddress =
      if call.enters grantId tokenAddress = true then 0
      else call.pays grantId tokenAddress log + paid tokenAddress) :
    GrantBacked paid' grant'.tokens := by
  have hdistinct := h.distinct hgrant.distinct
  cases h with
  | withdrawn withdrawals progress full hactive hloop hfull =>
      have hsettled : GrantBacked paid (grant.settled env.timestamp).tokens := hgrant.settled
      have htokens := withdrawals_grant_eq hloop hsettled.distinct
      have hsame : ∀ token, (TokenBalance.requests env withdrawals token).tokenAddress =
          token.tokenAddress := TokenBalance.requests_tokenAddress env withdrawals
      have heq : (progress.grant.completedIf full).tokens =
          (grant.settled env.timestamp).tokens.map (TokenBalance.requests env withdrawals) := by
        rw [MultiTokenGrant.completedIf, htokens]
      refine ⟨hdistinct, fun token htoken => ?_, fun token htoken => ?_⟩ <;>
        rw [heq] at htoken
      · obtain ⟨before, hbefore, rfl⟩ := List.mem_map.mp htoken
        exact (hsettled.wellFormed before hbefore).requests env withdrawals
      · obtain ⟨before, hbefore, rfl⟩ := List.mem_map.mp htoken
        have hsent := withdrawals_sent_eq hloop hsettled.distinct hbefore
          (hsettled.wellFormed before hbefore)
        have hle := hsettled.paid_le before hbefore
        dsimp only at hsent
        rw [hlog, TokenLedger.sent_nil] at hsent
        rw [hsame, hpaid]
        simp only [Call.enters, Call.pays, Call.withdraws, beq_self_eq_true, if_true]
        simp only [Bool.false_eq_true, if_false]
        rw [hsent]
        omega
  | ratesUpdated tokenUpdates tokens hrates =>
      have hsettled : GrantBacked paid (grant.settled env.timestamp).tokens := hgrant.settled
      have hsame : paid' = paid := by
        funext tokenAddress
        simpa [Call.enters, Call.pays, Call.withdraws] using hpaid tokenAddress
      rw [hsame]
      refine ⟨hdistinct, fun token htoken => ?_, fun token htoken => ?_⟩
      · obtain ⟨before, hbefore, hbalances, hrate⟩ := hrates.balances token htoken
        have hwf := hsettled.wellFormed before hbefore
        have hnonneg : 0 ≤ token.flowRate := by
          rcases hrate with heq | hnonneg
          · exact heq ▸ hwf.flowRate_nonneg
          · exact hnonneg
        unfold SameBalances at hbalances
        rw [hbalances]
        exact ⟨⟨hwf.withdrawn_nonneg, hwf.claimable_nonneg, hwf.accounted_le⟩, hnonneg,
          hwf.inRange⟩
      · obtain ⟨before, hbefore, hbalances, -⟩ := hrates.balances token htoken
        unfold SameBalances at hbalances
        rw [hbalances]
        exact hsettled.paid_le before hbefore
  | added token hauth hfresh htotal hrate =>
      have hfits : token.Fits := hguard
      have hinRange : I128.InRange token.totalAmount := by
        simp only [Call.typed, TokenBalance.typed, Bool.and_eq_true, decide_eq_true_eq] at htyped
        exact htyped.2.1.1.1
      refine ⟨hdistinct, ?_, ?_⟩
      · intro t ht
        rcases List.mem_append.mp ht with ht | ht
        · exact hgrant.wellFormed t ht
        · cases List.mem_singleton.mp ht
          exact ⟨hfits, hrate, hinRange⟩
      · intro t ht
        rw [hpaid]
        rcases List.mem_append.mp ht with ht | ht
        · have hne : token.tokenAddress ≠ t.tokenAddress :=
            fun heq => hfresh (heq ▸ List.mem_map_of_mem ht)
          simpa [Call.enters, Call.pays, Call.withdraws, hne] using hgrant.paid_le t ht
        · cases List.mem_singleton.mp ht
          simpa [Call.enters] using hfits.withdrawn_nonneg
  | removed tokenAddress removed kept hpartition hempty =>
      have hsettled : GrantBacked paid (grant.settled env.timestamp).tokens := hgrant.settled
      have hsame : paid' = paid := by
        funext tokenAddress
        simpa [Call.enters, Call.pays, Call.withdraws] using hpaid tokenAddress
      have hsublist := sublist_of_partition hpartition
      rw [hsame]
      exact ⟨hdistinct,
        fun token htoken => hsettled.wellFormed token (hsublist.subset htoken),
        fun token htoken => hsettled.paid_le token (hsublist.subset htoken)⟩

/-- The entries of a new grant, if they fit. -/
theorem backed_of_created {recipient : Address} {mask : StatusMask} {paid : Address → Int}
    (hvalid : ∀ token ∈ tokens, validateTokenBalance token = .ok ())
    (hnodup : (addresses tokens).Nodup) (hfits : ∀ token ∈ tokens, token.Fits)
    (htyped : (Call.createMultiTokenGrant grantId recipient tokens mask).typed = true)
    (hpaid : ∀ tokenAddress ∈ addresses tokens, paid tokenAddress = 0) :
    GrantBacked paid tokens where
  distinct := hnodup
  wellFormed token htoken := by
    have hchecks := hvalid token htoken
    unfold validateTokenBalance at hchecks
    simp only [bind_eq_ok, ensure_eq_ok] at hchecks
    obtain ⟨_, -, _, hrate, -⟩ := hchecks
    simp only [Call.typed, Bool.and_eq_true, List.all_eq_true] at htyped
    have hrange := htyped.2 token htoken
    simp only [TokenBalance.typed, Bool.and_eq_true, decide_eq_true_eq] at hrange
    exact ⟨hfits token htoken, hrate, hrange.1.1.1⟩
  paid_le token htoken := by
    rw [hpaid token.tokenAddress (List.mem_map_of_mem htoken)]
    exact (hfits token htoken).withdrawn_nonneg

/-- A transition that brings an entry is authorized. -/
theorem Transition.authorized (h : Transition env grantId grant call grant' log)
    (hallocates : call.allocates = true) : AdminAuthorized env := by
  cases h with
  | added token hauth => exact hauth
  | _ => cases hallocates

/-- A call neither pays out of other grants nor brings entries into them. -/
theorem Call.leaves_other (h : call.target ≠ some grantId) :
    call.withdraws grantId = false ∧ ∀ tokenAddress, call.enters grantId tokenAddress = false := by
  cases call with
  | createMultiTokenGrant | multiTokenWithdraw | addTokenToGrant =>
      simp only [Call.target, ne_eq, Option.some.injEq] at h
      simp [Call.withdraws, Call.enters, h]
  | _ => exact ⟨rfl, fun _ => rfl⟩

/-! ### Runs -/

/-- The step brings the entry of the token into the grant. -/
def enters (host : Optimized.Host) (grantId : Nat) (tokenAddress : Address) (e : Step) : Bool :=
  (Ledger.called (contract host) e).any (Call.enters grantId tokenAddress)

/-- What the step pays out of the entry of the token. -/
def pays (host : Optimized.Host) (grantId : Nat) (tokenAddress : Address) (e : Step) : Int :=
  (Ledger.called (contract host) e).elim 0 (Call.pays grantId tokenAddress e.after.tokens.log)

/-- What was paid out of the entry of the token since it was brought into the grant. -/
def paid (host : Optimized.Host) (grantId : Nat) (trace : Trace) (tokenAddress : Address) : Int :=
  ((Run.since (enters host grantId tokenAddress) trace).map (pays host grantId tokenAddress)).sum

/-- The payouts are backed: the balances of all entries are within their totals, no more was paid
out of an entry than its total, the administrator authorized every entry, and no grant has two
entries of one token. -/
structure Backed (host : Optimized.Host) (trace : Trace) (env : Env) : Prop where
  fits : ∀ grantId grant, env.store.grants grantId = some grant → ∀ token ∈ grant.tokens,
    token.Fits
  paid_le : ∀ grantId grant, env.store.grants grantId = some grant → ∀ token ∈ grant.tokens,
    paid host grantId trace token.tokenAddress ≤ token.totalAmount
  authorized : ∀ e ∈ trace, ∀ call ∈ Ledger.called (contract host) e, call.allocates = true →
    AdminAuthorized (e.before.enter e.action)
  distinct : ∀ grantId grant, env.store.grants grantId = some grant →
    (addresses grant.tokens).Nodup

/-- The call of the step, if it goes through, meets `BackingGuard`. -/
def BackingGuarded (host : Optimized.Host) (e : Step) : Prop :=
  ∀ call ∈ Ledger.called (contract host) e, call.BackingGuard (e.before.enter e.action)

instance (host : Optimized.Host) (e : Step) : Decidable (BackingGuarded host e) :=
  inferInstanceAs (Decidable (∀ call ∈ Ledger.called (contract host) e, _))

section Runs

variable {trace older : Trace} {e : Step}

theorem paid_cons (e : Step) (older : Trace) (tokenAddress : Address) :
    paid host grantId (e :: older) tokenAddress =
      if enters host grantId tokenAddress e = true then 0
      else pays host grantId tokenAddress e + paid host grantId older tokenAddress := by
  unfold paid
  by_cases henters : enters host grantId tokenAddress e = true
  · rw [Run.since_cons_of_pos henters, if_pos henters]
    rfl
  · rw [Run.since_cons_of_neg (by simpa using henters), if_neg henters, List.map_cons,
      List.sum_cons]

/-- A step that does not touch the grant pays nothing out of it. -/
theorem paid_cons_of_idle (hidle : ∀ call ∈ Ledger.called (contract host) e,
      call.withdraws grantId = false ∧ ∀ tokenAddress, call.enters grantId tokenAddress = false) :
    paid host grantId (e :: older) = paid host grantId older := by
  funext tokenAddress
  rw [paid_cons]
  unfold enters pays
  cases hcalled : Ledger.called (contract host) e with
  | none => simp
  | some call =>
      obtain ⟨hwithdraws, henters⟩ := hidle call hcalled
      simp [Call.pays, hwithdraws, henters]

theorem paid_cons_of_called (hcalled : Ledger.called (contract host) e = some call)
    (tokenAddress : Address) :
    paid host grantId (e :: older) tokenAddress =
      if call.enters grantId tokenAddress = true then 0
      else call.pays grantId tokenAddress e.after.tokens.log +
        paid host grantId older tokenAddress := by
  rw [paid_cons]
  simp [enters, pays, hcalled]

/-- What makes the payouts backed: what was paid is booked as withdrawn. -/
structure Allocated (host : Optimized.Host) (trace : Trace) (env : Env) : Prop where
  backed : ∀ grantId grant, env.store.grants grantId = some grant →
    GrantBacked (paid host grantId trace) grant.tokens
  authorized : ∀ e ∈ trace, ∀ call ∈ Ledger.called (contract host) e, call.allocates = true →
    AdminAuthorized (e.before.enter e.action)

theorem Allocated.toBacked (h : Allocated host trace env) : Backed host trace env where
  fits grantId grant hgrant token htoken :=
    ((h.backed grantId grant hgrant).wellFormed token htoken).toFits
  paid_le grantId grant hgrant token htoken := by
    have hbacked := h.backed grantId grant hgrant
    have hwf := hbacked.wellFormed token htoken
    have hpaid := hbacked.paid_le token htoken
    have hclaimable := hwf.claimable_nonneg
    have hle := hwf.accounted_le
    unfold TokenBalance.accounted at hle
    omega
  authorized := h.authorized
  distinct grantId grant hgrant := (h.backed grantId grant hgrant).distinct

/-- A guarded call that allocates is signed by the administrator. -/
theorem Effect.authorized {log : List (TokenLedger.Transfer Address)} {store : Store}
    (h : Effect host env call store log) (hguard : call.BackingGuard env)
    (hallocates : call.allocates = true) : AdminAuthorized env := by
  cases h with
  | optimized c hcall =>
      subst hcall
      cases hallocates
  | configured hcall =>
      cases call with
      | configureWrappedAsset | setAssetHalt => cases hallocates
      | _ => cases hcall
  | created grantId recipient tokens mask hcall =>
      subst hcall
      exact hguard.1
  | moved grantId before after hbefore htransition => exact htransition.authorized hallocates

/-- The grants after a step whose call is guarded. -/
theorem Allocated.step (hI : Allocated host older e.before)
    (hn : Ledger.Next (contract host) e.before e.action e.after)
    (hguard : BackingGuarded host e) : Allocated host (e :: older) e.after := by
  rcases effect_of_next hn with ⟨hnone, hstore⟩ | ⟨call, hcalled, htyped, heffect⟩
  · refine ⟨fun grantId grant hgrant => ?_, ?_⟩
    · rw [hstore] at hgrant
      rw [paid_cons_of_idle (by simp [hnone])]
      exact hI.backed grantId grant hgrant
    · rw [List.forall_mem_cons]
      refine ⟨fun call hcall => ?_, hI.authorized⟩
      cases hnone.symm.trans hcall
  have hguard := hguard call hcalled
  refine ⟨?_, ?_⟩
  · intro grantId grant hgrant
    cases heffect.grantEffect hgrant with
    | untouched _ hbefore htarget =>
        have hother := Call.leaves_other htarget
        rw [paid_cons_of_idle fun call' hcall' => ?_]
        · exact hI.backed grantId grant hbefore
        · cases hcalled.symm.trans hcall'
          exact hother
    | created recipient tokens mask hcall hvalid hnodup =>
        subst hcall
        refine backed_of_created hvalid hnodup hguard.2 htyped fun tokenAddress hmem => ?_
        rw [paid_cons_of_called hcalled, if_pos (by simp [Call.enters, hmem])]
    | moved before _ hbefore htransition =>
        exact htransition.backed (hI.backed grantId before hbefore) rfl htyped hguard
          (paid_cons_of_called hcalled)
  · rw [List.forall_mem_cons]
    refine ⟨fun call' hcall' hallocates => ?_, hI.authorized⟩
    cases hcalled.symm.trans hcall'
    exact heffect.authorized hguard hallocates

/-- Backed entries were brought by guarded calls. -/
theorem guarded_of_backed (hn : Ledger.Next (contract host) e.before e.action e.after)
    (h : Backed host (e :: older) e.after) : BackingGuarded host e := by
  intro call hcall
  rcases effect_of_next hn with ⟨hnone, -⟩ | ⟨call', hcalled, -, heffect⟩
  · cases hnone.symm.trans hcall
  · cases hcalled.symm.trans hcall
    have hauth := h.authorized e List.mem_cons_self call hcall
    have hfits := h.fits
    generalize e.after.tokens.log = log at heffect
    cases heffect with
    | optimized c hcall =>
        subst hcall
        trivial
    | configured hcall =>
        cases call with
        | configureWrappedAsset | setAssetHalt => trivial
        | _ => cases hcall
    | created grantId recipient tokens mask hcall _ _ _ _ hgrants =>
        subst hcall
        refine ⟨hauth rfl, ?_⟩
        exact hfits grantId _ (by rw [hgrants, Function.update_self])
    | moved grantId before after hbefore htransition _ hgrants =>
        have hafter := hfits grantId after (by rw [hgrants, Function.update_self])
        cases htransition with
        | added token => exact hafter token (by simp)
        | _ => trivial

end Runs

/-- **Backing of multi-token payouts.** In every run the payouts are backed after every step
exactly if every call meets `BackingGuard`. -/
theorem multi_token_payouts_backed (host : Optimized.Host) {trace : Trace} {env : Env}
    (h : Ledger.Reachable (contract host) trace env) :
    Run.Each (fun e older => Backed host (e :: older) e.after) trace ↔
      Run.Each (fun e _ => BackingGuarded host e) trace := by
  refine Run.each_iff_of_kept (J := Allocated host) ?_ ?_ h
  · intro env hdeployed
    obtain ⟨self, tokens, rfl⟩ := hdeployed
    refine ⟨fun grantId grant hgrant => ?_, by simp⟩
    cases hgrant
  · intro e older _ hn hI
    refine ⟨hI.step hn, guarded_of_backed hn, fun hguard => (hI.step hn hguard).toBacked⟩

/-- Withdrawals out of a grant of the administrator; its rates are changed in between. -/
theorem multi_token_payouts_backed_of_guarded_grant :
    let run := Ledger.history (contract Demo.host) Demo.env (Demo.setUp ++
      [Demo.call 10 [Optimized.Demo.grantee]
          (.multiTokenWithdraw 7 [⟨Demo.tokenA, 10⟩, ⟨Demo.tokenB, 20⟩, ⟨Demo.tokenB, 4⟩]),
        Demo.call 20 [Optimized.Demo.admin]
          (.updateMultiTokenRates 7 [{ Demo.entry Demo.tokenB with flowRate := 9 }]),
        Demo.call 200 [Optimized.Demo.grantee]
          (.multiTokenWithdraw 7 [⟨Demo.tokenB, 96⟩, ⟨Demo.tokenA, 90⟩])])
    Run.Each (fun e older => Backed Demo.host (e :: older) e.after) run.1 := by
  intro run
  have hrun : Ledger.Reachable (contract Demo.host) run.1 run.2 :=
    Ledger.history_reachable _ Demo.env_deployed (by decide)
  exact (multi_token_payouts_backed Demo.host hrun).mpr (by decide)

/-- Nobody authorized this entry of 100, and 300 are paid out of it. -/
theorem multi_token_payouts_backed_stolen_grant :
    ¬∀ trace env, Ledger.Reachable (contract Demo.host) trace env →
      Backed Demo.host trace env := by
  intro h
  let entry : TokenBalance := { Demo.entry Demo.tokenA with claimable := 300 }
  let run := Ledger.history (contract Demo.host) Demo.env
    [Demo.call 0 [Optimized.Demo.admin] (.optimized (.initializeContract Optimized.Demo.admin)),
      Demo.call 0 [] (.createMultiTokenGrant 7 Optimized.Demo.grantee [entry] statusActive),
      Demo.call 0 [Optimized.Demo.grantee] (.multiTokenWithdraw 7 [⟨Demo.tokenA, 300⟩])]
  have hrun : Ledger.Reachable (contract Demo.host) run.1 run.2 :=
    Ledger.history_reachable _ Demo.env_deployed (by decide)
  have hstored : run.2.store.grants 7 = some
      { recipient := Optimized.Demo.grantee
        tokens := [{ entry with claimable := 0, withdrawn := 300 }]
        lastUpdateTs := 0, rateUpdatedAt := 0, statusMask := statusCompleted } := by
    decide
  have hpaid := (h _ _ hrun).paid_le 7 _ hstored _ List.mem_cons_self
  exact absurd hpaid (by decide)

end YieldTrust.MultiToken
