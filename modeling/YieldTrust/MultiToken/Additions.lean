import YieldTrust.MultiToken.Completion

/-!
# YieldTrust.MultiToken.Additions

What a token that was **added** to a grant earns. All entries of a grant share the time of its last
settlement, and an addition does not settle: an entry earns from its addition on only if it is
added in the second of a settlement, or earns nothing. Every other entry earns by its own rate,
whether or not a token is added beside it, as long as the added entry can be settled.
-/

namespace YieldTrust.MultiToken

open Fallible
open GrantStream (Address Bytes)
open Optimized (Error StatusMask hasStatus setStatus clearStatus statusActive statusPaused
  statusCompleted validateStatusTransition)

variable {host : Optimized.Host} {env : Env} {grant grant' : MultiTokenGrant}
  {grantId now secs : Nat} {tokenAddress : Address} {token token' : TokenBalance}
  {tokens : List TokenBalance} {call : Call} {log : List (TokenLedger.Transfer Address)}

/-! ### Accrual up to a total -/

/-- What is accounted for after `amount` more has accrued, up to `total`. -/
def accrue (total accounted amount : Int) : Int :=
  accounted + min (max 0 (total - accounted)) amount

section Accrue

variable {total accounted a b : Int}

@[simp] theorem accrue_zero : accrue total accounted 0 = accounted := by
  unfold accrue
  omega

theorem accrue_le : accrue total accounted a ≤ accounted + a := by
  unfold accrue
  omega

theorem le_accrue (ha : 0 ≤ a) : accounted ≤ accrue total accounted a := by
  unfold accrue
  omega

/-- One accrual after another is one accrual of both amounts. -/
theorem accrue_accrue (ha : 0 ≤ a) (hb : 0 ≤ b) :
    accrue total (accrue total accounted a) b = accrue total accounted (a + b) := by
  unfold accrue
  omega

end Accrue

/-! ### Settlement of one entry -/

/-- What is accounted for of the entry after `secs` seconds. -/
def TokenBalance.credited (token : TokenBalance) (secs : Nat) : Int :=
  accrue token.totalAmount token.accounted (token.flowRate * secs)

theorem TokenBalance.credited_zero (token : TokenBalance) : token.credited 0 = token.accounted := by
  simp [TokenBalance.credited]

theorem TokenBalance.settled_flowRate (token : TokenBalance) (secs : Nat) :
    (token.settled secs).flowRate = token.flowRate := by
  unfold TokenBalance.settled
  split <;> rfl

theorem TokenBalance.requests_flowRate (env : Env) (withdrawals : List TokenWithdrawal)
    (token : TokenBalance) : (token.requests env withdrawals).flowRate = token.flowRate := by
  refine TokenBalance.requests_induction (P := fun t => t.flowRate = token.flowRate)
    (fun t withdrawal h => ?_) withdrawals rfl
  unfold TokenBalance.request TokenBalance.draw
  split
  · split <;> exact h
  · exact h

/-- Every value that a settlement of the entry after `secs` seconds computes fits its type. -/
def TokenBalance.Settles (token : TokenBalance) (secs : Nat) : Prop :=
  secs = 0 ∨ token.flowRate = 0 ∨
    (I128.InRange (token.flowRate * secs) ∧ I128.InRange token.accounted ∧
      token.accounted ≤ token.totalAmount ∧
      I128.InRange (token.totalAmount - token.accounted) ∧
      I128.InRange (token.claimable +
        min (token.totalAmount - token.accounted) (token.flowRate * secs)))

instance (token : TokenBalance) (secs : Nat) : Decidable (token.Settles secs) :=
  inferInstanceAs (Decidable (_ ∨ _ ∨ _))

/-- An entry that settles does not make a settlement fail. -/
theorem TokenBalance.Settles.settles (h : token.Settles secs) (hsecs : secs ≠ 0) :
    settleTokenBalance secs token = .ok (token.settled secs) := by
  unfold settleTokenBalance TokenBalance.settled
  by_cases hrate : token.flowRate = 0
  · simp only [hrate, or_true, if_true]
    rfl
  · obtain ⟨haccrued, haccounted, hle, hremaining, hclaimable⟩ :=
      (h.resolve_left hsecs).resolve_left hrate
    -- the branch of the source takes the smaller amount
    have hdelta : (if token.totalAmount - token.accounted < token.flowRate * secs then
        token.totalAmount - token.accounted else token.flowRate * secs) =
          min (token.totalAmount - token.accounted) (token.flowRate * secs) := by
      split <;> omega
    rw [if_neg hrate, if_neg (by simp [hsecs, hrate])]
    simp only [bind_eq_ok, ensure_eq_ok, okOr_eq_ok, pure_eq_ok, I128.checkedMul_eq_some,
      I128.checkedAdd_eq_some, I128.checkedSub_eq_some]
    refine ⟨_, ⟨haccrued, rfl⟩, _, ⟨haccounted, rfl⟩, (), hle, _, ⟨hremaining, rfl⟩, _,
      ⟨?_, rfl⟩, ?_⟩
    · exact hdelta ▸ hclaimable
    · exact congrArg (fun delta => { token with claimable := token.claimable + delta }) hdelta

/-- A settlement accounts for what has accrued. -/
theorem settled_accounted (h : settleTokenBalance secs token = .ok token') (hsecs : secs ≠ 0) :
    (token.settled secs).accounted = token.credited secs := by
  have hsettled := (settleTokenBalance_eq_ok h).1.resolve_left hsecs
  unfold TokenBalance.settled TokenBalance.credited
  split
  · case isTrue hidle => simp [hidle.resolve_left hsecs]
  · case isFalse hne =>
    rw [not_or] at hne
    have hle := hsettled.resolve_left hne.2
    unfold TokenBalance.accounted accrue at *
    dsimp only
    omega

/-! ### Settlement of a grant -/

/-- A settlement that goes through accounts for what has accrued of each entry. -/
theorem settled_credited (h : settleMultiTokenGrant grant now = .ok grant')
    (htoken : token ∈ grant.tokens) :
    (token.settled (grant.elapsed now)).accounted = token.credited (grant.elapsed now) := by
  rw [settleMultiTokenGrant_eq (settleMultiTokenGrant_le h)] at h
  split at h
  · case isTrue hzero => rw [hzero, token.settled_zero, token.credited_zero]
  · case isFalse hne =>
    obtain ⟨tokens, htokens, -⟩ := map_eq_ok.mp h
    obtain ⟨token', hsettle⟩ := exists_of_mapM htokens htoken
    exact settled_accounted hsettle hne

/-- The grant without the entry of the token. -/
def MultiTokenGrant.without (grant : MultiTokenGrant) (tokenAddress : Address) : MultiTokenGrant :=
  { grant with tokens := grant.tokens.filter fun token => token.tokenAddress ≠ tokenAddress }

/-- An entry that settles takes no part in the settlement of the others. -/
theorem settle_without
    (h : ∀ token ∈ grant.tokens, token.tokenAddress = tokenAddress →
      token.Settles (grant.elapsed now)) :
    (fun settled => settled.without tokenAddress) <$> settleMultiTokenGrant grant now =
      settleMultiTokenGrant (grant.without tokenAddress) now := by
  by_cases hle : grant.lastUpdateTs ≤ now
  · have hle' : (grant.without tokenAddress).lastUpdateTs ≤ now := hle
    have helapsed : (grant.without tokenAddress).elapsed now = grant.elapsed now := rfl
    rw [settleMultiTokenGrant_eq hle, settleMultiTokenGrant_eq hle', helapsed]
    split
    · rfl
    · case isFalse hne =>
      have hfilter := filter_mapM (f := settleTokenBalance (grant.elapsed now))
        (p := fun token => token.tokenAddress ≠ tokenAddress)
        (fun {token token'} hsettle => ?_) (l := grant.tokens) ?_
      · rw [MultiTokenGrant.without, ← hfilter]
        cases grant.tokens.mapM (settleTokenBalance (grant.elapsed now)) <;> rfl
      · rw [(settleTokenBalance_eq_ok hsettle).2 hne, token.settled_tokenAddress]
      · intro token htoken hkey
        simp only [ne_eq, decide_not, Bool.not_eq_false', decide_eq_true_eq] at hkey
        exact ⟨_, (h token htoken hkey).settles hne⟩
  · have hfail (grant : MultiTokenGrant) (hle : ¬grant.lastUpdateTs ≤ now) :
        settleMultiTokenGrant grant now = fail .invalidState := by
      unfold settleMultiTokenGrant
      rw [ensure, if_neg hle]
      rfl
    rw [hfail grant hle, hfail (grant.without tokenAddress) hle]
    rfl

/-! ### What a token streams -/

/-- The entry with which the call brings the token into the grant. -/
def Call.entry (grantId : Nat) (tokenAddress : Address) : Call → Option TokenBalance
  | .createMultiTokenGrant id _ tokens _ =>
      if id = grantId then findToken tokens tokenAddress else none
  | .addTokenToGrant id token =>
      if id = grantId ∧ token.tokenAddress = tokenAddress then some token else none
  | _ => none

/-- The entry with which the step brings the token into the grant. -/
def entryOf (host : Optimized.Host) (grantId : Nat) (tokenAddress : Address) (e : Step) :
    Option TokenBalance :=
  (Ledger.called (contract host) e).bind (Call.entry grantId tokenAddress)

/-- The entry with which the token last came into the grant. -/
def origin (host : Optimized.Host) (grantId : Nat) (tokenAddress : Address) (trace : Trace) :
    Option TokenBalance :=
  trace.findSome? (entryOf host grantId tokenAddress)

/-- The rate of the token while the grant is active. -/
def MultiTokenGrant.activeRate (grant : MultiTokenGrant) (tokenAddress : Address) : Int :=
  if hasStatus grant.statusMask statusActive then
    (findToken grant.tokens tokenAddress).elim 0 TokenBalance.flowRate
  else 0

/-- What the token streams from the transaction before the step until the step. -/
def streamedIn (grantId : Nat) (tokenAddress : Address) (e : Step) : Int :=
  (e.before.store.grants grantId).elim 0 fun grant =>
    grant.activeRate tokenAddress * ((e.action.timestamp - e.before.timestamp : Nat) : Int)

/-- The rate of the token, added up over the active seconds since it came into the grant. -/
def streamed (host : Optimized.Host) (grantId : Nat) (tokenAddress : Address) : Trace → Int
  | [] => 0
  | e :: older =>
    match entryOf host grantId tokenAddress e with
    | some _ => 0
    | none => streamed host grantId tokenAddress older + streamedIn grantId tokenAddress e

/-- The total of the token's entry before the step. -/
def storedTotal (grantId : Nat) (tokenAddress : Address) (e : Step) : Option Int :=
  ((e.before.store.grants grantId).bind fun grant => findToken grant.tokens tokenAddress).map
    TokenBalance.totalAmount

/-- What accrues for the token by its own entry and rates alone: its rate for each active second,
up to its total. -/
def entitled (host : Optimized.Host) (grantId : Nat) (tokenAddress : Address) : Trace → Int
  | [] => 0
  | e :: older =>
    match entryOf host grantId tokenAddress e with
    | some entry => entry.accounted
    | none =>
      (storedTotal grantId tokenAddress e).elim (entitled host grantId tokenAddress older)
        fun total => accrue total (entitled host grantId tokenAddress older)
          (streamedIn grantId tokenAddress e)

/-- All that entitles a token, step by step: the entry that brings it into the grant, its total,
and what it streams. -/
def course (host : Optimized.Host) (grantId : Nat) (tokenAddress : Address) (trace : Trace) :
    List (Option TokenBalance × Option Int × Int) :=
  trace.map fun e => (entryOf host grantId tokenAddress e, storedTotal grantId tokenAddress e,
    streamedIn grantId tokenAddress e)

theorem entitled_congr {trace trace' : Trace}
    (h : course host grantId tokenAddress trace = course host grantId tokenAddress trace') :
    entitled host grantId tokenAddress trace = entitled host grantId tokenAddress trace' := by
  induction trace generalizing trace' with
  | nil =>
      cases trace' with
      | nil => rfl
      | cons => cases h
  | cons e older ih =>
      cases trace' with
      | nil => cases h
      | cons e' older' =>
          simp only [course, List.map_cons, List.cons.injEq, Prod.mk.injEq] at h
          obtain ⟨⟨hentry, htotal, hstreamed⟩, hrest⟩ := h
          rw [entitled, entitled, hentry, htotal, hstreamed, ih hrest]

/-! ### The entries in a run -/

/-- What a settlement would account for of each entry is what its token is entitled to. -/
structure Metered (host : Optimized.Host) (grantId : Nat) (trace : Trace) (now : Nat)
    (grant : MultiTokenGrant) : Prop where
  lastUpdateTs_le : grant.lastUpdateTs ≤ now
  distinct : (addresses grant.tokens).Nodup
  flowRate_nonneg : ∀ token ∈ grant.tokens, 0 ≤ token.flowRate
  origin_isSome : ∀ token ∈ grant.tokens,
    (origin host grantId token.tokenAddress trace).isSome = true
  credited_eq : ∀ token ∈ grant.tokens,
    token.credited (grant.elapsed now) = entitled host grantId token.tokenAddress trace

section Runs

variable {trace older : Trace} {e : Step}

theorem elapsed_of_settled (h : grant.lastUpdateTs = now) : grant.elapsed now = 0 := by
  unfold MultiTokenGrant.elapsed
  split <;> omega

theorem origin_cons_of_some {entry : TokenBalance}
    (h : entryOf host grantId tokenAddress e = some entry) :
    origin host grantId tokenAddress (e :: older) = some entry := by
  rw [origin, List.findSome?_cons, h]

theorem entitled_cons_of_some {entry : TokenBalance}
    (h : entryOf host grantId tokenAddress e = some entry) :
    entitled host grantId tokenAddress (e :: older) = entry.accounted := by
  rw [entitled, h]

/-- Time passes: the entitlement grows as a settlement at the time of the step would credit it. -/
theorem Metered.tick (h : Metered host grantId older e.before.timestamp grant)
    (hgrant : e.before.store.grants grantId = some grant)
    (htime : e.before.timestamp ≤ e.action.timestamp) (htoken : token ∈ grant.tokens)
    (hentry : entryOf host grantId token.tokenAddress e = none) :
    entitled host grantId token.tokenAddress (e :: older) =
      token.credited (grant.elapsed e.action.timestamp) := by
  have hfind : findToken grant.tokens token.tokenAddress = some token :=
    KeyedList.find?_of_mem h.distinct htoken
  have hle := h.lastUpdateTs_le
  have hrate := h.flowRate_nonneg token htoken
  have hcredited := h.credited_eq token htoken
  rw [entitled, hentry, storedTotal, hgrant]
  simp only [Option.bind_some, hfind, Option.map_some, Option.elim_some]
  rw [← hcredited, streamedIn, hgrant, Option.elim_some, MultiTokenGrant.activeRate, hfind]
  unfold TokenBalance.credited MultiTokenGrant.elapsed
  split
  · case isTrue hactive =>
    -- the seconds up to the last transaction and those since then are the elapsed ones
    rw [Option.elim_some, accrue_accrue (Int.mul_nonneg hrate (by omega))
      (Int.mul_nonneg hrate (by omega)), ← mul_add, ← Nat.cast_add]
    congr 3
    omega
  · simp

theorem Metered.origin_cons (h : Metered host grantId older now grant)
    (htoken : token ∈ grant.tokens) :
    (origin host grantId token.tokenAddress (e :: older)).isSome = true := by
  have hsome := h.origin_isSome token htoken
  unfold origin at hsome ⊢
  rw [List.findSome?_cons]
  split <;> simp_all

/-- Nothing but time happens to the grant. -/
theorem Metered.idle (h : Metered host grantId older e.before.timestamp grant)
    (hgrant : e.before.store.grants grantId = some grant)
    (htime : e.before.timestamp ≤ e.action.timestamp)
    (hentry : ∀ tokenAddress, entryOf host grantId tokenAddress e = none) :
    Metered host grantId (e :: older) e.action.timestamp grant where
  lastUpdateTs_le := h.lastUpdateTs_le.trans htime
  distinct := h.distinct
  flowRate_nonneg := h.flowRate_nonneg
  origin_isSome _ htoken := h.origin_cons htoken
  credited_eq token htoken := (h.tick hgrant htime htoken (hentry token.tokenAddress)).symm

/-- A settlement credits every entry with what its token is entitled to; what happens to the
entries after it keeps what is accounted for. -/
theorem Metered.settled (h : Metered host grantId older e.before.timestamp grant)
    (hgrant : e.before.store.grants grantId = some grant)
    (htime : e.before.timestamp ≤ e.action.timestamp)
    (hentry : ∀ tokenAddress, entryOf host grantId tokenAddress e = none)
    (hsettle : settleMultiTokenGrant grant e.action.timestamp =
      .ok (grant.settled e.action.timestamp))
    (hlast : grant'.lastUpdateTs = e.action.timestamp)
    (hdistinct : (addresses grant'.tokens).Nodup)
    (hfrom : ∀ token' ∈ grant'.tokens, ∃ token ∈ (grant.settled e.action.timestamp).tokens,
      token'.tokenAddress = token.tokenAddress ∧ token'.accounted = token.accounted ∧
        (token'.flowRate = token.flowRate ∨ 0 ≤ token'.flowRate)) :
    Metered host grantId (e :: older) e.action.timestamp grant' := by
  have hbefore : ∀ token' ∈ grant'.tokens, ∃ token ∈ grant.tokens,
      token'.tokenAddress = token.tokenAddress ∧
        token'.accounted = token.credited (grant.elapsed e.action.timestamp) ∧
        0 ≤ token'.flowRate := by
    intro token' htoken'
    obtain ⟨settled, hsettled, haddress, haccounted, hrate⟩ := hfrom token' htoken'
    obtain ⟨token, htoken, rfl⟩ := List.mem_map.mp hsettled
    rw [token.settled_tokenAddress] at haddress
    rw [settled_credited hsettle htoken] at haccounted
    refine ⟨token, htoken, haddress, haccounted, ?_⟩
    rcases hrate with hsame | hnonneg
    · rw [hsame, token.settled_flowRate]
      exact h.flowRate_nonneg token htoken
    · exact hnonneg
  refine ⟨hlast.le, hdistinct, fun token' htoken' => ?_, fun token' htoken' => ?_,
    fun token' htoken' => ?_⟩ <;>
    obtain ⟨token, htoken, haddress, haccounted, hnonneg⟩ := hbefore token' htoken'
  · exact hnonneg
  · rw [haddress]
    exact h.origin_cons htoken
  · rw [elapsed_of_settled hlast, token'.credited_zero, haddress, haccounted,
      h.tick hgrant htime htoken (hentry _)]

theorem entryOf_of_called (hcalled : Ledger.called (contract host) e = some call) :
    entryOf host grantId tokenAddress e = call.entry grantId tokenAddress := by
  rw [entryOf, hcalled, Option.bind_some]

/-- Nothing is owed to an entry for the time before its addition. -/
def TokenBalance.OwesNothing (token : TokenBalance) (secs : Nat) : Prop :=
  secs = 0 ∨ token.flowRate = 0 ∨ (token.accounted = token.totalAmount ∧ token.Settles secs)

instance (token : TokenBalance) (secs : Nat) : Decidable (token.OwesNothing secs) :=
  inferInstanceAs (Decidable (_ ∨ _ ∨ _))

theorem TokenBalance.OwesNothing.settles (h : token.OwesNothing secs) : token.Settles secs := by
  rcases h with hzero | hrate | ⟨-, hsettles⟩
  · exact .inl hzero
  · exact .inr (.inl hrate)
  · exact hsettles

theorem TokenBalance.OwesNothing.credited_eq (h : token.OwesNothing secs)
    (hrate : 0 ≤ token.flowRate) : token.credited secs = token.accounted := by
  have haccrued := Int.mul_nonneg hrate (Int.natCast_nonneg secs)
  rcases h with hzero | hrate | ⟨hfull, -⟩
  · rw [hzero, token.credited_zero]
  · simp [TokenBalance.credited, hrate]
  · unfold TokenBalance.credited accrue
    omega

/-- The condition on an addition under which the entry earns from then on. -/
def Call.AdditionGuard (env : Env) : Call → Prop
  | .addTokenToGrant grantId token => ∀ grant ∈ env.store.grants grantId,
      token.OwesNothing (grant.elapsed env.timestamp)
  | _ => True

instance decidableAdditionGuard (env : Env) : (call : Call) → Decidable (call.AdditionGuard env)
  | .addTokenToGrant grantId token =>
      inferInstanceAs (Decidable (∀ grant ∈ env.store.grants grantId,
        token.OwesNothing (grant.elapsed env.timestamp)))
  | .optimized _ | .createMultiTokenGrant _ _ _ _ | .multiTokenWithdraw _ _
  | .updateMultiTokenRates _ _ | .removeTokenFromGrant _ _ | .configureWrappedAsset _ _ _
  | .setAssetHalt _ _ => inferInstanceAs (Decidable True)

/-- The call adds the token to the grant. -/
def Call.adds (grantId : Nat) (tokenAddress : Address) : Call → Bool
  | .addTokenToGrant id token => id == grantId && token.tokenAddress == tokenAddress
  | _ => false

/-- The token was added to the grant. -/
def Added (host : Optimized.Host) (grantId : Nat) (tokenAddress : Address) (trace : Trace) : Prop :=
  ∃ e ∈ trace, ∃ call ∈ Ledger.called (contract host) e, call.adds grantId tokenAddress = true

/-- The entry that the call added, if it is still there, does not make a settlement fail. -/
def Call.AdditionSettles (env : Env) : Call → Prop
  | .addTokenToGrant grantId token => ∀ grant ∈ env.store.grants grantId, ∀ t ∈ grant.tokens,
      t.tokenAddress = token.tokenAddress → t.Settles (grant.elapsed env.timestamp)
  | _ => True

instance decidableAdditionSettles (env : Env) : (call : Call) → Decidable (call.AdditionSettles env)
  | .addTokenToGrant grantId token =>
      inferInstanceAs (Decidable (∀ grant ∈ env.store.grants grantId, ∀ t ∈ grant.tokens,
        t.tokenAddress = token.tokenAddress → t.Settles (grant.elapsed env.timestamp)))
  | .optimized _ | .createMultiTokenGrant _ _ _ _ | .multiTokenWithdraw _ _
  | .updateMultiTokenRates _ _ | .removeTokenFromGrant _ _ | .configureWrappedAsset _ _ _
  | .setAssetHalt _ _ => inferInstanceAs (Decidable True)

/-- The condition on a step: an entry that it adds is owed nothing, and at the time of the step the
entries that were added before can be settled. -/
def AdditionGuarded (host : Optimized.Host) (e : Step) (older : Trace) : Prop :=
  (∀ call ∈ Ledger.called (contract host) e, call.AdditionGuard (e.before.enter e.action)) ∧
  ∀ e' ∈ older, ∀ call ∈ Ledger.called (contract host) e',
    call.AdditionSettles (e.before.enter e.action)

instance (host : Optimized.Host) (e : Step) (older : Trace) :
    Decidable (AdditionGuarded host e older) :=
  inferInstanceAs (Decidable (_ ∧ ∀ e' ∈ older, ∀ call ∈ Ledger.called (contract host) e', _))

/-- **Step lemma.** -/
theorem Transition.metered
    (h : Transition (e.before.enter e.action) grantId grant call grant' log)
    (hI : Metered host grantId older e.before.timestamp grant)
    (hgrant : e.before.store.grants grantId = some grant)
    (htime : e.before.timestamp ≤ e.action.timestamp)
    (hcalled : Ledger.called (contract host) e = some call)
    (hguard : call.AdditionGuard (e.before.enter e.action)) :
    Metered host grantId (e :: older) e.action.timestamp grant' := by
  have hdistinct := h.distinct hI.distinct
  have hentry (tokenAddress : Address) : entryOf host grantId tokenAddress e =
      call.entry grantId tokenAddress := entryOf_of_called hcalled
  cases h with
  | withdrawn withdrawals progress full hactive hloop hfull hsettle =>
      have htokens := withdrawals_grant_eq hloop (grant.nodup_settled hI.distinct _)
      have hlast : progress.grant.lastUpdateTs = e.action.timestamp := by
        rw [htokens]
        rfl
      refine hI.settled hgrant htime hentry hsettle hlast hdistinct fun token' htoken' => ?_
      rw [MultiTokenGrant.completedIf, htokens] at htoken'
      obtain ⟨token, htoken, rfl⟩ := List.mem_map.mp htoken'
      exact ⟨token, htoken, token.requests_tokenAddress .., (token.requests_accounted ..).1,
        .inl (token.requests_flowRate ..)⟩
  | ratesUpdated tokenUpdates tokens hrates hsettle =>
      refine hI.settled hgrant htime hentry hsettle rfl hdistinct fun token' htoken' => ?_
      obtain ⟨token, htoken, hsame, hrate⟩ := hrates.balances token' htoken'
      refine ⟨token, htoken, ?_, ?_, hrate⟩
      · rw [hsame]
      · rw [hsame]
        rfl
  | added token hauth hfresh htotal hrate =>
      have hnone : ∀ t ∈ grant.tokens, entryOf host grantId t.tokenAddress e = none := by
        intro t ht
        rw [hentry, Call.entry, if_neg]
        rintro ⟨-, hkey⟩
        exact hfresh (hkey ▸ List.mem_map_of_mem ht)
      have hsome : entryOf host grantId token.tokenAddress e = some token := by
        rw [hentry, Call.entry, if_pos ⟨rfl, rfl⟩]
      -- nothing is settled: the other entries accrue on, and the new one with them
      refine ⟨hI.lastUpdateTs_le.trans htime, hdistinct, ?_, ?_, ?_⟩ <;>
        rw [List.forall_mem_append, List.forall_mem_singleton]
      · exact ⟨hI.flowRate_nonneg, hrate⟩
      · refine ⟨fun t ht => hI.origin_cons ht, ?_⟩
        rw [origin_cons_of_some hsome]
        rfl
      · refine ⟨fun t ht => (hI.tick hgrant htime ht (hnone t ht)).symm, ?_⟩
        rw [entitled_cons_of_some hsome]
        exact (hguard grant hgrant).credited_eq hrate
  | removed tokenAddress removed kept hpartition hempty hsettle =>
      refine hI.settled hgrant htime hentry hsettle rfl hdistinct fun token' htoken' => ?_
      exact ⟨token', (sublist_of_partition hpartition).subset htoken', rfl, rfl, .inl rfl⟩

/-- The entries of a new grant. -/
theorem metered_of_created {recipient : Address} {mask : StatusMask}
    (hvalid : ∀ token ∈ tokens, validateTokenBalance token = .ok ())
    (hnodup : (addresses tokens).Nodup)
    (hcalled : Ledger.called (contract host) e =
      some (.createMultiTokenGrant grantId recipient tokens mask)) :
    Metered host grantId (e :: older) e.action.timestamp
      { recipient, tokens, lastUpdateTs := e.action.timestamp
        rateUpdatedAt := e.action.timestamp, statusMask := mask } := by
  have hentry : ∀ token ∈ tokens, entryOf host grantId token.tokenAddress e = some token := by
    intro token htoken
    rw [entryOf_of_called hcalled, Call.entry, if_pos rfl]
    exact KeyedList.find?_of_mem hnodup htoken
  refine ⟨le_rfl, hnodup, fun token htoken => ?_, fun token htoken => ?_, fun token htoken => ?_⟩
  · have hchecks := hvalid token htoken
    unfold validateTokenBalance at hchecks
    simp only [bind_eq_ok, ensure_eq_ok] at hchecks
    obtain ⟨_, -, _, hrate, -⟩ := hchecks
    exact hrate
  · rw [origin_cons_of_some (hentry token htoken)]
    rfl
  · rw [elapsed_of_settled rfl, token.credited_zero, entitled_cons_of_some (hentry token htoken)]

/-- A call brings no entry into another grant. -/
theorem Call.entry_other (h : call.target ≠ some grantId) (tokenAddress : Address) :
    call.entry grantId tokenAddress = none := by
  cases call with
  | createMultiTokenGrant | addTokenToGrant =>
      simp only [Call.target, ne_eq, Option.some.injEq] at h
      simp [Call.entry, h]
  | _ => rfl

/-- **Run lemma.** -/
theorem metered_of_run (h : Ledger.Reachable (contract host) trace env)
    (hguarded : Run.Each (AdditionGuarded host) trace) :
    ∀ grantId grant, env.store.grants grantId = some grant →
      Metered host grantId trace env.timestamp grant := by
  induction h with
  | start hdeployed =>
      obtain ⟨self, tokens, rfl⟩ := hdeployed
      intro grantId grant hgrant
      cases hgrant
  | @step older before event after h hn ih =>
      obtain ⟨hguard, hguarded⟩ := hguarded
      have ih := ih hguarded
      let e : Step := ⟨before, event, after⟩
      obtain ⟨htime, hafter⟩ := Ledger.timestamp_of_next (e := e) hn
      rw [hafter]
      intro grantId grant hgrant
      rcases effect_of_next (e := e) hn with ⟨hnone, hstore⟩ | ⟨call, hcalled, -, heffect⟩
      · have hbefore : before.store.grants grantId = some grant := hstore ▸ hgrant
        refine (ih grantId grant hbefore).idle hbefore htime fun tokenAddress => ?_
        rw [entryOf, hnone, Option.bind_none]
      · cases heffect.grantEffect hgrant with
        | untouched _ hbefore htarget =>
            refine (ih grantId grant hbefore).idle hbefore htime fun tokenAddress => ?_
            rw [entryOf_of_called hcalled, Call.entry_other htarget]
        | created recipient tokens mask hcall hvalid hnodup =>
            subst hcall
            exact metered_of_created hvalid hnodup hcalled
        | moved before _ hbefore htransition =>
            exact htransition.metered (ih grantId before hbefore) hbefore htime hcalled
              (hguard.1 call hcalled)

/-- A token streams no less than what it is entitled to. -/
theorem entitled_le {entry : TokenBalance}
    (h : origin host grantId tokenAddress trace = some entry) :
    entitled host grantId tokenAddress trace ≤
      entry.accounted + streamed host grantId tokenAddress trace := by
  induction trace with
  | nil => cases h
  | cons e older ih =>
      cases hentry : entryOf host grantId tokenAddress e with
      | some entry' =>
          rw [origin_cons_of_some hentry, Option.some.injEq] at h
          subst h
          rw [entitled_cons_of_some hentry, streamed, hentry, add_zero]
      | none =>
          rw [origin, List.findSome?_cons, hentry] at h
          have hle := ih h
          rw [entitled, streamed, hentry, storedTotal]
          dsimp only
          cases hstored : (e.before.store.grants grantId).bind
              fun grant => findToken grant.tokens tokenAddress with
          | none =>
              -- a token that is not in the grant streams nothing
              have hidle : streamedIn grantId tokenAddress e = 0 := by
                unfold streamedIn
                cases hgrant : e.before.store.grants grantId with
                | none => rfl
                | some grant =>
                    rw [hgrant, Option.bind_some] at hstored
                    simp [MultiTokenGrant.activeRate, hstored]
              rw [Option.map_none, Option.elim_none, hidle, add_zero]
              exact hle
          | some token =>
              rw [Option.map_some, Option.elim_some, ← add_assoc]
              exact accrue_le.trans (Int.add_le_add_right hle _)

/-! ### What a token earns -/

/-- What accrued for the entry since its token came into the grant is at most what the token
streamed since then. -/
def EarnsWithin (host : Optimized.Host) (grantId : Nat) (trace : Trace) (token : TokenBalance) :
    Prop :=
  ∃ entry, origin host grantId token.tokenAddress trace = some entry ∧
    token.accounted - entry.accounted ≤ streamed host grantId token.tokenAddress trace

/-- A token earns from the moment it comes into the grant, by its own rate; an added one takes no
part in the settlement of the others. -/
structure EarnsFromAddition (host : Optimized.Host) (trace : Trace) (env : Env) : Prop where
  stored_le : ∀ grantId grant, env.store.grants grantId = some grant → ∀ token ∈ grant.tokens,
    EarnsWithin host grantId trace token
  settled_le : ∀ grantId grant settled, env.store.grants grantId = some grant →
    settleMultiTokenGrant grant env.timestamp = .ok settled → ∀ token ∈ settled.tokens,
      EarnsWithin host grantId trace token
  settled_eq : ∀ grantId grant settled, env.store.grants grantId = some grant →
    settleMultiTokenGrant grant env.timestamp = .ok settled → ∀ token ∈ settled.tokens,
      token.accounted = entitled host grantId token.tokenAddress trace
  unaffected : ∀ grantId grant tokenAddress, env.store.grants grantId = some grant →
    Added host grantId tokenAddress trace →
      (fun settled => settled.without tokenAddress) <$>
          settleMultiTokenGrant grant env.timestamp =
        settleMultiTokenGrant (grant.without tokenAddress) env.timestamp

/-- The token has accrued the same in both states. -/
def AccruesAlike (grantId : Nat) (tokenAddress : Address) (env env' : Env) : Prop :=
  ∀ grant grant' settled settled', env.store.grants grantId = some grant →
    env'.store.grants grantId = some grant' →
    settleMultiTokenGrant grant env.timestamp = .ok settled →
    settleMultiTokenGrant grant' env'.timestamp = .ok settled' →
    ∀ token ∈ settled.tokens, ∀ token' ∈ settled'.tokens, token.tokenAddress = tokenAddress →
      token'.tokenAddress = tokenAddress → token.accounted = token'.accounted

/-- An entry of a settled grant, as the entitlement of its token. -/
theorem Metered.settled_eq (h : Metered host grantId trace now grant) {settled : MultiTokenGrant}
    (hsettle : settleMultiTokenGrant grant now = .ok settled) (htoken : token ∈ settled.tokens) :
    token.accounted = entitled host grantId token.tokenAddress trace ∧
      EarnsWithin host grantId trace token := by
  cases settleMultiTokenGrant_eq_ok hsettle
  obtain ⟨before, hbefore, rfl⟩ := List.mem_map.mp htoken
  have heq : (before.settled (grant.elapsed now)).accounted =
      entitled host grantId before.tokenAddress trace := by
    rw [settled_credited hsettle hbefore, h.credited_eq before hbefore]
  rw [EarnsWithin, before.settled_tokenAddress]
  refine ⟨heq, ?_⟩
  obtain ⟨entry, hentry⟩ := Option.isSome_iff_exists.mp (h.origin_isSome before hbefore)
  have hle := entitled_le hentry
  exact ⟨entry, hentry, by omega⟩

theorem Metered.stored_le (h : Metered host grantId trace now grant)
    (htoken : token ∈ grant.tokens) : EarnsWithin host grantId trace token := by
  obtain ⟨entry, hentry⟩ := Option.isSome_iff_exists.mp (h.origin_isSome token htoken)
  have hle := entitled_le hentry
  have hcredited : token.accounted ≤ token.credited (grant.elapsed now) :=
    le_accrue (Int.mul_nonneg (h.flowRate_nonneg token htoken) (by omega))
  rw [h.credited_eq token htoken] at hcredited
  exact ⟨entry, hentry, by omega⟩

/-- A transition settles the grant, or adds a token to it. -/
theorem Transition.settles_or_adds (h : Transition env grantId grant call grant' log)
    (hnodup : (addresses grant.tokens).Nodup) :
    grant'.lastUpdateTs = env.timestamp ∨
      ∃ token, call = .addTokenToGrant grantId token ∧
        token.tokenAddress ∉ addresses grant.tokens ∧
        grant' = { grant with tokens := grant.tokens ++ [token] } := by
  cases h with
  | withdrawn withdrawals progress full hactive hloop =>
      left
      rw [MultiTokenGrant.completedIf, withdrawals_grant_eq hloop (grant.nodup_settled hnodup _)]
      rfl
  | ratesUpdated | removed => exact .inl rfl
  | added token hauth hfresh => exact .inr ⟨token, rfl, hfresh, rfl⟩

/-- A call adds nothing to another grant. -/
theorem Call.adds_other (h : call.target ≠ some grantId) (tokenAddress : Address) :
    call.adds grantId tokenAddress = false := by
  cases call with
  | addTokenToGrant =>
      simp only [Call.target, ne_eq, Option.some.injEq] at h
      simp [Call.adds, h]
  | _ => rfl

theorem added_cons : Added host grantId tokenAddress (e :: older) ↔
    (∃ call ∈ Ledger.called (contract host) e, call.adds grantId tokenAddress = true) ∨
      Added host grantId tokenAddress older := by
  simp [Added]

/-- After a guarded step, the added entries do not make a settlement fail. -/
theorem settles_of_added (hn : Ledger.Next (contract host) e.before e.action e.after)
    (hdistinct : ∀ grantId grant, e.before.store.grants grantId = some grant →
      (addresses grant.tokens).Nodup)
    (hguard : AdditionGuarded host e older)
    (hgrant : e.after.store.grants grantId = some grant)
    (hadded : Added host grantId tokenAddress (e :: older)) :
    ∀ token ∈ grant.tokens, token.tokenAddress = tokenAddress →
      token.Settles (grant.elapsed e.action.timestamp) := by
  obtain ⟨hnew, hold⟩ := hguard
  -- an entry that was added before, in a grant that the step leaves
  have hkept {grant : MultiTokenGrant} (hgrant : e.before.store.grants grantId = some grant)
      (hadded : Added host grantId tokenAddress older) :
      ∀ token ∈ grant.tokens, token.tokenAddress = tokenAddress →
        token.Settles (grant.elapsed e.action.timestamp) := by
    obtain ⟨e', he', call, hcalled, hadds⟩ := hadded
    have hsettles := hold e' he' call hcalled
    cases call with
    | addTokenToGrant id added =>
        simp only [Call.adds, Bool.and_eq_true, beq_iff_eq] at hadds
        obtain ⟨rfl, rfl⟩ := hadds
        exact hsettles grant hgrant
    | _ => cases hadds
  have holder (hadds : ∀ call ∈ Ledger.called (contract host) e,
      call.adds grantId tokenAddress = false) : Added host grantId tokenAddress older := by
    refine (added_cons.mp hadded).resolve_left ?_
    rintro ⟨call, hcalled, hadd⟩
    simp [hadds call hcalled] at hadd
  rcases effect_of_next hn with ⟨hnone, hstore⟩ | ⟨call, hcalled, -, heffect⟩
  · exact hkept (hstore ▸ hgrant) (holder (by simp [hnone]))
  cases heffect.grantEffect hgrant with
  | untouched _ hbefore htarget =>
      refine hkept hbefore (holder fun call' hcall' => ?_)
      cases hcalled.symm.trans hcall'
      exact Call.adds_other htarget tokenAddress
  | created => exact fun token _ _ => .inl (elapsed_of_settled rfl)
  | moved before _ hbefore htransition =>
      rcases htransition.settles_or_adds (hdistinct grantId before hbefore) with
        hlast | ⟨token, rfl, hfresh, rfl⟩
      · exact fun token _ _ => .inl (elapsed_of_settled hlast)
      · intro t ht hkey
        rcases List.mem_append.mp ht with ht | ht
        · refine hkept hbefore (holder fun call' hcall' => ?_) t ht hkey
          cases hcalled.symm.trans hcall'
          have hne : token.tokenAddress ≠ tokenAddress :=
            fun heq => hfresh (heq.trans hkey.symm ▸ List.mem_map_of_mem ht)
          simp [Call.adds, hne]
        · cases List.mem_singleton.mp ht
          exact (hnew _ hcalled before hbefore).settles

end Runs

/-- **Additions of tokens.** In a run whose additions meet the condition, every token earns from
the moment it comes into its grant, by its own rate, and an added token takes no part in the
settlement of the others. In two such runs, a token of the same course has accrued the same,
whatever was added beside it. -/
theorem additions_earn_from_addition (host : Optimized.Host) {trace : Trace} {env : Env}
    (h : Ledger.Reachable (contract host) trace env)
    (hguarded : Run.Each (AdditionGuarded host) trace) :
    EarnsFromAddition host trace env ∧
      ∀ trace' env', Ledger.Reachable (contract host) trace' env' →
        Run.Each (AdditionGuarded host) trace' → ∀ grantId tokenAddress,
          course host grantId tokenAddress trace = course host grantId tokenAddress trace' →
            AccruesAlike grantId tokenAddress env env' := by
  have hmetered := metered_of_run h hguarded
  constructor
  · refine ⟨fun grantId grant hgrant token htoken =>
        (hmetered grantId grant hgrant).stored_le htoken,
      fun grantId grant settled hgrant hsettle token htoken =>
        ((hmetered grantId grant hgrant).settled_eq hsettle htoken).2,
      fun grantId grant settled hgrant hsettle token htoken =>
        ((hmetered grantId grant hgrant).settled_eq hsettle htoken).1,
      fun grantId grant tokenAddress hgrant hadded => settle_without ?_⟩
    cases trace with
    | nil => simp [Added] at hadded
    | cons e older =>
        obtain ⟨hrun, hn, rfl⟩ := h.uncons
        have hbefore := metered_of_run hrun hguarded.2
        rw [(Ledger.timestamp_of_next hn).2]
        exact settles_of_added hn
          (fun grantId grant hgrant => (hbefore grantId grant hgrant).distinct) hguarded.1 hgrant
          hadded
  · intro trace' env' h' hguarded' grantId tokenAddress hcourse grant grant' settled settled'
      hgrant hgrant' hsettle hsettle' token htoken token' htoken' hkey hkey'
    have hmetered' := metered_of_run h' hguarded' grantId grant' hgrant'
    have heq := ((hmetered grantId grant hgrant).settled_eq hsettle htoken).1
    have heq' := (hmetered'.settled_eq hsettle' htoken').1
    rw [hkey] at heq
    rw [hkey'] at heq'
    rw [heq, heq', entitled_congr hcourse]

/-- A token is added in the second of a withdrawal, and its rate is changed later; without the
addition, the first token has accrued the same. -/
theorem additions_earn_from_addition_of_settled_grant :
    let events := fun auths =>
      Demo.setUp ++
        [Demo.call 10 [Optimized.Demo.grantee] (.multiTokenWithdraw 7 [⟨Demo.tokenA, 10⟩]),
          Demo.call 10 auths (.addTokenToGrant 7 (Demo.entry Demo.tokenC)),
          Demo.call 20 [Optimized.Demo.admin]
            (.updateMultiTokenRates 7 [{ Demo.entry Demo.tokenC with flowRate := 3 }]),
          Demo.call 50 [Optimized.Demo.grantee]
            (.multiTokenWithdraw 7 [⟨Demo.tokenC, 100⟩, ⟨Demo.tokenA, 40⟩])]
    let run := Ledger.history (contract Demo.host) Demo.env (events [Optimized.Demo.admin])
    let run' := Ledger.history (contract Demo.host) Demo.env (events [])
    EarnsFromAddition Demo.host run.1 run.2 ∧ AccruesAlike 7 Demo.tokenA run.2 run'.2 := by
  intro events run run'
  have hrun : Ledger.Reachable (contract Demo.host) run.1 run.2 :=
    Ledger.history_reachable _ Demo.env_deployed (by decide)
  have hrun' : Ledger.Reachable (contract Demo.host) run'.1 run'.2 :=
    Ledger.history_reachable _ Demo.env_deployed (by decide)
  obtain ⟨hearns, halike⟩ := additions_earn_from_addition Demo.host hrun (by decide)
  exact ⟨hearns, halike run'.1 run'.2 hrun' (by decide) 7 Demo.tokenA (by decide)⟩

/-- 50 seconds after the last settlement a token is added, and 50 of it have accrued at once. -/
theorem additions_earn_from_addition_late_settlement :
    ¬∀ trace env, Ledger.Reachable (contract Demo.host) trace env →
      EarnsFromAddition Demo.host trace env := by
  intro h
  let run := Ledger.history (contract Demo.host) Demo.env (Demo.setUp ++
    [Demo.call 50 [Optimized.Demo.admin] (.addTokenToGrant 7 (Demo.entry Demo.tokenC))])
  have hrun : Ledger.Reachable (contract Demo.host) run.1 run.2 :=
    Ledger.history_reachable _ Demo.env_deployed (by decide)
  let grant : MultiTokenGrant :=
    { recipient := Optimized.Demo.grantee
      tokens := [Demo.entry Demo.tokenA, Demo.entry Demo.tokenB, Demo.entry Demo.tokenC]
      lastUpdateTs := 0, rateUpdatedAt := 0, statusMask := statusActive }
  have hgrant : run.2.store.grants 7 = some grant := by decide
  have hsettle : settleMultiTokenGrant grant run.2.timestamp = .ok (grant.settled 50) := by decide
  obtain ⟨entry, horigin, hle⟩ := (h _ _ hrun).settled_le 7 grant _ hgrant hsettle
    ((Demo.entry Demo.tokenC).settled 50) (by decide)
  have hentry : origin Demo.host 7 Demo.tokenC run.1 = some (Demo.entry Demo.tokenC) := by decide
  cases hentry.symm.trans horigin
  exact absurd hle (by decide)

end YieldTrust.MultiToken
