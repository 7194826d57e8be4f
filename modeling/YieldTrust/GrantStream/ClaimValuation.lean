import YieldTrust.GrantStream.Authority
import YieldTrust.GrantStream.Deletion
import YieldTrust.GrantStream.Records
import YieldTrust.Lib.Register

/-!
# YieldTrust.GrantStream.ClaimValuation

Where the **fiat values of the claim log** come from. The rate of the default fiat asset is a
register that only the oracle writes, so a withdrawal is valued by the newest rate that the oracle
had set before it, or flagged if that rate was too old or there was none.
-/

namespace YieldTrust.GrantStream

open Fallible

variable {trace older : Trace} {env env' env₁ : Env} {e : Run.Step Env Event} {call : Call}
  {grantId index : Nat} {recipient tokenAddr : Address} {amount : Int} {rate : Sep38Rate}
  {newest : Option Sep38Rate} {value : ClaimFiatValue}

/-! ### Rates -/

/-- The rate that the step set. -/
def ratedBy (e : Run.Step Env Event) : Option Sep38Rate :=
  match called e with
  | some (.setSep38Rate fiatAsset rate scale oracleTimestamp sourceLedgerSequence) =>
    e.before.grantToken.map fun baseAsset =>
      { baseAsset, quoteAsset := fiatAsset, rate, scale, oracleTimestamp, sourceLedgerSequence }
  | _ => none

/-- The rate that was set last. -/
def newestRate (trace : Trace) : Option Sep38Rate :=
  Run.lastWritten (fun e => (ratedBy e).map some) none trace

/-- The rate by which a claim would be valued. -/
def currentRate (env : Env) : Option Sep38Rate :=
  env.grantToken.bind fun tokenAddr => env.sep38Rate tokenAddr env.sep38DefaultFiat

theorem newestRate_of_some (h : ratedBy e = some rate) : newestRate (e :: older) = some rate :=
  Run.lastWritten_of_some (by simp [h])

theorem newestRate_of_none (h : ratedBy e = none) : newestRate (e :: older) = newestRate older :=
  Run.lastWritten_of_none (by simp [h])

theorem ratedBy_of_uncalled (h : called e = none) : ratedBy e = none := by
  simp [ratedBy, h]

/-- What a call to set a rate checks and leaves. -/
structure RateSet (env env' : Env) (rate : Sep38Rate) : Prop where
  signed : ∃ oracle, env.oracle = some oracle ∧ oracle ∈ env.auths
  token : env.grantToken = some rate.baseAsset
  rate_pos : 0 < rate.rate
  scale_pos : 0 < rate.scale
  inPast : rate.oracleTimestamp ≤ env.timestamp
  after : env' = { env with
    sep38Rate := Function.update env.sep38Rate rate.baseAsset
      (Function.update (env.sep38Rate rate.baseAsset) rate.quoteAsset (some rate))
    sep38DefaultFiat := rate.quoteAsset }

theorem setSep38Rate_eq_ok {fiatAsset : String} {rate scale : Int}
    {oracleTimestamp sourceLedgerSequence : Nat}
    (h : setSep38Rate env fiatAsset rate scale oracleTimestamp sourceLedgerSequence = .ok env') :
    ∃ tokenAddr, env.grantToken = some tokenAddr ∧
      RateSet env env' ⟨tokenAddr, fiatAsset, rate, scale, oracleTimestamp,
        sourceLedgerSequence⟩ := by
  simp only [setSep38Rate, requireOracleAuth, readOracle, readGrantToken, bind_eq_ok, okOr_eq_ok,
    ensure_eq_ok, requireAuth_eq_ok, pure_eq_ok] at h
  obtain ⟨_, ⟨oracle, horacle, hauth⟩, _, ⟨hrate, hscale⟩, _, ⟨-, hpast⟩, tokenAddr, htoken, rfl⟩ :=
    h
  exact ⟨tokenAddr, htoken, ⟨oracle, horacle, hauth⟩, htoken, hrate, hscale, hpast, rfl⟩

/-- A step that sets a rate. -/
theorem rateSet_of_ratedBy (hn : Next e.before e.action e.after) (h : ratedBy e = some rate) :
    RateSet (e.before.enter e.action) e.after rate := by
  unfold ratedBy at h
  split at h
  · next fiatAsset price scale oracleTimestamp sourceLedgerSequence hcalled =>
      obtain ⟨tokenAddr, htoken, rfl⟩ := Option.map_eq_some_iff.mp h
      obtain ⟨tokenAddr', htoken', hset⟩ := setSep38Rate_eq_ok (exec_of_called hn hcalled)
      obtain rfl : tokenAddr = tokenAddr' := Option.some.inj (htoken.symm.trans htoken')
      exact hset
  · cases h

/-! ### The register -/

/-- The rate in use is the one that was set last. -/
structure Rated (trace : Trace) (env : Env) : Prop where
  /-- Before the contract is set up there are no rates. -/
  unset : env.admin = none → env.oracle = none ∧ env.grantToken = none ∧ newestRate trace = none ∧
    ∀ tokenAddr fiatAsset, env.sep38Rate tokenAddr fiatAsset = none
  current : currentRate env = newestRate trace
  fiat : env.sep38DefaultFiat = (newestRate trace).elim "USD" Sep38Rate.quoteAsset
  sound : ∀ rate ∈ newestRate trace,
    env.grantToken = some rate.baseAsset ∧ 0 < rate.rate ∧ 0 < rate.scale

/-- Neither the roles nor the rates change. -/
theorem Rated.of_same (h : Rated older e.before) (hrated : ratedBy e = none)
    (hconfig : Region.config.Same e.before e.after) (hsep38 : Region.sep38.Same e.before e.after) :
    Rated (e :: older) e.after := by
  obtain ⟨hadmin, htoken, -, horacle, -⟩ := hconfig
  obtain ⟨hfiat, hrate⟩ := hsep38
  have hcurrent : currentRate e.after = currentRate e.before := by
    unfold currentRate
    rw [htoken, hfiat, hrate]
  have hnewest : newestRate (e :: older) = newestRate older := newestRate_of_none hrated
  constructor
  · rw [hadmin, horacle, htoken, hrate, hnewest]
    exact h.unset
  · rw [hcurrent, hnewest]
    exact h.current
  · rw [hfiat, hnewest]
    exact h.fiat
  · rw [htoken, hnewest]
    exact h.sound

theorem Rated.set (h : Rated older e.before) (hrated : ratedBy e = some rate)
    (hset : RateSet (e.before.enter e.action) e.after rate) : Rated (e :: older) e.after := by
  have hnewest : newestRate (e :: older) = some rate := newestRate_of_some hrated
  have htoken : e.before.grantToken = some rate.baseAsset := hset.token
  have hcurrent : currentRate e.after = some rate := by
    rw [hset.after]
    simp [currentRate, Env.enter, htoken]
  have hfiat : e.after.sep38DefaultFiat = rate.quoteAsset := by rw [hset.after]
  have htoken' : e.after.grantToken = some rate.baseAsset := by
    rw [hset.after]
    exact htoken
  constructor
  · intro hadmin
    rw [hset.after] at hadmin
    cases htoken.symm.trans (h.unset hadmin).2.1
  · rw [hcurrent, hnewest]
  · rw [hfiat, hnewest]
    rfl
  · rw [hnewest]
    intro rate' hrate'
    obtain rfl := Option.some.inj hrate'
    exact ⟨htoken', hset.rate_pos, hset.scale_pos⟩

/-- The contract is set up. -/
theorem Rated.initialized {admin grantToken treasury oracle nativeToken : Address}
    (h : Rated older e.before)
    (hcalled : called e = some (.initializeContract admin grantToken treasury oracle nativeToken))
    (hn : Next e.before e.action e.after) : Rated (e :: older) e.after := by
  have hexec := exec_of_called hn hcalled
  simp only [Call.exec, initializeContract, bind_eq_ok, ensure_eq_ok, pure_eq_ok] at hexec
  obtain ⟨_, hadmin, hafter⟩ := hexec
  obtain ⟨-, -, hnone, hrates⟩ := h.unset hadmin
  have hnewest : newestRate (e :: older) = none := by
    rw [newestRate_of_none (by simp [ratedBy, hcalled]), hnone]
  have hcurrent : currentRate e.after = none := by
    rw [← hafter]
    simp [currentRate, Env.enter, hrates]
  constructor
  · intro hset
    rw [← hafter] at hset
    cases hset
  · rw [hcurrent, hnewest]
  · rw [← hafter, hnewest]
    rfl
  · simp [hnewest]

/-- **Step lemma.** -/
theorem Rated.step (h : Rated older e.before) (hn : Next e.before e.action e.after) :
    Rated (e :: older) e.after := by
  have henter := enter_frame e.before e.action
  rcases called_of_next hn with ⟨hcalled, hframe⟩ | ⟨call, hcalled, hexec⟩
  · exact h.of_same (ratedBy_of_uncalled hcalled) (hframe.same .config (by decide))
      (hframe.same .sep38 (by decide))
  · by_cases hsep38 : Region.sep38 ∈ call.writes
    · cases call <;> simp [Call.writes] at hsep38
      case initializeContract => exact h.initialized hcalled hn
      case setSep38Rate =>
        obtain ⟨tokenAddr, htoken, hset⟩ := setSep38Rate_eq_ok hexec
        have htoken : e.before.grantToken = some tokenAddr := htoken
        exact h.set (by simp [ratedBy, hcalled, htoken]) hset
    · have hconfig : Region.config ∉ call.writes := by
        cases call <;> simp [Call.writes] at hsep38 ⊢
      have hrated : ratedBy e = none := by
        cases call <;> simp [Call.writes] at hsep38 <;> simp [ratedBy, hcalled]
      have hframe := frame_of_exec hexec
      exact h.of_same hrated
        ((henter.same .config (by decide)).trans (hframe.same .config hconfig))
        ((henter.same .sep38 (by decide)).trans (hframe.same .sep38 hsep38))

/-- **Run lemma.** -/
theorem rated_of_reachable (h : Reachable trace env) : Rated trace env := by
  induction h with
  | start h =>
      obtain ⟨_, _, _, rfl⟩ := h
      exact ⟨fun _ => ⟨rfl, rfl, rfl, fun _ _ => rfl⟩, rfl, rfl,
        by simp [newestRate, Run.lastWritten]⟩
  | @step trace env event env' _ hn ih => exact ih.step (e := ⟨env, event, env'⟩) hn

/-! ### Claims -/

/-- The entry of the claim log for a claim of `amount`. -/
def claimValueOf (env : Env) (grantId : Nat) (recipient tokenAddr : Address) (amount : Int) :
    ClaimFiatValue :=
  let quote := quoteSep38Claim env tokenAddr amount env.sep38DefaultFiat
  { grantId, claimIndex := nextClaimIndex env grantId, recipient, tokenAddress := tokenAddr
    tokenAmount := amount, fiatValue := quote.fiatValue, fiatAsset := env.sep38DefaultFiat
    rate := quote.rate, rateScale := quote.scale, oracleTimestamp := quote.oracleTimestamp
    oracleLedgerSequence := quote.sourceLedgerSequence, claimLedgerSequence := env.sequence
    claimLedgerTimestamp := env.timestamp, priceDataMissing := quote.priceDataMissing }

theorem claimValueOf_congr (hsep38 : Region.sep38.Same env env₁)
    (hledger : Region.ledger.Same env env₁) (hclaims : Region.claims.Same env env₁) :
    claimValueOf env₁ grantId recipient tokenAddr amount =
      claimValueOf env grantId recipient tokenAddr amount := by
  obtain ⟨hfiat, hrate⟩ := hsep38
  obtain ⟨htime, hsequence, -⟩ := hledger
  unfold claimValueOf quoteSep38Claim nextClaimIndex
  rw [hfiat, hrate, htime, hsequence, hclaims.1]

/-- The entry that a withdrawal adds to the claim log. -/
theorem withdraw_claimValue (h : withdraw env grantId amount = .ok env') :
    ∃ recipient tokenAddr, env.grantToken = some tokenAddr ∧ 0 < amount ∧
      env'.claimValue = Function.update env.claimValue grantId
        (Function.update (env.claimValue grantId) (nextClaimIndex env grantId)
          (some (claimValueOf env grantId recipient tokenAddr amount))) := by
  unfold withdraw payWithdrawal readGrant readGrantToken at h
  simp only [bind_eq_ok, okOr_eq_ok, ensure_eq_ok] at h
  obtain ⟨grant, -, _, -, _, hamount, _, -, _, -, _, -, _, -, m, -, velocity, -, tokenAddr, htoken,
    env₁, htransfer, _, -, h⟩ := h
  have hpaid : Frame [.grants, .breakers, .tokens] env env₁ := by
    have hbreakers := (setBreakers_frame (env.writeGrant grantId m) velocity.1).trans
      (setBreakers_frame _ (CircuitBreakers.checkRentBalance
        ((env.writeGrant grantId m).setBreakers velocity.1)).1)
    exact (writeGrant_frame env grantId m).comp (hbreakers.comp (transfer_frame _ htransfer))
  have hvalue : claimValueOf env₁ grantId m.recipient tokenAddr amount =
      claimValueOf env grantId m.recipient tokenAddr amount :=
    claimValueOf_congr (hpaid.same .sep38 (by decide)) (hpaid.same .ledger (by decide))
      (hpaid.same .claims (by decide))
  obtain ⟨hcounter, hclaims⟩ := hpaid.same .claims (by decide)
  have hindex : nextClaimIndex env₁ grantId = nextClaimIndex env grantId := by
    unfold nextClaimIndex
    rw [hcounter]
  obtain rfl := pure_eq_ok.mp h
  refine ⟨m.recipient, tokenAddr, htoken, hamount, ?_⟩
  rw [← hvalue, ← hindex, ← hclaims]
  rfl

/-- The rate is not more than five minutes old, and the product fits. -/
structure Sep38Rate.Usable (rate : Sep38Rate) (amount : Int) (now : Nat) : Prop where
  inPast : rate.oracleTimestamp ≤ now
  recent : now ≤ rate.oracleTimestamp + sep38StalenessSeconds
  fits : I128.InRange (amount * rate.rate)

/-- The claim is valued by the rate, or flagged. -/
structure Valued (newest : Option Sep38Rate) (value : ClaimFiatValue) : Prop where
  fiat : value.fiatAsset = newest.elim "USD" Sep38Rate.quoteAsset
  priced : ∀ rate ∈ newest, rate.Usable value.tokenAmount value.claimLedgerTimestamp →
    value.priceDataMissing = false ∧ value.rate = rate.rate ∧ value.rateScale = rate.scale ∧
      value.oracleTimestamp = rate.oracleTimestamp ∧
      value.fiatValue = value.tokenAmount * rate.rate / rate.scale
  missing : (∀ rate ∈ newest, ¬rate.Usable value.tokenAmount value.claimLedgerTimestamp) →
    value.priceDataMissing = true ∧ value.fiatValue = 0

theorem Sep38Rate.fresh_iff (hbase : rate.baseAsset = tokenAddr) (hrate : 0 < rate.rate)
    (hscale : 0 < rate.scale) (now : Nat) :
    rate.fresh tokenAddr now = true ↔
      rate.oracleTimestamp ≤ now ∧ now ≤ rate.oracleTimestamp + sep38StalenessSeconds := by
  simp only [Sep38Rate.fresh, hbase, hrate, hscale, Bool.and_eq_true, decide_eq_true_eq, true_and]
  omega

/-- Dividing what fits by a scale fits. -/
theorem checkedDiv_of_pos {x scale : Int} (hx : 0 ≤ x) (hscale : 0 < scale)
    (hfits : I128.InRange x) : I128.checkedDiv x scale = some (x / scale) := by
  have hle : x / scale ≤ x := Int.ediv_le_self scale hx
  have hrange : I128.InRange (x / scale) :=
    hfits.of_nonneg_of_le (Int.ediv_nonneg hx hscale.le) hle
  have hdiv : x.tdiv scale = x / scale := Int.tdiv_eq_ediv_of_nonneg hx
  simp [I128.checkedDiv, hscale.ne', I128.check, hdiv, hrange]

/-- A claim is valued by the rate in use. -/
theorem Rated.valued (h : Rated older env) (htoken : env.grantToken = some tokenAddr)
    (hamount : 0 < amount) :
    Valued (newestRate older) (claimValueOf env grantId recipient tokenAddr amount) := by
  have hcurrent : env.sep38Rate tokenAddr env.sep38DefaultFiat = newestRate older := by
    have hcurrent := h.current
    simpa [currentRate, htoken] using hcurrent
  have hquote : ∀ rate ∈ newestRate older, rate.fresh tokenAddr env.timestamp = true ↔
      rate.oracleTimestamp ≤ env.timestamp ∧
        env.timestamp ≤ rate.oracleTimestamp + sep38StalenessSeconds := by
    intro rate hrate
    obtain ⟨hbase, hpos, hscale⟩ := h.sound rate hrate
    exact Sep38Rate.fresh_iff (Option.some.inj (hbase.symm.trans htoken)) hpos hscale env.timestamp
  refine ⟨h.fiat, fun rate hrate husable => ?_, fun hunusable => ?_⟩
  · obtain ⟨-, hpos, hscale⟩ := h.sound rate hrate
    have hfresh := (hquote rate hrate).mpr ⟨husable.inPast, husable.recent⟩
    have hfits : I128.InRange (amount * rate.rate) := husable.fits
    have hdiv := checkedDiv_of_pos (Int.mul_nonneg hamount.le hpos.le) hscale hfits
    have hmul : I128.checkedMul amount rate.rate = some (amount * rate.rate) := if_pos hfits
    rw [hrate] at hcurrent
    simp [claimValueOf, quoteSep38Claim, hcurrent, hfresh, hmul, hdiv]
  · cases hnewest : newestRate older with
    | none =>
        rw [hnewest] at hcurrent
        simp [claimValueOf, quoteSep38Claim, hcurrent]
    | some rate =>
        rw [hnewest] at hcurrent
        by_cases hfresh : rate.fresh tokenAddr env.timestamp = true
        · obtain ⟨hpast, hrecent⟩ := (hquote rate hnewest).mp hfresh
          have hmul : I128.checkedMul amount rate.rate = none :=
            if_neg fun hfits => hunusable rate hnewest ⟨hpast, hrecent, hfits⟩
          simp [claimValueOf, quoteSep38Claim, hcurrent, hfresh, hmul]
        · simp [claimValueOf, quoteSep38Claim, hcurrent, hfresh]

/-- The step logged the claim, valued by what was set before it. -/
structure Logged (grantId : Nat) (value : ClaimFiatValue) (e : Run.Step Env Event)
    (older : Trace) : Prop where
  called : called e = some (.withdraw grantId value.tokenAmount)
  time : value.claimLedgerTimestamp = e.action.timestamp
  valued : Valued (newestRate older) value

theorem logged_of_reachable (h : Reachable trace env)
    (hvalue : env.claimValue grantId index = some value) :
    ∃ newer e older, trace = newer ++ e :: older ∧ Logged grantId value e older := by
  induction h with
  | start h =>
      obtain ⟨_, _, _, rfl⟩ := h
      cases hvalue
  | @step trace env event env' hrun hn ih =>
      have hearlier (hold : env.claimValue grantId index = some value) :
          ∃ newer e older, ⟨env, event, env'⟩ :: trace = newer ++ e :: older ∧
            Logged grantId value e older := by
        obtain ⟨newer, e, older, rfl, hlogged⟩ := ih hold
        exact ⟨⟨env, event, env'⟩ :: newer, e, older, rfl, hlogged⟩
      rcases called_of_next hn with ⟨-, hframe⟩ | ⟨call, hcalled, hexec⟩
      · exact hearlier ((hframe.same .claims (by decide)).2 ▸ hvalue)
      · by_cases hclaims : Region.claims ∈ call.writes
        · cases call <;> simp [Call.writes] at hclaims
          case withdraw id amount =>
            obtain ⟨recipient, tokenAddr, htoken, hamount, hlog⟩ := withdraw_claimValue hexec
            rw [hlog] at hvalue
            by_cases hentry : grantId = id ∧ index = nextClaimIndex (env.enter event) id
            · obtain ⟨rfl, rfl⟩ := hentry
              rw [Function.update_self, Function.update_self] at hvalue
              obtain rfl := Option.some.inj hvalue
              have hrated : Rated trace (env.enter event) := by
                have hrated := rated_of_reachable hrun
                exact ⟨hrated.unset, hrated.current, hrated.fiat, hrated.sound⟩
              exact ⟨[], _, trace, rfl, hcalled, rfl, hrated.valued htoken hamount⟩
            · refine hearlier ?_
              by_cases hid : grantId = id
              · subst hid
                have hindex : index ≠ nextClaimIndex (env.enter event) grantId :=
                  fun heq => hentry ⟨rfl, heq⟩
                rw [Function.update_self, Function.update_of_ne hindex] at hvalue
                exact hvalue
              · rw [Function.update_of_ne hid] at hvalue
                exact hvalue
          case pruneFinalizedGrant =>
            obtain ⟨-, -, hlog, -⟩ := pruneFinalizedGrant_left hexec
            exact hearlier (hlog ▸ hvalue)
        · exact hearlier (((frame_of_exec hexec).same .claims hclaims).2 ▸ hvalue)

/-- The oracle set the rate. -/
structure SetByOracle (rate : Sep38Rate) (e : Run.Step Env Event) : Prop where
  called : called e = some (.setSep38Rate rate.quoteAsset rate.rate rate.scale
    rate.oracleTimestamp rate.sourceLedgerSequence)
  signed : ∃ oracle, e.before.oracle = some oracle ∧ oracle ∈ e.action.auths
  inPast : rate.oracleTimestamp ≤ e.action.timestamp

theorem setByOracle_of_ratedBy (hn : Next e.before e.action e.after) (h : ratedBy e = some rate) :
    SetByOracle rate e := by
  have hset := rateSet_of_ratedBy hn h
  refine ⟨?_, hset.signed, hset.inPast⟩
  unfold ratedBy at h
  split at h
  · next hcalled =>
      obtain ⟨tokenAddr, -, rfl⟩ := Option.map_eq_some_iff.mp h
      exact hcalled
  · cases h

/-- The newest rate is that of a step after which no other rate was set. -/
theorem newestRate_source (h : newestRate trace = some rate) :
    ∃ newer e older, trace = newer ++ e :: older ∧ ratedBy e = some rate ∧
      ∀ e' ∈ newer, ratedBy e' = none := by
  rcases Run.lastWritten_cases (fun e => (ratedBy e).map some) none trace with
    ⟨-, hnone⟩ | ⟨newer, e, older, htrace, hwritten, hnewer⟩
  · cases h.symm.trans hnone
  · have hlast : Run.lastWritten (fun e => (ratedBy e).map some) none trace = some rate := h
    rw [hlast] at hwritten
    refine ⟨newer, e, older, htrace, ?_, fun e' he' => ?_⟩
    · obtain ⟨rate', hrated, heq⟩ := Option.map_eq_some_iff.mp hwritten
      rw [hrated, heq]
    · exact Option.map_eq_none_iff.mp (hnewer e' he')

/-- **Provenance of the fiat values.** In every run, every entry of the claim log of a grant was
written by a withdrawal of its amount. It is in the fiat asset of the rate that was set last before
that withdrawal, and valued by that rate, if the rate was not more than five minutes old and the
product fits; otherwise it is flagged, and its value is zero. And that rate was set by the oracle. -/
theorem claim_values_sourced (h : Reachable trace env)
    (hvalue : env.claimValue grantId index = some value) :
    ∃ newer e older, trace = newer ++ e :: older ∧ Logged grantId value e older ∧
      ∀ rate ∈ newestRate older, ∃ middle e' oldest, older = middle ++ e' :: oldest ∧
        SetByOracle rate e' ∧ ∀ e'' ∈ middle, ratedBy e'' = none := by
  obtain ⟨newer, e, older, rfl, hlogged⟩ := logged_of_reachable h hvalue
  refine ⟨newer, e, older, rfl, hlogged, fun rate hrate => ?_⟩
  obtain ⟨middle, e', oldest, rfl, hrated, hmiddle⟩ := newestRate_source hrate
  have hrun := (Run.suffix h).uncons.1
  obtain ⟨_, -, hn⟩ := hrun.of_mem (List.mem_append_right middle (List.mem_cons_self ..))
  exact ⟨middle, e', oldest, rfl, setByOracle_of_ratedBy hn hrated, hmiddle⟩

namespace Demo

/-- A claim a minute after a rate of 2.5 euros was set. -/
def valued : Trace × Env :=
  history Demo.env (setUp 100000000 ++
    [Demo.call 1 (.createGrant 7 grantee 60000000 1000000 0 none none),
      Demo.call 5 (.setSep38Rate "EUR" 25 10 4 1), Demo.call 65 (.withdraw 7 20000000)])

end Demo

theorem claim_values_sourced_of_claim :
    ∃ value e older, Demo.valued.2.claimValue 7 1 = some value ∧ value.fiatValue = 50000000 ∧
      Logged 7 value e older := by
  obtain ⟨value, hvalue⟩ : ∃ value, Demo.valued.2.claimValue 7 1 = some value :=
    Option.isSome_iff_exists.mp (by decide)
  obtain ⟨_, e, older, -, hlogged, -⟩ :=
    claim_values_sourced (history_reachable Demo.env_deployed (by decide)) hvalue
  have hfiat : (Demo.valued.2.claimValue 7 1).map (·.fiatValue) = some 50000000 := by decide
  rw [hvalue] at hfiat
  exact ⟨value, e, older, hvalue, Option.some.inj hfiat, hlogged⟩

end YieldTrust.GrantStream
