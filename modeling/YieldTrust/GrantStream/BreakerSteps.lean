import YieldTrust.GrantStream.Regions
import YieldTrust.Lib.Window

/-!
# YieldTrust.GrantStream.BreakerSteps

The circuit breakers as a state machine. `BreakerStep` is the relation between the
breaker states before and after a successful call that writes to them, with its
guards; `breakers_of_next` says that the contract takes no other steps. The two
counters with a time limit, of withdrawals and of disputes, are tumbling windows.
-/

namespace YieldTrust.GrantStream

open Fallible CircuitBreakers

/-! ### Thresholds -/

/-- A multiple of a basis point is reached if it is within the range of `i128`. -/
theorem le_bpsOf {amount whole bps : Int} (hamount : 0 ≤ amount) (hwhole : 0 < whole) :
    bps ≤ bpsOf amount whole ↔ bps * whole ≤ min (amount * 10000) I128.max := by
  have hmul : I128.saturatingMul amount 10000 = min (amount * 10000) I128.max := by
    unfold I128.saturatingMul I128.saturate I128.min I128.max
    split_ifs <;> omega
  have hmax : (0 : Int) ≤ I128.max := by decide
  generalize hx : min (amount * 10000) I128.max = x at hmul ⊢
  have hnonneg : 0 ≤ x := by omega
  have hdiv : I128.checkedDiv x whole = some (x / whole) := by
    refine I128.checkedDiv_eq_some.mpr ⟨hwhole.ne', ?_, Int.tdiv_eq_ediv_of_nonneg hnonneg⟩
    rw [Int.tdiv_eq_ediv_of_nonneg hnonneg]
    have hrange : I128.InRange I128.max := by decide
    refine hrange.of_nonneg_of_le (Int.ediv_nonneg hnonneg hwhole.le) ?_
    exact (Int.ediv_le_self whole hnonneg).trans (by omega)
  unfold bpsOf
  rw [hmul, hdiv, Option.getD_some]
  exact Int.le_ediv_iff_mul_le hwhole

/-- `price` is outside the range of accepted prices around `last`. -/
def TripsGuard (last price : Int) : Prop :=
  last > 0 ∧ bpsOf (if price > last then price - last else last - price) last ≥ priceDeviationBps

instance (last price : Int) : Decidable (TripsGuard last price) :=
  inferInstanceAs (Decidable (_ ∧ _))

/-- Withdrawals of `total` engage the soft pause. -/
def DrainsTvl (total tvl : Int) : Prop := tvl > 0 ∧ bpsOf total tvl ≥ tvlDrainBps

instance (total tvl : Int) : Decidable (DrainsTvl total tvl) :=
  inferInstanceAs (Decidable (_ ∧ _))

/-- `count` disputes halt grant creation when there are `active` grants. -/
def IsMassDispute (count active : Nat) : Prop :=
  active > 0 ∧ bpsOf (count : Int) (active : Int) ≥ disputeThresholdBps

instance (count active : Nat) : Decidable (IsMassDispute count active) :=
  inferInstanceAs (Decidable (_ ∧ _))

/-! ### Steps of the breakers -/

/-- The operations on the breakers. -/
inductive BreakerOp where
  | withdraw (grantId : Nat) (amount : Int)
  | setSanityOracle (sanityOracle : Address)
  | submitPrice (price : Int)
  | confirmPrice (caller : Address) (price : Int)
  | updateTvl (totalLiquidity : Int)
  | checkRent
  | disableRentPreservation
  | resumeWithdrawals
  | dispute (grantId : Nat)
  | resumeCreation
  deriving DecidableEq

/-- What a call does to the breakers. -/
def Call.breakerOp? : Call → Option BreakerOp
  | .withdraw grantId amount => some (.withdraw grantId amount)
  | .setSanityOracle sanityOracle => some (.setSanityOracle sanityOracle)
  | .submitOraclePrice price => some (.submitPrice price)
  | .confirmOraclePrice caller price => some (.confirmPrice caller price)
  | .updateTvlSnapshot totalLiquidity => some (.updateTvl totalLiquidity)
  | .checkRentBalance => some .checkRent
  | .disableRentPreservationMode => some .disableRentPreservation
  | .resumeAfterVelocityCheck => some .resumeWithdrawals
  | .triggerGrantDispute grantId => some (.dispute grantId)
  | .resumeGrantInitialization => some .resumeCreation
  | _ => none

namespace BreakerState

/-- The window of withdrawals. -/
def withdrawals (b : BreakerState) : Window Int := ⟨b.velWinSt, b.velAccum⟩

/-- The window of disputes. -/
def disputes (b : BreakerState) : Window Nat := ⟨b.dispWin, b.dispAcc⟩

/-- `saturating_add` on a `u32`. -/
def capU32 (n : Nat) : Nat := min n (2 ^ 32 - 1)

/-- The window of withdrawals after one of `amount` at `now`. -/
def withdrawalsAfter (b : BreakerState) (now : Nat) (amount : Int) : Window Int :=
  b.withdrawals.add I128.saturate velocityWindowSecs now amount

/-- The window of disputes after one at `now`. -/
def disputesAfter (b : BreakerState) (now : Nat) : Window Nat :=
  b.disputes.add capU32 disputeWindowSecs now 1

/-- The grants that the next dispute at `now` is compared with, out of `active`: those
at the first dispute of its window. -/
def snapshotAfter (b : BreakerState) (now active : Nat) : Option Nat :=
  if b.disputes.carried disputeWindowSecs now = 0 then some active else b.actGntSn

end BreakerState

/-- `BreakerStep now auths active op b b'`: the call `op` at `now`, authorized by
`auths` and with `active` active grants, turns the breaker state `b` into `b'`. The
flag of the storage rent depends on a balance and is left open. -/
inductive BreakerStep (now : Nat) (auths : List Address) (active : Nat) :
    BreakerOp → BreakerState → BreakerState → Prop
  | withdraw {b b' : BreakerState} {grantId : Nat} {amount : Int} {rent : Bool}
      (hfrozen : (b.oraFrozen || b.oraFrozenDueToNoHeartbeat) = false)
      (hpaused : b.softPa = false) (hpos : 0 < amount)
      (hb : b' = { b with
        velWinSt := (b.withdrawalsAfter now amount).start
        velAccum := (b.withdrawalsAfter now amount).total
        softPa := decide (DrainsTvl (b.withdrawalsAfter now amount).total b.tvlSnap)
        rentPreservationMode := rent }) :
      BreakerStep now auths active (.withdraw grantId amount) b b'
  | setSanityOracle {b b' : BreakerState} {sanityOracle : Address}
      (hb : b' = { b with sanityOra := some sanityOracle }) :
      BreakerStep now auths active (.setSanityOracle sanityOracle) b b'
  | acceptPrice {b b' : BreakerState} {price : Int} (hpos : 0 < price)
      (haccept : ¬TripsGuard b.lastPric price)
      (hb : b' = { b with
        oraHeart := now
        oraFrozenDueToNoHeartbeat := false
        lastPric := price
        oraFrozen := false }) :
      BreakerStep now auths active (.submitPrice price) b b'
  | rejectPrice {b b' : BreakerState} {price : Int} (hpos : 0 < price)
      (htrips : TripsGuard b.lastPric price)
      (hb : b' = { b with
        oraHeart := now
        oraFrozenDueToNoHeartbeat := false
        oraFrozen := true }) :
      BreakerStep now auths active (.submitPrice price) b b'
  | confirmPrice {b b' : BreakerState} {caller : Address} {price : Int} (hpos : 0 < price)
      (hsanity : b.sanityOracle = some caller) (hauth : caller ∈ auths)
      (hb : b' = { b with lastPric := price, oracleFrozen := false }) :
      BreakerStep now auths active (.confirmPrice caller price) b b'
  | updateTvl {b b' : BreakerState} {totalLiquidity : Int} (hnonneg : 0 ≤ totalLiquidity)
      (hb : b' = { b with tvlSnap := totalLiquidity }) :
      BreakerStep now auths active (.updateTvl totalLiquidity) b b'
  | checkRent {b b' : BreakerState} {rent : Bool}
      (hb : b' = { b with rentPreservationMode := rent }) :
      BreakerStep now auths active .checkRent b b'
  | disableRentPreservation {b b' : BreakerState}
      (hb : b' = { b with rentPreservationMode := false }) :
      BreakerStep now auths active .disableRentPreservation b b'
  | resumeWithdrawals {b b' : BreakerState}
      (hb : b' = { b with softPa := false, velWinSt := some now, velAccum := 0 }) :
      BreakerStep now auths active .resumeWithdrawals b b'
  | dispute {b b' : BreakerState} {grantId : Nat}
      (hb : b' = { b with
        dispWin := (b.disputesAfter now).start
        dispAcc := (b.disputesAfter now).total
        actGntSn := b.snapshotAfter now active
        gntHalt := decide (IsMassDispute (b.disputesAfter now).total
          ((b.snapshotAfter now active).getD active)) || b.gntHalt }) :
      BreakerStep now auths active (.dispute grantId) b b'
  | resumeCreation {b b' : BreakerState}
      (hb : b' = { b with gntHalt := false, dispWin := some now, dispAcc := 0, actGntSn := some 0 }) :
      BreakerStep now auths active .resumeCreation b b'

/-! ### The contract takes these steps -/

theorem recordOraclePrice_step (env : Env) {price : Int} {auths : List Address} {active : Nat}
    (hpos : 0 < price) : BreakerStep env.timestamp auths active (.submitPrice price) env.breakers
      (recordOraclePrice env price).1 := by
  by_cases h : TripsGuard env.breakers.lastPric price
  · exact .rejectPrice hpos h (congrArg Prod.fst (if_pos h))
  · exact .acceptPrice hpos h (congrArg Prod.fst (if_neg h))

theorem recordDispute_step (env : Env) {auths : List Address} {active grantId : Nat} :
    BreakerStep env.timestamp auths active (.dispute grantId) env.breakers
      (recordDispute env active).1 := by
  refine .dispute ?_
  unfold recordDispute BreakerState.snapshotAfter BreakerState.disputesAfter Window.add
    Window.carried BreakerState.disputes BreakerState.capU32 IsMassDispute Window.Expired
  by_cases hexp : disputeWindowSecs ≤ env.timestamp - env.breakers.dispWin.getD env.timestamp
  all_goals simp [hexp]

theorem recordWithdrawalVelocity_eq_ok {env : Env} {amount : Int} {r : BreakerState × Bool}
    (h : recordWithdrawalVelocity env amount = .ok r) :
    env.breakers.softPa = false ∧ 0 < amount ∧ r.1 = { env.breakers with
      velWinSt := (env.breakers.withdrawalsAfter env.timestamp amount).start
      velAccum := (env.breakers.withdrawalsAfter env.timestamp amount).total
      softPa := decide (DrainsTvl (env.breakers.withdrawalsAfter env.timestamp amount).total
        env.breakers.tvlSnap) } := by
  unfold recordWithdrawalVelocity at h
  simp only [bind_eq_ok, ensure_eq_ok, require_eq_ok, pure_eq_ok] at h
  obtain ⟨_, hpaused, _, hpos, rfl⟩ := h
  refine ⟨hpaused, hpos, ?_⟩
  unfold BreakerState.withdrawalsAfter Window.add Window.carried BreakerState.withdrawals DrainsTvl
    Window.Expired I128.saturatingAdd
  by_cases hexp : velocityWindowSecs ≤ env.timestamp - env.breakers.velWinSt.getD env.timestamp
  all_goals simp [hexp]

theorem breaker_mem_writes {call : Call} (h : call.breakerOp? = none) :
    Region.breakers ∉ call.writes := by
  cases call <;> simp_all [Call.breakerOp?, Call.writes]

theorem withdraw_breakerStep {env env' : Env} {grantId active : Nat} {amount : Int}
    (h : withdraw env grantId amount = .ok env') :
    BreakerStep env.timestamp env.auths active (.withdraw grantId amount) env.breakers
      env'.breakers := by
  unfold withdraw payWithdrawal at h
  simp only [bind_eq_ok, ensure_eq_ok] at h
  obtain ⟨grant, _, _, _, _, _, _, _, _, _, _, hfrozen, _, _, g', _, velocity, hvelocity, tokenAddr,
    _, env₁, htransfer, _, _, h⟩ := h
  obtain ⟨hpaused, hpos, hstate⟩ := recordWithdrawalVelocity_eq_ok hvelocity
  -- neither the transfer nor the records behind it write to the breakers
  have hsame := (transfer_frame env₁ htransfer).same .breakers (by decide)
  have hfinal : env'.breakers = env₁.breakers := by
    rw [← pure_eq_ok.mp h]
    exact ((recordClaimValue_frame ..).comp (setReports_frame ..)).same .breakers (by decide)
  rw [hfinal]
  obtain ⟨rent, hrent⟩ : ∃ rent, env₁.breakers = { velocity.1 with rentPreservationMode := rent } :=
    ⟨_, hsame⟩
  rw [hstate] at hrent
  exact .withdraw hfrozen hpaused hpos hrent

/-- A successful call that writes to the breakers is a step of them. -/
theorem breakerStep_of_exec {env env' : Env} {call : Call} {op : BreakerOp}
    (hop : call.breakerOp? = some op) (h : call.exec env = .ok env') :
    BreakerStep env.timestamp env.auths (countActiveGrants env) op env.breakers
      env'.breakers := by
  cases call <;> cases hop
  case withdraw grantId amount => exact withdraw_breakerStep h
  case setSanityOracle sanityOracle =>
    obtain ⟨_, -, h⟩ := bind_eq_ok.mp h
    obtain rfl := pure_eq_ok.mp h
    exact .setSanityOracle rfl
  case submitOraclePrice price =>
    obtain ⟨r, hr, rfl⟩ := map_eq_ok.mp h
    obtain ⟨_, -, hr⟩ := bind_eq_ok.mp hr
    obtain ⟨_, hpos, hr⟩ := bind_eq_ok.mp hr
    obtain rfl := pure_eq_ok.mp hr
    exact recordOraclePrice_step env (ensure_eq_ok.mp hpos)
  case confirmOraclePrice caller price =>
    obtain ⟨_, hpos, h⟩ := bind_eq_ok.mp h
    obtain ⟨b, hb, h⟩ := bind_eq_ok.mp h
    obtain rfl := pure_eq_ok.mp h
    unfold CircuitBreakers.confirmOraclePrice Env.requireAuth at hb
    simp only [bind_eq_ok, okOr_eq_ok, ensure_eq_ok, require_eq_ok, pure_eq_ok] at hb
    obtain ⟨sanityOracle, hsanity, _, rfl, _, hauth, rfl⟩ := hb
    exact .confirmPrice (ensure_eq_ok.mp hpos) hsanity hauth rfl
  case updateTvlSnapshot totalLiquidity =>
    obtain ⟨_, -, h⟩ := bind_eq_ok.mp h
    obtain ⟨_, hnonneg, h⟩ := bind_eq_ok.mp h
    obtain rfl := pure_eq_ok.mp h
    exact .updateTvl (ensure_eq_ok.mp hnonneg) rfl
  case checkRentBalance =>
    obtain ⟨r, hr, rfl⟩ := map_eq_ok.mp h
    obtain ⟨_, -, hr⟩ := bind_eq_ok.mp hr
    obtain rfl := pure_eq_ok.mp hr
    exact .checkRent rfl
  case disableRentPreservationMode =>
    obtain ⟨_, -, h⟩ := bind_eq_ok.mp h
    obtain ⟨b, hb, h⟩ := bind_eq_ok.mp h
    obtain rfl := pure_eq_ok.mp h
    obtain ⟨_, -, hb⟩ := bind_eq_ok.mp hb
    obtain rfl := pure_eq_ok.mp hb
    exact .disableRentPreservation rfl
  case resumeAfterVelocityCheck =>
    obtain ⟨_, -, h⟩ := bind_eq_ok.mp h
    obtain ⟨_, -, h⟩ := bind_eq_ok.mp h
    obtain ⟨b, hb, h⟩ := bind_eq_ok.mp h
    obtain rfl := pure_eq_ok.mp h
    obtain ⟨_, -, hb⟩ := bind_eq_ok.mp hb
    obtain rfl := pure_eq_ok.mp hb
    exact .resumeWithdrawals rfl
  case triggerGrantDispute grantId =>
    obtain ⟨_, -, h⟩ := bind_eq_ok.mp h
    dsimp only at h
    split_ifs at h
    · obtain rfl := pure_eq_ok.mp h
      exact recordDispute_step env
    · obtain ⟨_, -, h⟩ := bind_eq_ok.mp h
      obtain rfl := pure_eq_ok.mp h
      exact recordDispute_step env
  case resumeGrantInitialization =>
    obtain ⟨_, -, h⟩ := bind_eq_ok.mp h
    obtain ⟨b, hb, h⟩ := bind_eq_ok.mp h
    obtain rfl := pure_eq_ok.mp h
    obtain ⟨_, -, hb⟩ := bind_eq_ok.mp hb
    obtain rfl := pure_eq_ok.mp hb
    exact .resumeCreation rfl

/-! ### Runs -/

/-- What the step did to the breakers, if anything. -/
def breakerOp (e : Run.Step Env Event) : Option BreakerOp := (called e).bind Call.breakerOp?

/-- Whatever happens next leaves the breakers alone or is one step of them. -/
theorem breakers_of_next {env env' : Env} {event : Event} (h : Next env event env') :
    (breakerOp ⟨env, event, env'⟩ = none ∧ env'.breakers = env.breakers) ∨
      ∃ op, breakerOp ⟨env, event, env'⟩ = some op ∧
        BreakerStep event.timestamp event.auths (countActiveGrants env) op env.breakers
          env'.breakers :=
  component_of_next (r := .breakers)
    (R := fun env event op b b' =>
      BreakerStep event.timestamp event.auths (countActiveGrants env) op b b') (by decide)
    (fun h => h) breaker_mem_writes (fun hop hexec => breakerStep_of_exec hop hexec) h

theorem breakerStep_of_op {e : Run.Step Env Event} {op : BreakerOp}
    (h : Next e.before e.action e.after) (hop : breakerOp e = some op) :
    BreakerStep e.action.timestamp e.action.auths (countActiveGrants e.before) op
      e.before.breakers e.after.breakers := by
  rcases breakers_of_next h with ⟨hnone, -⟩ | ⟨op', hop', hstep⟩
  · cases hop.symm.trans hnone
  · obtain rfl := Option.some.inj (hop.symm.trans hop')
    exact hstep

/-- **Induction over the history of the breakers.** -/
theorem breaker_induction {I : Trace → BreakerState → Prop} (start : I [] {})
    (idle : ∀ {tr : Trace} {e : Run.Step Env Event}, Reachable tr e.before →
      I tr e.before.breakers → breakerOp e = none → e.after.breakers = e.before.breakers →
      I (e :: tr) e.before.breakers)
    (operated : ∀ {tr : Trace} {e : Run.Step Env Event} {op : BreakerOp},
      Reachable tr e.before → I tr e.before.breakers → breakerOp e = some op →
      BreakerStep e.action.timestamp e.action.auths (countActiveGrants e.before) op
        e.before.breakers e.after.breakers →
      I (e :: tr) e.after.breakers)
    {trace : Trace} {env : Env} (h : Reachable trace env) : I trace env.breakers := by
  refine Run.component_induction (f := Env.breakers) breakers_of_next ?_ ?_ operated h
  · rintro env ⟨_, _, _, rfl⟩
    exact start
  · intro tr e hrun ih hop hsame
    rw [hsame]
    exact idle hrun ih hop hsame

end YieldTrust.GrantStream
