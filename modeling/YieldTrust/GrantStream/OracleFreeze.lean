import YieldTrust.GrantStream.BreakerSteps

/-!
# YieldTrust.GrantStream.OracleFreeze

The oracle price guard over whole runs: how a price that deviates by half or more
freezes the contract, what the primary oracle can do about it alone, and why
nobody can confirm a price. `set_sanity_oracle` and `confirm_oracle_price` use
different storage keys for the sanity oracle, and different ones for the freeze
flag are written on confirmation and read by `is_oracle_frozen`.
-/

namespace YieldTrust.GrantStream

open Fallible CircuitBreakers

/-! ### Deviation -/

/-- `price` differs by half of `last` or more. -/
def Deviates (last price : Int) : Prop := 0 < last ∧ last ≤ 2 * |price - last|

instance (last price : Int) : Decidable (Deviates last price) :=
  inferInstanceAs (Decidable (_ ∧ _))

/-- The largest price at which the guard can tell a deviation: half of it in basis
points still is an `i128`. -/
def guardedPrice : Int := I128.max / priceDeviationBps

/-- The guard works up to `guardedPrice`; beyond it nothing trips it. -/
theorem tripsGuard_iff {last price : Int} :
    TripsGuard last price ↔ Deviates last price ∧ last ≤ guardedPrice := by
  have hdiff : (if price > last then price - last else last - price) = |price - last| := by
    split_ifs with h
    · exact (abs_of_pos (by omega)).symm
    · rw [abs_of_nonpos (by omega), neg_sub]
  unfold TripsGuard Deviates
  rw [hdiff]
  have hnonneg : 0 ≤ |price - last| := abs_nonneg _
  constructor
  · intro ⟨hlast, hbps⟩
    have hbps := (le_bpsOf hnonneg hlast).mp hbps
    unfold guardedPrice priceDeviationBps at *
    omega
  · intro ⟨⟨hlast, hhalf⟩, hguarded⟩
    refine ⟨hlast, (le_bpsOf hnonneg hlast).mpr ?_⟩
    unfold guardedPrice priceDeviationBps at *
    omega

/-! ### A tripped guard -/

/-- The step submits a price that deviates from the last accepted one. -/
def TripsOn (e : Run.Step Env Event) (price : Int) : Prop :=
  called e = some (.submitOraclePrice price) ∧ Deviates e.before.breakers.lastPric price

/-- The step is a successful confirmation. -/
def Confirms (e : Run.Step Env Event) : Prop :=
  ∃ caller price, called e = some (.confirmOraclePrice caller price)

/-- The calls that need a price that is not frozen. -/
def Call.needsPrice : Call → Bool
  | .withdraw .. | .applyKpiMultiplier .. => true
  | _ => false

/-- The contract is frozen at the accepted price `last`. -/
structure FrozenAt (last : Int) (env : Env) : Prop where
  frozen : isOracleFrozen env = true
  price : env.breakers.lastPric = last
  blocked : ∀ timestamp sequence auths call, call.needsPrice = true →
    ∀ env', env.attempt timestamp sequence auths call ≠ .ok env'

theorem blocked_of_frozen {env env' : Env} {timestamp sequence : Nat} {auths : List Address}
    {call : Call} (hfrozen : isOracleFrozen env = true) (hcall : call.needsPrice = true) :
    env.attempt timestamp sequence auths call ≠ .ok env' := by
  intro h
  cases call <;> simp only [Call.needsPrice, Bool.false_eq_true] at hcall
  case withdraw grantId amount =>
    have hop : (Call.withdraw grantId amount).breakerOp? = some (.withdraw grantId amount) := rfl
    cases breakerStep_of_exec hop h with
    | withdraw hclear _ _ _ => exact Bool.false_ne_true (hclear.symm.trans hfrozen)
  case applyKpiMultiplier grantId multiplier =>
    obtain ⟨_, -, h⟩ := bind_eq_ok.mp h
    obtain ⟨_, -, h⟩ := bind_eq_ok.mp h
    obtain ⟨_, hclear, -⟩ := bind_eq_ok.mp h
    exact Bool.false_ne_true ((ensure_eq_ok.mp hclear).symm.trans hfrozen)

theorem FrozenAt.of_frozen {env : Env} {last : Int} (hfrozen : isOracleFrozen env = true)
    (hprice : env.breakers.lastPric = last) : FrozenAt last env :=
  ⟨hfrozen, hprice, fun _ _ _ _ hcall _ => blocked_of_frozen hfrozen hcall⟩

theorem breakerOp_of_called {e : Run.Step Env Event} {call : Call} (h : called e = some call) :
    breakerOp e = call.breakerOp? := by
  unfold breakerOp
  rw [h]
  rfl

theorem called_of_submitPrice {e : Run.Step Env Event} {price : Int}
    (h : breakerOp e = some (.submitPrice price)) : called e = some (.submitOraclePrice price) := by
  obtain ⟨call, hcalled, hop⟩ := Option.bind_eq_some_iff.mp h
  rw [hcalled]
  cases call <;> cases hop
  rfl

theorem called_of_confirmPrice {e : Run.Step Env Event} {caller : Address} {price : Int}
    (h : breakerOp e = some (.confirmPrice caller price)) :
    called e = some (.confirmOraclePrice caller price) := by
  obtain ⟨call, hcalled, hop⟩ := Option.bind_eq_some_iff.mp h
  rw [hcalled]
  cases call <;> cases hop
  rfl

/-- Submitting a price from `last` on trips the guard and keeps the price, or is
accepted and clears all flags. -/
theorem submit_step {e : Run.Step Env Event} (hn : Next e.before e.action e.after) {price : Int}
    (hcalled : called e = some (.submitOraclePrice price)) :
    (TripsGuard e.before.breakers.lastPric price ∧ isOracleFrozen e.after = true ∧
        e.after.breakers.lastPric = e.before.breakers.lastPric) ∨
      ¬TripsGuard e.before.breakers.lastPric price ∧ isOracleFrozen e.after = false := by
  have hstep := breakerStep_of_op hn (breakerOp_of_called hcalled)
  unfold isOracleFrozen
  generalize e.after.breakers = b' at hstep ⊢
  cases hstep with
  | acceptPrice _ haccept hb =>
      subst hb
      exact .inr ⟨haccept, rfl⟩
  | rejectPrice _ htrips hb =>
      subst hb
      exact .inl ⟨htrips, rfl, rfl⟩

/-- No other call than a submission and a confirmation changes the flags and the price. -/
theorem frozenAt_of_other_step {e : Run.Step Env Event} (hn : Next e.before e.action e.after)
    (hconfirms : ¬Confirms e) (hsubmits : ∀ price, called e ≠ some (.submitOraclePrice price))
    {last : Int} (h : FrozenAt last e.before) : FrozenAt last e.after := by
  have hfrozen := h.frozen
  have hprice := h.price
  unfold isOracleFrozen at hfrozen
  have hafter : (e.after.breakers.oraFrozen || e.after.breakers.oraFrozenDueToNoHeartbeat) = true ∧
      e.after.breakers.lastPric = last := by
    rcases breakers_of_next hn with ⟨-, hsame⟩ | ⟨op, hop, hstep⟩
    · rw [hsame]
      exact ⟨hfrozen, hprice⟩
    · generalize e.after.breakers = b' at hstep ⊢
      cases hstep with
      | withdraw hclear _ _ _ => exact absurd (hclear.symm.trans hfrozen) Bool.false_ne_true
      | acceptPrice | rejectPrice => exact absurd (called_of_submitPrice hop) (hsubmits _)
      | confirmPrice => exact absurd ⟨_, _, called_of_confirmPrice hop⟩ hconfirms
      | setSanityOracle hb | updateTvl _ hb | checkRent hb | disableRentPreservation hb
      | resumeWithdrawals hb | dispute hb | resumeCreation hb =>
          subst hb
          exact ⟨hfrozen, hprice⟩
  exact .of_frozen hafter.1 hafter.2

/-- One step keeps the contract frozen exactly if it submits no other than deviating prices. -/
theorem frozenAt_step_iff {e : Run.Step Env Event} (hn : Next e.before e.action e.after)
    (hconfirms : ¬Confirms e) {last : Int} (hguarded : last ≤ guardedPrice)
    (h : FrozenAt last e.before) :
    FrozenAt last e.after ↔
      ∀ price, called e = some (.submitOraclePrice price) → Deviates last price := by
  constructor
  · intro hafter price hcalled
    rcases submit_step hn hcalled with ⟨htrips, -⟩ | ⟨-, hclear⟩
    · rw [h.price] at htrips
      exact (tripsGuard_iff.mp htrips).1
    · exact absurd (hclear.symm.trans hafter.frozen) Bool.false_ne_true
  · intro hdeviates
    by_cases hsubmits : ∃ price, called e = some (.submitOraclePrice price)
    · obtain ⟨price, hcalled⟩ := hsubmits
      have htrips := tripsGuard_iff.mpr ⟨hdeviates price hcalled, hguarded⟩
      rw [← h.price] at htrips
      rcases submit_step hn hcalled with ⟨-, hfrozen, hprice⟩ | ⟨haccept, -⟩
      · exact .of_frozen hfrozen (hprice.trans h.price)
      · exact absurd htrips haccept
    · exact frozenAt_of_other_step hn hconfirms (fun price hcalled => hsubmits ⟨price, hcalled⟩) h

/-! ### A freeze over a run -/

/-- A run that goes through `trip` leads to the state after the newest step. -/
theorem exists_after_eq {newer older : Trace} {trip : Run.Step Env Event} {env : Env}
    (h : Reachable (newer ++ trip :: older) env) : ∃ e ∈ newer ++ [trip], e.after = env := by
  cases newer with
  | nil => exact ⟨trip, List.mem_singleton_self trip, h.uncons.2.2⟩
  | cons e newer => exact ⟨e, List.mem_cons_self, h.uncons.2.2⟩

/-- **A tripped freeze** stays until a confirmation, with the price it was tripped at,
exactly if the guard could tell the deviation and every price submitted in the
meantime deviates from the same price. -/
theorem freeze_held_iff {newer older : Trace} {trip : Run.Step Env Event} {env : Env}
    (h : Reachable (newer ++ trip :: older) env) {price : Int} (htrip : TripsOn trip price)
    (hconfirms : ∀ e ∈ newer, ¬Confirms e) :
    (∀ e ∈ newer ++ [trip], FrozenAt trip.before.breakers.lastPric e.after) ↔
      trip.before.breakers.lastPric ≤ guardedPrice ∧
        ∀ e ∈ newer, ∀ price', called e = some (.submitOraclePrice price') →
          Deviates trip.before.breakers.lastPric price' := by
  induction newer generalizing env with
  | nil =>
      obtain ⟨-, hn, -⟩ := h.uncons
      obtain ⟨hcalled, hdeviates⟩ := htrip
      simp only [List.nil_append, List.mem_singleton, forall_eq, List.not_mem_nil, false_implies,
        implies_true, and_true]
      rcases submit_step hn hcalled with ⟨htrips, hfrozen, hprice⟩ | ⟨haccept, hclear⟩
      · exact iff_of_true (.of_frozen hfrozen hprice) (tripsGuard_iff.mp htrips).2
      · refine iff_of_false (fun hheld => ?_) fun hguarded => ?_
        · exact Bool.false_ne_true (hclear.symm.trans hheld.frozen)
        · exact haccept (tripsGuard_iff.mpr ⟨hdeviates, hguarded⟩)
  | cons e newer ih =>
      obtain ⟨hrun, hn, -⟩ := h.uncons
      obtain ⟨hconfirm, hconfirms⟩ := List.forall_mem_cons.mp hconfirms
      have ih := ih hrun hconfirms
      obtain ⟨e', he', hbefore⟩ := exists_after_eq hrun
      rw [List.cons_append, List.forall_mem_cons, List.forall_mem_cons]
      constructor
      · intro ⟨hafter, hheld⟩
        obtain ⟨hguarded, hdeviates⟩ := ih.mp hheld
        have hframe := hheld e' he'
        rw [hbefore] at hframe
        exact ⟨hguarded, (frozenAt_step_iff hn hconfirm hguarded hframe).mp hafter, hdeviates⟩
      · intro ⟨hguarded, hdeviate, hdeviates⟩
        have hheld := ih.mpr ⟨hguarded, hdeviates⟩
        have hframe := hheld e' he'
        rw [hbefore] at hframe
        exact ⟨(frozenAt_step_iff hn hconfirm hguarded hframe).mpr hdeviate, hheld⟩

/-- The price doubles, and is submitted again. -/
theorem freeze_held_iff_of_repeated_price :
    let run := history Demo.env (Demo.setUp 0 ++ [Demo.call 2 (.submitOraclePrice 100),
      Demo.call 3 (.submitOraclePrice 200), Demo.call 4 (.submitOraclePrice 210)])
    ∃ e trip older, run.1 = e :: trip :: older ∧ FrozenAt 100 e.after := by
  intro run
  have hrun : Reachable run.1 run.2 := history_reachable Demo.env_deployed (by decide)
  refine ⟨_, _, _, rfl, ?_⟩
  refine (@freeze_held_iff [_] _ _ _ hrun 200 ⟨rfl, by decide⟩ ?_).mpr ⟨by decide, ?_⟩ _
    (List.mem_cons_self ..)
  · intro e he ⟨caller, price, hcalled⟩
    rw [List.mem_singleton.mp he] at hcalled
    cases hcalled
  · intro e he price hcalled
    rw [List.mem_singleton.mp he] at hcalled
    cases hcalled
    decide

/-- The price doubles, and comes back: the primary oracle lifts the freeze. -/
theorem freeze_held_iff_returning_price :
    ¬∀ (newer older : Trace) (trip : Run.Step Env Event) (env : Env) (price : Int),
      Reachable (newer ++ trip :: older) env → TripsOn trip price →
      (∀ e ∈ newer, ¬Confirms e) →
      ∀ e ∈ newer ++ [trip], FrozenAt trip.before.breakers.lastPric e.after := by
  intro h
  let run := history Demo.env (Demo.setUp 0 ++ [Demo.call 2 (.submitOraclePrice 100),
    Demo.call 3 (.submitOraclePrice 200), Demo.call 4 (.submitOraclePrice 100)])
  have hrun : Reachable run.1 run.2 := history_reachable Demo.env_deployed (by decide)
  have hframe := h [_] _ _ _ 200 hrun ⟨rfl, by decide⟩ (by
    intro e he ⟨caller, price, hcalled⟩
    rw [List.mem_singleton.mp he] at hcalled
    cases hcalled) _ (List.mem_cons_self ..)
  exact absurd hframe.frozen (by decide)

/-! ### Confirming a price -/

/-- No call registers the address that `confirm_oracle_price` asks for. -/
theorem sanityOracle_unset {trace : Trace} {env : Env} (h : Reachable trace env) :
    env.breakers.sanityOracle = none := by
  refine breaker_induction (I := fun _ b => b.sanityOracle = none) rfl
    (fun _ ih _ _ => ih) ?_ h
  intro tr e op _ ih _ hstep
  generalize e.after.breakers = b' at hstep ⊢
  cases hstep with
  | confirmPrice _ hsanity _ _ => cases ih.symm.trans hsanity
  | withdraw _ _ _ hb | acceptPrice _ _ hb | rejectPrice _ _ hb | setSanityOracle hb
  | updateTvl _ hb | checkRent hb | disableRentPreservation hb | resumeWithdrawals hb
  | dispute hb | resumeCreation hb =>
      subst hb
      exact ih

/-- The confirmation of `price` by `sanityOracle` succeeds and lifts the freeze, and the
next price is compared with it. -/
def ConfirmationLifts (env : Env) (timestamp sequence : Nat) (auths : List Address)
    (sanityOracle : Address) (price : Int) : Prop :=
  ∃ env', env.attempt timestamp sequence auths (.confirmOraclePrice sanityOracle price) = .ok env' ∧
    (env'.breakers.oraFrozenDueToNoHeartbeat = false → isOracleFrozen env' = false) ∧
    ∀ next, (recordOraclePrice env' next).2 = !decide (TripsGuard price next)

/-- **No freeze is ever lifted** by a confirmation: the sanity oracle that was just
registered is turned away like everybody else, whoever authorizes the call. -/
theorem confirmation_never_lifts {trace : Trace} {env : Env} {e : Run.Step Env Event}
    (h : Reachable (e :: trace) env) {sanityOracle : Address}
    (hset : called e = some (.setSanityOracle sanityOracle)) {price : Int} (hpos : 0 < price)
    (timestamp sequence : Nat) (auths : List Address) :
    env.breakers.sanityOra = some sanityOracle ∧
      env.attempt timestamp sequence auths (.confirmOraclePrice sanityOracle price) =
        .error (.error .notSanityOracle) ∧
      ¬ConfirmationLifts env timestamp sequence auths sanityOracle price := by
  obtain ⟨-, hn, rfl⟩ := h.uncons
  have hregistered : e.after.breakers.sanityOra = some sanityOracle := by
    have hstep := breakerStep_of_op hn (breakerOp_of_called hset)
    generalize e.after.breakers = b' at hstep ⊢
    cases hstep with
    | setSanityOracle hb =>
        subst hb
        rfl
  have hfails : e.after.attempt timestamp sequence auths (.confirmOraclePrice sanityOracle price) =
      .error (.error .notSanityOracle) := by
    have hnone := sanityOracle_unset h
    have henter : ∀ event, (e.after.enter event).breakers.sanityOracle = none := fun _ => hnone
    unfold Env.attempt
    show GrantStream.confirmOraclePrice _ _ _ = _
    unfold GrantStream.confirmOraclePrice CircuitBreakers.confirmOraclePrice ensure
    rw [henter, if_pos hpos]
    rfl
  refine ⟨hregistered, hfails, ?_⟩
  rintro ⟨env', hok, -⟩
  cases hfails.symm.trans hok

/-- A sanity oracle is registered after the price doubled, and confirms. -/
theorem confirmation_never_lifts_of_doubled_price :
    let run := history Demo.env (Demo.setUp 0 ++ [Demo.call 2 (.submitOraclePrice 100),
      Demo.call 3 (.submitOraclePrice 200), Demo.call 4 (.setSanityOracle Demo.donor)])
    run.2.breakers.sanityOra = some Demo.donor ∧
      run.2.attempt 5 0 [Demo.donor] (.confirmOraclePrice Demo.donor 200) =
        .error (.error .notSanityOracle) ∧
      ¬ConfirmationLifts run.2 5 0 [Demo.donor] Demo.donor 200 := by
  intro run
  have hrun : Reachable run.1 run.2 := history_reachable Demo.env_deployed (by decide)
  exact @confirmation_never_lifts _ _ _ hrun Demo.donor rfl 200 (by decide) 5 0 [Demo.donor]

/-- The same run refutes that a freeze can be lifted. -/
theorem confirmation_never_lifts_frozen_price :
    ¬∀ (trace : Trace) (env : Env) (e : Run.Step Env Event) (sanityOracle : Address) (price : Int)
      (auths : List Address) (timestamp sequence : Nat), Reachable (e :: trace) env →
      called e = some (.setSanityOracle sanityOracle) → 0 < price → sanityOracle ∈ auths →
      ConfirmationLifts env timestamp sequence auths sanityOracle price := by
  intro h
  let run := history Demo.env (Demo.setUp 0 ++ [Demo.call 2 (.submitOraclePrice 100),
    Demo.call 3 (.submitOraclePrice 200), Demo.call 4 (.setSanityOracle Demo.donor)])
  have hrun : Reachable run.1 run.2 := history_reachable Demo.env_deployed (by decide)
  obtain ⟨env', hok, -⟩ := h _ _ _ Demo.donor 200 [Demo.donor] 5 0 hrun rfl (by decide) (by decide)
  have hfails : run.2.attempt 5 0 [Demo.donor] (.confirmOraclePrice Demo.donor 200) =
      .error (.error .notSanityOracle) := rfl
  cases hfails.symm.trans hok

end YieldTrust.GrantStream
