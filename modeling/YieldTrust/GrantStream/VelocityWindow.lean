import Mathlib.Data.Int.ConditionallyCompleteOrder
import Mathlib.Order.ConditionallyCompleteLattice.Basic
import YieldTrust.GrantStream.BreakerSteps

/-!
# YieldTrust.GrantStream.VelocityWindow

The velocity limit over whole runs. The accumulator of the contract is compared
with the withdrawals that the trace records: `tracks_withdrawals` says which of
them it contains, and `velocity_limit` how far it enforces a limit on every
interval of six hours.
-/

namespace YieldTrust.GrantStream

open CircuitBreakers

/-! ### Withdrawals of a run -/

/-- `p` holds of the amount that the step withdraws, if it is a withdrawal. -/
def AtWithdrawal (e : Run.Step Env Event) (p : Int → Prop) : Prop :=
  match breakerOp e with
  | some (.withdraw _ amount) => p amount
  | _ => True

instance (e : Run.Step Env Event) (p : Int → Prop) [DecidablePred p] :
    Decidable (AtWithdrawal e p) := by
  unfold AtWithdrawal
  split <;> infer_instance

theorem atWithdrawal_iff {e : Run.Step Env Event} {p : Int → Prop} :
    AtWithdrawal e p ↔
      ∀ grantId amount, breakerOp e = some (.withdraw grantId amount) → p amount := by
  unfold AtWithdrawal
  constructor
  · intro h grantId amount hop
    rw [hop] at h
    exact h
  · intro h
    split
    · exact h _ _ (by assumption)
    · exact trivial

/-- The time and the amount of a withdrawal. -/
def withdrawalEntry (e : Run.Step Env Event) : Option (Nat × Int) :=
  match breakerOp e with
  | some (.withdraw _ amount) => some (e.action.timestamp, amount)
  | _ => none

/-- The withdrawals that the steps made. -/
def withdrawalEntries (trace : Trace) : Window.Entries Int := trace.filterMap withdrawalEntry

/-- The step is a `resume_after_velocity_check`. -/
def resumesWithdrawals (e : Run.Step Env Event) : Bool :=
  decide (breakerOp e = some .resumeWithdrawals)

/-- The withdrawals since the last `resume_after_velocity_check`. -/
def openWithdrawals (trace : Trace) : Window.Entries Int :=
  Window.openEntries withdrawalEntry resumesWithdrawals trace

theorem withdrawalEntry_of_withdraw {e : Run.Step Env Event} {grantId : Nat} {amount : Int}
    (hop : breakerOp e = some (.withdraw grantId amount)) :
    withdrawalEntry e = some (e.action.timestamp, amount) := by
  unfold withdrawalEntry
  rw [hop]

theorem withdrawalEntry_of_other {e : Run.Step Env Event}
    (hother : ∀ grantId amount, breakerOp e ≠ some (.withdraw grantId amount)) :
    withdrawalEntry e = none := by
  unfold withdrawalEntry
  split
  · exact absurd (by assumption) (hother _ _)
  · rfl

/-! ### What a step does to the window -/

theorem velocityWindow_pos : 0 < velocityWindowSecs := by decide

theorem saturate_caps : Window.Caps I128.saturate where
  zero := by decide
  absorb ha hx := by
    unfold I128.saturate I128.min I128.max
    split_ifs <;> omega
  nonneg ha := by
    unfold I128.saturate I128.min I128.max
    split_ifs <;> omega
  le ha := by
    unfold I128.saturate I128.min I128.max
    split_ifs <;> omega

/-- The three ways a step can treat the window of withdrawals and the soft pause. -/
inductive VelocityEvent (e : Run.Step Env Event) : Prop
  | withdrew {grantId : Nat} {amount : Int}
      (hop : breakerOp e = some (.withdraw grantId amount)) (hpos : 0 < amount)
      (hpaused : e.before.breakers.softPa = false)
      (hwindow : e.after.breakers.withdrawals =
        e.before.breakers.withdrawalsAfter e.action.timestamp amount)
      (hpauses : e.after.breakers.softPa = decide (DrainsTvl
        (e.before.breakers.withdrawalsAfter e.action.timestamp amount).total
        e.before.breakers.tvlSnap))
  | resumed (hop : breakerOp e = some .resumeWithdrawals)
      (hwindow : e.after.breakers.withdrawals = .reopen e.action.timestamp)
  | kept (hwithdraw : ∀ grantId amount, breakerOp e ≠ some (.withdraw grantId amount))
      (hresume : breakerOp e ≠ some .resumeWithdrawals)
      (hwindow : e.after.breakers.withdrawals = e.before.breakers.withdrawals)
      (hsame : e.after.breakers.softPa = e.before.breakers.softPa)

theorem velocityEvent_of_next {e : Run.Step Env Event} (hn : Next e.before e.action e.after) :
    VelocityEvent e := by
  rcases breakers_of_next hn with ⟨hop, hsame⟩ | ⟨op, hop, hstep⟩
  · exact .kept (by simp [hop]) (by simp [hop]) (by rw [hsame]) (by rw [hsame])
  · generalize hb' : e.after.breakers = b' at hstep
    cases hstep with
    | withdraw _ hpaused hpos hb =>
        exact .withdrew hop hpos hpaused (by rw [hb', hb]; rfl) (by rw [hb', hb])
    | resumeWithdrawals hb => exact .resumed hop (by rw [hb', hb]; rfl)
    | acceptPrice _ _ hb | rejectPrice _ _ hb | confirmPrice _ _ _ hb | setSanityOracle hb
    | updateTvl _ hb | checkRent hb | disableRentPreservation hb | dispute hb
    | resumeCreation hb =>
        exact .kept (by simp [hop]) (by simp [hop]) (by rw [hb', hb]; rfl) (by rw [hb', hb])

theorem VelocityEvent.change {e : Run.Step Env Event} (h : VelocityEvent e)
    (htime : e.after.timestamp = e.action.timestamp) :
    Window.Change I128.saturate velocityWindowSecs e.after.timestamp e.before.breakers.withdrawals
      (withdrawalEntry e) (resumesWithdrawals e) e.after.breakers.withdrawals := by
  unfold resumesWithdrawals
  cases h with
  | withdrew hop hpos _ hwindow _ =>
      rw [withdrawalEntry_of_withdraw hop, hop, hwindow, htime]
      exact .counted hpos.le
  | resumed hop hwindow =>
      rw [withdrawalEntry_of_other (by simp [hop]), hop, hwindow, htime]
      exact .reopened
  | kept hwithdraw hresume hwindow _ =>
      rw [withdrawalEntry_of_other hwithdraw, hwindow, decide_eq_false hresume]
      exact .kept

/-- **The accumulator** holds the withdrawals since the last resumption that its window counts. -/
theorem tracks_withdrawals {trace : Trace} {env : Env} (h : Reachable trace env) :
    Window.Tracks I128.saturate velocityWindowSecs env.timestamp env.breakers.withdrawals
      (openWithdrawals trace) := by
  refine Window.tracks_of_run (c := Env.timestamp) (f := fun env => env.breakers.withdrawals)
    saturate_caps velocityWindow_pos ?_ ?_ h
  · rintro env ⟨_, _, _, rfl⟩
    rfl
  · intro e hn
    obtain ⟨hle, htime⟩ := timestamp_of_next hn
    exact ⟨htime ▸ hle, (velocityEvent_of_next hn).change htime⟩

/-! ### Old withdrawals -/

/-- The withdrawals of the six hours up to the step. -/
def lastWithdrawals (e : Run.Step Env Event) (older : Trace) : Window.Entries Int :=
  Window.recent velocityWindowSecs e.action.timestamp (withdrawalEntries (e :: older))

/-- At a withdrawal, the window has a start, or none of the recorded withdrawals is
six hours old. -/
def VelocityFresh (e : Run.Step Env Event) (older : Trace) : Prop :=
  AtWithdrawal e fun _ => e.before.breakers.velWinSt = none →
    ∀ i ∈ withdrawalEntries older, e.action.timestamp < i.1 + velocityWindowSecs

instance (e : Run.Step Env Event) (older : Trace) : Decidable (VelocityFresh e older) :=
  inferInstanceAs (Decidable (AtWithdrawal ..))

/-- What a withdrawal is compared with are withdrawals of the last six hours, and it
engages the soft pause only if these reach 20% of the liquidity. -/
structure VelocityRecent (e : Run.Step Env Event) (older : Trace) : Prop where
  counts : AtWithdrawal e fun _ =>
    Window.CountsOnly I128.saturate e.after.breakers.velAccum (lastWithdrawals e older)
  pauses : AtWithdrawal e fun _ => e.after.breakers.softPa = true →
    e.before.breakers.tvlSnap ≤ 5 * Window.sum (lastWithdrawals e older)

/-- Withdrawals of `total` reach 20% of the liquidity. -/
theorem drainsTvl_iff {total tvl : Int} (htotal : 0 ≤ total) :
    DrainsTvl (I128.saturate total) tvl ↔
      0 < tvl ∧ tvl ≤ 5 * total ∧ tvlDrainBps * tvl ≤ I128.max := by
  have hcap : I128.saturate total = min total I128.max := by
    unfold I128.saturate I128.min I128.max
    split_ifs <;> omega
  unfold DrainsTvl
  constructor
  · intro ⟨htvl, hbps⟩
    have hbps := (le_bpsOf (saturate_caps.nonneg htotal) htvl).mp hbps
    rw [hcap] at hbps
    unfold tvlDrainBps at *
    omega
  · intro ⟨htvl, hreached, hfits⟩
    refine ⟨htvl, (le_bpsOf (saturate_caps.nonneg htotal) htvl).mpr ?_⟩
    rw [hcap]
    unfold tvlDrainBps I128.max at *
    omega

/-- The entries are the withdrawals of the trace, with positive amounts. -/
theorem withdrawalEntries_pos {trace : Trace} {env : Env} (h : Reachable trace env) :
    ∀ i ∈ withdrawalEntries trace, 0 < i.2 := by
  intro i hi
  obtain ⟨e, he, hentry⟩ := List.mem_filterMap.mp hi
  obtain ⟨older, -, hn⟩ := h.of_mem he
  cases velocityEvent_of_next hn with
  | withdrew hop hpos _ _ _ =>
      obtain rfl := Option.some.inj ((withdrawalEntry_of_withdraw hop).symm.trans hentry)
      exact hpos
  | resumed hop _ =>
      cases (withdrawalEntry_of_other (by simp [hop])).symm.trans hentry
  | kept hwithdraw _ _ _ => cases (withdrawalEntry_of_other hwithdraw).symm.trans hentry

/-- The window that a withdrawal leaves counts withdrawals of the last six hours. -/
theorem counted_sublist_last {e : Run.Step Env Event} {older : Trace}
    (h : Reachable (e :: older) e.after) {grantId : Nat} {amount : Int}
    (hop : breakerOp e = some (.withdraw grantId amount)) (hpos : 0 < amount)
    (hfresh : VelocityFresh e older) :
    ((e.before.breakers.withdrawalsAfter e.action.timestamp amount).counted
      (openWithdrawals (e :: older))).Sublist (lastWithdrawals e older) := by
  obtain ⟨hrun, hn, -⟩ := h.uncons
  have htracks := (tracks_withdrawals hrun).wait (timestamp_of_next hn).1
  have hopen : openWithdrawals (e :: older) =
      (e.action.timestamp, amount) :: openWithdrawals older :=
    Window.openEntries_of_entry (by simp [resumesWithdrawals, hop])
      (withdrawalEntry_of_withdraw hop) older
  have hrecent := htracks.counted_add_sublist saturate_caps velocityWindow_pos hpos.le
    fun hnone i hi => atWithdrawal_iff.mp hfresh _ _ hop hnone i
      ((Window.openEntries_sublist older).subset hi)
  rw [hopen]
  refine hrecent.trans ?_
  rw [← hopen]
  exact (Window.openEntries_sublist _).filter _

theorem velocityRecent_of_fresh {e : Run.Step Env Event} {older : Trace}
    (h : Reachable (e :: older) e.after) (hfresh : VelocityFresh e older) :
    VelocityRecent e older := by
  have htracks := tracks_withdrawals h
  cases velocityEvent_of_next h.uncons.2.1 with
  | @withdrew grantId amount hop hpos _ hwindow hpauses =>
      have hsub := counted_sublist_last h hop hpos hfresh
      rw [← hwindow] at hsub
      refine ⟨atWithdrawal_iff.mpr fun _ _ _ => ⟨_, hsub, htracks.total⟩,
        atWithdrawal_iff.mpr fun _ _ _ hpaused => ?_⟩
      have htotal := htracks.total
      rw [hpauses, decide_eq_true_eq, ← hwindow, htotal] at hpaused
      have hreached := (drainsTvl_iff htracks.counted_nonneg).mp hpaused
      have hle := Window.sum_le hsub fun i hi =>
        (withdrawalEntries_pos h i (List.mem_of_mem_filter hi)).le
      omega
  | resumed hop _ => exact ⟨atWithdrawal_iff.mpr (by simp [hop]), atWithdrawal_iff.mpr (by simp [hop])⟩
  | kept hwithdraw _ _ _ =>
      exact ⟨atWithdrawal_iff.mpr fun _ _ hop => absurd hop (hwithdraw _ _),
        atWithdrawal_iff.mpr fun _ _ hop => absurd hop (hwithdraw _ _)⟩

/-! ### Every interval of six hours -/

/-- The withdrawals of the six hours up to the step, since the last resumption, sum up to this. -/
def rollingSum (e : Run.Step Env Event) (older : Trace) : Int :=
  Window.sum (Window.recent velocityWindowSecs e.action.timestamp (openWithdrawals (e :: older)))

/-- A withdrawal that brings those of the last six hours to 20% of `T` leaves the
contract paused. -/
def PausesAt (T : Int) (e : Run.Step Env Event) (older : Trace) : Prop :=
  AtWithdrawal e fun _ => T ≤ 5 * rollingSum e older → e.after.breakers.softPa = true

instance (T : Int) (e : Run.Step Env Event) (older : Trace) : Decidable (PausesAt T e older) :=
  inferInstanceAs (Decidable (AtWithdrawal ..))

/-- While the contract is not paused, no six hours since the last resumption contain
withdrawals of 20% of `T`. -/
def Unbreached (T : Int) (trace : Trace) (env : Env) : Prop :=
  env.breakers.softPa = false →
    ∀ t, 5 * Window.sum (Window.within velocityWindowSecs t (openWithdrawals trace)) < T

/-- A withdrawal that brings those of the last six hours to 20% of `T` also brings what
the window still counts to 20%, and 20% in basis points are in the range of `i128`. -/
def WindowSees (T : Int) (e : Run.Step Env Event) (older : Trace) : Prop :=
  AtWithdrawal e fun amount => T ≤ 5 * rollingSum e older →
    T ≤ 5 * (e.before.breakers.withdrawals.carried velocityWindowSecs e.action.timestamp + amount) ∧
      tvlDrainBps * T ≤ I128.max

instance (T : Int) (e : Run.Step Env Event) (older : Trace) : Decidable (WindowSees T e older) :=
  inferInstanceAs (Decidable (AtWithdrawal ..))

/-- The limit is enforced at a withdrawal exactly if the window sees it. -/
theorem pausesAt_iff {e : Run.Step Env Event} {older : Trace} (h : Reachable (e :: older) e.after)
    {T : Int} (hT : 0 < T) (hconst : AtWithdrawal e fun _ => e.before.breakers.tvlSnap = T) :
    PausesAt T e older ↔ WindowSees T e older := by
  obtain ⟨hrun, hn, -⟩ := h.uncons
  unfold PausesAt WindowSees
  rw [atWithdrawal_iff, atWithdrawal_iff]
  refine forall_congr' fun grantId => forall_congr' fun amount => imp_congr_right fun hop =>
    imp_congr_right fun _ => ?_
  cases velocityEvent_of_next hn with
  | withdrew hop' hpos _ _ hpauses =>
      obtain ⟨rfl, rfl⟩ := BreakerOp.withdraw.inj (Option.some.inj (hop.symm.trans hop'))
      have hcarried := (tracks_withdrawals hrun).carried_nonneg saturate_caps e.action.timestamp
      rw [hpauses, decide_eq_true_eq, atWithdrawal_iff.mp hconst _ _ hop]
      refine (drainsTvl_iff (by omega)).trans ?_
      exact and_iff_right hT
  | resumed hop' _ => cases hop.symm.trans hop'
  | kept hwithdraw _ _ _ => exact absurd hop (hwithdraw _ _)

/-- Enforced at every withdrawal, the limit holds of every interval. -/
theorem unbreached_of_pausesAt {trace : Trace} {env : Env} (h : Reachable trace env) {T : Int}
    (hT : 0 < T) (hpauses : Run.Each (PausesAt T) trace) : Unbreached T trace env := by
  induction h with
  | start =>
      intro _ t
      simpa [openWithdrawals, Window.openEntries, Run.since, Window.within, Window.sum] using hT
  | @step trace env event env' hrun hn ih =>
      obtain ⟨hpause, hpauses⟩ := hpauses
      have ih := ih hpauses
      have hnonneg := (tracks_withdrawals (hrun.step hn)).nonneg
      have htracks := (tracks_withdrawals hrun).wait (timestamp_of_next hn).1
      intro hquiet t
      cases velocityEvent_of_next (e := ⟨env, event, env'⟩) hn with
      | @withdrew grantId amount hop _ hpaused _ _ =>
          by_cases ht : event.timestamp ≤ t
          · -- all withdrawals of the interval are among those of the last six hours
            have hlimit : ¬T ≤ 5 * rollingSum ⟨env, event, env'⟩ trace := fun hreached =>
              Bool.false_ne_true (hquiet.symm.trans (atWithdrawal_iff.mp hpause _ _ hop hreached))
            have hle : Window.sum (Window.within velocityWindowSecs t
                (openWithdrawals (⟨env, event, env'⟩ :: trace))) ≤
                  rollingSum ⟨env, event, env'⟩ trace := by
              refine Window.sum_le (Window.filter_sublist_filter fun i _ hi => ?_) fun i hi =>
                hnonneg i (List.mem_of_mem_filter hi)
              rw [decide_eq_true_eq] at hi ⊢
              exact ht.trans_lt hi.2
            omega
          · -- the interval ended before this withdrawal
            have hnot : ¬(event.timestamp ≤ t ∧ t < event.timestamp + velocityWindowSecs) :=
              fun hin => ht hin.1
            have hih := ih hpaused t
            unfold Window.within openWithdrawals at hih ⊢
            rw [Window.openEntries_of_entry (by simp [resumesWithdrawals, hop])
              (withdrawalEntry_of_withdraw hop), List.filter_cons_of_neg (by simpa using hnot)]
            exact hih
      | resumed hop _ =>
          unfold openWithdrawals
          rw [Window.openEntries_of_reopens (by simp [resumesWithdrawals, hop])]
          simpa [Window.within, Window.sum] using hT
      | kept hwithdraw hresume _ hsame =>
          unfold openWithdrawals
          rw [Window.openEntries_of_none (by simp [resumesWithdrawals, hresume])
            (withdrawalEntry_of_other hwithdraw)]
          exact ih (hsame.symm.trans hquiet) t

/-- The limit at a step: enforced by it, and holding after it. -/
structure VelocityLimited (T : Int) (e : Run.Step Env Event) (older : Trace) : Prop where
  pauses : PausesAt T e older
  unbreached : Unbreached T (e :: older) e.after

/-- **Velocity limit.** In a run with the liquidity `T` the limit of 20% holds of every
rolling window of six hours exactly if the fixed windows see every withdrawal that
reaches it. -/
theorem velocity_limit {trace : Trace} {env : Env} (h : Reachable trace env) {T : Int} (hT : 0 < T)
    (hconst : Run.Each (fun e _ => AtWithdrawal e fun _ => e.before.breakers.tvlSnap = T) trace) :
    Run.Each (VelocityLimited T) trace ↔ Run.Each (WindowSees T) trace := by
  have hsteps : Run.Each (PausesAt T) trace ↔ Run.Each (WindowSees T) trace :=
    Run.each_iff h hconst fun hrun hconst => pausesAt_iff hrun hT hconst
  rw [← hsteps]
  constructor
  · intro hlimited
    exact Run.each_imp h hlimited fun _ hall => hall.1.pauses
  · intro hpauses
    exact Run.each_imp h hpauses fun hrun hall => ⟨hall.1, unbreached_of_pausesAt hrun hT hall⟩

/-- A contract with one grant that streams 10^6 a second, and the liquidity 2 · 10^8. -/
def Demo.streaming : List Event :=
  Demo.setUp (10 ^ 12) ++ [Demo.call 1 (.createGrant 7 Demo.grantee (10 ^ 11) (10 ^ 6) 0 none none),
    Demo.call 1 (.updateTvlSnapshot 200000000)]

/-- Two withdrawals of 10% within a minute pause the contract. -/
theorem velocity_limit_of_two_withdrawals :
    let run := history Demo.env (Demo.streaming ++
      [Demo.call 21 (.withdraw 7 20000000), Demo.call 41 (.withdraw 7 20000000)])
    run.2.breakers.softPa = true ∧ Run.Each (VelocityLimited 200000000) run.1 := by
  intro run
  have hrun : Reachable run.1 run.2 := history_reachable Demo.env_deployed (by decide)
  exact ⟨by decide, (velocity_limit hrun (by decide) (by decide)).mpr (by decide)⟩

/-- The window that was opened at 2 ends between the two withdrawals. -/
theorem velocity_limit_across_windows :
    ¬∀ (trace : Trace) (env : Env) (T : Int), Reachable trace env → 0 < T →
      Run.Each (fun e _ => AtWithdrawal e fun _ => e.before.breakers.tvlSnap = T) trace →
      Run.Each (VelocityLimited T) trace := by
  intro h
  let run := history Demo.env (Demo.streaming ++ [Demo.call 2 .resumeAfterVelocityCheck,
    Demo.call 21590 (.withdraw 7 20000000), Demo.call 21610 (.withdraw 7 20000000)])
  have hrun : Reachable run.1 run.2 := history_reachable Demo.env_deployed (by decide)
  exact absurd (h _ _ 200000000 hrun (by decide) (by decide)).1.pauses (by decide)

end YieldTrust.GrantStream
