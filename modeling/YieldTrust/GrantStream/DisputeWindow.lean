import Mathlib.Data.Finset.Card
import YieldTrust.GrantStream.Registry
import YieldTrust.GrantStream.VelocityWindow

/-!
# YieldTrust.GrantStream.DisputeWindow

The mass-dispute trigger over whole runs. `trigger_grant_dispute` can be called by
anybody, reads the grant it is given and drops it: the trigger counts calls. Here
the calls of the current window are compared with the grants they name, and with
the grants that were active when the window began.
-/

namespace YieldTrust.GrantStream

open CircuitBreakers

/-! ### Disputes of a run -/

/-- The grant that the step disputes, if it is a dispute. -/
def disputeOf (e : Run.Step Env Event) : Option Nat :=
  match breakerOp e with
  | some (.dispute grantId) => some grantId
  | _ => none

theorem disputeOf_eq_some {e : Run.Step Env Event} {grantId : Nat} :
    disputeOf e = some grantId ↔ breakerOp e = some (.dispute grantId) := by
  unfold disputeOf
  constructor
  · intro h
    split at h
    · rw [← Option.some.inj h]
      assumption
    · cases h
  · intro h
    rw [h]

/-- The time of a dispute, which counts once. -/
def disputeEntry (e : Run.Step Env Event) : Option (Nat × Nat) :=
  (disputeOf e).map fun _ => (e.action.timestamp, 1)

/-- The disputes that the steps raised. -/
def disputeEntries (trace : Trace) : Window.Entries Nat := trace.filterMap disputeEntry

/-- The step is a `resume_grant_initialization`. -/
def resumesCreation (e : Run.Step Env Event) : Bool :=
  decide (breakerOp e = some .resumeCreation)

/-- The disputes since the last `resume_grant_initialization`. -/
def openDisputes (trace : Trace) : Window.Entries Nat :=
  Window.openEntries disputeEntry resumesCreation trace

/-- The number of active grants that the step compares the disputes with. -/
def comparedGrants (e : Run.Step Env Event) : Nat :=
  (e.before.breakers.snapshotAfter e.action.timestamp (countActiveGrants e.before)).getD
    (countActiveGrants e.before)

/-! ### What a step does to the window -/

theorem disputeWindow_pos : 0 < disputeWindowSecs := by decide

theorem capU32_caps : Window.Caps BreakerState.capU32 where
  zero := by decide
  absorb _ _ := by
    unfold BreakerState.capU32
    omega
  nonneg _ := Nat.zero_le _
  le _ := Nat.min_le_left _ _

/-- The three ways a step can treat the window of disputes and the halt. -/
inductive DisputeEvent (e : Run.Step Env Event) : Prop
  | disputed {grantId : Nat} (hop : disputeOf e = some grantId)
      (hresume : resumesCreation e = false)
      (hwindow : e.after.breakers.disputes = e.before.breakers.disputesAfter e.action.timestamp)
      (hsnapshot : e.after.breakers.actGntSn =
        e.before.breakers.snapshotAfter e.action.timestamp (countActiveGrants e.before))
      (hhalt : e.after.breakers.gntHalt = (decide (IsMassDispute
        (e.before.breakers.disputesAfter e.action.timestamp).total (comparedGrants e)) ||
          e.before.breakers.gntHalt))
  | resumed (hop : disputeOf e = none) (hresume : resumesCreation e = true)
      (hwindow : e.after.breakers.disputes = .reopen e.action.timestamp)
      (hhalt : e.after.breakers.gntHalt = false)
  | kept (hop : disputeOf e = none) (hresume : resumesCreation e = false)
      (hwindow : e.after.breakers.disputes = e.before.breakers.disputes)
      (hsnapshot : e.after.breakers.actGntSn = e.before.breakers.actGntSn)
      (hhalt : e.after.breakers.gntHalt = e.before.breakers.gntHalt)

theorem disputeEvent_of_next {e : Run.Step Env Event} (hn : Next e.before e.action e.after) :
    DisputeEvent e := by
  have hnone (h : ∀ grantId, breakerOp e ≠ some (.dispute grantId)) : disputeOf e = none :=
    Option.eq_none_iff_forall_ne_some.mpr fun _ hop => h _ (disputeOf_eq_some.mp hop)
  have hkept (h : breakerOp e ≠ some .resumeCreation) : resumesCreation e = false :=
    decide_eq_false h
  rcases breakers_of_next hn with ⟨hop, hsame⟩ | ⟨op, hop, hstep⟩
  · exact .kept (hnone (by simp [hop])) (hkept (by simp [hop])) (by rw [hsame]) (by rw [hsame])
      (by rw [hsame])
  · generalize hb' : e.after.breakers = b' at hstep
    cases hstep with
    | @dispute _ _ grantId hb =>
        exact .disputed (disputeOf_eq_some.mpr hop) (hkept (by simp [hop]))
          (by rw [hb', hb]; rfl) (by rw [hb', hb]) (by rw [hb', hb]; rfl)
    | resumeCreation hb =>
        exact .resumed (hnone (by simp [hop])) (decide_eq_true hop) (by rw [hb', hb]; rfl)
          (by rw [hb', hb])
    | withdraw _ _ _ hb | acceptPrice _ _ hb | rejectPrice _ _ hb | confirmPrice _ _ _ hb
    | setSanityOracle hb | updateTvl _ hb | checkRent hb | disableRentPreservation hb
    | resumeWithdrawals hb =>
        exact .kept (hnone (by simp [hop])) (hkept (by simp [hop])) (by rw [hb', hb]; rfl)
          (by rw [hb', hb]) (by rw [hb', hb])

/-- **The counter** holds the disputes since the last resumption that its window counts. -/
theorem tracks_disputes {trace : Trace} {env : Env} (h : Reachable trace env) :
    Window.Tracks BreakerState.capU32 disputeWindowSecs env.timestamp env.breakers.disputes
      (openDisputes trace) := by
  refine Window.tracks_of_run (c := Env.timestamp) (f := fun env => env.breakers.disputes)
    capU32_caps disputeWindow_pos ?_ ?_ h
  · rintro env ⟨_, _, _, rfl⟩
    rfl
  · intro e hn
    obtain ⟨hle, htime⟩ := timestamp_of_next hn
    refine ⟨htime ▸ hle, ?_⟩
    unfold disputeEntry
    cases disputeEvent_of_next hn with
    | disputed hop hresume hwindow _ _ =>
        rw [hop, hresume, hwindow, htime]
        exact .counted (Nat.zero_le _)
    | resumed hop hresume hwindow _ =>
        rw [hop, hresume, hwindow, htime]
        exact .reopened
    | kept hop hresume hwindow _ _ =>
        rw [hop, hresume, hwindow]
        exact .kept

/-! ### Old activity -/

/-- The disputes of the twenty-four hours up to the step. -/
def lastDisputes (e : Run.Step Env Event) (older : Trace) : Window.Entries Nat :=
  Window.recent disputeWindowSecs e.action.timestamp (disputeEntries (e :: older))

/-- At a dispute, the window has a start, or none of the recorded disputes is a day old. -/
def DisputesFresh (e : Run.Step Env Event) (older : Trace) : Prop :=
  disputeOf e ≠ none → e.before.breakers.dispWin = none →
    ∀ i ∈ disputeEntries older, e.action.timestamp < i.1 + disputeWindowSecs

instance (e : Run.Step Env Event) (older : Trace) : Decidable (DisputesFresh e older) :=
  inferInstanceAs (Decidable (_ → _ → _))

/-- What a dispute is counted with are disputes of the last day, and it halts grant
creation only if these reach 15% of the grants they are compared with. -/
structure DisputesRecent (e : Run.Step Env Event) (older : Trace) : Prop where
  counts : disputeOf e ≠ none →
    Window.CountsOnly BreakerState.capU32 e.after.breakers.dispAcc (lastDisputes e older)
  halts : e.before.breakers.gntHalt = false → e.after.breakers.gntHalt = true →
    15 * comparedGrants e ≤ 100 * Window.sum (lastDisputes e older)

theorem isMassDispute_le {count active total : Nat} (h : IsMassDispute count active)
    (hle : count ≤ total) : 15 * active ≤ 100 * total := by
  obtain ⟨hpos, hbps⟩ := h
  have hbps := (le_bpsOf (Int.natCast_nonneg count) (Int.natCast_pos.mpr hpos)).mp hbps
  unfold disputeThresholdBps at hbps
  omega

theorem disputesRecent_of_fresh {e : Run.Step Env Event} {older : Trace}
    (h : Reachable (e :: older) e.after) (hfresh : DisputesFresh e older) :
    DisputesRecent e older := by
  obtain ⟨hrun, hn, -⟩ := h.uncons
  have htracks := (tracks_disputes hrun).wait (timestamp_of_next hn).1
  cases disputeEvent_of_next hn with
  | @disputed grantId hop hresume hwindow _ hhalt =>
      have hopen : openDisputes (e :: older) = (e.action.timestamp, 1) :: openDisputes older :=
        Window.openEntries_of_entry hresume (by simp [disputeEntry, hop]) older
      have hrecent := htracks.counted_add_sublist capU32_caps disputeWindow_pos (Nat.zero_le 1)
        fun hnone i hi => hfresh (by simp [hop]) hnone i
          ((Window.openEntries_sublist older).subset hi)
      rw [← hopen] at hrecent
      have hsub := hrecent.trans ((Window.openEntries_sublist (e :: older)).filter _)
      have htotal := (htracks.add capU32_caps disputeWindow_pos (Nat.zero_le 1)).total
      rw [← hopen] at htotal
      refine ⟨fun _ => ⟨_, hsub, ?_⟩, fun hbefore hafter => ?_⟩
      · exact (congrArg Window.total hwindow).trans htotal
      · rw [hhalt, hbefore, Bool.or_false, decide_eq_true_eq] at hafter
        refine isMassDispute_le hafter ?_
        refine (htotal.trans_le (capU32_caps.le (Nat.zero_le _))).trans ?_
        exact Window.sum_le hsub fun _ _ => Nat.zero_le _
  | resumed hop _ _ hhalt =>
      refine ⟨fun h => absurd hop h, fun _ hafter => ?_⟩
      exact absurd (hhalt.symm.trans hafter) Bool.false_ne_true
  | kept hop _ _ _ hhalt =>
      refine ⟨fun h => absurd hop h, fun hbefore hafter => ?_⟩
      exact absurd (hbefore.symm.trans (hhalt.symm.trans hafter)) Bool.false_ne_true

/-- The step records nothing in a window that has no start but old entries. -/
def NothingOld (e : Run.Step Env Event) (older : Trace) : Prop :=
  VelocityFresh e older ∧ DisputesFresh e older

instance (e : Run.Step Env Event) (older : Trace) : Decidable (NothingOld e older) :=
  inferInstanceAs (Decidable (_ ∧ _))

/-- Both breakers act on recent activity. -/
structure RecentActivity (e : Run.Step Env Event) (older : Trace) : Prop where
  withdrawals : VelocityRecent e older
  disputes : DisputesRecent e older

/-- **Old activity trips no breaker** in a run in which, whenever a withdrawal or a
dispute is recorded, its window has a start or nothing older than the window was
recorded before. -/
theorem recent_activity {trace : Trace} {env : Env} (h : Reachable trace env)
    (hold : Run.Each NothingOld trace) : Run.Each RecentActivity trace :=
  Run.each_imp h hold fun hrun hold =>
    ⟨velocityRecent_of_fresh hrun hold.1.1, disputesRecent_of_fresh hrun hold.1.2⟩

/-- Two withdrawals in an hour, and then a resumption and a withdrawal after a month. -/
theorem recent_activity_of_resumed_contract :
    let run := history Demo.env (Demo.streaming ++
      [Demo.call 21 (.withdraw 7 20000000), Demo.call 3600 (.triggerGrantDispute 7),
        Demo.call 3600 .resumeAfterVelocityCheck, Demo.call 2592000 (.withdraw 7 20000000)])
    Run.Each RecentActivity run.1 := by
  intro run
  have hrun : Reachable run.1 run.2 := history_reachable Demo.env_deployed (by decide)
  exact recent_activity hrun (by decide)

/-- Two withdrawals of 10%, a month apart, pause a contract that was never resumed. -/
theorem recent_activity_slow_withdrawals :
    ¬∀ (trace : Trace) (env : Env), Reachable trace env → Run.Each RecentActivity trace := by
  intro h
  let run := history Demo.env (Demo.streaming ++
    [Demo.call 21 (.withdraw 7 20000000), Demo.call 2592000 (.withdraw 7 20000000)])
  have hrun : Reachable run.1 run.2 := history_reachable Demo.env_deployed (by decide)
  have hpauses := atWithdrawal_iff.mp (h _ _ hrun).1.withdrawals.pauses 7 20000000 rfl
  exact absurd (hpauses (by decide)) (by decide)

/-! ### Mass disputes -/

/-- The disputes of the current window, newest first. A window begins with the dispute
that finds nothing to add to. -/
def currentWindow : Trace → Trace
  | [] => []
  | e :: older =>
    if resumesCreation e then []
    else if disputeOf e = none then currentWindow older
    else if e.before.breakers.disputes.carried disputeWindowSecs e.action.timestamp = 0 then [e]
    else e :: currentWindow older

/-- The grants that are active or paused. -/
def activeGrants (env : Env) : Finset Nat :=
  (env.grantIds.filter fun id => (env.grants id).any Grant.isLive).toFinset

/-- The grants that were active or paused at the start of the window. -/
def windowGrants (window : Trace) : Finset Nat :=
  (window.getLast?.map fun e => activeGrants e.before).getD ∅

/-- The grants that the steps dispute. -/
def disputedGrants (trace : Trace) : List Nat := trace.filterMap disputeOf

theorem mem_activeGrants {trace : Trace} {env : Env} (h : Reachable trace env) {id : Nat} :
    id ∈ activeGrants env ↔ ∃ g, env.grants id = some g ∧ g.isLive := by
  unfold activeGrants
  rw [List.mem_toFinset, List.mem_filter, Option.any_eq_true]
  constructor
  · exact fun hmem => hmem.2
  · intro ⟨g, hg, hlive⟩
    exact ⟨((registered_of_reachable h).mem_iff id).mpr (by simp [Env.vault, hg]), g, hg, hlive⟩

/-- `count_active_grants` counts them. -/
theorem card_activeGrants {trace : Trace} {env : Env} (h : Reachable trace env) :
    (activeGrants env).card = countActiveGrants env := by
  have hnodup : env.grantIds.Nodup := (registered_of_reachable h).nodup
  unfold activeGrants countActiveGrants listedGrants
  rw [List.toFinset_card_of_nodup (hnodup.filter _), ← List.countP_eq_length_filter,
    List.countP_filterMap]
  refine List.countP_congr fun id _ => ?_
  cases env.grants id <;> rfl

theorem currentWindow_of_resumes {e : Run.Step Env Event} (h : resumesCreation e = true)
    (older : Trace) : currentWindow (e :: older) = [] := if_pos h

theorem currentWindow_of_none {e : Run.Step Env Event} (hresume : resumesCreation e = false)
    (hop : disputeOf e = none) (older : Trace) :
    currentWindow (e :: older) = currentWindow older := by
  unfold currentWindow
  rw [if_neg (by simp [hresume]), if_pos hop]
  split
  · rfl
  · rfl

theorem currentWindow_of_dispute {e : Run.Step Env Event} (hresume : resumesCreation e = false)
    {grantId : Nat} (hop : disputeOf e = some grantId) (older : Trace) :
    currentWindow (e :: older) =
      if e.before.breakers.disputes.carried disputeWindowSecs e.action.timestamp = 0 then [e]
      else e :: currentWindow older := by
  show (if resumesCreation e = true then _ else _) = _
  rw [if_neg (by simp [hresume]), if_neg (by simp [hop])]

/-- The state of the trigger, told by the window of the trace. -/
structure WindowRecord (window : Trace) (b : BreakerState) (now : Nat) : Prop where
  count : b.dispAcc = BreakerState.capU32 window.length
  snapshot : window ≠ [] → b.actGntSn = some (windowGrants window).card
  disputes : ∀ e ∈ window, disputeOf e ≠ none
  past : ∀ e ∈ window, b.dispWin.getD 0 ≤ e.action.timestamp ∧ e.action.timestamp ≤ now

/-- A dispute that adds to the counter is not the first of its window. -/
theorem WindowRecord.ne_nil {window : Trace} {b : BreakerState} {now later : Nat}
    (h : WindowRecord window b now) (hcarried : b.disputes.carried disputeWindowSecs later ≠ 0) :
    window ≠ [] := by
  intro hnil
  refine hcarried ?_
  unfold Window.carried
  split_ifs
  · rfl
  · refine h.count.trans ?_
    rw [hnil]
    rfl

/-- Adding a dispute to a window leaves its start. -/
theorem windowGrants_cons {e : Run.Step Env Event} {window : Trace} (h : window ≠ []) :
    windowGrants (e :: window) = windowGrants window := by
  unfold windowGrants
  rw [List.getLast?_cons_of_ne_nil h]

theorem windowRecord_of_reachable {trace : Trace} {env : Env} (h : Reachable trace env) :
    WindowRecord (currentWindow trace) env.breakers env.timestamp := by
  induction h with
  | start h =>
      obtain ⟨_, _, _, rfl⟩ := h
      exact ⟨rfl, fun h => absurd rfl h, by simp [currentWindow], by simp [currentWindow]⟩
  | @step trace env event env' hrun hn ih =>
      obtain ⟨hle, htime⟩ := timestamp_of_next hn
      rw [htime]
      have htracks := tracks_disputes hrun
      cases disputeEvent_of_next (e := ⟨env, event, env'⟩) hn with
      | @disputed grantId hop hresume hwindow hsnapshot _ =>
          have hstart : env'.breakers.dispWin =
              if env.breakers.disputes.Expired disputeWindowSecs event.timestamp then
                some event.timestamp
              else env.breakers.dispWin := congrArg Window.start hwindow
          have htotal : env'.breakers.dispAcc = BreakerState.capU32
              (env.breakers.disputes.carried disputeWindowSecs event.timestamp + 1) :=
            congrArg Window.total hwindow
          have hsnapshot : env'.breakers.actGntSn =
              if env.breakers.disputes.carried disputeWindowSecs event.timestamp = 0 then
                some (countActiveGrants env)
              else env.breakers.actGntSn := hsnapshot
          have hbegun : env'.breakers.dispWin.getD 0 ≤ event.timestamp := by
            rw [hstart]
            split_ifs
            · exact le_refl _
            · cases hs : env.breakers.dispWin with
              | none => exact Nat.zero_le _
              | some s => exact (htracks.started s hs).trans hle
          rw [currentWindow_of_dispute hresume hop]
          split_ifs with hempty
          · -- a new window, which begins with this dispute
            rw [hempty] at htotal
            rw [if_pos hempty] at hsnapshot
            refine ⟨htotal, fun _ => hsnapshot.trans ?_, by simp [hop], by simpa using hbegun⟩
            exact congrArg some (card_activeGrants hrun).symm
          · -- the running window, which has its first dispute already
            have hexp : ¬env.breakers.disputes.Expired disputeWindowSecs event.timestamp :=
              fun hexp => hempty (if_pos hexp)
            have hcarried : env.breakers.disputes.carried disputeWindowSecs event.timestamp =
                env.breakers.dispAcc := if_neg hexp
            rw [if_neg hexp] at hstart
            rw [if_neg hempty] at hsnapshot
            refine ⟨?_, fun _ => ?_, ?_, ?_⟩
            · rw [htotal, hcarried, ih.count]
              exact capU32_caps.absorb (Nat.zero_le _) (Nat.zero_le _)
            · rw [windowGrants_cons (ih.ne_nil hempty)]
              exact hsnapshot.trans (ih.snapshot (ih.ne_nil hempty))
            · exact List.forall_mem_cons.mpr ⟨by simp [hop], ih.disputes⟩
            · refine List.forall_mem_cons.mpr ⟨⟨hbegun, le_refl _⟩, fun e he => ?_⟩
              rw [hstart]
              exact ⟨(ih.past e he).1, (ih.past e he).2.trans hle⟩
      | resumed hop hresume hwindow _ =>
          rw [currentWindow_of_resumes hresume]
          exact ⟨congrArg Window.total hwindow, fun h => absurd rfl h, by simp, by simp⟩
      | kept hop hresume hwindow hsnapshot _ =>
          rw [currentWindow_of_none hresume hop]
          have hstart : env'.breakers.dispWin = env.breakers.dispWin := congrArg Window.start hwindow
          refine ⟨(congrArg Window.total hwindow).trans ih.count,
            fun hne => hsnapshot.trans (ih.snapshot hne), ih.disputes, fun e he => ?_⟩
          rw [hstart]
          exact ⟨(ih.past e he).1, (ih.past e he).2.trans hle⟩

/-- The dispute is about a grant that was active or paused at the start of the current
window and that no other dispute of the window named, and the window has a start or
holds no dispute that is a day old. -/
def GenuineDispute (e : Run.Step Env Event) (older : Trace) : Prop :=
  DisputesFresh e older ∧ ∀ grantId ∈ disputeOf e,
    grantId ∈ windowGrants (currentWindow (e :: older)) ∧
      grantId ∉ disputedGrants (currentWindow (e :: older)).tail

instance (e : Run.Step Env Event) (older : Trace) : Decidable (GenuineDispute e older) :=
  inferInstanceAs (Decidable (_ ∧ _))

/-- The grants that were disputed in the twenty-four hours up to the step. -/
def recentlyDisputed (e : Run.Step Env Event) (older : Trace) : List Nat :=
  disputedGrants ((e :: older).filter fun e' =>
    e.action.timestamp < e'.action.timestamp + disputeWindowSecs)

/-- The counter is at most the number of active grants that the window disputes, and
grant creation is halted only if 15% of the active grants were disputed within a day. -/
structure GenuineHalt (e : Run.Step Env Event) (older : Trace) : Prop where
  counts : disputeOf e ≠ none → e.after.breakers.dispAcc ≤
    ((windowGrants (currentWindow (e :: older))).filter
      (· ∈ disputedGrants (currentWindow (e :: older)))).card
  halts : e.before.breakers.gntHalt = false → e.after.breakers.gntHalt = true →
    15 * (windowGrants (currentWindow (e :: older))).card ≤
      100 * ((windowGrants (currentWindow (e :: older))).filter
        (· ∈ recentlyDisputed e older)).card

/-- In a run of genuine disputes a window names different active grants. -/
theorem window_distinct {trace : Trace} {env : Env} (h : Reachable trace env)
    (hgenuine : Run.Each GenuineDispute trace) :
    (disputedGrants (currentWindow trace)).Nodup ∧
      ∀ id ∈ disputedGrants (currentWindow trace), id ∈ windowGrants (currentWindow trace) := by
  induction h with
  | start => exact ⟨List.nodup_nil, by simp [currentWindow, disputedGrants]⟩
  | @step trace env event env' hrun hn ih =>
      obtain ⟨⟨-, hdispute⟩, hgenuine⟩ := hgenuine
      have ih := ih hgenuine
      have hrecord := windowRecord_of_reachable hrun
      cases disputeEvent_of_next (e := ⟨env, event, env'⟩) hn with
      | @disputed grantId hop hresume _ _ _ =>
          obtain ⟨hactive, hnew⟩ := hdispute grantId hop
          rw [currentWindow_of_dispute hresume hop] at hactive hnew ⊢
          split_ifs at hactive hnew ⊢ with hempty
          · have hone : disputedGrants [⟨env, event, env'⟩] = [grantId] :=
              List.filterMap_cons_some hop
            rw [hone]
            exact ⟨List.nodup_singleton _, by simpa using hactive⟩
          · have hcons : disputedGrants (⟨env, event, env'⟩ :: currentWindow trace) =
                grantId :: disputedGrants (currentWindow trace) := List.filterMap_cons_some hop
            rw [windowGrants_cons (hrecord.ne_nil hempty)] at hactive ⊢
            rw [hcons]
            exact ⟨List.nodup_cons.mpr ⟨hnew, ih.1⟩, List.forall_mem_cons.mpr ⟨hactive, ih.2⟩⟩
      | resumed _ hresume _ _ =>
          rw [currentWindow_of_resumes hresume]
          exact ⟨List.nodup_nil, by simp [disputedGrants]⟩
      | kept hop hresume _ _ _ =>
          rw [currentWindow_of_none hresume hop]
          exact ih

/-- Every dispute names a grant. -/
theorem length_disputedGrants {window : Trace} (h : ∀ e ∈ window, disputeOf e ≠ none) :
    (disputedGrants window).length = window.length := by
  induction window with
  | nil => rfl
  | cons e window ih =>
      obtain ⟨hsome, hwindow⟩ := List.forall_mem_cons.mp h
      obtain ⟨grantId, hop⟩ := Option.ne_none_iff_exists'.mp hsome
      have hcons : disputedGrants (e :: window) = grantId :: disputedGrants window :=
        List.filterMap_cons_some hop
      rw [hcons, List.length_cons, List.length_cons, ih hwindow]

theorem currentWindow_subset (trace : Trace) : currentWindow trace ⊆ trace := by
  induction trace with
  | nil => exact List.Subset.refl _
  | cons e older ih =>
      unfold currentWindow
      split_ifs
      · exact List.nil_subset _
      · exact List.subset_cons_of_subset e ih
      · exact List.cons_subset_cons e (List.nil_subset _)
      · exact List.cons_subset_cons e ih

/-- The disputes of a window are less than a day old when it is added to. -/
theorem window_recent {e : Run.Step Env Event} {older : Trace}
    (h : Reachable (e :: older) e.after) (hfresh : DisputesFresh e older) {grantId : Nat}
    (hop : disputeOf e = some grantId) :
    ∀ e' ∈ currentWindow (e :: older),
      e.action.timestamp < e'.action.timestamp + disputeWindowSecs := by
  obtain ⟨-, hn, -⟩ := h.uncons
  have hrecord := windowRecord_of_reachable h
  intro e' he'
  have hpast := (hrecord.past e' he').1
  cases disputeEvent_of_next hn with
  | disputed _ _ hwindow _ _ =>
      have hrunning : ¬e.after.breakers.disputes.Expired disputeWindowSecs e.action.timestamp := by
        rw [hwindow]
        exact Window.not_expired_add disputeWindow_pos 1
      unfold Window.Expired at hrunning
      cases hs : e.after.breakers.dispWin with
      | some s =>
          have hstart : e.after.breakers.disputes.start = some s := hs
          rw [hstart, Option.getD_some] at hrunning
          rw [hs, Option.getD_some] at hpast
          omega
      | none =>
          have hbefore : e.before.breakers.dispWin = none := by
            have hnone := (congrArg Window.start hwindow).symm.trans hs
            by_cases hexp : e.before.breakers.disputes.Expired disputeWindowSecs e.action.timestamp
            · cases (if_pos hexp).symm.trans hnone
            · exact (if_neg hexp).symm.trans hnone
          rcases List.mem_cons.mp (currentWindow_subset _ he') with rfl | hmem
          · exact Nat.lt_add_of_pos_right disputeWindow_pos
          · refine hfresh (by simp [hop]) hbefore (e'.action.timestamp, 1) ?_
            obtain ⟨id, hid⟩ := Option.ne_none_iff_exists'.mp (hrecord.disputes e' he')
            exact List.mem_filterMap.mpr ⟨e', hmem, by simp [disputeEntry, hid]⟩
  | resumed hnone _ _ _ => cases hnone.symm.trans hop
  | kept hnone _ _ _ _ => cases hnone.symm.trans hop

theorem genuineHalt_of_disputes {e : Run.Step Env Event} {older : Trace}
    (h : Reachable (e :: older) e.after) (hgenuine : Run.Each GenuineDispute (e :: older)) :
    GenuineHalt e older := by
  obtain ⟨-, hn, -⟩ := h.uncons
  have hrecord := windowRecord_of_reachable h
  obtain ⟨hnodup, hactive⟩ := window_distinct h hgenuine
  -- the counter is at most the number of grants that the window names
  have hcount {p : Nat → Prop} [DecidablePred p]
      (hp : ∀ id ∈ disputedGrants (currentWindow (e :: older)), p id) :
      e.after.breakers.dispAcc ≤ ((windowGrants (currentWindow (e :: older))).filter p).card := by
    rw [hrecord.count]
    refine (capU32_caps.le (Nat.zero_le _)).trans ?_
    rw [← length_disputedGrants hrecord.disputes, ← List.toFinset_card_of_nodup hnodup]
    refine Finset.card_le_card fun id hid => ?_
    have hid := List.mem_toFinset.mp hid
    exact Finset.mem_filter.mpr ⟨hactive id hid, hp id hid⟩
  refine ⟨fun _ => hcount fun _ hid => hid, fun hbefore hafter => ?_⟩
  cases disputeEvent_of_next hn with
  | @disputed grantId hop hresume hwindow hsnapshot hhalt =>
      rw [hhalt, hbefore, Bool.or_false, decide_eq_true_eq, ← hwindow] at hafter
      have hne : currentWindow (e :: older) ≠ [] := by
        rw [currentWindow_of_dispute hresume hop]
        split_ifs <;> simp
      have hcompared : comparedGrants e = (windowGrants (currentWindow (e :: older))).card := by
        unfold comparedGrants
        rw [← hsnapshot, hrecord.snapshot hne, Option.getD_some]
      rw [← hcompared]
      refine isMassDispute_le hafter (hcount fun id hid => ?_)
      obtain ⟨e', he', hop'⟩ := List.mem_filterMap.mp hid
      refine List.mem_filterMap.mpr ⟨e', List.mem_filter.mpr ⟨currentWindow_subset _ he', ?_⟩, hop'⟩
      exact decide_eq_true (window_recent h hgenuine.1.1 hop e' he')
  | resumed _ _ _ hhalt => exact absurd (hhalt.symm.trans hafter) Bool.false_ne_true
  | kept _ _ _ _ hhalt =>
      exact absurd (hbefore.symm.trans (hhalt.symm.trans hafter)) Bool.false_ne_true

/-- **Mass disputes.** In a run whose disputes are genuine, grant creation is halted only
when 15% of the grants that were active at the start of the window were disputed within
a day, and no grant counts twice. -/
theorem halted_by_mass_dispute {trace : Trace} {env : Env} (h : Reachable trace env)
    (hgenuine : Run.Each GenuineDispute trace) : Run.Each GenuineHalt trace :=
  Run.each_imp h hgenuine fun hrun hall => genuineHalt_of_disputes hrun hall

/-- A contract with seven active grants. -/
def Demo.sevenGrants : List Event :=
  Demo.setUp 0 ++ (List.range 7).map fun id =>
    Demo.call 1 (.createGrant id Demo.grantee 100 1 0 none none)

/-- Two of seven grants are disputed. -/
theorem halted_by_mass_dispute_of_two_grants :
    let run := history Demo.env (Demo.sevenGrants ++
      [Demo.call 2 (.triggerGrantDispute 1), Demo.call 3 (.triggerGrantDispute 2)])
    run.2.breakers.gntHalt = true ∧ Run.Each GenuineHalt run.1 := by
  intro run
  have hrun : Reachable run.1 run.2 := history_reachable Demo.env_deployed (by decide)
  exact ⟨by decide, halted_by_mass_dispute hrun (by decide)⟩

/-- One of seven grants is disputed twice. -/
theorem halted_by_mass_dispute_repeated_dispute :
    ¬∀ (trace : Trace) (env : Env), Reachable trace env → Run.Each GenuineHalt trace := by
  intro h
  let run := history Demo.env (Demo.sevenGrants ++
    [Demo.call 2 (.triggerGrantDispute 1), Demo.call 3 (.triggerGrantDispute 1)])
  have hrun : Reachable run.1 run.2 := history_reachable Demo.env_deployed (by decide)
  exact absurd ((h _ _ hrun).1.halts (by decide) (by decide)) (by decide)

end YieldTrust.GrantStream
