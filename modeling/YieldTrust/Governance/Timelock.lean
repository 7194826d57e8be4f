import YieldTrust.Governance.History

/-!
# YieldTrust.Governance.Timelock

The monitor **over a run**. An executed change is final, and was executed after its time. That
a cancelled change is not executed is up to the administrator, and a ledger past its limit is
delayed as a whole only if its first change is past the limit already.
-/

namespace YieldTrust.Governance

open GrantStream (Address)

variable {env : Env} {e : Step} {trace older : Trace}

/-- What the claim of a monitor comes to after a step. -/
structure MonitorSafe (e : Step) (older : Trace) : Prop where
  executes : ∀ id, executed e = some id →
    (∀ e' ∈ older, executed e' ≠ some id ∧ cancelled e' ≠ some id) ∧
    ∃ change, e.before.store.changes id = some change ∧ change.executableAt ≤ e.action.timestamp
  cancels : ∀ id, cancelled e = some id → ∀ e' ∈ older, executed e' ≠ some id
  burst : ∀ e' ∈ e :: older, ∀ id, recorded e' = some id →
    LimitExceeded e'.action.sequence (e :: older) →
    ∃ change, e.after.store.changes id = some change ∧
      e'.action.timestamp + mandatoryTimelockSecs ≤ change.executableAt

/-- The step executes no change that is stored as cancelled. -/
def KeepsCancelled (e : Step) : Prop :=
  ∀ id ∈ executed e, ∀ change ∈ e.before.store.changes id, change.status ≠ .cancelled

/-- What the step records is past the limit if and only if all earlier changes of its ledger
were, and then the mandatory timelock is 7 days or more. -/
def KeepsBurst (e : Step) (older : Trace) : Prop :=
  recorded e ≠ none →
    (∀ e' ∈ older, recordedIn e.action.sequence e' = true → triggered e' = triggered e) ∧
    (triggered e = true → mandatoryTimelockSecs ≤ e.before.store.mandatoryTimelockSecs.getD 0)

instance (e : Step) : Decidable (KeepsCancelled e) :=
  inferInstanceAs (Decidable (∀ id ∈ executed e, ∀ change ∈ e.before.store.changes id, _))

instance (e : Step) (older : Trace) : Decidable (KeepsBurst e older) :=
  inferInstanceAs (Decidable (recorded e ≠ none → _ ∧ _))

/-! ### The changes of a ledger past its limit -/

/-- In a ledger past its limit, every change has a timelock of 7 days or more. -/
def BurstDelayed (trace : Trace) : Prop :=
  ∀ e ∈ trace, recorded e ≠ none → LimitExceeded e.action.sequence trace →
    mandatoryTimelockSecs ≤ timelock e

/-- A timelock of 7 days or more is a mandatory one. -/
theorem timelock_ge_iff : mandatoryTimelockSecs ≤ timelock e ↔
    triggered e = true ∧
      mandatoryTimelockSecs ≤ e.before.store.mandatoryTimelockSecs.getD 0 := by
  unfold timelock timelockDuration
  by_cases h : triggered e = true
  · have htriggers : triggersBreaker (e.before.enter e.action) = true := h
    rw [if_pos htriggers]
    exact (and_iff_right h).symm
  · have htriggers : ¬triggersBreaker (e.before.enter e.action) = true := h
    rw [if_neg htriggers]
    exact iff_of_false (by decide) fun h' => h h'.1

theorem recordedIn_self (h : recorded e ≠ none) : recordedIn e.action.sequence e = true := by
  rw [recordedIn_iff]
  exact ⟨Option.ne_none_iff_exists'.mp h, rfl⟩

/-- The delay of the changes of a ledger is kept exactly by what is recorded like them. -/
theorem burstDelayed_cons (h : Reachable (e :: older) e.after) (hdelayed : BurstDelayed older) :
    BurstDelayed (e :: older) ↔ KeepsBurst e older := by
  have holder : Reachable older e.before := h.uncons.1
  constructor
  · intro hnew hrecorded
    have hself := recordedIn_self hrecorded
    refine ⟨fun e' he' hledger => ?_, fun htriggered => ?_⟩
    · obtain ⟨⟨id, hid⟩, hsequence⟩ := recordedIn_iff.mp hledger
      have hrecorded' : recorded e' ≠ none := by simp [hid]
      -- if one of both is past the limit, both have a long timelock, so both are
      have hboth (hexceeded : LimitExceeded e.action.sequence (e :: older)) :
          triggered e' = true ∧ triggered e = true := by
        have hmem' : e' ∈ e :: older := List.mem_cons_of_mem e he'
        exact ⟨(timelock_ge_iff.mp (hnew e' hmem' hrecorded' (hsequence ▸ hexceeded))).1,
          (timelock_ge_iff.mp (hnew e List.mem_cons_self hrecorded hexceeded)).1⟩
      rw [Bool.eq_iff_iff]
      constructor
      · intro htriggered
        exact (hboth ((limitExceeded_iff h).mpr
          ⟨e', List.mem_cons_of_mem e he', hledger, htriggered⟩)).2
      · intro htriggered
        exact (hboth ((limitExceeded_iff h).mpr
          ⟨e, List.mem_cons_self, hself, htriggered⟩)).1
    · have hexceeded : LimitExceeded e.action.sequence (e :: older) :=
        (limitExceeded_iff h).mpr ⟨e, List.mem_cons_self, hself, htriggered⟩
      exact (timelock_ge_iff.mp (hnew e List.mem_cons_self hrecorded hexceeded)).2
  · intro hkeeps e₁ he₁ hrecorded₁ hexceeded
    have hself₁ := recordedIn_self hrecorded₁
    obtain ⟨e₂, he₂, hledger₂, htriggered₂⟩ := (limitExceeded_iff h).mp hexceeded
    obtain ⟨⟨id, hid⟩, hsequence⟩ := recordedIn_iff.mp hledger₂
    have hrecorded₂ : recorded e₂ ≠ none := by simp [hid]
    rcases List.mem_cons.mp he₁ with rfl | hmem₁
    · obtain ⟨hagree, hlong⟩ := hkeeps hrecorded₁
      have htriggered₁ : triggered e₁ = true := by
        rcases List.mem_cons.mp he₂ with rfl | he₂
        · exact htriggered₂
        · exact hagree e₂ he₂ hledger₂ ▸ htriggered₂
      exact timelock_ge_iff.mpr ⟨htriggered₁, hlong htriggered₁⟩
    · refine hdelayed e₁ hmem₁ hrecorded₁ ((limitExceeded_iff holder).mpr ?_)
      rcases List.mem_cons.mp he₂ with rfl | he₂
      · have hagree := (hkeeps hrecorded₂).1 e₁ hmem₁ (hsequence ▸ hself₁)
        exact ⟨e₁, hmem₁, hself₁, hagree.trans htriggered₂⟩
      · exact ⟨e₂, he₂, hledger₂, htriggered₂⟩

/-! ### Runs -/

/-- The stored times of the changes say whether their ledgers are delayed. -/
theorem burstDelayed_iff (h : Kept trace env) : BurstDelayed trace ↔
    ∀ e ∈ trace, ∀ id, recorded e = some id → LimitExceeded e.action.sequence trace →
      ∃ change, env.store.changes id = some change ∧
        e.action.timestamp + mandatoryTimelockSecs ≤ change.executableAt := by
  constructor
  · intro hdelayed e he id hid hexceeded
    have hle := hdelayed e he (by simp [hid]) hexceeded
    cases hchange : env.store.changes id with
    | none => exact absurd hid ((h.log id).unrecorded hchange e he).1
    | some change =>
        refine ⟨change, rfl, ?_⟩
        rw [(h.log id).executable_at change hchange e he hid]
        exact Nat.add_le_add_left hle _
  · intro hstored e he hrecorded hexceeded
    obtain ⟨id, hid⟩ := Option.ne_none_iff_exists'.mp hrecorded
    obtain ⟨change, hchange, hle⟩ := hstored e he id hid hexceeded
    rw [(h.log id).executable_at change hchange e he hid] at hle
    exact Nat.le_of_add_le_add_left hle

/-- What a step does to the change that it executes or cancels. -/
theorem executed_spec (h : Kept older e.before) (hn : Next e.before e.action e.after) {id : Nat}
    (hid : executed e = some id) :
    ∃ change, e.before.store.changes id = some change ∧ change.status ≠ .executed ∧
      change.executableAt ≤ e.action.timestamp := by
  have hstep := changeStep_of_next h.wellFormed hn.1 id
  generalize e.before.store.changes id = x, e.after.store.changes id = x' at hstep
  cases hstep with
  | kept _ _ he _ => exact absurd hid he
  | recorded _ _ he | cancelled _ _ he => cases he.symm.trans hid
  | executed change _ _ _ hopen htime => exact ⟨change, rfl, hopen, htime⟩

theorem cancelled_spec (h : Kept older e.before) (hn : Next e.before e.action e.after) {id : Nat}
    (hid : cancelled e = some id) :
    ∃ change, e.before.store.changes id = some change ∧ change.status ≠ .executed := by
  have hstep := changeStep_of_next h.wellFormed hn.1 id
  generalize e.before.store.changes id = x, e.after.store.changes id = x' at hstep
  cases hstep with
  | kept _ _ _ hc => exact absurd hid hc
  | recorded _ _ _ hc | executed _ _ _ hc => cases hc.symm.trans hid
  | cancelled change _ _ _ hopen => exact ⟨change, rfl, hopen⟩

/-- An executed change was not executed before. -/
theorem not_executed (h : Kept older env) {id : Nat} {change : ParameterChange}
    (hchange : env.store.changes id = some change) (hopen : change.status ≠ .executed) :
    ∀ e' ∈ older, executed e' ≠ some id := by
  intro e' he' heq
  obtain ⟨_, hsome, hstatus⟩ := (h.log id).executed_iff.mpr ⟨e', he', heq⟩
  cases hchange.symm.trans hsome
  exact hopen hstatus

/-- A step is safe exactly if it keeps what is cancelled and the delays of its ledger. -/
theorem monitorSafe_iff (hrun : Reachable older e.before) (hn : Next e.before e.action e.after)
    (hcancel : ∀ id, CancelLog older id (e.before.store.changes id))
    (hdelayed : BurstDelayed older) :
    MonitorSafe e older ↔ KeepsCancelled e ∧ KeepsBurst e older := by
  have hreach : Reachable (e :: older) e.after := .step hrun hn
  have hkept : Kept older e.before := kept_of_reachable hrun
  have hburst := burstDelayed_cons hreach hdelayed
  have hstored := burstDelayed_iff (kept_of_reachable hreach)
  constructor
  · intro hsafe
    refine ⟨?_, hburst.mp (hstored.mpr hsafe.burst)⟩
    intro id hid change hchange hstatus
    obtain ⟨e', he', heq⟩ := (hcancel id).mp ⟨change, hchange, hstatus⟩
    exact ((hsafe.executes id hid).1 e' he').2 heq
  · rintro ⟨hkeeps, hall⟩
    refine ⟨?_, ?_, hstored.mp (hburst.mpr hall)⟩
    · intro id hid
      obtain ⟨change, hchange, hopen, htime⟩ := executed_spec hkept hn hid
      refine ⟨fun e' he' => ⟨not_executed hkept hchange hopen e' he', ?_⟩, change, hchange, htime⟩
      intro heq
      obtain ⟨_, hsome, hstatus⟩ := (hcancel id).mpr ⟨e', he', heq⟩
      exact hkeeps id hid _ hsome hstatus
    · intro id hid
      obtain ⟨change, hchange, hopen⟩ := cancelled_spec hkept hn hid
      exact not_executed hkept hchange hopen

/-- **Governance monitor.** In every run, the monitor is safe after every step exactly if no step
executes a change that is cancelled, and every change is past the limit of its ledger, with a
mandatory timelock of 7 days or more, if and only if the earlier ones of the ledger were. -/
theorem monitor_safe (h : Reachable trace env) :
    Run.Each MonitorSafe trace ↔
      Run.Each (fun e older => KeepsCancelled e ∧ KeepsBurst e older) trace := by
  refine Run.each_iff_of_kept (J := fun trace env =>
    (∀ id, CancelLog trace id (env.store.changes id)) ∧ BurstDelayed trace) ?_ ?_ h
  · rintro _ ⟨self, tokens, rfl⟩
    constructor
    · intro id
      simp [CancelLog, Ledger.Env.deployed, contract]
    · intro e he
      cases he
  · intro e older hrun hn hlog
    obtain ⟨hcancel, hdelayed⟩ := hlog
    refine ⟨?_, monitorSafe_iff hrun hn hcancel hdelayed⟩
    rintro ⟨hkeeps, hall⟩
    have hkept : Kept older e.before := kept_of_reachable hrun
    refine ⟨fun id => ?_, (burstDelayed_cons (.step hrun hn) hdelayed).mpr hall⟩
    refine (hcancel id).step (hkept.log id) (changeStep_of_next hkept.wellFormed hn.1 id) ?_
    intro change hexecuted hchange
    exact hkeeps id hexecuted change hchange

/-- One change is cancelled and another one is executed; then the limit of a ledger is exceeded
from its first change on. -/
theorem monitor_safe_of_zero_limit :
    let run := Demo.history
      [Demo.call 0 1 (.initializeMonitor Demo.admin), Demo.record 10 2, Demo.record 10 2,
        Demo.call 20 3 (.cancelParameterChange Demo.admin 1),
        Demo.call 86410 4 (.executeParameterChange Demo.admin 2),
        Demo.call 86420 5 (.updateConfig Demo.admin (some 0) none),
        Demo.record 86430 6, Demo.record 86430 6]
    Run.Each MonitorSafe run.1 := by
  intro run
  have hrun : Reachable run.1 run.2 := Demo.history_reachable (by decide) (by decide)
  exact (monitor_safe hrun).mpr (by decide)

/-- A change is cancelled and then executed. -/
theorem monitor_safe_cancelled_executed :
    ¬∀ trace env, Reachable trace env → Run.Each MonitorSafe trace := by
  intro h
  let run := Demo.history
    [Demo.call 0 1 (.initializeMonitor Demo.admin), Demo.record 10 2,
      Demo.call 20 3 (.cancelParameterChange Demo.admin 1),
      Demo.call 86410 4 (.executeParameterChange Demo.admin 1)]
  have hrun : Reachable run.1 run.2 := Demo.history_reachable (by decide) (by decide)
  have hsafe := (h _ _ hrun).1.executes 1 (by decide)
  exact absurd hsafe.1 (by decide)

end YieldTrust.Governance
