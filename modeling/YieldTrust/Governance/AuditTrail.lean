import YieldTrust.Governance.Transitions
import YieldTrust.Lib.NumberedLog

/-!
# YieldTrust.Governance.AuditTrail

**The monitor keeps a complete trail.** What the monitor is for is an append-only list of changes,
each with its newest status, next to three settings. `Monitor` is that list with the steps that the
calls take on it; the contract, which keeps a counter, a table, a list of identifiers and the
activity of one ledger, refines it, and its views read the list.
-/

namespace YieldTrust.Governance

open Fallible
open GrantStream (Address Bytes)

variable {trace older : Trace} {env env' : Env} {e : Step} {call : Call} {store store' : Store}
  {sequence ledger now : Nat} {m : Monitor}

/-! ### The trail -/

/-- What a monitor is for: the changes that were recorded, oldest first, and its settings. -/
structure Monitor where
  admin : Option Address := none
  enabled : Bool := false
  limit : Nat := 0
  timelock : Nat := 0
  trail : List ParameterChange := []

namespace Monitor

/-- The changes that were recorded in the ledger. -/
def changesIn (m : Monitor) (ledger : Nat) : List ParameterChange :=
  m.trail.filter fun change => change.ledgerNumber = ledger

/-- The ledger comes to more changes than the limit by one more. -/
def overLimit (m : Monitor) (ledger : Nat) : Bool := m.limit < (m.changesIn ledger).length + 1

/-- One more change. -/
def newChange (m : Monitor) (now ledger : Nat) (admin : Address) (parameterType : ParameterType)
    (parameterName : String) (oldValue newValue : Bytes) (reason : String) : ParameterChange where
  changeId := m.trail.length + 1
  admin := admin
  parameterType := parameterType
  parameterName := parameterName
  oldValue := oldValue
  newValue := newValue
  proposedAt := now
  executableAt := now + if m.overLimit ledger then m.timelock else standardTimelockSecs
  status := if m.overLimit ledger then .mandatoryTimelock else .pending
  ledgerNumber := ledger
  reason := reason

/-- The change `id` comes to a status. -/
def mark (m : Monitor) (id : Nat) (status : ChangeStatus) : Monitor :=
  { m with trail := m.trail.map fun change =>
      if change.changeId = id then { change with status } else change }

/-- What a call that goes through does. -/
def step (m : Monitor) (now ledger : Nat) : Call → Monitor
  | .initializeMonitor admin =>
      { m with
        admin := some admin
        enabled := true
        limit := maxParamChangesPerLedger
        timelock := mandatoryTimelockSecs }
  | .recordParameterChange admin parameterType parameterName oldValue newValue reason =>
      if m.enabled then
        { m with trail := m.trail ++
            [m.newChange now ledger admin parameterType parameterName oldValue newValue reason] }
      else m
  | .executeParameterChange _ changeId => m.mark changeId .executed
  | .cancelParameterChange _ changeId => m.mark changeId .cancelled
  | .setEnabled _ enabled => { m with enabled }
  | .updateConfig _ maxChanges timelock =>
      { m with limit := maxChanges.getD m.limit, timelock := timelock.getD m.timelock }

/-- The activity of a ledger, if there is any. -/
def activity (m : Monitor) (ledger : Nat) : Option LedgerActivity :=
  (m.changesIn ledger).getLast?.map fun newest =>
    { ledgerNumber := ledger
      changeCount := (m.changesIn ledger).length
      changeIds := (m.changesIn ledger).map ParameterChange.changeId
      recordedAt := newest.proposedAt }

end Monitor

/-- The monitor after a run. -/
def monitorAfter : Trace → Monitor
  | [] => {}
  | e :: older =>
    match Ledger.called contract e with
    | some call => (monitorAfter older).step e.action.timestamp e.action.sequence call
    | none => monitorAfter older

/-! ### The activity of a ledger -/

namespace Monitor

theorem changesIn_append (change : ParameterChange) (ledger : Nat) :
    ({ m with trail := m.trail ++ [change] } : Monitor).changesIn ledger =
      m.changesIn ledger ++ if change.ledgerNumber = ledger then [change] else [] := by
  by_cases h : change.ledgerNumber = ledger <;> simp [changesIn, h]

theorem changesIn_mark (id : Nat) (status : ChangeStatus) (ledger : Nat) :
    (m.mark id status).changesIn ledger = (m.changesIn ledger).map fun change =>
      if change.changeId = id then { change with status } else change := by
  unfold changesIn mark
  rw [List.filter_map]
  congr 1
  refine List.filter_congr fun change _ => ?_
  dsimp only [Function.comp_apply]
  split <;> rfl

/-- Marking a change does not change what the activity tells. -/
theorem activity_mark (id : Nat) (status : ChangeStatus) (ledger : Nat) :
    (m.mark id status).activity ledger = m.activity ledger := by
  have hids : (m.changesIn ledger).map (ParameterChange.changeId ∘ fun change =>
      if change.changeId = id then { change with status } else change) =
        (m.changesIn ledger).map ParameterChange.changeId := by
    refine List.map_congr_left fun change _ => ?_
    dsimp only [Function.comp_apply]
    split <;> rfl
  unfold activity
  rw [changesIn_mark, List.getLast?_map, List.map_map, hids, List.length_map, Option.map_map]
  congr 1
  funext change
  dsimp only [Function.comp_apply]
  split <;> rfl

theorem activity_of_nil (h : m.changesIn ledger = []) : m.activity ledger = none := by
  simp [activity, h]

theorem activity_append {change : ParameterChange} (h : change.ledgerNumber = ledger) :
    ({ m with trail := m.trail ++ [change] } : Monitor).activity ledger = some
      { ledgerNumber := ledger
        changeCount := (m.changesIn ledger).length + 1
        changeIds := (m.changesIn ledger).map ParameterChange.changeId ++ [change.changeId]
        recordedAt := change.proposedAt } := by
  unfold activity
  rw [changesIn_append, if_pos h]
  simp

/-- What is counted of a ledger, whether there is an activity or not. -/
theorem activity_getD (created : LedgerActivity) (hledger : created.ledgerNumber = ledger)
    (hcount : created.changeCount = 0) (hids : created.changeIds = []) :
    ((m.activity ledger).getD created).ledgerNumber = ledger ∧
      ((m.activity ledger).getD created).changeCount = (m.changesIn ledger).length ∧
      ((m.activity ledger).getD created).changeIds =
        (m.changesIn ledger).map ParameterChange.changeId := by
  unfold activity
  cases hlast : (m.changesIn ledger).getLast? with
  | none =>
      rw [List.getLast?_eq_none_iff.mp hlast]
      exact ⟨hledger, hcount, hids⟩
  | some newest => exact ⟨rfl, rfl, rfl⟩

end Monitor

/-! ### Recording -/

/-- What is left by a change that is recorded. -/
theorem recordParameterChange_eq_ok {admin : Address} {parameterType : ParameterType}
    {parameterName : String} {oldValue newValue : Bytes} {reason : String} {result : Env × Nat}
    (h : recordParameterChange env admin parameterType parameterName oldValue newValue reason =
      .ok result) (henabled : isEnabled env = true) :
    ∃ limit timelock changeIds, env.store.admin = some admin ∧
      env.store.maxChangesPerLedger = some limit ∧
      env.store.mandatoryTimelockSecs = some timelock ∧ env.store.changeIds = some changeIds ∧
      let activity := getOrCreateLedgerActivity env env.sequence
      let atLimit := decide (limit < activity.changeCount + 1)
      let changeId := env.store.nextChangeId.getD 1
      result.1.store = { env.store with
        nextChangeId := some (changeId + 1)
        changes := Function.update env.store.changes changeId (some
          { changeId, admin, parameterType, parameterName, oldValue, newValue
            proposedAt := env.timestamp
            executableAt := env.timestamp + if atLimit then timelock else standardTimelockSecs
            status := if atLimit then .mandatoryTimelock else .pending
            ledgerNumber := env.sequence
            reason })
        changeIds := some (changeIds ++ [changeId])
        currentLedgerActivity := some
          { ledgerNumber := activity.ledgerNumber
            changeCount := activity.changeCount + 1
            changeIds := activity.changeIds ++ [changeId]
            recordedAt := env.timestamp } } := by
  unfold recordParameterChange at h
  rw [if_pos henabled] at h
  simp only [bind_eq_ok, okOr_eq_ok, U32.checkedAdd_eq_some, U64.checkedAdd_eq_some,
    assertAdmin_eq_ok, getMaxChangesPerLedger, getMandatoryTimelock, nextChangeId, getChangeIds,
    orTrap_eq_ok, pure_eq_ok] at h
  obtain ⟨_, -, _, hadmin, _, ⟨-, rfl⟩, limit, hlimit, timelock, htimelock, _, ⟨-, rfl⟩, ⟨_, _⟩,
    ⟨_, ⟨-, rfl⟩, rfl, rfl⟩, changeIds, hids, rfl⟩ := h
  exact ⟨limit, timelock, changeIds, hadmin, hlimit, htimelock, hids, rfl⟩

/-! ### Refinement -/

/-- The storage is that of the monitor `m` in a ledger. -/
structure Refines (store : Store) (sequence : Nat) (m : Monitor) : Prop where
  admin : store.admin = m.admin
  enabled : store.enabled.getD false = m.enabled
  unset : m.admin = none → m.enabled = false ∧ m.trail = []
  config : m.admin ≠ none → store.maxChangesPerLedger = some m.limit ∧
    store.mandatoryTimelockSecs = some m.timelock ∧
    store.changeIds = some (m.trail.map ParameterChange.changeId)
  next : store.nextChangeId.getD 1 = m.trail.length + 1
  table : NumberedLog ParameterChange.changeId store.changes m.trail
  past : ∀ change ∈ m.trail, change.ledgerNumber ≤ sequence
  activity : ∀ ledger, sequence ≤ ledger →
    (store.currentLedgerActivity.filter fun activity => activity.ledgerNumber = ledger) =
      m.activity ledger

theorem Refines.of_deployed (h : Ledger.Deployed contract env) :
    Refines env.store env.sequence {} := by
  obtain ⟨self, tokens, rfl⟩ := h
  refine ⟨rfl, rfl, fun _ => ⟨rfl, rfl⟩, fun hne => absurd rfl hne, rfl, .nil fun _ => rfl, ?_, ?_⟩
  · simp
  · exact fun _ _ => rfl

/-- A later ledger. -/
theorem Refines.mono (h : Refines store sequence m) (hle : sequence ≤ ledger) :
    Refines store ledger m :=
  { h with
    past := fun change hchange => (h.past change hchange).trans hle
    activity := fun ledger' hledger' => h.activity ledger' (hle.trans hledger') }

theorem Refines.getOrCreate (h : Refines env.store env.sequence m) :
    (getOrCreateLedgerActivity env env.sequence).ledgerNumber = env.sequence ∧
      (getOrCreateLedgerActivity env env.sequence).changeCount =
        (m.changesIn env.sequence).length ∧
      (getOrCreateLedgerActivity env env.sequence).changeIds =
        (m.changesIn env.sequence).map ParameterChange.changeId := by
  have hactivity := h.activity env.sequence le_rfl
  have hcreate : getOrCreateLedgerActivity env env.sequence =
      (m.activity env.sequence).getD
        { ledgerNumber := env.sequence, changeCount := 0, changeIds := []
          recordedAt := env.timestamp } := by
    rw [← hactivity]
    unfold getOrCreateLedgerActivity
    cases env.store.currentLedgerActivity with
    | none => rfl
    | some activity =>
        by_cases hledger : activity.ledgerNumber = env.sequence <;>
          simp [Option.filter, hledger]
  rw [hcreate]
  exact Monitor.activity_getD _ rfl rfl rfl

theorem Refines.marked (h : Refines store sequence m) {id : Nat} {change : ParameterChange}
    (hfind : store.changes id = some change) (status : ChangeStatus) :
    Refines { store with
      changes := Function.update store.changes id (some { change with status }) } sequence
      (m.mark id status) := by
  have hids : (m.mark id status).trail.map ParameterChange.changeId =
      m.trail.map ParameterChange.changeId := by
    unfold Monitor.mark
    rw [List.map_map]
    refine List.map_congr_left fun change _ => ?_
    dsimp only [Function.comp_apply]
    split <;> rfl
  refine ⟨h.admin, h.enabled, fun hnone => ?_, fun hne => ?_, ?_, ?_, ?_, ?_⟩
  · obtain ⟨hoff, hempty⟩ := h.unset hnone
    exact ⟨hoff, by simp [Monitor.mark, hempty]⟩
  · obtain ⟨hlimit, htimelock, hlist⟩ := h.config hne
    exact ⟨hlimit, htimelock, by rw [hids]; exact hlist⟩
  · rw [Monitor.mark, List.length_map]
    exact h.next
  · exact h.table.modify (fun change => { change with status }) (fun _ => rfl) hfind
  · intro change hchange
    obtain ⟨before, hbefore, rfl⟩ := List.mem_map.mp hchange
    have hle := h.past before hbefore
    split <;> exact hle
  · intro ledger hledger
    rw [Monitor.activity_mark]
    exact h.activity ledger hledger

theorem Refines.recorded (h : Refines env.store env.sequence m) {admin : Address}
    {parameterType : ParameterType} {parameterName : String} {oldValue newValue : Bytes}
    {reason : String} {result : Env × Nat}
    (hcall : recordParameterChange env admin parameterType parameterName oldValue newValue reason =
      .ok result) :
    Refines result.1.store env.sequence (m.step env.timestamp env.sequence
      (.recordParameterChange admin parameterType parameterName oldValue newValue reason)) := by
  by_cases henabled : isEnabled env = true
  · have hm : m.enabled = true := h.enabled.symm.trans henabled
    obtain ⟨limit, timelock, changeIds, hadmin, hlimit, htimelock, hids, hstore⟩ :=
      recordParameterChange_eq_ok hcall henabled
    have hset : m.admin ≠ none := by
      rw [← h.admin, hadmin]
      exact Option.some_ne_none admin
    obtain ⟨hlimit', htimelock', hids'⟩ := h.config hset
    obtain rfl := Option.some.inj (hlimit'.symm.trans hlimit)
    obtain rfl := Option.some.inj (htimelock'.symm.trans htimelock)
    obtain rfl := Option.some.inj (hids'.symm.trans hids)
    obtain ⟨hledger, hcount, hactivityIds⟩ := h.getOrCreate
    rw [hstore]
    dsimp only
    rw [Monitor.step, if_pos hm, hledger, hcount, hactivityIds, h.next]
    refine ⟨h.admin, h.enabled, fun hnone => absurd hnone hset, fun _ => ⟨hlimit, htimelock, ?_⟩,
      ?_, h.table.append rfl, ?_, ?_⟩
    · simp [Monitor.newChange]
    · simp
    · intro change hchange
      rcases List.mem_append.mp hchange with hold | hnew
      · exact h.past change hold
      · rw [List.mem_singleton.mp hnew]
        exact le_rfl
    · intro ledger hle
      by_cases hsame : ledger = env.sequence
      · subst hsame
        refine Eq.trans ?_ (Monitor.activity_append (m := m) rfl).symm
        simp [Option.filter, Monitor.newChange]
      · -- nothing is recorded in a later ledger yet
        have hempty : m.changesIn ledger = [] := by
          refine List.filter_eq_nil_iff.mpr fun change hchange => ?_
          have hpast := h.past change hchange
          simp only [decide_eq_true_eq]
          omega
        have hnew : ¬env.sequence = ledger := fun heq => hsame heq.symm
        rw [Monitor.activity_of_nil]
        · simp [Option.filter, hnew]
        · rw [Monitor.changesIn_append, hempty]
          simp [Monitor.newChange, hnew]
  · have hm : m.enabled = false := by
      have hoff : isEnabled env = false := by simpa using henabled
      exact h.enabled.symm.trans hoff
    unfold recordParameterChange at hcall
    rw [if_neg henabled] at hcall
    rw [← pure_eq_ok.mp hcall, Monitor.step, if_neg (by simp [hm])]
    exact h

/-- **Simulation**: a call that goes through is a step of the monitor. -/
theorem Refines.exec (h : Refines env.store env.sequence m) (hexec : call.exec env = .ok env') :
    Refines env'.store env.sequence (m.step env.timestamp env.sequence call) := by
  cases call with
  | recordParameterChange =>
      obtain ⟨result, hcall, rfl⟩ := map_eq_ok.mp hexec
      exact h.recorded hcall
  | initializeMonitor admin =>
      have heffect := exec_effect hexec
      generalize env'.store = store' at heffect ⊢
      cases heffect with
      | initialized _ hnone =>
          obtain ⟨-, hempty⟩ := h.unset (h.admin.symm.trans hnone)
          have hlength : m.trail.length = 0 := by simp [hempty]
          refine ⟨rfl, rfl, fun hnone => absurd hnone (Option.some_ne_none admin),
            fun _ => ⟨rfl, rfl, by simp [Monitor.step, hempty]⟩, ?_, h.table,
            h.past, h.activity⟩
          simp [Monitor.step, hempty]
  | executeParameterChange =>
      have heffect := exec_effect hexec
      generalize env'.store = store' at heffect ⊢
      cases heffect with
      | executed _ _ change _ hfind => exact h.marked hfind .executed
  | cancelParameterChange =>
      have heffect := exec_effect hexec
      generalize env'.store = store' at heffect ⊢
      cases heffect with
      | cancelled _ _ change _ hfind => exact h.marked hfind .cancelled
  | setEnabled =>
      have heffect := exec_effect hexec
      generalize env'.store = store' at heffect ⊢
      cases heffect with
      | toggled _ enabled hset =>
          rw [h.admin] at hset
          exact { h with enabled := rfl, unset := fun hnone => absurd hnone hset }
  | updateConfig _ maxChanges timelock =>
      have heffect := exec_effect hexec
      generalize env'.store = store' at heffect ⊢
      cases heffect with
      | configured _ _ _ hset =>
          rw [h.admin] at hset
          obtain ⟨hlimit, htimelock, hids⟩ := h.config hset
          refine { h with
            unset := fun hnone => absurd hnone hset
            config := fun _ => ⟨?_, ?_, hids⟩ }
          · rw [hlimit]
            cases maxChanges <;> rfl
          · rw [htimelock]
            cases timelock <;> rfl

/-! ### Runs -/

theorem refines_of_reachable (h : Reachable trace env) :
    Refines env.store env.sequence (monitorAfter trace) := by
  induction h with
  | start h => exact Refines.of_deployed h
  | @step older before event after _ hn ih =>
      obtain ⟨hn, hsequence⟩ := hn
      have hafter : after.sequence = event.sequence :=
        Ledger.sequence_of_next (e := ⟨before, event, after⟩) hn
      rw [hafter, monitorAfter]
      rcases Ledger.cases_of_next (e := ⟨before, event, after⟩) hn with ⟨hcalled, hstore⟩ |
        ⟨call, result, hcalled, -, hexec, hcommit⟩
      · rw [hcalled]
        dsimp only at hstore
        rw [hstore]
        exact ih.mono hsequence
      · have henter : Refines (before.enter event).store (before.enter event).sequence
            (monitorAfter older) := ih.mono hsequence
        rw [hcalled]
        dsimp only at hcommit
        rw [hcommit]
        have hstep : Refines result.store (before.enter event).sequence
            ((monitorAfter older).step event.timestamp event.sequence call) := henter.exec hexec
        exact hstep

/-- **Audit trail.** In every run of an initialized monitor, its views read the list of all changes
that were recorded while it was enabled, numbered in their order: every change as it was recorded,
with the status of the newest call on it; the pending ones of an administrator; and, in this ledger
and any later one, the changes of that ledger. -/
theorem trail_complete (h : Reachable trace env) (hadmin : env.store.admin ≠ none) :
    let m := monitorAfter trace
    m.trail.map ParameterChange.changeId = List.range' 1 m.trail.length ∧
      getAllChanges env = .ok m.trail ∧
      (∀ admin, getPendingChanges env admin =
        .ok (m.trail.filter fun change => change.admin = admin && change.isPending)) ∧
      (∀ id, getParameterChange env id =
        okOr (m.trail.find? fun change => change.changeId = id) .changeNotFound) ∧
      ∀ ledger, env.sequence ≤ ledger →
        getCurrentLedgerActivity { env with sequence := ledger } =
          okOr (m.activity ledger) .changeNotFound := by
  intro m
  have hrefines : Refines env.store env.sequence m := refines_of_reachable h
  obtain ⟨-, -, hids⟩ := hrefines.config (hrefines.admin ▸ hadmin)
  have hread := hrefines.table.read
  refine ⟨hrefines.table.numbered, ?_, fun admin => ?_, fun id => ?_, fun ledger hledger => ?_⟩
  · exact bind_eq_ok.mpr ⟨_, okOr_eq_ok.mpr hids, pure_eq_ok.mpr hread⟩
  · exact bind_eq_ok.mpr ⟨_, okOr_eq_ok.mpr hids, pure_eq_ok.mpr (by rw [hread])⟩
  · rw [getParameterChange, getChange, hrefines.table.table_eq]
  · rw [getCurrentLedgerActivity, getLedgerActivity, hrefines.activity ledger hledger]

/-- Two changes are recorded, the first one is cancelled, and a third one is not tracked. -/
theorem trail_complete_of_cancelled_change :
    let run := Demo.history
      [Demo.call 0 1 (.initializeMonitor Demo.admin), Demo.record 5 2, Demo.record 6 2,
        Demo.call 7 3 (.cancelParameterChange Demo.admin 1),
        Demo.call 8 3 (.setEnabled Demo.admin false), Demo.record 9 3]
    getAllChanges run.2 = .ok (monitorAfter run.1).trail ∧
      (monitorAfter run.1).trail.map ParameterChange.status = [.cancelled, .pending] := by
  intro run
  have hrun : Reachable run.1 run.2 := Demo.history_reachable (by decide) (by decide)
  exact ⟨(trail_complete hrun (by decide)).2.1, by decide⟩

end YieldTrust.Governance
