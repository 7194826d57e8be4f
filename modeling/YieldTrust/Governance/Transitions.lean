import YieldTrust.Governance.Contract
import YieldTrust.Lib.PartialMap

/-!
# YieldTrust.Governance.Transitions

What one call **does to the changes**: which change it records, executes or cancels, and with
which timelock.
-/

namespace YieldTrust.Governance

open Fallible
open GrantStream (Address Bytes)

variable {env env' : Env} {call : Call} {store store' : Store} {id : Nat}

/-! ### The timelock of the next change -/

/-- How many changes the stored activity counts for the ledger. -/
def Store.changeCount (store : Store) (ledger : Nat) : Nat :=
  match store.currentLedgerActivity with
  | some activity => if activity.ledgerNumber = ledger then activity.changeCount else 0
  | none => 0

/-- The next change that is recorded triggers the breaker. -/
def triggersBreaker (env : Env) : Bool :=
  env.store.maxChangesPerLedger.any fun limit => limit < env.store.changeCount env.sequence + 1

/-- The timelock of the next change that is recorded. -/
def timelockDuration (env : Env) : Nat :=
  if triggersBreaker env then env.store.mandatoryTimelockSecs.getD 0 else standardTimelockSecs

theorem triggersBreaker_iff : triggersBreaker env = true ↔
    ∃ limit ∈ env.store.maxChangesPerLedger, limit < env.store.changeCount env.sequence + 1 := by
  unfold triggersBreaker
  cases env.store.maxChangesPerLedger with
  | none => simp
  | some limit => simp

theorem getOrCreateLedgerActivity_spec (env : Env) (ledger : Nat) :
    (getOrCreateLedgerActivity env ledger).changeCount = env.store.changeCount ledger ∧
      (getOrCreateLedgerActivity env ledger).ledgerNumber = ledger := by
  unfold getOrCreateLedgerActivity Store.changeCount
  cases env.store.currentLedgerActivity with
  | none => exact ⟨rfl, rfl⟩
  | some activity =>
      dsimp only
      split
      · case isTrue h => exact ⟨rfl, h⟩
      · case isFalse => exact ⟨rfl, rfl⟩

/-! ### What a call does -/

inductive Effect (env : Env) : Call → Store → Prop
  | initialized (admin : Address) (hnone : env.store.admin = none) :
      Effect env (.initializeMonitor admin) { env.store with
        admin := some admin
        enabled := some true
        nextChangeId := some 1
        changeIds := some []
        maxChangesPerLedger := some maxParamChangesPerLedger
        mandatoryTimelockSecs := some mandatoryTimelockSecs }
  | untracked {admin : Address} {parameterType : ParameterType} {parameterName : String}
      {oldValue newValue : Bytes} {reason : String} (hdisabled : isEnabled env = false) :
      Effect env
        (.recordParameterChange admin parameterType parameterName oldValue newValue reason)
        env.store
  | recorded {admin : Address} {parameterType : ParameterType} {parameterName : String}
      {oldValue newValue : Bytes} {reason : String} (change : ParameterChange)
      (changeIds : List Nat) (activity : LedgerActivity) (henabled : isEnabled env = true)
      (hadmin : env.store.admin ≠ none)
      (hat : change.executableAt = env.timestamp + timelockDuration env)
      (hopen : change.status = .pending ∨ change.status = .mandatoryTimelock)
      (hledger : activity.ledgerNumber = env.sequence)
      (hcount : activity.changeCount = env.store.changeCount env.sequence + 1) :
      Effect env
        (.recordParameterChange admin parameterType parameterName oldValue newValue reason)
        { env.store with
          nextChangeId := some (env.store.nextChangeId.getD 1 + 1)
          changes :=
            Function.update env.store.changes (env.store.nextChangeId.getD 1) (some change)
          changeIds := some changeIds
          currentLedgerActivity := some activity }
  | executed (admin : Address) (changeId : Nat) (change : ParameterChange)
      (hadmin : env.store.admin ≠ none) (hfind : env.store.changes changeId = some change)
      (hopen : change.status ≠ .executed) (htime : change.executableAt ≤ env.timestamp) :
      Effect env (.executeParameterChange admin changeId) { env.store with
        changes := Function.update env.store.changes changeId
          (some { change with status := .executed }) }
  | cancelled (admin : Address) (changeId : Nat) (change : ParameterChange)
      (hadmin : env.store.admin ≠ none) (hfind : env.store.changes changeId = some change)
      (hopen : change.status ≠ .executed) :
      Effect env (.cancelParameterChange admin changeId) { env.store with
        changes := Function.update env.store.changes changeId
          (some { change with status := .cancelled }) }
  | toggled (admin : Address) (enabled : Bool) (hadmin : env.store.admin ≠ none) :
      Effect env (.setEnabled admin enabled) { env.store with enabled := some enabled }
  | configured (admin : Address) (maxChanges timelock : Option Nat)
      (hadmin : env.store.admin ≠ none) :
      Effect env (.updateConfig admin maxChanges timelock) { env.store with
        maxChangesPerLedger := maxChanges <|> env.store.maxChangesPerLedger
        mandatoryTimelockSecs := timelock <|> env.store.mandatoryTimelockSecs }

theorem assertAdmin_eq_ok {caller : Address} {u : Unit} :
    assertAdmin env caller = .ok u ↔ env.store.admin = some caller := by
  simp [assertAdmin, getAdmin, bind_eq_ok, okOr_eq_ok, ensure_eq_ok]

/-- **Inversion** of a call that goes through. -/
theorem exec_effect (h : call.exec env = .ok env') : Effect env call env'.store := by
  cases call with
  | initializeMonitor admin =>
      unfold Call.exec initializeMonitor at h
      simp only [bind_eq_ok, ensure_eq_ok, pure_eq_ok] at h
      obtain ⟨_, hnone, _, -, rfl⟩ := h
      exact .initialized admin hnone
  | recordParameterChange admin parameterType parameterName oldValue newValue reason =>
      simp only [Call.exec, recordParameterChange, map_eq_ok] at h
      obtain ⟨⟨result, returned⟩, h, rfl⟩ := h
      split at h
      · case isTrue henabled =>
        simp only [bind_eq_ok, okOr_eq_ok, U32.checkedAdd_eq_some, U64.checkedAdd_eq_some,
          assertAdmin_eq_ok, getMaxChangesPerLedger, getMandatoryTimelock, nextChangeId,
          getChangeIds, orTrap_eq_ok, pure_eq_ok, Prod.mk.injEq] at h
        obtain ⟨_, -, _, hadmin, _, ⟨-, rfl⟩, limit, hlimit, mandatory, hmandatory, _, ⟨-, rfl⟩,
          ⟨_, _⟩, ⟨_, ⟨-, rfl⟩, rfl, rfl⟩, changeIds, -, rfl, -⟩ := h
        obtain ⟨hcount, hledger⟩ := getOrCreateLedgerActivity_spec env env.sequence
        refine .recorded _ _ _ henabled (by simp [hadmin]) ?_ ?_ hledger (by simp [hcount])
        · simp [timelockDuration, triggersBreaker, hlimit, hmandatory, hcount]
        · dsimp only
          split
          · exact .inr rfl
          · exact .inl rfl
      · case isFalse hdisabled =>
        obtain ⟨rfl, -⟩ := Prod.mk.inj (pure_eq_ok.mp h)
        exact .untracked (by simpa using hdisabled)
  | executeParameterChange admin changeId =>
      unfold Call.exec executeParameterChange at h
      simp only [bind_eq_ok, assertAdmin_eq_ok, getChange, okOr_eq_ok, ensure_eq_ok,
        pure_eq_ok] at h
      obtain ⟨_, -, _, hadmin, change, hfind, _, hopen, _, htime, rfl⟩ := h
      exact .executed admin changeId change (by simp [hadmin]) hfind hopen htime
  | cancelParameterChange admin changeId =>
      unfold Call.exec cancelParameterChange at h
      simp only [bind_eq_ok, assertAdmin_eq_ok, getChange, okOr_eq_ok, ensure_eq_ok,
        pure_eq_ok] at h
      obtain ⟨_, -, _, hadmin, change, hfind, _, hopen, rfl⟩ := h
      exact .cancelled admin changeId change (by simp [hadmin]) hfind hopen
  | setEnabled admin enabled =>
      unfold Call.exec setEnabled at h
      simp only [bind_eq_ok, assertAdmin_eq_ok, pure_eq_ok] at h
      obtain ⟨_, -, _, hadmin, rfl⟩ := h
      exact .toggled admin enabled (by simp [hadmin])
  | updateConfig admin maxChanges timelock =>
      unfold Call.exec updateConfig at h
      simp only [bind_eq_ok, assertAdmin_eq_ok, pure_eq_ok] at h
      obtain ⟨_, -, _, hadmin, rfl⟩ := h
      exact .configured admin maxChanges timelock (by simp [hadmin])

/-! ### What holds of the storage -/

/-- Identifiers that are not given yet are not used. -/
structure Store.WellFormed (store : Store) : Prop where
  unused : store.admin = none → ∀ id, store.changes id = none
  fresh : ∀ id, store.nextChangeId.getD 1 ≤ id → store.changes id = none

theorem Store.WellFormed.update (h : store.WellFormed) {change change' : ParameterChange}
    (hadmin : store.admin ≠ none) (hfind : store.changes id = some change) :
    ({ store with changes := Function.update store.changes id (some change') } :
      Store).WellFormed := by
  refine ⟨fun hnone => absurd hnone hadmin, fun other hother => ?_⟩
  have hfree : store.changes other = none := h.fresh other hother
  have hne : other ≠ id := by
    rintro rfl
    cases hfree.symm.trans hfind
  simp [hne, hfree]

theorem Effect.wellFormed (h : Effect env call store') (hwf : env.store.WellFormed) :
    store'.WellFormed := by
  cases h with
  | initialized admin hnone => exact ⟨fun h => (nomatch h), fun id _ => hwf.unused hnone id⟩
  | untracked => exact hwf
  | recorded change changeIds activity henabled hadmin =>
      refine ⟨fun hnone => absurd hnone hadmin, fun id hid => ?_⟩
      have hlt : env.store.nextChangeId.getD 1 < id := hid
      have hfree : env.store.changes id = none := hwf.fresh id hlt.le
      simp [hlt.ne', hfree]
  | executed admin changeId change hadmin hfind => exact hwf.update hadmin hfind
  | cancelled admin changeId change hadmin hfind => exact hwf.update hadmin hfind
  | toggled | configured => exact ⟨hwf.unused, hwf.fresh⟩

/-! ### What a step does to one change -/

/-- The change that the call records. -/
def Call.recorded (env : Env) : Call → Option Nat
  | .recordParameterChange .. =>
      if isEnabled env then some (env.store.nextChangeId.getD 1) else none
  | _ => none

/-- The change that the call executes. -/
def Call.executed : Call → Option Nat
  | .executeParameterChange _ changeId => some changeId
  | _ => none

/-- The change that the call cancels. -/
def Call.cancelled : Call → Option Nat
  | .cancelParameterChange _ changeId => some changeId
  | _ => none

def recorded (e : Step) : Option Nat :=
  (Ledger.called contract e).bind (Call.recorded (e.before.enter e.action))

def executed (e : Step) : Option Nat := (Ledger.called contract e).bind Call.executed

def cancelled (e : Step) : Option Nat := (Ledger.called contract e).bind Call.cancelled

/-- The breaker triggers on what the step records. -/
def triggered (e : Step) : Bool := triggersBreaker (e.before.enter e.action)

/-- The timelock of what the step records. -/
def timelock (e : Step) : Nat := timelockDuration (e.before.enter e.action)

/-- A change as a state machine of its own. -/
inductive ChangeStep (e : Step) (id : Nat) :
    Option ParameterChange → Option ParameterChange → Prop
  | kept (x : Option ParameterChange) (hr : recorded e ≠ some id) (he : executed e ≠ some id)
      (hc : cancelled e ≠ some id) : ChangeStep e id x x
  | recorded (change : ParameterChange) (hr : recorded e = some id) (he : executed e = none)
      (hc : cancelled e = none) (hat : change.executableAt = e.action.timestamp + timelock e)
      (hopen : change.status = .pending ∨ change.status = .mandatoryTimelock) :
      ChangeStep e id none (some change)
  | executed (change : ParameterChange) (hr : recorded e = none) (he : executed e = some id)
      (hc : cancelled e = none) (hopen : change.status ≠ .executed)
      (htime : change.executableAt ≤ e.action.timestamp) :
      ChangeStep e id (some change) (some { change with status := .executed })
  | cancelled (change : ParameterChange) (hr : recorded e = none) (he : executed e = none)
      (hc : cancelled e = some id) (hopen : change.status ≠ .executed) :
      ChangeStep e id (some change) (some { change with status := .cancelled })

theorem effect_of_next {e : Step} (h : Ledger.Next contract e.before e.action e.after) :
    (Ledger.called contract e = none ∧ e.after.store = e.before.store) ∨
      ∃ call, Ledger.called contract e = some call ∧
        Effect (e.before.enter e.action) call e.after.store :=
  Ledger.effect_of_next h fun _ hexec => exec_effect hexec

/-- What one event does to a change. -/
theorem changeStep_of_next {e : Step} (hwf : e.before.store.WellFormed)
    (h : Ledger.Next contract e.before e.action e.after) (id : Nat) :
    ChangeStep e id (e.before.store.changes id) (e.after.store.changes id) := by
  rcases effect_of_next h with ⟨hnone, hstore⟩ | ⟨call, hcalled, heffect⟩
  · rw [hstore]
    exact .kept _ (by simp [recorded, hnone]) (by simp [executed, hnone])
      (by simp [cancelled, hnone])
  · have hr : recorded e = call.recorded (e.before.enter e.action) := by simp [recorded, hcalled]
    have he : executed e = call.executed := by simp [executed, hcalled]
    have hc : cancelled e = call.cancelled := by simp [cancelled, hcalled]
    generalize e.after.store = store' at heffect
    cases heffect with
    | initialized | toggled | configured =>
        exact .kept _ (by simp [hr, Call.recorded]) (by simp [he, Call.executed])
          (by simp [hc, Call.cancelled])
    | untracked hdisabled =>
        exact .kept _ (by simp [hr, Call.recorded, hdisabled]) (by simp [he, Call.executed])
          (by simp [hc, Call.cancelled])
    | recorded change changeIds activity henabled hadmin hat hopen =>
        rw [Call.recorded, if_pos henabled] at hr
        dsimp only [Ledger.Env.enter] at hr ⊢
        by_cases hid : id = e.before.store.nextChangeId.getD 1
        · subst hid
          have hfree := hwf.fresh _ le_rfl
          rw [hfree, Function.update_self]
          exact .recorded change hr he hc hat hopen
        · rw [Function.update_of_ne hid]
          refine .kept _ ?_ (by simp [he, Call.executed]) (by simp [hc, Call.cancelled])
          rw [hr]
          exact fun heq => hid (Option.some.inj heq).symm
    | executed admin changeId change hadmin hfind hopen htime =>
        dsimp only [Ledger.Env.enter] at hfind ⊢
        by_cases hid : id = changeId
        · subst hid
          rw [hfind, Function.update_self]
          exact .executed change hr he hc hopen htime
        · rw [Function.update_of_ne hid]
          refine .kept _ (by simp [hr, Call.recorded]) ?_ (by simp [hc, Call.cancelled])
          rw [he]
          exact fun heq => hid (Option.some.inj heq).symm
    | cancelled admin changeId change hadmin hfind hopen =>
        dsimp only [Ledger.Env.enter] at hfind ⊢
        by_cases hid : id = changeId
        · subst hid
          rw [hfind, Function.update_self]
          exact .cancelled change hr he hc hopen
        · rw [Function.update_of_ne hid]
          refine .kept _ (by simp [hr, Call.recorded]) (by simp [he, Call.executed]) ?_
          rw [hc]
          exact fun heq => hid (Option.some.inj heq).symm

end YieldTrust.Governance
