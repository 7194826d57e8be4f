import YieldTrust.DeadMansSwitch.Contract
import YieldTrust.Lib.Register

/-!
# YieldTrust.DeadMansSwitch.Safety

The switch **over a run**: the administrator is replaced at most once, by the vault that was set
last, and only after half a year in which nothing was recorded. The vault can rely on it: what
`timeUntilRecovery` counts down is the time since the last record, and at its end the claim goes
through.
-/

namespace YieldTrust.DeadMansSwitch

open Fallible
open GrantStream (Address)

variable {env : Env} {call : Call} {result : Env} {store : Store} {e : Step} {trace older : Trace}
  {vault : Address} {now : Nat}

/-! ### What a call does -/

/-- The checks of a call, and the storage it leaves. -/
inductive Effect (env : Env) : Call → Store → Prop
  | initialized (admin vault : Address) (hnew : env.store.primaryAdmin = none)
      (hauth : admin ∈ env.auths) :
      Effect env (.initializeSwitch admin vault)
        { primaryAdmin := some admin, recoveryVault := some vault
          lastActivityAt := some env.timestamp, recoveryExecuted := some false }
  | alive (admin : Address) (hadmin : env.store.primaryAdmin = some admin)
      (hauth : admin ∈ env.auths) :
      Effect env (.heartbeat admin) { env.store with lastActivityAt := some env.timestamp }
  | recorded : Effect env .recordActivity { env.store with lastActivityAt := some env.timestamp }
  | claimed (vault : Address) (hvault : env.store.recoveryVault = some vault)
      (hauth : vault ∈ env.auths) (hfirst : env.store.recoveryExecuted.getD false = false)
      (hquiet : inactivityPeriod ≤ env.timestamp - env.store.lastActivityAt.getD 0) :
      Effect env (.claimAdmin vault)
        { env.store with primaryAdmin := some vault, recoveryExecuted := some true }
  | updated (admin vault : Address) (hadmin : env.store.primaryAdmin = some admin)
      (hauth : admin ∈ env.auths) :
      Effect env (.updateRecoveryVault admin vault)
        { env.store with lastActivityAt := some env.timestamp, recoveryVault := some vault }

theorem assertPrimaryAdmin_eq_ok {caller : Address} {u : Unit} :
    assertPrimaryAdmin env caller = .ok u ↔ env.store.primaryAdmin = some caller := by
  simp only [assertPrimaryAdmin, bind_eq_ok, okOr_eq_ok, ensure_eq_ok]
  exact ⟨fun ⟨admin, hadmin, heq⟩ => heq ▸ hadmin, fun h => ⟨caller, h, rfl⟩⟩

theorem assertRecoveryVault_eq_ok {caller : Address} {u : Unit} :
    assertRecoveryVault env caller = .ok u ↔ env.store.recoveryVault = some caller := by
  simp only [assertRecoveryVault, bind_eq_ok, okOr_eq_ok, ensure_eq_ok]
  exact ⟨fun ⟨vault, hvault, heq⟩ => heq ▸ hvault, fun h => ⟨caller, h, rfl⟩⟩

theorem requireAuth_eq_ok {addr : Address} {u : Unit} :
    (env.requireAuth addr : Res Unit) = .ok u ↔ addr ∈ env.auths := require_eq_ok

/-- A claim goes through exactly under its four checks. -/
theorem claimAdmin_eq_ok :
    claimAdmin env vault = .ok result ↔
      vault ∈ env.auths ∧ env.store.recoveryVault = some vault ∧
        env.store.recoveryExecuted.getD false = false ∧
        inactivityPeriod ≤ env.timestamp - env.store.lastActivityAt.getD 0 ∧
        { env with store := { env.store with
          primaryAdmin := some vault, recoveryExecuted := some true } } = result := by
  simp only [claimAdmin, bind_eq_ok, requireAuth_eq_ok, assertRecoveryVault_eq_ok, ensure_eq_ok,
    pure_eq_ok, exists_and_left, exists_const]

/-- **Inversion** of a call that goes through. -/
theorem exec_effect (h : call.exec env = .ok result) : Effect env call result.store := by
  cases call with
  | initializeSwitch admin vault =>
      simp only [Call.exec, initializeSwitch, bind_eq_ok, ensure_eq_ok, requireAuth_eq_ok,
        pure_eq_ok] at h
      obtain ⟨_, hnew, _, hauth, rfl⟩ := h
      exact .initialized admin vault hnew hauth
  | heartbeat admin =>
      simp only [Call.exec, heartbeat, bind_eq_ok, requireAuth_eq_ok, assertPrimaryAdmin_eq_ok,
        pure_eq_ok] at h
      obtain ⟨_, hauth, _, hadmin, rfl⟩ := h
      exact .alive admin hadmin hauth
  | recordActivity =>
      cases h
      exact .recorded
  | claimAdmin vault =>
      obtain ⟨hauth, hvault, hfirst, hquiet, rfl⟩ := claimAdmin_eq_ok.mp h
      exact .claimed vault hvault hauth hfirst hquiet
  | updateRecoveryVault admin vault =>
      simp only [Call.exec, updateRecoveryVault, bind_eq_ok, requireAuth_eq_ok,
        assertPrimaryAdmin_eq_ok, pure_eq_ok] at h
      obtain ⟨_, hauth, _, hadmin, rfl⟩ := h
      exact .updated admin vault hadmin hauth

/-! ### Records and claims -/

def Call.records : Call → Bool
  | .claimAdmin _ => false
  | _ => true

def Call.claims : Call → Bool
  | .claimAdmin _ => true
  | _ => false

/-- A call of the step went through and recorded an activity. -/
def records (e : Step) : Bool := (Ledger.called contract e).any Call.records

/-- The step was a claim that went through. -/
def claims (e : Step) : Bool := (Ledger.called contract e).any Call.claims

/-- What the step writes to the time of the last activity. -/
def recordedAt (e : Step) : Option (Option Nat) :=
  if records e then some (some e.action.timestamp) else none

theorem recordedAt_eq_some {x : Option Nat} :
    recordedAt e = some x ↔ records e = true ∧ x = some e.action.timestamp := by
  unfold recordedAt
  by_cases h : records e = true
  · simp [h, eq_comm]
  · simp [h]

theorem recordedAt_eq_none : recordedAt e = none ↔ records e = false := by
  unfold recordedAt
  split <;> simp_all

/-- No call goes through, or the step has the effect of its call. -/
theorem effect_of_next (hn : Ledger.Next contract e.before e.action e.after) :
    (Ledger.called contract e = none ∧ e.after.store = e.before.store) ∨
      ∃ call, Ledger.called contract e = some call ∧
        Effect (e.before.enter e.action) call e.after.store :=
  Ledger.effect_of_next hn fun _ hexec => exec_effect hexec

theorem Effect.lastActivityAt_eq (h : Effect env call store) :
    store.lastActivityAt =
      if call.records then some env.timestamp else env.store.lastActivityAt := by
  cases h with
  | initialized | alive | recorded | claimed | updated => rfl

theorem lastActivityAt_of_next (hn : Ledger.Next contract e.before e.action e.after) :
    e.after.store.lastActivityAt = (recordedAt e).getD e.before.store.lastActivityAt := by
  unfold recordedAt records
  rcases effect_of_next hn with ⟨hcalled, hstore⟩ | ⟨call, hcalled, heffect⟩
  · rw [hcalled, hstore]
    rfl
  · rw [hcalled, heffect.lastActivityAt_eq]
    cases call <;> rfl

/-- The time of the last activity is that of the newest record. -/
theorem lastActivityAt_eq (h : Ledger.Reachable contract trace env) :
    env.store.lastActivityAt = Run.lastWritten recordedAt none trace := by
  refine Run.register_eq (f := fun env : Env => env.store.lastActivityAt) ?_ ?_ h
  · rintro _ ⟨self, tokens, rfl⟩
    rfl
  · intro e hn
    exact lastActivityAt_of_next hn

/-! ### What the storage says about the history -/

/-- Without an administrator there is nothing else but a record, and a claim leaves its mark. -/
structure SwitchLog (trace : Trace) (store : Store) : Prop where
  unset : store.primaryAdmin = none →
    store.recoveryVault = none ∧ store.recoveryExecuted = none
  recorded : store.recoveryVault ≠ none → store.lastActivityAt ≠ none
  executed : (∃ e ∈ trace, claims e = true) ↔ store.recoveryExecuted = some true

theorem SwitchLog.executed_getD (h : SwitchLog trace store) :
    store.recoveryExecuted.getD false = false ↔ ∀ e ∈ trace, claims e = false := by
  have hexecuted := h.executed
  cases hx : store.recoveryExecuted with
  | none => simpa [hx] using hexecuted
  | some b => cases b <;> simpa [hx] using hexecuted

/-- **Step lemma**, by cases on the effect of the call. -/
theorem SwitchLog.step (h : SwitchLog older e.before.store)
    (hn : Ledger.Next contract e.before e.action e.after) :
    SwitchLog (e :: older) e.after.store := by
  have hclaims : (∃ e' ∈ e :: older, claims e' = true) ↔
      claims e = true ∨ ∃ e' ∈ older, claims e' = true := by simp
  rcases effect_of_next hn with ⟨hcalled, hstore⟩ | ⟨call, hcalled, heffect⟩
  · rw [hstore]
    refine ⟨h.unset, h.recorded, ?_⟩
    rw [hclaims, h.executed]
    simp [claims, hcalled]
  · have hclaim : claims e = call.claims := by simp [claims, hcalled]
    have hexecuted := h.executed
    rw [hclaim] at hclaims
    generalize e.after.store = store at heffect ⊢
    cases heffect with
    | initialized admin vault hnew =>
        -- nothing was claimed before, as there was no vault
        have hnone : e.before.store.recoveryExecuted = none := (h.unset hnew).2
        refine ⟨nofun, nofun, ?_⟩
        rw [hclaims, hexecuted, hnone]
        simp [Call.claims]
    | alive admin hadmin | updated admin vault hadmin =>
        have hadmin : e.before.store.primaryAdmin = some admin := hadmin
        refine ⟨?_, nofun, ?_⟩
        · simp [Ledger.Env.enter, hadmin]
        · rw [hclaims, hexecuted]
          simp [Call.claims, Ledger.Env.enter]
    | recorded =>
        refine ⟨h.unset, nofun, ?_⟩
        rw [hclaims, hexecuted]
        simp [Call.claims, Ledger.Env.enter]
    | claimed vault =>
        refine ⟨nofun, h.recorded, ?_⟩
        rw [hclaims]
        simp [Call.claims]

theorem switchLog_of_reachable (h : Ledger.Reachable contract trace env) :
    SwitchLog trace env.store := by
  induction h with
  | start h =>
      obtain ⟨self, tokens, rfl⟩ := h
      exact ⟨fun _ => ⟨rfl, rfl⟩, fun hne => absurd rfl hne,
        by simp [Ledger.Env.deployed, contract]⟩
  | @step tr s a s' _ hn ih => exact ih.step (e := ⟨s, a, s'⟩) hn

/-! ### The time since the last record -/

/-- The vault calls at the time `now`. -/
def calledBy (env : Env) (vault : Address) (now : Nat) : Env :=
  { env with timestamp := now, auths := [vault] }

/-- All that was recorded is at least the inactivity period ago at the time `now`. -/
def Quiet (trace : Trace) (now : Nat) : Prop :=
  ∀ e ∈ trace, records e = true → e.action.timestamp + inactivityPeriod ≤ now

/-- The newest record is the latest one. -/
theorem quiet_iff (h : Ledger.Reachable contract trace env)
    (hvault : env.store.recoveryVault ≠ none) :
    Quiet trace now ↔ env.store.lastActivityAt.getD 0 + inactivityPeriod ≤ now := by
  have hrecorded := (switchLog_of_reachable h).recorded hvault
  rw [lastActivityAt_eq h] at hrecorded ⊢
  rcases Run.lastWritten_cases recordedAt none trace with ⟨-, hnone⟩ | ⟨newer, e, old, rfl, hwrite,
    hnewer⟩
  · exact absurd hnone hrecorded
  · obtain ⟨hrecords, htime⟩ := recordedAt_eq_some.mp hwrite
    rw [htime]
    constructor
    · intro hquiet
      exact hquiet e (by simp) hrecords
    · intro hle e' he' hrecords'
      simp only [List.mem_append, List.mem_cons] at he'
      rcases he' with he' | rfl | he'
      · -- nothing was recorded after the newest record
        rw [recordedAt_eq_none.mp (hnewer e' he')] at hrecords'
        cases hrecords'
      · exact hle
      · have hrun := h.suffix.uncons
        have hbefore := Ledger.timestamp_le_of_mem hrun.1 he'
        have hstep := (Ledger.timestamp_of_next hrun.2.1).1
        dsimp only [Option.getD] at hle
        omega

/-! ### Safety -/

/-- What the switch promises of a step. The administrator and the vault, once they are set, are
replaced as agreed. -/
structure SwitchSafe (e : Step) (older : Trace) : Prop where
  admin : e.after.store.primaryAdmin ≠ e.before.store.primaryAdmin →
    e.before.store.primaryAdmin = none ∨ claims e = true
  vault : e.after.store.recoveryVault ≠ e.before.store.recoveryVault →
    e.before.store.primaryAdmin = none ∨
      ∃ admin ∈ (e.before.enter e.action).auths, e.before.store.primaryAdmin = some admin
  claim : claims e = true → ∃ vault ∈ (e.before.enter e.action).auths,
    e.before.store.recoveryVault = some vault ∧ e.after.store.primaryAdmin = some vault ∧
      (∀ e' ∈ older, claims e' = false) ∧ Quiet older e.action.timestamp

theorem switchSafe_of_next (h : Ledger.Reachable contract older e.before)
    (hn : Ledger.Next contract e.before e.action e.after) : SwitchSafe e older := by
  rcases effect_of_next hn with ⟨hcalled, hstore⟩ | ⟨call, hcalled, heffect⟩
  · exact ⟨by simp [hstore], by simp [hstore], by simp [claims, hcalled]⟩
  · have hclaim : claims e = call.claims := by simp [claims, hcalled]
    constructor
    · rw [hclaim]
      generalize e.after.store = store at heffect ⊢
      cases heffect with
      | initialized _ _ hnew => exact fun _ => .inl hnew
      | alive | recorded | updated => exact fun hne => absurd rfl hne
      | claimed => exact fun _ => .inr rfl
    · generalize e.after.store = store at heffect ⊢
      cases heffect with
      | initialized _ _ hnew => exact fun _ => .inl hnew
      | alive | recorded | claimed => exact fun hne => absurd rfl hne
      | updated admin _ hadmin hauth => exact fun _ => .inr ⟨admin, hauth, hadmin⟩
    · rw [hclaim]
      intro htrue
      generalize e.after.store = store at heffect ⊢
      cases heffect with
      | initialized | alive | recorded | updated => cases htrue
      | claimed vault hvault hauth hfirst hquiet =>
          have hset : e.before.store.recoveryVault = some vault := hvault
          refine ⟨vault, hauth, hset, rfl,
            (switchLog_of_reachable h).executed_getD.mp hfirst, ?_⟩
          have hpos : 0 < inactivityPeriod := by decide
          rw [quiet_iff h (by simp [hset])]
          simp only [Ledger.Env.enter] at hquiet
          omega

/-- **The switch is safe.** In every run, the administrator changes only by a claim, after
initialization; a claim is made by the vault that the administrator chose, at most once, and
after the inactivity period in which nothing was recorded. -/
theorem recovery_safe (h : Ledger.Reachable contract trace env) : Run.Each SwitchSafe trace := by
  induction h with
  | start => trivial
  | @step tr s a s' h hn ih => exact ⟨switchSafe_of_next (e := ⟨s, a, s'⟩) h hn, ih⟩

/-- The administrator is heard of once, and the vault takes over half a year later. -/
theorem recovery_safe_of_claim :
    let run := Ledger.history contract Demo.env
      [Demo.call 5 Demo.admin (.initializeSwitch Demo.admin Demo.vault),
        Demo.call 9 Demo.admin (.heartbeat Demo.admin),
        Demo.call (9 + inactivityPeriod) Demo.vault (.claimAdmin Demo.vault)]
    Run.Each SwitchSafe run.1 ∧ run.2.store.primaryAdmin = some Demo.vault := by
  intro run
  have hrun : Ledger.Reachable contract run.1 run.2 :=
    Ledger.history_reachable contract ⟨_, _, rfl⟩ (by decide)
  exact ⟨recovery_safe hrun, by decide⟩

/-! ### Availability -/

/-- **The switch works.** In every reachable state with a vault, at any time from then on, the
countdown is over exactly if all that was recorded is the inactivity period ago, and a claim goes
through exactly if the countdown is over and it is the first one. -/
theorem recovery_available (h : Ledger.Reachable contract trace env)
    (hvault : env.store.recoveryVault = some vault) :
    (timeUntilRecovery (calledBy env vault now) = 0 ↔ Quiet trace now) ∧
      ((∃ result, claimAdmin (calledBy env vault now) vault = .ok result) ↔
        (∀ e ∈ trace, claims e = false) ∧
          timeUntilRecovery (calledBy env vault now) = 0) := by
  have hpos : 0 < inactivityPeriod := by decide
  have hover : timeUntilRecovery (calledBy env vault now) = 0 ↔
      inactivityPeriod ≤ now - env.store.lastActivityAt.getD 0 := Nat.sub_eq_zero_iff_le
  constructor
  · rw [hover, quiet_iff h (by simp [hvault])]
    omega
  · rw [hover, ← (switchLog_of_reachable h).executed_getD]
    constructor
    · rintro ⟨result, hclaim⟩
      obtain ⟨-, -, hfirst, hquiet, -⟩ := claimAdmin_eq_ok.mp hclaim
      exact ⟨hfirst, hquiet⟩
    · rintro ⟨hfirst, hquiet⟩
      exact ⟨_, claimAdmin_eq_ok.mpr ⟨List.mem_singleton_self vault, hvault, hfirst, hquiet, rfl⟩⟩

/-- One second before the end of the countdown, the claim is refused. -/
theorem recovery_available_early :
    let run := Ledger.history contract Demo.env
      [Demo.call 5 Demo.admin (.initializeSwitch Demo.admin Demo.vault)]
    ¬∃ result, claimAdmin (calledBy run.2 Demo.vault (4 + inactivityPeriod)) Demo.vault =
      .ok result := by
  intro run hclaim
  have hrun : Ledger.Reachable contract run.1 run.2 :=
    Ledger.history_reachable contract ⟨_, _, rfl⟩ (by decide)
  have hover := ((recovery_available hrun (by decide)).2.mp hclaim).2
  exact absurd hover (by decide)

end YieldTrust.DeadMansSwitch
