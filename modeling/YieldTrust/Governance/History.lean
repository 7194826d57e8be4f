import YieldTrust.Governance.Transitions

/-!
# YieldTrust.Governance.History

What the storage of the monitor says about its **history**: the stored status of a change about
what happened to it, its stored time about the timelock with which it was recorded, and the
stored activity about the changes of its ledger.
-/

namespace YieldTrust.Governance

open Fallible
open GrantStream (Address Bytes)

variable {env env' : Env} {call : Call} {store' : Store} {id ledger : Nat} {e : Step}
  {trace older : Trace}

/-! ### The changes of a ledger -/

/-- The step records a change in the ledger. -/
def recordedIn (ledger : Nat) (e : Step) : Bool :=
  (recorded e).isSome && e.action.sequence == ledger

/-- How many changes are recorded in the ledger. -/
def changesIn (ledger : Nat) (trace : Trace) : Nat := trace.countP (recordedIn ledger)

/-- A change of the ledger is one more than the limit of its time allows. -/
def LimitExceeded (ledger : Nat) : Trace → Prop
  | [] => False
  | e :: older =>
      (recordedIn ledger e = true ∧
        ∃ limit ∈ e.before.store.maxChangesPerLedger, limit < changesIn ledger (e :: older)) ∨
      LimitExceeded ledger older

theorem recordedIn_iff : recordedIn ledger e = true ↔
    (∃ id, recorded e = some id) ∧ e.action.sequence = ledger := by
  simp [recordedIn, Option.isSome_iff_exists]

theorem changesIn_cons (ledger : Nat) (e : Step) (older : Trace) :
    changesIn ledger (e :: older) =
      changesIn ledger older + if recordedIn ledger e = true then 1 else 0 :=
  List.countP_cons

/-- The activity of an older ledger counts nothing for a later one. -/
theorem changeCount_eq_zero {store : Store} {sequence : Nat} (hlt : sequence < ledger)
    (hpast : ∀ activity ∈ store.currentLedgerActivity, activity.ledgerNumber ≤ sequence) :
    store.changeCount ledger = 0 := by
  unfold Store.changeCount
  cases hactivity : store.currentLedgerActivity with
  | none => rfl
  | some activity =>
      have hle : activity.ledgerNumber ≤ sequence := hpast activity hactivity
      exact if_neg (by omega)

/-- A call that records a change counts it in its ledger. -/
theorem Effect.changeCount (h : Effect env call store')
    (hpast : ∀ activity ∈ env.store.currentLedgerActivity, activity.ledgerNumber ≤ env.sequence)
    (hledger : env.sequence ≤ ledger) :
    store'.changeCount ledger = env.store.changeCount ledger +
      if (call.recorded env).isSome && env.sequence == ledger then 1 else 0 := by
  cases h with
  | initialized | executed | cancelled | toggled | configured => rfl
  | untracked hdisabled => simp [Call.recorded, hdisabled]
  | recorded change changeIds activity henabled _ _ _ hnumber hcount =>
      simp only [Store.changeCount, Call.recorded, henabled, if_true, hnumber, Option.isSome_some,
        Bool.true_and, beq_iff_eq]
      rcases hledger.eq_or_lt with rfl | hlt
      · rw [if_pos rfl, if_pos rfl, hcount]
        rfl
      · rw [if_neg hlt.ne, if_neg hlt.ne]
        exact (changeCount_eq_zero hlt hpast).symm

theorem Effect.past (h : Effect env call store')
    (hpast : ∀ activity ∈ env.store.currentLedgerActivity, activity.ledgerNumber ≤ env.sequence) :
    ∀ activity ∈ store'.currentLedgerActivity, activity.ledgerNumber ≤ env.sequence := by
  cases h with
  | initialized | untracked | executed | cancelled | toggled | configured => exact hpast
  | recorded change changeIds activity _ _ _ _ hnumber =>
      rintro _ ⟨⟩
      exact hnumber.le

/-! ### The history of a change -/

/-- What a stored change says about the history. -/
structure ChangeLog (trace : Trace) (id : Nat) (x : Option ParameterChange) : Prop where
  unrecorded : x = none → ∀ e ∈ trace,
    recorded e ≠ some id ∧ executed e ≠ some id ∧ cancelled e ≠ some id
  executable_at : ∀ change, x = some change → ∀ e ∈ trace, recorded e = some id →
    change.executableAt = e.action.timestamp + timelock e
  executed_iff : (∃ change, x = some change ∧ change.status = .executed) ↔
    ∃ e ∈ trace, executed e = some id

/-- **Step lemma**, by cases on what happens to the change. -/
theorem ChangeLog.step {x x' : Option ParameterChange} (h : ChangeLog older id x)
    (hstep : ChangeStep e id x x') : ChangeLog (e :: older) id x' := by
  cases hstep with
  | kept _ hr he hc =>
      refine ⟨fun hnone => ?_, fun change hchange => ?_, ?_⟩
      · exact List.forall_mem_cons.mpr ⟨⟨hr, he, hc⟩, h.unrecorded hnone⟩
      · exact List.forall_mem_cons.mpr
          ⟨fun heq => absurd heq hr, h.executable_at change hchange⟩
      · rw [h.executed_iff, List.exists_mem_cons_iff]
        exact (or_iff_right he).symm
  | recorded change hr he hc hat hopen =>
      have hnew := h.unrecorded rfl
      refine ⟨fun hnone => (nomatch hnone), fun _ hchange => ?_, ?_⟩
      · cases hchange
        refine List.forall_mem_cons.mpr ⟨fun _ => hat, fun e' he' heq => ?_⟩
        exact absurd heq (hnew e' he').1
      · rw [List.exists_mem_cons_iff]
        refine iff_of_false ?_ ?_
        · rintro ⟨_, ⟨⟩, hstatus⟩
          rcases hopen with hopen | hopen <;> cases hopen.symm.trans hstatus
        · rintro (heq | ⟨e', he', heq⟩)
          · cases he.symm.trans heq
          · exact (hnew e' he').2.1 heq
  | executed change hr he hc hopen htime =>
      refine ⟨fun hnone => (nomatch hnone), fun _ hchange => ?_, ?_⟩
      · cases hchange
        refine List.forall_mem_cons.mpr ⟨fun heq => ?_, h.executable_at change rfl⟩
        cases hr.symm.trans heq
      · exact iff_of_true ⟨_, rfl, rfl⟩ ⟨e, List.mem_cons_self, he⟩
  | cancelled change hr he hc hopen =>
      refine ⟨fun hnone => (nomatch hnone), fun _ hchange => ?_, ?_⟩
      · cases hchange
        refine List.forall_mem_cons.mpr ⟨fun heq => ?_, h.executable_at change rfl⟩
        cases hr.symm.trans heq
      · rw [List.exists_mem_cons_iff]
        refine iff_of_false ?_ ?_
        · rintro ⟨_, ⟨⟩, hstatus⟩
          cases hstatus
        · rintro (heq | heq)
          · cases he.symm.trans heq
          · obtain ⟨_, ⟨⟩, hstatus⟩ := h.executed_iff.mpr heq
            exact hopen hstatus

/-- The stored status says whether the change was cancelled. -/
def CancelLog (trace : Trace) (id : Nat) (x : Option ParameterChange) : Prop :=
  (∃ change, x = some change ∧ change.status = .cancelled) ↔ ∃ e ∈ trace, cancelled e = some id

/-- A cancelled change stays cancelled as long as it is not executed. -/
theorem CancelLog.step {x x' : Option ParameterChange} (h : CancelLog older id x)
    (hlog : ChangeLog older id x) (hstep : ChangeStep e id x x')
    (hkept : ∀ change, executed e = some id → x = some change → change.status ≠ .cancelled) :
    CancelLog (e :: older) id x' := by
  unfold CancelLog at h ⊢
  rw [List.exists_mem_cons_iff]
  cases hstep with
  | kept _ hr he hc => rw [h, or_iff_right hc]
  | recorded change hr he hc hat hopen =>
      refine iff_of_false ?_ ?_
      · rintro ⟨_, ⟨⟩, hstatus⟩
        rcases hopen with hopen | hopen <;> cases hopen.symm.trans hstatus
      · rintro (heq | ⟨e', he', heq⟩)
        · cases hc.symm.trans heq
        · exact (hlog.unrecorded rfl e' he').2.2 heq
  | executed change hr he hc hopen htime =>
      refine iff_of_false ?_ ?_
      · rintro ⟨_, ⟨⟩, hstatus⟩
        cases hstatus
      · rintro (heq | heq)
        · cases hc.symm.trans heq
        · obtain ⟨_, ⟨⟩, hstatus⟩ := h.mpr heq
          exact hkept change he rfl hstatus
  | cancelled change hr he hc hopen => exact iff_of_true ⟨_, rfl, rfl⟩ (.inl hc)

/-! ### Runs -/

/-- What every run keeps. -/
structure Kept (trace : Trace) (env : Env) : Prop where
  wellFormed : env.store.WellFormed
  log : ∀ id, ChangeLog trace id (env.store.changes id)
  past : ∀ activity ∈ env.store.currentLedgerActivity, activity.ledgerNumber ≤ env.sequence
  counted : ∀ ledger, env.sequence ≤ ledger →
    env.store.changeCount ledger = changesIn ledger trace

theorem kept_of_deployed (h : Ledger.Deployed contract env) : Kept [] env := by
  obtain ⟨self, tokens, rfl⟩ := h
  refine ⟨⟨fun _ _ => rfl, fun _ _ => rfl⟩, fun id => ⟨by simp, by simp, ?_⟩, nofun, ?_⟩
  · simp [Ledger.Env.deployed, contract]
  · exact fun _ _ => rfl

/-- **Step lemma.** -/
theorem Kept.step (h : Kept older e.before) (hn : Next e.before e.action e.after) :
    Kept (e :: older) e.after := by
  obtain ⟨hn, hsequence⟩ := hn
  have hafter : e.after.sequence = e.action.sequence := Ledger.sequence_of_next hn
  have hlog (id : Nat) : ChangeLog (e :: older) id (e.after.store.changes id) :=
    (h.log id).step (changeStep_of_next h.wellFormed hn id)
  rcases effect_of_next hn with ⟨hnone, hstore⟩ | ⟨call, hcalled, heffect⟩
  · refine ⟨hstore ▸ h.wellFormed, hlog, ?_, fun ledger hledger => ?_⟩
    · rw [hstore, hafter]
      exact fun activity hactivity => (h.past activity hactivity).trans hsequence
    · have hrecorded : recordedIn ledger e = false := by simp [recordedIn, recorded, hnone]
      rw [hafter] at hledger
      rw [hstore, changesIn_cons, hrecorded, h.counted ledger (hsequence.trans hledger)]
      rfl
  · have hpast : ∀ activity ∈ e.before.store.currentLedgerActivity,
        activity.ledgerNumber ≤ e.action.sequence :=
      fun activity hactivity => (h.past activity hactivity).trans hsequence
    refine ⟨heffect.wellFormed ⟨h.wellFormed.unused, h.wellFormed.fresh⟩, hlog, ?_,
      fun ledger hledger => ?_⟩
    · rw [hafter]
      exact heffect.past hpast
    · rw [hafter] at hledger
      rw [heffect.changeCount hpast hledger, changesIn_cons,
        ← h.counted ledger (hsequence.trans hledger)]
      simp only [recordedIn, recorded, hcalled, Option.bind_some]
      rfl

theorem kept_of_reachable (h : Reachable trace env) : Kept trace env := by
  induction h with
  | start h => exact kept_of_deployed h
  | @step older before event after _ hn ih => exact Kept.step (e := ⟨before, event, after⟩) ih hn

/-- The limit of a ledger is exceeded exactly if a change of it triggers the breaker. -/
theorem limitExceeded_iff (h : Reachable trace env) :
    LimitExceeded ledger trace ↔ ∃ e ∈ trace, recordedIn ledger e = true ∧ triggered e = true := by
  induction h with
  | start => simp [LimitExceeded]
  | @step older before event after h hn ih =>
      rw [LimitExceeded, List.exists_mem_cons_iff]
      refine or_congr (and_congr_right fun hrecorded => ?_) ih
      obtain ⟨-, hledger⟩ := recordedIn_iff.mp hrecorded
      dsimp only at hledger
      subst hledger
      rw [changesIn_cons, if_pos hrecorded, ← (kept_of_reachable h).counted _ hn.2]
      have htrigger : triggersBreaker (before.enter event) = true ↔ _ := triggersBreaker_iff
      exact htrigger.symm

end YieldTrust.Governance
