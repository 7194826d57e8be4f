import YieldTrust.Lib.Register
import YieldTrust.Succession.Contract

/-!
# YieldTrust.Succession.Handover

The handover **over a run**. The administrator changes only from the one that proposed to the DAO
that was proposed, both signed, and nothing happened in between. No state is without a way on: the
administrator is always known, can always take a proposal back, and the DAO can always confirm it.
-/

namespace YieldTrust.Succession

open Fallible
open GrantStream (Address)

variable {env result : Env} {call : Call} {store : Store} {e : Step} {trace older : Trace}
  {admin dao : Address} {record : SuccessionRecord} {now : Nat}

/-! ### What a call does -/

/-- The record of a proposal at the time `now`. -/
def newRecord (now : Nat) (admin dao : Address) : SuccessionRecord :=
  { currentAdmin := admin, proposedDao := dao, initiatedAt := now, status := .pending }

/-- The checks of a call, and the storage it leaves. -/
inductive Effect (env : Env) : Call → Store → Prop
  | initiated (admin dao : Address) (hadmin : env.store.admin = some admin)
      (hauth : admin ∈ env.auths) (hnone : env.store.pendingSuccession = none) :
      Effect env (.initiateSuccession dao)
        { env.store with pendingSuccession := some (newRecord env.timestamp admin dao) }
  | confirmed (record : SuccessionRecord) (hpending : env.store.pendingSuccession = some record)
      (hauth : record.proposedDao ∈ env.auths) :
      Effect env (.confirmSuccession record.proposedDao)
        { env.store with admin := some record.proposedDao, pendingSuccession := none }
  | cancelled (admin : Address) (hadmin : env.store.admin = some admin)
      (hauth : admin ∈ env.auths) (hpending : env.store.pendingSuccession ≠ none) :
      Effect env .cancelSuccession { env.store with pendingSuccession := none }

theorem requireAuth_eq_ok {addr : Address} {u : Unit} :
    (env.requireAuth addr : Res Unit) = .ok u ↔ addr ∈ env.auths := require_eq_ok

theorem initiateSuccession_eq_ok :
    initiateSuccession env dao = .ok result ↔
      ∃ admin, env.store.admin = some admin ∧ admin ∈ env.auths ∧
        env.store.pendingSuccession = none ∧
        { env with store := { env.store with
          pendingSuccession := some (newRecord env.timestamp admin dao) } } = result := by
  simp only [initiateSuccession, readAdmin, bind_eq_ok, okOr_eq_ok, requireAuth_eq_ok,
    ensure_eq_ok, pure_eq_ok, exists_and_left, exists_const, newRecord]

theorem confirmSuccession_eq_ok :
    confirmSuccession env dao = .ok result ↔
      dao ∈ env.auths ∧ ∃ record, env.store.pendingSuccession = some record ∧
        record.proposedDao = dao ∧
        { env with store := { env.store with
          admin := some dao, pendingSuccession := none } } = result := by
  simp only [confirmSuccession, bind_eq_ok, okOr_eq_ok, requireAuth_eq_ok, ensure_eq_ok,
    pure_eq_ok, exists_and_left, exists_const]

theorem cancelSuccession_eq_ok :
    cancelSuccession env = .ok result ↔
      ∃ admin, env.store.admin = some admin ∧ admin ∈ env.auths ∧
        env.store.pendingSuccession ≠ none ∧
        { env with store := { env.store with pendingSuccession := none } } = result := by
  simp only [cancelSuccession, readAdmin, bind_eq_ok, okOr_eq_ok, requireAuth_eq_ok,
    ensure_eq_ok, pure_eq_ok, exists_and_left, exists_const, Option.isSome_iff_ne_none]

/-- **Inversion** of a call that goes through. -/
theorem exec_effect (h : call.exec env = .ok result) : Effect env call result.store := by
  cases call with
  | initiateSuccession dao =>
      obtain ⟨admin, hadmin, hauth, hnone, rfl⟩ := initiateSuccession_eq_ok.mp h
      exact .initiated admin dao hadmin hauth hnone
  | confirmSuccession dao =>
      obtain ⟨hauth, record, hpending, rfl, rfl⟩ := confirmSuccession_eq_ok.mp h
      exact .confirmed record hpending hauth
  | cancelSuccession =>
      obtain ⟨admin, hadmin, hauth, hpending, rfl⟩ := cancelSuccession_eq_ok.mp h
      exact .cancelled admin hadmin hauth hpending

theorem effect_of_next (hn : Ledger.Next contract e.before e.action e.after) :
    (Ledger.called contract e = none ∧ e.after.store = e.before.store) ∨
      ∃ call, Ledger.called contract e = some call ∧
        Effect (e.before.enter e.action) call e.after.store :=
  Ledger.effect_of_next hn fun _ hexec => exec_effect hexec

/-! ### The pending proposal -/

/-- What a call writes to the pending succession. -/
def Call.pending (env : Env) : Call → Option SuccessionRecord
  | .initiateSuccession dao => env.store.admin.map fun admin => newRecord env.timestamp admin dao
  | .confirmSuccession _ | .cancelSuccession => none

/-- Every call that goes through writes the pending succession. -/
def writtenPending (e : Step) : Option (Option SuccessionRecord) :=
  (Ledger.called contract e).map fun call => call.pending (e.before.enter e.action)

theorem Effect.pendingSuccession_eq (h : Effect env call store) :
    store.pendingSuccession = call.pending env := by
  cases h with
  | initiated admin dao hadmin => simp [Call.pending, hadmin]
  | confirmed | cancelled => rfl

theorem pending_of_next (hn : Ledger.Next contract e.before e.action e.after) :
    e.after.store.pendingSuccession =
      (writtenPending e).getD e.before.store.pendingSuccession := by
  unfold writtenPending
  rcases effect_of_next hn with ⟨hcalled, hstore⟩ | ⟨call, hcalled, heffect⟩
  · rw [hcalled, hstore]
    rfl
  · rw [hcalled, heffect.pendingSuccession_eq]
    rfl

theorem pendingSuccession_eq (h : Run (Initialized admin) (Ledger.Next contract) trace env) :
    env.store.pendingSuccession = Run.lastWritten writtenPending none trace := by
  refine Run.register_eq (f := fun env : Env => env.store.pendingSuccession) ?_ ?_ h
  · rintro _ ⟨before, hempty, rfl⟩
    simp [initializeSuccession, hempty]
  · intro e hn
    exact pending_of_next hn

/-- The record is that of the newest call that went through: its administrator signed it. -/
structure Proposed (record : SuccessionRecord) (newer : Trace) (e : Step) : Prop where
  call : Ledger.called contract e = some (.initiateSuccession record.proposedDao)
  admin : e.before.store.admin = some record.currentAdmin
  signed : record.currentAdmin ∈ (e.before.enter e.action).auths
  status : record.status = .pending
  time : record.initiatedAt = e.action.timestamp
  newest : ∀ e' ∈ newer, Ledger.called contract e' = none

theorem proposed_of_pending (h : Run (Initialized admin) (Ledger.Next contract) trace env)
    (hpending : env.store.pendingSuccession = some record) :
    ∃ newer e older, trace = newer ++ e :: older ∧ Proposed record newer e := by
  rw [pendingSuccession_eq h] at hpending
  rcases Run.lastWritten_cases writtenPending none trace with ⟨-, hnone⟩ | ⟨newer, e, older, rfl,
    hwrite, hnewer⟩
  · cases hnone.symm.trans hpending
  · refine ⟨newer, e, older, rfl, ?_⟩
    rw [hpending] at hwrite
    obtain ⟨call, hcalled, hrecord⟩ := Option.map_eq_some_iff.mp hwrite
    have hnext : Ledger.Next contract e.before e.action e.after :=
      h.suffix.uncons.2.1
    obtain ⟨result, -, hexec, -⟩ := Ledger.exec_of_called hnext hcalled
    have heffect : Effect (e.before.enter e.action) call result.store := exec_effect hexec
    have hnewest : ∀ e' ∈ newer, Ledger.called contract e' = none := fun e' he' =>
      Option.map_eq_none_iff.mp (hnewer e' he')
    generalize result.store = store at heffect
    cases heffect with
    | initiated proposer dao hadmin hauth =>
        simp only [Call.pending, hadmin, Option.map_some, Option.some.injEq] at hrecord
        subst hrecord
        exact ⟨hcalled, hadmin, hauth, rfl, rfl, hnewest⟩
    | confirmed | cancelled => cases hrecord

/-! ### The administrator -/

/-- The administrator is known, and is the one that proposed what is pending. -/
structure InCharge (store : Store) : Prop where
  known : store.admin ≠ none
  proposer : ∀ record ∈ store.pendingSuccession, store.admin = some record.currentAdmin

theorem Effect.inCharge (h : Effect env call store) (hcharge : InCharge env.store) :
    InCharge store := by
  cases h with
  | initiated admin dao hadmin =>
      refine ⟨hcharge.known, fun record hrecord => ?_⟩
      cases hrecord
      exact hadmin
  | confirmed => exact ⟨Option.some_ne_none _, fun record hrecord => by cases hrecord⟩
  | cancelled => exact ⟨hcharge.known, fun record hrecord => by cases hrecord⟩

theorem inCharge_of_run (h : Run (Initialized admin) (Ledger.Next contract) trace env) :
    InCharge env.store := by
  refine Run.invariant (I := fun env : Env => InCharge env.store) ?_ ?_ h
  · rintro _ ⟨before, hempty, rfl⟩
    simp only [initializeSuccession, hempty]
    exact ⟨Option.some_ne_none _, fun record hrecord => by cases hrecord⟩
  · intro s a s' hcharge hn
    rcases effect_of_next (e := ⟨s, a, s'⟩) hn with ⟨-, hstore⟩ | ⟨call, -, heffect⟩
    · dsimp only at hstore
      rw [hstore]
      exact hcharge
    · exact heffect.inCharge hcharge

/-! ### Safety -/

/-- The step handed the protocol over as it was proposed and not taken back since. -/
def HandedOver (e : Step) (older : Trace) : Prop :=
  ∃ record newer proposal oldest,
    Ledger.called contract e = some (.confirmSuccession record.proposedDao) ∧
    record.proposedDao ∈ (e.before.enter e.action).auths ∧
    e.before.store.admin = some record.currentAdmin ∧
    e.after.store.admin = some record.proposedDao ∧
    older = newer ++ proposal :: oldest ∧ Proposed record newer proposal

theorem admin_eq_or_handedOver
    (h : Run (Initialized admin) (Ledger.Next contract) older e.before)
    (hn : Ledger.Next contract e.before e.action e.after) :
    e.after.store.admin = e.before.store.admin ∨ HandedOver e older := by
  rcases effect_of_next hn with ⟨-, hstore⟩ | ⟨call, hcalled, heffect⟩
  · exact .inl (by rw [hstore])
  · generalize hstore : e.after.store = store at heffect
    cases heffect with
    | initiated | cancelled => exact .inl rfl
    | confirmed record hpending hauth =>
        obtain ⟨newer, proposal, oldest, rfl, hproposed⟩ := proposed_of_pending h hpending
        exact .inr ⟨record, newer, proposal, oldest, hcalled, hauth,
          (inCharge_of_run h).proposer record hpending, by rw [hstore], rfl, hproposed⟩

/-- **The handover takes two signatures.** In every run after the initialization, whenever the
administrator changes, the newest call before that went through was a proposal of the
administrator, and the DAO that it named signed the change. -/
theorem succession_needs_both
    (h : Run (Initialized admin) (Ledger.Next contract) trace env) :
    Run.Each (fun e older => e.after.store.admin ≠ e.before.store.admin → HandedOver e older)
      trace := by
  induction h with
  | start => trivial
  | @step tr s a s' h hn ih =>
      refine ⟨fun hne => ?_, ih⟩
      exact (admin_eq_or_handedOver (e := ⟨s, a, s'⟩) h hn).resolve_left hne

/-- The administrator hands over, after a proposal that it takes back. -/
theorem succession_needs_both_of_handover :
    let run := Ledger.history contract Demo.env
      [Demo.call 1 Demo.admin (.initiateSuccession Demo.self),
        Demo.call 2 Demo.admin .cancelSuccession,
        Demo.call 3 Demo.admin (.initiateSuccession Demo.dao),
        Demo.call 4 Demo.self (.confirmSuccession Demo.self),
        Demo.call 5 Demo.dao (.confirmSuccession Demo.dao)]
    Run.Each (fun e older => e.after.store.admin ≠ e.before.store.admin → HandedOver e older)
      run.1 ∧ run.2.store.admin = some Demo.dao := by
  intro run
  have hrun : Run (Initialized Demo.admin) (Ledger.Next contract) run.1 run.2 :=
    (Ledger.history_run contract (by decide)).mono fun _ heq => heq ▸ ⟨Demo.deployed, rfl, rfl⟩
  exact ⟨succession_needs_both hrun, by decide⟩

/-! ### No dead end -/

/-- Someone calls at the time `now`. -/
def calledBy (env : Env) (caller : Address) (now : Nat) : Env :=
  { env with timestamp := now, auths := [caller] }

/-- **The protocol is never orphaned.** In every state that a run reaches, at any time and for
whoever calls alone, the calls that go through are these: without a proposal, the administrator
can make one; with a proposal, the DAO that it names can confirm it, the administrator can take
it back, and no other one can be made. -/
theorem succession_never_stuck (dao : Address)
    (h : Run (Initialized admin) (Ledger.Next contract) trace env) :
    ∃ current, getAdmin env = .ok current ∧ ∀ caller now,
      ((∃ result, initiateSuccession (calledBy env caller now) dao = .ok result) ↔
        caller = current ∧ getPendingSuccession env = none) ∧
      ((∃ result, cancelSuccession (calledBy env caller now) = .ok result) ↔
        caller = current ∧ getPendingSuccession env ≠ none) ∧
      ((∃ result, confirmSuccession (calledBy env caller now) dao = .ok result) ↔
        caller = dao ∧ ∃ record, getPendingSuccession env = some record ∧
          record.currentAdmin = current ∧ record.proposedDao = dao) := by
  have hcharge := inCharge_of_run h
  obtain ⟨current, hcurrent⟩ := Option.ne_none_iff_exists'.mp hcharge.known
  refine ⟨current, okOr_eq_ok.mpr hcurrent, fun caller now => ⟨?_, ?_, ?_⟩⟩
  · simp only [initiateSuccession_eq_ok, calledBy, getPendingSuccession, List.mem_singleton]
    constructor
    · rintro ⟨_, proposer, hproposer, rfl, hnone, -⟩
      exact ⟨Option.some.inj (hproposer.symm.trans hcurrent), hnone⟩
    · rintro ⟨rfl, hnone⟩
      exact ⟨_, caller, hcurrent, rfl, hnone, rfl⟩
  · simp only [cancelSuccession_eq_ok, calledBy, getPendingSuccession, List.mem_singleton]
    constructor
    · rintro ⟨_, canceller, hcanceller, rfl, hpending, -⟩
      exact ⟨Option.some.inj (hcanceller.symm.trans hcurrent), hpending⟩
    · rintro ⟨rfl, hpending⟩
      exact ⟨_, caller, hcurrent, rfl, hpending, rfl⟩
  · simp only [confirmSuccession_eq_ok, calledBy, getPendingSuccession, List.mem_singleton]
    constructor
    · rintro ⟨_, rfl, record, hpending, hdao, -⟩
      have hproposer := hcharge.proposer record hpending
      exact ⟨rfl, record, hpending, Option.some.inj (hproposer.symm.trans hcurrent), hdao⟩
    · rintro ⟨rfl, record, hpending, -, hdao⟩
      exact ⟨_, rfl, record, hpending, hdao, rfl⟩

/-- After a proposal, the DAO can confirm it, and the administrator cannot propose again. -/
theorem succession_never_stuck_of_proposal :
    let run := Ledger.history contract Demo.env
      [Demo.call 1 Demo.admin (.initiateSuccession Demo.dao)]
    (∃ result, confirmSuccession (calledBy run.2 Demo.dao 2) Demo.dao = .ok result) ∧
      ¬∃ result, initiateSuccession (calledBy run.2 Demo.admin 2) Demo.dao = .ok result := by
  intro run
  have hrun : Run (Initialized Demo.admin) (Ledger.Next contract) run.1 run.2 :=
    (Ledger.history_run contract (by decide)).mono fun _ heq => heq ▸ ⟨Demo.deployed, rfl, rfl⟩
  obtain ⟨current, hcurrent, hcalls⟩ := succession_never_stuck Demo.dao hrun
  have hadmin : getAdmin run.2 = .ok Demo.admin := by decide
  cases hadmin.symm.trans hcurrent
  have hpending : getPendingSuccession run.2 = some (newRecord 1 Demo.admin Demo.dao) := by decide
  refine ⟨(hcalls Demo.dao 2).2.2.mpr ⟨rfl, _, hpending, rfl, rfl⟩, fun hinitiate => ?_⟩
  have hnone := ((hcalls Demo.admin 2).1.mp hinitiate).2
  cases hpending.symm.trans hnone

end YieldTrust.Succession
