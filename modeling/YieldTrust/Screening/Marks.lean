import YieldTrust.Lib.Register
import YieldTrust.Screening.Contract

/-!
# YieldTrust.Screening.Marks

What the marks tell **over a run**: the newest call of the one in charge on that address. The one in
charge is named once, and nobody else ever sets or removes a mark.
-/

namespace YieldTrust.Screening

open Fallible
open GrantStream (Address)

variable {M κ : Type} [DecidableEq M] {S : Screen M κ} {env env' : Env M} {mark : M}
  {authority target : Address} {value : Option Bool} {op : Operation M}
  {e : Run.Step (Env M) (Ledger.Event Address κ)} {trace : Ledger.Trace Address (Store M) κ}

/-! ### What an operation does -/

def Operation.appointed : Operation M → Option Address
  | .appoint authority => some authority
  | .putMark _ _ _ => none

/-- What the operation leaves under the mark of `target`, if it writes there. -/
def Operation.written (mark : M) (target : Address) : Operation M → Option (Option Bool)
  | .putMark mark' target' value =>
      if mark = mark' ∧ target = target' then some value else none
  | .appoint _ => none

/-- What an operation does: one is named where nobody was, or the one in charge has signed. -/
structure Effect (env : Env M) (op : Operation M) (store : Store M) : Prop where
  authority : store.authority = (op.appointed.map some).getD env.store.authority
  mark : ∀ mark target,
    store.mark mark target = (op.written mark target).getD (env.store.mark mark target)
  vacant : op.appointed ≠ none → env.store.authority = none
  signed : op.appointed = none → ∃ authority, env.store.authority = some authority ∧
    authority ∈ env.auths

/-- **Inversion** of an operation that goes through. -/
theorem exec_effect (h : op.exec env = .ok env') : Effect env op env'.store := by
  cases op with
  | appoint authority =>
      simp only [Operation.exec, appoint, bind_eq_ok, ensure_eq_ok, pure_eq_ok] at h
      obtain ⟨-, hvacant, rfl⟩ := h
      exact { authority := rfl, mark := fun _ _ => rfl, vacant := fun _ => hvacant
              signed := by simp [Operation.appointed] }
  | putMark mark' target' value =>
      simp only [Operation.exec, putMark, bind_eq_ok, okOr_eq_ok, pure_eq_ok] at h
      obtain ⟨authority, hauthority, _, hauth, rfl⟩ := h
      refine { authority := rfl
               mark := fun mark target => ?_
               vacant := by simp [Operation.appointed]
               signed := fun _ => ⟨authority, hauthority, require_eq_ok.mp hauth⟩ }
      by_cases hmark : mark = mark'
      · subst hmark
        by_cases htarget : target = target'
        · subst htarget
          simp [Operation.written]
        · simp [Operation.written, htarget]
      · simp [Operation.written, hmark]

/-! ### Runs -/

/-- The operation of the step, if a call went through. -/
def operated (S : Screen M κ) (e : Run.Step (Env M) (Ledger.Event Address κ)) :
    Option (Operation M) :=
  (Ledger.called S.contract e).map S.operation

/-- Whom the step puts in charge. -/
def appointed (S : Screen M κ) (e : Run.Step (Env M) (Ledger.Event Address κ)) : Option Address :=
  (operated S e).bind Operation.appointed

/-- What the step leaves under the mark of `target`, if it writes there. -/
def written (S : Screen M κ) (mark : M) (target : Address)
    (e : Run.Step (Env M) (Ledger.Event Address κ)) : Option (Option Bool) :=
  (operated S e).bind (Operation.written mark target)

theorem effect_of_next (hn : Ledger.Next S.contract e.before e.action e.after) :
    (operated S e = none ∧ e.after.store = e.before.store) ∨
      ∃ op, operated S e = some op ∧ Effect (e.before.enter e.action) op e.after.store := by
  have hexec {call : κ} {result : Env M}
      (h : S.contract.exec (e.before.enter e.action) call = .ok result) :
      Effect (e.before.enter e.action) (S.operation call) result.store :=
    exec_effect ((S.exec_eq _ call).symm.trans h)
  rcases Ledger.effect_of_next hn (fun _ h => hexec h) with
    ⟨hnone, hstore⟩ | ⟨call, hcalled, heffect⟩
  · exact .inl ⟨by simp [operated, hnone], hstore⟩
  · exact .inr ⟨S.operation call, by simp [operated, hcalled], heffect⟩

/-- The mark of an address is what was written to it last. -/
theorem mark_eq (h : Ledger.Reachable S.contract trace env) (mark : M) (target : Address) :
    env.store.mark mark target = Run.lastWritten (written S mark target) none trace := by
  refine Run.register_eq (f := fun env : Env M => env.store.mark mark target) ?_ ?_ h
  · rintro _ ⟨self, tokens, rfl⟩
    simp [Ledger.Env.deployed, S.initial_eq]
  · intro e hn
    rcases effect_of_next hn with ⟨hnone, hstore⟩ | ⟨op, hop, heffect⟩
    · simp [written, hnone, hstore]
    · rw [heffect.mark, written, hop]
      rfl

/-- The one in charge is named once, and never changes. -/
theorem appointed_eq (h : Ledger.Reachable S.contract trace env) :
    trace.filterMap (appointed S) = env.store.authority.toList := by
  induction h with
  | start h =>
      obtain ⟨self, tokens, rfl⟩ := h
      simp [Ledger.Env.deployed, S.initial_eq]
  | @step older before event after hrun hn ih =>
      rcases effect_of_next (e := ⟨before, event, after⟩) hn with
        ⟨hnone, hstore⟩ | ⟨op, hop, heffect⟩
      · have hidle : appointed S ⟨before, event, after⟩ = none := by simp [appointed, hnone]
        rw [List.filterMap_cons_none hidle, ih]
        exact congrArg (fun store => store.authority.toList) hstore.symm
      · have hauthority := heffect.authority
        dsimp only at hauthority
        cases hnamed : op.appointed with
        | none =>
            have hnone : appointed S ⟨before, event, after⟩ = none := by
              simp [appointed, hop, hnamed]
            rw [List.filterMap_cons_none hnone, ih, hauthority, hnamed]
            rfl
        | some authority =>
            have hsome : appointed S ⟨before, event, after⟩ = some authority := by
              simp [appointed, hop, hnamed]
            have hvacant : before.store.authority = none := heffect.vacant (by simp [hnamed])
            rw [List.filterMap_cons_some hsome, ih, hauthority, hnamed, hvacant]
            rfl

/-- Whoever is in charge stays so. -/
theorem authority_stays (h : Ledger.Reachable S.contract trace env) (he : e ∈ trace)
    (hauthority : e.before.store.authority = some authority) :
    env.store.authority = some authority := by
  induction h with
  | start => cases he
  | @step older before event after hrun hn ih =>
      have hbefore : before.store.authority = some authority := by
        rcases List.mem_cons.mp he with rfl | he
        · exact hauthority
        · exact ih he
      rcases effect_of_next (e := ⟨before, event, after⟩) hn with ⟨-, hstore⟩ | ⟨op, -, heffect⟩
      · exact (congrArg Store.authority hstore).trans hbefore
      · have hnamed : op.appointed = none := by
          by_contra hne
          cases hbefore.symm.trans (heffect.vacant hne)
        have hkept := heffect.authority
        rw [hnamed] at hkept
        exact hkept.trans hbefore

/-- Everything but `init` is signed by the one in charge. -/
theorem signed_of_called {call : κ} (h : Ledger.Reachable S.contract trace env) (he : e ∈ trace)
    (hcalled : Ledger.called S.contract e = some call)
    (hunnamed : (S.operation call).appointed = none) :
    ∃ authority, env.store.authority = some authority ∧
      authority ∈ (e.before.enter e.action).auths := by
  have hop : operated S e = some (S.operation call) := by simp [operated, hcalled]
  obtain ⟨older, -, hn⟩ := h.of_mem he
  rcases effect_of_next hn with ⟨hnone, -⟩ | ⟨op, hop', heffect⟩
  · cases hnone.symm.trans hop
  · obtain rfl := Option.some.inj (hop'.symm.trans hop)
    obtain ⟨authority, hauthority, hauth⟩ := heffect.signed hunnamed
    exact ⟨authority, authority_stays h he hauthority, hauth⟩

/-- The mark is read as set exactly if it was written as set, and not written since. -/
theorem readMark_iff (h : Ledger.Reachable S.contract trace env) :
    readMark env mark target = true ↔
      ∃ newer e older, trace = newer ++ e :: older ∧ written S mark target e = some (some true) ∧
        ∀ e' ∈ newer, written S mark target e' = none := by
  rw [readMark, mark_eq h]
  constructor
  · intro hread
    rcases Run.lastWritten_cases (written S mark target) none trace with
      ⟨-, hnone⟩ | ⟨newer, e, older, rfl, hwrite, hnewer⟩
    · simp [hnone] at hread
    · refine ⟨newer, e, older, rfl, ?_, hnewer⟩
      cases hlast : Run.lastWritten (written S mark target) none (newer ++ e :: older) with
      | none => simp [hlast] at hread
      | some value =>
          rw [hlast] at hread hwrite
          obtain rfl : value = true := hread
          exact hwrite
  · rintro ⟨newer, e, older, rfl, hwrite, hnewer⟩
    rw [Run.lastWritten_of_newest hnewer hwrite]
    rfl

theorem written_eq_some : written S mark target e = some value ↔
    ∃ call, Ledger.called S.contract e = some call ∧
      (S.operation call).written mark target = some value := by
  unfold written operated
  cases Ledger.called S.contract e with
  | none => simp
  | some call => simp

/-- A mark that one call sets and another one removes. -/
theorem readMark_iff_of_toggle {set clear : κ}
    (htoggle : ∀ call value, (S.operation call).written mark target = some value ↔
      call = set ∧ value = some true ∨ call = clear ∧ value = none)
    (h : Ledger.Reachable S.contract trace env) :
    readMark env mark target = true ↔
      ∃ newer e older, trace = newer ++ e :: older ∧ Ledger.called S.contract e = some set ∧
        ∀ e' ∈ newer, Ledger.called S.contract e' ≠ some set ∧
          Ledger.called S.contract e' ≠ some clear := by
  have hset (e : Run.Step (Env M) (Ledger.Event Address κ)) :
      written S mark target e = some (some true) ↔ Ledger.called S.contract e = some set := by
    simp [written_eq_some, htoggle]
  have hunwritten (e : Run.Step (Env M) (Ledger.Event Address κ)) :
      written S mark target e = none ↔ Ledger.called S.contract e ≠ some set ∧
        Ledger.called S.contract e ≠ some clear := by
    rw [Option.eq_none_iff_forall_ne_some]
    simp only [ne_eq, written_eq_some, htoggle]
    constructor
    · intro hnone
      exact ⟨fun hcalled => hnone _ ⟨set, hcalled, .inl ⟨rfl, rfl⟩⟩,
        fun hcalled => hnone _ ⟨clear, hcalled, .inr ⟨rfl, rfl⟩⟩⟩
    · rintro ⟨hne, hne'⟩ value ⟨call, hcalled, ⟨rfl, -⟩ | ⟨rfl, -⟩⟩
      · exact hne hcalled
      · exact hne' hcalled
  simp only [readMark_iff h, hset, hunwritten]

/-- A mark that is never removed. -/
theorem readMark_iff_of_set {set : κ}
    (hset : ∀ call value, (S.operation call).written mark target = some value ↔
      call = set ∧ value = some true)
    (h : Ledger.Reachable S.contract trace env) :
    readMark env mark target = true ↔ ∃ e ∈ trace, Ledger.called S.contract e = some set := by
  have hwritten {e : Run.Step (Env M) (Ledger.Event Address κ)} {value : Option Bool} :
      written S mark target e = some value ↔
        Ledger.called S.contract e = some set ∧ value = some true := by
    simp [written_eq_some, hset]
  rw [readMark, mark_eq h]
  rcases Run.lastWritten_cases (written S mark target) none trace with
    ⟨hnone, hlast⟩ | ⟨newer, e, older, rfl, hwrite, -⟩
  · rw [hlast]
    refine iff_of_false Bool.false_ne_true ?_
    rintro ⟨e, he, hcalled⟩
    cases (hnone e he).symm.trans (hwritten.mpr ⟨hcalled, rfl⟩)
  · obtain ⟨hcalled, hlast⟩ := hwritten.mp hwrite
    rw [hlast]
    exact iff_of_true rfl ⟨e, by simp, hcalled⟩

end YieldTrust.Screening

/-! ### `contracts/compliance` -/

namespace YieldTrust.Compliance

open GrantStream (Address)
open Screening

variable {trace : Trace} {env : Env}

/-- **Compliance.** In every run `init` goes through once, and the officer it names signs every
other call. An address is shown as sanctioned exactly if the newest call on it sanctioned it, and
as flagged exactly if it was ever flagged. -/
theorem officer_screens (h : Ledger.Reachable contract trace env) :
    trace.filterMap (appointed screen) = env.store.authority.toList ∧
    (∀ e ∈ trace, ∀ call, Ledger.called contract e = some call →
      (∀ officer, call ≠ .init officer) →
        ∃ officer, env.store.authority = some officer ∧
          officer ∈ (e.before.enter e.action).auths) ∧
    (∀ target, isSanctioned env target = true ↔
      ∃ newer e older, trace = newer ++ e :: older ∧
        Ledger.called contract e = some (.sanction target) ∧
        ∀ e' ∈ newer, Ledger.called contract e' ≠ some (.sanction target) ∧
          Ledger.called contract e' ≠ some (.unsanction target)) ∧
    ∀ target, isFlagged env target = true ↔
      ∃ e ∈ trace, Ledger.called contract e = some (.flagAddress target) := by
  have h : Ledger.Reachable screen.contract trace env := h
  refine ⟨appointed_eq h, ?_, fun target => readMark_iff_of_toggle ?_ h,
    fun target => readMark_iff_of_set ?_ h⟩
  · intro e he call hcalled hnot
    refine signed_of_called h he hcalled ?_
    cases call with
    | init officer => exact absurd rfl (hnot officer)
    | _ => rfl
  · intro call value
    cases call <;> simp [screen, Operation.written, eq_comm]
  · intro call value
    cases call <;> simp [screen, Operation.written, eq_comm]

/-- A suspect that is sanctioned and flagged names itself the officer in vain; after the sanction is
lifted the flag remains. -/
theorem officer_screens_of_suspect :
    let run := Ledger.history contract Demo.env
      [Demo.call 1 Demo.officer (.init Demo.officer),
        Demo.call 2 Demo.officer (.sanction Demo.suspect),
        Demo.call 3 Demo.officer (.flagAddress Demo.suspect),
        Demo.call 4 Demo.suspect (.init Demo.suspect),
        Demo.call 5 Demo.suspect (.unsanction Demo.suspect),
        Demo.call 6 Demo.officer (.unsanction Demo.suspect)]
    isSanctioned run.2 Demo.suspect = false ∧ isFlagged run.2 Demo.suspect = true ∧
      run.1.filterMap (appointed screen) = [Demo.officer] := by
  intro run
  have hrun : Ledger.Reachable contract run.1 run.2 :=
    Ledger.history_reachable contract ⟨_, _, rfl⟩ (by decide)
  obtain ⟨hnamed, -, -, hflagged⟩ := officer_screens hrun
  exact ⟨by decide, (hflagged Demo.suspect).mpr (by decide), hnamed⟩

end YieldTrust.Compliance

/-! ### `contracts/zk_kyc` -/

namespace YieldTrust.ZkKyc

open GrantStream (Address)
open Screening

variable {trace : Trace} {env : Env}

/-- **Know your customer.** In every run `init` goes through once, and the verifier it names signs
every other call. A user is shown as verified exactly if the newest call on it verified it. -/
theorem verifier_decides (h : Ledger.Reachable contract trace env) :
    trace.filterMap (appointed screen) = env.store.authority.toList ∧
    (∀ e ∈ trace, ∀ call, Ledger.called contract e = some call →
      (∀ verifier, call ≠ .init verifier) →
        ∃ verifier, env.store.authority = some verifier ∧
          verifier ∈ (e.before.enter e.action).auths) ∧
    ∀ user, isVerified env user = true ↔
      ∃ newer e older, trace = newer ++ e :: older ∧
        Ledger.called contract e = some (.verifyUser user) ∧
        ∀ e' ∈ newer, Ledger.called contract e' ≠ some (.verifyUser user) ∧
          Ledger.called contract e' ≠ some (.revokeUser user) := by
  have h : Ledger.Reachable screen.contract trace env := h
  refine ⟨appointed_eq h, ?_, fun user => readMark_iff_of_toggle ?_ h⟩
  · intro e he call hcalled hnot
    refine signed_of_called h he hcalled ?_
    cases call with
    | init verifier => exact absurd rfl (hnot verifier)
    | _ => rfl
  · intro call value
    cases call <;> simp [screen, Operation.written, eq_comm]

/-- A user that was revoked does not verify itself again. -/
theorem verifier_decides_of_revoked :
    let run := Ledger.history contract Demo.env
      [Demo.call 1 Demo.verifier (.init Demo.verifier),
        Demo.call 2 Demo.verifier (.verifyUser Demo.user),
        Demo.call 3 Demo.verifier (.revokeUser Demo.user),
        Demo.call 4 Demo.user (.verifyUser Demo.user)]
    isVerified run.2 Demo.user = false ∧
      run.1.filterMap (appointed screen) = [Demo.verifier] := by
  intro run
  have hrun : Ledger.Reachable contract run.1 run.2 :=
    Ledger.history_reachable contract ⟨_, _, rfl⟩ (by decide)
  exact ⟨by decide, (verifier_decides hrun).1⟩

end YieldTrust.ZkKyc
