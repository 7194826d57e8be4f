import YieldTrust.Optimized.Transitions

/-!
# YieldTrust.Optimized.Evidence

What submitted evidence is good for. A submission writes the hash into the grant, and the approval
by the admin looks the evidence up under a storage key of its own. That key is cleared with every
new deadline and never written, so the admin can approve no milestone at all.
-/

namespace YieldTrust.Optimized

open Fallible
open GrantStream (Address Bytes)

variable {host : Host} {env env' : Env} {grantId : Nat} {grant : Grant} {trace : Trace}

/-! ### The storage key -/

/-- No evidence is stored under the key that the admin's approval reads. -/
def Unanchored (env : Env) : Prop := ∀ grantId, readMilestoneEvidence env grantId = none

theorem Unanchored.clearMilestoneEvidence (h : Unanchored env) (grantId : Nat) :
    Unanchored (Optimized.clearMilestoneEvidence env grantId) := by
  intro other
  by_cases hother : other = grantId
  · simp [readMilestoneEvidence, Optimized.clearMilestoneEvidence, hother]
  · simpa [readMilestoneEvidence, Optimized.clearMilestoneEvidence, hother] using h other

theorem Unanchored.transfer (h : Unanchored env) {token source target : Address} {amount : Int} :
    Returns Unanchored (env.transfer token source target amount : Res Env) :=
  .seq fun _ => .pure h

theorem Unanchored.transferToGrantee (h : Unanchored env) (host : Host) {amount : Int} :
    Returns Unanchored (Optimized.transferToGrantee host env grant amount) :=
  .ite (.pure h) (.seq fun _ => h.transfer)

theorem Unanchored.refundToAdmin (h : Unanchored env) (host : Host) {amount : Int} :
    Returns Unanchored (Optimized.refundToAdmin host env amount) :=
  .ite (.pure h) (.seq fun _ => .seq fun _ => h.transfer)

theorem Unanchored.autoCancel (h : Unanchored env) :
    Returns (fun result => Unanchored result.1)
      (maybeAutoCancelMilestoneExpiry env grantId grant) := by
  unfold maybeAutoCancelMilestoneExpiry
  refine .ite (.pure h) (.ite (.pure h) (.ite (.pure h) ?_))
  exact .seq fun _ => .pure h

/-- Nothing writes the key. -/
theorem Unanchored.exec (h : Unanchored env) (call : Call) :
    Returns Unanchored (call.exec host env) := by
  cases call with
  | initializeContract | createGrant | configureMilestoneOracles | submitMilestoneEvidence
  | markMilestoneMet | clawbackMilestone | rageQuit | cancelGrantBitmask | pauseGrant | resumeGrant
  | setGrantFlags | updateRate =>
      repeat refine Returns.seq fun _ => ?_
      exact .pure h
  | setMilestoneDeadline grantId deadline =>
      iterate 3 refine .seq fun _ => ?_
      exact .pure (h.clearMilestoneEvidence grantId)
  | getGrant | claimableBitmask =>
      refine .map (.seq fun _ => .bind h.autoCancel fun result hresult => ?_)
      exact .seq fun _ => .pure hresult
  | processMilestoneExpiry grantId =>
      exact .map (.seq fun _ => .bind h.autoCancel fun result hresult => .pure hresult)
  | withdraw grantId amount =>
      refine .seq fun _ => .seq fun _ => .bind h.autoCancel fun result hresult => ?_
      iterate 7 refine .seq fun _ => ?_
      exact .pure hresult
  | approveMilestone grantId oracle signature =>
      refine .map ?_
      iterate 8 refine .seq fun _ => ?_
      exact .pure h
  | selfTerminate grantId =>
      refine .map ?_
      iterate 6 refine .seq fun _ => ?_
      refine .bind (h.transferToGrantee host) fun env₁ h₁ => ?_
      exact .bind (h₁.refundToAdmin host) fun env₂ h₂ => .pure h₂

theorem unanchored_of_reachable (h : Ledger.Reachable (contract host) trace env) :
    Unanchored env := by
  refine Ledger.store_invariant (I := fun store => ∀ grantId, store.milestoneEvidence grantId = none)
    (fun _ => rfl) (fun {env result call} hexec _ hnone => ?_) h
  have hkept : Unanchored env := hnone
  exact (hkept.exec call).elim hexec

/-- The admin's approval fails, whenever it is tried. -/
theorem Unanchored.markMilestoneMet_ne_ok (h : Unanchored env) (timestamp : Nat)
    (auths : List Address) : markMilestoneMet { env with timestamp, auths } grantId ≠ .ok env' := by
  have hnone : readMilestoneEvidence { env with timestamp, auths } grantId = none := h grantId
  intro hok
  simp only [markMilestoneMet, hnone, okOr, bind_eq_ok] at hok
  obtain ⟨_, -, _, -, _, -, _, hmissing, -⟩ := hok
  exact fail_ne_ok hmissing

/-! ### Submitted evidence -/

/-- The call starts the milestone of the grant anew. -/
def Call.startsReview (grantId : Nat) : Call → Bool
  | .setMilestoneDeadline id _ | .configureMilestoneOracles id _ _ _ => id == grantId
  | _ => false

/-- The call submits evidence for the grant. -/
def Call.submitsEvidence (grantId : Nat) : Call → Bool
  | .submitMilestoneEvidence id _ => id == grantId
  | _ => false

def startsReview (host : Host) (grantId : Nat) (e : Step) : Bool :=
  (Ledger.called (contract host) e).any (Call.startsReview grantId)

def submitsEvidence (host : Host) (grantId : Nat) (e : Step) : Bool :=
  (Ledger.called (contract host) e).any (Call.submitsEvidence grantId)

/-- Evidence was submitted since the last new deadline or configuration. -/
def EvidenceSubmitted (host : Host) (grantId : Nat) (trace : Trace) : Prop :=
  ∃ e ∈ Run.since (startsReview host grantId) trace, submitsEvidence host grantId e = true

instance (host : Host) (grantId : Nat) (trace : Trace) :
    Decidable (EvidenceSubmitted host grantId trace) :=
  inferInstanceAs (Decidable (∃ e ∈ Run.since (startsReview host grantId) trace, _))

/-- Submitted evidence lets the admin approve the milestone, at any time, and nothing else does. -/
structure EvidenceEnables (host : Host) (grantId : Nat) (trace : Trace) (env : Env) : Prop where
  approves : EvidenceSubmitted host grantId trace → ∃ admin, env.store.admin = some admin ∧
    ∀ timestamp auths, admin ∈ auths → ∃ env' grant',
      markMilestoneMet { env with timestamp, auths } grantId = .ok env' ∧
        env'.store.grants grantId = some grant' ∧ grant'.milestoneMet = true
  refuses : ¬EvidenceSubmitted host grantId trace → ∀ timestamp auths env',
    markMilestoneMet { env with timestamp, auths } grantId ≠ .ok env'

/-- **Evidence.** In every reachable state, and for every grant, it is the submitted evidence that
lets the admin approve the milestone exactly as long as none was submitted. -/
theorem evidence_enables_iff (h : Ledger.Reachable (contract host) trace env) (grantId : Nat) :
    EvidenceEnables host grantId trace env ↔ ¬EvidenceSubmitted host grantId trace := by
  have hnever := unanchored_of_reachable h
  constructor
  · intro henables hsubmitted
    obtain ⟨admin, -, happroves⟩ := henables.approves hsubmitted
    obtain ⟨env', grant', hok, -⟩ := happroves 0 [admin] List.mem_cons_self
    exact hnever.markMilestoneMet_ne_ok 0 [admin] hok
  · intro hnone
    exact ⟨fun hsubmitted => absurd hsubmitted hnone,
      fun _ timestamp auths _ => hnever.markMilestoneMet_ne_ok timestamp auths⟩

/-- Before the submission the admin cannot approve the milestone, as it should be. -/
theorem evidence_enables_before_submission :
    let run := Ledger.history (contract Demo.host) Demo.env (Demo.oracleGrant.take 3)
    (∃ grant, run.2.store.grants 7 = some grant ∧
      hasStatus grant.statusMask statusMilestoneBased = true) ∧
        EvidenceEnables Demo.host 7 run.1 run.2 := by
  intro run
  have hrun : Ledger.Reachable (contract Demo.host) run.1 run.2 :=
    Ledger.history_reachable _ Demo.env_deployed (by decide)
  exact ⟨⟨_, rfl, by decide⟩, (evidence_enables_iff hrun 7).mpr (by decide)⟩

/-- After it the admin cannot either. -/
theorem evidence_enables_nothing :
    ¬∀ trace env, Ledger.Reachable (contract Demo.host) trace env → ∀ grantId grant,
      env.store.grants grantId = some grant →
      hasStatus grant.statusMask statusMilestoneBased = true →
      EvidenceEnables Demo.host grantId trace env := by
  intro h
  let run := Ledger.history (contract Demo.host) Demo.env Demo.oracleGrant
  have hrun : Ledger.Reachable (contract Demo.host) run.1 run.2 :=
    Ledger.history_reachable _ Demo.env_deployed (by decide)
  obtain ⟨grant, hgrant, hmilestone⟩ : ∃ grant, run.2.store.grants 7 = some grant ∧
      hasStatus grant.statusMask statusMilestoneBased = true := ⟨_, rfl, by decide⟩
  obtain ⟨admin, -, happroves⟩ := (h run.1 run.2 hrun 7 grant hgrant hmilestone).approves (by decide)
  obtain ⟨env', grant', hok, -⟩ := happroves 20 [admin] List.mem_cons_self
  exact (unanchored_of_reachable hrun).markMilestoneMet_ne_ok 20 [admin] hok

end YieldTrust.Optimized
