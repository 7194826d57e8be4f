import YieldTrust.Optimized.Transitions

/-!
# YieldTrust.Optimized.Consensus

The **consensus of the oracles** on a milestone. The approvers that a grant lists are distinct
whitelisted oracles, each of them has signed the evidence and the window that the grant
stores. That they did so since the milestone was last reset holds as long as the deadline is
not moved while approvals are listed: `setMilestoneDeadline` resets the milestone and keeps
its approvers.
-/

namespace YieldTrust.Optimized

open Fallible
open GrantStream (Address Bytes)

variable {host : Host} {env : Env} {grant grant' settled : Grant} {grantId now : Nat} {call : Call}

/-- The approvers are distinct oracles of the grant. -/
structure Grant.ListsOracles (grant : Grant) : Prop where
  nodup : grant.milestoneApprovers.Nodup
  subset : grant.milestoneApprovers ⊆ grant.milestoneOracles

/-- The calls that reset the milestone of a grant. -/
def Call.resets (grantId : Nat) : Call → Bool
  | .setMilestoneDeadline id _ | .configureMilestoneOracles id _ _ _
  | .submitMilestoneEvidence id _ => id == grantId
  | _ => false

theorem Call.resets_of_writes (h : call.writes grantId = false) :
    call.resets grantId = false := by
  cases call with
  | setMilestoneDeadline | configureMilestoneOracles | submitMilestoneEvidence => exact h
  | _ => rfl

/-- Two grants agree on all that the approvals are about. -/
structure SameConsensus (grant grant' : Grant) : Prop where
  oracles : grant'.milestoneOracles = grant.milestoneOracles
  approvers : grant'.milestoneApprovers = grant.milestoneApprovers
  evidence : grant'.milestoneEvidenceHash = grant.milestoneEvidenceHash
  window : grant'.milestoneDisputeWindowEnd = grant.milestoneDisputeWindowEnd

theorem Settlement.sameConsensus (h : Settlement grant now settled) :
    SameConsensus grant settled ∧ settled.milestoneMet = grant.milestoneMet := by
  cases h <;> exact ⟨⟨rfl, rfl, rfl, rfl⟩, rfl⟩

theorem approvedBy_fields (grant : Grant) (oracle : Bytes) :
    (grant.approvedBy oracle).milestoneApprovers = grant.milestoneApprovers ++ [oracle] ∧
      (grant.approvedBy oracle).milestoneOracles = grant.milestoneOracles ∧
      (grant.approvedBy oracle).milestoneEvidenceHash = grant.milestoneEvidenceHash ∧
      (grant.approvedBy oracle).milestoneDisputeWindowEnd = grant.milestoneDisputeWindowEnd ∧
      ((grant.approvedBy oracle).milestoneMet = true → grant.milestoneMet = true ∨
        grant.milestoneThreshold ≤ (grant.milestoneApprovers ++ [oracle]).length) := by
  unfold Grant.approvedBy
  split
  · case isTrue hle => exact ⟨rfl, rfl, rfl, rfl, fun _ => .inr hle⟩
  · exact ⟨rfl, rfl, rfl, rfl, .inl⟩

/-- What a transition does to the approvals: it keeps them, it clears them, or it adds one
that was verified. -/
inductive ApprovalEffect (host : Host) (env : Env) (grantId : Nat) (grant : Grant) :
    Call → Grant → Prop
  | kept (call : Call) (grant' : Grant) (hsame : SameConsensus grant grant')
      (hresets : call.resets grantId = false ∨
        ∃ deadline, call = .setMilestoneDeadline grantId deadline) :
      ApprovalEffect host env grantId grant call grant'
  | cleared (call : Call) (grant' : Grant) (hnone : grant'.milestoneApprovers = []) :
      ApprovalEffect host env grantId grant call grant'
  | approved (oracle signature evidenceHash : Bytes)
      (horacle : oracle ∈ grant.milestoneOracles) (hfresh : oracle ∉ grant.milestoneApprovers)
      (hevidence : grant.milestoneEvidenceHash = some evidenceHash)
      (hwindow : env.timestamp ≤ grant.milestoneDisputeWindowEnd)
      (hverify : host.ed25519Verify oracle (buildMilestoneApprovalPayload env grantId evidenceHash
        grant.milestoneDisputeWindowEnd) signature = true) :
      ApprovalEffect host env grantId grant (.approveMilestone grantId oracle signature)
        (grant.approvedBy oracle)

theorem Transition.approvalEffect (h : Transition host env grantId grant call grant') :
    ApprovalEffect host env grantId grant call grant' := by
  have hsettled {settled : Grant} {ts : Nat} (hsettle : settleGrant grant ts = .ok settled) :
      SameConsensus grant settled := (settleGrant_eq_ok hsettle).sameConsensus.1
  cases h with
  | cancelled _ _ hsettle | paused _ _ hsettle | resumed _ _ hsettle | flagged _ _ _ _ hsettle
  | withdrawn _ _ _ _ hsettle | rateUpdated _ _ _ hsettle | clawedBack _ hsettle
  | rageQuit _ _ hsettle | selfTerminated _ _ hsettle =>
      obtain ⟨horacles, happrovers, hevidence, hwindow⟩ := hsettled hsettle
      exact .kept _ _ ⟨horacles, happrovers, hevidence, hwindow⟩ (.inl rfl)
  | expired _ hcall _ _ hsettle =>
      obtain ⟨horacles, happrovers, hevidence, hwindow⟩ := hsettled hsettle
      exact .kept _ _ ⟨horacles, happrovers, hevidence, hwindow⟩
        (.inl (Call.resets_of_writes (call.writes_of_mayExpire hcall grantId)))
  | deadlineSet deadline =>
      exact .kept _ _ ⟨rfl, rfl, rfl, rfl⟩ (.inr ⟨deadline, rfl⟩)
  | markedMet => exact .kept _ _ ⟨rfl, rfl, rfl, rfl⟩ (.inl rfl)
  | oraclesConfigured | evidenceSubmitted => exact .cleared _ _ rfl
  | approved oracle signature evidenceHash _ horacle hfresh hevidence hwindow hverify =>
      exact .approved oracle signature evidenceHash horacle hfresh hevidence hwindow hverify

theorem GrantEffect.listsOracles (h : GrantEffect host env call grantId grant')
    (hbefore : ∀ grant, env.store.grants grantId = some grant → grant.ListsOracles) :
    grant'.ListsOracles := by
  cases h with
  | untouched _ hgrant => exact hbefore grant' hgrant
  | created => exact ⟨List.nodup_nil, List.nil_subset _⟩
  | moved grant _ hgrant htransition =>
      obtain ⟨hnodup, hsubset⟩ := hbefore grant hgrant
      cases htransition.approvalEffect with
      | kept _ _ hsame =>
          refine ⟨?_, ?_⟩
          · rw [hsame.approvers]
            exact hnodup
          · rw [hsame.approvers, hsame.oracles]
            exact hsubset
      | cleared _ _ hnone =>
          refine ⟨?_, ?_⟩ <;> rw [hnone]
          · exact List.nodup_nil
          · exact List.nil_subset _
      | approved oracle _ _ horacle hfresh =>
          obtain ⟨happrovers, horacles, -⟩ := approvedBy_fields grant oracle
          refine ⟨?_, ?_⟩
          · rw [happrovers]
            refine List.nodup_append.mpr ⟨hnodup, by simp, fun o ho o' ho' heq => ?_⟩
            rw [List.mem_singleton] at ho'
            exact hfresh (ho' ▸ heq ▸ ho)
          · rw [happrovers, horacles]
            exact List.append_subset.mpr ⟨hsubset, by simpa using horacle⟩

/-! ### Runs -/

/-- The step resets the milestone of the grant. -/
def resets (host : Host) (grantId : Nat) (e : Step) : Bool :=
  (Ledger.called (contract host) e).any (Call.resets grantId)

/-- The step accepts a signature of `oracle` over this evidence and window, in time. -/
def Accepts (host : Host) (grantId : Nat) (evidenceHash : Bytes) (windowEnd : Nat)
    (oracle : Bytes) (e : Step) : Prop :=
  e.action.timestamp ≤ windowEnd ∧ ∃ signature,
    Ledger.called (contract host) e = some (.approveMilestone grantId oracle signature) ∧
      host.ed25519Verify oracle
        (buildMilestoneApprovalPayload e.before grantId evidenceHash windowEnd) signature = true

/-- The milestone of a grant that the step approves is backed: as many distinct oracles of the
grant as its threshold have signed its evidence and window since it was last reset. -/
def ConsensusBacked (host : Host) (e : Step) (older : Trace) : Prop :=
  ∀ grantId oracle signature grant grant',
    Ledger.called (contract host) e = some (.approveMilestone grantId oracle signature) →
    e.before.store.grants grantId = some grant → e.after.store.grants grantId = some grant' →
    grant.milestoneMet = false → grant'.milestoneMet = true →
      ∃ evidenceHash oracles, grant.milestoneEvidenceHash = some evidenceHash ∧
        oracles.Nodup ∧ oracles ⊆ grant.milestoneOracles ∧
        grant.milestoneThreshold ≤ oracles.length ∧
        ∀ o ∈ oracles, ∃ e' ∈ e :: Run.since (resets host grantId) older,
          Accepts host grantId evidenceHash grant.milestoneDisputeWindowEnd o e'

/-- The deadline is moved only while no approval is listed. -/
def DeadlineGuarded (host : Host) (e : Step) : Prop :=
  match Ledger.called (contract host) e with
  | some (.setMilestoneDeadline grantId _) =>
      ∀ grant ∈ e.before.store.grants grantId, grant.milestoneApprovers = []
  | _ => True

instance (host : Host) (e : Step) : Decidable (DeadlineGuarded host e) := by
  unfold DeadlineGuarded
  split
  · exact inferInstance
  · exact inferInstanceAs (Decidable True)

/-- Every listed approver has signed what the grant stores, since the last reset. -/
def ApprovalsFresh (host : Host) (trace : Trace) (env : Env) : Prop :=
  ∀ grantId grant, env.store.grants grantId = some grant → ∀ o ∈ grant.milestoneApprovers,
    ∃ evidenceHash, grant.milestoneEvidenceHash = some evidenceHash ∧
      ∃ e ∈ Run.since (resets host grantId) trace,
        Accepts host grantId evidenceHash grant.milestoneDisputeWindowEnd o e

section Steps

variable {trace older : Trace} {e : Step}

theorem listsOracles_of_reachable (h : Ledger.Reachable (contract host) trace env)
    (hgrant : env.store.grants grantId = some grant) : grant.ListsOracles := by
  refine Ledger.store_invariant (I := fun store => ∀ grantId grant,
    store.grants grantId = some grant → grant.ListsOracles) ?_ ?_ h grantId grant hgrant
  · intro grantId grant hgrant
    cases hgrant
  · intro env result call hexec _ ih id g hg
    have heffect : Effect host env call result.store.grants := exec_effect hexec
    exact (heffect.grantEffect hg).listsOracles (ih id)

/-- A step after which the approvals are still listed keeps them fresh. -/
theorem approvalsFresh_step (hn : Ledger.Next (contract host) e.before e.action e.after)
    (hguard : DeadlineGuarded host e) (hfresh : ApprovalsFresh host older e.before) :
    ApprovalsFresh host (e :: older) e.after := by
  intro grantId grant' hgrant' o ho
  -- the approvals before a step that resets nothing
  have hkeep {grant : Grant} (hgrant : e.before.store.grants grantId = some grant)
      (ho : o ∈ grant.milestoneApprovers) (hresets : resets host grantId e = false) :
      ∃ evidenceHash, grant.milestoneEvidenceHash = some evidenceHash ∧
        ∃ e' ∈ Run.since (resets host grantId) (e :: older),
          Accepts host grantId evidenceHash grant.milestoneDisputeWindowEnd o e' := by
    obtain ⟨evidenceHash, hevidence, e', he', haccepts⟩ := hfresh grantId grant hgrant o ho
    rw [Run.since_cons_of_neg hresets]
    exact ⟨evidenceHash, hevidence, e', List.mem_cons_of_mem e he', haccepts⟩
  rcases effect_of_next hn with ⟨hcalled, hstore⟩ | ⟨call, hcalled, heffect⟩
  · rw [hstore] at hgrant'
    exact hkeep hgrant' ho (by simp [resets, hcalled])
  · have hresets : resets host grantId e = call.resets grantId := by simp [resets, hcalled]
    cases heffect.grantEffect hgrant' with
    | untouched _ hgrant hcall => exact hkeep hgrant ho (hresets.trans (Call.resets_of_writes hcall))
    | created => cases ho
    | moved grant _ hgrant htransition =>
        have hgrant : e.before.store.grants grantId = some grant := hgrant
        cases htransition.approvalEffect with
        | kept _ _ hsame hcall =>
            rw [hsame.approvers] at ho
            rw [hsame.evidence, hsame.window]
            rcases hcall with hcall | ⟨deadline, rfl⟩
            · exact hkeep hgrant ho (hresets.trans hcall)
            · simp only [DeadlineGuarded, hcalled] at hguard
              rw [hguard grant hgrant] at ho
              cases ho
        | cleared _ _ hnone =>
            rw [hnone] at ho
            cases ho
        | approved oracle signature evidenceHash _ _ hevidence hwindow hverify =>
            obtain ⟨happrovers, -, hsame, hend, -⟩ := approvedBy_fields grant oracle
            rw [happrovers, List.mem_append, List.mem_singleton] at ho
            rw [hsame, hend]
            rcases ho with ho | rfl
            · exact hkeep hgrant ho hresets
            · rw [Run.since_cons_of_neg hresets]
              exact ⟨evidenceHash, hevidence, e, List.mem_cons_self, hwindow, signature, hcalled,
                hverify⟩

theorem approvalsFresh_of_guarded (h : Ledger.Reachable (contract host) trace env)
    (hguard : Run.Each (fun e _ => DeadlineGuarded host e) trace) :
    ApprovalsFresh host trace env := by
  induction h with
  | start h =>
      obtain ⟨self, tokens, rfl⟩ := h
      intro grantId grant hgrant
      cases hgrant
  | @step trace env event env' hrun hn ih =>
      exact approvalsFresh_step (e := ⟨env, event, env'⟩) hn hguard.1 (ih hguard.2)

theorem consensusBacked_of_fresh (h : Ledger.Reachable (contract host) older e.before)
    (hn : Ledger.Next (contract host) e.before e.action e.after)
    (hguard : DeadlineGuarded host e) (hfresh : ApprovalsFresh host older e.before) :
    ConsensusBacked host e older := by
  intro grantId oracle signature grant grant' hcalled hgrant hgrant' hunmet hmet
  have hafter := approvalsFresh_step hn hguard hfresh grantId grant' hgrant'
  obtain ⟨hnodup, hsubset⟩ := listsOracles_of_reachable (.step h hn) hgrant'
  rw [Run.since_cons_of_neg (by simp [resets, hcalled, Call.resets])] at hafter
  rcases effect_of_next hn with ⟨hnone, -⟩ | ⟨call, hcall, heffect⟩
  · cases hnone.symm.trans hcalled
  · obtain rfl := Option.some.inj (hcall.symm.trans hcalled)
    cases heffect.grantEffect hgrant' with
    | untouched _ _ hwrites => simp [Call.writes] at hwrites
    | created _ _ _ _ hcreate => cases hcreate
    | moved before _ hbefore htransition =>
        have hbefore : e.before.store.grants grantId = some before := hbefore
        obtain rfl := Option.some.inj (hbefore.symm.trans hgrant)
        cases htransition with
        | expired _ hmay => cases hmay
        | approved _ _ evidenceHash _ _ _ hevidence =>
            obtain ⟨happrovers, horacles, hsame, hend, hthreshold⟩ := approvedBy_fields before oracle
            rw [happrovers] at hnodup hafter
            rw [happrovers, horacles] at hsubset
            rw [hsame, hend] at hafter
            have hle := (hthreshold hmet).resolve_left (by simp [hunmet])
            refine ⟨evidenceHash, _, hevidence, hnodup, hsubset, hle, fun o ho => ?_⟩
            obtain ⟨evidenceHash', hevidence', hsigned⟩ := hafter o ho
            obtain rfl := Option.some.inj (hevidence.symm.trans hevidence')
            exact hsigned

/-- Right after a reset, one approval only backs a threshold of one. -/
theorem ConsensusBacked.threshold_le {oracle signature : Bytes} (h : ConsensusBacked host e older)
    (hcalled : Ledger.called (contract host) e =
      some (.approveMilestone grantId oracle signature))
    (hgrant : e.before.store.grants grantId = some grant)
    (hgrant' : e.after.store.grants grantId = some grant')
    (hunmet : grant.milestoneMet = false) (hmet : grant'.milestoneMet = true)
    (hsince : Run.since (resets host grantId) older = []) : grant.milestoneThreshold ≤ 1 := by
  obtain ⟨_, oracles, -, hnodup, -, hle, hall⟩ :=
    h grantId oracle signature grant grant' hcalled hgrant hgrant' hunmet hmet
  have honly : oracles ⊆ [oracle] := by
    intro o ho
    obtain ⟨e', he', -, signature', hcalled', -⟩ := hall o ho
    rw [hsince, List.mem_singleton] at he'
    cases (he' ▸ hcalled').symm.trans hcalled
    exact List.mem_singleton_self _
  exact hle.trans (List.Nodup.length_le_of_subset hnodup honly)

end Steps

/-- **Consensus of the oracles.** In every reachable state the approvers of a grant are
distinct oracles of it; and in a run whose steps move no deadline while approvals are listed,
every approval that meets a milestone is backed. -/
theorem milestone_consensus (host : Host) {trace : Trace} {env : Env}
    (h : Ledger.Reachable (contract host) trace env) :
    (∀ grantId grant, env.store.grants grantId = some grant → grant.ListsOracles) ∧
    (Run.Each (fun e _ => DeadlineGuarded host e) trace →
      Run.Each (ConsensusBacked host) trace) := by
  refine ⟨fun grantId grant hgrant => listsOracles_of_reachable h hgrant, fun hguard => ?_⟩
  refine Run.each_imp h hguard fun hrun hall => ?_
  obtain ⟨holder, hn, -⟩ := hrun.uncons
  exact consensusBacked_of_fresh holder hn hall.1 (approvalsFresh_of_guarded holder hall.2)

/-- Two oracles approve after the deadline was set. -/
theorem milestone_consensus_of_two_oracles :
    let run := Ledger.history (contract Demo.host) Demo.env (Demo.oracleGrant ++
      [Demo.call 10 (.setMilestoneDeadline 7 500),
        Demo.call 20 (.approveMilestone 7 Demo.oracle₁ Demo.signature₁),
        Demo.call 30 (.approveMilestone 7 Demo.oracle₂ Demo.signature₂)])
    (run.2.store.grants 7).any Grant.milestoneMet = true ∧
      Run.Each (ConsensusBacked Demo.host) run.1 := by
  intro run
  have hrun : Ledger.Reachable (contract Demo.host) run.1 run.2 :=
    Ledger.history_reachable _ Demo.env_deployed (by decide)
  exact ⟨by decide, (milestone_consensus Demo.host hrun).2 (by decide)⟩

/-- The milestone is reset by a new deadline after two oracles approved it; one more approval
meets it again. -/
theorem milestone_consensus_moved_deadline :
    ¬∀ trace env, Ledger.Reachable (contract Demo.host) trace env →
      Run.Each (ConsensusBacked Demo.host) trace := by
  intro h
  let run := Ledger.history (contract Demo.host) Demo.env (Demo.oracleGrant ++
    [Demo.call 20 (.approveMilestone 7 Demo.oracle₁ Demo.signature₁),
      Demo.call 30 (.approveMilestone 7 Demo.oracle₂ Demo.signature₂),
      Demo.call 40 (.setMilestoneDeadline 7 500),
      Demo.call 50 (.approveMilestone 7 Demo.oracle₃ Demo.signature₃)])
  have hrun : Ledger.Reachable (contract Demo.host) run.1 run.2 :=
    Ledger.history_reachable _ Demo.env_deployed (by decide)
  have hlast : ConsensusBacked Demo.host (run.1.head (by decide)) run.1.tail := (h _ _ hrun).1
  have hcalled : Ledger.called (contract Demo.host) (run.1.head (by decide)) =
      some (.approveMilestone 7 Demo.oracle₃ Demo.signature₃) := by decide
  have hone := hlast.threshold_le hcalled (Option.some_get (by decide)).symm
    (Option.some_get (by decide)).symm (by decide) (by decide)
    (List.length_eq_zero_iff.mp (by decide))
  exact absurd hone (by decide)

end YieldTrust.Optimized
