import YieldTrust.GrantStream.RescueMultisig
import YieldTrust.Lib.Quorum

/-!
# YieldTrust.GrantStream.RevokedSigners

Approvals of signers that were replaced. `initialize_signers` can be called again
at any time, and `execute_rescue` counts the stored approvals without looking at
the signer set.
-/

namespace YieldTrust.GrantStream

open MultiThreshold

/-- Among the approvers of a pending proposal are as many of `signers` as it has
approvals, up to its threshold. -/
def RescueProposal.CoveredBy (p : RescueProposal) (signers : List Address) : Prop :=
  p.status = .pending →
    min p.approvals.length (thresholdFor p.kind) ≤ p.approvals.countP (· ∈ signers)

instance (p : RescueProposal) (signers : List Address) : Decidable (p.CoveredBy signers) :=
  inferInstanceAs (Decidable (_ → _))

/-- A registration leaves the proposal the approvals it needs. -/
def RescueOp.Keeps (op : RescueOp) (p : RescueProposal) : Prop :=
  match op with
  | .register signers => p.CoveredBy signers
  | _ => True

instance (op : RescueOp) (p : RescueProposal) : Decidable (op.Keeps p) := by
  unfold RescueOp.Keeps
  split <;> infer_instance

/-- A registration of signers takes no needed approval from a pending proposal. -/
def KeepsApprovers (e : Run.Step Env Event) : Prop :=
  ∀ op, rescueOp e = some op → ∀ id p, e.before.rescue.proposal id = some p → op.Keeps p

/-- Enough different approvers are registered at the moment. -/
def RescueProposal.Backed (p : RescueProposal) (signers : List Address) : Prop :=
  Quorum (thresholdFor p.kind) fun a => a ∈ p.approvals ∧ a ∈ signers

/-! ### Proposals stay covered -/

theorem RescueProposal.CoveredBy.opened {now id : Nat} {proposer rescueTo : Address}
    {kind : RescueKind} {amount : Int} {signers : List Address} (hmem : proposer ∈ signers) :
    (newProposal now id proposer kind rescueTo amount).CoveredBy signers := by
  intro _
  simp [newProposal, hmem]

theorem RescueProposal.CoveredBy.approved {p : RescueProposal} {signers : List Address}
    (h : p.CoveredBy signers) {signer : Address} (hmem : signer ∈ signers) :
    ({ p with approvals := p.approvals ++ [signer] } : RescueProposal).CoveredBy signers := by
  intro hpending
  have hcount := h hpending
  rw [List.countP_append, List.length_append]
  simp only [List.countP_singleton, List.length_singleton, hmem, decide_true, if_true]
  omega

theorem ProposalEvent.coveredBy {id : Nat} {e : Run.Step Env Event} {signers : List Address}
    (hevent : ProposalEvent id e) (hsigners : e.before.rescue.signers = signers)
    (h : ∀ p, e.before.rescue.proposal id = some p → p.CoveredBy signers) {p : RescueProposal}
    (hp : e.after.rescue.proposal id = some p) : p.CoveredBy signers := by
  cases hevent with
  | kept _ _ hsame => exact h p (hsame ▸ hp)
  | opened _ _ happroves _ hafter =>
      obtain rfl := Option.some.inj (hafter.symm.trans hp)
      exact .opened (hsigners ▸ happroves.registered)
  | approved _ _ hbefore _ _ happroves hafter =>
      obtain rfl := Option.some.inj (hafter.symm.trans hp)
      exact (h _ hbefore).approved (hsigners ▸ happroves.registered)
  | closed _ _ _ hstatus hafter =>
      obtain rfl := Option.some.inj (hafter.symm.trans hp)
      exact fun hpending => absurd hpending hstatus

theorem coveredBy_of_reachable {trace : Trace} {env : Env} (h : Reachable trace env)
    (hkeeps : ∀ e ∈ trace, KeepsApprovers e) :
    ∀ id p, env.rescue.proposal id = some p → p.CoveredBy env.rescue.signers := by
  refine rescue_induction (I := fun tr r => (∀ e ∈ tr, KeepsApprovers e) →
    ∀ id p, r.proposal id = some p → p.CoveredBy r.signers) ?_ ?_ ?_ h hkeeps
  · intro _ id p hp
    cases hp
  · intro tr e _ ih _ _ hall
    exact ih (List.forall_mem_cons.mp hall).2
  · intro tr e op hrun ih hop hstep hall id p hp
    obtain ⟨hhead, htail⟩ := List.forall_mem_cons.mp hall
    have hevent := proposalEvent_of_step (serialized_of_reachable hrun) hop hstep id
    have hcovered := hevent.coveredBy rfl (ih htail id) hp
    generalize e.after.rescue = r' at hstep hp hcovered
    cases hstep with
    | register _ hr =>
        -- the proposals stay, the signers change
        subst hr
        exact hhead _ hop id p hp
    | propose _ _ _ _ hr | approve _ _ _ _ _ hr | execute _ _ _ hr | cancel _ _ hr =>
        subst hr
        exact hcovered

/-! ### Executions are backed -/

/-- **Revoked signers carry no weight** in a run whose registrations keep the
approvers: every executed proposal is backed by the signers of that moment. -/
theorem revoked_signers_weightless {trace : Trace} {env : Env} (h : Reachable trace env)
    (hkeeps : ∀ e ∈ trace, KeepsApprovers e) :
    ∀ e ∈ trace, ∀ caller id token, called e = some (.executeRescue caller id token) →
      ∃ p, e.before.rescue.proposal id = some p ∧ p.Backed e.before.rescue.signers := by
  intro e he caller id token hcall
  obtain ⟨newer, older, rfl⟩ := List.append_of_mem he
  obtain ⟨hrun, hn, -⟩ := h.suffix.uncons
  obtain ⟨p, hp, hpending, hthreshold, -⟩ := executeRescue_log (exec_of_called hn hcall)
  have hcovered := coveredBy_of_reachable hrun
    (fun e' he' => hkeeps e' (List.mem_append_right _ (List.mem_cons_of_mem _ he'))) id p hp
  have hcount := hcovered hpending
  rw [Nat.min_eq_right hthreshold] at hcount
  refine ⟨p, hp, ?_⟩
  have hquorum := Quorum.of_countP (proposalRecord_of_reachable hrun hp).distinct hcount
  exact hquorum.mono fun a ha => ⟨ha.1, of_decide_eq_true ha.2⟩

/-- It is enough to look at the ids that were given out. -/
theorem keepsApprovers_of_checked {trace : Trace} {env : Env} (h : Reachable trace env)
    (hcheck : ∀ e ∈ trace, ∀ op ∈ rescueOp e, ∀ id ≤ e.before.rescue.proposalCounter,
      ∀ p ∈ e.before.rescue.proposal id, op.Keeps p) : ∀ e ∈ trace, KeepsApprovers e := by
  intro e he op hop id p hp
  obtain ⟨older, hrun, -⟩ := h.of_mem he
  exact hcheck e he op hop id ((proposalIds_of_reachable hrun).stored id (by simp [hp])) p hp

/-- The signers change, but the three approvers stay registered. -/
theorem revoked_signers_weightless_of_kept_approvers :
    let run := history Demo.env (Demo.approvedRescue ++
      [Demo.call 21 (.initializeRescueSigners (Demo.signers.reverse.take 9 ++ [⟨[16]⟩])),
        Demo.call 31 (.executeRescue Demo.oracle 1 Demo.token)])
    ∃ e older, run.1 = e :: older ∧
      ∃ p, e.before.rescue.proposal 1 = some p ∧ p.Backed e.before.rescue.signers := by
  intro run
  have hrun : Reachable run.1 run.2 := history_reachable Demo.env_deployed (by decide)
  have hkeeps := keepsApprovers_of_checked hrun (by decide)
  exact ⟨_, _, rfl, @revoked_signers_weightless _ _ hrun hkeeps _ (List.mem_cons_self ..)
    Demo.oracle 1 Demo.token rfl⟩

/-- The admin replaces all approvers, and one of the new signers executes. -/
theorem revoked_signers_weightless_replaced_signers :
    ¬∀ trace env, Reachable trace env → ∀ e ∈ trace, ∀ caller id token,
      called e = some (.executeRescue caller id token) →
      ∃ p, e.before.rescue.proposal id = some p ∧ p.Backed e.before.rescue.signers := by
  intro h
  let run := history Demo.env (Demo.approvedRescue ++
    [Demo.call 21 (.initializeRescueSigners (Demo.admin ::
        [⟨[21]⟩, ⟨[22]⟩, ⟨[23]⟩, ⟨[24]⟩, ⟨[25]⟩, ⟨[26]⟩, ⟨[27]⟩, ⟨[28]⟩, ⟨[29]⟩])),
      Demo.call 31 (.executeRescue Demo.admin 1 Demo.token)])
  have hrun : Reachable run.1 run.2 := history_reachable Demo.env_deployed (by decide)
  obtain ⟨p, hp, hbacked⟩ := h _ _ hrun _ (List.mem_cons_self ..) Demo.admin 1 Demo.token rfl
  obtain rfl := Option.some.inj hp
  have hcount := Quorum.le_countP (hbacked.mono fun a ha => ⟨ha.1, decide_eq_true ha.2⟩)
  exact absurd hcount (by decide)

end YieldTrust.GrantStream
