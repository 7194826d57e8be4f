import YieldTrust.GrantGovernance.Ballots

/-!
# YieldTrust.GrantGovernance.Safety

Governance **over a run**. A stake leaves the contract once. Nobody votes twice exactly if nobody
tries to, and no proposal can be rejected: one that fails its vote stays active for ever.
-/

namespace YieldTrust.GrantGovernance

open Fallible
open GrantStream (Address Bytes)

variable {env env' start : Env} {call : Call} {store' : Store} {proposal : Proposal}
  {moved : List (TokenLedger.Transfer Address)} {id : Nat} {e : Step} {trace older : Trace}

/-! ### Proposals that failed their vote -/

/-- The vote is over, and the proposal failed it. -/
def Stuck (store : Store) (now : Nat) (proposal : Proposal) : Prop :=
  proposal.status = .active ∧ proposal.votingDeadline ≤ now ∧ ¬store.Meets proposal

instance (store : Store) (now : Nat) (proposal : Proposal) :
    Decidable (Stuck store now proposal) := inferInstanceAs (Decidable (_ ∧ _ ∧ _))

/-- An execution can reject the proposal, and a refund can return its stake then. -/
def Rejectable (env : Env) (id : Nat) (proposal : Proposal) : Prop :=
  ∃ event env₁ auths caller rejected, Ledger.Next contract env event env₁ ∧
    event.transaction = .invoke auths (.executeProposal caller id) ∧
    env₁.store.proposals id = some rejected ∧ rejected.status = .rejected ∧
    ∃ event' env₂ auths' token, Ledger.Next contract env₁ event' env₂ ∧
      event'.transaction = .invoke auths' (.refundStake id) ∧
      env₁.store.stakeToken = some token ∧
      env₂.tokens.log = stakeMoves token env.self proposal.proposer proposal.stakeAmount

/-- No event makes an active proposal a rejected one. -/
theorem not_rejectable (hwf : env.store.WellFormed)
    (hfind : env.store.proposals id = some proposal) (hactive : proposal.status = .active) :
    ¬Rejectable env id proposal := by
  intro h
  obtain ⟨event, env₁, _, _, rejected, hn, -, hfound, hstatus, -⟩ := h
  have hbefore : (env.store.entry id).proposal = some proposal := hfind
  have hafter : (env₁.store.entry id).proposal = some rejected := hfound
  rcases entryStep_of_next (e := ⟨env, event, env₁⟩) hwf hn id with
    ⟨-, hentry⟩ | ⟨call, a, -, -, hstep⟩
  · dsimp only at hentry
    rw [hentry, hbefore] at hafter
    cases hafter
    cases hactive.symm.trans hstatus
  · dsimp only at hstep
    generalize env.store.entry id = x at hstep hbefore
    generalize env₁.store.entry id = x' at hstep hafter
    cases hstep with
    | created => cases hbefore
    | challenged | executed =>
        cases hafter
        cases hstatus
    | voted | released =>
        cases hbefore
        cases hafter
        cases hactive.symm.trans hstatus

theorem Effect.meets_iff (h : Effect env call store' moved) (hwf : env.store.WellFormed)
    (proposal : Proposal) : store'.Meets proposal ↔ env.store.Meets proposal := by
  cases h with
  | initialized _ hnone => exact absurd hnone hwf.configured
  | appointed | created | challenged | voted | measured | executed | released => exact Iff.rfl

/-- A step leaves a failed proposal if there was one, or if it creates a proposal whose vote is
over at once. -/
theorem stuck_step {x x' : Entry} {a : Action} (hstep : EntryStep env call a x x')
    (hmeets : ∀ proposal, store'.Meets proposal ↔ env.store.Meets proposal) :
    (∃ proposal, x'.proposal = some proposal ∧ Stuck store' env.timestamp proposal) ↔
      (∃ proposal, x.proposal = some proposal ∧ Stuck env.store env.timestamp proposal) ∨
        (a = .created ∧ call.votingPeriod = some 0) := by
  unfold Stuck
  cases hstep with
  | created proposal votes hnew =>
      have hfails : ¬env.store.Meets proposal := by
        simp [Store.Meets, hnew.yesVotes, hnew.noVotes]
      simp only [Option.some.injEq, exists_eq_left', hmeets, hfails, not_false_eq_true, and_true,
        reduceCtorEq, false_and, exists_false, false_or, true_and]
      constructor
      · intro ⟨hactive, hover⟩
        obtain ⟨votingPeriod, hperiod, hdeadline⟩ := hnew.deadline hactive
        rw [hperiod]
        exact congrArg some (by omega)
      · intro hzero
        have hactive := hnew.opened (by simp [hzero])
        obtain ⟨votingPeriod, hperiod, hdeadline⟩ := hnew.deadline hactive
        cases hzero.symm.trans hperiod
        exact ⟨hactive, hdeadline.le⟩
  | challenged proposal votes hstatus => simp [hstatus]
  | voted proposal votes b vote hopen hstatus =>
      simp only [Option.some.injEq, exists_eq_left', reduceCtorEq, false_and, or_false]
      exact iff_of_false (fun h => by omega) (fun h => by omega)
  | executed proposal votes hstatus hmeets' => simp [hmeets']
  | released proposal votes hkept =>
      simp only [Option.some.injEq, exists_eq_left', reduceCtorEq, false_and, or_false, hmeets]
      exact Iff.rfl

/-! ### What a step means -/

/-- The call votes for a proposal for which its voter has voted. -/
def Call.votesAgain (env : Env) : Call → Bool
  | .quadraticVote voter proposalId _ => (env.store.votes voter proposalId).isSome
  | _ => false

/-- No proposal has failed its vote at the time of the step, and its call neither opens one
whose vote is over at once nor votes again. -/
def ProperStep (e : Step) : Prop :=
  (∀ id ∈ e.before.store.proposalIds.getD [], ∀ proposal ∈ e.before.store.proposals id,
    ¬Stuck e.before.store e.action.timestamp proposal) ∧
  ∀ call ∈ Ledger.called contract e, call.votingPeriod ≠ some 0 ∧
    call.votesAgain (e.before.enter e.action) = false

instance (e : Step) : Decidable (ProperStep e) :=
  inferInstanceAs (Decidable ((∀ id ∈ e.before.store.proposalIds.getD [],
    ∀ proposal ∈ e.before.store.proposals id, _) ∧ ∀ call ∈ Ledger.called contract e, _))

/-- What the claim of the governance comes to after a step. -/
structure GovernanceSafe (e : Step) (older : Trace) : Prop where
  votes_once : ∀ id, ((ballots id (e :: older)).map Ballot.voter).Nodup
  tally : ∀ id proposal, e.after.store.proposals id = some proposal →
    proposal.yesVotes = yesOf (ballots id (e :: older)) ∧
      proposal.totalVotingPower = ((ballots id (e :: older)).map Ballot.votingPower).sum
  stake_once : ∀ id, releases id (e :: older) ≤ 1
  outflow : ∀ call ∈ Ledger.called contract e, ∀ transfer ∈ e.after.tokens.log,
    transfer.source = e.before.self → transfer.target ≠ e.before.self →
      ∃ id proposal, action id e = some .released ∧
        e.before.store.proposals id = some proposal ∧
        e.before.store.stakeToken = some transfer.token ∧ transfer.amount = proposal.stakeAmount
  rejectable : ∀ id proposal, e.after.store.proposals id = some proposal →
    Stuck e.after.store e.after.timestamp proposal → Rejectable e.after id proposal

/-- What a call pays to others is the stake that it releases. -/
theorem Effect.outflow (h : Effect env call store' moved)
    {transfer : TokenLedger.Transfer Address} (ht : transfer ∈ moved)
    (hself : transfer.source = env.self) (hout : transfer.target ≠ env.self) :
    ∃ id proposal, call.released = some id ∧ env.store.proposals id = some proposal ∧
      env.store.stakeToken = some transfer.token ∧ transfer.amount = proposal.stakeAmount := by
  cases h with
  | initialized | appointed | voted | measured | executed => cases ht
  | created | challenged =>
      cases List.mem_singleton.mp ht
      exact absurd rfl hout
  | released _ proposalId proposal token target hcall hfind _ htoken =>
      unfold stakeMoves at ht
      split at ht
      · case isTrue hpos =>
        cases List.mem_singleton.mp ht
        exact ⟨proposalId, proposal, hcall, hfind, htoken hpos, rfl⟩
      · cases ht

/-- Only a vote counts as one. -/
theorem called_of_voted {b : Ballot} (h : action id e = some (.voted b)) :
    Ledger.called contract e = some (.quadraticVote b.voter id b.weight) := by
  obtain ⟨call, hcalled, ha⟩ := Option.bind_eq_some_iff.mp h
  cases call with
  | quadraticVote voter proposalId weight =>
      simp only [Call.action] at ha
      split at ha
      · case isTrue hid =>
        cases ha
        rw [hcalled, hid]
      · cases ha
  | initializeGovernance | setCouncilMembers | getVoterPower => cases ha
  | createProposal | proposeOptimisticGrant | createSetManualExchangeRateProposal
  | challengeOptimisticGrant | executeProposal | refundStake | slashStake =>
      simp [Call.action] at ha

theorem outflow_of_next (hn : Ledger.Next contract e.before e.action e.after)
    (hcalled : Ledger.called contract e = some call) {transfer : TokenLedger.Transfer Address}
    (ht : transfer ∈ e.after.tokens.log) (hself : transfer.source = e.before.self)
    (hout : transfer.target ≠ e.before.self) :
    ∃ id proposal, action id e = some .released ∧
      e.before.store.proposals id = some proposal ∧
      e.before.store.stakeToken = some transfer.token ∧
      transfer.amount = proposal.stakeAmount := by
  rcases leaves_of_next hn with ⟨hnone, -⟩ | ⟨call', hcalled', moved, hlog, heffect⟩
  · cases hnone.symm.trans hcalled
  · cases hcalled'.symm.trans hcalled
    have hmoved : e.after.tokens.log = moved := hlog.trans (List.append_nil moved)
    obtain ⟨id, proposal, hreleased, hfind, htoken, hamount⟩ :=
      heffect.outflow (hmoved ▸ ht) hself hout
    refine ⟨id, proposal, ?_, hfind, htoken, hamount⟩
    rw [action, hcalled, Option.bind_some, Call.action_of_released hreleased, if_pos rfl]

theorem stake_once_of_log {x : Entry} (h : EntryLog id trace x) : releases id trace ≤ 1 := by
  cases hx : x.proposal with
  | none =>
      rw [(history_of_uncreated (h.uncreated hx)).2]
      exact Nat.zero_le 1
  | some proposal =>
      rw [h.released proposal hx]
      split <;> simp

/-- A step leaves a failed proposal exactly if there is one or it opens one. -/
theorem stuck_of_next (hwf : e.before.store.WellFormed)
    (hn : Ledger.Next contract e.before e.action e.after) (id : Nat) :
    (∃ proposal, e.after.store.proposals id = some proposal ∧
        Stuck e.after.store e.after.timestamp proposal) ↔
      (∃ proposal, e.before.store.proposals id = some proposal ∧
        Stuck e.before.store e.action.timestamp proposal) ∨
      (action id e = some .created ∧
        ∃ call, Ledger.called contract e = some call ∧ call.votingPeriod = some 0) := by
  rw [(Ledger.timestamp_of_next hn).2]
  rcases leaves_of_next hn with ⟨hnone, hstore⟩ | ⟨call, hcalled, moved, -, heffect⟩
  · simp [hstore, action, hnone]
  · have haction : action id e = call.action (e.before.enter e.action) id := by
      simp [action, hcalled]
    rcases heffect.entryStep hwf id with ⟨hidle, hentry⟩ | ⟨a, ha, hstep⟩
    · have hsame : e.after.store.proposals id = e.before.store.proposals id :=
        congrArg Entry.proposal hentry
      have hmeets (proposal : Proposal) : Stuck e.after.store e.action.timestamp proposal ↔
          Stuck e.before.store e.action.timestamp proposal :=
        and_congr_right fun _ => and_congr_right fun _ =>
          not_congr (heffect.meets_iff hwf proposal)
      simp [haction, hidle, hsame, hmeets]
    · have hstuck := stuck_step hstep (heffect.meets_iff hwf)
      rw [haction, ha, hcalled]
      simp only [Option.some.injEq, exists_eq_left']
      exact hstuck

/-- No voter votes twice as long as nobody votes again. -/
theorem votes_once_of_next {x : Entry} (hlog : EntryLog id older x)
    (hnodup : ((ballots id older).map Ballot.voter).Nodup) :
    ((ballots id (e :: older)).map Ballot.voter).Nodup ↔
      ∀ b, action id e = some (.voted b) → x.votes b.voter = none := by
  by_cases hvoted : ∃ b, action id e = some (.voted b)
  · obtain ⟨b, hb⟩ := hvoted
    have hballot : ballot id e = some b := by simp [ballot, hb]
    rw [ballots_cons_some hballot, List.map_cons, List.nodup_cons, ← hlog.recorded]
    simp [hb, hnodup]
  · have hnone : ballot id e = none := by
      unfold ballot
      split
      · case h_1 b hb => exact absurd ⟨b, hb⟩ hvoted
      · rfl
    rw [ballots_cons_none hnone]
    exact iff_of_true hnodup fun b hb => absurd ⟨b, hb⟩ hvoted

/-- What a proper step keeps. -/
theorem ProperStep.votes_once (h : ProperStep e)
    (hlog : EntryLog id older (e.before.store.entry id))
    (hnodup : ((ballots id older).map Ballot.voter).Nodup) :
    ((ballots id (e :: older)).map Ballot.voter).Nodup := by
  refine (votes_once_of_next hlog hnodup).mpr fun b hb => ?_
  have hagain : (e.before.store.votes b.voter id).isSome = false :=
    (h.2 _ (called_of_voted hb)).2
  exact Option.isNone_iff_eq_none.mp (Option.isSome_eq_false_iff.mp hagain)

/-- No step leaves a failed proposal exactly if none has failed and none is opened that fails. -/
theorem not_stuck_iff (hwf : e.before.store.WellFormed)
    (hn : Ledger.Next contract e.before e.action e.after) :
    (∀ id proposal, e.after.store.proposals id = some proposal →
        ¬Stuck e.after.store e.after.timestamp proposal) ↔
      (∀ id ∈ e.before.store.proposalIds.getD [], ∀ proposal ∈ e.before.store.proposals id,
        ¬Stuck e.before.store e.action.timestamp proposal) ∧
      ∀ call ∈ Ledger.called contract e, call.votingPeriod ≠ some 0 := by
  obtain ⟨proposalIds, hids, hmem, -⟩ := hwf.listed
  rw [hids, Option.getD_some]
  constructor
  · intro hnever
    refine ⟨fun id _ proposal hfind hstuck => ?_, fun call hcalled hzero => ?_⟩
    · obtain ⟨proposal', hfind', hstuck'⟩ :=
        (stuck_of_next hwf hn id).mpr (.inl ⟨proposal, hfind, hstuck⟩)
      exact hnever id proposal' hfind' hstuck'
    · have hcreates : call.creates = true := by
        cases call <;> first | rfl | cases hzero
      have hcreated : action (freshId proposalIds) e = some .created := by
        have hopt : Ledger.called contract e = some call := hcalled
        rw [action, hopt, Option.bind_some, Call.action_of_creates hcreates]
        exact if_pos (by simp [Ledger.Env.enter, hids])
      obtain ⟨proposal', hfind', hstuck'⟩ :=
        (stuck_of_next hwf hn _).mpr (.inr ⟨hcreated, call, hcalled, hzero⟩)
      exact hnever _ proposal' hfind' hstuck'
  · rintro ⟨hbefore, hopens⟩ id proposal' hfind' hstuck'
    rcases (stuck_of_next hwf hn id).mp ⟨proposal', hfind', hstuck'⟩ with
      ⟨proposal, hfind, hstuck⟩ | ⟨-, call, hcalled, hzero⟩
    · exact hbefore id ((hmem id).mp (by simp [hfind])) proposal hfind hstuck
    · exact hopens call hcalled hzero

/-- A safe step votes for nobody twice, and leaves no proposal that has failed its vote. -/
theorem GovernanceSafe.proper (h : GovernanceSafe e older) (hwf : e.before.store.WellFormed)
    (hwf' : e.after.store.WellFormed) (hlog : ∀ id, EntryLog id older (e.before.store.entry id))
    (hn : Ledger.Next contract e.before e.action e.after)
    (hnodup : ∀ id, ((ballots id older).map Ballot.voter).Nodup) : ProperStep e := by
  have hnever : ∀ id proposal, e.after.store.proposals id = some proposal →
      ¬Stuck e.after.store e.after.timestamp proposal := by
    intro id proposal hfind hstuck
    exact not_rejectable hwf' hfind hstuck.1 (h.rejectable id proposal hfind hstuck)
  obtain ⟨hbefore, hopens⟩ := (not_stuck_iff hwf hn).mp hnever
  refine ⟨hbefore, fun call hcalled => ⟨hopens call hcalled, ?_⟩⟩
  cases call with
  | quadraticVote voter proposalId weight =>
      have hopt : Ledger.called contract e = some (.quadraticVote voter proposalId weight) :=
        hcalled
      have hvoted : action proposalId e =
          some (.voted ⟨voter, weight, powerOf (e.before.enter e.action) voter⟩) := by
        rw [action, hopt, Option.bind_some]
        exact if_pos rfl
      have hnone := (votes_once_of_next (hlog proposalId) (hnodup proposalId)).mp
        (h.votes_once proposalId) _ hvoted
      have hfree : e.before.store.votes voter proposalId = none := hnone
      simp [Call.votesAgain, Ledger.Env.enter, hfree]
  | _ => rfl

/-- **Governance.** In every run of a configured contract, governance is safe after every step
exactly if every step is proper. -/
theorem governance_safe (hstart : Configured start.store)
    (h : Run (· = start) (Ledger.Next contract) trace env) :
    Run.Each GovernanceSafe trace ↔ Run.Each (fun e _ => ProperStep e) trace := by
  refine Run.each_iff_of_kept (J := fun trace _ =>
    ∀ id, ((ballots id trace).map Ballot.voter).Nodup) ?_ ?_ h
  · intro env _ id
    exact List.nodup_nil
  · intro e older hrun hn hnodup
    have hwf := wellFormed_of_run hstart hrun
    have hlog := entryLog_of_run hstart hrun
    have hrun' : Run (· = start) (Ledger.Next contract) (e :: older) e.after := .step hrun hn
    have hwf' := wellFormed_of_run hstart hrun'
    have hlog' := entryLog_of_run hstart hrun'
    refine ⟨fun hproper id => hproper.votes_once (hlog id) (hnodup id),
      fun hsafe => hsafe.proper hwf hwf' hlog hn hnodup, fun hproper => ?_⟩
    refine ⟨fun id => hproper.votes_once (hlog id) (hnodup id),
      fun id proposal hfind => (hlog' id).tally proposal hfind,
      fun id => stake_once_of_log (hlog' id),
      fun call hcalled transfer ht hself hout => outflow_of_next hn hcalled ht hself hout,
      fun id proposal hfind hstuck => ?_⟩
    have hnever := (not_stuck_iff hwf hn).mpr
      ⟨hproper.1, fun call hcalled => (hproper.2 call hcalled).1⟩
    exact absurd hstuck (hnever id proposal hfind)

/-- A proposal is carried by one vote and executed, and its stake is returned. -/
theorem governance_safe_of_carried :
    let run := Ledger.history contract Demo.env
      [Demo.call 0 (.createProposal Demo.proposer "t" "d" 100),
        Demo.call 10 (.quadraticVote Demo.voter 0 10),
        Demo.call 20 (.setCouncilMembers Demo.proposer [Demo.proposer]),
        Demo.call 100 (.executeProposal Demo.proposer 0), Demo.call 101 (.refundStake 0)]
    Run.Each GovernanceSafe run.1 := by
  intro run
  have hrun : Run (· = Demo.env) (Ledger.Next contract) run.1 run.2 :=
    Ledger.history_run contract (by decide)
  have hstart : Configured Demo.env.store :=
    ⟨by decide, rfl, fun _ => rfl, fun _ _ => rfl⟩
  exact (governance_safe hstart hrun).mpr (by decide)

/-- One voter votes twice for a proposal, and both votes count. -/
theorem governance_safe_repeated_vote :
    ¬∀ trace env, Run (· = Demo.env) (Ledger.Next contract) trace env →
      Run.Each GovernanceSafe trace := by
  intro h
  let run := Ledger.history contract Demo.env
    [Demo.call 0 (.createProposal Demo.proposer "t" "d" 100),
      Demo.call 10 (.quadraticVote Demo.voter 0 1), Demo.call 20 (.quadraticVote Demo.voter 0 2)]
  have hrun : Run (· = Demo.env) (Ledger.Next contract) run.1 run.2 :=
    Ledger.history_run contract (by decide)
  exact absurd ((h _ _ hrun).1.votes_once 0) (by decide)

end YieldTrust.GrantGovernance
