import YieldTrust.Upgrade.Ballots

/-!
# YieldTrust.Upgrade.Safety

Upgrades **over a run**. What is executed was carried by its votes, waited and is executed once.
Nothing but the timestamps keeps the tallies as they were when the vote was finalised. The votes
stay within the declared voting power exactly if every vote does.
-/

namespace YieldTrust.Upgrade

open Fallible
open GrantStream (Address Bytes)

variable {env env' : Env} {call : Call} {id now now' : Nat} {e : Step} {trace older : Trace}
  {proposal : UpgradeProposal}

/-! ### The status of a proposal -/

/-- The vote on the proposal is over, and it met the majority. -/
structure Carried (id : Nat) (trace : Trace) (proposal : UpgradeProposal) : Prop where
  finalized : ∃ f ∈ trace, action id f = some .finalized ∧
    proposal.votingDeadline < f.action.timestamp ∧ f.after.store.proposals id = some proposal
  turnout : 0 < proposal.votesFor + proposal.votesAgainst
  majority : 7500 * (proposal.votesFor + proposal.votesAgainst) ≤ proposal.votesFor * 10000

/-- What the status of a proposal says about the history. -/
structure StatusLog (id : Nat) (trace : Trace) (now : Nat) (x : Option UpgradeProposal) :
    Prop where
  timelock : ∀ proposal, x = some proposal →
    proposal.executableAfter = proposal.votingDeadline + upgradeTimelockSecs
  closed : ∀ proposal, x = some proposal → proposal.status ≠ .proposed →
    proposal.votingDeadline < now
  approved : ∀ proposal, x = some proposal → proposal.status = .approved →
    Carried id trace proposal
  executed : ∀ e ∈ trace, action id e = some .executed →
    ∃ proposal, x = some proposal ∧ proposal.status = .executed
  cancelled : ∀ e ∈ trace, ∀ proposal, e.after.store.proposals id = some proposal →
    proposal.status = .cancelled → ∃ proposal', x = some proposal' ∧ proposal'.status = .cancelled
  frozen : ∀ f ∈ trace, action id f = some .finalized → ∃ before proposal,
    f.before.store.proposals id = some before ∧ x = some proposal ∧
      proposal.status ≠ .proposed ∧ proposal.votesFor = before.votesFor ∧
      proposal.votesAgainst = before.votesAgainst

theorem Carried.cons (h : Carried id older proposal) (e : Step) :
    Carried id (e :: older) proposal := by
  obtain ⟨f, hf, hfinalized⟩ := h.finalized
  exact ⟨⟨f, List.mem_cons_of_mem e hf, hfinalized⟩, h.turnout, h.majority⟩

/-- Time passes, and nothing happens to the proposal. -/
theorem StatusLog.idle {x : Option UpgradeProposal} (h : StatusLog id older now x)
    (hx : e.after.store.proposals id = x) (hnone : action id e = none) (hnow : now ≤ now') :
    StatusLog id (e :: older) now' x := by
  refine ⟨h.timelock, fun p hp hs => (h.closed p hp hs).trans_le hnow,
    fun p hp hs => (h.approved p hp hs).cons e, ?_, ?_, ?_⟩
  · exact List.forall_mem_cons.mpr ⟨by simp [hnone], h.executed⟩
  · exact List.forall_mem_cons.mpr ⟨fun p hp hs => ⟨p, hx ▸ hp, hs⟩, h.cancelled⟩
  · exact List.forall_mem_cons.mpr ⟨by simp [hnone], h.frozen⟩

/-- Nothing was decided about the proposal. -/
def Undecided (id : Nat) (trace : Trace) : Prop :=
  ∀ e ∈ trace, action id e ≠ some .executed ∧ action id e ≠ some .finalized ∧
    ∀ proposal, e.after.store.proposals id = some proposal → proposal.status ≠ .cancelled

/-- Up to a vote that is still open, nothing was decided. -/
theorem StatusLog.undecided {x : Option UpgradeProposal} (h : StatusLog id older now x)
    (hopen : ∀ p, x = some p → p.status = .proposed) : Undecided id older := by
  intro e he
  refine ⟨fun hexecuted => ?_, fun hfinalized => ?_, fun proposal hp hcancelled => ?_⟩
  · obtain ⟨p, hx, hs⟩ := h.executed e he hexecuted
    cases (hopen p hx).symm.trans hs
  · obtain ⟨_, p, -, hx, hs, -⟩ := h.frozen e he hfinalized
    exact hs (hopen p hx)
  · obtain ⟨p, hx, hs⟩ := h.cancelled e he proposal hp hcancelled
    cases (hopen p hx).symm.trans hs

/-- A step after which the vote is open. -/
theorem Undecided.step (h : Undecided id older) (hafter : e.after.store.proposals id = some proposal)
    (hstatus : proposal.status = .proposed) (hexecuted : action id e ≠ some .executed)
    (hfinalized : action id e ≠ some .finalized)
    (htimelock : proposal.executableAfter = proposal.votingDeadline + upgradeTimelockSecs) :
    StatusLog id (e :: older) now (some proposal) := by
  have hall : Undecided id (e :: older) := by
    refine List.forall_mem_cons.mpr ⟨⟨hexecuted, hfinalized, fun p hp hs => ?_⟩, h⟩
    cases hafter.symm.trans hp
    cases hstatus.symm.trans hs
  refine ⟨fun p hp => ?_, fun p hp hs => ?_, fun p hp hs => ?_, fun e' he' hex => ?_,
    fun e' he' p hp hs => ?_, fun e' he' hfinal => ?_⟩
  · cases hp
    exact htimelock
  · cases hp
    exact absurd hstatus hs
  · cases hp
    cases hstatus.symm.trans hs
  · exact absurd hex (hall e' he').1
  · exact absurd hs ((hall e' he').2.2 p hp)
  · exact absurd hfinal (hall e' he').2.1

/-- **Step lemma**, by cases on what happens to the proposal. -/
theorem StatusLog.step {x x' : Entry} {a : Action}
    (h : StatusLog id older now x.proposal) (hlog : BallotLog id older x)
    (hbefore : e.before.store.proposals id = x.proposal)
    (hafter : e.after.store.proposals id = x'.proposal) (hnow : now ≤ e.action.timestamp)
    (ha : action id e = some a) (hstep : EntryStep e.action.timestamp a x x') :
    StatusLog id (e :: older) e.action.timestamp x'.proposal := by
  cases hstep with
  | proposed proposal votes _ _ _ htimelock hstatus =>
      have hold : Undecided id older := h.undecided fun p hp => (nomatch hp)
      exact hold.step hafter hstatus (by simp [ha]) (by simp [ha]) htimelock
  | voted proposal votes b hpower hopen =>
      -- a vote is accepted up to the deadline only, when nothing was finalised yet
      have hstatus : proposal.status = .proposed := by
        by_contra hne
        have hlt := h.closed proposal rfl hne
        omega
      have hold : Undecided id older := h.undecided fun p hp => by
        cases hp
        exact hstatus
      have hcount : (proposal.count b).status = .proposed ∧
          (proposal.count b).executableAfter = proposal.executableAfter ∧
          (proposal.count b).votingDeadline = proposal.votingDeadline := by
        unfold UpgradeProposal.count
        split <;> exact ⟨hstatus, rfl, rfl⟩
      refine hold.step hafter hcount.1 (by simp [ha]) (by simp [ha]) ?_
      rw [hcount.2.1, hcount.2.2]
      exact h.timelock proposal rfl
  | finalized proposal votes hover hstatus met hmet =>
      have hold : Undecided id older := h.undecided fun p hp => by
        cases hp
        exact hstatus
      have hclosed : (if met then UpgradeStatus.approved else .cancelled) ≠ .proposed := by
        cases met <;> simp
      obtain ⟨hfor, hagainst⟩ := hlog.tally proposal rfl
      refine ⟨fun p hp => ?_, fun p hp hs => ?_, fun p hp hs => ?_, ?_, ?_, ?_⟩
      · cases hp
        exact h.timelock proposal rfl
      · cases hp
        exact hover
      · cases hp
        have htrue : met = true := by
          cases met with
          | true => rfl
          | false => cases hs
        obtain ⟨hturnout, hmajority⟩ := (hmet.met_iff (hfor ▸ powerOf_nonneg true hlog.positive)
          (hagainst ▸ powerOf_nonneg false hlog.positive)).mp htrue
        exact ⟨⟨e, List.mem_cons_self, ha, hover, hafter⟩, hturnout, hmajority⟩
      · refine List.forall_mem_cons.mpr ⟨by simp [ha], fun e' he' hexecuted => ?_⟩
        exact absurd hexecuted (hold e' he').1
      · refine List.forall_mem_cons.mpr ⟨fun p hp hs => ⟨p, hafter ▸ hp, hs⟩, ?_⟩
        intro e' he' p hp hs
        exact absurd hs ((hold e' he').2.2 p hp)
      · refine List.forall_mem_cons.mpr ⟨fun _ => ?_, fun e' he' hfinalized => ?_⟩
        · exact ⟨proposal, _, hbefore, rfl, hclosed, rfl, rfl⟩
        · exact absurd hfinalized (hold e' he').2.1
  | executed proposal votes hstatus htime =>
      have hlt := h.closed proposal rfl (by simp [hstatus])
      refine ⟨fun p hp => ?_, fun p hp _ => ?_, fun p hp hs => ?_, ?_, ?_, ?_⟩
      · cases hp
        exact h.timelock proposal rfl
      · cases hp
        exact hlt.trans_le hnow
      · cases hp
        cases hs
      · exact fun _ _ _ => ⟨_, rfl, rfl⟩
      · refine List.forall_mem_cons.mpr ⟨fun p hp hs => ⟨p, hafter ▸ hp, hs⟩, ?_⟩
        intro e' he' p hp hs
        obtain ⟨_, hx, hcancelled⟩ := h.cancelled e' he' p hp hs
        cases hx
        cases hstatus.symm.trans hcancelled
      · refine List.forall_mem_cons.mpr ⟨by simp [ha], fun e' he' hfinalized => ?_⟩
        obtain ⟨before, _, hbefore, hp, -, hsame⟩ := h.frozen e' he' hfinalized
        cases hp
        exact ⟨before, _, hbefore, rfl, by simp, hsame⟩

theorem statusLog_of_reachable (h : Ledger.Reachable contract trace env) (id : Nat) :
    StatusLog id trace env.timestamp (env.store.proposals id) := by
  induction h with
  | start hinit =>
      obtain ⟨self, tokens, rfl⟩ := hinit
      refine ⟨fun p hp => ?_, fun p hp => ?_, fun p hp => ?_, by simp, by simp, by simp⟩ <;>
        cases hp
  | @step older before event after hrun hn ih =>
      obtain ⟨hle, htime⟩ := Ledger.timestamp_of_next (e := ⟨before, event, after⟩) hn
      rcases entryStep_of_next (e := ⟨before, event, after⟩) hrun hn id with
        ⟨hidle, hentry⟩ | ⟨a, ha, hstep⟩
      · have hsame : after.store.proposals id = before.store.proposals id :=
          congrArg Entry.proposal hentry
        rw [hsame]
        exact ih.idle hsame hidle (hle.trans_eq htime.symm)
      · have hlog := ih.step (ballotLog_of_reachable hrun id) rfl rfl hle ha hstep
        dsimp only at htime
        rw [htime]
        exact hlog

/-! ### What is executed -/

/-- The hash that the call returns. -/
def Call.returned (env : Env) : Call → Option Bytes
  | .executeUpgrade proposalId admin activeGrants totalLocked milestoneClaimIds oldWasmHash =>
      (Upgrade.executeUpgrade env proposalId admin activeGrants totalLocked milestoneClaimIds
        oldWasmHash).toOption.map Prod.snd
  | _ => none

/-- The hash that the step returns. -/
def returned (e : Step) : Option Bytes :=
  (Ledger.called contract e).bind (Call.returned (e.before.enter e.action))

/-- The execution of the proposal was right. -/
def ExecutionSafe (id : Nat) (e : Step) (older : Trace) : Prop :=
  ∃ proposal, e.before.store.proposals id = some proposal ∧
    returned e = some proposal.newWasmHash ∧
    proposal.votingDeadline + upgradeTimelockSecs ≤ e.action.timestamp ∧
    Carried id older proposal ∧ (∀ e' ∈ older, action id e' ≠ some .executed) ∧
    ∀ e' ∈ older, ∀ proposal', e'.after.store.proposals id = some proposal' →
      proposal'.status ≠ .cancelled

/-- What the votes of a proposal come to. -/
structure VotesSafe (id : Nat) (trace : Trace) (proposal : UpgradeProposal) : Prop where
  tally_for : proposal.votesFor = powerOf true (ballots id trace)
  tally_against : proposal.votesAgainst = powerOf false (ballots id trace)
  nodup : ((ballots id trace).map Ballot.voter).Nodup
  in_time : ∀ e ∈ trace, ballot id e ≠ none → e.action.timestamp ≤ proposal.votingDeadline
  frozen : ∀ f ∈ trace, action id f = some .finalized → ∃ before,
    f.before.store.proposals id = some before ∧ proposal.votesFor = before.votesFor ∧
      proposal.votesAgainst = before.votesAgainst
  executed : (∃ e ∈ trace, action id e = some .executed) → proposal.status = .executed

theorem executeUpgrade_spec {admin : Address} {activeGrants : Nat} {totalLocked : Int}
    {milestoneClaimIds : List Nat} {oldWasmHash hash : Bytes}
    (h : executeUpgrade env id admin activeGrants totalLocked milestoneClaimIds oldWasmHash =
      .ok (env', hash)) :
    ∃ proposal, env.store.proposals id = some proposal ∧ proposal.status = .approved ∧
      proposal.executableAfter ≤ env.timestamp ∧ hash = proposal.newWasmHash := by
  simp only [executeUpgrade, readProposal, bind_eq_ok, ensure_eq_ok, okOr_eq_ok, pure_eq_ok,
    Prod.mk.injEq] at h
  obtain ⟨_, -, proposal, hfind, _, hstatus, _, htime, -, rfl⟩ := h
  exact ⟨proposal, hfind, hstatus, htime, rfl⟩

/-- An execution returns the hash of an approved proposal whose time has come. -/
theorem executed_spec (h : Ledger.Next contract e.before e.action e.after)
    (ha : action id e = some .executed) :
    ∃ proposal, e.before.store.proposals id = some proposal ∧ proposal.status = .approved ∧
      proposal.executableAfter ≤ e.action.timestamp ∧ returned e = some proposal.newWasmHash := by
  obtain ⟨call, hcalled, ha⟩ := Option.bind_eq_some_iff.mp ha
  obtain ⟨result, -, hexec, -⟩ := Ledger.exec_of_called h hcalled
  have hreturned : returned e = call.returned (e.before.enter e.action) := by
    simp [returned, hcalled]
  cases call with
  | executeUpgrade proposalId admin activeGrants totalLocked milestoneClaimIds oldWasmHash =>
      obtain rfl : proposalId = id := by
        by_contra hne
        simp [Call.action, hne] at ha
      obtain ⟨⟨env', hash⟩, hexecute, rfl⟩ := map_eq_ok.mp hexec
      obtain ⟨proposal, hfind, hstatus, htime, rfl⟩ := executeUpgrade_spec hexecute
      refine ⟨proposal, hfind, hstatus, htime, ?_⟩
      rw [hreturned, Call.returned, hexecute]
      rfl
  | proposeUpgrade | voteOnUpgrade | finalizeVote => simp [Call.action] at ha

/-- **Upgrades.** In every run, what is executed is the hash of a proposal that was carried after
its deadline, 14 days ago or more, and that was neither executed before nor ever cancelled. The
tallies of every proposal are the votes that came in time, one of each voter, and stay what they
were when the vote was finalised. -/
theorem upgrade_safe (h : Ledger.Reachable contract trace env) :
    Run.Each (fun e older => ∀ id, action id e = some .executed → ExecutionSafe id e older)
        trace ∧
      ∀ id proposal, env.store.proposals id = some proposal → VotesSafe id trace proposal := by
  constructor
  · induction h with
    | start => trivial
    | @step older before event after hrun hn ih =>
        refine ⟨fun id ha => ?_, ih⟩
        have hlog := statusLog_of_reachable hrun id
        obtain ⟨proposal, hfind, hstatus, htime, hreturned⟩ := executed_spec hn ha
        dsimp only at hfind htime
        have hnot {p : UpgradeProposal} (hp : before.store.proposals id = some p) :
            p.status = .approved := by
          cases hfind.symm.trans hp
          exact hstatus
        refine ⟨proposal, hfind, hreturned, ?_, hlog.approved proposal hfind hstatus,
          fun e' he' hexecuted => ?_, fun e' he' p hp hcancelled => ?_⟩
        · rw [← hlog.timelock proposal hfind]
          exact htime
        · obtain ⟨p, hp, hs⟩ := hlog.executed e' he' hexecuted
          cases (hnot hp).symm.trans hs
        · obtain ⟨p', hp', hs⟩ := hlog.cancelled e' he' p hp hcancelled
          cases (hnot hp').symm.trans hs
  · intro id proposal hfind
    have hballots := ballotLog_of_reachable h id
    have hstatus := statusLog_of_reachable h id
    obtain ⟨hfor, hagainst⟩ := hballots.tally proposal hfind
    refine ⟨hfor, hagainst, hballots.nodup, hballots.in_time proposal hfind, fun f hf hfinal => ?_,
      fun hexecuted => ?_⟩
    · obtain ⟨before, p, hbefore, hp, -, hsame⟩ := hstatus.frozen f hf hfinal
      cases hfind.symm.trans hp
      exact ⟨before, hbefore, hsame⟩
    · obtain ⟨e', he', hexecuted⟩ := hexecuted
      obtain ⟨p, hp, hs⟩ := hstatus.executed e' he' hexecuted
      cases hfind.symm.trans hp
      exact hs

/-- Three of four votes carry an upgrade, which is executed 14 days after its deadline. -/
theorem upgrade_safe_of_supermajority :
    let run := Ledger.history contract Demo.env
      [Demo.call 0 (.proposeUpgrade Demo.proposer Demo.wasmHash "v2" 4 100),
        Demo.call 10 (.voteOnUpgrade 1 Demo.voter true 3),
        Demo.call 20 (.voteOnUpgrade 1 Demo.proposer false 1),
        Demo.call 101 (.finalizeVote 1),
        Demo.call 1209700 (.executeUpgrade 1 Demo.proposer 0 0 [] Demo.wasmHash)]
    (∃ e ∈ run.1, action 1 e = some .executed) ∧
      Run.Each (fun e older => ∀ id, action id e = some .executed → ExecutionSafe id e older)
        run.1 ∧
      ∀ id proposal, run.2.store.proposals id = some proposal →
        VotesSafe id run.1 proposal := by
  intro run
  have hrun : Ledger.Reachable contract run.1 run.2 :=
    Ledger.history_reachable contract ⟨_, _, rfl⟩ (by decide)
  exact ⟨by decide, upgrade_safe hrun⟩

/-! ### The electorate -/

/-- The votes stay within the declared voting power. -/
structure WithinElectorate (trace : Trace) (env : Env) : Prop where
  turnout : ∀ id proposal, env.store.proposals id = some proposal →
    proposal.votesFor + proposal.votesAgainst ≤ proposal.totalVotingPower
  support : ∀ id proposal, env.store.proposals id = some proposal → proposal.status = .approved →
    7500 * (proposal.votesFor + proposal.votesAgainst) ≤ proposal.votesFor * 10000
  weight : ∀ id proposal, env.store.proposals id = some proposal → ∀ ballot ∈ ballots id trace,
    ballot.power ≤ proposal.totalVotingPower

/-- A vote fits in what the votes before it leave of the declared voting power. -/
def Call.VoteFits (env : Env) : Call → Prop
  | .voteOnUpgrade proposalId _ _ votingPower => ∀ proposal ∈ env.store.proposals proposalId,
      votingPower ≤ proposal.totalVotingPower - (proposal.votesFor + proposal.votesAgainst)
  | _ => True

instance decidableVoteFits (env : Env) : (call : Call) → Decidable (call.VoteFits env)
  | .voteOnUpgrade proposalId _ _ votingPower =>
      inferInstanceAs (Decidable (∀ proposal ∈ env.store.proposals proposalId, votingPower ≤
        proposal.totalVotingPower - (proposal.votesFor + proposal.votesAgainst)))
  | .proposeUpgrade .. | .finalizeVote _ | .executeUpgrade .. => inferInstanceAs (Decidable True)

/-- The vote of the step, if it is accepted, fits. -/
def VoteFits (e : Step) : Prop :=
  ∀ call ∈ Ledger.called contract e, call.VoteFits (e.before.enter e.action)

instance (e : Step) : Decidable (VoteFits e) :=
  inferInstanceAs (Decidable (∀ call ∈ Ledger.called contract e, _))

theorem voteFits_iff : VoteFits e ↔ ∀ id b, action id e = some (.voted b) →
    ∀ proposal, e.before.store.proposals id = some proposal →
      b.power ≤ proposal.totalVotingPower - (proposal.votesFor + proposal.votesAgainst) := by
  cases hcalled : Ledger.called contract e with
  | none => simp [VoteFits, action, hcalled]
  | some call =>
      cases call with
      | voteOnUpgrade proposalId voter approve power =>
          simp only [VoteFits, action, hcalled, Option.mem_def, Option.some.injEq, forall_eq',
            Option.bind_some, Call.VoteFits, Call.action]
          constructor
          · intro hfits id b hvoted proposal hfind
            split at hvoted
            · case isTrue hid =>
              cases hvoted
              exact hfits proposal (hid ▸ hfind)
            · case isFalse => cases hvoted
          · intro hfits proposal hfind
            exact hfits proposalId _ (if_pos rfl) proposal hfind
      | proposeUpgrade | finalizeVote | executeUpgrade =>
          simp [VoteFits, action, hcalled, Call.VoteFits, Call.action]

theorem power_le_turnout {ballots : List Ballot} (h : ∀ ballot ∈ ballots, 0 < ballot.power)
    {b : Ballot} (hb : b ∈ ballots) : b.power ≤ powerOf true ballots + powerOf false ballots := by
  induction ballots with
  | nil => cases hb
  | cons head ballots ih =>
      rw [List.forall_mem_cons] at h
      have hfor := powerOf_nonneg true h.2
      have hagainst := powerOf_nonneg false h.2
      have hpower := h.1
      rw [powerOf_cons, powerOf_cons]
      rcases List.mem_cons.mp hb with rfl | hb
      · cases b.approve <;> simp <;> omega
      · have hle := ih h.2 hb
        cases head.approve <;> simp <;> omega

/-- The turnout is what is to be checked. -/
theorem withinElectorate_iff (h : Ledger.Reachable contract trace env) :
    WithinElectorate trace env ↔ ∀ id proposal, env.store.proposals id = some proposal →
      proposal.votesFor + proposal.votesAgainst ≤ proposal.totalVotingPower := by
  refine ⟨fun hwithin => hwithin.turnout, fun hturnout => ⟨hturnout, ?_, ?_⟩⟩
  · intro id proposal hfind happroved
    exact ((statusLog_of_reachable h id).approved proposal hfind happroved).majority
  · intro id proposal hfind ballot hballot
    have hlog := ballotLog_of_reachable h id
    obtain ⟨hfor, hagainst⟩ := hlog.tally proposal hfind
    have hpower := power_le_turnout hlog.positive hballot
    have hle := hturnout id proposal hfind
    omega

/-- A step keeps the turnout of a proposal within its bound exactly if its vote fits. -/
theorem turnout_step {x x' : Entry} {a : Action} (hstep : EntryStep now a x x')
    (h : ∀ proposal, x.proposal = some proposal →
      proposal.votesFor + proposal.votesAgainst ≤ proposal.totalVotingPower) :
    (∀ proposal, x'.proposal = some proposal →
        proposal.votesFor + proposal.votesAgainst ≤ proposal.totalVotingPower) ↔
      ∀ b, a = .voted b → ∀ proposal, x.proposal = some proposal →
        b.power ≤ proposal.totalVotingPower - (proposal.votesFor + proposal.votesAgainst) := by
  cases hstep with
  | proposed proposal votes hfor hagainst hpower => simp [hfor, hagainst, hpower.le]
  | finalized proposal | executed proposal =>
      have hle := h proposal rfl
      simp [hle]
  | voted proposal votes b =>
      simp only [Option.some.injEq, forall_eq', Action.voted.injEq, UpgradeProposal.count]
      cases b.approve with
      | true | false =>
          simp only [if_true, Bool.false_eq_true, if_false]
          omega

/-- **Votes within the electorate.** In every run, the votes for every upgrade stay within its
declared voting power after every step exactly if every vote that is accepted fits in what the
votes before it leave. -/
theorem votes_within_electorate (h : Ledger.Reachable contract trace env) :
    Run.Each (fun e older => WithinElectorate (e :: older) e.after) trace ↔
      Run.Each (fun e _ => VoteFits e) trace := by
  refine Run.each_iff_of_step (I := WithinElectorate) ?_ ?_ h
  · intro env henv
    refine (withinElectorate_iff (.start henv)).mpr fun id proposal hfind => ?_
    obtain ⟨self, tokens, rfl⟩ := henv
    cases hfind
  · intro e older hrun hn hwithin
    rw [withinElectorate_iff (.step hrun hn), voteFits_iff]
    refine forall_congr' fun id => ?_
    have hold := hwithin.turnout id
    rcases entryStep_of_next hrun hn id with ⟨hidle, hentry⟩ | ⟨a, ha, hstep⟩
    · have hsame : e.after.store.proposals id = e.before.store.proposals id :=
        congrArg Entry.proposal hentry
      rw [hsame, hidle]
      exact iff_of_true hold (by simp)
    · rw [ha]
      simp only [Option.some.injEq]
      exact turnout_step hstep hold

/-- Two voters share the declared voting power. -/
theorem votes_within_electorate_of_shares :
    let run := Ledger.history contract Demo.env
      [Demo.call 0 (.proposeUpgrade Demo.proposer Demo.wasmHash "v2" 4 100),
        Demo.call 10 (.voteOnUpgrade 1 Demo.voter true 3),
        Demo.call 20 (.voteOnUpgrade 1 Demo.proposer false 1),
        Demo.call 101 (.finalizeVote 1)]
    Run.Each (fun e older => WithinElectorate (e :: older) e.after) run.1 := by
  intro run
  have hrun : Ledger.Reachable contract run.1 run.2 :=
    Ledger.history_reachable contract ⟨_, _, rfl⟩ (by decide)
  exact (votes_within_electorate hrun).mpr (by decide)

/-- A single voter brings more power than the whole electorate has. -/
theorem votes_within_electorate_inflated :
    ¬∀ trace env, Ledger.Reachable contract trace env →
      Run.Each (fun e older => WithinElectorate (e :: older) e.after) trace := by
  intro h
  let run := Ledger.history contract Demo.env
    [Demo.call 0 (.proposeUpgrade Demo.proposer Demo.wasmHash "v2" 4 100),
      Demo.call 10 (.voteOnUpgrade 1 Demo.voter true 1000)]
  have hrun : Ledger.Reachable contract run.1 run.2 :=
    Ledger.history_reachable contract ⟨_, _, rfl⟩ (by decide)
  have hturnout := (h _ _ hrun).1.turnout 1
  obtain ⟨proposal, hfind, hover⟩ : ∃ proposal, run.2.store.proposals 1 = some proposal ∧
      proposal.totalVotingPower < proposal.votesFor + proposal.votesAgainst :=
    ⟨_, rfl, by decide⟩
  exact absurd (hturnout proposal hfind) (Int.not_le.mpr hover)

end YieldTrust.Upgrade
