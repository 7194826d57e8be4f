import YieldTrust.GrantGovernance.Transitions

/-!
# YieldTrust.GrantGovernance.Ballots

A proposal with its votes as a **state machine** of its own, and what it says about the history:
every vote counts, also one of an address that voted before, and the stake leaves once.
-/

namespace YieldTrust.GrantGovernance

open Fallible
open GrantStream (Address Bytes)

variable {env start : Env} {call : Call} {store store' : Store} {proposal proposal' : Proposal}
  {moved : List (TokenLedger.Transfer Address)} {id : Nat} {e : Step} {trace older : Trace}

/-! ### What holds of the storage -/

/-- The contract is configured; proposals are stored under their identifiers, which are listed,
and later ones are free. -/
structure Store.WellFormed (store : Store) : Prop where
  configured : store.governanceToken ≠ none
  keyed : ∀ id proposal, store.proposals id = some proposal → proposal.id = id
  listed : ∃ proposalIds, store.proposalIds = some proposalIds ∧
    (∀ id, store.proposals id ≠ none ↔ id ∈ proposalIds) ∧
    ∀ id ∈ proposalIds, id < freshId proposalIds

theorem freshId_append (proposalIds : List Nat) (id : Nat) :
    freshId (proposalIds ++ [id]) = id + 1 := by
  simp [freshId]

theorem Store.WellFormed.withProposal (h : store.WellFormed)
    (hfind : store.proposals id = some proposal) (hid : proposal'.id = proposal.id) :
    (store.withProposal proposal').WellFormed := by
  obtain ⟨proposalIds, hids, hmem, hfresh⟩ := h.listed
  obtain rfl := hid.trans (h.keyed id proposal hfind)
  refine ⟨h.configured, fun other p hp => ?_, proposalIds, hids, fun other => ?_, hfresh⟩
  · rcases PartialMap.update_eq_some.mp hp with ⟨rfl, rfl⟩ | ⟨-, hp⟩
    · rfl
    · exact h.keyed other p hp
  · by_cases hother : other = proposal'.id
    · subst hother
      simpa [Store.withProposal] using (hmem _).mp (by simp [hfind])
    · simpa [Store.withProposal, hother] using hmem other

theorem Effect.wellFormed (h : Effect env call store' moved) (hwf : env.store.WellFormed) :
    store'.WellFormed := by
  cases h with
  | initialized _ hnone => exact absurd hnone hwf.configured
  | appointed | measured => exact ⟨hwf.configured, hwf.keyed, hwf.listed⟩
  | created _ proposal proposalIds _ _ hids hid =>
      obtain ⟨proposalIds', hids', hmem, hfresh⟩ := hwf.listed
      cases hids.symm.trans hids'
      refine ⟨hwf.configured, fun other p hp => ?_, _, rfl, fun other => ?_, fun other hother => ?_⟩
      · rcases PartialMap.update_eq_some.mp hp with ⟨rfl, rfl⟩ | ⟨-, hp⟩
        · rfl
        · exact hwf.keyed other p hp
      · by_cases hother : other = proposal.id
        · simp [Store.withProposal, hother]
        · simpa [Store.withProposal, hother] using hmem other
      · rw [freshId_append]
        rcases List.mem_append.mp hother with hother | hother
        · have hlt := hfresh other hother
          omega
        · rw [List.mem_singleton.mp hother]
          exact Nat.lt_succ_self _
  | challenged challenger proposalId proposal _ _ hfind =>
      exact hwf.withProposal hfind rfl
  | voted voter proposalId weight votingPower proposal _ _ hfind =>
      have hkept : (env.store.withProposal { proposal with
          yesVotes := proposal.yesVotes + weight * weight
          totalVotingPower := proposal.totalVotingPower + votingPower }).WellFormed :=
        hwf.withProposal hfind rfl
      exact ⟨hkept.configured, hkept.keyed, hkept.listed⟩
  | executed caller proposalId proposal _ _ hfind =>
      have hkept : (env.store.withProposal { proposal with status := .executed }).WellFormed :=
        hwf.withProposal hfind rfl
      exact ⟨hkept.configured, hkept.keyed, hkept.listed⟩
  | released _ proposalId proposal _ _ _ hfind => exact hwf.withProposal hfind rfl

/-- A contract that is configured, with no proposals yet. -/
structure Configured (store : Store) : Prop where
  governanceToken : store.governanceToken ≠ none
  proposalIds : store.proposalIds = some []
  proposals : ∀ id, store.proposals id = none
  votes : ∀ voter id, store.votes voter id = none

theorem Configured.wellFormed (h : Configured store) : store.WellFormed :=
  ⟨h.governanceToken, fun id p hp => by simp [h.proposals id] at hp, [], h.proposalIds,
    by simp [h.proposals], by simp⟩

/-! ### One proposal -/

/-- A vote that was counted. -/
structure Ballot where
  voter : Address
  weight : Int
  votingPower : Int
  deriving DecidableEq

/-- A proposal and the votes that are recorded for it. -/
structure Entry where
  proposal : Option Proposal
  votes : Address → Option Vote

def Store.entry (store : Store) (id : Nat) : Entry :=
  ⟨store.proposals id, fun voter => store.votes voter id⟩

/-- What happens to a proposal. -/
inductive Action where
  | created
  | challenged
  | voted (ballot : Ballot)
  | executed
  | released
  deriving DecidableEq

/-- The voting power of an address. -/
def powerOf (env : Env) (voter : Address) : Int :=
  (calculateVotingPower env voter).toOption.elim 0 Prod.snd

/-- What the call does to the proposal `id`. -/
def Call.action (env : Env) (id : Nat) : Call → Option Action
  | .createProposal .. | .proposeOptimisticGrant ..
  | .createSetManualExchangeRateProposal .. =>
      if freshId (env.store.proposalIds.getD []) = id then some .created else none
  | .challengeOptimisticGrant _ proposalId => if proposalId = id then some .challenged else none
  | .quadraticVote voter proposalId weight =>
      if proposalId = id then some (.voted ⟨voter, weight, powerOf env voter⟩) else none
  | .executeProposal _ proposalId => if proposalId = id then some .executed else none
  | .refundStake proposalId | .slashStake _ _ proposalId =>
      if proposalId = id then some .released else none
  | .initializeGovernance .. | .setCouncilMembers .. | .getVoterPower _ => none

/-- What the step does to the proposal `id`. -/
def action (id : Nat) (e : Step) : Option Action :=
  (Ledger.called contract e).bind (Call.action (e.before.enter e.action) id)

/-- A proposal as a state machine of its own. -/
inductive EntryStep (env : Env) (call : Call) : Action → Entry → Entry → Prop
  | created (proposal : Proposal) (votes : Address → Option Vote)
      (hnew : proposal.New env.timestamp call) :
      EntryStep env call .created ⟨none, votes⟩ ⟨some proposal, votes⟩
  | challenged (proposal : Proposal) (votes : Address → Option Vote)
      (hstatus : proposal.status = .optimistic) :
      EntryStep env call .challenged ⟨some proposal, votes⟩
        ⟨some { proposal with status := .challenged }, votes⟩
  | voted (proposal : Proposal) (votes : Address → Option Vote) (ballot : Ballot) (vote : Vote)
      (hopen : env.timestamp < proposal.votingDeadline) (hstatus : proposal.status = .active) :
      EntryStep env call (.voted ballot) ⟨some proposal, votes⟩
        ⟨some { proposal with
            yesVotes := proposal.yesVotes + ballot.weight * ballot.weight
            totalVotingPower := proposal.totalVotingPower + ballot.votingPower },
          Function.update votes ballot.voter (some vote)⟩
  | executed (proposal : Proposal) (votes : Address → Option Vote)
      (hstatus : proposal.status = .active) (hmeets : env.store.Meets proposal) :
      EntryStep env call .executed ⟨some proposal, votes⟩
        ⟨some { proposal with status := .executed }, votes⟩
  | released (proposal : Proposal) (votes : Address → Option Vote)
      (hkept : proposal.stakeReturned = false) :
      EntryStep env call .released ⟨some proposal, votes⟩
        ⟨some { proposal with stakeReturned := true }, votes⟩

theorem Call.action_of_creates (h : call.creates = true) (env : Env) (id : Nat) :
    call.action env id =
      if freshId (env.store.proposalIds.getD []) = id then some .created else none := by
  cases call <;> first | rfl | cases h

theorem Call.action_of_released {proposalId : Nat} (h : call.released = some proposalId)
    (env : Env) (id : Nat) :
    call.action env id = if proposalId = id then some .released else none := by
  cases call <;> cases h <;> rfl

theorem powerOf_eq {voter : Address} {votingPower : Int}
    (h : (Prod.snd <$> calculateVotingPower env voter) = .ok votingPower) :
    powerOf env voter = votingPower := by
  obtain ⟨_, hpower, rfl⟩ := map_eq_ok.mp h
  rw [powerOf, hpower]
  rfl

/-- The votes for a proposal after a vote for it. -/
theorem votes_update_self (votes : Address → Nat → Option Vote) (voter : Address) (id : Nat)
    (vote : Option Vote) :
    (fun other => Function.update votes voter (Function.update (votes voter) id vote) other id) =
      Function.update (fun other => votes other id) voter vote := by
  funext other
  by_cases h : other = voter
  · simp [h]
  · simp [h]

/-- The votes for a proposal after a vote for another one. -/
theorem votes_update_of_ne {votes : Address → Nat → Option Vote} {voter : Address}
    {proposalId : Nat} {vote : Option Vote} (h : proposalId ≠ id) :
    (fun other =>
        Function.update votes voter (Function.update (votes voter) proposalId vote) other id) =
      fun other => votes other id := by
  funext other
  by_cases hother : other = voter
  · simp [hother, h.symm]
  · simp [hother]

/-- What a call does to a proposal. -/
theorem Effect.entryStep (h : Effect env call store' moved) (hwf : env.store.WellFormed)
    (id : Nat) :
    (call.action env id = none ∧ store'.entry id = env.store.entry id) ∨
      ∃ a, call.action env id = some a ∧
        EntryStep env call a (env.store.entry id) (store'.entry id) := by
  cases h with
  | initialized _ hnone => exact absurd hnone hwf.configured
  | appointed | measured => exact .inl ⟨rfl, rfl⟩
  | created _ proposal proposalIds _ hcreates hids hid hnew =>
      rw [call.action_of_creates hcreates, hids, Option.getD_some, ← hid]
      obtain ⟨proposalIds', hids', hmem, hfresh⟩ := hwf.listed
      cases hids.symm.trans hids'
      refine Run.keyed_cases (fun heq => ?_) fun heq => ?_
      · subst heq
        have hfree : env.store.proposals proposal.id = none := by
          by_contra hsome
          have hlt := hfresh _ ((hmem _).mp hsome)
          omega
        simp only [Store.entry, Store.withProposal, Function.update_self, hfree]
        exact .created proposal _ hnew
      · simp [Store.entry, Store.withProposal, Ne.symm heq]
  | challenged challenger proposalId proposal _ _ hfind hstatus =>
      obtain rfl := hwf.keyed proposalId proposal hfind
      refine Run.keyed_cases (fun heq => ?_) fun heq => ?_
      · subst heq
        simp only [Store.entry, Store.withProposal, Function.update_self, hfind]
        exact .challenged proposal _ hstatus
      · simp [Store.entry, Store.withProposal, Ne.symm heq]
  | voted voter proposalId weight votingPower proposal vote _ hfind hopen hstatus hpower =>
      obtain rfl := hwf.keyed proposalId proposal hfind
      rw [Call.action, powerOf_eq hpower]
      refine Run.keyed_cases (fun heq => ?_) fun heq => ?_
      · subst heq
        simp only [Store.entry, Store.withProposal, Function.update_self, hfind, votes_update_self]
        exact .voted proposal _ ⟨voter, weight, votingPower⟩ vote hopen hstatus
      · simp only [Store.entry, Store.withProposal, Function.update_of_ne (Ne.symm heq),
          votes_update_of_ne heq]
  | executed caller proposalId proposal _ _ hfind _ hstatus hmeets =>
      obtain rfl := hwf.keyed proposalId proposal hfind
      refine Run.keyed_cases (fun heq => ?_) fun heq => ?_
      · subst heq
        simp only [Store.entry, Store.withProposal, Function.update_self, hfind]
        exact .executed proposal _ hstatus hmeets
      · simp [Store.entry, Store.withProposal, Ne.symm heq]
  | released _ proposalId proposal _ _ hcall hfind hkept =>
      rw [Call.action_of_released hcall]
      obtain rfl := hwf.keyed proposalId proposal hfind
      refine Run.keyed_cases (fun heq => ?_) fun heq => ?_
      · subst heq
        simp only [Store.entry, Store.withProposal, Function.update_self, hfind]
        exact .released proposal _ hkept
      · simp [Store.entry, Store.withProposal, Ne.symm heq]

/-! ### Steps -/

/-- What the event of a step does to the environment that it enters. -/
theorem leaves_of_next (h : Ledger.Next contract e.before e.action e.after) :
    (Ledger.called contract e = none ∧ e.after.store = e.before.store) ∨
      ∃ call, Ledger.called contract e = some call ∧
        Leaves (e.before.enter e.action) call e.after := by
  rcases Ledger.cases_of_next h with hidle | ⟨call, result, hcalled, -, hexec, hafter⟩
  · exact .inl hidle
  · obtain ⟨moved, hlog, heffect⟩ := exec_leaves hexec
    rw [hafter]
    exact .inr ⟨call, hcalled, moved, hlog, heffect⟩

theorem wellFormed_of_run (hstart : Configured start.store)
    (h : Run (· = start) (Ledger.Next contract) trace env) : env.store.WellFormed := by
  refine Run.invariant (I := fun env => env.store.WellFormed) ?_ ?_ h
  · intro env henv
    rw [henv]
    exact hstart.wellFormed
  · intro env event env' hwf hn
    rcases leaves_of_next (e := ⟨env, event, env'⟩) hn with
      ⟨-, hstore⟩ | ⟨call, -, moved, -, heffect⟩
    · dsimp only at hstore
      rw [hstore]
      exact hwf
    · have hkept := heffect.wellFormed hwf
      exact hkept

/-- What one event does to a proposal. -/
theorem entryStep_of_next (hwf : e.before.store.WellFormed)
    (h : Ledger.Next contract e.before e.action e.after) (id : Nat) :
    (action id e = none ∧ e.after.store.entry id = e.before.store.entry id) ∨
      ∃ call a, Ledger.called contract e = some call ∧ action id e = some a ∧
        EntryStep (e.before.enter e.action) call a (e.before.store.entry id)
          (e.after.store.entry id) := by
  rcases leaves_of_next h with ⟨hnone, hstore⟩ | ⟨call, hcalled, moved, -, heffect⟩
  · exact .inl ⟨by simp [action, hnone], by rw [hstore]⟩
  · have haction : action id e = call.action (e.before.enter e.action) id := by
      simp [action, hcalled]
    rw [haction]
    rcases heffect.entryStep hwf id with hidle | ⟨a, ha, hstep⟩
    · exact .inl hidle
    · exact .inr ⟨call, a, hcalled, ha, hstep⟩

/-! ### The history of a proposal -/

/-- The vote for the proposal that the step counts. -/
def ballot (id : Nat) (e : Step) : Option Ballot :=
  match action id e with
  | some (.voted ballot) => some ballot
  | _ => none

/-- The votes for the proposal that were counted, newest first. -/
def ballots (id : Nat) (trace : Trace) : List Ballot := trace.filterMap (ballot id)

/-- How often the stake of the proposal was paid out. -/
def releases (id : Nat) (trace : Trace) : Nat :=
  trace.countP fun e => action id e = some .released

/-- The votes are worth the squares of their weights. -/
def yesOf (ballots : List Ballot) : Int :=
  (ballots.map fun ballot => ballot.weight * ballot.weight).sum

/-- What a proposal says about its history. -/
structure EntryLog (id : Nat) (trace : Trace) (x : Entry) : Prop where
  uncreated : x.proposal = none → ∀ e ∈ trace, action id e = none
  tally : ∀ proposal, x.proposal = some proposal →
    proposal.yesVotes = yesOf (ballots id trace) ∧
      proposal.totalVotingPower = ((ballots id trace).map Ballot.votingPower).sum
  recorded : ∀ voter, x.votes voter ≠ none ↔ voter ∈ (ballots id trace).map Ballot.voter
  released : ∀ proposal, x.proposal = some proposal →
    releases id trace = if proposal.stakeReturned then 1 else 0

theorem ballots_cons_none (h : ballot id e = none) (older : Trace) :
    ballots id (e :: older) = ballots id older :=
  List.filterMap_cons_none h

theorem ballots_cons_some {b : Ballot} (h : ballot id e = some b) (older : Trace) :
    ballots id (e :: older) = b :: ballots id older :=
  List.filterMap_cons_some h

theorem releases_cons (id : Nat) (e : Step) (older : Trace) :
    releases id (e :: older) =
      releases id older + if action id e = some .released then 1 else 0 := by
  unfold releases
  rw [List.countP_cons]
  simp

/-- What is not created has no votes, and its stake is not paid out. -/
theorem history_of_uncreated (h : ∀ e ∈ trace, action id e = none) :
    ballots id trace = [] ∧ releases id trace = 0 := by
  constructor
  · exact List.filterMap_eq_nil_iff.mpr fun e he => by simp [ballot, h e he]
  · exact List.countP_eq_zero.mpr fun e he => by simp [h e he]

/-- A step that counts no vote and pays no stake. -/
theorem EntryLog.kept {x x' : Entry} (h : EntryLog id older x) (hnone : ballot id e = none)
    (hkept : action id e ≠ some .released) (hvotes : x'.votes = x.votes)
    (hfree : x'.proposal = none → action id e = none ∧ x.proposal = none)
    (hsame : ∀ proposal', x'.proposal = some proposal' → ∃ proposal,
      x.proposal = some proposal ∧ proposal'.yesVotes = proposal.yesVotes ∧
        proposal'.totalVotingPower = proposal.totalVotingPower ∧
        proposal'.stakeReturned = proposal.stakeReturned) : EntryLog id (e :: older) x' := by
  have hballots := ballots_cons_none hnone older
  refine ⟨fun hx => ?_, fun proposal' hx => ?_, ?_, fun proposal' hx => ?_⟩
  · obtain ⟨hidle, hold⟩ := hfree hx
    exact List.forall_mem_cons.mpr ⟨hidle, h.uncreated hold⟩
  · obtain ⟨proposal, hold, hyes, hpower, -⟩ := hsame proposal' hx
    rw [hballots, hyes, hpower]
    exact h.tally proposal hold
  · rw [hballots, hvotes]
    exact h.recorded
  · obtain ⟨proposal, hold, -, -, hreturned⟩ := hsame proposal' hx
    rw [releases_cons, if_neg hkept, hreturned]
    exact h.released proposal hold

/-- **Step lemma**, by cases on what happens to the proposal. -/
theorem EntryLog.step {x x' : Entry} {a : Action} (h : EntryLog id older x)
    (ha : action id e = some a) (hstep : EntryStep env call a x x') :
    EntryLog id (e :: older) x' := by
  cases hstep with
  | created proposal votes hnew =>
      have hnone : ballot id e = none := by simp [ballot, ha]
      obtain ⟨hballots, hreleases⟩ := history_of_uncreated (h.uncreated rfl)
      refine ⟨fun hx => (nomatch hx), fun p hp => ?_, fun voter => ?_, fun p hp => ?_⟩
      · cases hp
        rw [ballots_cons_none hnone, hballots, hnew.yesVotes, hnew.totalVotingPower]
        exact ⟨rfl, rfl⟩
      · rw [ballots_cons_none hnone]
        exact h.recorded voter
      · cases hp
        rw [releases_cons, hreleases, hnew.stakeReturned]
        simp [ha]
  | voted proposal votes b vote =>
      have hballot : ballot id e = some b := by simp [ballot, ha]
      have hballots := ballots_cons_some hballot older
      obtain ⟨hyes, hpower⟩ := h.tally proposal rfl
      refine ⟨fun hx => (nomatch hx), fun p hp => ?_, fun voter => ?_, fun p hp => ?_⟩
      · cases hp
        dsimp only
        rw [hballots, hyes, hpower, yesOf, yesOf, List.map_cons, List.sum_cons, List.map_cons,
          List.sum_cons]
        exact ⟨Int.add_comm _ _, Int.add_comm _ _⟩
      · rw [hballots, List.map_cons, List.mem_cons]
        by_cases hvoter : voter = b.voter
        · simp [hvoter]
        · simpa [hvoter] using h.recorded voter
      · cases hp
        rw [releases_cons, h.released proposal rfl]
        simp [ha]
  | released proposal votes hkept =>
      have hnone : ballot id e = none := by simp [ballot, ha]
      refine ⟨fun hx => (nomatch hx), fun p hp => ?_, ?_, fun p hp => ?_⟩
      · cases hp
        rw [ballots_cons_none hnone]
        exact h.tally proposal rfl
      · rw [ballots_cons_none hnone]
        exact h.recorded
      · cases hp
        rw [releases_cons, h.released proposal rfl]
        simp [ha, hkept]
  | challenged proposal votes | executed proposal votes =>
      refine h.kept (by simp [ballot, ha]) (by simp [ha]) rfl (fun hx => (nomatch hx))
        fun p hp => ?_
      cases hp
      exact ⟨proposal, rfl, rfl, rfl, rfl⟩

theorem entryLog_of_run (hstart : Configured start.store)
    (h : Run (· = start) (Ledger.Next contract) trace env) (id : Nat) :
    EntryLog id trace (env.store.entry id) := by
  refine Run.event_induction (f := fun env => env.store.entry id) (I := EntryLog id)
    (fun hrun hn => entryStep_of_next (wellFormed_of_run hstart hrun) hn id) ?_ ?_ h
  · intro env henv
    have hfree : env.store.proposals id = none := by rw [henv, hstart.proposals]
    refine ⟨fun _ => by simp, fun p hp => ?_, fun voter => ?_, fun p hp => ?_⟩
    · cases hfree.symm.trans hp
    · have hvotes : env.store.votes voter id = none := by rw [henv, hstart.votes]
      simp [Store.entry, ballots, hvotes]
    · cases hfree.symm.trans hp
  · intro older e hrun hlog hevent
    rcases hevent with ⟨hidle, hentry⟩ | ⟨call, a, -, ha, hstep⟩
    · rw [hentry]
      exact hlog.kept (by simp [ballot, hidle]) (by simp [hidle]) rfl (fun hx => ⟨hidle, hx⟩)
        fun p hp => ⟨p, hp, rfl, rfl, rfl⟩
    · exact hlog.step ha hstep

end YieldTrust.GrantGovernance
