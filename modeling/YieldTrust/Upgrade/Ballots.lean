import Mathlib.Data.List.Nodup
import YieldTrust.Lib.PartialMap
import YieldTrust.Upgrade.Contract

/-!
# YieldTrust.Upgrade.Ballots

A proposal with the markers of its voters, as a **state machine** of its own, and what it says
about the history: its tallies are the votes that were accepted, one for each marker.
-/

namespace YieldTrust.Upgrade

open Fallible
open GrantStream (Address Bytes)

variable {env env' : Env} {call : Call} {store' : Store} {id : Nat} {e : Step}
  {trace older : Trace} {proposal proposal' : UpgradeProposal}

/-! ### What a call does -/

/-- An accepted vote. -/
structure Ballot where
  voter : Address
  approve : Bool
  power : Int
  deriving DecidableEq

def UpgradeProposal.count (proposal : UpgradeProposal) (ballot : Ballot) : UpgradeProposal :=
  if ballot.approve then { proposal with votesFor := proposal.votesFor + ballot.power }
  else { proposal with votesAgainst := proposal.votesAgainst + ballot.power }

/-- The finalisation computed whether the majority is met. -/
def Tallied (proposal : UpgradeProposal) (met : Bool) : Prop :=
  I128.InRange (proposal.votesFor + proposal.votesAgainst) ∧
    majorityMet proposal.votesFor (proposal.votesFor + proposal.votesAgainst) = .ok met

/-- The storage with another proposal under the identifier. -/
def Store.withProposal (store : Store) (id : Nat) (proposal : UpgradeProposal) : Store :=
  { store with proposals := Function.update store.proposals id (some proposal) }

inductive Effect (env : Env) : Call → Store → Prop
  | proposed {proposer : Address} {newWasmHash : Bytes} {description : String}
      {totalVotingPower : Int} {votingPeriodSecs : Nat} (proposal : UpgradeProposal)
      (proposalIds : List Nat) (hid : proposal.proposalId = env.store.nextProposalId.getD 1)
      (hfor : proposal.votesFor = 0) (hagainst : proposal.votesAgainst = 0)
      (hpower : 0 < proposal.totalVotingPower)
      (htimelock : proposal.executableAfter = proposal.votingDeadline + upgradeTimelockSecs)
      (hstatus : proposal.status = .proposed) :
      Effect env
        (.proposeUpgrade proposer newWasmHash description totalVotingPower votingPeriodSecs)
        { env.store.withProposal (env.store.nextProposalId.getD 1) proposal with
          nextProposalId := some (env.store.nextProposalId.getD 1 + 1)
          proposalIds := some proposalIds }
  | voted (id : Nat) (proposal : UpgradeProposal) (ballot : Ballot)
      (hfind : env.store.proposals id = some proposal) (hpower : 0 < ballot.power)
      (hopen : env.timestamp ≤ proposal.votingDeadline)
      (hnew : env.store.votes id ballot.voter = none) :
      Effect env (.voteOnUpgrade id ballot.voter ballot.approve ballot.power)
        { env.store.withProposal proposal.proposalId (proposal.count ballot) with
          votes := Function.update env.store.votes id
            (Function.update (env.store.votes id) ballot.voter (some true)) }
  | finalized (id : Nat) (proposal : UpgradeProposal)
      (hfind : env.store.proposals id = some proposal)
      (hover : proposal.votingDeadline < env.timestamp) (hstatus : proposal.status = .proposed)
      (met : Bool) (hmet : Tallied proposal met) :
      Effect env (.finalizeVote id) (env.store.withProposal proposal.proposalId
        { proposal with status := if met then .approved else .cancelled })
  | executed {admin : Address} {activeGrants : Nat} {totalLocked : Int}
      {milestoneClaimIds : List Nat} {oldWasmHash : Bytes} (id : Nat)
      (proposal : UpgradeProposal) (manifest : MigrationManifest)
      (hfind : env.store.proposals id = some proposal) (hstatus : proposal.status = .approved)
      (htime : proposal.executableAfter ≤ env.timestamp) :
      Effect env
        (.executeUpgrade id admin activeGrants totalLocked milestoneClaimIds oldWasmHash)
        { env.store.withProposal proposal.proposalId { proposal with status := .executed } with
          latestMigration := some manifest }

@[simp] theorem count_proposalId (proposal : UpgradeProposal) (ballot : Ballot) :
    (proposal.count ballot).proposalId = proposal.proposalId := by
  unfold UpgradeProposal.count
  split <;> rfl

theorem addVote_eq_ok {approve : Bool} {power : Int}
    (h : addVote proposal approve power = .ok proposal') (voter : Address) :
    proposal' = proposal.count ⟨voter, approve, power⟩ := by
  cases approve with
  | true | false =>
      simp only [addVote, if_true, Bool.false_eq_true, if_false, bind_eq_ok, okOr_eq_ok,
        I128.checkedAdd_eq_some, pure_eq_ok] at h
      obtain ⟨_, ⟨-, rfl⟩, rfl⟩ := h
      rfl

/-- **Inversion** of a call that goes through. -/
theorem exec_effect (h : call.exec env = .ok env') : Effect env call env'.store := by
  cases call with
  | proposeUpgrade proposer newWasmHash description totalVotingPower votingPeriodSecs =>
      simp only [Call.exec, proposeUpgrade, nextProposalId, map_eq_ok, bind_eq_ok, ensure_eq_ok,
        orTrap_eq_ok, U64.checkedAdd_eq_some, pure_eq_ok] at h
      obtain ⟨_, ⟨_, -, _, hpower, _, ⟨_, ⟨-, rfl⟩, rfl⟩, _, ⟨-, rfl⟩, _, ⟨-, rfl⟩, rfl⟩,
        rfl⟩ := h
      refine .proposed _ _ ?_ ?_ ?_ hpower ?_ ?_ <;> rfl
  | voteOnUpgrade id voter approve power =>
      simp only [Call.exec, voteOnUpgrade, readProposal, bind_eq_ok, ensure_eq_ok, okOr_eq_ok,
        pure_eq_ok] at h
      obtain ⟨_, -, _, hpower, proposal, hfind, _, hopen, _, hnew, proposal', hadd, rfl⟩ := h
      rw [addVote_eq_ok hadd voter, writeProposal, count_proposalId]
      exact .voted id proposal ⟨voter, approve, power⟩ hfind hpower hopen hnew
  | finalizeVote id =>
      simp only [Call.exec, finalizeVote, readProposal, bind_eq_ok, ensure_eq_ok, okOr_eq_ok,
        orTrap_eq_ok, I128.checkedAdd_eq_some, pure_eq_ok] at h
      obtain ⟨proposal, hfind, _, hover, _, hstatus, _, ⟨hrange, rfl⟩, met, hmet, rfl⟩ := h
      exact .finalized id proposal hfind hover hstatus met ⟨hrange, hmet⟩
  | executeUpgrade id admin activeGrants totalLocked milestoneClaimIds oldWasmHash =>
      simp only [Call.exec, executeUpgrade, readProposal, map_eq_ok, bind_eq_ok, ensure_eq_ok,
        okOr_eq_ok, pure_eq_ok] at h
      obtain ⟨_, ⟨_, -, proposal, hfind, _, hstatus, _, htime, rfl⟩, rfl⟩ := h
      exact .executed id proposal _ hfind hstatus htime

/-- The majority, for tallies that are not negative. -/
theorem Tallied.met_iff {met : Bool} (h : Tallied proposal met) (hfor : 0 ≤ proposal.votesFor)
    (hagainst : 0 ≤ proposal.votesAgainst) : met = true ↔
      0 < proposal.votesFor + proposal.votesAgainst ∧
        7500 * (proposal.votesFor + proposal.votesAgainst) ≤ proposal.votesFor * 10000 := by
  obtain ⟨hrange, hmet⟩ := h
  have hcast := U128.ofI128_of_nonneg hrange (by omega)
  have hvotes := U128.ofI128_of_nonneg (hrange.of_nonneg_of_le hfor (by omega)) hfor
  unfold majorityMet at hmet
  split at hmet
  · case isTrue hpos =>
    simp only [bind_eq_ok, orTrap_eq_ok, U128.checkedMul_eq_some, pure_eq_ok, hcast, hvotes,
      bpsDenom, upgradeMajorityBps] at hmet
    obtain ⟨_, ⟨-, rfl⟩, _, ⟨-, rfl⟩, rfl⟩ := hmet
    rw [decide_eq_true_iff]
    omega
  · case isFalse hpos =>
    cases pure_eq_ok.mp hmet
    simp [hpos]

/-! ### One proposal -/

/-- A proposal and the markers of its voters. -/
structure Entry where
  proposal : Option UpgradeProposal
  votes : Address → Option Bool

def Store.entry (store : Store) (id : Nat) : Entry := ⟨store.proposals id, store.votes id⟩

/-- What happens to a proposal. -/
inductive Action where
  | proposed
  | voted (ballot : Ballot)
  | finalized
  | executed
  deriving DecidableEq

/-- What the call does to the proposal `id`. -/
def Call.action (env : Env) (id : Nat) : Call → Option Action
  | .proposeUpgrade .. => if env.store.nextProposalId.getD 1 = id then some .proposed else none
  | .voteOnUpgrade proposalId voter approve power =>
      if proposalId = id then some (.voted ⟨voter, approve, power⟩) else none
  | .finalizeVote proposalId => if proposalId = id then some .finalized else none
  | .executeUpgrade proposalId .. => if proposalId = id then some .executed else none

/-- What the step does to the proposal `id`. -/
def action (id : Nat) (e : Step) : Option Action :=
  (Ledger.called contract e).bind (Call.action (e.before.enter e.action) id)

/-- A proposal as a state machine of its own, at the time `now`. -/
inductive EntryStep (now : Nat) : Action → Entry → Entry → Prop
  | proposed (proposal : UpgradeProposal) (votes : Address → Option Bool)
      (hfor : proposal.votesFor = 0) (hagainst : proposal.votesAgainst = 0)
      (hpower : 0 < proposal.totalVotingPower)
      (htimelock : proposal.executableAfter = proposal.votingDeadline + upgradeTimelockSecs)
      (hstatus : proposal.status = .proposed) :
      EntryStep now .proposed ⟨none, votes⟩ ⟨some proposal, votes⟩
  | voted (proposal : UpgradeProposal) (votes : Address → Option Bool) (ballot : Ballot)
      (hpower : 0 < ballot.power) (hopen : now ≤ proposal.votingDeadline)
      (hnew : votes ballot.voter = none) :
      EntryStep now (.voted ballot) ⟨some proposal, votes⟩
        ⟨some (proposal.count ballot), Function.update votes ballot.voter (some true)⟩
  | finalized (proposal : UpgradeProposal) (votes : Address → Option Bool)
      (hover : proposal.votingDeadline < now) (hstatus : proposal.status = .proposed)
      (met : Bool) (hmet : Tallied proposal met) :
      EntryStep now .finalized ⟨some proposal, votes⟩
        ⟨some { proposal with status := if met then .approved else .cancelled }, votes⟩
  | executed (proposal : UpgradeProposal) (votes : Address → Option Bool)
      (hstatus : proposal.status = .approved) (htime : proposal.executableAfter ≤ now) :
      EntryStep now .executed ⟨some proposal, votes⟩
        ⟨some { proposal with status := .executed }, votes⟩

/-- Proposals are stored under their identifiers, and later ones are free. -/
structure Store.WellFormed (store : Store) : Prop where
  keyed : ∀ id proposal, store.proposals id = some proposal → proposal.proposalId = id
  fresh : ∀ id, store.nextProposalId.getD 1 ≤ id → store.proposals id = none

theorem Store.WellFormed.withProposal {store : Store} (h : store.WellFormed)
    (hfind : store.proposals id = some proposal) (hid : proposal'.proposalId = id) :
    (store.withProposal id proposal').WellFormed := by
  refine ⟨fun other p hp => ?_, fun other hother => ?_⟩
  · rcases PartialMap.update_eq_some.mp hp with ⟨rfl, rfl⟩ | ⟨-, hp⟩
    · exact hid
    · exact h.keyed other p hp
  · have hfree : store.proposals other = none := h.fresh other hother
    have hne : other ≠ id := by
      rintro rfl
      cases hfree.symm.trans hfind
    exact (Function.update_of_ne hne ..).trans hfree

theorem Effect.wellFormed (h : Effect env call store') (hwf : env.store.WellFormed) :
    store'.WellFormed := by
  cases h with
  | proposed proposal proposalIds hid =>
      refine ⟨fun other p hp => ?_, fun other hother => ?_⟩
      · rcases PartialMap.update_eq_some.mp hp with ⟨rfl, rfl⟩ | ⟨-, hp⟩
        · exact hid
        · exact hwf.keyed other p hp
      · have hlt : env.store.nextProposalId.getD 1 < other := hother
        have hfree : env.store.proposals other = none := hwf.fresh other hlt.le
        simp [Store.withProposal, hlt.ne', hfree]
  | voted id proposal ballot hfind =>
      obtain rfl := hwf.keyed id proposal hfind
      have hkept := hwf.withProposal hfind (count_proposalId proposal ballot)
      exact ⟨hkept.keyed, hkept.fresh⟩
  | finalized id proposal hfind =>
      obtain rfl := hwf.keyed id proposal hfind
      exact hwf.withProposal hfind rfl
  | executed id proposal manifest hfind =>
      obtain rfl := hwf.keyed id proposal hfind
      have hkept : (env.store.withProposal proposal.proposalId
          { proposal with status := .executed }).WellFormed := hwf.withProposal hfind rfl
      exact ⟨hkept.keyed, hkept.fresh⟩

theorem wellFormed_of_reachable (h : Ledger.Reachable contract trace env) :
    env.store.WellFormed := by
  refine Ledger.store_invariant (I := Store.WellFormed) ⟨fun id proposal hfind => ?_, fun _ _ => rfl⟩
    (fun hexec _ hwf => (exec_effect hexec).wellFormed hwf) h
  cases hfind

/-- What a call does to a proposal. -/
theorem Effect.entryStep (h : Effect env call store') (hwf : env.store.WellFormed) (id : Nat) :
    (call.action env id = none ∧ store'.entry id = env.store.entry id) ∨
      ∃ a, call.action env id = some a ∧
        EntryStep env.timestamp a (env.store.entry id) (store'.entry id) := by
  cases h with
  | proposed proposal proposalIds _ hfor hagainst hpower htimelock hstatus =>
      refine Run.keyed_cases (fun hid => ?_) fun hid => ?_
      · subst hid
        simp only [Store.entry, Store.withProposal, Function.update_self, hwf.fresh _ le_rfl]
        exact .proposed proposal _ hfor hagainst hpower htimelock hstatus
      · simp [Store.entry, Store.withProposal, Ne.symm hid]
  | voted proposalId proposal ballot hfind hpower hopen hnew =>
      obtain rfl := hwf.keyed proposalId proposal hfind
      refine Run.keyed_cases (fun hid => ?_) fun hid => ?_
      · subst hid
        simp only [Store.entry, Store.withProposal, Function.update_self, hfind]
        exact .voted proposal _ ballot hpower hopen hnew
      · simp [Store.entry, Store.withProposal, Ne.symm hid]
  | finalized proposalId proposal hfind hover hstatus met hmet =>
      obtain rfl := hwf.keyed proposalId proposal hfind
      refine Run.keyed_cases (fun hid => ?_) fun hid => ?_
      · subst hid
        simp only [Store.entry, Store.withProposal, Function.update_self, hfind]
        exact .finalized proposal _ hover hstatus met hmet
      · simp [Store.entry, Store.withProposal, Ne.symm hid]
  | executed proposalId proposal manifest hfind hstatus htime =>
      obtain rfl := hwf.keyed proposalId proposal hfind
      refine Run.keyed_cases (fun hid => ?_) fun hid => ?_
      · subst hid
        simp only [Store.entry, Store.withProposal, Function.update_self, hfind]
        exact .executed proposal _ hstatus htime
      · simp [Store.entry, Store.withProposal, Ne.symm hid]

/-- What one event does to a proposal. -/
theorem entryStep_of_next (hrun : Ledger.Reachable contract older e.before)
    (h : Ledger.Next contract e.before e.action e.after) (id : Nat) :
    (action id e = none ∧ e.after.store.entry id = e.before.store.entry id) ∨
      ∃ a, action id e = some a ∧ EntryStep e.action.timestamp a (e.before.store.entry id)
        (e.after.store.entry id) := by
  rcases Ledger.effect_of_next (E := Effect (e.before.enter e.action)) h
    fun _ hexec => exec_effect hexec with ⟨hnone, hstore⟩ | ⟨call, hcalled, heffect⟩
  · exact .inl ⟨by simp [action, hnone], by rw [hstore]⟩
  · simp only [action, hcalled, Option.bind_some]
    have hwf : e.before.store.WellFormed := wellFormed_of_reachable hrun
    exact heffect.entryStep hwf id

/-! ### The votes of a proposal -/

/-- The vote for the proposal that the step takes in. -/
def ballot (id : Nat) (e : Step) : Option Ballot :=
  match action id e with
  | some (.voted ballot) => some ballot
  | _ => none

/-- The accepted votes for the proposal, newest first. -/
def ballots (id : Nat) (trace : Trace) : List Ballot := trace.filterMap (ballot id)

/-- The powers of the votes on one side. -/
def powerOf (approve : Bool) (ballots : List Ballot) : Int :=
  ((ballots.filter fun ballot => ballot.approve = approve).map Ballot.power).sum

/-- What a proposal says about its votes. -/
structure BallotLog (id : Nat) (trace : Trace) (x : Entry) : Prop where
  unproposed : x.proposal = none → ∀ e ∈ trace, action id e = none
  tally : ∀ proposal, x.proposal = some proposal →
    proposal.votesFor = powerOf true (ballots id trace) ∧
      proposal.votesAgainst = powerOf false (ballots id trace)
  marked : ∀ voter, x.votes voter ≠ none ↔ voter ∈ (ballots id trace).map Ballot.voter
  nodup : ((ballots id trace).map Ballot.voter).Nodup
  positive : ∀ ballot ∈ ballots id trace, 0 < ballot.power
  in_time : ∀ proposal, x.proposal = some proposal → ∀ e ∈ trace, ballot id e ≠ none →
    e.action.timestamp ≤ proposal.votingDeadline

theorem ballots_cons_none (h : ballot id e = none) (older : Trace) :
    ballots id (e :: older) = ballots id older :=
  List.filterMap_cons_none h

theorem ballots_cons_some {b : Ballot} (h : ballot id e = some b) (older : Trace) :
    ballots id (e :: older) = b :: ballots id older :=
  List.filterMap_cons_some h

theorem powerOf_cons (approve : Bool) (b : Ballot) (ballots : List Ballot) :
    powerOf approve (b :: ballots) =
      powerOf approve ballots + if b.approve = approve then b.power else 0 := by
  unfold powerOf
  by_cases h : b.approve = approve
  · simp [h, Int.add_comm]
  · simp [h]

theorem powerOf_nonneg (approve : Bool) {ballots : List Ballot}
    (h : ∀ ballot ∈ ballots, 0 < ballot.power) : 0 ≤ powerOf approve ballots := by
  induction ballots with
  | nil => simp [powerOf]
  | cons b ballots ih =>
      rw [List.forall_mem_cons] at h
      have hrest := ih h.2
      have hpower := h.1
      rw [powerOf_cons]
      split <;> omega

/-- A step that takes in no vote keeps what a proposal says about its votes. -/
theorem BallotLog.kept {x x' : Entry} (h : BallotLog id older x) (hnone : ballot id e = none)
    (hfree : x'.proposal = none → action id e = none ∧ x.proposal = none)
    (hvotes : x'.votes = x.votes)
    (hsame : ∀ proposal', x'.proposal = some proposal' → ∃ proposal,
      x.proposal = some proposal ∧ proposal'.votesFor = proposal.votesFor ∧
        proposal'.votesAgainst = proposal.votesAgainst ∧
        proposal'.votingDeadline = proposal.votingDeadline) : BallotLog id (e :: older) x' := by
  have hballots := ballots_cons_none hnone older
  refine ⟨fun hx => ?_, fun proposal' hx => ?_, ?_, ?_, ?_, fun proposal' hx e' he' hcast => ?_⟩
  · obtain ⟨hidle, hold⟩ := hfree hx
    exact List.forall_mem_cons.mpr ⟨hidle, h.unproposed hold⟩
  · obtain ⟨proposal, hold, hfor, hagainst, -⟩ := hsame proposal' hx
    rw [hballots, hfor, hagainst]
    exact h.tally proposal hold
  · rw [hballots, hvotes]
    exact h.marked
  · rw [hballots]
    exact h.nodup
  · rw [hballots]
    exact h.positive
  · obtain ⟨proposal, hold, -, -, hdeadline⟩ := hsame proposal' hx
    rw [hdeadline]
    rcases List.mem_cons.mp he' with rfl | he'
    · exact absurd hnone hcast
    · exact h.in_time proposal hold e' he' hcast

/-- **Step lemma**, by cases on what happens to the proposal. -/
theorem BallotLog.step {x x' : Entry} {a : Action} (h : BallotLog id older x)
    (ha : action id e = some a) (hstep : EntryStep e.action.timestamp a x x') :
    BallotLog id (e :: older) x' := by
  cases hstep with
  | proposed proposal votes hfor hagainst =>
      have hnone : ballot id e = none := by simp [ballot, ha]
      have hidle := h.unproposed rfl
      have hempty : ballots id older = [] :=
        List.filterMap_eq_nil_iff.mpr fun e' he' => by simp [ballot, hidle e' he']
      refine ⟨fun hx => (nomatch hx), fun p hp => ?_, ?_, ?_, ?_, fun p _ e' he' hcast => ?_⟩
      · cases hp
        rw [ballots_cons_none hnone, hempty, hfor, hagainst]
        exact ⟨rfl, rfl⟩
      · rw [ballots_cons_none hnone]
        exact h.marked
      · rw [ballots_cons_none hnone]
        exact h.nodup
      · rw [ballots_cons_none hnone]
        exact h.positive
      · rcases List.mem_cons.mp he' with rfl | he'
        · exact absurd hnone hcast
        · simp [ballot, hidle e' he'] at hcast
  | voted proposal votes b hpower hopen hnew =>
      have hballot : ballot id e = some b := by simp [ballot, ha]
      have hballots := ballots_cons_some hballot older
      obtain ⟨hfor, hagainst⟩ := h.tally proposal rfl
      have hdeadline : (proposal.count b).votingDeadline = proposal.votingDeadline := by
        unfold UpgradeProposal.count
        split <;> rfl
      refine ⟨fun hx => (nomatch hx), fun p hp => ?_, fun voter => ?_, ?_, ?_,
        fun p hp e' he' hcast => ?_⟩
      · cases hp
        rw [hballots, powerOf_cons, powerOf_cons, ← hfor, ← hagainst]
        unfold UpgradeProposal.count
        cases b.approve with
        | true | false => simp
      · rw [hballots, List.map_cons, List.mem_cons]
        by_cases hvoter : voter = b.voter
        · simp [hvoter]
        · simpa [hvoter] using h.marked voter
      · rw [hballots, List.map_cons, List.nodup_cons, ← h.marked]
        exact ⟨fun hmarked => hmarked hnew, h.nodup⟩
      · rw [hballots]
        exact List.forall_mem_cons.mpr ⟨hpower, h.positive⟩
      · cases hp
        rw [hdeadline]
        rcases List.mem_cons.mp he' with rfl | he'
        · exact hopen
        · exact h.in_time proposal rfl e' he' hcast
  | finalized proposal votes =>
      refine h.kept (by simp [ballot, ha]) (fun hx => (nomatch hx)) rfl fun p hp => ?_
      cases hp
      exact ⟨proposal, rfl, rfl, rfl, rfl⟩
  | executed proposal votes =>
      refine h.kept (by simp [ballot, ha]) (fun hx => (nomatch hx)) rfl fun p hp => ?_
      cases hp
      exact ⟨proposal, rfl, rfl, rfl, rfl⟩

theorem ballotLog_of_reachable (h : Ledger.Reachable contract trace env) (id : Nat) :
    BallotLog id trace (env.store.entry id) := by
  refine Run.event_induction (f := fun env => env.store.entry id) (I := BallotLog id)
    (fun hrun hn => entryStep_of_next hrun hn id) ?_ ?_ h
  · rintro _ ⟨self, tokens, rfl⟩
    exact ⟨fun _ => by simp, fun p hp => (nomatch hp), fun voter => by simp [ballots,
      Ledger.Env.deployed, contract, Store.entry], List.nodup_nil, by simp [ballots],
      fun p hp => (nomatch hp)⟩
  · intro older e hrun hlog hevent
    rcases hevent with ⟨hidle, hentry⟩ | ⟨a, ha, hstep⟩
    · rw [hentry]
      exact hlog.kept (by simp [ballot, hidle]) (fun hx => ⟨hidle, hx⟩) rfl
        fun p hp => ⟨p, hp, rfl, rfl, rfl⟩
    · exact hlog.step ha hstep

end YieldTrust.Upgrade
