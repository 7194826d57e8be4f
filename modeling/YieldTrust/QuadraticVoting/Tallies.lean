import Mathlib.Data.Set.Card
import YieldTrust.Lib.PartialMap
import YieldTrust.QuadraticVoting.Contract

/-!
# YieldTrust.QuadraticVoting.Tallies

What the proposals say about their votes. A voter votes once on a proposal, and the votes and
costs are added up exactly. The voters are not counted: whether a voter is new is looked up after
the record of the vote was stored, so nobody is ever new.
-/

namespace YieldTrust.QuadraticVoting

open Fallible
open GrantStream (Address)

variable {env env' : Env} {call : Call} {store' : Store} {id : Nat} {e : Step}
  {trace older : Trace} {p p' : Proposal}

/-! ### What a call does -/

/-- The proposal with the votes of the record. -/
def Proposal.add (p : Proposal) (record : VoteRecord) : Proposal :=
  { p with votesReceived := p.votesReceived + record.votes, totalCost := p.totalCost + record.cost }

/-- Everything but the status. -/
def Proposal.pending (p : Proposal) : Proposal := { p with status := .active }

@[simp] theorem pending_id (p : Proposal) : p.pending.id = p.id := rfl

/-- An allocation changes the status of proposals only. -/
structure SameTallies (store store' : Store) : Prop where
  proposals : (getProposals store').map Proposal.pending =
    (getProposals store).map Proposal.pending
  voteRecords : store'.voteRecords = store.voteRecords

inductive Effect (env : Env) : Call → Store → Prop
  | configured {admin votingToken : Address} (config : VotingConfig) :
      Effect env (.initializeVoting admin votingToken)
        { env.store with qvConfig := some config }
  | created {proposer : Address} {grantAmount : Int} {description : String} (p : Proposal)
      (hid : ∀ q ∈ getProposals env.store, q.id < p.id) (hvotes : p.votesReceived = 0)
      (hcost : p.totalCost = 0) (hvoters : p.uniqueVoters = 0) :
      Effect env (.createProposal proposer grantAmount description)
        { env.store with proposals := some (getProposals env.store ++ [p]) }
  | voted (p : Proposal) (record : VoteRecord) (spent : Address → Option Nat)
      (hfind : (getProposals env.store).find? (fun q => q.id = record.proposalId) = some p)
      (hvotes : record.votes ≠ 0)
      (hnew : env.store.voteRecords record.proposalId record.voter = none) :
      Effect env (.castVote record.voter record.proposalId record.votes)
        { env.store with
          proposals := some (KeyedList.set Proposal.id (p.add record) (getProposals env.store))
          voteRecords := Function.update env.store.voteRecords record.proposalId
            (Function.update (env.store.voteRecords record.proposalId) record.voter (some record))
          spent }
  | allocated {admin : Address} (store' : Store)
      (hsame : SameTallies env.store store') : Effect env (.allocateGrants admin) store'

theorem foldl_max_bounds (ids : List Nat) (m : Nat) :
    m ≤ ids.foldl max m ∧ ∀ id ∈ ids, id ≤ ids.foldl max m := by
  induction ids generalizing m with
  | nil => simp
  | cons id ids ih =>
      obtain ⟨hle, hall⟩ := ih (max m id)
      rw [List.foldl_cons, List.forall_mem_cons]
      exact ⟨(le_max_left m id).trans hle, (le_max_right m id).trans hle, hall⟩

/-- A new identifier is larger than all others. -/
theorem getNextProposalId_gt (h : getNextProposalId env = .ok id) :
    ∀ q ∈ getProposals env.store, q.id < id := by
  unfold getNextProposalId at h
  split at h
  · case h_1 hnone => simp [hnone]
  · intro q hq
    obtain ⟨-, rfl⟩ := U64.checkedAdd_eq_some.mp (orTrap_eq_ok.mp h)
    exact Nat.lt_succ_of_le ((foldl_max_bounds _ 0).2 q.id (List.mem_map_of_mem hq))

theorem updateProposal_eq_ok {updater : Proposal → Res Proposal}
    (h : updateProposal env id updater = .ok env') :
    ∃ p p', (getProposals env.store).find? (fun q => q.id = id) = some p ∧ updater p = .ok p' ∧
      env'.store = { env.store with
        proposals := some (KeyedList.set Proposal.id p' (getProposals env.store)) } := by
  simp only [updateProposal, getProposal, bind_eq_ok, okOr_eq_ok, pure_eq_ok] at h
  obtain ⟨p, hfind, p', hupdate, rfl⟩ := h
  exact ⟨p, p', hfind, hupdate, rfl⟩

/-- A voter with votes on record is not counted. -/
theorem countVote_eq_ok {record : VoteRecord} (hvotes : record.votes ≠ 0)
    (hstored : env.store.voteRecords record.proposalId record.voter = some record)
    (h : countVote env record.voter record.proposalId record.votes record.cost p = .ok p') :
    p' = p.add record := by
  have hcurrent : getProposalVotes env record.proposalId record.voter = record.votes := by
    simp [getProposalVotes, hstored]
  simp only [countVote, hcurrent, if_neg hvotes, bind_eq_ok, orTrap_eq_ok,
    U128.checkedAdd_eq_some, pure_eq_ok] at h
  obtain ⟨_, ⟨-, rfl⟩, _, ⟨-, rfl⟩, _, rfl, rfl⟩ := h
  rfl

theorem allocateGrant_sameTallies {totalWeight : Nat}
    {state state' : Env × List GrantAllocation}
    (h : allocateGrant totalWeight state p = .ok state') :
    SameTallies state.1.store state'.1.store := by
  unfold allocateGrant at h
  split_ifs at h with hzero
  · cases pure_eq_ok.mp h
    exact ⟨rfl, rfl⟩
  · simp only [bind_eq_ok, pure_eq_ok] at h
    obtain ⟨_, -, _, -, env', hupdate, rfl⟩ := h
    obtain ⟨q, q', hfind, hq, hstore⟩ := updateProposal_eq_ok hupdate
    cases pure_eq_ok.mp hq
    dsimp only
    rw [hstore]
    exact ⟨KeyedList.map_set_of_find? hfind rfl rfl, rfl⟩

theorem foldlM_allocateGrant_sameTallies {totalWeight : Nat} {proposals : List Proposal}
    {state state' : Env × List GrantAllocation}
    (h : proposals.foldlM (allocateGrant totalWeight) state = .ok state') :
    SameTallies state.1.store state'.1.store := by
  induction proposals generalizing state with
  | nil =>
      cases pure_eq_ok.mp h
      exact ⟨rfl, rfl⟩
  | cons p proposals ih =>
      rw [List.foldlM_cons] at h
      obtain ⟨middle, hround, h⟩ := bind_eq_ok.mp h
      have hfirst := allocateGrant_sameTallies hround
      have hrest := ih h
      exact ⟨hrest.proposals.trans hfirst.proposals, hrest.voteRecords.trans hfirst.voteRecords⟩

/-- **Inversion** of a call that goes through. -/
theorem exec_effect (h : call.exec env = .ok env') : Effect env call env'.store := by
  cases call with
  | initializeVoting admin votingToken =>
      simp only [Call.exec, initializeVoting, bind_eq_ok, pure_eq_ok] at h
      obtain ⟨_, -, rfl⟩ := h
      exact .configured _
  | createProposal proposer grantAmount description =>
      simp only [Call.exec, createProposal, map_eq_ok, bind_eq_ok, pure_eq_ok] at h
      obtain ⟨_, ⟨_, -, config, -, nextId, hid, deadline, -, rfl⟩, rfl⟩ := h
      exact .created _ (getNextProposalId_gt hid) rfl rfl rfl
  | castVote voter proposalId votes =>
      simp only [Call.exec, castVote, bind_eq_ok, ensure_eq_ok] at h
      obtain ⟨_, hvotes, config, -, proposal, -, _, -, _, -, _, -, cost, -, required, -, _, -,
        _, hnew, totalSpent, -, h⟩ := h
      let record : VoteRecord := { voter, proposalId, votes, cost, timestamp := env.timestamp }
      obtain ⟨p, p', hfind, hcount, hstore⟩ := updateProposal_eq_ok h
      have hcount : countVote _ record.voter record.proposalId record.votes record.cost p =
          .ok p' := hcount
      have hadd : p' = p.add record := countVote_eq_ok hvotes (by simp [record]) hcount
      rw [hstore, hadd]
      exact .voted p record _ hfind hvotes hnew
  | allocateGrants admin =>
      simp only [Call.exec, allocateGrants, map_eq_ok, bind_eq_ok] at h
      obtain ⟨_, ⟨_, -, h⟩, rfl⟩ := h
      split_ifs at h with hnone
      · cases pure_eq_ok.mp h
        exact .allocated _ ⟨rfl, rfl⟩
      · obtain ⟨totalWeight, -, h⟩ := bind_eq_ok.mp h
        exact .allocated _ (foldlM_allocateGrant_sameTallies h)

/-! ### The tallies -/

/-- The votes and costs of the records add up to what the proposal says; nobody is counted. -/
structure Proposal.Tallied (p : Proposal) (records : Address → Option VoteRecord) : Prop where
  votes : p.votesReceived = PartialMap.total records VoteRecord.votes
  cost : p.totalCost = PartialMap.total records VoteRecord.cost
  voters : p.uniqueVoters = 0

theorem pending_tallied {records : Address → Option VoteRecord} :
    p.pending.Tallied records ↔ p.Tallied records :=
  ⟨fun h => ⟨h.votes, h.cost, h.voters⟩, fun h => ⟨h.votes, h.cost, h.voters⟩⟩

/-- What is stored of all proposals. -/
structure Tallied (store : Store) : Prop where
  nodup : ((getProposals store).map Proposal.id).Nodup
  finite : ∀ id, (PartialMap.keys (store.voteRecords id)).Finite
  unknown : ∀ id, id ∉ (getProposals store).map Proposal.id →
    PartialMap.keys (store.voteRecords id) = ∅
  tallied : ∀ p ∈ getProposals store, p.Tallied (store.voteRecords p.id)

theorem SameTallies.map_id {store : Store} (h : SameTallies store store') :
    (getProposals store').map Proposal.id = (getProposals store).map Proposal.id := by
  have hids := congrArg (List.map Proposal.id) h.proposals
  simpa only [List.map_map, Function.comp_def, pending_id] using hids

/-- The same tallies are those of the same proposals. -/
theorem SameTallies.exists_mem {store : Store} (h : SameTallies store store')
    (hp : p ∈ getProposals store') : ∃ q ∈ getProposals store, q.pending = p.pending := by
  have hmem : p.pending ∈ (getProposals store').map Proposal.pending := List.mem_map_of_mem hp
  rw [h.proposals] at hmem
  exact List.mem_map.mp hmem

theorem Tallied.of_same {store : Store} (h : Tallied store) (hsame : SameTallies store store') :
    Tallied store' := by
  refine ⟨hsame.map_id ▸ h.nodup, hsame.voteRecords ▸ h.finite, ?_, fun p hp => ?_⟩
  · rw [hsame.map_id, hsame.voteRecords]
    exact h.unknown
  · obtain ⟨q, hq, heq⟩ := hsame.exists_mem hp
    have hid : q.id = p.id := by simpa only [pending_id] using congrArg Proposal.id heq
    rw [← pending_tallied, ← heq, pending_tallied, hsame.voteRecords, ← hid]
    exact h.tallied q hq

/-- A new proposal has no votes. -/
theorem Tallied.created (h : Tallied env.store)
    (hid : ∀ q ∈ getProposals env.store, q.id < p.id) (hvotes : p.votesReceived = 0)
    (hcost : p.totalCost = 0) (hvoters : p.uniqueVoters = 0) :
    Tallied { env.store with proposals := some (getProposals env.store ++ [p]) } := by
  have hnew : p.id ∉ (getProposals env.store).map Proposal.id := by
    intro hmem
    obtain ⟨q, hq, heq⟩ := List.mem_map.mp hmem
    exact absurd (hid q hq) (by omega)
  have hnone := h.unknown p.id hnew
  refine ⟨?_, h.finite, fun id hunknown => h.unknown id fun hmem => hunknown ?_, fun q hq => ?_⟩
  · simp only [getProposals, Option.getD_some, List.map_append, List.map_cons, List.map_nil]
    exact List.nodup_append_comm.mp (List.nodup_cons.mpr ⟨hnew, h.nodup⟩)
  · simp only [getProposals, Option.getD_some, List.map_append]
    exact List.mem_append_left _ hmem
  · simp only [getProposals, Option.getD_some, List.mem_append, List.mem_singleton] at hq
    rcases hq with hq | rfl
    · exact h.tallied q hq
    · exact ⟨hvotes.trans (PartialMap.total_of_keys_empty hnone _).symm,
        hcost.trans (PartialMap.total_of_keys_empty hnone _).symm, hvoters⟩

/-- A vote changes its proposal, and only that. -/
theorem Tallied.voted {record : VoteRecord} {spent : Address → Option Nat}
    (h : Tallied env.store)
    (hfind : (getProposals env.store).find? (fun q => q.id = record.proposalId) = some p)
    (hnew : env.store.voteRecords record.proposalId record.voter = none) :
    Tallied { env.store with
      proposals := some (KeyedList.set Proposal.id (p.add record) (getProposals env.store))
      voteRecords := Function.update env.store.voteRecords record.proposalId
        (Function.update (env.store.voteRecords record.proposalId) record.voter (some record))
      spent } := by
  obtain ⟨hp, hid⟩ := KeyedList.find?_eq_some hfind
  have hset := KeyedList.set_eq_map_of_find? h.nodup (Proposal.add · record) (fun _ => rfl) hfind
  have hfinite := h.finite record.proposalId
  refine ⟨?_, fun id => ?_, fun id hunknown => ?_, fun q hq => ?_⟩
  · simp only [getProposals, Option.getD_some, KeyedList.map_key_set]
    exact h.nodup
  · by_cases hsame : id = record.proposalId
    · subst hsame
      simp only [Function.update_self]
      exact PartialMap.keys_update_finite hfinite _ _
    · simp only [Function.update_of_ne hsame]
      exact h.finite id
  · simp only [getProposals, Option.getD_some, KeyedList.map_key_set] at hunknown
    have hsame : id ≠ record.proposalId := by
      rintro rfl
      exact hunknown (hid ▸ List.mem_map_of_mem hp)
    simp only [Function.update_of_ne hsame]
    exact h.unknown id hunknown
  · simp only [getProposals, Option.getD_some] at hq
    rw [show (env.store.proposals.getD []) = getProposals env.store from rfl, hset] at hq
    obtain ⟨r, hr, rfl⟩ := List.mem_map.mp hq
    have htallied := h.tallied r hr
    split_ifs with hkey
    · have hid : (r.add record).id = record.proposalId := hkey
      simp only [hid, Function.update_self]
      rw [hkey] at htallied
      refine ⟨?_, ?_, htallied.voters⟩
      · rw [PartialMap.total_update_of_none hfinite hnew, ← htallied.votes]
        exact Nat.add_comm _ _
      · rw [PartialMap.total_update_of_none hfinite hnew, ← htallied.cost]
        exact Nat.add_comm _ _
    · simp only [Function.update_of_ne hkey]
      exact htallied

/-- **Step lemma**, by cases on the call. -/
theorem Effect.tallied (h : Effect env call store') (htallied : Tallied env.store) :
    Tallied store' := by
  cases h with
  | configured config =>
      exact ⟨htallied.nodup, htallied.finite, htallied.unknown, htallied.tallied⟩
  | created p hid hvotes hcost hvoters => exact htallied.created hid hvotes hcost hvoters
  | voted p record spent hfind hvotes hnew => exact htallied.voted hfind hnew
  | allocated store' hsame => exact htallied.of_same hsame

theorem tallied_of_reachable (h : Ledger.Reachable contract trace env) : Tallied env.store := by
  refine Ledger.store_invariant (I := Tallied) ⟨?_, ?_, ?_, ?_⟩
    (fun hexec _ htallied => (exec_effect hexec).tallied htallied) h
  · exact List.nodup_nil
  · intro id
    simp [contract, PartialMap.keys]
  · intro id _
    simp [contract, PartialMap.keys]
  · intro p hp
    cases hp

/-! ### The votes of the history -/

/-- A vote for the proposal that the step takes in: the voter and the votes. -/
def ballot (id : Nat) (e : Step) : Option (Address × Nat) :=
  match Ledger.called contract e with
  | some (.castVote voter proposalId votes) => if proposalId = id then some (voter, votes) else none
  | _ => none

/-- The accepted votes for the proposal, newest first. -/
def ballots (id : Nat) (trace : Trace) : List (Address × Nat) := trace.filterMap (ballot id)

/-- The records of a proposal are its accepted votes, and no voter has two of them. -/
structure RecordLog (id : Nat) (trace : Trace) (records : Address → Option VoteRecord) : Prop where
  nodup : ((ballots id trace).map Prod.fst).Nodup
  recorded : ∀ voter, voter ∈ (ballots id trace).map Prod.fst ↔ records voter ≠ none
  own : ∀ voter record, records voter = some record →
    record.voter = voter ∧ record.proposalId = id ∧ (voter, record.votes) ∈ ballots id trace

theorem ballots_cons_none (h : ballot id e = none) (older : Trace) :
    ballots id (e :: older) = ballots id older := List.filterMap_cons_none h

theorem ballots_cons_some {b : Address × Nat} (h : ballot id e = some b) (older : Trace) :
    ballots id (e :: older) = b :: ballots id older := List.filterMap_cons_some h

theorem RecordLog.voted {records : Address → Option VoteRecord} {record : VoteRecord}
    (h : RecordLog id older records) (hid : record.proposalId = id)
    (hnew : records record.voter = none)
    (hballot : ballot id e = some (record.voter, record.votes)) :
    RecordLog id (e :: older) (Function.update records record.voter (some record)) := by
  have hballots := ballots_cons_some hballot older
  refine ⟨?_, fun voter => ?_, fun voter record' hstored => ?_⟩
  · rw [hballots, List.map_cons, List.nodup_cons, h.recorded]
    exact ⟨fun hstored => hstored hnew, h.nodup⟩
  · rw [hballots, List.map_cons, List.mem_cons]
    by_cases hvoter : voter = record.voter
    · simp [hvoter]
    · simpa [hvoter] using h.recorded voter
  · rw [hballots, List.mem_cons]
    rcases PartialMap.update_eq_some.mp hstored with ⟨rfl, rfl⟩ | ⟨-, hstored⟩
    · exact ⟨rfl, hid, .inl rfl⟩
    · obtain ⟨hvoter, hproposal, hmem⟩ := h.own voter record' hstored
      exact ⟨hvoter, hproposal, .inr hmem⟩

theorem Effect.records (h : Effect env call store') :
    store'.voteRecords = env.store.voteRecords ∧ (∀ voter id votes, call ≠ .castVote voter id votes) ∨
      ∃ record : VoteRecord, call = .castVote record.voter record.proposalId record.votes ∧
        env.store.voteRecords record.proposalId record.voter = none ∧
        store'.voteRecords = Function.update env.store.voteRecords record.proposalId
          (Function.update (env.store.voteRecords record.proposalId) record.voter
            (some record)) := by
  cases h with
  | configured | created => exact .inl ⟨rfl, by simp⟩
  | voted p record spent hfind hvotes hnew => exact .inr ⟨record, rfl, hnew, rfl⟩
  | allocated store' hsame => exact .inl ⟨hsame.voteRecords, by simp⟩

theorem recordLog_of_reachable (h : Ledger.Reachable contract trace env) (id : Nat) :
    RecordLog id trace (env.store.voteRecords id) := by
  refine Run.event_induction (f := fun env => env.store.voteRecords id) (I := RecordLog id)
    (E := fun e => (ballot id e = none ∧
      e.after.store.voteRecords id = e.before.store.voteRecords id) ∨
        ∃ record : VoteRecord, record.proposalId = id ∧
          e.before.store.voteRecords id record.voter = none ∧
          ballot id e = some (record.voter, record.votes) ∧
          e.after.store.voteRecords id =
            Function.update (e.before.store.voteRecords id) record.voter (some record))
    ?_ ?_ ?_ h
  · intro older e _ hn
    rcases Ledger.effect_of_next (E := Effect (e.before.enter e.action)) hn
      fun _ hexec => exec_effect hexec with ⟨hnone, hstore⟩ | ⟨call, hcalled, heffect⟩
    · exact .inl ⟨by simp [ballot, hnone], by rw [hstore]⟩
    · rcases heffect.records with ⟨hsame, hother⟩ | ⟨record, rfl, hnew, hrecords⟩
      · refine .inl ⟨?_, congrFun hsame id⟩
        unfold ballot
        rw [hcalled]
        cases call with
        | castVote voter proposalId votes => exact absurd rfl (hother voter proposalId votes)
        | initializeVoting | createProposal | allocateGrants => rfl
      · by_cases hid : record.proposalId = id
        · subst hid
          refine .inr ⟨record, rfl, hnew, by simp [ballot, hcalled], ?_⟩
          rw [hrecords, Function.update_self]
          rfl
        · refine .inl ⟨by simp [ballot, hcalled, hid], ?_⟩
          rw [hrecords, Function.update_of_ne (Ne.symm hid)]
          rfl
  · rintro _ ⟨self, tokens, rfl⟩
    exact ⟨List.nodup_nil, fun voter => by simp [ballots, Ledger.Env.deployed, contract],
      fun voter record hstored => by cases hstored⟩
  · intro older e _ hlog hevent
    rcases hevent with ⟨hnone, hsame⟩ | ⟨record, hid, hnew, hballot, hsame⟩
    · rw [hsame]
      exact ⟨by rw [ballots_cons_none hnone]; exact hlog.nodup,
        by rw [ballots_cons_none hnone]; exact hlog.recorded,
        by rw [ballots_cons_none hnone]; exact hlog.own⟩
    · rw [hsame]
      exact hlog.voted hid hnew hballot

/-- So many voters have a record as votes were accepted. -/
theorem RecordLog.ncard {records : Address → Option VoteRecord} (h : RecordLog id trace records) :
    (PartialMap.keys records).ncard = (ballots id trace).length := by
  have hkeys : PartialMap.keys records = ↑((ballots id trace).map Prod.fst).toFinset := by
    ext voter
    rw [List.coe_toFinset]
    exact (h.recorded voter).symm
  rw [hkeys, Set.ncard_coe_finset, List.toFinset_card_of_nodup h.nodup, List.length_map]

/-! ### The whole run -/

/-- The tallies of a proposal are those of its records, and each voter has one record at most,
which is the one vote that was accepted. -/
structure VotesTallied (trace : Trace) (store : Store) (p : Proposal) : Prop where
  votes : p.votesReceived = PartialMap.total (store.voteRecords p.id) VoteRecord.votes
  cost : p.totalCost = PartialMap.total (store.voteRecords p.id) VoteRecord.cost
  finite : (PartialMap.keys (store.voteRecords p.id)).Finite
  records : RecordLog p.id trace (store.voteRecords p.id)

/-- The voters of a proposal are counted. -/
def VotersCounted (store : Store) (p : Proposal) : Prop :=
  p.uniqueVoters = (PartialMap.keys (store.voteRecords p.id)).ncard

/-- **Quadratic voting tallies.** In every run, the votes and costs of every proposal add up. The
number of its voters is right exactly as long as nobody has voted on it. -/
theorem votes_tallied (h : Ledger.Reachable contract trace env) (hp : p ∈ getProposals env.store) :
    VotesTallied trace env.store p ∧
      (VotesTallied trace env.store p ∧ VotersCounted env.store p ↔ ballots p.id trace = []) := by
  have htallied := tallied_of_reachable h
  have hrecords := recordLog_of_reachable h p.id
  obtain ⟨hvotes, hcost, hvoters⟩ := htallied.tallied p hp
  have hall : VotesTallied trace env.store p := ⟨hvotes, hcost, htallied.finite p.id, hrecords⟩
  refine ⟨hall, ?_⟩
  rw [and_iff_right hall, VotersCounted, hvoters, hrecords.ncard, eq_comm, List.length_eq_zero_iff]

/-- A vote that is taken in. -/
def Demo.voted : List (Ledger.Event Address Call) :=
  [Demo.call 0 (.initializeVoting Demo.admin Demo.token),
    Demo.call 1 (.createProposal Demo.admin 100 "well"),
    Demo.call 2 (.castVote Demo.voter 1 3)]

/-- Before the vote nobody has voted, and nobody is counted. -/
theorem votes_tallied_before_vote :
    let run := Ledger.history contract Demo.env (Demo.voted.take 2)
    (getProposals run.2.store).map Proposal.id = [1] ∧
      ∀ p ∈ getProposals run.2.store, VotesTallied run.1 run.2.store p ∧
        VotersCounted run.2.store p := by
  intro run
  have hrun : Ledger.Reachable contract run.1 run.2 :=
    Ledger.history_reachable contract ⟨_, _, rfl⟩ (by decide)
  have hids : ∀ p ∈ getProposals run.2.store, p.id = 1 := by decide
  refine ⟨by decide, fun p hp => (votes_tallied hrun hp).2.mpr ?_⟩
  rw [hids p hp]
  decide

/-- After it there is one voter, and still nobody is counted. -/
theorem votes_tallied_uncounted :
    ¬∀ trace env, Ledger.Reachable contract trace env → ∀ p ∈ getProposals env.store,
      VotersCounted env.store p := by
  intro h
  let run := Ledger.history contract Demo.env Demo.voted
  have hrun : Ledger.Reachable contract run.1 run.2 :=
    Ledger.history_reachable contract ⟨_, _, rfl⟩ (by decide)
  obtain ⟨p, hp, hid, hvoters⟩ :
      ∃ p ∈ getProposals run.2.store, p.id = 1 ∧ p.uniqueVoters = 0 := by decide
  have hcounted : p.uniqueVoters = _ := h run.1 run.2 hrun p hp
  have hone : ballots 1 run.1 = [(Demo.voter, 3)] := by decide
  rw [hid, (recordLog_of_reachable hrun 1).ncard, hone, hvoters] at hcounted
  cases hcounted

end YieldTrust.QuadraticVoting
