import YieldTrust.GrantGovernance.Contract
import YieldTrust.Lib.PartialMap

/-!
# YieldTrust.GrantGovernance.Transitions

What one call **does** to the proposals, the votes and the stakes. No call leaves a rejected
proposal behind: the rejection is dropped with the error.
-/

namespace YieldTrust.GrantGovernance

open Fallible
open GrantStream (Address Bytes)

variable {env env' : Env} {call : Call} {store store' : Store} {proposal proposal' : Proposal}
  {moved : List (TokenLedger.Transfer Address)}

/-! ### What a call does -/

/-- The identifier of the next proposal. -/
def freshId (proposalIds : List Nat) : Nat := proposalIds.getLast?.elim 0 (· + 1)

/-- The storage with another proposal under its identifier. -/
def Store.withProposal (store : Store) (proposal : Proposal) : Store :=
  { store with proposals := Function.update store.proposals proposal.id (some proposal) }

/-- How many votes the proposal needs. -/
def Store.required (store : Store) (proposal : Proposal) : Int :=
  match proposal.proposalType with
  | .setManualExchangeRate _ => (proposal.totalVotingPower * 90).tdiv 100
  | .general => store.votingThreshold.getD 0

/-- The proposal meets the quorum and its threshold. -/
def Store.Meets (store : Store) (proposal : Proposal) : Prop :=
  store.quorumThreshold.getD 0 ≤ proposal.totalVotingPower ∧
    proposal.yesVotes + proposal.noVotes ≠ 0 ∧ store.required proposal ≤ proposal.yesVotes

instance (store : Store) (proposal : Proposal) : Decidable (store.Meets proposal) :=
  inferInstanceAs (Decidable (_ ∧ _ ∧ _))

/-- The voting period of a proposal that the call opens for votes. -/
def Call.votingPeriod : Call → Option Nat
  | .createProposal _ _ _ votingPeriod
  | .createSetManualExchangeRateProposal _ _ votingPeriod => some votingPeriod
  | _ => none

def Call.creates : Call → Bool
  | .createProposal .. | .proposeOptimisticGrant ..
  | .createSetManualExchangeRateProposal .. => true
  | _ => false

/-- The proposal whose stake the call pays out. -/
def Call.released : Call → Option Nat
  | .refundStake proposalId | .slashStake _ _ proposalId => some proposalId
  | _ => none

/-- A proposal right after its creation. -/
structure Proposal.New (proposal : Proposal) (now : Nat) (call : Call) : Prop where
  yesVotes : proposal.yesVotes = 0
  noVotes : proposal.noVotes = 0
  totalVotingPower : proposal.totalVotingPower = 0
  stakeReturned : proposal.stakeReturned = false
  deadline : proposal.status = .active → ∃ votingPeriod, call.votingPeriod = some votingPeriod ∧
    proposal.votingDeadline = now + votingPeriod
  opened : call.votingPeriod ≠ none → proposal.status = .active

/-- What a payment of the stake moves. -/
def stakeMoves (token self target : Address) (stakeAmount : Int) :
    List (TokenLedger.Transfer Address) :=
  if 0 < stakeAmount then [⟨token, self, target, stakeAmount⟩] else []

inductive Effect (env : Env) : Call → Store → List (TokenLedger.Transfer Address) → Prop
  | initialized {governanceToken : Address} {votingThreshold quorumThreshold : Int}
      {stakeToken : Address} {proposalStakeAmount : Int} (store' : Store)
      (hnone : env.store.governanceToken = none) :
      Effect env (.initializeGovernance governanceToken votingThreshold quorumThreshold stakeToken
        proposalStakeAmount) store' []
  | appointed (caller : Address) (members : List Address) (councilMembers : List Bytes) :
      Effect env (.setCouncilMembers caller members)
        { env.store with councilMembers := some councilMembers } []
  | created (call : Call) (proposal : Proposal) (proposalIds : List Nat) (token : Address)
      (hcreates : call.creates = true) (hids : env.store.proposalIds = some proposalIds)
      (hid : proposal.id = freshId proposalIds) (hnew : proposal.New env.timestamp call)
      (htoken : env.store.stakeToken = some token) :
      Effect env call
        { env.store.withProposal proposal with proposalIds := some (proposalIds ++ [proposal.id]) }
        [⟨token, proposal.proposer, env.self, proposal.stakeAmount⟩]
  | challenged (challenger : Address) (proposalId : Nat) (proposal : Proposal) (token : Address)
      (bond : Int) (hfind : env.store.proposals proposalId = some proposal)
      (hstatus : proposal.status = .optimistic) :
      Effect env (.challengeOptimisticGrant challenger proposalId)
        (env.store.withProposal { proposal with status := .challenged })
        [⟨token, challenger, env.self, bond⟩]
  | voted (voter : Address) (proposalId : Nat) (weight votingPower : Int) (proposal : Proposal)
      (vote : Vote) (record : VotingPower)
      (hfind : env.store.proposals proposalId = some proposal)
      (hopen : env.timestamp < proposal.votingDeadline) (hstatus : proposal.status = .active)
      (hpower : (Prod.snd <$> calculateVotingPower env voter) = .ok votingPower) :
      Effect env (.quadraticVote voter proposalId weight)
        { env.store.withProposal { proposal with
            yesVotes := proposal.yesVotes + weight * weight
            totalVotingPower := proposal.totalVotingPower + votingPower } with
          votes := Function.update env.store.votes voter
            (Function.update (env.store.votes voter) proposalId (some vote))
          votingPower := Function.update env.store.votingPower voter (some record) } []
  | measured (voter : Address) (record : VotingPower) :
      Effect env (.getVoterPower voter) { env.store with
        votingPower := Function.update env.store.votingPower voter (some record) } []
  | executed (caller : Address) (proposalId : Nat) (proposal : Proposal) (manRate : Option Int)
      (oraFrozenDueToNoHeartbeat : Option Bool)
      (hfind : env.store.proposals proposalId = some proposal)
      (hover : proposal.votingDeadline ≤ env.timestamp) (hstatus : proposal.status = .active)
      (hmeets : env.store.Meets proposal) :
      Effect env (.executeProposal caller proposalId)
        { env.store.withProposal { proposal with status := .executed } with
          manRate, oraFrozenDueToNoHeartbeat } []
  | released (call : Call) (proposalId : Nat) (proposal : Proposal) (token target : Address)
      (hcall : call.released = some proposalId)
      (hfind : env.store.proposals proposalId = some proposal)
      (hkept : proposal.stakeReturned = false)
      (htoken : 0 < proposal.stakeAmount → env.store.stakeToken = some token) :
      Effect env call (env.store.withProposal { proposal with stakeReturned := true })
        (stakeMoves token env.self target proposal.stakeAmount)

theorem transfer_log {token source target : Address} {amount : Int}
    (h : (env.transfer token source target amount : Res Env) = .ok env') :
    env'.tokens.log = ⟨token, source, target, amount⟩ :: env.tokens.log ∧
      env'.store = env.store ∧ env'.timestamp = env.timestamp ∧ env'.self = env.self := by
  obtain ⟨tokens, htransfer, rfl⟩ := Ledger.Env.transfer_eq_ok.mp h
  obtain ⟨-, rfl⟩ := TokenLedger.transfer_eq_some.mp htransfer
  exact ⟨rfl, rfl, rfl, rfl⟩

theorem nextId_eq_ok {proposalIds : List Nat} {increment : Nat → Res Nat} {id : Nat}
    (hincrement : ∀ last id, increment last = .ok id → id = last + 1)
    (h : nextId proposalIds increment = .ok id) : id = freshId proposalIds := by
  unfold nextId at h
  unfold freshId
  cases hlast : proposalIds.getLast? with
  | none =>
      rw [hlast] at h
      exact (pure_eq_ok.mp h).symm
  | some last =>
      rw [hlast] at h
      exact hincrement last id h

theorem payStake_log {target : Address} {stakeAmount : Int}
    (h : payStake env target stakeAmount = .ok env') : ∃ token,
      env'.tokens.log = stakeMoves token env.self target stakeAmount ++ env.tokens.log ∧
      env'.store = env.store ∧ (0 < stakeAmount → env.store.stakeToken = some token) := by
  unfold payStake at h
  unfold stakeMoves
  split at h
  · case isTrue hpos =>
    simp only [getStakeToken, bind_eq_ok, okOr_eq_ok] at h
    obtain ⟨token, htoken, h⟩ := h
    obtain ⟨hlog, hstore, -⟩ := transfer_log h
    exact ⟨token, by simpa [hpos] using hlog, hstore, fun _ => htoken⟩
  · case isFalse hpos =>
    cases pure_eq_ok.mp h
    exact ⟨env.self, by simp [hpos], rfl, fun hlt => absurd hlt hpos⟩

/-- The conviction of a vote is its weight: what was there was set to zero before. -/
theorem currentConviction_fresh {record : VotingPower} (h : record.conviction = 0)
    (alpha weight : Int) : currentConviction record alpha weight = weight := by
  unfold currentConviction
  have hzero : I128.checkedMul 0 alpha = some 0 := by
    rw [I128.checkedMul_eq_some, Int.zero_mul]
    exact ⟨I128.inRange_zero, rfl⟩
  rw [h, hzero]
  simp only [Option.getD_some, Int.zero_tdiv, I128.checkedAdd, I128.check, Int.zero_add]
  split <;> rfl

theorem calculateVotingPower_eq_ok {address : Address} {votingPower : Int}
    (h : calculateVotingPower env address = .ok (env', votingPower)) :
    ∃ record : VotingPower, record.conviction = 0 ∧ env' = { env with store := { env.store with
      votingPower := Function.update env.store.votingPower address (some record) } } := by
  simp only [calculateVotingPower, bind_eq_ok, pure_eq_ok, Prod.mk.injEq] at h
  obtain ⟨_, -, _, -, rfl, -⟩ := h
  exact ⟨_, rfl, rfl⟩

theorem takeStake_eq_ok {proposer : Address} {stakeAmount : Int}
    (h : takeStake env proposer = .ok (env', stakeAmount)) :
    ∃ token, env.store.stakeToken = some token ∧
      env'.tokens.log = ⟨token, proposer, env.self, stakeAmount⟩ :: env.tokens.log ∧
      env'.store = env.store ∧ env'.timestamp = env.timestamp := by
  simp only [takeStake, getStakeToken, getProposalStakeAmount, bind_eq_ok, okOr_eq_ok, pure_eq_ok,
    Prod.mk.injEq] at h
  obtain ⟨token, htoken, _, -, _, htransfer, rfl, rfl⟩ := h
  obtain ⟨hlog, hstore, htime, -⟩ := transfer_log htransfer
  exact ⟨token, htoken, hlog, hstore, htime⟩

/-- What a call that goes through leaves, and what it adds to the log of the transfers. -/
def Leaves (env : Env) (call : Call) (env' : Env) : Prop :=
  ∃ moved, env'.tokens.log = moved ++ env.tokens.log ∧ Effect env call env'.store moved

/-- A creation, after the stake is taken. -/
theorem leaves_addProposal {stakeToken : Address} {staked : Env} {proposalIds : List Nat}
    {increment : Nat → Res Nat} (hcreates : call.creates = true)
    (htoken : env.store.stakeToken = some stakeToken)
    (hlog : staked.tokens.log =
      ⟨stakeToken, proposal.proposer, env.self, proposal.stakeAmount⟩ :: env.tokens.log)
    (hstore : staked.store = env.store) (hids : getProposalIds staked = .ok proposalIds)
    (hincrement : ∀ last id, increment last = .ok id → id = last + 1)
    (hid : nextId proposalIds increment = .ok proposal.id)
    (hnew : proposal.New env.timestamp call) :
    Leaves env call (addProposal staked proposalIds proposal) := by
  have hfound := okOr_eq_ok.mp hids
  rw [hstore] at hfound
  refine ⟨[_], hlog, ?_⟩
  have heffect := Effect.created call proposal proposalIds stakeToken hcreates hfound
    (nextId_eq_ok hincrement hid) hnew htoken
  simpa [addProposal, setProposal, hstore, Store.withProposal] using heffect

theorem checkedAdd_one {e : GovernanceError} (last id : Nat)
    (h : okOr (U64.checkedAdd last 1) e = .ok id ∨
      (orTrap (U64.checkedAdd last 1) : Res Nat) = .ok id) : id = last + 1 := by
  simp only [okOr_eq_ok, orTrap_eq_ok, or_self, U64.checkedAdd_eq_some] at h
  exact h.2.symm

theorem quadraticVote_leaves {voter : Address} {proposalId : Nat} {weight : Int}
    (h : quadraticVote env voter proposalId weight = .ok env') :
    Leaves env (.quadraticVote voter proposalId weight) env' := by
  simp only [quadraticVote, getProposal, bind_eq_ok, ensure_eq_ok, okOr_eq_ok, pure_eq_ok,
    I128.checkedMul_eq_some, I128.checkedAdd_eq_some] at h
  obtain ⟨_, -, _, -, proposal, hfind, _, hopen, _, hstatus, ⟨measured, votingPower⟩, hpower, _,
    ⟨-, rfl⟩, _, ⟨-, rfl⟩, _, ⟨-, rfl⟩, rfl⟩ := h
  obtain ⟨record, hzero, rfl⟩ := calculateVotingPower_eq_ok hpower
  simp only [Function.update_self, Option.getD_some, currentConviction_fresh hzero,
    Function.update_idem]
  refine ⟨[], rfl, ?_⟩
  exact .voted voter proposalId weight votingPower proposal _ _ hfind hopen hstatus
    (map_eq_ok.mpr ⟨_, hpower, rfl⟩)

theorem requiredThreshold_eq_ok {threshold required : Int}
    (hthreshold : store.votingThreshold = some threshold)
    (h : requiredThreshold proposal threshold = .ok required) :
    store.required proposal = required := by
  cases htype : proposal.proposalType with
  | setManualExchangeRate rate =>
      simp only [requiredThreshold, htype, bind_eq_ok, orTrap_eq_ok, I128.checkedMul_eq_some,
        pure_eq_ok] at h
      obtain ⟨_, ⟨-, rfl⟩, rfl⟩ := h
      simp only [Store.required, htype]
  | general =>
      simp only [requiredThreshold, htype, pure_eq_ok] at h
      simp only [Store.required, htype, hthreshold, Option.getD_some]
      exact h

theorem executeProposal_leaves {caller : Address} {proposalId : Nat}
    (h : executeProposal env caller proposalId = .ok env') :
    Leaves env (.executeProposal caller proposalId) env' := by
  simp only [executeProposal, getProposal, getQuorumThreshold, getVotingThreshold, bind_eq_ok,
    ensure_eq_ok, okOr_eq_ok] at h
  obtain ⟨_, -, proposal, hfind, _, hover, _, hstatus, quorum, hquorum, threshold, hthreshold,
    h⟩ := h
  split at h
  · exact absurd h fail_ne_ok
  · case isFalse hreached =>
    obtain ⟨required, hrequired, h⟩ := bind_eq_ok.mp h
    split at h
    · exact absurd h fail_ne_ok
    · case isFalse hcarried =>
      obtain ⟨hvotes, hyes⟩ := not_or.mp hcarried
      have hmeets : env.store.Meets proposal := by
        refine ⟨by simpa [hquorum] using hreached, fun hzero => hvotes ?_, ?_⟩
        · simp [I128.checkedAdd, hzero, I128.check, I128.inRange_zero]
        · rw [requiredThreshold_eq_ok hthreshold hrequired]
          exact Int.not_lt.mp hyes
      refine ⟨[], ?_, ?_⟩
      · rw [← pure_eq_ok.mp h]
        unfold perform
        split <;> rfl
      · rw [← pure_eq_ok.mp h]
        unfold perform
        split
        · exact .executed caller proposalId proposal _ _ hfind hover hstatus hmeets
        · exact .executed caller proposalId proposal env.store.manRate
            env.store.oraFrozenDueToNoHeartbeat hfind hover hstatus hmeets

/-- **Inversion** of a call that goes through. -/
theorem exec_leaves (h : call.exec env = .ok env') : Leaves env call env' := by
  cases call with
  | initializeGovernance governanceToken votingThreshold quorumThreshold stakeToken stakeAmount =>
      simp only [Call.exec, initializeGovernance, bind_eq_ok, ensure_eq_ok, pure_eq_ok] at h
      obtain ⟨_, hnone, rfl⟩ := h
      exact ⟨[], rfl, .initialized _ hnone⟩
  | setCouncilMembers caller members =>
      simp only [Call.exec, setCouncilMembers, bind_eq_ok, pure_eq_ok] at h
      obtain ⟨_, -, rfl⟩ := h
      exact ⟨[], rfl, .appointed caller members _⟩
  | createProposal proposer title description votingPeriod =>
      simp only [Call.exec, createProposal, proposeGrant, map_eq_ok, bind_eq_ok, okOr_eq_ok,
        U64.checkedAdd_eq_some, pure_eq_ok] at h
      obtain ⟨_, ⟨_, -, ⟨staked, amount⟩, hstake, _, ⟨-, rfl⟩, ids, hids, id, hid, rfl⟩, rfl⟩ := h
      obtain ⟨token, htoken, hlog, hstore, htime⟩ := takeStake_eq_ok hstake
      dsimp only at htime ⊢
      refine leaves_addProposal rfl htoken hlog hstore hids
        (fun last id h => checkedAdd_one last id (.inl h)) hid
        ⟨rfl, rfl, rfl, rfl, fun _ => ⟨_, rfl, ?_⟩, fun _ => rfl⟩
      rw [htime]
  | proposeOptimisticGrant proposer title description amount =>
      simp only [Call.exec, proposeOptimisticGrant, map_eq_ok, bind_eq_ok, ensure_eq_ok,
        orTrap_eq_ok, U64.checkedAdd_eq_some, pure_eq_ok] at h
      obtain ⟨_, ⟨_, -, _, -, ⟨staked, amount⟩, hstake, _, ⟨-, rfl⟩, ids, hids, id, hid, rfl⟩,
        rfl⟩ := h
      obtain ⟨token, htoken, hlog, hstore, -⟩ := takeStake_eq_ok hstake
      refine leaves_addProposal rfl htoken hlog hstore hids
        (fun last id h => checkedAdd_one (e := .mathOverflow) last id (.inr h)) hid
        ⟨rfl, rfl, rfl, rfl, fun hactive => ?_, fun hopened => absurd rfl hopened⟩
      cases hactive
  | createSetManualExchangeRateProposal proposer rate votingPeriod =>
      simp only [Call.exec, createSetManualExchangeRateProposal, map_eq_ok, bind_eq_ok,
        okOr_eq_ok, U64.checkedAdd_eq_some, pure_eq_ok] at h
      obtain ⟨_, ⟨_, -, ⟨staked, amount⟩, hstake, _, ⟨-, rfl⟩, ids, hids, id, hid, rfl⟩, rfl⟩ := h
      obtain ⟨token, htoken, hlog, hstore, htime⟩ := takeStake_eq_ok hstake
      dsimp only at htime ⊢
      refine leaves_addProposal rfl htoken hlog hstore hids
        (fun last id h => checkedAdd_one (e := .mathOverflow) last id (.inr h)) hid
        ⟨rfl, rfl, rfl, rfl, fun _ => ⟨_, rfl, ?_⟩, fun _ => rfl⟩
      rw [htime]
  | challengeOptimisticGrant challenger proposalId =>
      simp only [Call.exec, challengeOptimisticGrant, getProposal, getStakeToken, bind_eq_ok,
        ensure_eq_ok, okOr_eq_ok, pure_eq_ok] at h
      obtain ⟨_, -, proposal, hfind, _, ⟨-, hstatus⟩, _, -, token, -, paid, htransfer, rfl⟩ := h
      obtain ⟨hlog, hstore, -⟩ := transfer_log htransfer
      refine ⟨[_], hlog, ?_⟩
      have heffect := Effect.challenged challenger proposalId proposal token
        (env.store.challengeBond.getD 100) hfind hstatus
      simpa [setProposal, hstore, Store.withProposal] using heffect
  | quadraticVote voter proposalId weight => exact quadraticVote_leaves h
  | getVoterPower voter =>
      obtain ⟨⟨measured, power⟩, hpower, rfl⟩ := map_eq_ok.mp h
      obtain ⟨record, -, rfl⟩ := calculateVotingPower_eq_ok hpower
      exact ⟨[], rfl, .measured voter record⟩
  | executeProposal caller proposalId => exact executeProposal_leaves h
  | refundStake proposalId =>
      simp only [Call.exec, refundStake, getProposal, bind_eq_ok, ensure_eq_ok, okOr_eq_ok] at h
      obtain ⟨proposal, hfind, _, -, _, hkept, h⟩ := h
      obtain ⟨token, hlog, hstore, htoken⟩ := payStake_log h
      refine ⟨_, hlog, ?_⟩
      rw [hstore]
      exact .released _ proposalId proposal token proposal.proposer rfl hfind hkept htoken
  | slashStake admin targetTreasury proposalId =>
      simp only [Call.exec, slashStake, getProposal, bind_eq_ok, ensure_eq_ok, okOr_eq_ok] at h
      obtain ⟨_, -, proposal, hfind, _, hkept, h⟩ := h
      obtain ⟨token, hlog, hstore, htoken⟩ := payStake_log h
      refine ⟨_, hlog, ?_⟩
      rw [hstore]
      exact .released _ proposalId proposal token targetTreasury rfl hfind hkept htoken

end YieldTrust.GrantGovernance
