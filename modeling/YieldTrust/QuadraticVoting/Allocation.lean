import YieldTrust.Lib.ProRata
import YieldTrust.QuadraticVoting.Tallies
import YieldTrust.QuadraticVoting.VoteCost

/-!
# YieldTrust.QuadraticVoting.Allocation

How the pool is **shared out**. The proposals that have ended are weighed by the squares of their
votes, and each of them that has votes is decided: it gets its share, rounded down to a thousand
units, and is rejected if that is nothing. Nothing makes a proposal active again, so it is decided
once.
-/

namespace YieldTrust.QuadraticVoting

open Fallible
open GrantStream (Address)

variable {env env' : Env} {call : Call} {admin : Address} {id : Nat} {e : Step}
  {trace older : Trace} {p q : Proposal} {proposals : List Proposal} {totalWeight : Nat}
  {allocations : List GrantAllocation}

/-! ### Shares -/

def Proposal.weight (p : Proposal) : Nat := p.votesReceived * p.votesReceived

/-- What is a thousandth of a millionth of the pool. -/
def grantUnit : Nat := 1000

/-- What the proposal gets. -/
def Proposal.share (totalWeight : Nat) (p : Proposal) : Nat :=
  grantUnit * (p.weight * qvPrecision / totalWeight)

def Proposal.allocation (totalWeight : Nat) (p : Proposal) : GrantAllocation where
  proposalId := p.id
  amount := p.share totalWeight
  votes := p.votesReceived
  uniqueVoters := p.uniqueVoters
  quadraticWeight := p.weight

def Proposal.withStatus (status : ProposalStatus) (p : Proposal) : Proposal := { p with status }

/-- The proposal after its decision. -/
def Proposal.decide (totalWeight : Nat) (p : Proposal) : Proposal :=
  p.withStatus (if 0 < p.share totalWeight then .approved else .rejected)

@[simp] theorem withStatus_id (status : ProposalStatus) : (p.withStatus status).id = p.id := rfl

@[simp] theorem decide_id : (p.decide totalWeight).id = p.id := withStatus_id _

theorem getAvailableGrantPool_eq : getAvailableGrantPool = grantUnit * qvPrecision := rfl

theorem allocatedAmount_eq_ok {weight amount : Nat} (htotal : 0 < totalWeight)
    (h : allocatedAmount weight totalWeight = .ok amount) :
    amount = grantUnit * (weight * qvPrecision / totalWeight) := by
  simp only [allocatedAmount, if_pos htotal, bind_eq_ok, orTrap_eq_ok, U128.checkedMul_eq_some,
    pure_eq_ok] at h
  obtain ⟨_, ⟨-, rfl⟩, _, rfl, _, ⟨-, rfl⟩, rfl⟩ := h
  rw [getAvailableGrantPool_eq, Nat.mul_right_comm, Nat.mul_div_cancel _ qvPrecision_pos]

theorem calculateQuadraticWeight_eq_ok {weight : Nat}
    (h : calculateQuadraticWeight p.votesReceived = .ok weight) : weight = p.weight := by
  obtain ⟨-, rfl⟩ := U128.checkedMul_eq_some.mp (orTrap_eq_ok.mp h)
  rfl

theorem share_le (h : p.weight ≤ totalWeight) : p.share totalWeight ≤ getAvailableGrantPool := by
  rw [getAvailableGrantPool_eq]
  exact Nat.mul_le_mul_left _ (Nat.div_le_of_le_mul (Nat.mul_le_mul_right _ h))

/-- The loop over the weights. -/
theorem foldlM_addWeight {start : Nat} (h : proposals.foldlM addWeight start = .ok totalWeight) :
    totalWeight = start + (proposals.map Proposal.weight).sum := by
  induction proposals generalizing start with
  | nil => simpa using (pure_eq_ok.mp h).symm
  | cons p proposals ih =>
      simp only [List.foldlM_cons, addWeight, bind_eq_ok, orTrap_eq_ok,
        U128.checkedAdd_eq_some] at h
      obtain ⟨_, ⟨weight, hweight, -, rfl⟩, h⟩ := h
      rw [ih h, calculateQuadraticWeight_eq_ok hweight, List.map_cons, List.sum_cons]
      omega

/-! ### The loop over the proposals -/

def Proposal.hasVotes (p : Proposal) : Bool := p.votesReceived ≠ 0

/-- The proposal after the decisions on the proposals with the identifiers. -/
def Proposal.outcome (totalWeight : Nat) (ids : List Nat) (p : Proposal) : Proposal :=
  if p.id ∈ ids ∧ p.hasVotes = true then p.decide totalWeight else p

@[simp] theorem outcome_id (ids : List Nat) : (p.outcome totalWeight ids).id = p.id := by
  unfold Proposal.outcome
  split
  · exact decide_id
  · rfl

theorem outcome_of_ne {ids : List Nat} (h : q.id ≠ p.id ∨ q.hasVotes = false) :
    q.outcome totalWeight (p.id :: ids) = q.outcome totalWeight ids := by
  unfold Proposal.outcome
  rcases h with h | h
  · simp [h]
  · simp [h]

/-- One round: a proposal with votes gets its share, and nothing but its status changes. -/
theorem allocateGrant_eq_ok {ids : List Nat} {state : Env × List GrantAllocation}
    (hnodup : (proposals.map Proposal.id).Nodup) (hp : p ∈ proposals)
    (hbefore : getProposals env.store = proposals.map (Proposal.outcome totalWeight ids))
    (hnew : p.id ∉ ids) (hle : p.weight ≤ totalWeight)
    (h : allocateGrant totalWeight (env, allocations) p = .ok state) :
    getProposals state.1.store = proposals.map (Proposal.outcome totalWeight (p.id :: ids)) ∧
      state.2 =
        allocations ++ ([p].filter Proposal.hasVotes).map (Proposal.allocation totalWeight) := by
  unfold allocateGrant at h
  split_ifs at h with hzero
  · obtain rfl := pure_eq_ok.mp h
    have hvotes : p.hasVotes = false := by simp [Proposal.hasVotes, hzero]
    refine ⟨?_, by simp [hvotes]⟩
    rw [hbefore]
    refine List.map_congr_left fun q hq => (outcome_of_ne ?_).symm
    by_cases hid : q.id = p.id
    · rw [List.inj_on_of_nodup_map hnodup hq hp hid]
      exact .inr hvotes
    · exact .inl hid
  · have hvotes : p.hasVotes = true := by simp [Proposal.hasVotes, hzero]
    have hpos : 0 < p.votesReceived := Nat.pos_of_ne_zero hzero
    have htotal : 0 < totalWeight := (Nat.mul_pos hpos hpos).trans_le hle
    simp only [bind_eq_ok, pure_eq_ok] at h
    obtain ⟨weight, hweight, amount, hamount, env₁, hupdate, rfl⟩ := h
    have hshare : amount = p.share totalWeight := by
      rw [allocatedAmount_eq_ok htotal hamount, calculateQuadraticWeight_eq_ok hweight]
      rfl
    obtain ⟨b, b', hfind, hb, hstore⟩ := updateProposal_eq_ok hupdate
    obtain rfl := pure_eq_ok.mp hb
    have hnodup' : ((getProposals env.store).map Proposal.id).Nodup := by
      rw [hbefore, List.map_map]
      simpa [Function.comp_def] using hnodup
    refine ⟨?_, ?_⟩
    · have hset := KeyedList.set_eq_map_of_find? hnodup'
        (Proposal.withStatus (if 0 < amount then .approved else .rejected))
        (fun _ => rfl) hfind
      dsimp only
      rw [hstore]
      refine hset.trans ?_
      rw [hbefore, List.map_map]
      refine List.map_congr_left fun q hq => ?_
      dsimp only [Function.comp_apply]
      rw [outcome_id]
      by_cases hid : q.id = p.id
      · obtain rfl := List.inj_on_of_nodup_map hnodup hq hp hid
        simp [Proposal.outcome, hnew, hvotes, Proposal.decide, hshare]
      · rw [if_neg hid, outcome_of_ne (.inl hid)]
    · have hsize : amount < 2 ^ 127 := hshare ▸ (share_le hle).trans_lt (by decide)
      have hcast : U128.toI128 amount = (p.share totalWeight : Int) := by
        rw [U128.toI128, if_pos hsize, hshare]
      simp [hvotes, Proposal.allocation, hcast, calculateQuadraticWeight_eq_ok hweight]

/-- The loop, by induction on the proposals that are left. -/
theorem foldlM_allocateGrant_eq_ok {ids : List Nat} {rest : List Proposal}
    {state : Env × List GrantAllocation} (hnodup : (proposals.map Proposal.id).Nodup)
    (hmem : ∀ p ∈ rest, p ∈ proposals ∧ p.id ∉ ids ∧ p.weight ≤ totalWeight)
    (hids : (rest.map Proposal.id).Nodup)
    (hbefore : getProposals env.store = proposals.map (Proposal.outcome totalWeight ids))
    (h : rest.foldlM (allocateGrant totalWeight) (env, allocations) = .ok state) :
    getProposals state.1.store = proposals.map
        (Proposal.outcome totalWeight ((rest.map Proposal.id).reverse ++ ids)) ∧
      state.2 = allocations ++
        (rest.filter Proposal.hasVotes).map (Proposal.allocation totalWeight) := by
  induction rest generalizing env allocations ids with
  | nil =>
      obtain rfl := pure_eq_ok.mp h
      exact ⟨hbefore, by simp⟩
  | cons p rest ih =>
      rw [List.foldlM_cons] at h
      obtain ⟨⟨env₁, allocations₁⟩, hround, h⟩ := bind_eq_ok.mp h
      rw [List.forall_mem_cons] at hmem
      obtain ⟨⟨hp, hnew, hweight⟩, hrest⟩ := hmem
      rw [List.map_cons, List.nodup_cons] at hids
      obtain ⟨hlist, hallocations⟩ := allocateGrant_eq_ok hnodup hp hbefore hnew hweight hround
      dsimp only at hlist hallocations
      have hmem' : ∀ q ∈ rest,
          q ∈ proposals ∧ q.id ∉ p.id :: ids ∧ q.weight ≤ totalWeight := by
        intro q hq
        obtain ⟨hmem, hother, hle⟩ := hrest q hq
        have hne : q.id ≠ p.id := fun heq => hids.1 (heq ▸ List.mem_map_of_mem hq)
        exact ⟨hmem, by simp [hne, hother], hle⟩
      obtain ⟨hlist', hallocations'⟩ := ih hmem' hids.2 hlist h
      refine ⟨?_, ?_⟩
      · rw [hlist']
        simp
      · rw [hallocations', hallocations, List.append_assoc, ← List.map_append, ← List.filter_append]
        rfl

/-! ### One allocation -/

/-- The active proposals whose deadline has passed. -/
def endedProposals (now : Nat) (proposals : List Proposal) : List Proposal :=
  proposals.filter fun p => p.status = .active && p.deadline < now

def totalWeightOf (proposals : List Proposal) : Nat := (proposals.map Proposal.weight).sum

/-- What an allocation returns and leaves. -/
theorem allocateGrants_eq_ok (hnodup : ((getProposals env.store).map Proposal.id).Nodup)
    (h : allocateGrants env admin = .ok (env', allocations)) :
    let candidates := endedProposals env.timestamp (getProposals env.store)
    getProposals env'.store = (getProposals env.store).map
        (Proposal.outcome (totalWeightOf candidates) (candidates.map Proposal.id)) ∧
      allocations = (candidates.filter Proposal.hasVotes).map
        (Proposal.allocation (totalWeightOf candidates)) := by
  intro candidates
  have hsame {totalWeight : Nat} : Proposal.outcome totalWeight [] = id := by
    funext p
    simp [Proposal.outcome]
  simp only [allocateGrants, bind_eq_ok] at h
  obtain ⟨_, -, h⟩ := h
  split_ifs at h with hnone
  · obtain ⟨rfl, rfl⟩ := Prod.mk.inj (pure_eq_ok.mp h)
    have hempty : candidates = [] := List.isEmpty_iff.mp hnone
    rw [hempty, List.map_nil, hsame, List.map_id]
    exact ⟨rfl, rfl⟩
  · obtain ⟨totalWeight, hweights, h⟩ := bind_eq_ok.mp h
    obtain rfl : totalWeight = totalWeightOf candidates := by
      rw [foldlM_addWeight hweights, Nat.zero_add]
      rfl
    have hsub : candidates.Sublist (getProposals env.store) := List.filter_sublist
    have hmem : ∀ p ∈ candidates, p ∈ getProposals env.store ∧ p.id ∉ ([] : List Nat) ∧
        p.weight ≤ totalWeightOf candidates := fun p hp =>
      ⟨hsub.subset hp, List.not_mem_nil,
        List.single_le_sum (by simp) _ (List.mem_map_of_mem hp)⟩
    obtain ⟨hlist, hallocations⟩ := foldlM_allocateGrant_eq_ok hnodup hmem
      (hnodup.sublist (hsub.map Proposal.id)) (by rw [hsame, List.map_id]) h
    refine ⟨hlist.trans ?_, hallocations⟩
    refine List.map_congr_left fun q _ => ?_
    simp [Proposal.outcome]

/-- Proposals without votes add nothing to a sum of weights or shares. -/
theorem sum_map_filter_hasVotes {f : Proposal → Nat} (hf : ∀ p, p.hasVotes = false → f p = 0) :
    ((proposals.filter Proposal.hasVotes).map f).sum = (proposals.map f).sum := by
  induction proposals with
  | nil => rfl
  | cons p proposals ih =>
      cases hp : p.hasVotes with
      | true => simp [hp, ih]
      | false => simp [hp, ih, hf p hp]

theorem weight_of_no_votes (h : p.hasVotes = false) : p.weight = 0 := by
  have hzero : p.votesReceived = 0 := by simpa [Proposal.hasVotes] using h
  simp [Proposal.weight, hzero]

theorem share_of_no_votes (h : p.hasVotes = false) : p.share totalWeight = 0 := by
  simp [Proposal.share, weight_of_no_votes h]

/-- All shares come out of the pool. -/
theorem sum_share_le :
    ((proposals.filter Proposal.hasVotes).map (Proposal.share (totalWeightOf proposals))).sum ≤
      getAvailableGrantPool := by
  rw [sum_map_filter_hasVotes fun _ => share_of_no_votes, getAvailableGrantPool_eq]
  have hsum := ProRata.sum_map_div_le (proposals.map Proposal.weight) qvPrecision
  rw [List.map_map] at hsum
  have hshares : proposals.map (Proposal.share (totalWeightOf proposals)) =
      (proposals.map fun p => p.weight * qvPrecision / totalWeightOf proposals).map
        (grantUnit * ·) := by
    rw [List.map_map]
    rfl
  rw [hshares, List.sum_map_mul_left, List.map_id']
  exact Nat.mul_le_mul_left grantUnit hsum

/-! ### Runs -/

/-- What the allocation of the step returned. -/
def allocationsOf (e : Step) : List GrantAllocation :=
  match Ledger.called contract e with
  | some (.allocateGrants admin) =>
      match allocateGrants (e.before.enter e.action) admin with
      | .ok (_, allocations) => allocations
      | .error _ => []
  | _ => []

/-- The pool is shared out at the step: among the proposals that have ended with votes, by the
squares of the votes and up to a unit, and they are decided by what they get. -/
structure SharedOut (e : Step) : Prop where
  listed : (allocationsOf e).map GrantAllocation.proposalId =
    ((endedProposals e.action.timestamp (getProposals e.before.store)).filter
      Proposal.hasVotes).map Proposal.id
  pool : ((allocationsOf e).map GrantAllocation.amount).sum ≤ getAvailableGrantPool
  share : ∀ a ∈ allocationsOf e,
    let total : Nat := ((allocationsOf e).map fun b => b.votes * b.votes).sum
    0 < a.votes ∧ a.amount * total ≤ (getAvailableGrantPool * (a.votes * a.votes) : Nat) ∧
      (getAvailableGrantPool * (a.votes * a.votes) : Nat) < (a.amount + grantUnit) * total
  ordered : ∀ a ∈ allocationsOf e, ∀ b ∈ allocationsOf e, a.votes ≤ b.votes → a.amount ≤ b.amount
  decided : ∀ a ∈ allocationsOf e, ∃ p ∈ getProposals e.after.store, p.id = a.proposalId ∧
    p.votesReceived = a.votes ∧ p.status = if 0 < a.amount then .approved else .rejected
  kept : ∀ p ∈ getProposals e.before.store,
    p.id ∉ (allocationsOf e).map GrantAllocation.proposalId → p ∈ getProposals e.after.store

theorem allocationsOf_of_called (hn : Ledger.Next contract e.before e.action e.after)
    (hnodup : ((getProposals e.before.store).map Proposal.id).Nodup)
    (hcalled : Ledger.called contract e = some (.allocateGrants admin)) :
    let candidates := endedProposals e.action.timestamp (getProposals e.before.store)
    getProposals e.after.store = (getProposals e.before.store).map
        (Proposal.outcome (totalWeightOf candidates) (candidates.map Proposal.id)) ∧
      allocationsOf e = (candidates.filter Proposal.hasVotes).map
        (Proposal.allocation (totalWeightOf candidates)) := by
  obtain ⟨result, -, hexec, hafter⟩ := Ledger.exec_of_called hn hcalled
  obtain ⟨⟨env', allocations⟩, hallocate, rfl⟩ := map_eq_ok.mp hexec
  have hnodup' : ((getProposals (e.before.enter e.action).store).map Proposal.id).Nodup := hnodup
  obtain ⟨hlist, hallocations⟩ := allocateGrants_eq_ok hnodup' hallocate
  refine ⟨?_, ?_⟩
  · rw [hafter]
    exact hlist
  · simp only [allocationsOf, hcalled, hallocate]
    exact hallocations

theorem sharedOut_of_called (hn : Ledger.Next contract e.before e.action e.after)
    (hnodup : ((getProposals e.before.store).map Proposal.id).Nodup)
    (hcalled : Ledger.called contract e = some (.allocateGrants admin)) : SharedOut e := by
  obtain ⟨hlist, hallocations⟩ := allocationsOf_of_called hn hnodup hcalled
  generalize hcandidates : endedProposals e.action.timestamp (getProposals e.before.store) =
    candidates at hlist hallocations
  have hsub : candidates.Sublist (getProposals e.before.store) := by
    rw [← hcandidates]
    exact List.filter_sublist
  have hids : (allocationsOf e).map GrantAllocation.proposalId =
      (candidates.filter Proposal.hasVotes).map Proposal.id := by
    rw [hallocations, List.map_map]
    rfl
  have htotal : ((allocationsOf e).map fun b => b.votes * b.votes).sum =
      totalWeightOf candidates := by
    rw [hallocations, List.map_map]
    exact sum_map_filter_hasVotes fun _ => weight_of_no_votes
  have hmem : ∀ a ∈ allocationsOf e, ∃ p ∈ candidates, p.hasVotes = true ∧
      a = p.allocation (totalWeightOf candidates) := by
    intro a ha
    rw [hallocations, List.mem_map] at ha
    obtain ⟨p, hp, rfl⟩ := ha
    obtain ⟨hp, hvotes⟩ := List.mem_filter.mp hp
    exact ⟨p, hp, hvotes, rfl⟩
  refine ⟨hcandidates ▸ hids, ?_, ?_, ?_, ?_, ?_⟩
  · have hamounts : (allocationsOf e).map GrantAllocation.amount =
        ((candidates.filter Proposal.hasVotes).map
          (Proposal.share (totalWeightOf candidates))).map Nat.cast := by
      rw [hallocations]
      simp [Proposal.allocation]
    rw [hamounts, ← Nat.cast_list_sum]
    exact Nat.cast_le.mpr sum_share_le
  · intro a ha
    rw [htotal]
    obtain ⟨p, hp, hvotes, rfl⟩ := hmem a ha
    have hpos : 0 < p.votesReceived :=
      Nat.pos_of_ne_zero (by simpa [Proposal.hasVotes] using hvotes)
    have hle : p.weight ≤ totalWeightOf candidates :=
      List.single_le_sum (by simp) _ (List.mem_map_of_mem hp)
    have htotal' : 0 < totalWeightOf candidates := (Nat.mul_pos hpos hpos).trans_le hle
    have hbounds : p.share (totalWeightOf candidates) * totalWeightOf candidates ≤
          grantUnit * qvPrecision * p.weight ∧ grantUnit * qvPrecision * p.weight <
            (p.share (totalWeightOf candidates) + grantUnit) * totalWeightOf candidates :=
      ProRata.unit_share_bounds (by decide) htotal'
    rw [← getAvailableGrantPool_eq] at hbounds
    refine ⟨hpos, ?_, ?_⟩
    · show (p.share (totalWeightOf candidates) : Int) * totalWeightOf candidates ≤
        (getAvailableGrantPool * p.weight : Nat)
      exact_mod_cast hbounds.1
    · show ((getAvailableGrantPool * p.weight : Nat) : Int) <
        (p.share (totalWeightOf candidates) + grantUnit) * totalWeightOf candidates
      exact_mod_cast hbounds.2
  · intro a ha b hb hle
    obtain ⟨p, -, -, rfl⟩ := hmem a ha
    obtain ⟨q, -, -, rfl⟩ := hmem b hb
    have hvotes : p.votesReceived ≤ q.votesReceived := hle
    have hshare : p.share (totalWeightOf candidates) ≤ q.share (totalWeightOf candidates) :=
      Nat.mul_le_mul_left _ (Nat.div_le_div_right
        (Nat.mul_le_mul_right _ (Nat.mul_le_mul hvotes hvotes)))
    exact Nat.cast_le.mpr hshare
  · intro a ha
    obtain ⟨p, hp, hvotes, rfl⟩ := hmem a ha
    refine ⟨p.decide (totalWeightOf candidates), ?_, decide_id, rfl, ?_⟩
    · rw [hlist, List.mem_map]
      refine ⟨p, hsub.subset hp, ?_⟩
      rw [Proposal.outcome, if_pos ⟨List.mem_map_of_mem hp, hvotes⟩]
    · simp [Proposal.decide, Proposal.withStatus, Proposal.allocation]
  · intro p hp hnot
    rw [hlist, List.mem_map]
    refine ⟨p, hp, if_neg fun hdecided => hnot ?_⟩
    obtain ⟨q, hq, hid⟩ := List.mem_map.mp hdecided.1
    obtain rfl := List.inj_on_of_nodup_map hnodup (hsub.subset hq) hp hid
    rw [hids]
    exact List.mem_map_of_mem (List.mem_filter.mpr ⟨hq, hdecided.2⟩)

/-- What is not active stays so. -/
theorem settled_of_next (hn : Ledger.Next contract e.before e.action e.after)
    (hnodup : ((getProposals e.before.store).map Proposal.id).Nodup)
    (hp : p ∈ getProposals e.before.store) (hstatus : p.status ≠ .active) :
    ∃ q ∈ getProposals e.after.store, q.id = p.id ∧ q.status ≠ .active := by
  rcases Ledger.effect_of_next hn (fun _ hexec => exec_effect hexec) with
    ⟨-, hstore⟩ | ⟨call, hcalled, heffect⟩
  · rw [hstore]
    exact ⟨p, hp, rfl, hstatus⟩
  · generalize hafter : e.after.store = store' at heffect ⊢
    cases heffect with
    | configured config => exact ⟨p, hp, rfl, hstatus⟩
    | created new => exact ⟨p, List.mem_append_left [new] hp, rfl, hstatus⟩
    | voted found record spent hfind =>
        have hset :=
          KeyedList.set_eq_map_of_find? hnodup (fun q => q.add record) (fun _ => rfl) hfind
        have hlist : getProposals { e.before.store with
            proposals := some (KeyedList.set Proposal.id (found.add record)
              (getProposals e.before.store)) } = _ := hset
        refine ⟨if p.id = record.proposalId then p.add record else p, ?_, ?_, ?_⟩
        · exact hlist ▸ List.mem_map_of_mem hp
        · split <;> rfl
        · split
          · exact hstatus
          · exact hstatus
    | allocated store' _ =>
        rw [← hafter]
        obtain ⟨hlist, -⟩ := allocationsOf_of_called hn hnodup hcalled
        rw [hlist]
        refine ⟨_, List.mem_map_of_mem hp, outcome_id _, ?_⟩
        unfold Proposal.outcome
        split
        · simp only [Proposal.decide, Proposal.withStatus]
          split <;> simp
        · exact hstatus

/-- What was decided in a run. -/
structure Decided (trace : Trace) (proposals : List Proposal) : Prop where
  nodup : ((trace.flatMap allocationsOf).map GrantAllocation.proposalId).Nodup
  settled : ∀ id ∈ (trace.flatMap allocationsOf).map GrantAllocation.proposalId,
    ∃ p ∈ proposals, p.id = id ∧ p.status ≠ .active

theorem Decided.step (hn : Ledger.Next contract e.before e.action e.after)
    (hnodup : ((getProposals e.before.store).map Proposal.id).Nodup)
    (h : Decided older (getProposals e.before.store)) :
    Decided (e :: older) (getProposals e.after.store) := by
  have hkept : ∀ id ∈ (older.flatMap allocationsOf).map GrantAllocation.proposalId,
      ∃ p ∈ getProposals e.after.store, p.id = id ∧ p.status ≠ .active := by
    intro id hid
    obtain ⟨p, hp, rfl, hstatus⟩ := h.settled id hid
    exact settled_of_next hn hnodup hp hstatus
  by_cases hallocated : ∃ admin, Ledger.called contract e = some (.allocateGrants admin)
  · obtain ⟨admin, hcalled⟩ := hallocated
    have hshared := sharedOut_of_called hn hnodup hcalled
    refine ⟨?_, ?_⟩
    · rw [List.flatMap_cons, List.map_append, List.nodup_append, hshared.listed]
      refine ⟨?_, h.nodup, ?_⟩
      · exact hnodup.sublist ((List.filter_sublist.trans List.filter_sublist).map Proposal.id)
      · -- what was decided is not active, and what has ended is
        intro id hnew id' hold heq
        obtain ⟨p, hp, rfl⟩ := List.mem_map.mp hnew
        obtain ⟨q, hq, hid, hstatus⟩ := h.settled id' hold
        obtain ⟨hp, hended⟩ := List.mem_filter.mp (List.mem_of_mem_filter hp)
        obtain rfl := List.inj_on_of_nodup_map hnodup hq hp (hid.trans heq.symm)
        simp [hstatus] at hended
    · rw [List.flatMap_cons, List.map_append]
      intro id hid
      rcases List.mem_append.mp hid with hnew | hold
      · obtain ⟨a, ha, rfl⟩ := List.mem_map.mp hnew
        obtain ⟨p, hp, hid, -, hstatus⟩ := hshared.decided a ha
        refine ⟨p, hp, hid, ?_⟩
        rw [hstatus]
        split <;> simp
      · exact hkept id hold
  · have hnone : allocationsOf e = [] := by
      unfold allocationsOf
      split
      · case h_1 admin hcalled => exact absurd ⟨admin, hcalled⟩ hallocated
      · rfl
    rw [← List.nil_append (older.flatMap allocationsOf), ← hnone] at hkept
    refine ⟨?_, hkept⟩
    rw [List.flatMap_cons, hnone]
    exact h.nodup

theorem decided_of_reachable (h : Ledger.Reachable contract trace env) :
    Decided trace (getProposals env.store) := by
  induction h with
  | start h =>
      obtain ⟨_, _, rfl⟩ := h
      exact ⟨List.nodup_nil, fun id hid => by simp at hid⟩
  | @step older before event after hrun hn ih =>
      exact Decided.step (e := ⟨before, event, after⟩) hn (tallied_of_reachable hrun).nodup ih

/-- **Allocations.** In every run every allocation shares the pool out among the proposals that
have ended with votes, and no proposal is ever decided twice. -/
theorem allocations_shared (h : Ledger.Reachable contract trace env) :
    ((trace.flatMap allocationsOf).map GrantAllocation.proposalId).Nodup ∧
      ∀ e ∈ trace, ∀ admin, Ledger.called contract e = some (.allocateGrants admin) →
        SharedOut e := by
  refine ⟨(decided_of_reachable h).nodup, fun e he admin hcalled => ?_⟩
  obtain ⟨older, hrun, hn⟩ := h.of_mem he
  exact sharedOut_of_called hn (tallied_of_reachable hrun).nodup hcalled

/-- Three votes against one get nine tenths of the pool; nobody votes for the last proposal. -/
theorem allocations_shared_of_three_to_one :
    let run := Ledger.history contract Demo.env
      [Demo.call 0 (.initializeVoting Demo.admin Demo.token),
        Demo.call 1 (.createProposal Demo.admin 100 "well"),
        Demo.call 1 (.createProposal Demo.admin 100 "pump"),
        Demo.call 1 (.createProposal Demo.admin 100 "road"),
        Demo.call 2 (.castVote Demo.voter 1 3), Demo.call 2 (.castVote Demo.admin 2 1),
        Demo.call 604802 (.allocateGrants Demo.admin), Demo.call 604803 (.allocateGrants Demo.admin)]
    (run.1.flatMap allocationsOf).map (fun a => (a.proposalId, a.amount)) =
        [(1, 900000000), (2, 100000000)] ∧
      ((run.1.flatMap allocationsOf).map GrantAllocation.proposalId).Nodup := by
  intro run
  have hrun : Ledger.Reachable contract run.1 run.2 :=
    Ledger.history_reachable contract ⟨_, _, rfl⟩ (by decide)
  exact ⟨by decide, (allocations_shared hrun).1⟩

end YieldTrust.QuadraticVoting
