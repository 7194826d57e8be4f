import YieldTrust.QuadraticVoting.VoteCost

/-!
# YieldTrust.QuadraticVoting.Budget

What voters **spend**. Every vote is charged by its square to an account of the voter, and is
taken in only if what the voter holds of the token covers the whole account. The account is the
only thing that is charged: no token moves, and nothing is ever taken off the account.
-/

namespace YieldTrust.QuadraticVoting

open Fallible
open GrantStream (Address)

variable {env env' : Env} {call : Call} {voter : Address} {e : Step} {trace older : Trace}

/-! ### One call -/

/-- What the call charges to the voter. -/
def Call.charge (voter : Address) : Call → Nat
  | .castVote source _ votes => if source = voter then votes * votes * qvPrecision else 0
  | _ => 0

/-- The accounts stay below the largest `i128`, and the votes on a proposal are limited. -/
structure Store.Bounded (store : Store) : Prop where
  spent : ∀ voter, (store.spent voter).getD 0 < 2 ^ 127
  config : ∀ config, store.qvConfig = some config →
    config.maxVotesPerProposal = maxVotesPerProposal

theorem charge_lt {votes : Nat} (h : votes ≤ maxVotesPerProposal) :
    votes * votes * qvPrecision < 2 ^ 127 := by
  have hsquare : votes * votes ≤ maxVotesPerProposal * maxVotesPerProposal := Nat.mul_le_mul h h
  have hcost := Nat.mul_le_mul_right qvPrecision hsquare
  exact hcost.trans_lt (by decide)

theorem castVote_eq_ok {proposalId votes : Nat} (hbounded : env.store.Bounded)
    (h : castVote env voter proposalId votes = .ok env') :
    (∃ config, env.store.qvConfig = some config ∧ 0 < votes ∧ votes ≤ maxVotesPerProposal ∧
      ((getVoterTokensSpent env voter + votes * votes * qvPrecision : Nat) : Int) ≤
        env.tokens.balance config.votingToken voter) ∧
      getVoterTokensSpent env voter + votes * votes * qvPrecision < 2 ^ 127 ∧
      env'.tokens = env.tokens ∧ env'.store.qvConfig = env.store.qvConfig ∧
      env'.store.spent = Function.update env.store.spent voter
        (some (getVoterTokensSpent env voter + votes * votes * qvPrecision)) := by
  simp only [castVote, getVotingConfig, bind_eq_ok, ensure_eq_ok, okOr_eq_ok, orTrap_eq_ok,
    I128.checkedAdd_eq_some, U128.checkedAdd_eq_some] at h
  obtain ⟨_, hvotes, config, hconfig, _, -, _, -, _, -, _, hmax, cost, hcost, _, ⟨hrange, rfl⟩,
    _, hbalance, _, -, _, ⟨-, rfl⟩, h⟩ := h
  rw [hbounded.config config hconfig] at hmax
  obtain ⟨-, -, rfl⟩ := calculateVoteCost_eq_ok.mp hcost
  have hspent : U128.toI128 (getVoterTokensSpent env voter) = getVoterTokensSpent env voter :=
    if_pos (hbounded.spent voter)
  have hcharge : U128.toI128 (votes * votes * qvPrecision) = (votes * votes * qvPrecision : Nat) :=
    if_pos (charge_lt hmax)
  rw [hspent, hcharge, ← Nat.cast_add] at hrange hbalance
  have hlimit : getVoterTokensSpent env voter + votes * votes * qvPrecision < 2 ^ 127 := by
    have hle := hrange.2
    have hmax128 : I128.max = 2 ^ 127 - 1 := rfl
    omega
  simp only [updateProposal, bind_eq_ok, pure_eq_ok] at h
  obtain ⟨_, -, _, -, rfl⟩ := h
  exact ⟨⟨config, hconfig, Nat.pos_of_ne_zero hvotes, hmax, hbalance⟩, hlimit, rfl, rfl, rfl⟩

/-- An allocation writes to nothing but the proposals. -/
theorem foldlM_allocateGrant_keeps {totalWeight : Nat} {proposals : List Proposal}
    {state state' : Env × List GrantAllocation}
    (h : proposals.foldlM (allocateGrant totalWeight) state = .ok state') :
    state'.1.store.spent = state.1.store.spent ∧
      state'.1.store.qvConfig = state.1.store.qvConfig := by
  induction proposals generalizing state with
  | nil =>
      obtain rfl := pure_eq_ok.mp h
      exact ⟨rfl, rfl⟩
  | cons p proposals ih =>
      rw [List.foldlM_cons] at h
      obtain ⟨middle, hround, h⟩ := bind_eq_ok.mp h
      obtain ⟨hspent, hconfig⟩ := ih h
      rw [hspent, hconfig]
      unfold allocateGrant at hround
      split_ifs at hround with hzero
      · obtain rfl := pure_eq_ok.mp hround
        exact ⟨rfl, rfl⟩
      · simp only [updateProposal, bind_eq_ok, pure_eq_ok] at hround
        obtain ⟨_, -, _, -, _, ⟨_, -, _, -, rfl⟩, rfl⟩ := hround
        exact ⟨rfl, rfl⟩

/-- What a call does to the accounts. -/
theorem exec_charge (hbounded : env.store.Bounded) (h : call.exec env = .ok env') :
    env'.store.Bounded ∧ ∀ voter, getVoterTokensSpent env' voter =
      getVoterTokensSpent env voter + call.charge voter := by
  cases call with
  | initializeVoting admin votingToken =>
      simp only [Call.exec, initializeVoting, bind_eq_ok, pure_eq_ok] at h
      obtain ⟨_, -, rfl⟩ := h
      refine ⟨⟨hbounded.spent, ?_⟩, fun _ => (Nat.add_zero _).symm⟩
      intro config hconfig
      obtain rfl := Option.some.inj hconfig
      rfl
  | createProposal proposer grantAmount description =>
      simp only [Call.exec, createProposal, map_eq_ok, bind_eq_ok, pure_eq_ok] at h
      obtain ⟨_, ⟨_, -, _, -, _, -, _, -, rfl⟩, rfl⟩ := h
      exact ⟨⟨hbounded.spent, hbounded.config⟩, fun _ => (Nat.add_zero _).symm⟩
  | castVote source proposalId votes =>
      obtain ⟨-, hlimit, -, hconfig, hspent⟩ := castVote_eq_ok hbounded h
      refine ⟨⟨fun voter => ?_, ?_⟩, fun voter => ?_⟩
      · rw [hspent]
        by_cases hvoter : voter = source
        · subst hvoter
          rw [Function.update_self, Option.getD_some]
          exact hlimit
        · rw [Function.update_of_ne hvoter]
          exact hbounded.spent voter
      · rw [hconfig]
        exact hbounded.config
      · rw [getVoterTokensSpent, hspent, Call.charge]
        by_cases hvoter : voter = source
        · subst hvoter
          rw [Function.update_self, Option.getD_some, if_pos rfl, getVoterTokensSpent]
        · rw [Function.update_of_ne hvoter, if_neg (Ne.symm hvoter), Nat.add_zero,
            getVoterTokensSpent]
  | allocateGrants admin =>
      simp only [Call.exec, allocateGrants, map_eq_ok, bind_eq_ok] at h
      obtain ⟨result, ⟨_, -, h⟩, rfl⟩ := h
      have hkept : result.1.store.spent = env.store.spent ∧
          result.1.store.qvConfig = env.store.qvConfig := by
        split_ifs at h with hnone
        · obtain rfl := pure_eq_ok.mp h
          exact ⟨rfl, rfl⟩
        · obtain ⟨_, -, h⟩ := bind_eq_ok.mp h
          exact foldlM_allocateGrant_keeps h
      refine ⟨⟨hkept.1 ▸ hbounded.spent, hkept.2 ▸ hbounded.config⟩, fun voter => ?_⟩
      rw [getVoterTokensSpent, hkept.1]
      rfl

/-! ### Runs -/

/-- What the step charges to the voter. -/
def charged (voter : Address) (e : Step) : Nat :=
  (Ledger.called contract e).elim 0 (Call.charge voter)

/-- What the votes of the run come to. -/
def account (voter : Address) (trace : Trace) : Nat := (trace.map (charged voter)).sum

theorem account_of_reachable (h : Ledger.Reachable contract trace env) :
    env.store.Bounded ∧ ∀ voter, getVoterTokensSpent env voter = account voter trace := by
  induction h with
  | start h =>
      obtain ⟨_, _, rfl⟩ := h
      have hzero : (0 : Nat) < 2 ^ 127 := by decide
      refine ⟨⟨fun _ => hzero, ?_⟩, fun _ => rfl⟩
      intro config hconfig
      cases hconfig
  | @step older before event after hrun hn ih =>
      obtain ⟨hbounded, haccount⟩ := ih
      rcases Ledger.cases_of_next (e := ⟨before, event, after⟩) hn with ⟨hnone, hstore⟩ |
        ⟨call, result, hcalled, -, hexec, hafter⟩
      · dsimp only at hstore
        rw [hstore]
        refine ⟨hbounded, fun voter => ?_⟩
        rw [account, List.map_cons, List.sum_cons, charged, hnone, Option.elim_none, Nat.zero_add,
          getVoterTokensSpent, hstore]
        exact haccount voter
      · have hbounded' : (before.enter event).store.Bounded := hbounded
        obtain ⟨hresult, hcharge⟩ := exec_charge hbounded' hexec
        have hstore : after.store = result.store := by
          dsimp only at hafter
          rw [hafter, Ledger.Env.commit]
        rw [hstore]
        refine ⟨hresult, fun voter => ?_⟩
        rw [account, List.map_cons, List.sum_cons, charged, hcalled, Option.elim_some, Nat.add_comm,
          ← account, ← haccount voter, getVoterTokensSpent, hstore]
        exact hcharge voter

/-- **Budget.** In every run the account of a voter is the squares of all its votes, at a million
for each; every vote that is taken in is for at most a thousand votes, with the whole account
covered by what the voter holds of the voting token at that moment; and no vote moves a token. -/
theorem votes_within_budget (h : Ledger.Reachable contract trace env) :
    (∀ voter, getVoterTokensSpent env voter = account voter trace) ∧
      ∀ newer e older voter proposalId votes, trace = newer ++ e :: older →
        Ledger.called contract e = some (.castVote voter proposalId votes) →
          (∃ config, e.before.store.qvConfig = some config ∧ 0 < votes ∧ votes ≤ 1000 ∧
            (account voter (e :: older) : Int) ≤
              e.before.tokens.balance config.votingToken voter) ∧
          e.after.tokens.balance = e.before.tokens.balance := by
  refine ⟨(account_of_reachable h).2, ?_⟩
  rintro newer e older voter proposalId votes rfl hcalled
  obtain ⟨hrun, hn, -⟩ := h.suffix.uncons
  obtain ⟨hbounded, haccount⟩ := account_of_reachable hrun
  obtain ⟨result, -, hexec, hafter⟩ := Ledger.exec_of_called hn hcalled
  have hbounded' : (e.before.enter e.action).store.Bounded := hbounded
  obtain ⟨⟨config, hconfig, hpos, hmax, hbalance⟩, -, htokens, -, -⟩ :=
    castVote_eq_ok hbounded' hexec
  refine ⟨⟨config, hconfig, hpos, hmax, ?_⟩, ?_⟩
  · have hcharge : account voter (e :: older) =
        getVoterTokensSpent e.before voter + votes * votes * qvPrecision := by
      rw [account, List.map_cons, List.sum_cons, charged, hcalled, Option.elim_some, Call.charge,
        if_pos rfl, Nat.add_comm, ← account, haccount voter]
    rw [hcharge]
    exact hbalance
  · rw [hafter, Ledger.Env.commit, htokens]
    rfl

/-- A voter with a thousand million tokens votes thirty times at once, and then ten times more. -/
theorem votes_within_budget_of_two_votes :
    let run := Ledger.history contract Demo.env
      [Demo.call 0 (.initializeVoting Demo.admin Demo.token),
        Demo.call 1 (.createProposal Demo.admin 100 "well"),
        Demo.call 1 (.createProposal Demo.admin 100 "pump"),
        Demo.call 2 (.castVote Demo.voter 1 30), Demo.call 3 (.castVote Demo.voter 2 10)]
    getVoterTokensSpent run.2 Demo.voter = 1000000000 := by
  intro run
  have hrun : Ledger.Reachable contract run.1 run.2 :=
    Ledger.history_reachable contract ⟨_, _, rfl⟩ (by decide)
  exact ((votes_within_budget hrun).1 Demo.voter).trans (by decide)

end YieldTrust.QuadraticVoting
