import YieldTrust.GrantStream.Regions
import YieldTrust.GrantStream.Registry
import YieldTrust.GrantStream.Supply
import YieldTrust.Lib.InvertedIndex

/-!
# YieldTrust.GrantStream.GrantIndex

The redundant structures next to the grants. `RecipientGrants` is the inverted
index of the recipients: creating a grant, changing its grantee and the two ways
to delete it write to both, with different code, and nothing else writes to
either. `is_active_grantee` only looks at the index.
-/

namespace YieldTrust.GrantStream

open Fallible

/-- Whose grant it is. -/
def Env.grantee (env : Env) (grantId : Nat) : Option Address :=
  (env.grants grantId).map Grant.recipient

theorem Env.grantee_update {env env' : Env} {grantId : Nat} {g? : Option Grant}
    (h : env'.grants = Function.update env.grants grantId g?) :
    env'.grantee = Function.update env.grantee grantId (g?.map Grant.recipient) := by
  funext id
  unfold grantee
  rw [h]
  by_cases hid : id = grantId
  · subst hid
    simp
  · simp [hid]

/-! ### The four calls that write to the index -/

theorem createGrant_index {env env' : Env} {grantId : Nat} {recipient : Address}
    {totalAmount flowRate : Int} {warmupDuration : Nat} {validator donor : Option Address}
    (h : createGrant env grantId recipient totalAmount flowRate warmupDuration validator donor =
      .ok env')
    (hindex : InvertedIndex env.grantee env.recipientGrants) :
    InvertedIndex env'.grantee env'.recipientGrants := by
  obtain ⟨hnone, -, -, _, _, -, -, hv⟩ := createGrant_vault h
  rw [Env.grantee_update (congrArg Vault.grants hv),
    show env'.recipientGrants = _ from congrArg Vault.recipientGrants hv]
  exact hindex.insert (by simp [Env.grantee, hnone]) recipient

theorem changeGrantee_index {env env' : Env} {grantId : Nat} {newGrantee : Address}
    (h : changeGrantee env grantId newGrantee = .ok env')
    (hindex : InvertedIndex env.grantee env.recipientGrants) :
    InvertedIndex env'.grantee env'.recipientGrants := by
  unfold changeGrantee readGrant at h
  simp only [bind_eq_ok, okOr_eq_ok, pure_eq_ok] at h
  obtain ⟨_, -, g, hg, _, -, _, -, _, -, rfl⟩ := h
  rw [@Env.grantee_update env _ _ _ rfl]
  exact hindex.move (by simp [Env.grantee, hg]) newGrantee

theorem finalizeAndPurge_index {env env' : Env} {grantId : Nat} {purger : Address}
    (h : finalizeAndPurge env grantId purger = .ok env')
    (hindex : InvertedIndex env.grantee env.recipientGrants) :
    InvertedIndex env'.grantee env'.recipientGrants := by
  obtain ⟨g, s, hg, hs, -, hv⟩ := finalizeAndPurge_vault h
  have hrecipient : s.recipient = g.recipient := by simp [hs.eq_settled]
  rw [Env.grantee_update (congrArg Vault.grants hv),
    show env'.recipientGrants = _ from congrArg Vault.recipientGrants hv, hrecipient]
  exact hindex.filter (by simp [Env.grantee, hg])

theorem pruneFinalizedGrant_index {env env' : Env} {grantId : Nat} {relayer : Address}
    (h : pruneFinalizedGrant env grantId relayer = .ok env')
    (hindex : InvertedIndex env.grantee env.recipientGrants) :
    InvertedIndex env'.grantee env'.recipientGrants := by
  obtain ⟨g, s, hg, hs, -, hv⟩ := pruneFinalizedGrant_vault h
  have hrecipient : s.recipient = g.recipient := by simp [hs.eq_settled]
  rw [Env.grantee_update (congrArg Vault.grants hv),
    show env'.recipientGrants = _ from congrArg Vault.recipientGrants hv, hrecipient]
  exact hindex.erase (by simp [Env.grantee, hg])

/-! ### The other calls -/

/-- Only changing the grantee changes the recipient. -/
theorem GrantStep.recipient {now : Nat} {treasury : Option Address} {op : GrantOp}
    {a a' : Account} {payments : List Payment} (hstep : GrantStep now treasury op a a' payments)
    (hop : ∀ newGrantee, op ≠ .changeGrantee newGrantee) :
    a'.grant.recipient = a.grant.recipient := by
  cases hstep with
  | changeGrantee => exact (hop _ rfl).elim
  | withdraw hs _ _ _ _ _ hm | withdrawValidator hs _ _ _ _ hm | pause hs _ hm
  | proposeIncrease hs _ _ _ hm | proposeDecrease hs _ _ _ hm | applyKpi hs _ _ hm
  | rageQuit hs _ _ hm | cancel hs _ _ hm | clawbackNothing hs _ _ hm
  | clawbackContested hs _ _ hm | clawbackToDonor hs _ _ _ hm =>
      rw [hm, hs.eq_settled]
      exact Grant.settled_recipient ..
  | resume _ hm | resolveToGrantee _ _ _ _ hm | setLegal hm | signLegal _ hm => rw [hm]
  | resolveToDonor => rfl

theorem grantee_of_operates {env env' : Env} {grantId : Nat} {op : GrantOp}
    (h : Operates env grantId op env') (hop : ∀ newGrantee, op ≠ .changeGrantee newGrantee) :
    env'.grantee = env.grantee := by
  obtain ⟨g, a', payments, hg, hstep, -, hv⟩ := h
  rw [Env.grantee_update (congrArg Vault.grants hv)]
  refine Function.update_eq_self_iff.mpr ?_
  simp [Env.grantee, hg, hstep.recipient hop]

/-- A call that does not write to the index changes no recipient. -/
theorem grantee_of_exec {env env' : Env} {call : Call} (h : call.exec env = .ok env')
    (hwrites : Region.recipientIndex ∉ call.writes) : env'.grantee = env.grantee := by
  by_cases hgrants : Region.grants ∈ call.writes
  · cases hop : call.grantOp? with
    | some target =>
        obtain ⟨grantId, op⟩ := target
        have hkept : ∀ newGrantee, op ≠ .changeGrantee newGrantee := by
          rintro newGrantee rfl
          cases call <;> simp_all [Call.grantOp?, Call.writes]
        exact grantee_of_operates (operates_of_exec h hop) hkept
    | none =>
        cases call <;> simp_all [Call.grantOp?, Call.writes]
        case initializeContract =>
          obtain ⟨-, hv⟩ := initializeContract_vault h
          funext grantId
          unfold Env.grantee
          rw [show env'.grants = env.grants from congrArg Vault.grants hv]
  · funext grantId
    unfold Env.grantee
    rw [((frame_of_exec h).same .grants hgrants).1]

theorem index_of_exec {env env' : Env} {call : Call} (h : call.exec env = .ok env')
    (hindex : InvertedIndex env.grantee env.recipientGrants) :
    InvertedIndex env'.grantee env'.recipientGrants := by
  by_cases hwrites : Region.recipientIndex ∈ call.writes
  · cases call <;> simp [Call.writes] at hwrites
    case createGrant => exact createGrant_index h hindex
    case changeGrantee => exact changeGrantee_index h hindex
    case finalizeAndPurge => exact finalizeAndPurge_index h hindex
    case pruneFinalizedGrant => exact pruneFinalizedGrant_index h hindex
  · rw [grantee_of_exec h hwrites,
      show env'.recipientGrants = _ from (frame_of_exec h).same .recipientIndex hwrites]
    exact hindex

theorem index_of_reachable {trace : Trace} {env : Env} (h : Reachable trace env) :
    InvertedIndex env.grantee env.recipientGrants := by
  refine Run.invariant (I := fun env => InvertedIndex env.grantee env.recipientGrants) ?_ ?_ h
  · rintro env ⟨_, _, _, rfl⟩
    exact .empty
  · intro env event env' ih hn
    rcases called_of_next hn with ⟨-, hframe⟩ | ⟨call, -, hexec⟩
    · have hgrants : env'.grants = env.grants := (hframe.same .grants (by decide)).1
      have hsame : env'.recipientGrants = env.recipientGrants :=
        hframe.same .recipientIndex (by decide)
      unfold Env.grantee
      rw [hgrants, hsame]
      exact ih
    · exact index_of_exec hexec ih

/-! ### The balances add up in an `i128` -/

theorem Settles.accounted_inRange {g s : Grant} {now₀ now : Nat} (hs : Settles g now s)
    (hwf : g.WellFormed now₀) (h : I128.InRange g.accounted) : I128.InRange s.accounted := by
  have hwf' := hwf.of_settles hs
  have hle := hwf.rates.dueShare_le now
  have hshare := g.dueShare_nonneg now
  have hclaimable := hwf.claimable_nonneg
  have haccounted := g.settled_accounted now
  rw [← hs.eq_settled] at haccounted
  rcases g.settled_cases now with ⟨-, heq⟩ | ⟨-, -, heq⟩ | ⟨hne, hgate, -⟩
  · rw [hs.eq_settled, heq]
    exact h
  · rw [hs.eq_settled, heq]
    exact h
  · -- the sum was computed before the claimable balance was capped
    have hr := hs.inRange hne hgate
    rw [Grant.credited_accounted hne hgate] at hr
    split_ifs at haccounted
    · rw [haccounted]
      rcases max_choice g.totalAmount
        (g.withdrawn + g.validatorWithdrawn + (g.validatorClaimable + g.dueShare now)) with hm | hm
      · rw [hm]
        exact hwf.totalAmount_inRange
      · rw [hm]
        have hw := hwf.withdrawn_nonneg
        have hvw := hwf.validatorWithdrawn_nonneg
        have hvc := hwf.validatorClaimable_nonneg
        refine hr.of_nonneg_of_le (by omega) ?_
        unfold Grant.accounted
        omega
    · exact haccounted ▸ hr

theorem accounted_inRange_of_reachable {trace : Trace} {env : Env} (h : Reachable trace env)
    {grantId : Nat} {g : Grant} (hg : env.grants grantId = some g) :
    I128.InRange g.accounted := by
  have hinv := account_invariant_when (C := fun _ => True)
    (P := fun _ _ _ a => I128.InRange a.grant.accounted) ?_ ?_ ?_ h hg fun _ _ => trivial
  · obtain ⟨o, -, hr⟩ := hinv
    exact hr
  · rintro now recipient totalAmount flowRate warmupDuration validator donor token _ _ _ _ rfl
    exact I128.inRange_zero
  · intro o L e a _ _ ih _ _ _
    exact ih
  · intro o L e op a a' payments _ hwf ih _ _ _ hstep
    rcases hstep.accounted with ⟨-, s, hs, hacc, -⟩ | ⟨-, hacc, -⟩
    · rw [hacc]
      exact hs.accounted_inRange hwf ih
    · rw [hacc]
      exact ih

/-! ### The index is consistent -/

/-- The grant is active or paused, and something is left to stream or to claim. -/
def Grant.Undepleted (g : Grant) : Prop :=
  (g.status = .active ∨ g.status = .paused) ∧
    (g.withdrawn + g.validatorWithdrawn < g.totalAmount ∨ 0 < g.claimable + g.validatorClaimable)

/-- The lists hold the ids of the existing grants, each once, and looking at the
list of an address is looking at all grants. -/
structure Env.Indexed (env : Env) : Prop where
  ids_nodup : env.grantIds.Nodup
  ids_iff : ∀ id, id ∈ env.grantIds ↔ ∃ g, env.grants id = some g
  recipients_nodup : ∀ a, (env.recipientGrants a).Nodup
  recipients_iff : ∀ a id,
    id ∈ env.recipientGrants a ↔ ∃ g, env.grants id = some g ∧ g.recipient = a
  active_iff : ∀ a, isActiveGrantee env a = true ↔
    ∃ id g, env.grants id = some g ∧ g.recipient = a ∧ g.Undepleted

theorem mem_recipientGrants {trace : Trace} {env : Env} (h : Reachable trace env) {a : Address}
    {id : Nat} : id ∈ env.recipientGrants a ↔ ∃ g, env.grants id = some g ∧ g.recipient = a := by
  rw [(index_of_reachable h).mem_iff]
  exact Option.map_eq_some_iff

/-- The sums in `is_active_grantee` do not overflow, so no fallback applies. -/
theorem undepleted_iff {g : Grant} {now : Nat} (hwf : g.WellFormed now)
    (hr : I128.InRange g.accounted) :
    (g.isLive &&
      (decide ((I128.checkedAdd g.withdrawn g.validatorWithdrawn).getD 0 < g.totalAmount) ||
        decide ((I128.checkedAdd g.claimable g.validatorClaimable).getD 0 > 0))) = true ↔
      g.Undepleted := by
  have hw := hwf.withdrawn_nonneg
  have hc := hwf.claimable_nonneg
  have hvw := hwf.validatorWithdrawn_nonneg
  have hvc := hwf.validatorClaimable_nonneg
  unfold Grant.accounted at hr
  have hwithdrawn : I128.checkedAdd g.withdrawn g.validatorWithdrawn =
      some (g.withdrawn + g.validatorWithdrawn) :=
    I128.checkedAdd_eq_some.mpr ⟨hr.of_nonneg_of_le (by omega) (by omega), rfl⟩
  have hclaimable : I128.checkedAdd g.claimable g.validatorClaimable =
      some (g.claimable + g.validatorClaimable) :=
    I128.checkedAdd_eq_some.mpr ⟨hr.of_nonneg_of_le (by omega) (by omega), rfl⟩
  rw [hwithdrawn, hclaimable]
  simp [Grant.isLive, Grant.Undepleted]

/-- **Grant index consistency**, in every reachable state. -/
theorem grant_index {trace : Trace} {env : Env} (h : Reachable trace env) : env.Indexed := by
  have hreg := registered_of_reachable h
  refine ⟨hreg.nodup, fun id => ?_, (index_of_reachable h).nodup,
    fun a id => mem_recipientGrants h, fun a => ?_⟩
  · exact (hreg.mem_iff id).trans Option.ne_none_iff_exists'
  · unfold isActiveGrantee
    rw [List.any_eq_true]
    constructor
    · intro ⟨g, hg, hactive⟩
      obtain ⟨id, hid, hg⟩ := List.mem_filterMap.mp hg
      obtain ⟨g', hg', hrecipient⟩ := (mem_recipientGrants h).mp hid
      obtain rfl := Option.some.inj (hg.symm.trans hg')
      exact ⟨id, g, hg, hrecipient, (undepleted_iff (wellFormed_of_reachable h hg)
        (accounted_inRange_of_reachable h hg)).mp hactive⟩
    · intro ⟨id, g, hg, hrecipient, hactive⟩
      have hid := (mem_recipientGrants h).mpr ⟨g, hg, hrecipient⟩
      exact ⟨g, List.mem_filterMap.mpr ⟨id, hid, hg⟩, (undepleted_iff (wellFormed_of_reachable h hg)
        (accounted_inRange_of_reachable h hg)).mpr hactive⟩

/-- A grant changes hands back and forth, and another one is purged and created again. -/
theorem grant_index_of_moved_grants :
    let run := history Demo.env (Demo.setUp 1000 ++
      [Demo.call 1 (.createGrant 7 Demo.grantee 1000 1 0 none none),
        Demo.call 1 (.createGrant 8 Demo.grantee 100 0 0 none none),
        Demo.call 11 (.changeGrantee 7 Demo.donor), Demo.call 12 (.changeGrantee 7 Demo.grantee),
        Demo.call 13 (.changeGrantee 7 Demo.donor), Demo.call 14 (.cancelGrant 8),
        Demo.call 15 (.finalizeAndPurge 8 Demo.oracle),
        Demo.call 16 (.createGrant 8 Demo.oracle 50 1 0 none none)])
    run.2.Indexed ∧ run.2.grantIds = [7, 8] ∧ isActiveGrantee run.2 Demo.donor = true ∧
      isActiveGrantee run.2 Demo.grantee = false := by
  intro run
  have hrun : Reachable run.1 run.2 := history_reachable Demo.env_deployed (by decide)
  exact ⟨@grant_index _ _ hrun, by decide, by decide, by decide⟩

end YieldTrust.GrantStream
