import YieldTrust.GrantStream.GrantIndex
import YieldTrust.GrantStream.Tombstones

/-!
# YieldTrust.GrantStream.Deletion

What deleting a grant leaves behind. `finalize_and_purge` removes the record and
the list entries and nothing else. `prune_finalized_grant` also removes the
milestones below the nonce and the two counters, but neither the deposits nor
the escrow, and it looks for the claim values in the wrong storage. If nothing
is left, the id is as good as new.
-/

namespace YieldTrust.GrantStream

open Fallible

/-- The call deletes the grant `g`. -/
def Call.deletes (g : Nat) : Call → Bool
  | .finalizeAndPurge grantId _ | .pruneFinalizedGrant grantId _ => grantId = g
  | _ => false

/-- Nothing is stored under `g`, except for tombstones and confidential grants,
and no list contains it. -/
structure NothingLeft (g : Nat) (env : Env) : Prop where
  grant : env.grants g = none
  escrow : env.disputeEscrow g = none
  checkpoint : env.clawbackCheckpoint g = none
  claimCounter : env.claimValueCounter g = none
  claimValues : ∀ index, env.claimValue g index = none
  nonce : env.milestoneSubmitNonce g = none
  milestones : ∀ index, env.milestone g index = none
  deposits : ∀ index, env.milestoneSubmissionDeposit g index = none
  unlisted : g ∉ env.grantIds ∧ ∀ a, g ∉ env.recipientGrants a

/-- The environment in which the id `g` was never used for a grant. -/
def Env.forget (env : Env) (g : Nat) : Env :=
  { env with
    grants := Function.update env.grants g none
    disputeEscrow := Function.update env.disputeEscrow g none
    clawbackCheckpoint := Function.update env.clawbackCheckpoint g none
    claimValueCounter := Function.update env.claimValueCounter g none
    claimValue := Function.update env.claimValue g fun _ => none
    milestoneSubmitNonce := Function.update env.milestoneSubmitNonce g none
    milestone := Function.update env.milestone g fun _ => none
    milestoneSubmissionDeposit := Function.update env.milestoneSubmissionDeposit g fun _ => none
    tombstone := Function.update env.tombstone g none
    grantIds := env.grantIds.filter (· ≠ g)
    recipientGrants := fun a => (env.recipientGrants a).filter (· ≠ g) }

/-- After any events, every call ends as if `g` had never been used. -/
def SameAsUnused (g : Nat) (env : Env) : Prop :=
  ∀ (events : List Event) (event : Event) (call : Call),
    Alike SameButTombstones (call.exec ((history env events).2.enter event))
      (call.exec ((history (env.forget g) events).2.enter event))

theorem filter_ne_of_notMem {ids : List Nat} {g : Nat} (h : g ∉ ids) :
    ids.filter (· ≠ g) = ids := by
  refine List.filter_eq_self.mpr fun id hid => decide_eq_true ?_
  rintro rfl
  exact h hid

/-- Forgetting an id of which nothing is left only removes the tombstone. -/
theorem NothingLeft.forget_eq {g : Nat} {env : Env} (h : NothingLeft g env) :
    env.forget g = env.withTombstones (Function.update env.tombstone g none) := by
  have hrecipients : (fun a => (env.recipientGrants a).filter (· ≠ g)) = env.recipientGrants :=
    funext fun a => filter_ne_of_notMem (h.unlisted.2 a)
  unfold Env.forget Env.withTombstones
  rw [filter_ne_of_notMem h.unlisted.1, hrecipients,
    Function.update_eq_self_iff.mpr h.grant.symm, Function.update_eq_self_iff.mpr h.escrow.symm,
    Function.update_eq_self_iff.mpr h.checkpoint.symm,
    Function.update_eq_self_iff.mpr h.claimCounter.symm,
    Function.update_eq_self_iff.mpr (funext h.claimValues).symm,
    Function.update_eq_self_iff.mpr h.nonce.symm,
    Function.update_eq_self_iff.mpr (funext h.milestones).symm,
    Function.update_eq_self_iff.mpr (funext h.deposits).symm]

theorem NothingLeft.sameAsUnused {g : Nat} {env : Env} (h : NothingLeft g env) :
    SameAsUnused g env := by
  intro events event call
  rw [h.forget_eq]
  obtain ⟨t, ht⟩ := history_alike ⟨Function.update env.tombstone g none, rfl⟩ events
  rw [ht, enter_withTombstones]
  exact exec_alike _ t call

/-! ### What the two calls remove -/

/-- None of the entries exists that neither call removes. -/
structure NoLeftovers (g : Nat) (env : Env) : Prop where
  escrow : env.disputeEscrow g = none
  checkpoint : env.clawbackCheckpoint g = none
  claimValues : ∀ index, env.claimValue g index = none
  deposits : ∀ index, env.milestoneSubmissionDeposit g index = none

/-- Before the call there is nothing under `g` that it does not remove. -/
def RemovesAll (g : Nat) (env : Env) (call : Call) : Prop :=
  NoLeftovers g env ∧
    match call with
    | .pruneFinalizedGrant .. => ∀ index, env.milestone g index ≠ none →
        index < (env.milestoneSubmitNonce g).getD 0
    | _ => (∀ index, env.milestone g index = none) ∧ env.milestoneSubmitNonce g = none ∧
        env.claimValueCounter g = none

theorem removesAll_enter {g : Nat} {env : Env} {call : Call} (event : Event) :
    RemovesAll g (env.enter event) call ↔ RemovesAll g env call := by
  constructor
  · rintro ⟨⟨hescrow, hcheckpoint, hvalues, hdeposits⟩, hrest⟩
    exact ⟨⟨hescrow, hcheckpoint, hvalues, hdeposits⟩, hrest⟩
  · rintro ⟨⟨hescrow, hcheckpoint, hvalues, hdeposits⟩, hrest⟩
    exact ⟨⟨hescrow, hcheckpoint, hvalues, hdeposits⟩, hrest⟩

theorem finalizeAndPurge_left {env env' : Env} {g : Nat} {purger : Address}
    (h : finalizeAndPurge env g purger = .ok env') :
    env'.grants g = none ∧ Frame [.grants, .recipientIndex, .tokens] env env' := by
  obtain ⟨_, _, _, _, _, hv⟩ := finalizeAndPurge_vault h
  have hgrant : env'.grants g = none :=
    (congrFun (congrArg Vault.grants hv) g).trans (Function.update_self ..)
  have hexec : Call.exec env (.finalizeAndPurge g purger) = .ok env' := h
  exact ⟨hgrant, frame_of_exec hexec⟩

theorem pruneFinalizedGrant_left {env env' : Env} {g : Nat} {relayer : Address}
    (h : pruneFinalizedGrant env g relayer = .ok env') :
    env'.grants g = none ∧
      env'.claimValueCounter = Function.update env.claimValueCounter g none ∧
      env'.claimValue = env.claimValue ∧
      env'.milestoneSubmitNonce = Function.update env.milestoneSubmitNonce g none ∧
      env'.milestone = Function.update env.milestone g (fun index =>
        if index < (env.milestoneSubmitNonce g).getD 0 then none else env.milestone g index) ∧
      env'.milestoneSubmissionDeposit = env.milestoneSubmissionDeposit := by
  obtain ⟨_, _, _, _, _, hv⟩ := pruneFinalizedGrant_vault h
  have hgrant : env'.grants g = none :=
    (congrFun (congrArg Vault.grants hv) g).trans (Function.update_self ..)
  unfold pruneFinalizedGrant at h
  simp only [bind_eq_ok] at h
  obtain ⟨_, -, _, -, _, -, _, -, _, -, _, -, _, -, h⟩ := h
  have hframe := (deleteGrant_frame ..).comp (payBounty_frame env' h)
  obtain ⟨hmilestone, hnonce, hdeposit⟩ := hframe.same .milestones (by decide)
  obtain ⟨hcounter, hvalue⟩ := hframe.same .claims (by decide)
  simp only [Env.setClaimValueCounter, Env.setSubmitNonce, removeMilestones, Env.setTombstone]
    at hmilestone hnonce hdeposit hcounter hvalue
  exact ⟨hgrant, hcounter, hvalue, hnonce, hmilestone, hdeposit⟩

/-- A grant that exists is gone after a call exactly if the call deletes it. -/
theorem grant_none_iff_of_exec {env env' : Env} {call : Call} (h : call.exec env = .ok env')
    {g : Nat} (hg : env.grants g ≠ none) : env'.grants g = none ↔ call.deletes g = true := by
  have hupdate {v : Vault} (hv : env'.vault = v) : env'.grants g = v.grants g :=
    congrFun (congrArg Vault.grants hv) g
  cases hop : call.grantOp? with
  | some op =>
      obtain ⟨id, op⟩ := op
      obtain ⟨_, a', _, -, -, -, hv⟩ := operates_of_exec h hop
      have hsome : env'.grants g ≠ none := by
        rw [hupdate hv]
        by_cases hid : g = id <;> simp [hid, hg]
      have hkeeps : call.deletes g = false := by
        cases call <;> first | rfl | cases hop
      simp [hsome, hkeeps]
  | none =>
      by_cases hwrites : Region.grants ∈ call.writes
      · cases call <;> simp [Call.writes, Call.grantOp?] at hwrites hop
        case initializeContract =>
          rw [hupdate (initializeContract_vault h).2]
          simp [Env.vault, Call.deletes, hg]
        case createGrant id _ _ _ _ _ _ =>
          obtain ⟨-, -, -, _, _, -, -, hv⟩ := createGrant_vault h
          rw [hupdate hv]
          by_cases hid : g = id <;> simp [hid, hg, Call.deletes]
        case finalizeAndPurge id _ =>
          obtain ⟨_, _, -, -, -, hv⟩ := finalizeAndPurge_vault h
          rw [hupdate hv]
          by_cases hid : g = id <;> simp [hid, hg, Call.deletes, eq_comm]
        case pruneFinalizedGrant id _ =>
          obtain ⟨_, _, -, -, -, hv⟩ := pruneFinalizedGrant_vault h
          rw [hupdate hv]
          by_cases hid : g = id <;> simp [hid, hg, Call.deletes, eq_comm]
      · obtain ⟨hgrants, -⟩ := (frame_of_exec h).same .grants hwrites
        have hkeeps : call.deletes g = false := by
          cases call <;> first | rfl | exact absurd (by simp [Call.writes]) hwrites
        simp [hgrants, hkeeps, hg]

/-! ### What is left -/

/-- A deleted grant is in no list. -/
theorem unlisted_of_reachable {trace : Trace} {env : Env} (h : Reachable trace env) {g : Nat}
    (hnone : env.grants g = none) : g ∉ env.grantIds ∧ ∀ a, g ∉ env.recipientGrants a := by
  refine ⟨fun hmem => ((registered_of_reachable h).mem_iff g).mp hmem hnone, fun a => ?_⟩
  exact (index_of_reachable h).notMem (by simp [Env.grantee, hnone]) a

theorem nothingLeft_of_purge {env env' : Env} {g : Nat} {purger : Address}
    (h : finalizeAndPurge env g purger = .ok env')
    (hunlisted : g ∉ env'.grantIds ∧ ∀ a, g ∉ env'.recipientGrants a) :
    NothingLeft g env' ↔ RemovesAll g env (.finalizeAndPurge g purger) := by
  obtain ⟨hgrant, hframe⟩ := finalizeAndPurge_left h
  have hescrow : env'.disputeEscrow = env.disputeEscrow := hframe.same .escrow (by decide)
  have hcheckpoint : env'.clawbackCheckpoint = env.clawbackCheckpoint :=
    hframe.same .checkpoint (by decide)
  obtain ⟨hmilestone, hnonce, hdeposit⟩ := hframe.same .milestones (by decide)
  obtain ⟨hcounter, hvalue⟩ := hframe.same .claims (by decide)
  constructor
  · intro hleft
    exact ⟨⟨hescrow ▸ hleft.escrow, hcheckpoint ▸ hleft.checkpoint, hvalue ▸ hleft.claimValues,
      hdeposit ▸ hleft.deposits⟩, hmilestone ▸ hleft.milestones, hnonce ▸ hleft.nonce,
      hcounter ▸ hleft.claimCounter⟩
  · rintro ⟨hno, hnoMilestones, hnoNonce, hnoCounter⟩
    exact ⟨hgrant, hescrow ▸ hno.escrow, hcheckpoint ▸ hno.checkpoint, hcounter ▸ hnoCounter,
      hvalue ▸ hno.claimValues, hnonce ▸ hnoNonce, hmilestone ▸ hnoMilestones,
      hdeposit ▸ hno.deposits, hunlisted⟩

theorem nothingLeft_of_prune {env env' : Env} {g : Nat} {relayer : Address}
    (h : pruneFinalizedGrant env g relayer = .ok env')
    (hunlisted : g ∉ env'.grantIds ∧ ∀ a, g ∉ env'.recipientGrants a) :
    NothingLeft g env' ↔ RemovesAll g env (.pruneFinalizedGrant g relayer) := by
  have hexec : Call.exec env (.pruneFinalizedGrant g relayer) = .ok env' := h
  have hframe := frame_of_exec hexec
  have hescrow : env'.disputeEscrow = env.disputeEscrow :=
    hframe.same .escrow (by simp [Call.writes])
  have hcheckpoint : env'.clawbackCheckpoint = env.clawbackCheckpoint :=
    hframe.same .checkpoint (by simp [Call.writes])
  obtain ⟨hgrant, hcounter, hvalue, hnonce, hmilestone, hdeposit⟩ := pruneFinalizedGrant_left h
  constructor
  · intro hleft
    refine ⟨⟨hescrow ▸ hleft.escrow, hcheckpoint ▸ hleft.checkpoint, hvalue ▸ hleft.claimValues,
      hdeposit ▸ hleft.deposits⟩, fun index hsome => ?_⟩
    by_contra hge
    have hremoved := hleft.milestones index
    rw [hmilestone, Function.update_self] at hremoved
    exact hsome ((if_neg hge).symm.trans hremoved)
  · rintro ⟨hno, hbelow⟩
    refine ⟨hgrant, hescrow ▸ hno.escrow, hcheckpoint ▸ hno.checkpoint, ?_,
      hvalue ▸ hno.claimValues, ?_, fun index => ?_, hdeposit ▸ hno.deposits, hunlisted⟩
    · rw [hcounter, Function.update_self]
    · rw [hnonce, Function.update_self]
    rw [hmilestone, Function.update_self]
    split_ifs with hlt
    · rfl
    · by_contra hsome
      exact hlt (hbelow index hsome)

/-- **Deletion.** A call that deletes `g` leaves nothing behind, and the id is as
good as new, exactly if there was nothing that the call does not remove. -/
theorem deleted_grant_leaves_nothing {older : Trace} {env : Env} {e : Run.Step Env Event}
    (h : Reachable (e :: older) env) {g : Nat} {call : Call} (hcall : called e = some call)
    (hdelete : call.deletes g = true) :
    (NothingLeft g e.after ∧ SameAsUnused g e.after) ↔ RemovesAll g e.before call := by
  obtain ⟨-, hn, rfl⟩ := h.uncons
  have hexec := exec_of_called hn hcall
  have hleft : NothingLeft g e.after ↔ RemovesAll g e.before call := by
    rw [← removesAll_enter e.action]
    cases call <;> simp [Call.deletes] at hdelete
    case finalizeAndPurge grantId purger =>
      subst hdelete
      exact nothingLeft_of_purge hexec (unlisted_of_reachable h (finalizeAndPurge_left hexec).1)
    case pruneFinalizedGrant grantId relayer =>
      subst hdelete
      exact nothingLeft_of_prune hexec
        (unlisted_of_reachable h (pruneFinalizedGrant_left hexec).1)
  exact ⟨fun hall => hleft.mp hall.1, fun hall => ⟨hleft.mpr hall, (hleft.mpr hall).sameAsUnused⟩⟩

namespace Demo

/-- The grant 7 is withdrawn from and cancelled. -/
def withdrawnAndCancelled : List Event := Demo.setUp 100000000 ++
  [call 1 (.createGrant 7 grantee 60000000 1000000 0 none none), call 21 (.withdraw 7 20000000),
    call 21 (.cancelGrant 7)]

end Demo

/-- A grant that is cancelled at once leaves nothing. -/
theorem deleted_grant_leaves_nothing_of_unused_grant :
    let run := history Demo.env (Demo.setUp 1000 ++
      [Demo.call 1 (.createGrant 7 Demo.grantee 1000 1 0 none none), Demo.call 1 (.cancelGrant 7),
        Demo.call 20000000 (.pruneFinalizedGrant 7 Demo.admin)])
    ∃ e older, run.1 = e :: older ∧ NothingLeft 7 e.after ∧ SameAsUnused 7 e.after := by
  intro run
  have hrun : Reachable run.1 run.2 := history_reachable Demo.env_deployed (by decide)
  refine ⟨_, _, rfl, (@deleted_grant_leaves_nothing _ _ _ hrun 7
    (.pruneFinalizedGrant 7 Demo.admin) rfl (by decide)).mpr
    ⟨⟨rfl, rfl, fun _ => rfl, fun _ => rfl⟩, fun index hsome => ?_⟩⟩
  exact absurd rfl hsome

/-- The claim value of the withdrawal stays. -/
theorem deleted_grant_leaves_nothing_withdrawn_grant :
    ¬∀ older env e g call, Reachable (e :: older) env → called e = some call →
      call.deletes g = true → NothingLeft g e.after ∧ SameAsUnused g e.after := by
  intro h
  let run := history Demo.env (Demo.withdrawnAndCancelled ++
    [Demo.call 20000000 (.pruneFinalizedGrant 7 Demo.admin)])
  have hrun : Reachable run.1 run.2 := history_reachable Demo.env_deployed (by decide)
  obtain ⟨hleft, -⟩ := h _ _ _ 7 (.pruneFinalizedGrant 7 Demo.admin) hrun rfl
    (by decide)
  have hstays : (run.2.claimValue 7 1).isSome = true := by decide
  rw [show run.2.claimValue 7 1 = none from hleft.claimValues 1] at hstays
  cases hstays

end YieldTrust.GrantStream
