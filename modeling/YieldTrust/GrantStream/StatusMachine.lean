import YieldTrust.GrantStream.History

/-!
# YieldTrust.GrantStream.StatusMachine

The states of a grant. `StatusChange` is the documented state machine, and
`status_machine` says exactly which steps of a run follow it: the guards of
`cancel_grant` and of the two withdrawals were written as lists of forbidden
statuses and do not list `Clawbacked`.
-/

namespace YieldTrust.GrantStream

/-- The changes of status that the operation `op` (none, if the step did
something else) may make. -/
inductive StatusChange (op : Option GrantOp) : GrantStatus → GrantStatus → Prop
  | same (status : GrantStatus) : StatusChange op status status
  | pause : StatusChange op .active .paused
  | resume : StatusChange op .paused .active
  | complete {status : GrantStatus} (h : status = .active ∨ status = .paused) :
      StatusChange op status .completed
  | cancel {status : GrantStatus} (h : status = .active ∨ status = .paused) :
      StatusChange op status .cancelled
  | rageQuit : StatusChange op .paused .rageQuitted
  | clawback {status : GrantStatus} (h : status = .active ∨ status = .paused) :
      StatusChange op status .clawbacked
  | resolve (h : op = some (.resolve false)) : StatusChange op .clawbacked .active

namespace StatusChange

variable {op : Option GrantOp} {status status' : GrantStatus}

/-- Completed, cancelled and rage-quitted grants stay what they are. -/
theorem terminal (h : StatusChange op status status')
    (hterminal : status = .completed ∨ status = .cancelled ∨ status = .rageQuitted) :
    status' = status := by
  cases h with
  | same => rfl
  | pause | resume | rageQuit | resolve => simp at hterminal
  | complete h | cancel h | clawback h => rcases h with rfl | rfl <;> simp at hterminal

/-- A clawback is only undone by the resolution of the dispute. -/
theorem of_clawbacked (h : StatusChange op .clawbacked status') :
    status' = .clawbacked ∨ op = some (.resolve false) ∧ status' = .active := by
  cases h with
  | same => exact .inl rfl
  | resolve h => exact .inr ⟨h, rfl⟩
  | complete h | cancel h | clawback h => simp at h

end StatusChange

/-! ### Steps that leave the machine -/

/-- The operation takes a clawbacked grant out of its status: it is cancelled, or
a withdrawal settles it and finds it accounted for in full. -/
def GrantOp.undoesClawback (op : GrantOp) (grant : Grant) (now : Nat) : Prop :=
  grant.status = .clawbacked ∧
    match op with
    | .cancel => True
    | .withdraw _ | .withdrawValidator _ =>
        now ≠ grant.lastUpdateTs ∧ grant.totalAmount ≤ grant.accounted
    | _ => False

/-- The only way out of a status by settling is completion. -/
theorem Settles.statusChange {grant s : Grant} {now : Nat} (hs : Settles grant now s)
    (hopen : grant.status = .active ∨ grant.status = .paused) (op : Option GrantOp) :
    StatusChange op grant.status s.status := by
  rw [hs.eq_settled, Grant.settled_status]
  split_ifs
  · exact .complete hopen
  · exact .same _

theorem Grant.completes_of_clawbacked {grant : Grant} (h : grant.status = .clawbacked) (now : Nat) :
    grant.completes now ↔ now ≠ grant.lastUpdateTs ∧ grant.totalAmount ≤ grant.accounted := by
  have hna : grant.status ≠ .active := by
    rw [h]
    decide
  unfold completes
  rw [dueAccrual_of_not_active hna, add_zero]
  simp [hna]

/-- A withdrawal only settles, as far as the status goes. -/
theorem Settles.statusChange_iff {grant s : Grant} {now : Nat} (hs : Settles grant now s)
    (hstatus : grant.status ≠ .cancelled ∧ grant.status ≠ .rageQuitted) {op : Option GrantOp}
    (hop : op ≠ some (.resolve false)) :
    StatusChange op grant.status s.status ↔
      ¬(grant.status = .clawbacked ∧ now ≠ grant.lastUpdateTs ∧
        grant.totalAmount ≤ grant.accounted) := by
  have hchange := hs.statusChange
  rw [hs.eq_settled, Grant.settled_status] at hchange ⊢
  cases hst : grant.status with
  | active | paused =>
      rw [hst] at hchange
      simpa using hchange (by simp) op
  | completed => simpa using StatusChange.same GrantStatus.completed
  | cancelled => exact absurd hst hstatus.1
  | rageQuitted => exact absurd hst hstatus.2
  | clawbacked =>
      -- nothing accrues, but the settlement still looks for completion
      have hi := Grant.completes_of_clawbacked hst now
      by_cases hd : grant.completes now
      · rw [if_pos hd]
        refine ⟨fun h => ?_, fun h => absurd ⟨rfl, hi.mp hd⟩ h⟩
        rcases h.of_clawbacked with h | ⟨h, -⟩
        · cases h
        · exact absurd h hop
      · rw [if_neg hd]
        exact ⟨fun _ h => hd (hi.mpr h.2), fun _ => .same _⟩

/-- **One step of the state machine.** -/
theorem GrantStep.statusChange_iff {now : Nat} {treasury : Option Address} {op : GrantOp}
    {a a' : Account} {payments : List Payment} (hstep : GrantStep now treasury op a a' payments) :
    StatusChange (some op) a.grant.status a'.grant.status ↔ ¬op.undoesClawback a.grant now := by
  have hnot {g : Grant} (hopen : g.status = .active ∨ g.status = .paused) :
      ¬op.undoesClawback g now := by
    intro h
    rcases hopen with hst | hst <;> cases hst.symm.trans h.1
  cases hstep with
  | withdraw hs _ hstatus _ _ _ hm | withdrawValidator hs _ hstatus _ _ hm =>
      subst hm
      exact hs.statusChange_iff hstatus (by simp)
  | pause hs hstatus hm =>
      subst hm
      rw [hstatus]
      exact ⟨fun _ => hnot (.inl hstatus), fun _ => .pause⟩
  | resume hstatus hm =>
      subst hm
      rw [hstatus]
      exact ⟨fun _ => hnot (.inr hstatus), fun _ => .resume⟩
  | proposeIncrease hs hstatus _ _ hm | proposeDecrease hs hstatus _ _ hm
  | applyKpi hs hstatus _ hm =>
      subst hm
      exact ⟨fun _ => hnot (.inl hstatus), fun _ => hs.statusChange (.inl hstatus) _⟩
  | rageQuit _ hstatus _ hm =>
      subst hm
      rw [hstatus]
      exact ⟨fun _ => hnot (.inr hstatus), fun _ => .rageQuit⟩
  | @cancel g _ _ _ _ _ hstatus _ hm =>
      subst hm
      dsimp only
      cases hst : g.status with
      | active => exact ⟨fun _ => hnot (.inl hst), fun _ => .cancel (.inl rfl)⟩
      | paused => exact ⟨fun _ => hnot (.inr hst), fun _ => .cancel (.inr rfl)⟩
      | completed => exact absurd hst hstatus.1
      | rageQuitted => exact absurd hst hstatus.2
      | cancelled => exact ⟨fun _ h => absurd (hst.symm.trans h.1) (by decide), fun _ => .same _⟩
      | clawbacked =>
          -- cancelling does not look for a clawback
          refine ⟨fun h => ?_, fun h => absurd ⟨hst, trivial⟩ h⟩
          rcases h.of_clawbacked with h | ⟨-, h⟩ <;> cases h
  | clawbackNothing _ hstatus _ hm | clawbackContested _ hstatus _ hm
  | clawbackToDonor _ hstatus _ _ hm =>
      subst hm
      exact ⟨fun _ => hnot hstatus, fun _ => .clawback hstatus⟩
  | changeGrantee _ _ hm | setLegal hm | signLegal _ hm =>
      subst hm
      exact ⟨fun _ h => h.2, fun _ => .same _⟩
  | resolveToDonor => exact ⟨fun _ h => h.2, fun _ => .same _⟩
  | resolveToGrantee hstatus _ _ _ hm =>
      subst hm
      dsimp only
      rw [hstatus]
      exact ⟨fun _ h => h.2, fun _ => .resolve rfl⟩

/-- **Status state machine.** A step of a run changes the status of a grant
according to the machine exactly if it does not undo a clawback. -/
theorem status_machine {trace : Trace} {env : Env} (h : Reachable trace env)
    {e : Run.Step Env Event} (he : e ∈ trace) {grantId : Nat} {g g' : Grant}
    (hg : e.before.grants grantId = some g) (hg' : e.after.grants grantId = some g') :
    StatusChange (performed grantId e) g.status g'.status ↔
      AtOp grantId e fun op g => ¬op.undoesClawback g e.action.timestamp := by
  obtain ⟨older, -, hnext⟩ := Run.of_mem h he
  unfold AtOp
  rw [hg]
  cases accountEffect_of_next hnext grantId with
  | idle hop hgrant _ =>
      obtain rfl : g' = g := Option.some.inj (hg'.symm.trans (hgrant.trans hg))
      rw [hop]
      exact ⟨fun _ => trivial, fun _ => .same _⟩
  | opened _ _ hnone => cases hnone.symm.trans hg
  | operated hop hbefore hstep hgrant =>
      cases hbefore.symm.trans hg
      cases hgrant.symm.trans hg'
      rw [hop]
      exact hstep.statusChange_iff
  | closed _ _ _ _ hnone => cases hnone.symm.trans hg'

/-- The first step of a run that pauses a new grant. -/
theorem status_machine_of_pause :
    let run := history Demo.env (Demo.setUp 1000 ++
      [Demo.call 1 (.createGrant 7 Demo.grantee 1000 1 0 none none),
        Demo.call 11 (.pauseStream 7 none)])
    ∃ e g g', e ∈ run.1 ∧ e.before.grants 7 = some g ∧ e.after.grants 7 = some g' ∧
      StatusChange (performed 7 e) g.status g'.status := by
  intro run
  have hrun : Reachable run.1 run.2 := history_reachable Demo.env_deployed (by decide)
  refine ⟨_, _, _, List.mem_cons_self .., rfl, rfl, ?_⟩
  refine (@status_machine _ _ hrun _ (List.mem_cons_self ..) 7 _ _ rfl rfl).mpr ?_
  exact fun h => by cases h.1

/-- A grant that is clawed back and then cancelled. -/
theorem status_machine_clawback_cancelled :
    ¬∀ trace env e grantId g g', Reachable trace env → e ∈ trace →
      e.before.grants grantId = some g → e.after.grants grantId = some g' →
      StatusChange (performed grantId e) g.status g'.status := by
  intro h
  let run := history Demo.env (Demo.setUp 2000 ++
    [Demo.call 1 (.createGrant 7 Demo.grantee 1000 1 0 none (some Demo.donor)),
      Demo.call 11 (.triggerGrantClawback 7 "fraud" false), Demo.call 21 (.cancelGrant 7)])
  have hrun : Reachable run.1 run.2 := history_reachable Demo.env_deployed (by decide)
  have hchange := h run.1 run.2 _ 7 _ _ hrun (List.mem_cons_self ..) rfl rfl
  have hcancelled : StatusChange (some .cancel) .clawbacked .cancelled := hchange
  rcases hcancelled.of_clawbacked with h | ⟨-, h⟩ <;> cases h

end YieldTrust.GrantStream
