import YieldTrust.GrantStream.ActionHistory

/-!
# YieldTrust.GrantStream.ProtectedClawback

`execute_protected_clawback(action_id, grant_id)` executes an action and cancels
a grant. Which action was reviewed and which grant is cancelled are independent
arguments: the action is never compared with the grant.
-/

namespace YieldTrust.GrantStream

open SecurityCouncil

/-- The step `e` after `older` executed `a` as a reviewed clawback of `g`: the
action was created for it 48 hours before, is pending, and was not used since. -/
def Reviewed (a g : Nat) (older : Trace) (e : Run.Step Env Event) : Prop :=
  ∃ action c initiator parameters, e.before.council.pendingAction a = some action ∧
    action.status = .pending ∧ creation a older = some c ∧
    councilOp c = some (.create .clawback (some g) initiator parameters) ∧
    c.action.timestamp + timelockDurationSecs ≤ e.action.timestamp ∧
    ∀ e' ∈ sinceCreated a older, executes a e' = false

/-- The council vetoed every clawback of `g`. -/
def AllVetoed (g : Nat) (c : CouncilState) : Prop :=
  ∀ id action, c.pendingAction id = some action → action.actionType = .clawback →
    action.targetGrantId = some g → action.status = .vetoed

/-- The action `a` is a clawback of `g`. -/
def Targets (a g : Nat) (c : CouncilState) : Prop :=
  ∃ action, c.pendingAction a = some action ∧ action.actionType = .clawback ∧
    action.targetGrantId = some g

/-- **Protected clawback.** What is cancelled by `execute_protected_clawback(a, g)`
was reviewed, so that vetoing every clawback of `g` protects it, exactly when `a`
is a clawback of `g`. The timelock and the single use are always checked. -/
theorem protected_clawback_reviewed {older : Trace} {env : Env} {e : Run.Step Env Event}
    (h : Reachable (e :: older) env) {a g : Nat}
    (hcall : called e = some (.executeProtectedClawback a g)) :
    (Reviewed a g older e ∧ ¬AllVetoed g e.before.council) ↔ Targets a g e.before.council := by
  have hexecute : executes a e = true := by simp [executes, councilOp, hcall, Call.councilOp?]
  obtain ⟨action, haction, hpending, htime, hrecord⟩ := pending_of_executes h hexecute
  obtain ⟨c, hc, hcreated, hop⟩ := hrecord.created
  constructor
  · rintro ⟨⟨_, c', _, _, -, -, hc', hop', -, -⟩, -⟩
    -- the stored terms are those of the creation
    obtain rfl := Option.some.inj (hc.symm.trans hc')
    rw [hop] at hop'
    obtain ⟨htype, htarget, -, -⟩ := CouncilOp.create.inj (Option.some.inj hop')
    exact ⟨action, haction, htype, htarget⟩
  · rintro ⟨action', haction', htype, htarget⟩
    obtain rfl := Option.some.inj (haction.symm.trans haction')
    rw [htype, htarget] at hop
    refine ⟨⟨action, c, _, _, haction, hpending, hc, hop, ?_, fun e' he' => ?_⟩, fun hall => ?_⟩
    · rw [← hcreated, ← hrecord.executableAt]
      exact htime
    · have hcount := hrecord.executions
      rw [if_neg (by simp [hpending])] at hcount
      exact Bool.eq_false_iff.mpr (List.countP_eq_zero.mp hcount e' he')
    · have hvetoed := hall a action haction htype htarget
      simp [hpending] at hvetoed

namespace Demo

/-- A council that reviews the clawback of grant 7. -/
def underReview : List Event := Demo.setUp 1000 ++
  [call 1 (.initializeSecurityCouncil council),
    call 1 (.createGrant 7 grantee 1000 1 0 none none), call 11 (.protectedClawback 7 admin)]

end Demo

/-- Nobody vetoes the clawback. -/
theorem protected_clawback_reviewed_of_unvetoed :
    let run := history Demo.env (Demo.underReview ++
      [Demo.call 200000 (.executeProtectedClawback 1 7)])
    ∃ e older, run.1 = e :: older ∧ Reviewed 1 7 older e ∧ ¬AllVetoed 7 e.before.council := by
  intro run
  have hrun : Reachable run.1 run.2 := history_reachable Demo.env_deployed (by decide)
  exact ⟨_, _, rfl, (@protected_clawback_reviewed _ _ _ hrun 1 7 rfl).mpr ⟨_, rfl, rfl, rfl⟩⟩

/-- The clawback is vetoed, and the grant is cancelled through an emergency pause. -/
theorem protected_clawback_reviewed_other_action :
    ¬∀ older env e a g, Reachable (e :: older) env →
      called e = some (.executeProtectedClawback a g) →
      Reviewed a g older e ∧ ¬AllVetoed g e.before.council := by
  intro h
  let run := history Demo.env (Demo.underReview ++
    [Demo.call 21 (.councilSignVeto 1 Demo.oracle), Demo.call 22 (.councilSignVeto 1 Demo.grantee),
      Demo.call 23 (.councilSignVeto 1 Demo.donor),
      Demo.call 31 (.createTimelockedAction .emergencyPause none Demo.admin []),
      Demo.call 200000 (.executeProtectedClawback 2 7)])
  have hrun : Reachable run.1 run.2 := history_reachable Demo.env_deployed (by decide)
  obtain ⟨⟨_, c, _, _, -, -, hc, hop, -, -⟩, -⟩ := h _ _ _ 2 7 hrun rfl
  have hpause : (creation 2 run.1.tail).bind councilOp =
      some (.create .emergencyPause none Demo.admin []) := by decide
  have hclawback : (creation 2 run.1.tail).bind councilOp = _ :=
    (congrArg (Option.bind · councilOp) hc).trans hop
  cases hpause.symm.trans hclawback

end YieldTrust.GrantStream
