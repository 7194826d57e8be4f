import YieldTrust.DoubleApproval.Requests

/-!
# YieldTrust.DoubleApproval.Safety

Double approval **over a run**. What is paid was approved, in these terms, by two approvers, who
approved it in time. It is paid once, and keeps its terms, as long as no request is created over
one that was executed, or approved in other terms.
-/

namespace YieldTrust.DoubleApproval

open Fallible
open GrantStream (Address Bytes)

variable {env : Env} {call : Call} {key : Nat × Nat} {e : Step} {trace older : Trace}

/-- The step pays what two approvers have approved. -/
def Paid (key : Nat × Nat) (e : Step) (older : Trace) : Prop :=
  ∃ request first second, e.before.store.requests key = some request ∧
    e.after.tokens.log = [request.payment e.before.self] ∧
    request.firstApprover = some first ∧ request.secondApprover = some second ∧
    first ≠ second ∧ Approved key older request first ∧ Approved key older request second

/-- An approver has approved the request, and it is neither paid nor cancelled. -/
def DoubleApprovalRequest.Approving (request : DoubleApprovalRequest) : Prop :=
  request.status = .firstApproved ∨ request.status = .fullyApproved

instance (request : DoubleApprovalRequest) : Decidable request.Approving :=
  inferInstanceAs (Decidable (_ ∨ _))

/-- What the claim of a double approval comes to for a step. -/
structure DoubleApprovalSafe (e : Step) (older : Trace) : Prop where
  paid : ∀ key, action key e = some .executed → Paid key e older
  silent : (∀ key, action key e ≠ some .executed) → Ledger.called contract e ≠ none →
    e.after.tokens.log = []
  once : ∀ key, action key e = some .executed → ∀ e' ∈ older, action key e' ≠ some .executed
  kept : ∀ key request, e.before.store.requests key = some request →
    request.status = .executed ∨ request.Approving →
    ∃ request', e.after.store.requests key = some request' ∧ request'.terms = request.terms

/-- A request is not created over one that was executed, or approved in other terms. -/
def Call.KeepsTerms (env : Env) : Call → Prop
  | .createRequest grantId milestoneIndex amount recipient tokenAddress _ =>
      ∀ request ∈ env.store.requests (grantId, milestoneIndex), request.status ≠ .executed ∧
        (request.Approving → request.terms = ⟨amount, recipient, tokenAddress⟩)
  | _ => True

instance decidableKeepsTerms (env : Env) : (call : Call) → Decidable (call.KeepsTerms env)
  | .createRequest grantId milestoneIndex amount recipient tokenAddress _ =>
      inferInstanceAs (Decidable (∀ request ∈ env.store.requests (grantId, milestoneIndex),
        request.status ≠ .executed ∧
          (request.Approving → request.terms = ⟨amount, recipient, tokenAddress⟩)))
  | .initializeConfig .. | .updateConfig .. | .approveRequest .. | .executeRequest ..
  | .cancelRequest .. => inferInstanceAs (Decidable True)

/-- The call of the step, if it goes through, creates no request over such a one. -/
def KeepsTerms (e : Step) : Prop :=
  ∀ call ∈ Ledger.called contract e, call.KeepsTerms (e.before.enter e.action)

instance (e : Step) : Decidable (KeepsTerms e) :=
  inferInstanceAs (Decidable (∀ call ∈ Ledger.called contract e, _))

theorem keepsTerms_created (h : KeepsTerms e) {terms : Terms}
    (ha : action key e = some (.created terms)) {request : DoubleApprovalRequest}
    (hfind : e.before.store.requests key = some request) :
    request.status ≠ .executed ∧ (request.Approving → request.terms = terms) := by
  obtain ⟨⟨key', a⟩, hacts, hkey⟩ := Option.bind_eq_some_iff.mp ha
  obtain ⟨call, hcalled, hacts⟩ := Option.bind_eq_some_iff.mp hacts
  have hkept := h call hcalled
  dsimp only at hkey
  split at hkey
  · case isTrue heq =>
    cases hkey
    subst heq
    cases call with
    | createRequest grantId milestoneIndex amount recipient tokenAddress reason =>
        cases hacts
        exact hkept request hfind
    | initializeConfig | updateConfig | approveRequest | executeRequest | cancelRequest =>
        cases hacts
  · cases hkey

/-- What was executed is stored as executed. -/
def Final (key : Nat × Nat) (trace : Trace) (x : Option DoubleApprovalRequest) : Prop :=
  ∀ e ∈ trace, action key e = some .executed → ∃ request, x = some request ∧
    request.status = .executed

/-- What is stored as something else was not executed. -/
theorem Final.not_executed {x : Option DoubleApprovalRequest} (h : Final key older x)
    (hx : ∀ request, x = some request → request.status ≠ .executed) :
    ∀ e ∈ older, action key e ≠ some .executed := by
  intro e he hexecuted
  obtain ⟨request, hfind, hstatus⟩ := h e he hexecuted
  exact hx request hfind hstatus

/-- Only what is fully approved is executed. -/
theorem RequestStep.status_of_executed {x x' : Option DoubleApprovalRequest} {now : Nat}
    (h : RequestStep now .executed x x') {request : DoubleApprovalRequest}
    (hx : x = some request) : request.status = .fullyApproved := by
  cases h with
  | executed _ _ hstatus =>
      cases hx
      exact hstatus

/-- **Step lemma**, by cases on what happens to the request. -/
theorem Final.step {x x' : Option DoubleApprovalRequest} {a : Action} {now : Nat}
    (h : Final key older x) (ha : action key e = some a) (hstep : RequestStep now a x x')
    (hcreated : ∀ terms, a = .created terms → ∀ request, x = some request →
      request.status ≠ .executed) : Final key (e :: older) x' := by
  -- nothing was executed before: the new step does not execute either
  have hnever (hother : a ≠ .executed)
      (hx : ∀ request, x = some request → request.status ≠ .executed) :
      Final key (e :: older) x' := by
    intro e' he' hexecuted
    rcases List.mem_cons.mp he' with rfl | he'
    · exact absurd (Option.some.inj (ha.symm.trans hexecuted)) hother
    · exact absurd hexecuted (h.not_executed hx e' he')
  have hopen {request : DoubleApprovalRequest}
      (hstatus : request.status = .pending ∨ request.status = .firstApproved) :
      ∀ r, some request = some r → r.status ≠ .executed := by
    rintro _ ⟨⟩ hexecuted
    rcases hstatus with hstatus | hstatus <;> cases hstatus.symm.trans hexecuted
  cases hstep with
  | created _ request terms => exact hnever (by simp) (hcreated terms rfl)
  | firstApproved request approver _ hstatus => exact hnever (by simp) (hopen hstatus)
  | secondApproved request first approver _ hstatus => exact hnever (by simp) (hopen hstatus)
  | cancelled request hstatus => exact hnever (by simp) (hopen hstatus)
  | executed request => exact fun _ _ _ => ⟨_, rfl, rfl⟩

theorem final_of_reachable (h : Ledger.Reachable contract trace env)
    (hkept : Run.Each (fun e _ => KeepsTerms e) trace) (key : Nat × Nat) :
    Final key trace (env.store.requests key) := by
  induction h with
  | start => exact fun _ he => by cases he
  | @step older before event after hrun hn ih =>
      have hold := ih hkept.2
      rcases requestStep_of_next (e := ⟨before, event, after⟩) hn key with
        ⟨hidle, hsame⟩ | ⟨a, ha, hstep⟩
      · intro e' he' hexecuted
        dsimp only at hsame
        rw [hsame]
        rcases List.mem_cons.mp he' with rfl | he'
        · cases hidle.symm.trans hexecuted
        · exact hold e' he' hexecuted
      · refine hold.step ha hstep fun terms hterms request hfind => ?_
        exact (keepsTerms_created hkept.1 (hterms ▸ ha) hfind).1

/-- An execution pays what two approvers have approved. -/
theorem paid_of_next (hlog : RequestLog key older (e.before.store.requests key))
    (hn : Ledger.Next contract e.before e.action e.after) (ha : action key e = some .executed) :
    Paid key e older := by
  rcases leaves_of_next hn with ⟨hnone, -⟩ | ⟨call, moved, hcalled, hmoved, heffect⟩
  · simp [action, hnone] at ha
  · generalize e.after.store = store' at heffect
    cases heffect with
    | configured config hcall => simp [action, hcalled, hcall] at ha
    | stepped key' a request' hcall hne =>
        rw [action_of_called hcalled hcall] at ha
        split at ha
        · exact absurd (Option.some.inj ha) hne
        · cases ha
    | paid key' request request' hcall hfind hstep =>
        rw [action_of_called hcalled hcall] at ha
        split at ha
        · case isTrue hkey =>
          subst hkey
          dsimp only [Ledger.Env.enter] at hfind
          cases hstep with
          | executed _ hopen hstatus =>
              obtain ⟨second, hsecond⟩ :=
                Option.ne_none_iff_exists'.mp (hlog.full request hfind hstatus)
              obtain ⟨⟨first, hfirst, hne⟩, happroved⟩ :=
                hlog.second request second hfind hsecond
              exact ⟨request, first, second, hfind, hmoved, hfirst, hsecond, hne,
                hlog.first request first hfind hfirst, happroved⟩
        · cases ha

/-- Nothing else pays. -/
theorem silent_of_next (hn : Ledger.Next contract e.before e.action e.after)
    (hother : ∀ key, action key e ≠ some .executed) (hcalled : Ledger.called contract e ≠ none) :
    e.after.tokens.log = [] := by
  rcases leaves_of_next hn with ⟨hnone, -⟩ | ⟨call, moved, hcall, hmoved, heffect⟩
  · exact absurd hnone hcalled
  · rw [hmoved]
    generalize e.after.store = store' at heffect
    cases heffect with
    | configured | stepped => rfl
    | paid key' request request' hacts =>
        refine absurd ?_ (hother key')
        rw [action_of_called hcall hacts, if_pos rfl]

/-- A request keeps its terms, if it is not created anew with other ones. -/
theorem terms_kept {x x' : Option DoubleApprovalRequest} {a : Action} {now : Nat}
    (hstep : RequestStep now a x x') {request : DoubleApprovalRequest} (hx : x = some request)
    (hcreated : ∀ terms, a = .created terms → request.terms = terms) :
    ∃ request', x' = some request' ∧ request'.terms = request.terms := by
  cases hstep with
  | created _ new terms hterms => exact ⟨new, rfl, hterms.trans (hcreated terms rfl).symm⟩
  | firstApproved | secondApproved | executed | cancelled =>
      cases hx
      exact ⟨_, rfl, rfl⟩

/-- **Double approval.** In every run, if no request is created over one that was executed, or
approved in other terms, every request is paid at most once, in the terms that two approvers have
approved in time, and keeps its terms from the first approval on. -/
theorem double_approval_safe (h : Ledger.Reachable contract trace env)
    (hkept : Run.Each (fun e _ => KeepsTerms e) trace) : Run.Each DoubleApprovalSafe trace := by
  refine Run.each_imp h hkept fun hrun hkept => ?_
  obtain ⟨hrun, hn, -⟩ := hrun.uncons
  refine ⟨fun key ha => paid_of_next (requestLog_of_reachable hrun key) hn ha,
    fun hother hcalled => silent_of_next hn hother hcalled, fun key ha e' he' hexecuted => ?_,
    fun key request hfind hstatus => ?_⟩
  · obtain ⟨stored, hstored, hfinal⟩ :=
      final_of_reachable hrun hkept.2 key e' he' hexecuted
    rcases requestStep_of_next hn key with ⟨hidle, -⟩ | ⟨a, ha', hstep⟩
    · cases hidle.symm.trans ha
    · cases ha.symm.trans ha'
      exact absurd (hstep.status_of_executed hstored) (by simp [hfinal])
  · rcases requestStep_of_next hn key with ⟨-, hsame⟩ | ⟨a, ha, hstep⟩
    · exact ⟨request, hsame.trans hfind, rfl⟩
    · refine terms_kept hstep hfind fun terms hterms => ?_
      obtain ⟨hne, hsame⟩ := keepsTerms_created hkept.1 (hterms ▸ ha) hfind
      exact hsame (hstatus.resolve_left hne)

/-- A request is created, approved twice, and paid. -/
theorem double_approval_safe_of_one_request :
    let run := Ledger.history contract Demo.env
      [Demo.call 0 (.initializeConfig Demo.admin Demo.oracle (some 5) none),
        Demo.call 1 (.createRequest 1 0 10 Demo.recipient Demo.token none),
        Demo.call 2 (.approveRequest 1 0 Demo.admin), Demo.call 3 (.approveRequest 1 0 Demo.oracle),
        Demo.call 4 (.executeRequest 1 0 Demo.admin)]
    (∃ e ∈ run.1, action (1, 0) e = some .executed) ∧ Run.Each DoubleApprovalSafe run.1 := by
  intro run
  have hrun : Ledger.Reachable contract run.1 run.2 :=
    Ledger.history_reachable contract ⟨_, _, rfl⟩ (by decide)
  exact ⟨by decide, double_approval_safe hrun (by decide)⟩

/-- A milestone is paid, requested again, approved again, and paid again. -/
theorem double_approval_safe_paid_twice :
    ¬∀ trace env, Ledger.Reachable contract trace env → Run.Each DoubleApprovalSafe trace := by
  intro h
  let run := Ledger.history contract Demo.env
    [Demo.call 0 (.initializeConfig Demo.admin Demo.oracle (some 5) none),
      Demo.call 1 (.createRequest 1 0 10 Demo.recipient Demo.token none),
      Demo.call 2 (.approveRequest 1 0 Demo.admin), Demo.call 3 (.approveRequest 1 0 Demo.oracle),
      Demo.call 4 (.executeRequest 1 0 Demo.admin),
      Demo.call 5 (.createRequest 1 0 10 Demo.recipient Demo.token none),
      Demo.call 6 (.approveRequest 1 0 Demo.admin), Demo.call 7 (.approveRequest 1 0 Demo.oracle),
      Demo.call 8 (.executeRequest 1 0 Demo.admin)]
  have hrun : Ledger.Reachable contract run.1 run.2 :=
    Ledger.history_reachable contract ⟨_, _, rfl⟩ (by decide)
  have honce := (h _ _ hrun).1.once (1, 0) (by decide)
  exact absurd honce (by decide)

end YieldTrust.DoubleApproval
