import YieldTrust.DoubleApproval.Contract
import YieldTrust.Lib.PartialMap

/-!
# YieldTrust.DoubleApproval.Requests

The request for a milestone as a **state machine** of its own, and what it says about the history:
its approvers have approved it since it was created, in time.
-/

namespace YieldTrust.DoubleApproval

open Fallible
open GrantStream (Address Bytes)

variable {env env' : Env} {call : Call} {store' : Store} {key : Nat × Nat} {e : Step}
  {trace older : Trace} {request request' : DoubleApprovalRequest} {now : Nat}
  {moved : List (TokenLedger.Transfer Address)}

/-! ### What a call does -/

/-- What is to be paid. -/
structure Terms where
  amount : Int
  recipient : Address
  tokenAddress : Address
  deriving DecidableEq

def DoubleApprovalRequest.terms (request : DoubleApprovalRequest) : Terms :=
  ⟨request.amount, request.recipient, request.tokenAddress⟩

/-- What happens to a request. -/
inductive Action where
  | created (terms : Terms)
  | approved (approver : Address)
  | executed
  | cancelled
  deriving DecidableEq

/-- A request as a state machine of its own, at the time `now`. -/
inductive RequestStep (now : Nat) :
    Action → Option DoubleApprovalRequest → Option DoubleApprovalRequest → Prop
  | created (x : Option DoubleApprovalRequest) (request : DoubleApprovalRequest) (terms : Terms)
      (hterms : request.terms = terms) (hfirst : request.firstApprover = none)
      (hsecond : request.secondApprover = none) (hstatus : request.status = .pending) :
      RequestStep now (.created terms) x (some request)
  | firstApproved (request : DoubleApprovalRequest) (approver : Address)
      (hopen : now ≤ request.expiresAt)
      (hstatus : request.status = .pending ∨ request.status = .firstApproved)
      (hfirst : request.firstApprover = none) :
      RequestStep now (.approved approver) (some request)
        (some { request with firstApprover := some approver, status := .firstApproved })
  | secondApproved (request : DoubleApprovalRequest) (first approver : Address)
      (hopen : now ≤ request.expiresAt)
      (hstatus : request.status = .pending ∨ request.status = .firstApproved)
      (hfirst : request.firstApprover = some first) (hne : first ≠ approver)
      (hsecond : request.secondApprover = none) :
      RequestStep now (.approved approver) (some request)
        (some { request with secondApprover := some approver, status := .fullyApproved })
  | executed (request : DoubleApprovalRequest) (hopen : now ≤ request.expiresAt)
      (hstatus : request.status = .fullyApproved) :
      RequestStep now .executed (some request) (some { request with status := .executed })
  | cancelled (request : DoubleApprovalRequest)
      (hstatus : request.status = .pending ∨ request.status = .firstApproved) :
      RequestStep now .cancelled (some request) (some { request with status := .cancelled })

/-- The request that the call is about, and what happens to it. -/
def Call.acts : Call → Option ((Nat × Nat) × Action)
  | .createRequest grantId milestoneIndex amount recipient tokenAddress _ =>
      some ((grantId, milestoneIndex), .created ⟨amount, recipient, tokenAddress⟩)
  | .approveRequest grantId milestoneIndex approver =>
      some ((grantId, milestoneIndex), .approved approver)
  | .executeRequest grantId milestoneIndex _ => some ((grantId, milestoneIndex), .executed)
  | .cancelRequest grantId milestoneIndex _ => some ((grantId, milestoneIndex), .cancelled)
  | .initializeConfig .. | .updateConfig .. => none

/-- What an execution of the request pays. -/
def DoubleApprovalRequest.payment (request : DoubleApprovalRequest) (self : Address) :
    TokenLedger.Transfer Address :=
  ⟨request.tokenAddress, self, request.recipient, request.amount⟩

inductive Effect (env : Env) : Call → Store → List (TokenLedger.Transfer Address) → Prop
  | configured (call : Call) (config : Option DoubleApprovalConfig) (hcall : call.acts = none) :
      Effect env call { env.store with config } []
  | stepped (call : Call) (key : Nat × Nat) (a : Action) (request' : DoubleApprovalRequest)
      (hcall : call.acts = some (key, a)) (hne : a ≠ .executed)
      (hstep : RequestStep env.timestamp a (env.store.requests key) (some request')) :
      Effect env call { env.store with
        requests := Function.update env.store.requests key (some request') } []
  | paid (call : Call) (key : Nat × Nat) (request request' : DoubleApprovalRequest)
      (hcall : call.acts = some (key, .executed)) (hfind : env.store.requests key = some request)
      (hstep : RequestStep env.timestamp .executed (some request) (some request')) :
      Effect env call { env.store with
        requests := Function.update env.store.requests key (some request') }
        [request.payment env.self]

/-- What a call that goes through leaves, and what it adds to the log of the transfers. -/
def Leaves (env : Env) (call : Call) (env' : Env) : Prop :=
  ∃ moved, env'.tokens.log = moved ++ env.tokens.log ∧ Effect env call env'.store moved

theorem checkOpen_eq_ok {grantId milestoneIndex : Nat} {u : Unit} :
    checkOpen env grantId milestoneIndex request = .ok u ↔ env.timestamp ≤ request.expiresAt := by
  unfold checkOpen
  split
  · case isTrue hlt => exact iff_of_false fail_ne_ok (Nat.not_le.mpr hlt)
  · case isFalse hle => exact iff_of_true rfl (Nat.not_lt.mp hle)

theorem approveRequest_leaves {grantId milestoneIndex : Nat} {approver : Address}
    (h : approveRequest env grantId milestoneIndex approver = .ok env') :
    Leaves env (.approveRequest grantId milestoneIndex approver) env' := by
  simp only [approveRequest, getRequest, getConfig, bind_eq_ok, okOr_eq_ok, checkOpen_eq_ok,
    ensure_eq_ok, pure_eq_ok] at h
  obtain ⟨request, hfind, _, -, _, hopen, _, hstatus, _, -, _, hfirst, _, -, request', hrecord,
    rfl⟩ := h
  refine ⟨[], rfl, .stepped _ _ _ _ rfl (by simp) ?_⟩
  rw [hfind]
  unfold recordApproval at hrecord
  split at hrecord
  · case isTrue hnone =>
    cases pure_eq_ok.mp hrecord
    exact .firstApproved request approver hopen hstatus hnone
  · case isFalse hsome =>
    obtain ⟨first, hfound⟩ := Option.ne_none_iff_exists'.mp hsome
    split at hrecord
    · case isTrue hsecond =>
      cases pure_eq_ok.mp hrecord
      refine .secondApproved request first approver hopen hstatus hfound ?_ hsecond
      rintro rfl
      exact hfirst hfound
    · exact absurd hrecord fail_ne_ok

/-- **Inversion** of a call that goes through. -/
theorem exec_leaves (h : call.exec env = .ok env') : Leaves env call env' := by
  cases call with
  | initializeConfig primaryApprover secondaryApprover highValueThreshold approvalWindowSecs =>
      cases pure_eq_ok.mp h
      exact ⟨[], rfl, .configured _ _ rfl⟩
  | updateConfig highValueThreshold approvalWindowSecs enabled =>
      simp only [Call.exec, updateConfig, bind_eq_ok, ensure_eq_ok, pure_eq_ok] at h
      obtain ⟨_, -, _, -, _, -, rfl⟩ := h
      exact ⟨[], rfl, .configured _ _ rfl⟩
  | createRequest grantId milestoneIndex amount recipient tokenAddress reason =>
      simp only [Call.exec, createRequest, map_eq_ok, bind_eq_ok, ensure_eq_ok, pure_eq_ok] at h
      obtain ⟨_, ⟨_, -, _, -, _, -, expiresAt, -, rfl⟩, rfl⟩ := h
      exact ⟨[], rfl, .stepped _ _ _ _ rfl (by simp) (.created _ _ _ rfl rfl rfl rfl)⟩
  | approveRequest grantId milestoneIndex approver => exact approveRequest_leaves h
  | executeRequest grantId milestoneIndex executor =>
      simp only [Call.exec, executeRequest, getRequest, bind_eq_ok, okOr_eq_ok, checkOpen_eq_ok,
        ensure_eq_ok, pure_eq_ok] at h
      obtain ⟨request, hfind, _, hstatus, _, hopen, _, -, _, -, paid, htransfer, rfl⟩ := h
      obtain ⟨tokens, hmoved, rfl⟩ := Ledger.Env.transfer_eq_ok.mp htransfer
      obtain ⟨-, rfl⟩ := TokenLedger.transfer_eq_some.mp hmoved
      exact ⟨[request.payment env.self], rfl,
        .paid _ _ request _ rfl hfind (.executed request hopen hstatus)⟩
  | cancelRequest grantId milestoneIndex canceller =>
      simp only [Call.exec, cancelRequest, getRequest, bind_eq_ok, okOr_eq_ok, ensure_eq_ok,
        pure_eq_ok] at h
      obtain ⟨request, hfind, _, hstatus, _, -, _, -, rfl⟩ := h
      refine ⟨[], rfl, .stepped _ _ _ _ rfl (by simp) ?_⟩
      rw [hfind]
      exact .cancelled request hstatus

/-! ### Steps -/

/-- What the step does to the request for the milestone. -/
def action (key : Nat × Nat) (e : Step) : Option Action :=
  ((Ledger.called contract e).bind Call.acts).bind fun acts =>
    if acts.1 = key then some acts.2 else none

/-- The step creates the request anew. -/
def creates (key : Nat × Nat) (e : Step) : Bool :=
  match action key e with
  | some (.created _) => true
  | _ => false

theorem leaves_of_next (h : Ledger.Next contract e.before e.action e.after) :
    (Ledger.called contract e = none ∧ e.after.store = e.before.store) ∨
      ∃ call moved, Ledger.called contract e = some call ∧ e.after.tokens.log = moved ∧
        Effect (e.before.enter e.action) call e.after.store moved := by
  rcases Ledger.cases_of_next h with hidle | ⟨call, result, hcalled, -, hexec, hafter⟩
  · exact .inl hidle
  · obtain ⟨moved, hlog, heffect⟩ := exec_leaves hexec
    rw [hafter]
    exact .inr ⟨call, moved, hcalled, hlog.trans (List.append_nil moved), heffect⟩

theorem action_of_called (hcalled : Ledger.called contract e = some call) {a : Action}
    (hcall : call.acts = some (key, a)) (other : Nat × Nat) :
    action other e = if key = other then some a else none := by
  simp [action, hcalled, hcall]

/-- What one event does to a request. -/
theorem requestStep_of_next (h : Ledger.Next contract e.before e.action e.after)
    (key : Nat × Nat) :
    (action key e = none ∧ e.after.store.requests key = e.before.store.requests key) ∨
      ∃ a, action key e = some a ∧ RequestStep e.action.timestamp a
        (e.before.store.requests key) (e.after.store.requests key) := by
  rcases leaves_of_next h with ⟨hnone, hstore⟩ | ⟨call, moved, hcalled, -, heffect⟩
  · exact .inl ⟨by simp [action, hnone], by rw [hstore]⟩
  · generalize e.after.store = store' at heffect
    cases heffect with
    | configured config hcall => exact .inl ⟨by simp [action, hcalled, hcall], rfl⟩
    | stepped key' a request' hcall _ hstep =>
        rw [action_of_called hcalled hcall]
        refine Run.keyed_cases (fun hkey => ?_) fun hkey => Function.update_of_ne (Ne.symm hkey) ..
        subst hkey
        simpa [Ledger.Env.enter] using hstep
    | paid key' request request' hcall hfind hstep =>
        rw [action_of_called hcalled hcall]
        refine Run.keyed_cases (fun hkey => ?_) fun hkey => Function.update_of_ne (Ne.symm hkey) ..
        subst hkey
        dsimp only [Ledger.Env.enter] at hfind ⊢
        rw [hfind, Function.update_self]
        exact hstep

/-! ### The history of a request -/

/-- The address has approved the request since it was created, in time. -/
def Approved (key : Nat × Nat) (trace : Trace) (request : DoubleApprovalRequest)
    (approver : Address) : Prop :=
  ∃ f ∈ Run.since (creates key) trace, action key f = some (.approved approver) ∧
    f.action.timestamp ≤ request.expiresAt ∧ ∃ before, f.before.store.requests key = some before ∧
      before.terms = request.terms ∧ before.expiresAt = request.expiresAt

/-- What a request says about its history. -/
structure RequestLog (key : Nat × Nat) (trace : Trace) (x : Option DoubleApprovalRequest) :
    Prop where
  first : ∀ request approver, x = some request → request.firstApprover = some approver →
    Approved key trace request approver
  second : ∀ request approver, x = some request → request.secondApprover = some approver →
    (∃ first, request.firstApprover = some first ∧ first ≠ approver) ∧
      Approved key trace request approver
  full : ∀ request, x = some request → request.status = .fullyApproved →
    request.secondApprover ≠ none

theorem Approved.cons {approver : Address} (h : Approved key older request approver)
    (hnew : creates key e = false) (hterms : request'.terms = request.terms)
    (hexpires : request'.expiresAt = request.expiresAt) :
    Approved key (e :: older) request' approver := by
  obtain ⟨f, hf, happroved, htime, before, hbefore, hsame, hend⟩ := h
  refine ⟨f, ?_, happroved, hexpires ▸ htime, before, hbefore, hterms ▸ hsame, hexpires ▸ hend⟩
  rw [Run.since_cons_of_neg hnew]
  exact List.mem_cons_of_mem e hf

theorem Approved.head {approver : Address} (ha : action key e = some (.approved approver))
    (hbefore : e.before.store.requests key = some request)
    (hopen : e.action.timestamp ≤ request.expiresAt) (hterms : request'.terms = request.terms)
    (hexpires : request'.expiresAt = request.expiresAt) :
    Approved key (e :: older) request' approver := by
  refine ⟨e, ?_, ha, hexpires ▸ hopen, request, hbefore, hterms.symm, hexpires.symm⟩
  rw [Run.since_cons_of_neg (by simp [creates, ha])]
  exact List.mem_cons_self

/-- A step that leaves the approvers and the terms as they are. -/
theorem RequestLog.kept {x x' : Option DoubleApprovalRequest} (h : RequestLog key older x)
    (hnew : creates key e = false)
    (hsame : ∀ request', x' = some request' → ∃ request, x = some request ∧
      request'.terms = request.terms ∧ request'.expiresAt = request.expiresAt ∧
      request'.firstApprover = request.firstApprover ∧
      request'.secondApprover = request.secondApprover ∧
      (request'.status = .fullyApproved → request.status = .fullyApproved)) :
    RequestLog key (e :: older) x' := by
  refine ⟨fun request' approver hx hfirst => ?_, fun request' approver hx hsecond => ?_,
    fun request' hx hfull => ?_⟩
  · obtain ⟨request, hold, hterms, hexpires, heq, -⟩ := hsame request' hx
    exact (h.first request approver hold (heq ▸ hfirst)).cons hnew hterms hexpires
  · obtain ⟨request, hold, hterms, hexpires, heq, heq', -⟩ := hsame request' hx
    obtain ⟨hdistinct, happroved⟩ := h.second request approver hold (heq' ▸ hsecond)
    exact ⟨heq ▸ hdistinct, happroved.cons hnew hterms hexpires⟩
  · obtain ⟨request, hold, -, -, -, heq, hstatus⟩ := hsame request' hx
    rw [heq]
    exact h.full request hold (hstatus hfull)

/-- **Step lemma**, by cases on what happens to the request. -/
theorem RequestLog.step {x x' : Option DoubleApprovalRequest} {a : Action}
    (h : RequestLog key older x) (hx : e.before.store.requests key = x)
    (ha : action key e = some a) (hstep : RequestStep e.action.timestamp a x x') :
    RequestLog key (e :: older) x' := by
  cases hstep with
  | created _ request terms hterms hfirst hsecond hstatus =>
      refine ⟨fun r approver hr happroved => ?_, fun r approver hr happroved => ?_,
        fun r hr hfull => ?_⟩
      · cases hr
        cases hfirst.symm.trans happroved
      · cases hr
        cases hsecond.symm.trans happroved
      · cases hr
        cases hstatus.symm.trans hfull
  | firstApproved request approver hopen hstatus hfirst =>
      refine ⟨fun r a hr happroved => ?_, fun r b hr hsecond => ?_, fun r hr hfull => ?_⟩
      · cases hr
        cases happroved
        exact Approved.head ha hx hopen rfl rfl
      · cases hr
        obtain ⟨⟨first, hfound, -⟩, -⟩ := h.second request b rfl hsecond
        cases hfirst.symm.trans hfound
      · cases hr
        cases hfull
  | secondApproved request first approver hopen hstatus hfirst hne hsecond =>
      have hnew : creates key e = false := by simp [creates, ha]
      refine ⟨fun r a hr happroved => ?_, fun r b hr hfound => ?_, fun r hr _ => ?_⟩
      · cases hr
        exact (h.first request a rfl happroved).cons hnew rfl rfl
      · cases hr
        cases hfound
        exact ⟨⟨first, hfirst, hne⟩, Approved.head ha hx hopen rfl rfl⟩
      · cases hr
        simp
  | executed request hopen hstatus =>
      refine h.kept (by simp [creates, ha]) fun r hr => ?_
      cases hr
      exact ⟨request, rfl, rfl, rfl, rfl, rfl, fun _ => hstatus⟩
  | cancelled request hstatus =>
      refine h.kept (by simp [creates, ha]) fun r hr => ?_
      cases hr
      exact ⟨request, rfl, rfl, rfl, rfl, rfl, fun hfull => nomatch hfull⟩

theorem requestLog_of_reachable (h : Ledger.Reachable contract trace env) (key : Nat × Nat) :
    RequestLog key trace (env.store.requests key) := by
  induction h with
  | start hinit =>
      obtain ⟨self, tokens, rfl⟩ := hinit
      refine ⟨fun r a hr => ?_, fun r a hr => ?_, fun r hr => ?_⟩ <;> cases hr
  | @step older before event after hrun hn ih =>
      rcases requestStep_of_next (e := ⟨before, event, after⟩) hn key with
        ⟨hidle, hsame⟩ | ⟨a, ha, hstep⟩
      · refine ih.kept (by simp [creates, hidle]) fun r hr => ?_
        dsimp only at hsame
        exact ⟨r, hsame ▸ hr, rfl, rfl, rfl, rfl, id⟩
      · exact ih.step rfl ha hstep

end YieldTrust.DoubleApproval
