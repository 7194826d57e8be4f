import YieldTrust.GrantStream.Regions

/-!
# YieldTrust.GrantStream.CouncilSteps

The Security Council as a state machine. `CouncilStep` is the relation between
the council states before and after a successful call that writes to it, with all
of its guards; `council_of_next` says that the contract takes no other steps.
Everything about the council is proved from these steps.
-/

namespace YieldTrust.GrantStream

open Fallible SecurityCouncil

/-! ### Steps of the council -/

/-- The operations on the council. Both ways to create an action and both ways to
execute one are the same operation. -/
inductive CouncilOp where
  | appoint (members : List Address)
  | create (actionType : ActionType) (targetGrantId : Option Nat) (initiator : Address)
      (parameters : List Int)
  | signVeto (actionId : Nat) (signer : Address)
  | execute (actionId : Nat)
  | proposeRotation (newMembers : List Address)
  | rotate
  deriving DecidableEq

def CouncilOp.isAppoint : CouncilOp → Bool
  | .appoint _ => true
  | _ => false

/-- What a call does to the council. -/
def Call.councilOp? : Call → Option CouncilOp
  | .initializeSecurityCouncil members => some (.appoint members)
  | .createTimelockedAction actionType targetGrantId initiator parameters =>
      some (.create actionType targetGrantId initiator parameters)
  | .protectedClawback grantId initiator =>
      some (.create .clawback (some grantId) initiator [(grantId : Int)])
  | .councilSignVeto actionId signer => some (.signVeto actionId signer)
  | .executeTimelockedAction actionId | .executeProtectedClawback actionId _ =>
      some (.execute actionId)
  | .proposeCouncilRotation newMembers _ => some (.proposeRotation newMembers)
  | .execCouncilRotation => some .rotate
  | _ => none

namespace CouncilState

/-- The members at the moment; nobody before the council is appointed. -/
def members (c : CouncilState) : List Address := c.councilMembers.getD []

/-- Add the signature of `signer`. -/
def sign (c : CouncilState) (actionId : Nat) (signer : Address) : CouncilState :=
  { c with
    vetoSignatures := Function.update c.vetoSignatures actionId
      (Function.update (c.vetoSignatures actionId) signer true) }

theorem sign_signatures {c : CouncilState} {actionId id : Nat} {signer m : Address} :
    (c.sign actionId signer).vetoSignatures id m = true ↔
      id = actionId ∧ m = signer ∨ c.vetoSignatures id m = true := by
  unfold sign
  dsimp only
  by_cases hid : id = actionId
  · subst hid
    rw [Function.update_self]
    by_cases hm : m = signer
    · subst hm
      simp
    · simp [hm]
  · simp [hid]

end CouncilState

/-- The action that is queued at `now` under `actionId`. -/
def newAction (now actionId : Nat) (actionType : ActionType) (targetGrantId : Option Nat)
    (initiator : Address) (parameters : List Int) : PendingAction :=
  { actionId, actionType, targetGrantId, initiator
    createdAt := now
    executableAt := now + timelockDurationSecs
    status := .pending
    parameters }

/-- An action that changes its status stays under its id. -/
theorem writePendingAction_self {c : CouncilState} {a : PendingAction} {id : Nat}
    {status : ActionStatus} (hkey : a.actionId = id) :
    (writePendingAction c { a with status }).pendingAction id = some { a with status } := by
  subst hkey
  exact Function.update_self ..

theorem writePendingAction_of_ne {c : CouncilState} {a : PendingAction} {id : Nat}
    {status : ActionStatus} (hne : id ≠ a.actionId) :
    (writePendingAction c { a with status }).pendingAction id = c.pendingAction id :=
  Function.update_of_ne hne ..

/-- `CouncilStep now auths op c c'`: the call `op` at `now`, authorized by
`auths`, turns the council state `c` into `c'`. -/
inductive CouncilStep (now : Nat) (auths : List Address) :
    CouncilOp → CouncilState → CouncilState → Prop
  | appoint {c c' : CouncilState} {members : List Address} (hnone : c.councilMembers = none)
      (hlen : members.length = councilSize)
      (hc : c' = { c with
        councilMembers := some members
        actionCounter := 0
        lastRotation := now
        actionIds := [] }) :
      CouncilStep now auths (.appoint members) c c'
  | create {c c' : CouncilState} {id : Nat} {actionType : ActionType}
      {targetGrantId : Option Nat} {initiator : Address} {parameters : List Int}
      (hauth : initiator ∈ auths) (hid : id = c.actionCounter + 1)
      (hc : c' = { c with
        actionCounter := id
        pendingAction := Function.update c.pendingAction id
          (some (newAction now id actionType targetGrantId initiator parameters))
        actionIds := c.actionIds ++ [id] }) :
      CouncilStep now auths (.create actionType targetGrantId initiator parameters) c c'
  /-- A signature that does not complete a veto. -/
  | sign {c c' : CouncilState} {id : Nat} {signer : Address} {action : PendingAction}
      (haction : c.pendingAction id = some action) (hpending : action.status = .pending)
      (hnew : c.vetoSignatures id signer = false) (hmember : signer ∈ c.members)
      (hauth : signer ∈ auths)
      (hcount : countVetoSignatures (c.sign id signer) id < requiredSignatures)
      (hc : c' = c.sign id signer) :
      CouncilStep now auths (.signVeto id signer) c c'
  | veto {c c' : CouncilState} {id : Nat} {signer : Address} {action : PendingAction}
      (haction : c.pendingAction id = some action) (hpending : action.status = .pending)
      (hnew : c.vetoSignatures id signer = false) (hmember : signer ∈ c.members)
      (hauth : signer ∈ auths)
      (hcount : requiredSignatures ≤ countVetoSignatures (c.sign id signer) id)
      (hc : c' = writePendingAction (c.sign id signer) { action with status := .vetoed }) :
      CouncilStep now auths (.signVeto id signer) c c'
  | execute {c c' : CouncilState} {id : Nat} {action : PendingAction}
      (haction : c.pendingAction id = some action)
      (hopen : action.status ≠ .vetoed ∧ action.status ≠ .executed)
      (htime : action.executableAt ≤ now)
      (hc : c' = writePendingAction c { action with status := .executed }) :
      CouncilStep now auths (.execute id) c c'
  | proposeRotation {c c' : CouncilState} {newMembers : List Address}
      (hlen : newMembers.length = councilSize)
      (hc : c' = { c with
        pendingRotation := some
          { proposedMembers := newMembers
            proposedAt := now
            executableAt := now + keyRotationTimelockSecs
            daoApproved := true
            executed := false } }) :
      CouncilStep now auths (.proposeRotation newMembers) c c'
  | rotate {c c' : CouncilState} {rotation : CouncilRotation}
      (hrotation : c.pendingRotation = some rotation) (hopen : rotation.executed = false)
      (htime : rotation.executableAt ≤ now)
      (hc : c' = { c with
        councilMembers := some rotation.proposedMembers
        lastRotation := now
        pendingRotation := some { rotation with executed := true } }) :
      CouncilStep now auths .rotate c c'

/-! ### The contract takes these steps -/

theorem initializeCouncil_step {env : Env} {members : List Address} {c' : CouncilState}
    (h : initializeCouncil env members = .ok c') :
    CouncilStep env.timestamp env.auths (.appoint members) env.council c' := by
  unfold initializeCouncil at h
  simp only [bind_eq_ok, ensure_eq_ok, pure_eq_ok] at h
  obtain ⟨_, hnone, _, hlen, rfl⟩ := h
  exact .appoint hnone hlen rfl

/-- The id that is returned is the one the counter is left at. -/
theorem createPendingAction_step {env : Env} {actionType : ActionType}
    {targetGrantId : Option Nat} {initiator : Address} {parameters : List Int}
    {c' : CouncilState} {id : Nat}
    (h : createPendingAction env actionType targetGrantId initiator parameters = .ok (c', id)) :
    CouncilStep env.timestamp env.auths (.create actionType targetGrantId initiator parameters)
      env.council c' ∧ id = c'.actionCounter := by
  unfold createPendingAction SecurityCouncil.requireAuth at h
  simp only [bind_eq_ok, require_eq_ok, orTrap_eq_ok, pure_eq_ok, U64.checkedAdd_eq_some] at h
  obtain ⟨_, hauth, _, ⟨-, rfl⟩, _, ⟨-, rfl⟩, heq⟩ := h
  obtain ⟨rfl, rfl⟩ := Prod.mk.inj heq
  exact ⟨.create hauth rfl rfl, rfl⟩

theorem signVeto_step {env : Env} {actionId : Nat} {signer : Address} {c' : CouncilState}
    (h : signVeto env actionId signer = .ok c') :
    CouncilStep env.timestamp env.auths (.signVeto actionId signer) env.council c' := by
  unfold signVeto readPendingAction requireCouncilMember SecurityCouncil.requireAuth at h
  simp only [bind_eq_ok, okOr_eq_ok, ensure_eq_ok, require_eq_ok] at h
  obtain ⟨action, haction, _, hpending, _, hnew, _, ⟨_, hmember, hauth⟩, h⟩ := h
  have hmember : signer ∈ env.council.members := of_decide_eq_true hmember
  split_ifs at h with hcount
  · exact .veto haction hpending hnew hmember hauth hcount (pure_eq_ok.mp h).symm
  · exact .sign haction hpending hnew hmember hauth (not_le.mp hcount) (pure_eq_ok.mp h).symm

theorem executeAction_step {env : Env} {actionId : Nat} {c' : CouncilState}
    (h : executeAction env actionId = .ok c') :
    CouncilStep env.timestamp env.auths (.execute actionId) env.council c' := by
  unfold executeAction readPendingAction at h
  simp only [bind_eq_ok, okOr_eq_ok, ensure_eq_ok, pure_eq_ok] at h
  obtain ⟨action, haction, _, hvetoed, _, hexecuted, _, htime, rfl⟩ := h
  exact .execute haction ⟨hvetoed, hexecuted⟩ htime rfl

theorem proposeCouncilRotation_step {env : Env} {newMembers : List Address} {daoAdmin : Address}
    {c' : CouncilState}
    (h : SecurityCouncil.proposeCouncilRotation env newMembers daoAdmin = .ok c') :
    CouncilStep env.timestamp env.auths (.proposeRotation newMembers) env.council c' := by
  unfold SecurityCouncil.proposeCouncilRotation at h
  simp only [bind_eq_ok, ensure_eq_ok, orTrap_eq_ok, pure_eq_ok, U64.checkedAdd_eq_some] at h
  obtain ⟨_, -, _, hlen, _, ⟨-, rfl⟩, rfl⟩ := h
  exact .proposeRotation hlen rfl

theorem executeCouncilRotation_step {env : Env} {c' : CouncilState}
    (h : executeCouncilRotation env = .ok c') :
    CouncilStep env.timestamp env.auths .rotate env.council c' := by
  unfold executeCouncilRotation at h
  simp only [bind_eq_ok, okOr_eq_ok, ensure_eq_ok, pure_eq_ok] at h
  obtain ⟨rotation, hrotation, _, hopen, _, -, _, htime, rfl⟩ := h
  exact .rotate hrotation hopen htime rfl

theorem council_mem_writes {call : Call} (h : call.councilOp? = none) :
    Region.council ∉ call.writes := by
  cases call <;> simp_all [Call.councilOp?, Call.writes]

/-- A successful call that writes to the council is a step of it. -/
theorem councilStep_of_exec {env env' : Env} {call : Call} {op : CouncilOp}
    (hop : call.councilOp? = some op) (h : call.exec env = .ok env') :
    CouncilStep env.timestamp env.auths op env.council env'.council := by
  cases call <;> cases hop
  case initializeSecurityCouncil members =>
    obtain ⟨_, -, h⟩ := bind_eq_ok.mp h
    obtain ⟨c', hc', h⟩ := bind_eq_ok.mp h
    obtain rfl := pure_eq_ok.mp h
    exact initializeCouncil_step (mapErr_eq_ok.mp hc')
  case createTimelockedAction | protectedClawback =>
    obtain ⟨⟨env₁, id⟩, hcreate, rfl⟩ := map_eq_ok.mp h
    obtain ⟨_, -, hcreate⟩ := bind_eq_ok.mp hcreate
    obtain ⟨⟨c', id'⟩, hc', hcreate⟩ := bind_eq_ok.mp hcreate
    obtain ⟨rfl, rfl⟩ := Prod.mk.inj (pure_eq_ok.mp hcreate)
    exact (createPendingAction_step (mapErr_eq_ok.mp hc')).1
  case councilSignVeto actionId signer =>
    obtain ⟨c', hc', h⟩ := bind_eq_ok.mp h
    obtain rfl := pure_eq_ok.mp h
    exact signVeto_step (mapErr_eq_ok.mp hc')
  case executeTimelockedAction actionId =>
    obtain ⟨c', hc', h⟩ := bind_eq_ok.mp h
    obtain rfl := pure_eq_ok.mp h
    exact executeAction_step (mapErr_eq_ok.mp hc')
  case proposeCouncilRotation newMembers daoAdmin =>
    obtain ⟨_, -, h⟩ := bind_eq_ok.mp h
    obtain ⟨c', hc', h⟩ := bind_eq_ok.mp h
    obtain rfl := pure_eq_ok.mp h
    exact proposeCouncilRotation_step (mapErr_eq_ok.mp hc')
  case execCouncilRotation =>
    obtain ⟨_, -, h⟩ := bind_eq_ok.mp h
    obtain ⟨c', hc', h⟩ := bind_eq_ok.mp h
    obtain rfl := pure_eq_ok.mp h
    exact executeCouncilRotation_step (mapErr_eq_ok.mp hc')
  case executeProtectedClawback actionId grantId =>
    obtain ⟨_, -, h⟩ := bind_eq_ok.mp h
    obtain ⟨_, -, h⟩ := bind_eq_ok.mp h
    obtain ⟨_, -, h⟩ := bind_eq_ok.mp h
    obtain ⟨c', hc', h⟩ := bind_eq_ok.mp h
    -- cancelling the grant does not touch the council
    have hsame : env'.council = c' := (cancelGrant_frame env' h).same .council (by decide)
    rw [hsame]
    exact executeAction_step (mapErr_eq_ok.mp hc')

/-! ### Runs -/

/-- What the step did to the council, if anything. -/
def councilOp (e : Run.Step Env Event) : Option CouncilOp := (called e).bind Call.councilOp?

/-- Whatever happens next leaves the council alone or is one step of it. -/
theorem council_of_next {env env' : Env} {event : Event} (h : Next env event env') :
    (councilOp ⟨env, event, env'⟩ = none ∧ env'.council = env.council) ∨
      ∃ op, councilOp ⟨env, event, env'⟩ = some op ∧
        CouncilStep event.timestamp event.auths op env.council env'.council :=
  component_of_next (r := .council)
    (R := fun _ event op c c' => CouncilStep event.timestamp event.auths op c c') (by decide)
    (fun h => h) council_mem_writes (fun hop hexec => councilStep_of_exec hop hexec) h

theorem councilStep_of_op {e : Run.Step Env Event} {op : CouncilOp}
    (h : Next e.before e.action e.after) (hop : councilOp e = some op) :
    CouncilStep e.action.timestamp e.action.auths op e.before.council e.after.council := by
  rcases council_of_next h with ⟨hnone, -⟩ | ⟨op', hop', hstep⟩
  · cases hop.symm.trans hnone
  · obtain rfl := Option.some.inj (hop.symm.trans hop')
    exact hstep

/-- **Induction over the history of the council.** -/
theorem council_induction {I : Trace → CouncilState → Prop} (start : I [] {})
    (idle : ∀ {tr : Trace} {e : Run.Step Env Event}, Reachable tr e.before →
      I tr e.before.council → councilOp e = none → e.after.council = e.before.council →
      I (e :: tr) e.before.council)
    (operated : ∀ {tr : Trace} {e : Run.Step Env Event} {op : CouncilOp},
      Reachable tr e.before → I tr e.before.council → councilOp e = some op →
      CouncilStep e.action.timestamp e.action.auths op e.before.council e.after.council →
      I (e :: tr) e.after.council)
    {trace : Trace} {env : Env} (h : Reachable trace env) : I trace env.council := by
  refine Run.component_induction (f := Env.council) council_of_next ?_ ?_ operated h
  · rintro env ⟨_, _, _, rfl⟩
    exact start
  · intro tr e hrun ih hop hsame
    rw [hsame]
    exact idle hrun ih hop hsame

end YieldTrust.GrantStream
