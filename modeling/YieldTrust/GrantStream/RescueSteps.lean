import YieldTrust.GrantStream.Regions

/-!
# YieldTrust.GrantStream.RescueSteps

The rescue multisig as a state machine, and the history of one proposal: who
opened and approved it, and that nobody executed or cancelled it as long as it is
pending.

The counter saturates, so the last id can be given out again. The proposal stored
under an id is the one that was opened last.
-/

namespace YieldTrust.GrantStream

open Fallible MultiThreshold

/-! ### Steps of the multisig -/

/-- The operations on the rescue multisig. -/
inductive RescueOp where
  | register (signers : List Address)
  | propose (proposer : Address) (kind : RescueKind) (rescueTo : Address) (amount : Int)
  | approve (signer : Address) (proposalId : Nat)
  | execute (proposalId : Nat)
  | cancel (proposalId : Nat)
  deriving DecidableEq

/-- What a call does to the multisig. -/
def Call.rescueOp? : Call → Option RescueOp
  | .initializeRescueSigners signers => some (.register signers)
  | .proposeRescue proposer kind rescueTo amount => some (.propose proposer kind rescueTo amount)
  | .approveRescue signer proposalId => some (.approve signer proposalId)
  | .executeRescue _ proposalId _ => some (.execute proposalId)
  | .cancelRescue _ proposalId => some (.cancel proposalId)
  | _ => none

/-- The proposal that is opened at `now` under `id`. -/
def newProposal (now id : Nat) (proposer : Address) (kind : RescueKind) (rescueTo : Address)
    (amount : Int) : RescueProposal :=
  { id, kind, proposer, rescueTo, amount
    approvals := [proposer]
    status := .pending
    createdAt := now }

/-- `RescueStep now auths op r r'`: the call `op` at `now`, authorized by
`auths`, turns the multisig state `r` into `r'`. -/
inductive RescueStep (now : Nat) (auths : List Address) :
    RescueOp → RescueState → RescueState → Prop
  | register {r r' : RescueState} {signers : List Address}
      (hlen : signers.length = emergencySigners)
      (hr : r' = { r with signers, signerBytes := signers.map Address.xdr }) :
      RescueStep now auths (.register signers) r r'
  | propose {r r' : RescueState} {id : Nat} {proposer : Address} {kind : RescueKind}
      {rescueTo : Address} {amount : Int} (hauth : proposer ∈ auths)
      (hsigner : proposer.xdr ∈ r.signerBytes) (hamount : 0 < amount)
      (hid : id = U64.saturatingAdd r.proposalCounter 1)
      (hr : r' = writeProposal { r with proposalCounter := id } id
        (newProposal now id proposer kind rescueTo amount)) :
      RescueStep now auths (.propose proposer kind rescueTo amount) r r'
  | approve {r r' : RescueState} {id : Nat} {signer : Address} {proposal : RescueProposal}
      (hauth : signer ∈ auths) (hsigner : signer.xdr ∈ r.signerBytes)
      (hproposal : r.proposal id = some proposal) (hpending : proposal.status = .pending)
      (hnew : signer.xdr ∉ proposal.approvals.map Address.xdr)
      (hr : r' = writeProposal r id { proposal with approvals := proposal.approvals ++ [signer] }) :
      RescueStep now auths (.approve signer id) r r'
  | execute {r r' : RescueState} {id : Nat} {proposal : RescueProposal}
      (hproposal : r.proposal id = some proposal) (hpending : proposal.status = .pending)
      (hthreshold : thresholdFor proposal.kind ≤ proposal.approvals.length)
      (hr : r' = writeProposal r id { proposal with status := .executed }) :
      RescueStep now auths (.execute id) r r'
  | cancel {r r' : RescueState} {id : Nat} {proposal : RescueProposal}
      (hproposal : r.proposal id = some proposal) (hpending : proposal.status = .pending)
      (hr : r' = writeProposal r id { proposal with status := .cancelled }) :
      RescueStep now auths (.cancel id) r r'

/-! ### The contract takes these steps -/

theorem initializeSigners_step {env : Env} {signers : List Address} {r' : RescueState}
    (h : initializeSigners env signers = .ok r') :
    RescueStep env.timestamp env.auths (.register signers) env.rescue r' := by
  obtain ⟨_, hlen, h⟩ := bind_eq_ok.mp h
  exact .register (ensure_eq_ok.mp hlen) (pure_eq_ok.mp h).symm

theorem proposeRescue_step {env : Env} {proposer rescueTo : Address} {kind : RescueKind}
    {amount : Int} {r' : RescueState} {id : Nat}
    (h : MultiThreshold.proposeRescue env proposer kind rescueTo amount = .ok (r', id)) :
    RescueStep env.timestamp env.auths (.propose proposer kind rescueTo amount) env.rescue r' := by
  unfold MultiThreshold.proposeRescue isSigner at h
  simp only [bind_eq_ok, requireAuth_eq_ok, ensure_eq_ok, pure_eq_ok] at h
  obtain ⟨_, hauth, _, hsigner, _, hamount, heq⟩ := h
  obtain ⟨rfl, -⟩ := Prod.mk.inj heq
  exact .propose hauth (of_decide_eq_true hsigner) hamount rfl rfl

theorem approveRescue_step {env : Env} {signer : Address} {proposalId : Nat} {r' : RescueState}
    (h : MultiThreshold.approveRescue env signer proposalId = .ok r') :
    RescueStep env.timestamp env.auths (.approve signer proposalId) env.rescue r' := by
  unfold MultiThreshold.approveRescue isSigner at h
  simp only [bind_eq_ok, requireAuth_eq_ok, ensure_eq_ok, okOr_eq_ok, require_eq_ok,
    pure_eq_ok] at h
  obtain ⟨_, hauth, _, hsigner, proposal, hproposal, _, hpending, _, hnew, rfl⟩ := h
  exact .approve hauth (of_decide_eq_true hsigner) hproposal hpending hnew rfl

/-- The destination and the amount are those of the proposal. -/
theorem executeRescue_step {env : Env} {caller target : Address} {proposalId : Nat} {amount : Int}
    {r' : RescueState}
    (h : MultiThreshold.executeRescue env caller proposalId = .ok (r', target, amount)) :
    RescueStep env.timestamp env.auths (.execute proposalId) env.rescue r' ∧
      ∃ proposal, env.rescue.proposal proposalId = some proposal ∧
        target = proposal.rescueTo ∧ amount = proposal.amount := by
  unfold MultiThreshold.executeRescue at h
  simp only [bind_eq_ok, ensure_eq_ok, okOr_eq_ok, pure_eq_ok] at h
  obtain ⟨_, -, _, -, proposal, hproposal, _, hpending, _, hthreshold, heq⟩ := h
  obtain ⟨rfl, rfl, rfl⟩ := by simpa using heq
  exact ⟨.execute hproposal hpending hthreshold rfl, proposal, hproposal, rfl, rfl⟩

theorem cancelRescue_step {env : Env} {proposer : Address} {proposalId : Nat} {r' : RescueState}
    (h : MultiThreshold.cancelRescue env proposer proposalId = .ok r') :
    RescueStep env.timestamp env.auths (.cancel proposalId) env.rescue r' := by
  unfold MultiThreshold.cancelRescue at h
  simp only [bind_eq_ok, ensure_eq_ok, okOr_eq_ok, pure_eq_ok] at h
  obtain ⟨_, -, proposal, hproposal, _, -, _, hpending, rfl⟩ := h
  exact .cancel hproposal hpending rfl

theorem rescue_mem_writes {call : Call} (h : call.rescueOp? = none) :
    Region.rescue ∉ call.writes := by
  cases call <;> simp_all [Call.rescueOp?, Call.writes]

/-- A successful call that writes to the multisig is a step of it. -/
theorem rescueStep_of_exec {env env' : Env} {call : Call} {op : RescueOp}
    (hop : call.rescueOp? = some op) (h : call.exec env = .ok env') :
    RescueStep env.timestamp env.auths op env.rescue env'.rescue := by
  cases call <;> cases hop
  case initializeRescueSigners signers =>
    obtain ⟨_, -, h⟩ := bind_eq_ok.mp h
    obtain ⟨r', hr', h⟩ := bind_eq_ok.mp h
    obtain rfl := pure_eq_ok.mp h
    exact initializeSigners_step hr'
  case proposeRescue proposer kind rescueTo amount =>
    obtain ⟨⟨env₁, id⟩, hpropose, rfl⟩ := map_eq_ok.mp h
    obtain ⟨⟨r', id'⟩, hr', hpropose⟩ := bind_eq_ok.mp hpropose
    obtain ⟨rfl, rfl⟩ := Prod.mk.inj (pure_eq_ok.mp hpropose)
    exact proposeRescue_step hr'
  case approveRescue signer proposalId =>
    obtain ⟨r', hr', h⟩ := bind_eq_ok.mp h
    obtain rfl := pure_eq_ok.mp h
    exact approveRescue_step hr'
  case executeRescue caller proposalId tokenAddress =>
    obtain ⟨⟨r', target, amount⟩, hr', h⟩ := bind_eq_ok.mp h
    -- the transfer does not touch the multisig
    have hsame : env'.rescue = r' := (transfer_frame env' h).same .rescue (by decide)
    rw [hsame]
    exact (executeRescue_step hr').1
  case cancelRescue proposer proposalId =>
    obtain ⟨r', hr', h⟩ := bind_eq_ok.mp h
    obtain rfl := pure_eq_ok.mp h
    exact cancelRescue_step hr'

/-! ### Runs -/

/-- What the step did to the multisig, if anything. -/
def rescueOp (e : Run.Step Env Event) : Option RescueOp := (called e).bind Call.rescueOp?

/-- Whatever happens next leaves the multisig alone or is one step of it. -/
theorem rescue_of_next {env env' : Env} {event : Event} (h : Next env event env') :
    (rescueOp ⟨env, event, env'⟩ = none ∧ env'.rescue = env.rescue) ∨
      ∃ op, rescueOp ⟨env, event, env'⟩ = some op ∧
        RescueStep event.timestamp event.auths op env.rescue env'.rescue :=
  component_of_next (r := .rescue)
    (R := fun _ event op r r' => RescueStep event.timestamp event.auths op r r') (by decide)
    (fun h => h) rescue_mem_writes (fun hop hexec => rescueStep_of_exec hop hexec) h

/-- **Induction over the history of the multisig.** -/
theorem rescue_induction {I : Trace → RescueState → Prop} (start : I [] {})
    (idle : ∀ {tr : Trace} {e : Run.Step Env Event}, Reachable tr e.before →
      I tr e.before.rescue → rescueOp e = none → e.after.rescue = e.before.rescue →
      I (e :: tr) e.before.rescue)
    (operated : ∀ {tr : Trace} {e : Run.Step Env Event} {op : RescueOp},
      Reachable tr e.before → I tr e.before.rescue → rescueOp e = some op →
      RescueStep e.action.timestamp e.action.auths op e.before.rescue e.after.rescue →
      I (e :: tr) e.after.rescue)
    {trace : Trace} {env : Env} (h : Reachable trace env) : I trace env.rescue := by
  refine Run.component_induction (f := Env.rescue) rescue_of_next ?_ ?_ operated h
  · rintro env ⟨_, _, _, rfl⟩
    exact start
  · intro tr e hrun ih hop hsame
    rw [hsame]
    exact idle hrun ih hop hsame

end YieldTrust.GrantStream
