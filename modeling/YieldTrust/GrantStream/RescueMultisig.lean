import YieldTrust.GrantStream.RescueSteps

/-!
# YieldTrust.GrantStream.RescueMultisig

What an executed rescue proposal went through: who approved it and when, and that
it is executed once. `is_signer` looks at the serialized copy of the signer set,
which always agrees with the set itself.
-/

namespace YieldTrust.GrantStream

open MultiThreshold

/-! ### Steps on a proposal -/

/-- The id of the proposal that the step opened, if it opened one. -/
def proposedId (e : Run.Step Env Event) : Option Nat :=
  match rescueOp e with
  | some (.propose ..) => some e.after.rescue.proposalCounter
  | _ => none

/-- The step opened the proposal `id`. -/
def proposes (id : Nat) (e : Run.Step Env Event) : Bool := proposedId e = some id

/-- The step executed or cancelled the proposal `id`. -/
def closes (id : Nat) (e : Run.Step Env Event) : Bool :=
  rescueOp e = some (.execute id) || rescueOp e = some (.cancel id)

/-- The step that opened the proposal stored under `id`. -/
def opening (id : Nat) (trace : Trace) : Option (Run.Step Env Event) := trace.find? (proposes id)

/-- The steps since the proposal `id` was opened, newest first. -/
def sinceProposed (id : Nat) (trace : Trace) : Trace := Run.since (proposes id) trace

/-- In this step `a`, a registered signer, authenticated its approval of `id`. -/
structure Approves (id : Nat) (a : Address) (e : Run.Step Env Event) : Prop where
  call : rescueOp e = some (.approve a id) ∨ proposes id e = true ∧
    ∃ kind rescueTo amount, rescueOp e = some (.propose a kind rescueTo amount)
  authenticated : a ∈ e.action.auths
  registered : a ∈ e.before.rescue.signers

theorem proposes_of_op {id : Nat} {e : Run.Step Env Event} {op : RescueOp}
    (hop : rescueOp e = some op)
    (hnot : ∀ proposer kind rescueTo amount, op ≠ .propose proposer kind rescueTo amount) :
    proposes id e = false := by
  unfold proposes proposedId
  rw [hop]
  cases op with
  | propose => exact (hnot _ _ _ _ rfl).elim
  | register | approve | execute | cancel => rfl

theorem proposes_of_propose {id : Nat} {e : Run.Step Env Event} {proposer rescueTo : Address}
    {kind : RescueKind} {amount : Int}
    (hop : rescueOp e = some (.propose proposer kind rescueTo amount)) :
    proposes id e = decide (e.after.rescue.proposalCounter = id) := by
  simp [proposes, proposedId, hop]

theorem closes_of_op {id : Nat} {e : Run.Step Env Event} {op : RescueOp}
    (hop : rescueOp e = some op) :
    closes id e = (decide (op = .execute id) || decide (op = .cancel id)) := by
  simp [closes, hop]

/-! ### The signer set -/

/-- The serialized copy is that of the signer set. -/
def RescueState.Serialized (r : RescueState) : Prop := r.signerBytes = r.signers.map Address.xdr

theorem RescueState.Serialized.mem_iff {r : RescueState} (h : r.Serialized) {a : Address} :
    a.xdr ∈ r.signerBytes ↔ a ∈ r.signers := by
  have hinj : Function.Injective Address.xdr := fun a b heq => by
    cases a
    cases b
    exact congrArg Address.mk heq
  rw [h, List.mem_map_of_injective hinj]

theorem serialized_of_reachable {trace : Trace} {env : Env} (h : Reachable trace env) :
    env.rescue.Serialized := by
  refine rescue_induction (I := fun _ r => r.Serialized) rfl (fun _ ih _ _ => ih) ?_ h
  intro tr e op _ ih _ hstep
  cases hstep with
  | register _ hr =>
      rw [hr]
      rfl
  | propose _ _ _ _ hr | approve _ _ _ _ _ hr | execute _ _ _ hr | cancel _ _ hr =>
      rw [hr]
      exact ih

/-! ### One step -/

/-- What a step does to the proposal stored under `id`. -/
inductive ProposalEvent (id : Nat) (e : Run.Step Env Event) : Prop
  /-- The step is about something else. -/
  | kept (hopen : proposes id e = false) (hclose : closes id e = false)
      (h : e.after.rescue.proposal id = e.before.rescue.proposal id)
  | opened {proposer rescueTo : Address} {kind : RescueKind} {amount : Int}
      (hop : rescueOp e = some (.propose proposer kind rescueTo amount))
      (hopen : proposes id e = true) (happroves : Approves id proposer e) (hamount : 0 < amount)
      (h : e.after.rescue.proposal id =
        some (newProposal e.action.timestamp id proposer kind rescueTo amount))
  | approved {p : RescueProposal} {signer : Address} (hopen : proposes id e = false)
      (hclose : closes id e = false) (hp : e.before.rescue.proposal id = some p)
      (hpending : p.status = .pending) (hnew : signer ∉ p.approvals)
      (happroves : Approves id signer e)
      (h : e.after.rescue.proposal id = some { p with approvals := p.approvals ++ [signer] })
  | closed {p : RescueProposal} {status : RescueStatus} (hopen : proposes id e = false)
      (hp : e.before.rescue.proposal id = some p) (hpending : p.status = .pending)
      (hstatus : status ≠ .pending)
      (h : e.after.rescue.proposal id = some { p with status })

/-- An accepted operation does one of these things to each proposal. -/
theorem proposalEvent_of_step {e : Run.Step Env Event} {op : RescueOp}
    (hserialized : e.before.rescue.Serialized) (hop : rescueOp e = some op)
    (hstep : RescueStep e.action.timestamp e.action.auths op e.before.rescue e.after.rescue)
    (id : Nat) : ProposalEvent id e := by
  have hclose : closes id e = _ := closes_of_op hop
  generalize hr₀ : e.before.rescue = r at hstep hserialized
  generalize hr₁ : e.after.rescue = r' at hstep
  cases hstep with
  | register _ hr =>
      refine .kept (proposes_of_op hop (by simp)) (by simp [hclose]) ?_
      rw [hr₀, hr₁, hr]
  | @propose _ _ newId proposer _ _ _ hauth hsigner hamount hid hr =>
      have hproposes : proposes id e = decide (e.after.rescue.proposalCounter = id) :=
        proposes_of_propose hop
      rw [hr₁, hr] at hproposes
      by_cases heq : newId = id
      · subst heq
        have hopen : proposes newId e = true := hproposes.trans (decide_eq_true rfl)
        have hmem : proposer ∈ e.before.rescue.signers := hr₀ ▸ hserialized.mem_iff.mp hsigner
        refine .opened hop hopen ⟨.inr ⟨hopen, _, _, _, hop⟩, hauth, hmem⟩ hamount ?_
        rw [hr₁, hr]
        exact Function.update_self ..
      · refine .kept (hproposes.trans (decide_eq_false heq)) (by simp [hclose]) ?_
        rw [hr₀, hr₁, hr]
        exact Function.update_of_ne (Ne.symm heq) ..
  | @approve _ _ proposalId signer p hauth hsigner hp hpending hnew hr =>
      have hopen : proposes id e = false := proposes_of_op hop (by simp)
      by_cases heq : proposalId = id
      · subst heq
        refine .approved hopen (by simp [hclose]) (hr₀ ▸ hp) hpending ?_
          ⟨.inl hop, hauth, hr₀ ▸ hserialized.mem_iff.mp hsigner⟩ ?_
        · exact fun hmem => hnew (List.mem_map_of_mem hmem)
        · rw [hr₁, hr]
          exact Function.update_self ..
      · refine .kept hopen (by simp [hclose]) ?_
        rw [hr₀, hr₁, hr]
        exact Function.update_of_ne (Ne.symm heq) ..
  | @execute _ _ proposalId p hp hpending _ hr | @cancel _ _ proposalId p hp hpending hr =>
      have hopen : proposes id e = false := proposes_of_op hop (by simp)
      by_cases heq : proposalId = id
      · subst heq
        refine .closed hopen (hr₀ ▸ hp) hpending ?_ ((congrArg (·.proposal proposalId)
          (hr₁.trans hr)).trans (Function.update_self ..))
        simp
      · refine .kept hopen (by simp [hclose, heq]) ?_
        rw [hr₀, hr₁, hr]
        exact Function.update_of_ne (Ne.symm heq) ..

/-- Whatever happens next does one of these things to each proposal. -/
theorem proposalEvent_of_next {tr : Trace} {e : Run.Step Env Event} (hrun : Reachable tr e.before)
    (hn : Next e.before e.action e.after) (id : Nat) : ProposalEvent id e := by
  rcases rescue_of_next hn with ⟨hop, hsame⟩ | ⟨op, hop, hstep⟩
  · have hnone : rescueOp e = none := hop
    exact .kept (by simp [proposes, proposedId, hnone]) (by simp [closes, hnone]) (by rw [hsame])
  · exact proposalEvent_of_step (serialized_of_reachable hrun) hop hstep id

/-- **Induction over the history of a proposal.** -/
theorem proposal_induction {id : Nat} {I : Trace → Option RescueProposal → Prop} (start : I [] none)
    (step : ∀ {tr : Trace} {e : Run.Step Env Event}, Reachable tr e.before →
      I tr (e.before.rescue.proposal id) → ProposalEvent id e →
      I (e :: tr) (e.after.rescue.proposal id))
    {trace : Trace} {env : Env} (h : Reachable trace env) :
    I trace (env.rescue.proposal id) := by
  refine Run.event_induction (f := fun env : Env => env.rescue.proposal id)
    (fun hrun hn => proposalEvent_of_next hrun hn id) ?_ step h
  rintro env ⟨_, _, _, rfl⟩
  exact start

/-! ### The history of a proposal -/

/-- What the history knows about the proposal `p` that is stored under `id`. -/
structure ProposalRecord (id : Nat) (trace : Trace) (p : RescueProposal) : Prop where
  amount_pos : 0 < p.amount
  opened : ∃ e, opening id trace = some e ∧
    rescueOp e = some (.propose p.proposer p.kind p.rescueTo p.amount) ∧
    ∀ a ∈ p.approvals, ∃ e' ∈ e :: sinceProposed id trace, Approves id a e'
  distinct : p.approvals.Nodup
  untouched : p.status = .pending → ∀ e' ∈ sinceProposed id trace, closes id e' = false

section

variable {id : Nat} {tr : Trace} {e : Run.Step Env Event} {p : RescueProposal}

theorem opening_cons_of_pos (h : proposes id e = true) : opening id (e :: tr) = some e := by
  simp [opening, h]

theorem opening_cons_of_neg (h : proposes id e = false) :
    opening id (e :: tr) = opening id tr := by
  simp [opening, h]

theorem sinceProposed_cons_of_pos (h : proposes id e = true) : sinceProposed id (e :: tr) = [] :=
  Run.since_cons_of_pos h tr

theorem sinceProposed_cons_of_neg (h : proposes id e = false) :
    sinceProposed id (e :: tr) = e :: sinceProposed id tr := Run.since_cons_of_neg h tr

/-- A step that leaves the terms of the proposal alone: it may add approvals that
were given in it, and a proposal that it closes is no longer pending. -/
theorem ProposalRecord.step (h : ProposalRecord id tr p) (hopen : proposes id e = false)
    {approvals : List Address} {status : RescueStatus} (hdistinct : approvals.Nodup)
    (happroved : ∀ a ∈ approvals, a ∈ p.approvals ∨ Approves id a e)
    (hstatus : status = .pending → p.status = .pending ∧ closes id e = false) :
    ProposalRecord id (e :: tr) { p with approvals, status } := by
  obtain ⟨hamount, ⟨e₀, he₀, hop, hall⟩, -, huntouched⟩ := h
  refine ⟨hamount, ⟨e₀, (opening_cons_of_neg hopen).trans he₀, hop, fun a ha => ?_⟩, hdistinct, ?_⟩
  · rw [sinceProposed_cons_of_neg hopen]
    rcases happroved a ha with ha | ha
    · obtain ⟨e', he', happroves⟩ := hall a ha
      refine ⟨e', ?_, happroves⟩
      rcases List.mem_cons.mp he' with rfl | he'
      · exact List.mem_cons_self
      · exact List.mem_cons_of_mem _ (List.mem_cons_of_mem _ he')
    · exact ⟨e, List.mem_cons_of_mem _ List.mem_cons_self, ha⟩
  · intro hpending
    obtain ⟨hbefore, hclose⟩ := hstatus hpending
    rw [sinceProposed_cons_of_neg hopen]
    exact List.forall_mem_cons.mpr ⟨hclose, huntouched hbefore⟩

end

/-- Every stored proposal is recorded in the history. -/
theorem proposalRecord_of_reachable {trace : Trace} {env : Env} (h : Reachable trace env) {id : Nat}
    {p : RescueProposal} (hp : env.rescue.proposal id = some p) : ProposalRecord id trace p := by
  refine proposal_induction (I := fun tr p? => ∀ p, p? = some p → ProposalRecord id tr p)
    ?_ ?_ h p hp
  · intro p hp
    cases hp
  · intro tr e _ ih hevent p' hp'
    cases hevent with
    | kept hopen hclose hsame =>
        rw [hsame] at hp'
        have hrecord := ih p' hp'
        exact hrecord.step hopen hrecord.distinct (fun a ha => .inl ha) fun hp => ⟨hp, hclose⟩
    | opened hop hopen happroves hamount hafter =>
        obtain rfl := Option.some.inj (hafter.symm.trans hp')
        refine ⟨hamount, ⟨e, opening_cons_of_pos hopen, hop, fun a ha => ?_⟩,
          by simp [newProposal], fun _ => ?_⟩
        · obtain rfl := List.mem_singleton.mp ha
          exact ⟨e, List.mem_cons_self, happroves⟩
        · simp [sinceProposed_cons_of_pos hopen]
    | @approved p signer hopen hclose hp hpending hnew happroves hafter =>
        obtain rfl := Option.some.inj (hafter.symm.trans hp')
        have hrecord := ih p hp
        refine hrecord.step hopen ?_ (fun a ha => ?_) fun hp => ⟨hp, hclose⟩
        · refine List.nodup_append.mpr ⟨hrecord.distinct, by simp, fun a ha b hb hab => hnew ?_⟩
          rw [← List.mem_singleton.mp hb, ← hab]
          exact ha
        · rcases List.mem_append.mp ha with ha | ha
          · exact .inl ha
          · obtain rfl := List.mem_singleton.mp ha
            exact .inr happroves
    | @closed p status hopen hp hpending hstatus hafter =>
        obtain rfl := Option.some.inj (hafter.symm.trans hp')
        have hrecord := ih p hp
        exact hrecord.step hopen hrecord.distinct (fun a ha => .inl ha) fun hp => absurd hp hstatus

/-! ### Proposal ids -/

/-- All proposals, and all that were ever opened, have ids up to the counter. -/
structure ProposalIds (trace : Trace) (r : RescueState) : Prop where
  counter_lt : r.proposalCounter < U64.size
  stored : ∀ id, r.proposal id ≠ none → id ≤ r.proposalCounter
  opened : ∀ e ∈ trace, ∀ id, proposes id e = true → id ≤ r.proposalCounter

theorem ProposalIds.mono {tr : Trace} {e : Run.Step Env Event} {r r' : RescueState}
    (h : ProposalIds tr r) (hlt : r'.proposalCounter < U64.size)
    (hle : r.proposalCounter ≤ r'.proposalCounter)
    (hstored : ∀ id, r'.proposal id ≠ none → r.proposal id ≠ none ∨ id ≤ r'.proposalCounter)
    (hopened : ∀ id, proposes id e = true → id ≤ r'.proposalCounter) :
    ProposalIds (e :: tr) r' := by
  refine ⟨hlt, fun id hid => ?_, List.forall_mem_cons.mpr ⟨hopened, fun e' he' id hid => ?_⟩⟩
  · rcases hstored id hid with hid | hid
    · exact (h.stored id hid).trans hle
    · exact hid
  · exact (h.opened e' he' id hid).trans hle

/-- Writing to a proposal that is stored. -/
theorem ProposalIds.update {tr : Trace} {e : Run.Step Env Event} {r : RescueState} {id : Nat}
    {p : RescueProposal} (h : ProposalIds tr r) (hsome : r.proposal id ≠ none)
    (hopen : ∀ id', proposes id' e = false) : ProposalIds (e :: tr) (writeProposal r id p) := by
  refine h.mono h.counter_lt le_rfl (fun id' hid' => .inl ?_) (by simp [hopen])
  by_cases heq : id' = id
  · exact heq ▸ hsome
  · exact (Function.update_of_ne heq ..).symm.trans_ne hid'

theorem proposalIds_of_reachable {trace : Trace} {env : Env} (h : Reachable trace env) :
    ProposalIds trace env.rescue := by
  refine rescue_induction (I := ProposalIds) ?_ ?_ ?_ h
  · exact ⟨by decide, fun id hid => absurd rfl hid, fun e he => (nomatch he)⟩
  · intro tr e _ ih hop _
    exact ih.mono ih.counter_lt le_rfl (fun _ h => .inl h) (by simp [proposes, proposedId, hop])
  · intro tr e op _ ih hop hstep
    have hother (hnot : ∀ proposer kind rescueTo amount,
        op ≠ .propose proposer kind rescueTo amount) (id : Nat) : proposes id e = false :=
      proposes_of_op hop hnot
    generalize hafter : e.after.rescue = r' at hstep
    cases hstep with
    | register _ hr =>
        subst hr
        exact ih.mono ih.counter_lt le_rfl (fun _ h => .inl h) (by simp [hother])
    | @propose _ _ newId _ _ _ _ _ _ _ hid hr =>
        have hopened (id : Nat) (hopen : proposes id e = true) : id = newId := by
          rw [proposes_of_propose hop, hafter, hr] at hopen
          exact (of_decide_eq_true hopen).symm
        subst hr
        have hlt := ih.counter_lt
        refine ih.mono ?_ ?_ (fun id hid' => ?_) fun id hopen => (hopened id hopen).le
        · show newId < U64.size
          rw [hid]
          unfold U64.saturatingAdd
          split <;> omega
        · show e.before.rescue.proposalCounter ≤ newId
          rw [hid]
          unfold U64.saturatingAdd
          split <;> omega
        · by_cases heq : id = newId
          · exact .inr heq.le
          · exact .inl ((Function.update_of_ne heq ..).symm.trans_ne hid')
    | approve _ _ hp _ _ hr | execute hp _ _ hr | cancel hp _ hr =>
        subst hr
        exact ih.update (by simp [hp]) (hother (by simp))

/-! ### Executing a proposal -/

/-- What the execution of the proposal `p` under `id` rests on: exactly the
amount is paid, nobody closed the proposal before, and enough different
addresses, all signers at that time, authenticated their approval. -/
structure RescueSafe (id : Nat) (older : Trace) (e : Run.Step Env Event) (p : RescueProposal) :
    Prop where
  paid : ∃ token, e.after.tokens.log = [⟨token, e.before.self, p.rescueTo, p.amount⟩]
  open_before : ∀ e' ∈ sinceProposed id older, closes id e' = false
  threshold : thresholdFor p.kind ≤ p.approvals.length
  distinct : p.approvals.Nodup
  approved : ∃ e₀, opening id older = some e₀ ∧
    rescueOp e₀ = some (.propose p.proposer p.kind p.rescueTo p.amount) ∧
    ∀ a ∈ p.approvals, ∃ e' ∈ e₀ :: sinceProposed id older, Approves id a e'

/-- An execution makes one transfer, that of the proposal, and pays nothing else. -/
theorem executeRescue_log {env env' : Env} {caller token : Address} {id : Nat}
    (h : executeRescue env caller id token = .ok env') :
    ∃ p, env.rescue.proposal id = some p ∧ p.status = .pending ∧
      thresholdFor p.kind ≤ p.approvals.length ∧
      env'.tokens.log = ⟨token, env.self, p.rescueTo, p.amount⟩ :: env.tokens.log := by
  obtain ⟨⟨r', target, amount⟩, hr', h⟩ := Fallible.bind_eq_ok.mp h
  obtain ⟨hstep, p, hp, rfl, rfl⟩ := executeRescue_step hr'
  obtain ⟨tokens, htransfer, rfl⟩ := transfer_eq_ok.mp h
  obtain ⟨-, rfl⟩ := TokenLedger.transfer_eq_some.mp htransfer
  cases hstep with
  | execute hp' hpending hthreshold =>
      obtain rfl := Option.some.inj (hp.symm.trans hp')
      exact ⟨p, hp, hpending, hthreshold, rfl⟩

/-- **Rescue multisig safety.** Whatever is executed was approved by enough
registered signers and was neither executed nor cancelled before, and it pays
exactly what was proposed. A proposal gets a new id unless the counter is full. -/
theorem rescue_multisig {older : Trace} {env : Env} {e : Run.Step Env Event}
    (h : Reachable (e :: older) env) :
    (∀ caller id token, called e = some (.executeRescue caller id token) →
      ∃ p, e.before.rescue.proposal id = some p ∧ RescueSafe id older e p) ∧
    ∀ id, proposes id e = true → e.before.rescue.proposalCounter + 1 < U64.size →
      e.before.rescue.proposal id = none ∧ ∀ e' ∈ older, proposes id e' = false := by
  obtain ⟨hrun, hn, -⟩ := h.uncons
  constructor
  · intro caller id token hcall
    obtain ⟨p, hp, hpending, hthreshold, hlog⟩ := executeRescue_log (exec_of_called hn hcall)
    have hrecord := proposalRecord_of_reachable hrun hp
    exact ⟨p, hp, ⟨token, hlog⟩, hrecord.untouched hpending, hthreshold, hrecord.distinct,
      hrecord.opened⟩
  · intro id hopen hlt
    have hids := proposalIds_of_reachable hrun
    -- the step is a proposal, and the counter goes up by one
    have hid : id = e.before.rescue.proposalCounter + 1 := by
      rcases rescue_of_next hn with ⟨hop, -⟩ | ⟨op, hop, hstep⟩
      · simp [proposes, proposedId, show rescueOp e = none from hop] at hopen
      · cases op with
        | register | approve | execute | cancel =>
            simp [proposes_of_op (show rescueOp e = some _ from hop)] at hopen
        | propose =>
            rw [proposes_of_propose (show rescueOp e = some _ from hop)] at hopen
            have hcounter := of_decide_eq_true hopen
            generalize e.after.rescue = r' at hstep hcounter
            cases hstep with
            | propose _ _ _ hid hr =>
                subst hr
                rw [← hcounter]
                exact hid.trans (if_pos hlt)
    refine ⟨?_, fun e' he' => ?_⟩
    · by_contra hsome
      have := hids.stored id hsome
      omega
    · by_contra hbefore
      have := hids.opened e' he' id (by simpa using hbefore)
      omega

namespace Demo

/-- Ten signers: those who authorize `call`, and five more. -/
def signers : List Address :=
  [admin, oracle, grantee, validator, donor, ⟨[11]⟩, ⟨[12]⟩, ⟨[13]⟩, ⟨[14]⟩, ⟨[15]⟩]

/-- A standard rescue with its three approvals. -/
def approvedRescue : List Event := setUp 1000 ++
  [call 1 (.initializeRescueSigners signers),
    call 11 (.proposeRescue oracle .standard treasury 500), call 12 (.approveRescue grantee 1),
    call 13 (.approveRescue donor 1)]

end Demo

/-- The approved rescue is executed. -/
theorem rescue_multisig_of_approved_rescue :
    let run := history Demo.env (Demo.approvedRescue ++
      [Demo.call 21 (.executeRescue Demo.admin 1 Demo.token)])
    ∃ e older, run.1 = e :: older ∧
      ∃ p, e.before.rescue.proposal 1 = some p ∧ RescueSafe 1 older e p := by
  intro run
  have hrun : Reachable run.1 run.2 := history_reachable Demo.env_deployed (by decide)
  exact ⟨_, _, rfl, (@rescue_multisig _ _ _ hrun).1 Demo.admin 1 Demo.token rfl⟩

/-! ### The asset of an execution -/

/-- In this event a registered signer executes the proposal `id` in `token`. -/
def ExecutesIn (env : Env) (id : Nat) (token : Address) (event : Event) : Prop :=
  ∃ auths caller, event.transaction = .invoke auths (.executeRescue caller id token) ∧
    caller ∈ auths ∧ caller ∈ env.rescue.signers

/-- All that is left of an approved proposal is its transfer. -/
theorem executeRescue_eq {env : Env} {caller token : Address} {id : Nat} {p : RescueProposal}
    (hauth : caller ∈ env.auths) (hsigner : isSigner env caller = true)
    (hp : env.rescue.proposal id = some p) (hpending : p.status = .pending)
    (hthreshold : thresholdFor p.kind ≤ p.approvals.length) :
    executeRescue env caller id token =
      (env.setRescue (writeProposal env.rescue id { p with status := .executed })).transfer token
        env.self p.rescueTo p.amount := by
  have happroved : MultiThreshold.executeRescue env caller id =
      .ok (writeProposal env.rescue id { p with status := .executed }, p.rescueTo, p.amount) := by
    unfold MultiThreshold.executeRescue
    simp only [Fallible.bind_eq_ok, requireAuth_eq_ok, Fallible.ensure_eq_ok, Fallible.okOr_eq_ok,
      Fallible.pure_eq_ok]
    exact ⟨(), hauth, (), hsigner, p, hp, (), hpending, (), hthreshold, rfl⟩
  unfold executeRescue
  rw [happroved]
  rfl

/-- An approved proposal is paid if the balance allows it, whoever executes it. -/
theorem execute_log {trace : Trace} {env : Env} (h : Reachable trace env) {id : Nat}
    {p : RescueProposal} (hp : env.rescue.proposal id = some p) (hpending : p.status = .pending)
    (hthreshold : thresholdFor p.kind ≤ p.approvals.length) {token : Address} {event : Event}
    (hevent : ExecutesIn env id token event) :
    (execute env event).tokens.log = if p.amount ≤ env.balanceOf token env.self
      then [⟨token, env.self, p.rescueTo, p.amount⟩] else [] := by
  obtain ⟨auths, caller, ht, hauth, hsigner⟩ := hevent
  have hauths : (env.enter event).auths = auths := by simp [Env.enter, ht]
  have hsigner : isSigner (env.enter event) caller = true :=
    decide_eq_true ((serialized_of_reachable h).mem_iff.mpr hsigner)
  have heq : (Call.executeRescue caller id token).exec (env.enter event) = _ :=
    executeRescue_eq (hauths ▸ hauth) hsigner hp hpending hthreshold
  have hamount := (proposalRecord_of_reachable h hp).amount_pos
  cases hexec : (Call.executeRescue caller id token).exec (env.enter event) with
  | ok env' =>
      obtain ⟨tokens, htransfer, rfl⟩ := transfer_eq_ok.mp (heq.symm.trans hexec)
      obtain ⟨⟨-, hbalance⟩, rfl⟩ := TokenLedger.transfer_eq_some.mp htransfer
      rw [execute_of_exec ht hexec]
      exact (if_pos hbalance).symm
  | error fault =>
      rw [(execute_of_error ht hexec).2]
      refine (if_neg fun hbalance => ?_).symm
      have hok := heq.trans (transfer_eq_ok.mpr
        ⟨_, TokenLedger.transfer_eq_some.mpr ⟨⟨hamount.le, hbalance⟩, rfl⟩, rfl⟩)
      cases hexec.symm.trans hok

/-- **What the approvals determine.** Two executions of an approved proposal pay
the same, or both nothing, exactly if they name the same token or the contract
has too little of both. -/
theorem rescue_transfer_determined {trace : Trace} {env : Env} (h : Reachable trace env) {id : Nat}
    {p : RescueProposal} (hp : env.rescue.proposal id = some p) (hpending : p.status = .pending)
    (hthreshold : thresholdFor p.kind ≤ p.approvals.length) {token₁ token₂ : Address}
    {event₁ event₂ : Event} (h₁ : ExecutesIn env id token₁ event₁)
    (h₂ : ExecutesIn env id token₂ event₂) :
    (execute env event₁).tokens.log = (execute env event₂).tokens.log ↔
      token₁ = token₂ ∨ env.balanceOf token₁ env.self < p.amount ∧
        env.balanceOf token₂ env.self < p.amount := by
  rw [execute_log h hp hpending hthreshold h₁, execute_log h hp hpending hthreshold h₂]
  by_cases hsame : token₁ = token₂
  · subst hsame
    simp
  · by_cases hb₁ : p.amount ≤ env.balanceOf token₁ env.self
    · rw [if_pos hb₁]
      split_ifs <;> simp [hsame, hb₁, not_lt.mpr]
    · by_cases hb₂ : p.amount ≤ env.balanceOf token₂ env.self
      · simp [hsame, hb₁, hb₂, not_lt.mpr]
      · simp [hb₁, hb₂, not_le.mp hb₁, not_le.mp hb₂]

/-- Two signers execute in the same token. -/
theorem rescue_transfer_determined_of_same_token :
    let env := (history Demo.env Demo.approvedRescue).2
    (execute env (Demo.call 21 (.executeRescue Demo.admin 1 Demo.token))).tokens.log =
      (execute env (Demo.call 22 (.executeRescue Demo.oracle 1 Demo.token))).tokens.log := by
  intro env
  have hrun : Reachable (history Demo.env Demo.approvedRescue).1 env :=
    history_reachable Demo.env_deployed (by decide)
  exact (@rescue_transfer_determined _ _ hrun 1 _ rfl rfl (by decide) Demo.token Demo.token _ _
    ⟨_, Demo.admin, rfl, by decide, by decide⟩
    ⟨_, Demo.oracle, rfl, by decide, by decide⟩).mpr (.inl rfl)

/-- The signer who executes takes the native token instead. -/
theorem rescue_transfer_determined_other_token :
    ¬∀ trace env id p, Reachable trace env → env.rescue.proposal id = some p →
      p.status = .pending → thresholdFor p.kind ≤ p.approvals.length →
      ∀ token₁ token₂ event₁ event₂, ExecutesIn env id token₁ event₁ →
        ExecutesIn env id token₂ event₂ →
        (execute env event₁).tokens.log = (execute env event₂).tokens.log := by
  intro h
  let run := history Demo.env Demo.approvedRescue
  have hrun : Reachable run.1 run.2 := history_reachable Demo.env_deployed (by decide)
  have hsame := h _ _ 1 _ hrun rfl rfl (by decide) Demo.token Demo.nativeToken
    (Demo.call 21 (.executeRescue Demo.admin 1 Demo.token))
    (Demo.call 21 (.executeRescue Demo.admin 1 Demo.nativeToken))
    ⟨_, Demo.admin, rfl, by decide, by decide⟩ ⟨_, Demo.admin, rfl, by decide, by decide⟩
  exact absurd hsame (by decide)

end YieldTrust.GrantStream
