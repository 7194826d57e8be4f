import YieldTrust.GrantStream.CouncilSteps

/-!
# YieldTrust.GrantStream.ActionHistory

One timelocked action at a time: what a step does to the action stored under an
id (`ActionEvent`), and what the history knows about a stored action
(`Recorded`): who created it and when, and how often it was executed since.

An id can be given out twice, because initializing the council resets the
counter. The action stored under an id is the one of the latest creation.
-/

namespace YieldTrust.GrantStream

open SecurityCouncil

/-! ### Steps on an action -/

/-- The id of the action that the step created, if it created one. -/
def createdId (e : Run.Step Env Event) : Option Nat :=
  match councilOp e with
  | some (.create ..) => some e.after.council.actionCounter
  | _ => none

/-- The step created the action `id`. -/
def creates (id : Nat) (e : Run.Step Env Event) : Bool := createdId e = some id

/-- The step executed the action `id`, by either entry point. -/
def executes (id : Nat) (e : Run.Step Env Event) : Bool := councilOp e = some (.execute id)

/-- The step signed a veto of `id` for `signer`. -/
def signs (id : Nat) (signer : Address) (e : Run.Step Env Event) : Prop :=
  councilOp e = some (.signVeto id signer) ∧ signer ∈ e.action.auths

/-- The steps since the action `id` was created, newest first. -/
def sinceCreated (id : Nat) (trace : Trace) : Trace := Run.since (creates id) trace

theorem creates_of_op {id : Nat} {e : Run.Step Env Event} {op : CouncilOp}
    (hop : councilOp e = some op)
    (hnot : ∀ actionType targetGrantId initiator parameters,
      op ≠ .create actionType targetGrantId initiator parameters) : creates id e = false := by
  unfold creates createdId
  rw [hop]
  cases op with
  | create => exact (hnot _ _ _ _ rfl).elim
  | appoint | signVeto | execute | proposeRotation | rotate => rfl

theorem creates_of_none {id : Nat} {e : Run.Step Env Event} (hop : councilOp e = none) :
    creates id e = false := by
  simp [creates, createdId, hop]

theorem creates_of_create {id : Nat} {e : Run.Step Env Event} {actionType : ActionType}
    {targetGrantId : Option Nat} {initiator : Address} {parameters : List Int}
    (hop : councilOp e = some (.create actionType targetGrantId initiator parameters)) :
    creates id e = decide (e.after.council.actionCounter = id) := by
  simp [creates, createdId, hop]

theorem executes_of_op {id : Nat} {e : Run.Step Env Event} {op : CouncilOp}
    (hop : councilOp e = some op) : executes id e = decide (op = .execute id) := by
  simp [executes, hop]

/-- Every action is stored under its own id. -/
def CouncilState.Keyed (c : CouncilState) : Prop :=
  ∀ id a, c.pendingAction id = some a → a.actionId = id

theorem CouncilState.Keyed.update {c : CouncilState} (h : c.Keyed) (a : PendingAction) :
    ({ c with pendingAction := Function.update c.pendingAction a.actionId (some a) } :
      CouncilState).Keyed := by
  intro id a' ha'
  dsimp only at ha'
  by_cases hid : id = a.actionId
  · subst hid
    rw [Function.update_self] at ha'
    exact congrArg PendingAction.actionId (Option.some.inj ha').symm
  · rw [Function.update_of_ne hid] at ha'
    exact h id a' ha'

theorem CouncilStep.keyed {now : Nat} {auths : List Address} {op : CouncilOp}
    {c c' : CouncilState} (hstep : CouncilStep now auths op c c') (h : c.Keyed) : c'.Keyed := by
  cases hstep with
  | appoint _ _ hc | proposeRotation _ hc | rotate _ _ _ hc | sign _ _ _ _ _ _ hc =>
      subst hc
      exact h
  | create _ _ hc =>
      subst hc
      exact h.update (newAction ..)
  | veto _ _ _ _ _ _ hc =>
      subst hc
      exact CouncilState.Keyed.update (c := c.sign _ _) h _
  | execute _ _ _ hc =>
      subst hc
      exact h.update _

theorem keyed_of_reachable {trace : Trace} {env : Env} (h : Reachable trace env) :
    env.council.Keyed := by
  refine council_induction (I := fun _ c => c.Keyed) ?_ ?_ ?_ h
  · intro id a ha
    cases ha
  · intro tr e _ ih _ _
    exact ih
  · intro tr e op _ ih _ hstep
    exact hstep.keyed ih

/-- What a step does to the action stored under `id`. -/
inductive ActionEvent (id : Nat) (e : Run.Step Env Event) : Prop
  /-- The step is about something else. -/
  | kept (hcreate : creates id e = false) (hexecute : executes id e = false)
      (h : e.after.council.pendingAction id = e.before.council.pendingAction id)
  | created {actionType : ActionType} {targetGrantId : Option Nat} {initiator : Address}
      {parameters : List Int}
      (hop : councilOp e = some (.create actionType targetGrantId initiator parameters))
      (hcreate : creates id e = true) (hexecute : executes id e = false)
      (hid : id = e.before.council.actionCounter + 1)
      (h : e.after.council.pendingAction id = some
        (newAction e.action.timestamp id actionType targetGrantId initiator parameters))
  | vetoed {a : PendingAction} {signer : Address}
      (hop : councilOp e = some (.signVeto id signer))
      (hcreate : creates id e = false) (hexecute : executes id e = false)
      (ha : e.before.council.pendingAction id = some a) (hpending : a.status = .pending)
      (hmember : signer ∈ e.before.council.members) (hauth : signer ∈ e.action.auths)
      (h : e.after.council.pendingAction id = some { a with status := .vetoed })
  | executed {a : PendingAction} (hcreate : creates id e = false) (hexecute : executes id e = true)
      (ha : e.before.council.pendingAction id = some a)
      (hopen : a.status ≠ .vetoed ∧ a.status ≠ .executed)
      (htime : a.executableAt ≤ e.action.timestamp)
      (h : e.after.council.pendingAction id = some { a with status := .executed })

/-- An accepted operation does one of these things to each action. -/
theorem actionEvent_of_step {e : Run.Step Env Event} {op : CouncilOp}
    (hkeyed : e.before.council.Keyed) (hop : councilOp e = some op)
    (hstep : CouncilStep e.action.timestamp e.action.auths op e.before.council e.after.council)
    (id : Nat) : ActionEvent id e := by
  have hexecute : executes id e = decide (op = .execute id) := executes_of_op hop
  generalize hc₀ : e.before.council = c at hstep hkeyed
  generalize hc₁ : e.after.council = c' at hstep
  cases hstep with
  | appoint _ _ hc | proposeRotation _ hc | rotate _ _ _ hc =>
      refine .kept (creates_of_op hop (by simp)) (by simp [hexecute]) ?_
      rw [hc₀, hc₁, hc]
  | sign _ _ _ _ _ _ hc =>
      refine .kept (creates_of_op hop (by simp)) (by simp [hexecute]) ?_
      rw [hc₀, hc₁, hc]
      rfl
  | @create _ _ newId _ _ _ _ _ hid hc =>
      have hcreates : creates id e = decide (e.after.council.actionCounter = id) :=
        creates_of_create hop
      rw [hc₁, hc] at hcreates
      by_cases heq : newId = id
      · subst heq
        refine .created hop (by simp [hcreates]) (by simp [hexecute]) (by rw [hc₀, hid]) ?_
        rw [hc₁, hc]
        exact Function.update_self ..
      · refine .kept (by simp [hcreates, heq]) (by simp [hexecute]) ?_
        rw [hc₀, hc₁, hc]
        exact Function.update_of_ne (Ne.symm heq) ..
  | @veto _ _ actionId signer a ha hpending _ hmember hauth _ hc =>
      have hkey := hkeyed _ _ ha
      by_cases heq : actionId = id
      · subst heq
        refine .vetoed hop (creates_of_op hop (by simp)) (by simp [hexecute])
          (by rw [hc₀, ha]) hpending (by rw [hc₀]; exact hmember) hauth ?_
        rw [hc₁, hc]
        exact writePendingAction_self hkey
      · refine .kept (creates_of_op hop (by simp)) (by simp [hexecute]) ?_
        rw [hc₀, hc₁, hc]
        exact writePendingAction_of_ne (hkey.symm ▸ Ne.symm heq)
  | @execute _ _ actionId a ha hopen htime hc =>
      have hkey := hkeyed _ _ ha
      by_cases heq : actionId = id
      · subst heq
        refine .executed (creates_of_op hop (by simp)) (by simp [hexecute]) (by rw [hc₀, ha])
          hopen htime ?_
        rw [hc₁, hc]
        exact writePendingAction_self hkey
      · refine .kept (creates_of_op hop (by simp)) (by simp [hexecute, heq]) ?_
        rw [hc₀, hc₁, hc]
        exact writePendingAction_of_ne (hkey.symm ▸ Ne.symm heq)

/-- Whatever happens next does one of these things to each action. -/
theorem actionEvent_of_next {tr : Trace} {e : Run.Step Env Event} (hrun : Reachable tr e.before)
    (hn : Next e.before e.action e.after) (id : Nat) : ActionEvent id e := by
  rcases council_of_next hn with ⟨hop, hsame⟩ | ⟨op, hop, hstep⟩
  · refine .kept (creates_of_none hop) ?_ (by rw [hsame])
    simp [executes, show councilOp e = none from hop]
  · exact actionEvent_of_step (keyed_of_reachable hrun) hop hstep id

/-! ### The history of an action -/

/-- **Induction over the history of an action.** `I trace a?` is to hold when
`a?` is what is stored under `id` after `trace`. -/
theorem action_induction {id : Nat} {I : Trace → Option PendingAction → Prop} (start : I [] none)
    (step : ∀ {tr : Trace} {e : Run.Step Env Event}, Reachable tr e.before →
      I tr (e.before.council.pendingAction id) → ActionEvent id e →
      I (e :: tr) (e.after.council.pendingAction id))
    {trace : Trace} {env : Env} (h : Reachable trace env) :
    I trace (env.council.pendingAction id) := by
  refine Run.event_induction (f := fun env : Env => env.council.pendingAction id)
    (fun hrun hn => actionEvent_of_next hrun hn id) ?_ step h
  rintro env ⟨_, _, _, rfl⟩
  exact start

/-- The step that created the action stored under `id`. -/
def creation (id : Nat) (trace : Trace) : Option (Run.Step Env Event) := trace.find? (creates id)

theorem creation_cons_of_pos {id : Nat} {e : Run.Step Env Event} (h : creates id e = true)
    (trace : Trace) : creation id (e :: trace) = some e := by
  simp [creation, h]

theorem creation_cons_of_neg {id : Nat} {e : Run.Step Env Event} (h : creates id e = false)
    (trace : Trace) : creation id (e :: trace) = creation id trace := by
  simp [creation, h]

/-- What the history knows about the action `a` that is stored under `id`. -/
structure Recorded (id : Nat) (trace : Trace) (a : PendingAction) : Prop where
  created : ∃ e, creation id trace = some e ∧ a.createdAt = e.action.timestamp ∧
    councilOp e = some (.create a.actionType a.targetGrantId a.initiator a.parameters)
  executableAt : a.executableAt = a.createdAt + timelockDurationSecs
  not_expired : a.status ≠ .expired
  executions : (sinceCreated id trace).countP (executes id) =
    if a.status = .executed then 1 else 0

namespace Recorded

variable {id : Nat} {trace : Trace} {e : Run.Step Env Event} {a : PendingAction}

/-- A step that leaves the terms of the action alone. -/
theorem step (h : Recorded id trace a) (hcreate : creates id e = false) {status : ActionStatus}
    (hstatus : status ≠ .expired)
    (hcount : (if executes id e then 1 else 0) + (if a.status = .executed then 1 else 0) =
      if status = .executed then 1 else 0) :
    Recorded id (e :: trace) { a with status } := by
  refine ⟨?_, h.executableAt, hstatus, ?_⟩
  · rw [creation_cons_of_neg hcreate]
    exact h.created
  · unfold sinceCreated
    rw [Run.since_cons_of_neg hcreate, List.countP_cons, Nat.add_comm]
    exact (congrArg _ h.executions).trans hcount

theorem status_of_open (h : Recorded id trace a)
    (hopen : a.status ≠ .vetoed ∧ a.status ≠ .executed) : a.status = .pending := by
  have hexpired := h.not_expired
  cases hs : a.status <;> simp_all

end Recorded

/-- Every stored action is recorded in the history. -/
theorem recorded_of_reachable {trace : Trace} {env : Env} (h : Reachable trace env) {id : Nat}
    {a : PendingAction} (ha : env.council.pendingAction id = some a) : Recorded id trace a := by
  refine action_induction (I := fun tr a? => ∀ a, a? = some a → Recorded id tr a) ?_ ?_ h a ha
  · intro a ha
    cases ha
  · intro tr e _ ih hevent a' ha'
    cases hevent with
    | kept hcreate hexecute hsame =>
        rw [hsame] at ha'
        have hrecord := ih a' ha'
        exact hrecord.step hcreate hrecord.not_expired (by simp [hexecute])
    | created hop hcreate _ hid hafter =>
        obtain rfl := Option.some.inj (hafter.symm.trans ha')
        refine ⟨⟨e, creation_cons_of_pos hcreate tr, rfl, hop⟩, rfl, by simp [newAction], ?_⟩
        unfold sinceCreated
        rw [Run.since_cons_of_pos hcreate]
        simp [newAction]
    | vetoed _ hcreate hexecute ha hpending _ _ hafter =>
        obtain rfl := Option.some.inj (hafter.symm.trans ha')
        exact (ih _ ha).step hcreate (by simp) (by simp [hexecute, hpending])
    | executed hcreate hexecute ha hopen _ hafter =>
        obtain rfl := Option.some.inj (hafter.symm.trans ha')
        exact (ih _ ha).step hcreate (by simp) (by simp [hexecute, hopen.2])

/-- Only a recorded action that is pending is ever executed, after its timelock. -/
theorem pending_of_executes {older : Trace} {env : Env} {e : Run.Step Env Event}
    (h : Reachable (e :: older) env) {id : Nat} (hexecute : executes id e = true) :
    ∃ a, e.before.council.pendingAction id = some a ∧ a.status = .pending ∧
      a.executableAt ≤ e.action.timestamp ∧ Recorded id older a := by
  obtain ⟨hrun, hn, -⟩ := h.uncons
  cases actionEvent_of_next hrun hn id with
  | kept _ hno | created _ _ hno | vetoed _ _ hno => simp [hno] at hexecute
  | executed _ _ ha hopen htime _ =>
      have hrecord := recorded_of_reachable hrun ha
      exact ⟨_, ha, hrecord.status_of_open hopen, htime, hrecord⟩

/-- Everybody who authorizes `Demo.call` is on the council. -/
def Demo.council : List Address := [admin, oracle, grantee, validator, donor]

end YieldTrust.GrantStream
