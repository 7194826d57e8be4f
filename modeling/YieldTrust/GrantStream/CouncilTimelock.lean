import YieldTrust.GrantStream.ActionIds

/-!
# YieldTrust.GrantStream.CouncilTimelock

The timelock, the finality of actions and the rotation of the council, for runs
in which the council is initialized before the first action.
-/

namespace YieldTrust.GrantStream

open SecurityCouncil

/-! ### Initializing first -/

/-- A successful initialization of the council precedes every created action. -/
def AppointedFirst (trace : Trace) : Prop :=
  ∀ newer e older, trace = newer ++ e :: older → createdId e ≠ none →
    ∃ e' ∈ older, ∃ members, councilOp e' = some (.appoint members)

/-- Once initialized, the council exists. -/
theorem appointed_of_mem {trace : Trace} {env : Env} (h : Reachable trace env)
    (hmem : ∃ e ∈ trace, ∃ members, councilOp e = some (.appoint members)) :
    env.council.councilMembers ≠ none := by
  refine council_induction (I := fun tr c => (∃ e ∈ tr, ∃ members,
    councilOp e = some (.appoint members)) → c.councilMembers ≠ none) ?_ ?_ ?_ h hmem
  · rintro ⟨e, he, -⟩
    cases he
  · intro tr e _ ih hop _ ⟨e', he', members, hop'⟩
    rcases List.mem_cons.mp he' with rfl | he'
    · cases hop.symm.trans hop'
    · exact ih ⟨e', he', members, hop'⟩
  · intro tr e op _ ih hop hstep ⟨e', he', members, hop'⟩
    have hkept : op.isAppoint = false → e.before.council.councilMembers ≠ none := by
      intro hno
      rcases List.mem_cons.mp he' with rfl | he'
      · obtain rfl := Option.some.inj (hop.symm.trans hop')
        cases hno
      · exact ih ⟨e', he', members, hop'⟩
    cases hstep with
    | appoint _ _ hc | rotate _ _ _ hc =>
        rw [hc]
        exact Option.some_ne_none _
    | create _ _ hc | sign _ _ _ _ _ _ hc | veto _ _ _ _ _ _ hc | execute _ _ _ hc
    | proposeRotation _ hc =>
        rw [hc]
        exact hkept rfl

theorem AppointedFirst.appointsEarly {trace : Trace} {env : Env} (h : Reachable trace env)
    (hfirst : AppointedFirst trace) : ∀ e ∈ trace, AppointsEarly e := by
  intro e he members hop id
  obtain ⟨newer, older, rfl⟩ := List.append_of_mem he
  obtain ⟨hrun, hn, -⟩ := h.suffix.uncons
  by_contra hid
  obtain ⟨a, ha⟩ := Option.ne_none_iff_exists'.mp hid
  -- the action was created before, after an earlier initialization
  obtain ⟨c, hc, -⟩ := (recorded_of_reachable hrun ha).created
  obtain ⟨mid, older', hsplit⟩ := List.append_of_mem (List.mem_of_find?_eq_some hc)
  have hcreates : creates id c = true := List.find?_some hc
  have hcreated : createdId c ≠ none := by
    simp only [creates, decide_eq_true_eq] at hcreates
    simp [hcreates]
  obtain ⟨e', he', hop'⟩ := hfirst (newer ++ e :: mid) c older' (by simp [hsplit]) hcreated
  have hsome := appointed_of_mem hrun ⟨e', by simp [hsplit, he'], hop'⟩
  have hstep := councilStep_of_op hn hop
  cases hstep with
  | appoint hnone => exact hsome hnone

/-! ### Leaving pending -/

/-- The step took the action `id` out of `Pending`. -/
def leavesPending (id : Nat) (e : Run.Step Env Event) : Bool :=
  (e.before.council.pendingAction id).map PendingAction.status = some .pending &&
    (e.after.council.pendingAction id).map PendingAction.status ≠ some .pending

/-- 1 if `p` holds of the status of the stored action. -/
def statusCount (p : ActionStatus → Bool) (a? : Option PendingAction) : Nat :=
  if (a?.any fun a => p a.status) then 1 else 0

theorem statusCount_le_one (p : ActionStatus → Bool) (a? : Option PendingAction) :
    statusCount p a? ≤ 1 := by
  unfold statusCount
  split <;> simp

/-- An action is executed, and leaves `Pending`, as often as its status says. -/
theorem counts_of_reachable {trace : Trace} {env : Env} (h : Reachable trace env)
    (hearly : ∀ e ∈ trace, AppointsEarly e) (id : Nat) :
    trace.countP (executes id) =
        statusCount (fun s => s = .executed) (env.council.pendingAction id) ∧
      trace.countP (leavesPending id) =
        statusCount (fun s => s ≠ .pending) (env.council.pendingAction id) := by
  refine action_induction (I := fun tr a? => (∀ e ∈ tr, AppointsEarly e) →
    tr.countP (executes id) = statusCount (fun s => s = .executed) a? ∧
      tr.countP (leavesPending id) = statusCount (fun s => s ≠ .pending) a?) ?_ ?_ h hearly
  · intro _
    exact ⟨rfl, rfl⟩
  · intro tr e hrun ih hevent hall
    have htail := (List.forall_mem_cons.mp hall).2
    obtain ⟨hexecutions, hleaves⟩ := ih htail
    rw [List.countP_cons, List.countP_cons, hexecutions, hleaves]
    cases hevent with
    | kept _ hexecute hsame => simp [leavesPending, hsame, hexecute]
    | created _ _ hexecute hid hafter =>
        have hnone : e.before.council.pendingAction id = none := by
          by_contra hsome
          have hle := (fresh_of_reachable hrun htail).le_counter id hsome
          omega
        simp [leavesPending, statusCount, hnone, hafter, hexecute, newAction]
    | vetoed _ _ hexecute ha hpending _ _ hafter =>
        simp [leavesPending, statusCount, ha, hafter, hexecute, hpending]
    | executed _ hexecute ha hopen _ hafter =>
        have hpending := (recorded_of_reachable hrun ha).status_of_open hopen
        simp [leavesPending, statusCount, ha, hafter, hexecute, hpending]

/-! ### Rotation -/

/-- `members` was proposed at `proposedAt` and not installed since. -/
def RotationProposed (trace : Trace) (members : List Address) (proposedAt : Nat) : Prop :=
  ∃ newer e older, trace = newer ++ e :: older ∧
    councilOp e = some (.proposeRotation members) ∧ e.action.timestamp = proposedAt ∧
    ∀ e' ∈ newer, councilOp e' ≠ some .rotate

theorem RotationProposed.cons {trace : Trace} {members : List Address} {proposedAt : Nat}
    (h : RotationProposed trace members proposedAt) {e : Run.Step Env Event}
    (he : councilOp e ≠ some .rotate) : RotationProposed (e :: trace) members proposedAt := by
  obtain ⟨newer, e', older, rfl, hop, htime, hnewer⟩ := h
  exact ⟨e :: newer, e', older, rfl, hop, htime, List.forall_mem_cons.mpr ⟨he, hnewer⟩⟩

/-- A rotation that is pending was proposed and not installed since. -/
theorem proposed_of_reachable {trace : Trace} {env : Env} (h : Reachable trace env)
    {rotation : CouncilRotation} (hrotation : env.council.pendingRotation = some rotation)
    (hopen : rotation.executed = false) :
    RotationProposed trace rotation.proposedMembers rotation.proposedAt ∧
      rotation.executableAt = rotation.proposedAt + keyRotationTimelockSecs := by
  refine council_induction (I := fun tr c => ∀ rotation, c.pendingRotation = some rotation →
    rotation.executed = false → RotationProposed tr rotation.proposedMembers rotation.proposedAt ∧
      rotation.executableAt = rotation.proposedAt + keyRotationTimelockSecs) ?_ ?_ ?_ h rotation
    hrotation hopen
  · intro rotation hrotation
    cases hrotation
  · intro tr e _ ih hop _ rotation hrotation hopen
    obtain ⟨hproposed, hexecutable⟩ := ih rotation hrotation hopen
    exact ⟨hproposed.cons (by simp [hop]), hexecutable⟩
  · intro tr e op _ ih hop hstep rotation hrotation hopen
    have hkept (hsame : e.after.council.pendingRotation = e.before.council.pendingRotation)
        (hne : op ≠ .rotate) :
        RotationProposed (e :: tr) rotation.proposedMembers rotation.proposedAt ∧
          rotation.executableAt = rotation.proposedAt + keyRotationTimelockSecs := by
      obtain ⟨hproposed, hexecutable⟩ := ih rotation (hsame ▸ hrotation) hopen
      exact ⟨hproposed.cons (by simp [hop, hne]), hexecutable⟩
    generalize hafter : e.after.council = c' at hstep hrotation hkept
    cases hstep with
    | proposeRotation _ hc =>
        subst hc
        obtain rfl := Option.some.inj hrotation
        exact ⟨⟨[], e, tr, rfl, hop, rfl, fun e' he' => (nomatch he')⟩, rfl⟩
    | rotate _ _ _ hc =>
        subst hc
        obtain rfl := Option.some.inj hrotation
        cases hopen
    | appoint _ _ hc | create _ _ hc | sign _ _ _ _ _ _ hc | veto _ _ _ _ _ _ hc
    | execute _ _ _ hc =>
        subst hc
        exact hkept rfl (by simp)

/-! ### The council at one step -/

/-- What the step `e` after the run `older` may do to actions and members. -/
structure CouncilSafe (older : Trace) (e : Run.Step Env Event) : Prop where
  created : ∀ id a, e.before.council.pendingAction id = none →
    e.after.council.pendingAction id = some a →
    a.status = .pending ∧ a.createdAt = e.action.timestamp
  /-- An action leaves `Pending` for `Executed` or `Vetoed`, and never leaves these. -/
  moved : ∀ id a, e.before.council.pendingAction id = some a →
    ∃ status, e.after.council.pendingAction id = some { a with status } ∧
      (status = a.status ∨ a.status = .pending ∧
        (status = .executed ∧ executes id e = true ∧
            a.createdAt + timelockDurationSecs ≤ e.action.timestamp ∨
          status = .vetoed ∧ ∃ signer, signs id signer e ∧
            signer ∈ e.before.council.members))
  executed : ∀ id, executes id e = true →
    ∃ a, e.before.council.pendingAction id = some a ∧ a.status = .pending
  /-- The installed members were proposed seven days before and not installed since. -/
  rotated : councilOp e = some .rotate → ∃ members proposedAt,
    e.after.council.councilMembers = some members ∧ RotationProposed older members proposedAt ∧
      proposedAt + keyRotationTimelockSecs ≤ e.action.timestamp
  members : e.before.council.councilMembers ≠ none →
    e.after.council.councilMembers ≠ e.before.council.councilMembers → councilOp e = some .rotate
  /-- Whether a signature completes a veto depends on who is on the council now. -/
  counted : ∀ id signer, signs id signer e →
    ((∃ a, e.after.council.pendingAction id = some a ∧ a.status = .vetoed) ↔
      requiredSignatures ≤ e.before.council.members.countP fun m =>
        m = signer || e.before.council.vetoSignatures id m)

theorem countVetoSignatures_sign (c : CouncilState) (id : Nat) (signer : Address) :
    countVetoSignatures (c.sign id signer) id =
      c.members.countP fun m => m = signer || c.vetoSignatures id m := by
  refine List.countP_congr fun m _ => ?_
  rw [CouncilState.sign_signatures]
  simp

/-- What is installed was proposed long enough before. -/
theorem rotated_of_reachable {older : Trace} {env : Env} {e : Run.Step Env Event}
    (h : Reachable (e :: older) env) (hrotate : councilOp e = some .rotate) :
    ∃ members proposedAt, e.after.council.councilMembers = some members ∧
      RotationProposed older members proposedAt ∧
      proposedAt + keyRotationTimelockSecs ≤ e.action.timestamp := by
  obtain ⟨hrun, hn, -⟩ := h.uncons
  have hstep := councilStep_of_op hn hrotate
  generalize hafter : e.after.council = c' at hstep
  cases hstep with
  | @rotate _ _ rotation hrotation hopen htime hc =>
      obtain ⟨hproposed, hexecutable⟩ := proposed_of_reachable hrun hrotation hopen
      exact ⟨rotation.proposedMembers, rotation.proposedAt, by rw [hc], hproposed,
        hexecutable ▸ htime⟩

/-- Once there is a council, only a rotation replaces it. -/
theorem rotates_of_members_ne {e : Run.Step Env Event} (hn : Next e.before e.action e.after)
    (hsome : e.before.council.councilMembers ≠ none)
    (hne : e.after.council.councilMembers ≠ e.before.council.councilMembers) :
    councilOp e = some .rotate := by
  rcases council_of_next hn with ⟨-, hsame⟩ | ⟨op, hop, hstep⟩
  · exact absurd (congrArg CouncilState.councilMembers hsame) hne
  · generalize e.after.council = c' at hstep hne
    cases hstep with
    | appoint hnone => exact absurd hnone hsome
    | rotate => exact hop
    | create _ _ hc | sign _ _ _ _ _ _ hc | veto _ _ _ _ _ _ hc | execute _ _ _ hc
    | proposeRotation _ hc =>
        subst hc
        exact absurd rfl hne

/-- A signature completes a veto if enough members of the council have signed now. -/
theorem vetoed_iff_of_signs {older : Trace} {env : Env} {e : Run.Step Env Event}
    (h : Reachable (e :: older) env) {id : Nat} {signer : Address} (hsign : signs id signer e) :
    (∃ a, e.after.council.pendingAction id = some a ∧ a.status = .vetoed) ↔
      requiredSignatures ≤ e.before.council.members.countP fun m =>
        m = signer || e.before.council.vetoSignatures id m := by
  obtain ⟨hrun, hn, -⟩ := h.uncons
  have hkeyed := keyed_of_reachable hrun
  have hstep := councilStep_of_op hn hsign.1
  generalize e.after.council = c' at hstep
  generalize e.before.council = c at hstep hkeyed
  cases hstep with
  | sign ha hpending _ _ _ hcount hc =>
      subst hc
      rw [countVetoSignatures_sign] at hcount
      refine iff_of_false ?_ (not_le.mpr hcount)
      intro ⟨a', ha', hvetoed⟩
      obtain rfl := Option.some.inj (ha.symm.trans ha')
      rw [hpending] at hvetoed
      cases hvetoed
  | @veto _ _ _ _ a ha _ _ _ _ hcount hc =>
      subst hc
      rw [countVetoSignatures_sign] at hcount
      have hkey := hkeyed _ _ ha
      exact iff_of_true ⟨{ a with status := .vetoed }, writePendingAction_self hkey, rfl⟩ hcount

theorem CouncilSafe.of_reachable {older : Trace} {env : Env} {e : Run.Step Env Event}
    (h : Reachable (e :: older) env) (hearly : ∀ e' ∈ older, AppointsEarly e') :
    CouncilSafe older e := by
  obtain ⟨hrun, hn, -⟩ := h.uncons
  have hevent := actionEvent_of_next hrun hn
  refine ⟨fun id a hnone ha => ?_, fun id a ha => ?_, fun id hid => ?_, rotated_of_reachable h,
    rotates_of_members_ne hn, fun id signer => vetoed_iff_of_signs h⟩
  · cases hevent id with
    | kept _ _ hsame =>
        rw [hsame, hnone] at ha
        cases ha
    | created _ _ _ _ hafter =>
        obtain rfl := Option.some.inj (hafter.symm.trans ha)
        exact ⟨rfl, rfl⟩
    | vetoed _ _ _ hbefore | executed _ _ hbefore =>
        rw [hnone] at hbefore
        cases hbefore
  · cases hevent id with
    | kept _ _ hsame => exact ⟨a.status, hsame.trans ha, .inl rfl⟩
    | created _ _ _ hid =>
        have hle := (fresh_of_reachable hrun hearly).le_counter id (by simp [ha])
        omega
    | @vetoed _ signer hop' _ _ ha' hpending hmember hauth hafter =>
        obtain rfl := Option.some.inj (ha.symm.trans ha')
        exact ⟨.vetoed, hafter, .inr ⟨hpending, .inr ⟨rfl, signer, ⟨hop', hauth⟩, hmember⟩⟩⟩
    | executed _ hexecute ha' hopen htime hafter =>
        obtain rfl := Option.some.inj (ha.symm.trans ha')
        have hrecord := recorded_of_reachable hrun ha
        have hlate : a.createdAt + timelockDurationSecs ≤ e.action.timestamp :=
          hrecord.executableAt ▸ htime
        exact ⟨.executed, hafter,
          .inr ⟨hrecord.status_of_open hopen, .inl ⟨rfl, hexecute, hlate⟩⟩⟩
  · cases hevent id with
    | kept _ hno | created _ _ hno | vetoed _ _ hno => simp [hno] at hid
    | executed _ _ ha hopen =>
        exact ⟨_, ha, (recorded_of_reachable hrun ha).status_of_open hopen⟩

/-! ### Timelock and finality -/

/-- **Timelock, finality and rotation.** If the council is initialized before the
first action, every action leaves `Pending` at most once and is executed at most
once, never after a veto, and every step of the run is safe. -/
theorem council_timelock {trace : Trace} {env : Env} (h : Reachable trace env)
    (hfirst : AppointedFirst trace) :
    (∀ id, trace.countP (leavesPending id) ≤ 1 ∧ trace.countP (executes id) ≤ 1 ∧
      ∀ a, env.council.pendingAction id = some a → a.status = .vetoed →
        trace.countP (executes id) = 0) ∧
      ∀ newer e older, trace = newer ++ e :: older → CouncilSafe older e := by
  have hearly := hfirst.appointsEarly h
  refine ⟨fun id => ?_, ?_⟩
  · obtain ⟨hexecutions, hleaves⟩ := counts_of_reachable h hearly id
    rw [hexecutions, hleaves]
    refine ⟨statusCount_le_one .., statusCount_le_one .., fun a ha hvetoed => ?_⟩
    simp [statusCount, ha, hvetoed]
  · rintro newer e older rfl
    refine .of_reachable h.suffix fun e' he' => hearly e' ?_
    exact List.mem_append_right _ (List.mem_cons_of_mem _ he')

/-- An initialization that no action precedes is the first. -/
theorem AppointedFirst.of_append {newer older : Trace} {e : Run.Step Env Event}
    {members : List Address} (hop : councilOp e = some (.appoint members))
    (hnone : ∀ e' ∈ older, createdId e' = none) : AppointedFirst (newer ++ e :: older) := by
  intro newer' e' older' heq hcreated
  rcases List.append_eq_append_iff.mp heq with ⟨between, -, hsplit⟩ | ⟨between, -, hsplit⟩
  · have hmem : e' ∈ e :: older := hsplit ▸ by simp
    rcases List.mem_cons.mp hmem with rfl | hmem
    · exact absurd (by simp [createdId, hop]) hcreated
    · exact absurd (hnone e' hmem) hcreated
  · cases between with
    | nil =>
        obtain ⟨rfl, rfl⟩ := List.cons.inj hsplit
        exact absurd (by simp [createdId, hop]) hcreated
    | cons _ between =>
        obtain ⟨-, rfl⟩ := List.cons.inj hsplit
        exact ⟨e, by simp, members, hop⟩

/-- One action is executed and one is vetoed, and the council is rotated. -/
theorem council_timelock_of_rotation :
    let run := history Demo.env (Demo.setUp 1000 ++
      [Demo.call 1 (.initializeSecurityCouncil Demo.council),
        Demo.call 11 (.createTimelockedAction .rateChange none Demo.admin [2]),
        Demo.call 12 (.createTimelockedAction .adminChange none Demo.admin []),
        Demo.call 13 (.councilSignVeto 2 Demo.oracle),
        Demo.call 14 (.councilSignVeto 2 Demo.grantee),
        Demo.call 15 (.councilSignVeto 2 Demo.donor),
        Demo.call 16 (.proposeCouncilRotation Demo.council.reverse Demo.admin),
        Demo.call 200000 (.executeTimelockedAction 1),
        Demo.call 700000 .execCouncilRotation])
    run.1.countP (leavesPending 1) ≤ 1 ∧ run.1.countP (executes 2) = 0 ∧
      ∃ e older, run.1 = e :: older ∧ councilOp e = some .rotate ∧ CouncilSafe older e := by
  intro run
  have hrun : Reachable run.1 run.2 := history_reachable Demo.env_deployed (by decide)
  have hop : councilOp run.1[8] = some (.appoint Demo.council) := by decide
  have hfirst : AppointedFirst (run.1.take 8 ++ run.1[8] :: run.1.drop 9) :=
    .of_append hop (by decide)
  obtain ⟨hcounts, hsteps⟩ := @council_timelock _ _ hrun hfirst
  exact ⟨(hcounts 1).1, (hcounts 2).2.2 _ rfl rfl, _, _, rfl, rfl, hsteps [] _ _ rfl⟩

end YieldTrust.GrantStream
