import YieldTrust.GrantStream.CouncilTimelock
import YieldTrust.Lib.Quorum

/-!
# YieldTrust.GrantStream.CouncilVeto

How many people a veto takes. The contract counts the entries of the member list
whose flag is set under the action's id. These are as many people who signed that
action as long as nobody is listed twice and a new id carries no flags; and a
rotation can install a council that has already signed.
-/

namespace YieldTrust.GrantStream

open SecurityCouncil

/-! ### Signatures and people -/

/-- `m` signed a veto of the action that is stored under `id`. -/
def Signed (id : Nat) (trace : Trace) (m : Address) : Prop :=
  ∃ e ∈ sinceCreated id trace, signs id m e

/-- When the action was vetoed, three members had signed, and nobody did since. -/
def VetoedByThree (id : Nat) (trace : Trace) : Prop :=
  ∃ newer e older, trace = newer ++ e :: older ∧ (∃ signer, signs id signer e) ∧
    (Quorum requiredSignatures fun m => m ∈ e.before.council.members ∧ Signed id (e :: older) m) ∧
    ∀ e' ∈ newer, creates id e' = false ∧ ∀ m, ¬signs id m e'

/-- The law of the council: a vetoed action was signed by three members, and no
pending action is signed by three. -/
structure VetoNeedsThree (trace : Trace) (c : CouncilState) : Prop where
  vetoed : ∀ id a, c.pendingAction id = some a → a.status = .vetoed → VetoedByThree id trace
  pending : ∀ id a, c.pendingAction id = some a → a.status = .pending →
    ¬Quorum requiredSignatures fun m => m ∈ c.members ∧ Signed id trace m

/-- The step keeps entries of the member list and people apart: nobody is listed
twice, a new council has not signed already, and a new action starts unsigned. -/
structure FairStep (e : Run.Step Env Event) : Prop where
  appoints : ∀ members, councilOp e = some (.appoint members) → members.Nodup
  creates : ∀ id, creates id e = true → ∀ m, e.before.council.vetoSignatures id m = false
  rotates : councilOp e = some .rotate → ∀ rotation,
    e.before.council.pendingRotation = some rotation → rotation.proposedMembers.Nodup ∧
      ∀ id a, e.before.council.pendingAction id = some a → a.status = .pending →
        rotation.proposedMembers.countP (e.before.council.vetoSignatures id) < requiredSignatures

section

variable {id : Nat} {tr : Trace} {e : Run.Step Env Event} {c c' : CouncilState}

theorem signed_cons {m : Address} (hcreate : creates id e = false) :
    Signed id (e :: tr) m ↔ signs id m e ∨ Signed id tr m := by
  unfold Signed sinceCreated
  rw [Run.since_cons_of_neg hcreate]
  simp

theorem not_signed_of_creates {m : Address} (hcreate : creates id e = true) :
    ¬Signed id (e :: tr) m := by
  unfold Signed sinceCreated
  rw [Run.since_cons_of_pos hcreate]
  simp

theorem VetoedByThree.cons (h : VetoedByThree id tr) (hcreate : creates id e = false)
    (hsign : ∀ m, ¬signs id m e) : VetoedByThree id (e :: tr) := by
  obtain ⟨newer, e', older, rfl, hlast, hquorum, hnewer⟩ := h
  exact ⟨e :: newer, e', older, rfl, hlast, hquorum,
    List.forall_mem_cons.mpr ⟨⟨hcreate, hsign⟩, hnewer⟩⟩

/-! ### The invariant of one action -/

/-- The flags of a stored action are its signatures, and they decide its status. -/
structure VetoSound (id : Nat) (trace : Trace) (c : CouncilState) : Prop where
  signatures : c.pendingAction id ≠ none →
    ∀ m, c.vetoSignatures id m = true ↔ Signed id trace m
  pending : ∀ a, c.pendingAction id = some a → a.status = .pending →
    countVetoSignatures c id < requiredSignatures
  vetoed : ∀ a, c.pendingAction id = some a → a.status = .vetoed → VetoedByThree id trace

/-- A step that neither creates nor signs the action, and does not veto it. -/
theorem VetoSound.untouched (h : VetoSound id tr c) (hcreate : creates id e = false)
    (hsign : ∀ m, ¬signs id m e)
    (haction : ∀ a, c'.pendingAction id = some a →
      ∃ a₀, c.pendingAction id = some a₀ ∧ (a.status = .vetoed → a₀.status = .vetoed))
    (hflags : c'.vetoSignatures id = c.vetoSignatures id)
    (hcount : ∀ a, c'.pendingAction id = some a → a.status = .pending →
      countVetoSignatures c' id < requiredSignatures) : VetoSound id (e :: tr) c' := by
  refine ⟨fun hsome m => ?_, hcount, fun a ha hvetoed => ?_⟩
  · obtain ⟨a, ha⟩ := Option.ne_none_iff_exists'.mp hsome
    obtain ⟨a₀, ha₀, -⟩ := haction a ha
    rw [signed_cons hcreate, hflags, h.signatures (by simp [ha₀])]
    simp [hsign m]
  · obtain ⟨a₀, ha₀, hstatus⟩ := haction a ha
    exact (h.vetoed a₀ ha₀ (hstatus hvetoed)).cons hcreate hsign

/-- The count does not change with the members and the flags of the action. -/
theorem VetoSound.unaffected (h : VetoSound id tr c) (hcreate : creates id e = false)
    (hsign : ∀ m, ¬signs id m e) (haction : c'.pendingAction id = c.pendingAction id)
    (hflags : c'.vetoSignatures id = c.vetoSignatures id)
    (hmembers : c'.councilMembers = c.councilMembers) : VetoSound id (e :: tr) c' := by
  refine h.untouched hcreate hsign (fun a ha => ⟨a, haction ▸ ha, fun hv => hv⟩) hflags ?_
  intro a ha hpending
  unfold countVetoSignatures
  rw [hflags, hmembers]
  exact h.pending a (haction ▸ ha) hpending

end

/-- What holds of the council in every run of fair steps. -/
structure CouncilSound (trace : Trace) (c : CouncilState) : Prop where
  distinct : c.members.Nodup
  unsigned : c.councilMembers = none → ∀ id m, c.vetoSignatures id m = false
  sound : ∀ id, VetoSound id trace c

theorem countVetoSignatures_eq_zero {c : CouncilState} {id : Nat}
    (h : ∀ m, c.vetoSignatures id m = false) : countVetoSignatures c id = 0 := by
  refine List.countP_eq_zero.mpr fun m _ => ?_
  simp [h m]

theorem councilMembers_ne_none {c : CouncilState} {m : Address} (h : m ∈ c.members) :
    c.councilMembers ≠ none := by
  intro hno
  simp [CouncilState.members, hno] at h

theorem signs_of_op {id : Nat} {e : Run.Step Env Event} {op : CouncilOp} {m : Address}
    (hop : councilOp e = some op) (hsign : signs id m e) : op = .signVeto id m :=
  Option.some.inj (hop.symm.trans hsign.1)

/-- A signature that is accepted counts from then on. -/
theorem VetoSound.sign {id : Nat} {tr : Trace} {e : Run.Step Env Event} {c : CouncilState}
    {signer : Address} (h : VetoSound id tr c) (hcreate : creates id e = false)
    (hsign : signs id signer e) (hsome : c.pendingAction id ≠ none) (m : Address) :
    (c.sign id signer).vetoSignatures id m = true ↔ Signed id (e :: tr) m := by
  rw [CouncilState.sign_signatures, signed_cons hcreate, h.signatures hsome]
  have hsigner : signs id m e ↔ m = signer := by
    constructor
    · intro hm
      exact (CouncilOp.signVeto.inj (signs_of_op hsign.1 hm)).2.symm
    · rintro rfl
      exact hsign
  simp [hsigner]

theorem CouncilSound.step {tr : Trace} {e : Run.Step Env Event} {op : CouncilOp}
    (h : CouncilSound tr e.before.council) (hkeyed : e.before.council.Keyed) (hfair : FairStep e)
    (hop : councilOp e = some op)
    (hstep : CouncilStep e.action.timestamp e.action.auths op e.before.council e.after.council) :
    CouncilSound (e :: tr) e.after.council := by
  have hnosign (id : Nat) (hne : ∀ signer, op ≠ .signVeto id signer) (m : Address) :
      ¬signs id m e := fun hsign => hne m (signs_of_op hop hsign)
  have hcreates (id : Nat) (hnot : ∀ actionType targetGrantId initiator parameters,
      op ≠ .create actionType targetGrantId initiator parameters) : creates id e = false :=
    creates_of_op hop hnot
  generalize hbefore : e.before.council = c at hstep hkeyed h
  generalize hafter : e.after.council = c' at hstep
  cases hstep with
  | @appoint _ _ members hnone _ hc =>
      subst hc
      have hzero (id : Nat) : members.countP (c.vetoSignatures id) = 0 :=
        countVetoSignatures_eq_zero (c := { c with councilMembers := some members })
          (h.unsigned hnone id)
      refine ⟨hfair.appoints _ hop, fun hno => (nomatch hno), fun id => ?_⟩
      refine (h.sound id).untouched (hcreates id (by simp)) (hnosign id (by simp))
        (fun a ha => ⟨a, ha, fun hv => hv⟩) rfl ?_
      intro a _ _
      exact (hzero id).trans_lt (by decide)
  | @create _ _ newId _ _ _ _ hauth hid hc =>
      have hnew : creates newId e = true := by
        rw [creates_of_create hop, hafter, hc]
        exact decide_eq_true rfl
      have hunsigned := hfair.creates newId hnew
      rw [hbefore] at hunsigned
      have hother {id : Nat} (hne : id ≠ newId) : creates id e = false := by
        rw [creates_of_create hop, hafter, hc]
        exact decide_eq_false hne.symm
      subst hc
      refine ⟨h.distinct, h.unsigned, fun id => ?_⟩
      by_cases heq : id = newId
      · subst heq
        refine ⟨fun _ m => ?_, fun a _ _ => ?_, fun a ha hvetoed => ?_⟩
        · simp [hunsigned m, not_signed_of_creates hnew]
        · exact (countVetoSignatures_eq_zero hunsigned).trans_lt (by decide)
        · dsimp only at ha
          rw [Function.update_self] at ha
          obtain rfl := Option.some.inj ha
          cases hvetoed
      · exact (h.sound id).unaffected (hother heq) (hnosign id (by simp))
          (Function.update_of_ne heq ..) rfl rfl
  | @sign _ _ actionId signer a ha hpending _ hmember hauth hcount hc =>
      subst hc
      refine ⟨h.distinct, fun hno => ?_, fun id => ?_⟩
      · exact absurd hno (councilMembers_ne_none hmember)
      · have hcreate := hcreates id (by simp)
        by_cases heq : id = actionId
        · subst heq
          refine ⟨fun _ => (h.sound id).sign hcreate ⟨hop, hauth⟩ (by simp [ha]),
            fun _ _ _ => hcount, fun a' ha' hvetoed => ?_⟩
          obtain rfl := Option.some.inj (ha.symm.trans ha')
          cases hpending.symm.trans hvetoed
        · refine (h.sound id).unaffected hcreate (hnosign id ?_) rfl ?_ rfl
          · rintro _ ⟨⟩
            exact heq rfl
          · exact Function.update_of_ne heq ..
  | @veto _ _ actionId signer a ha hpending _ hmember hauth hcount hc =>
      subst hc
      have hkey := hkeyed _ _ ha
      refine ⟨h.distinct, fun hno => ?_, fun id => ?_⟩
      · exact absurd hno (councilMembers_ne_none hmember)
      · have hcreate := hcreates id (by simp)
        by_cases heq : id = actionId
        · subst heq
          have hsigned := (h.sound id).sign hcreate ⟨hop, hauth⟩ (by simp [ha])
          have hquorum := Quorum.of_countP (f := (c.sign id signer).vetoSignatures id)
            h.distinct hcount
          refine ⟨fun _ => hsigned, fun a' ha' hp => ?_, fun _ _ _ => ?_⟩
          · rw [writePendingAction_self hkey] at ha'
            obtain rfl := Option.some.inj ha'
            cases hp
          · refine ⟨[], e, tr, rfl, ⟨signer, hop, hauth⟩, ?_, fun _ he => (nomatch he)⟩
            rw [hbefore]
            exact hquorum.mono fun m hm => ⟨hm.1, (hsigned m).mp hm.2⟩
        · refine (h.sound id).unaffected hcreate (hnosign id ?_) ?_ ?_ rfl
          · rintro _ ⟨⟩
            exact heq rfl
          · exact writePendingAction_of_ne (hkey.symm ▸ heq)
          · exact Function.update_of_ne heq ..
  | @execute _ _ actionId a ha hopen htime hc =>
      subst hc
      have hkey := hkeyed _ _ ha
      refine ⟨h.distinct, h.unsigned, fun id => ?_⟩
      have hcreate := hcreates id (by simp)
      have hnone := hnosign id (by simp)
      by_cases heq : id = actionId
      · subst heq
        have hexecuted (a' : PendingAction) (ha' : (writePendingAction c
            { a with status := .executed }).pendingAction id = some a') :
            a'.status = .executed := by
          rw [writePendingAction_self hkey] at ha'
          exact congrArg PendingAction.status (Option.some.inj ha').symm
        refine (h.sound id).untouched hcreate hnone (fun a' ha' => ⟨a, ha, fun hv => ?_⟩) rfl ?_
        · cases (hexecuted a' ha').symm.trans hv
        · intro a' ha' hp
          cases (hexecuted a' ha').symm.trans hp
      · exact (h.sound id).unaffected hcreate hnone (writePendingAction_of_ne (hkey.symm ▸ heq))
          rfl rfl
  | proposeRotation _ hc =>
      subst hc
      refine ⟨h.distinct, h.unsigned, fun id => ?_⟩
      exact (h.sound id).unaffected (hcreates id (by simp)) (hnosign id (by simp)) rfl rfl rfl
  | @rotate _ _ rotation hrotation hopen htime hc =>
      obtain ⟨hdistinct, hfew⟩ := hfair.rotates hop rotation (hbefore ▸ hrotation)
      rw [hbefore] at hfew
      subst hc
      refine ⟨hdistinct, fun hno => (nomatch hno), fun id => ?_⟩
      exact (h.sound id).untouched (hcreates id (by simp)) (hnosign id (by simp))
        (fun a ha => ⟨a, ha, fun hv => hv⟩) rfl (hfew id)

theorem councilSound_of_reachable {trace : Trace} {env : Env} (h : Reachable trace env)
    (hfair : ∀ e ∈ trace, FairStep e) : CouncilSound trace env.council := by
  refine council_induction (I := fun tr c => (∀ e ∈ tr, FairStep e) → CouncilSound tr c)
    ?_ ?_ ?_ h hfair
  · intro _
    refine ⟨List.nodup_nil, fun _ _ _ => rfl, fun id => ⟨fun hsome => absurd rfl hsome, ?_, ?_⟩⟩
    · intro a ha
      cases ha
    · intro a ha
      cases ha
  · intro tr e _ ih hop _ hall
    obtain ⟨hdistinct, hunsigned, hsound⟩ := ih (List.forall_mem_cons.mp hall).2
    refine ⟨hdistinct, hunsigned, fun id => ?_⟩
    have hsign (m : Address) : ¬signs id m e := fun h => by simp [signs, hop] at h
    exact (hsound id).unaffected (creates_of_none hop) hsign rfl rfl rfl
  · intro tr e op hrun ih hop hstep hall
    obtain ⟨hhead, htail⟩ := List.forall_mem_cons.mp hall
    exact (ih htail).step (keyed_of_reachable hrun) hhead hop hstep

/-! ### Three people -/

/-- **A veto needs three people**, and three are enough, in every run of fair
steps. -/
theorem veto_needs_three {trace : Trace} {env : Env} (h : Reachable trace env)
    (hfair : ∀ e ∈ trace, FairStep e) : VetoNeedsThree trace env.council := by
  have hsound := councilSound_of_reachable h hfair
  refine ⟨fun id => (hsound.sound id).vetoed, fun id a ha hpending hquorum => ?_⟩
  have hflags := (hsound.sound id).signatures (by simp [ha])
  have hcount := (hsound.sound id).pending a ha hpending
  refine absurd (Quorum.le_countP (l := env.council.members) (f := env.council.vetoSignatures id)
    (hquorum.mono fun m hm => ⟨hm.1, (hflags m).mpr hm.2⟩)) (not_le.mpr hcount)

/-- Councils of different people, initialized before any action and never rotated. -/
theorem fairSteps_of_early {trace : Trace} {env : Env} (h : Reachable trace env)
    (hearly : ∀ e ∈ trace, AppointsEarly e)
    (hdistinct : ∀ members, .appoint members ∈ trace.filterMap councilOp → members.Nodup)
    (hrotate : .rotate ∉ trace.filterMap councilOp) : ∀ e ∈ trace, FairStep e := by
  intro e he
  refine ⟨fun members hop => hdistinct members (List.mem_filterMap.mpr ⟨e, he, hop⟩),
    fun id hcreate m => ?_, fun hop => absurd (List.mem_filterMap.mpr ⟨e, he, hop⟩) hrotate⟩
  obtain ⟨newer, older, rfl⟩ := List.append_of_mem he
  obtain ⟨hrun, hn, -⟩ := h.suffix.uncons
  have hfresh := fresh_of_reachable hrun fun e' he' =>
    hearly e' (List.mem_append_right _ (List.mem_cons_of_mem _ he'))
  by_contra hsigned
  have hsome := hfresh.signed id m (by simpa using hsigned)
  cases actionEvent_of_next hrun hn id with
  | kept hno | vetoed _ hno | executed hno => simp [hno] at hcreate
  | created _ _ _ hid =>
      have hle := hfresh.le_counter id hsome
      omega

/-- The third of three different members completes the veto. -/
theorem veto_needs_three_of_early_council :
    let run := history Demo.env (Demo.setUp 1000 ++
      [Demo.call 1 (.initializeSecurityCouncil Demo.council),
        Demo.call 11 (.createTimelockedAction .rateChange none Demo.admin [2]),
        Demo.call 21 (.councilSignVeto 1 Demo.oracle),
        Demo.call 22 (.councilSignVeto 1 Demo.grantee),
        Demo.call 23 (.councilSignVeto 1 Demo.donor)])
    VetoNeedsThree run.1 run.2.council ∧ VetoedByThree 1 run.1 := by
  intro run
  have hrun : Reachable run.1 run.2 := history_reachable Demo.env_deployed (by decide)
  have hlist : ∀ e ∈ run.1, (councilOp e).any CouncilOp.isAppoint = true →
      e.before.council.actionIds = [] := by decide
  have hops : run.1.filterMap councilOp =
      [.signVeto 1 Demo.donor, .signVeto 1 Demo.grantee, .signVeto 1 Demo.oracle,
        .create .rateChange none Demo.admin [2], .appoint Demo.council] := by decide
  have hfair := fairSteps_of_early hrun (appointsEarly_of_unlisted hrun hlist)
    (by simp [hops, Demo.council, Demo.donor, Demo.grantee, Demo.oracle, Demo.admin, Demo.validator])
    (by simp [hops])
  have hlaw := @veto_needs_three _ _ hrun hfair
  exact ⟨hlaw, hlaw.vetoed 1 _ rfl rfl⟩

/-- One address is listed three times, and vetoes an action alone. -/
theorem veto_needs_three_repeated_member :
    ¬∀ trace env, Reachable trace env → VetoNeedsThree trace env.council := by
  intro h
  let run := history Demo.env (Demo.setUp 1000 ++
    [Demo.call 1 (.initializeSecurityCouncil
        [Demo.donor, Demo.donor, Demo.donor, Demo.admin, Demo.oracle]),
      Demo.call 11 (.createTimelockedAction .rateChange none Demo.admin [2]),
      Demo.call 21 (.councilSignVeto 1 Demo.donor)])
  have hrun : Reachable run.1 run.2 := history_reachable Demo.env_deployed (by decide)
  have hops : run.1.filterMap councilOp =
      [.signVeto 1 Demo.donor, .create .rateChange none Demo.admin [2],
        .appoint [Demo.donor, Demo.donor, Demo.donor, Demo.admin, Demo.oracle]] := by decide
  obtain ⟨newer, e, older, hsplit, -, hquorum, -⟩ := (h _ _ hrun).vetoed 1 _ rfl rfl
  have hdonor : Quorum 3 fun m => m ∈ [Demo.donor] ∧ true = true := by
    refine hquorum.mono fun m hm => ⟨?_, rfl⟩
    obtain ⟨-, e', he', hsign, -⟩ := hm
    have hmem : e' ∈ run.1 := by
      rw [hsplit]
      exact List.mem_append_right _ (Run.since_subset _ _ he')
    have hop := List.mem_filterMap.mpr ⟨e', hmem, hsign⟩
    rw [hops] at hop
    simpa using hop
  exact absurd (Quorum.le_countP hdonor) (by decide)

end YieldTrust.GrantStream
