import YieldTrust.GrantStream.ActionHistory

/-!
# YieldTrust.GrantStream.ActionIds

The ids of timelocked actions. They come from a counter that initializing the
council resets, although the admin can create actions before: the next actions
then overwrite the old ones, and inherit the signatures collected for them.
-/

namespace YieldTrust.GrantStream

open SecurityCouncil

/-! ### Fresh ids -/

/-- If the step initializes the council, there is no action yet. -/
def AppointsEarly (e : Run.Step Env Event) : Prop :=
  ∀ members, councilOp e = some (.appoint members) → ∀ id, e.before.council.pendingAction id = none

/-- The next id is new: the actions, their list and their signatures are all
about ids up to the counter. -/
structure CouncilState.Fresh (c : CouncilState) : Prop where
  le_counter : ∀ id, c.pendingAction id ≠ none → id ≤ c.actionCounter
  signed : ∀ id m, c.vetoSignatures id m = true → c.pendingAction id ≠ none

theorem CouncilState.Fresh.update {c : CouncilState} (h : c.Fresh) {id : Nat} {a : PendingAction}
    (ha : c.pendingAction id ≠ none) :
    ({ c with pendingAction := Function.update c.pendingAction id (some a) } :
      CouncilState).Fresh := by
  have hsome : ∀ id', Function.update c.pendingAction id (some a) id' ≠ none ↔
      c.pendingAction id' ≠ none := by
    intro id'
    by_cases hid : id' = id
    · subst hid
      simp [ha]
    · rw [Function.update_of_ne hid]
  exact ⟨fun id' h' => h.le_counter id' ((hsome id').mp h'),
    fun id' m h' => (hsome id').mpr (h.signed id' m h')⟩

theorem CouncilState.Fresh.sign {c : CouncilState} (h : c.Fresh) {id : Nat} {signer : Address}
    (ha : c.pendingAction id ≠ none) : (c.sign id signer).Fresh := by
  refine ⟨h.le_counter, fun id' m hm => ?_⟩
  rcases sign_signatures.mp hm with ⟨rfl, -⟩ | hm
  · exact ha
  · exact h.signed id' m hm

theorem CouncilStep.fresh {now : Nat} {auths : List Address} {op : CouncilOp}
    {c c' : CouncilState} (hstep : CouncilStep now auths op c c') (hkeyed : c.Keyed)
    (hearly : ∀ members, op = .appoint members → ∀ id, c.pendingAction id = none)
    (h : c.Fresh) : c'.Fresh := by
  cases hstep with
  | appoint _ _ hc =>
      have hnone := hearly _ rfl
      subst hc
      exact ⟨fun id hid => absurd (hnone id) hid, h.signed⟩
  | create _ hid hc =>
      subst hc hid
      refine ⟨fun id hid => ?_, fun id m hm => ?_⟩
      · dsimp only at hid ⊢
        by_cases heq : id = c.actionCounter + 1
        · exact heq.le
        · rw [Function.update_of_ne heq] at hid
          exact (h.le_counter id hid).trans (Nat.le_succ _)
      · dsimp only
        by_cases heq : id = c.actionCounter + 1
        · subst heq
          simp
        · rw [Function.update_of_ne heq]
          exact h.signed id m hm
  | sign ha _ _ _ _ _ hc =>
      subst hc
      exact h.sign (by simp [ha])
  | veto ha _ _ _ _ _ hc =>
      subst hc
      have hkey := hkeyed _ _ ha
      subst hkey
      exact (h.sign (by simp [ha])).update (show c.pendingAction _ ≠ none by simp [ha])
  | execute ha _ _ hc =>
      subst hc
      have hkey := hkeyed _ _ ha
      subst hkey
      exact h.update (by simp [ha])
  | proposeRotation _ hc | rotate _ _ _ hc =>
      subst hc
      exact ⟨h.le_counter, h.signed⟩

/-- As long as the council is initialized before the first action, ids are fresh. -/
theorem fresh_of_reachable {trace : Trace} {env : Env} (h : Reachable trace env)
    (hearly : ∀ e ∈ trace, AppointsEarly e) : env.council.Fresh := by
  refine council_induction (I := fun tr c => (∀ e ∈ tr, AppointsEarly e) → c.Fresh) ?_ ?_ ?_ h hearly
  · intro _
    exact ⟨fun id hid => absurd rfl hid, fun id m hm => (nomatch hm)⟩
  · intro tr e _ ih _ _ hall
    exact ih (List.forall_mem_cons.mp hall).2
  · intro tr e op hrun ih hop hstep hall
    obtain ⟨hhead, htail⟩ := List.forall_mem_cons.mp hall
    refine hstep.fresh (keyed_of_reachable hrun) (fun members hm => ?_) (ih htail)
    exact hhead members (hm ▸ hop)

/-! ### Actions are never overwritten -/

/-- The step overwrites no action: an id it gives out is new and has no
signatures, and the other actions stay as they are, with their signatures and
their place in the list. -/
structure NeverOverwrites (e : Run.Step Env Event) : Prop where
  new : ∀ id, creates id e = true → e.before.council.pendingAction id = none ∧
    (∃ a, e.after.council.pendingAction id = some a ∧ a.status = .pending) ∧
    ∀ m, e.after.council.vetoSignatures id m = false
  kept : ∀ id, e.before.council.pendingAction id ≠ none →
    (∀ signer, councilOp e ≠ some (.signVeto id signer)) → executes id e = false →
    e.after.council.pendingAction id = e.before.council.pendingAction id ∧
      e.after.council.vetoSignatures id = e.before.council.vetoSignatures id ∧
      (id ∈ e.after.council.actionIds ↔ id ∈ e.before.council.actionIds)

/-- Only a signature on the action changes its signatures. -/
theorem CouncilStep.signatures {now : Nat} {auths : List Address} {op : CouncilOp}
    {c c' : CouncilState} (hstep : CouncilStep now auths op c c') {id : Nat}
    (hop : ∀ signer, op ≠ .signVeto id signer) : c'.vetoSignatures id = c.vetoSignatures id := by
  cases hstep with
  | appoint _ _ hc | create _ _ hc | execute _ _ _ hc | proposeRotation _ hc | rotate _ _ _ hc =>
      subst hc
      rfl
  | @sign _ _ actionId signer _ _ _ _ _ _ _ hc | @veto _ _ actionId signer _ _ _ _ _ _ _ hc =>
      rw [hc]
      refine Function.update_of_ne ?_ ..
      rintro rfl
      exact hop signer rfl

/-- Actions are only added to the list, unless the council is initialized. -/
theorem CouncilStep.listed {now : Nat} {auths : List Address} {op : CouncilOp}
    {c c' : CouncilState} (hstep : CouncilStep now auths op c c') {id : Nat}
    (hop : ∀ members, op ≠ .appoint members) (hid : id ≤ c.actionCounter) :
    id ∈ c'.actionIds ↔ id ∈ c.actionIds := by
  cases hstep with
  | appoint => exact (hop _ rfl).elim
  | @create _ _ newId _ _ _ _ _ hnew hc =>
      have hne : id ≠ newId := by omega
      rw [hc]
      simp [hne]
  | sign _ _ _ _ _ _ hc | veto _ _ _ _ _ _ hc | execute _ _ _ hc | proposeRotation _ hc
  | rotate _ _ _ hc =>
      subst hc
      exact Iff.rfl

theorem NeverOverwrites.of_fresh {older : Trace} {env : Env} {e : Run.Step Env Event}
    (h : Reachable (e :: older) env) (hfresh : e.before.council.Fresh)
    (hearly : AppointsEarly e) : NeverOverwrites e := by
  obtain ⟨hrun, hn, -⟩ := h.uncons
  rcases council_of_next hn with ⟨hop, hsame⟩ | ⟨op, hop, hstep⟩
  · refine ⟨fun id hid => ?_, fun id _ _ _ => ?_⟩
    · rw [creates_of_none hop] at hid
      cases hid
    · rw [hsame]
      exact ⟨rfl, rfl, Iff.rfl⟩
  · have hevent := actionEvent_of_step (keyed_of_reachable hrun) hop hstep
    refine ⟨fun id hcreate => ?_, fun id hold hsign hexecute => ?_⟩
    · cases hevent id with
      | kept hno | vetoed _ hno | executed hno => simp [hno] at hcreate
      | created hop' _ _ hid hafter =>
          have hnone : e.before.council.pendingAction id = none := by
            by_contra hsome
            have hle := hfresh.le_counter id hsome
            omega
          refine ⟨hnone, ⟨_, hafter, rfl⟩, fun m => Bool.eq_false_iff.mpr fun hm => ?_⟩
          obtain rfl := Option.some.inj (hop.symm.trans hop')
          rw [hstep.signatures (by simp)] at hm
          exact hfresh.signed id m hm hnone
    · refine ⟨?_, hstep.signatures fun signer hs => hsign signer (hs ▸ hop), ?_⟩
      · cases hevent id with
        | kept _ _ hsame => exact hsame
        | created _ _ _ hid =>
            have hle := hfresh.le_counter id hold
            omega
        | vetoed hop' => exact absurd hop' (hsign _)
        | executed _ hyes => simp [hyes] at hexecute
      · refine hstep.listed (fun members hm => hold ?_) (hfresh.le_counter id hold)
        exact hearly members (hm ▸ hop) id

/-- Before the council is initialized the list has all actions. -/
theorem listed_of_not_appointed {trace : Trace} {env : Env} (h : Reachable trace env)
    (hnone : env.council.councilMembers = none) {id : Nat}
    (hid : env.council.pendingAction id ≠ none) : id ∈ env.council.actionIds := by
  refine council_induction (I := fun _ c => c.councilMembers = none →
    ∀ id, c.pendingAction id ≠ none → id ∈ c.actionIds) ?_ ?_ ?_ h hnone id hid
  · intro _ id hid
    exact absurd rfl hid
  · intro tr e _ ih _ _
    exact ih
  · intro tr e op hrun ih hop hstep hnone id hid
    have hkeyed := keyed_of_reachable hrun
    generalize e.before.council = c at ih hstep hkeyed
    generalize e.after.council = c' at hstep hnone hid
    cases hstep with
    | appoint _ _ hc | rotate _ _ _ hc =>
        rw [hc] at hnone
        cases hnone
    | @create _ _ newId _ _ _ _ _ hnew hc =>
        subst hc
        dsimp only at hnone hid ⊢
        by_cases heq : id = newId
        · simp [heq]
        · rw [Function.update_of_ne heq] at hid
          exact List.mem_append_left _ (ih hnone id hid)
    | sign _ _ _ _ _ _ hc | proposeRotation _ hc =>
        subst hc
        exact ih hnone id hid
    | @veto _ _ actionId _ _ ha _ _ _ _ _ hc | @execute _ _ actionId _ ha _ _ hc =>
        subst hc
        refine ih hnone id fun hnone' => hid ?_
        have hkey := hkeyed _ _ ha
        refine (Function.update_of_ne (fun heq => ?_) ..).trans hnone'
        dsimp only at heq
        rw [heq, hkey, ha] at hnone'
        cases hnone'

/-- **Actions are never overwritten** in a run exactly when the council is not
initialized after the first action. -/
theorem actions_never_overwritten {trace : Trace} {env : Env} (h : Reachable trace env) :
    (∀ e ∈ trace, NeverOverwrites e) ↔ ∀ e ∈ trace, AppointsEarly e := by
  constructor
  · intro hall e he members hop id
    by_contra hid
    obtain ⟨newer, older, rfl⟩ := List.append_of_mem he
    obtain ⟨hrun, hn, -⟩ := h.suffix.uncons
    have hkept := ((hall e he).kept id hid (by simp [hop]) (by simp [executes, hop])).2.2
    have hstep := councilStep_of_op hn hop
    generalize hafter : e.after.council = c' at hstep hkept
    cases hstep with
    | appoint hnone _ hc =>
        -- the list is emptied although the action was on it
        rw [hc] at hkept
        cases hkept.mpr (listed_of_not_appointed hrun hnone hid)
  · intro hall e he
    obtain ⟨newer, older, rfl⟩ := List.append_of_mem he
    have hsuffix := h.suffix
    refine .of_fresh hsuffix (fresh_of_reachable hsuffix.uncons.1 fun e' he' => ?_) (hall e he)
    exact hall e' (List.mem_append_right _ (List.mem_cons_of_mem _ he'))

/-- An empty list means that there is no action to overwrite. -/
theorem appointsEarly_of_unlisted {trace : Trace} {env : Env} (h : Reachable trace env)
    (hlist : ∀ e ∈ trace, (councilOp e).any CouncilOp.isAppoint = true →
      e.before.council.actionIds = []) : ∀ e ∈ trace, AppointsEarly e := by
  intro e he members hop id
  by_contra hid
  obtain ⟨newer, older, rfl⟩ := List.append_of_mem he
  obtain ⟨hrun, hn, -⟩ := h.suffix.uncons
  have hstep := councilStep_of_op hn hop
  cases hstep with
  | appoint hnone =>
      have hmem := listed_of_not_appointed hrun hnone hid
      rw [hlist e he (by simp [hop, CouncilOp.isAppoint])] at hmem
      cases hmem

/-- Two actions are created and one is signed after the council was initialized. -/
theorem actions_never_overwritten_of_early_council :
    let run := history Demo.env (Demo.setUp 1000 ++
      [Demo.call 1 (.initializeSecurityCouncil Demo.council),
        Demo.call 11 (.createTimelockedAction .rateChange none Demo.admin [2]),
        Demo.call 21 (.councilSignVeto 1 Demo.donor),
        Demo.call 31 (.createTimelockedAction .adminChange none Demo.admin [])])
    ∀ e ∈ run.1, NeverOverwrites e := by
  intro run
  have hrun : Reachable run.1 run.2 := history_reachable Demo.env_deployed (by decide)
  have hlist : ∀ e ∈ run.1, (councilOp e).any CouncilOp.isAppoint = true →
      e.before.council.actionIds = [] := by decide
  exact (@actions_never_overwritten _ _ hrun).mpr (appointsEarly_of_unlisted hrun hlist)

/-- An action is created before the council, and the next one gets the same id. -/
theorem actions_never_overwritten_late_council :
    ¬∀ trace env, Reachable trace env → ∀ e ∈ trace, NeverOverwrites e := by
  intro h
  let run := history Demo.env (Demo.setUp 1000 ++
    [Demo.call 11 (.createTimelockedAction .rateChange none Demo.admin [2]),
      Demo.call 21 (.initializeSecurityCouncil Demo.council),
      Demo.call 31 (.councilSignVeto 1 Demo.donor),
      Demo.call 41 (.createTimelockedAction .adminChange none Demo.admin [])])
  have hrun : Reachable run.1 run.2 := history_reachable Demo.env_deployed (by decide)
  have hnew := (h run.1 run.2 hrun _ (List.mem_cons_self ..)).new 1 (by decide)
  exact absurd hnew.1 (by decide)

end YieldTrust.GrantStream
