import YieldTrust.SpeedBump.Queue

/-!
# YieldTrust.SpeedBump.Safety

The speed bump **over a run**. What is paid out of the queue was queued, waited and was not
vetoed, whatever the ids are; every transfer of the queue can be executed and vetoed by its id
after every step exactly if no transfer is queued under an id that the queue has already.
-/

namespace YieldTrust.SpeedBump

open Fallible
open GrantStream (Address)

variable {env env' start : Env} {call : Call} {id : Nat} {transfer : PendingTransfer}
  {trace older : Trace} {e : Step}

/-! ### Steps -/

/-- The transfer that the step queues. -/
def queued (e : Step) : Option PendingTransfer :=
  (Ledger.called contract e).bind (Call.queued (e.before.enter e.action))

/-- The transfer of the queue that the step pays. -/
def paid (e : Step) : Option PendingTransfer :=
  (Ledger.called contract e).bind (Call.paid (e.before.enter e.action))

/-- The step is a veto with the id. -/
def vetoes (id : Nat) (e : Step) : Bool := (Ledger.called contract e).any (Call.vetoes id)

/-- While no call goes through, nothing is queued or paid. -/
theorem queue_of_idle (h : Ledger.called contract e = none) : queued e = none ∧ paid e = none := by
  simp [queued, paid, h]

theorem queue_of_called (h : Ledger.called contract e = some call) :
    queued e = call.queued (e.before.enter e.action) ∧
      paid e = call.paid (e.before.enter e.action) := by
  simp [queued, paid, h]

/-- What one event does. -/
theorem effect_of_next (h : Ledger.Next contract e.before e.action e.after) :
    (Ledger.called contract e = none ∧ e.after.store = e.before.store) ∨
      ∃ call, Ledger.called contract e = some call ∧
        Effect (e.before.enter e.action) call e.after := by
  rcases Ledger.cases_of_next h with hidle | ⟨call, result, hcalled, -, hexec, hafter⟩
  · exact .inl hidle
  · have heffect : Effect (e.before.enter e.action) call result := exec_effect hexec
    rw [hafter, heffect.commit_eq]
    exact .inr ⟨call, hcalled, heffect⟩

/-! ### What holds whatever the ids are -/

/-- The queue is what was queued and is not paid yet, and what was vetoed stays in it. -/
structure QueueKept (trace : Trace) (env : Env) : Prop where
  perm : (trace.filterMap paid ++
    env.store.pendingTransfers.map PendingTransfer.unvetoed).Perm (trace.filterMap queued)
  blocked : ∀ id, (∃ e ∈ trace, vetoes id e = true) → Blocked env.store.pendingTransfers id
  delay : ∀ transfer ∈ env.store.pendingTransfers,
    transfer.executableAfter = transfer.approvedAt + delaySeconds
  admin : ∃ admin, env.store.admin = some admin

theorem Effect.delay (h : Effect env call env')
    (hdelay : ∀ transfer ∈ env.store.pendingTransfers,
      transfer.executableAfter = transfer.approvedAt + delaySeconds) :
    ∀ transfer ∈ env'.store.pendingTransfers,
      transfer.executableAfter = transfer.approvedAt + delaySeconds := by
  intro t ht
  cases h with
  | paidNow | updated => exact hdelay t ht
  | queued _ recipient amount =>
      rcases List.mem_append.mp ht with ht | ht
      · exact hdelay t ht
      · cases List.mem_singleton.mp ht
        rfl
  | executed _ before transfer after _ _ hfirst =>
      refine hdelay t ?_
      rw [hfirst.split]
      rcases List.mem_append.mp ht with ht | ht
      · exact List.mem_append_left _ ht
      · exact List.mem_append_right _ (List.mem_cons_of_mem _ ht)
  | vetoed _ before transfer after hfirst =>
      rw [hfirst.split, List.forall_mem_append, List.forall_mem_cons] at hdelay
      obtain ⟨hbefore, htransfer, hafter⟩ := hdelay
      rcases List.mem_append.mp ht with ht | ht
      · exact hbefore t ht
      · rcases List.mem_cons.mp ht with rfl | ht
        · exact htransfer
        · exact hafter t ht

/-- **Step lemma.** -/
theorem QueueKept.step (h : QueueKept older e.before)
    (hn : Ledger.Next contract e.before e.action e.after) : QueueKept (e :: older) e.after := by
  rcases effect_of_next hn with ⟨hnone, hstore⟩ | ⟨call, hcalled, heffect⟩
  · obtain ⟨hqueued, hpaid⟩ := queue_of_idle hnone
    refine ⟨?_, fun id hveto => ?_, hstore ▸ h.delay, hstore ▸ h.admin⟩
    · rw [List.filterMap_cons_none hpaid, List.filterMap_cons_none hqueued, hstore]
      exact h.perm
    · rw [hstore]
      obtain ⟨e', he', hveto⟩ := hveto
      rcases List.mem_cons.mp he' with rfl | he'
      · simp [vetoes, hnone] at hveto
      · exact h.blocked id ⟨e', he', hveto⟩
  · obtain ⟨hqueued, hpaid⟩ := queue_of_called hcalled
    have hcons (f : Step → Option PendingTransfer) :
        (e :: older).filterMap f = (f e).toList ++ older.filterMap f := by
      rw [List.filterMap_cons]
      cases f e <;> rfl
    refine ⟨?_, fun id hveto => ?_, heffect.delay h.delay, heffect.admin_eq ▸ h.admin⟩
    · have hstep := heffect.perm
      rw [hcons, hcons, hpaid, hqueued]
      calc _
        _ = (call.paid (e.before.enter e.action)).toList ++ (older.filterMap paid ++
              e.after.store.pendingTransfers.map PendingTransfer.unvetoed) :=
            List.append_assoc ..
        _ |>.Perm (older.filterMap paid ++ ((call.paid (e.before.enter e.action)).toList ++
              e.after.store.pendingTransfers.map PendingTransfer.unvetoed)) :=
            List.perm_append_comm_assoc ..
        _ |>.Perm (older.filterMap paid ++ ((call.queued (e.before.enter e.action)).toList ++
              e.before.store.pendingTransfers.map PendingTransfer.unvetoed)) :=
            hstep.append_left _
        _ |>.Perm ((call.queued (e.before.enter e.action)).toList ++ (older.filterMap paid ++
              e.before.store.pendingTransfers.map PendingTransfer.unvetoed)) :=
            List.perm_append_comm_assoc ..
        _ |>.Perm _ := h.perm.append_left _
    · obtain ⟨e', he', hveto⟩ := hveto
      refine heffect.blocked ?_
      rcases List.mem_cons.mp he' with rfl | he'
      · exact .inl (by simpa [vetoes, hcalled] using hveto)
      · exact .inr (h.blocked id ⟨e', he', hveto⟩)

/-! ### Executions and vetoes by id -/

/-- The administrator calls at the time `now`. -/
def calledBy (env : Env) (admin : Address) (now : Nat) : Env :=
  { env with timestamp := now, auths := [admin] }

/-- Every transfer of the queue is the one that is executed or vetoed with its id. An execution
goes through if its payment does. -/
structure Addressable (env : Env) : Prop where
  executable : ∀ before transfer after, env.store.pendingTransfers = before ++ transfer :: after →
    transfer.vetoed = false → ∀ admin ∈ env.store.admin, ∀ now, transfer.executableAfter ≤ now →
      executeTransfer (calledBy env admin now) admin transfer.id = (do
        let env ← doTransfer (calledBy env admin now) transfer.recipient transfer.amount
        return withQueue env (before ++ after))
  vetoable : ∀ before transfer after, env.store.pendingTransfers = before ++ transfer :: after →
    ∀ admin ∈ env.store.admin, ∀ now, env.timestamp ≤ now → now < transfer.executableAfter →
      vetoTransfer (calledBy env admin now) admin transfer.id =
        .ok (withQueue (calledBy env admin now)
          (before ++ { transfer with vetoed := true } :: after))

/-- What an administrator gets by the checks of an entry point. -/
theorem assertAdmin_calledBy {admin : Address} (h : admin ∈ env.store.admin) (now : Nat) :
    Ledger.Env.requireAuth (calledBy env admin now) admin = (.ok () : Res Unit) ∧
      assertAdmin (calledBy env admin now) admin = .ok () := by
  have hadmin : env.store.admin = some admin := h
  constructor
  · exact require_eq_ok.mpr (List.mem_singleton_self admin)
  · unfold assertAdmin
    simp only [bind_eq_ok, orTrap_eq_ok, require_eq_ok]
    exact ⟨admin, hadmin, rfl⟩

/-- The first transfer with an id is executed by it. -/
theorem First.executable {before after : List PendingTransfer}
    (h : First env.store.pendingTransfers before transfer after) (hveto : transfer.vetoed = false)
    {admin : Address} (hadmin : admin ∈ env.store.admin) {now : Nat}
    (hnow : transfer.executableAfter ≤ now) :
    executeTransfer (calledBy env admin now) admin transfer.id = (do
      let env ← doTransfer (calledBy env admin now) transfer.recipient transfer.amount
      return withQueue env (before ++ after)) := by
  obtain ⟨hauth, hassert⟩ := assertAdmin_calledBy hadmin now
  have hfind : findTransfer (calledBy env admin now).store.pendingTransfers transfer.id =
      some transfer := h.find
  have hremove : removeTransfer (calledBy env admin now).store.pendingTransfers transfer.id =
      before ++ after := h.remove
  have htime : (require (transfer.executableAfter ≤ (calledBy env admin now).timestamp) :
      Res Unit) = .ok () := require_eq_ok.mpr hnow
  have hopen : (require (transfer.vetoed = false) : Res Unit) = .ok () := require_eq_ok.mpr hveto
  unfold executeTransfer
  rw [hauth, hassert]
  dsimp only [bind, Except.bind]
  rw [hfind, hremove]
  dsimp only [orTrap]
  rw [hopen, htime]
  rfl

/-- The first transfer with an id is vetoed by it. -/
theorem First.vetoable {before after : List PendingTransfer}
    (h : First env.store.pendingTransfers before transfer after)
    {admin : Address} (hadmin : admin ∈ env.store.admin) {now : Nat}
    (hnow : now < transfer.executableAfter) :
    vetoTransfer (calledBy env admin now) admin transfer.id =
      .ok (withQueue (calledBy env admin now)
        (before ++ { transfer with vetoed := true } :: after)) := by
  obtain ⟨hauth, hassert⟩ := assertAdmin_calledBy hadmin now
  have hfind : findTransfer (calledBy env admin now).store.pendingTransfers transfer.id =
      some transfer := h.find
  unfold vetoTransfer
  simp only [bind_eq_ok, orTrap_eq_ok, require_eq_ok, pure_eq_ok]
  refine ⟨(), hauth, (), hassert, transfer, hfind, (), hnow, ?_⟩
  rw [← h.set]
  rfl

/-- Under distinct ids every transfer is the first one with its id. -/
theorem addressable_of_nodup
    (h : (env.store.pendingTransfers.map PendingTransfer.id).Nodup) : Addressable env := by
  have hfirst {before after : List PendingTransfer} {transfer : PendingTransfer}
      (hsplit : env.store.pendingTransfers = before ++ transfer :: after) :
      First env.store.pendingTransfers before transfer after :=
    ⟨hsplit, KeyedList.key_ne_of_nodup (hsplit ▸ h)⟩
  constructor
  · intro before transfer after hsplit hveto admin hadmin now hnow
    exact (hfirst hsplit).executable hveto hadmin hnow
  · intro before transfer after hsplit admin hadmin now _ hnow
    exact (hfirst hsplit).vetoable hadmin hnow

/-- A transfer that was just queued can be vetoed only if its id is new. -/
theorem fresh_of_addressable {now amount : Nat} {recipient : Address}
    {transfers : List PendingTransfer} {admin : Address} (h : Addressable env)
    (hadmin : env.store.admin = some admin) (hnow : env.timestamp = now)
    (hqueue : env.store.pendingTransfers = transfers ++ [newTransfer now recipient amount]) :
    transferId now amount ∉ transfers.map PendingTransfer.id := by
  intro hmem
  have hveto := h.vetoable transfers (newTransfer now recipient amount) [] hqueue admin hadmin now
    hnow.le (Nat.lt_add_of_pos_right (by decide))
  unfold vetoTransfer at hveto
  simp only [bind_eq_ok, orTrap_eq_ok, require_eq_ok, pure_eq_ok] at hveto
  obtain ⟨_, -, _, -, found, hfind, _, -, hafter⟩ := hveto
  have hid : found.id = transferId now amount := (KeyedList.find?_eq_some hfind).2
  have hqueues := congrArg (fun env : Env => env.store.pendingTransfers) hafter
  dsimp only [withQueue, calledBy] at hqueues
  rw [hqueue, KeyedList.set_append_of_mem (by simpa [hid] using hmem)] at hqueues
  have hlast := (List.append_inj' hqueues rfl).2
  simp [newTransfer] at hlast

/-! ### Runs -/

/-- What the claim of a speed bump comes to after a step. -/
structure SpeedBumpSafe (e : Step) (older : Trace) : Prop where
  delayed : ∀ transfer, queued e = some transfer → e.after.tokens.log = []
  waited : ∀ transfer, paid e = some transfer →
    transfer.approvedAt + delaySeconds ≤ e.action.timestamp ∧
    ∃ token, e.before.store.tokenContract = some token ∧
      e.after.tokens.log = [⟨token, e.before.self, transfer.recipient, transfer.amount⟩]
  once : ((e :: older).filterMap paid).Subperm ((e :: older).filterMap queued)
  not_vetoed : ∀ transfer, paid e = some transfer → ∀ e' ∈ older, vetoes transfer.id e' = false
  addressable : Addressable e.after

/-- The call queues nothing under an id that the queue has already. -/
def Call.QueuesFresh (env : Env) : Call → Prop
  | .approveTransfer _ _ amount => env.store.threshold < amount →
      transferId env.timestamp amount ∉ env.store.pendingTransfers.map PendingTransfer.id
  | _ => True

instance decidableQueuesFresh (env : Env) : (call : Call) → Decidable (call.QueuesFresh env)
  | .approveTransfer _ _ amount => inferInstanceAs (Decidable (env.store.threshold < amount →
      transferId env.timestamp amount ∉ env.store.pendingTransfers.map PendingTransfer.id))
  | .executeTransfer _ _ | .vetoTransfer _ _ | .updateTreasuryBalance _ _ =>
      inferInstanceAs (Decidable True)

/-- The call of the step, if it goes through, queues nothing under an id of the queue. -/
def QueuesFresh (e : Step) : Prop :=
  ∀ call ∈ Ledger.called contract e, call.QueuesFresh (e.before.enter e.action)

instance (e : Step) : Decidable (QueuesFresh e) :=
  inferInstanceAs (Decidable (∀ call ∈ Ledger.called contract e, _))

/-- The storage right after the initialization. -/
def Initialized (env : Env) : Prop :=
  ∃ admin tokenContract treasuryBalance,
    env.store = initialStore admin tokenContract treasuryBalance

theorem Initialized.queueKept (h : Initialized env) : QueueKept [] env := by
  obtain ⟨admin, tokenContract, treasuryBalance, hstore⟩ := h
  refine ⟨?_, by simp, ?_, ?_⟩
  · simp [hstore, initialStore]
  · simp [hstore, initialStore]
  · exact ⟨admin, by simp [hstore, initialStore]⟩

/-- Distinct ids stay distinct, if what is queued has a new one. -/
theorem Effect.nodup (h : Effect env call env')
    (hnodup : (env.store.pendingTransfers.map PendingTransfer.id).Nodup)
    (hfresh : call.QueuesFresh env) :
    (env'.store.pendingTransfers.map PendingTransfer.id).Nodup := by
  cases h with
  | paidNow | updated => exact hnodup
  | queued _ recipient amount hlt =>
      have hnew := hfresh hlt
      simp only [withQueue, List.map_append, List.map_cons, List.map_nil]
      rw [List.nodup_append]
      refine ⟨hnodup, List.nodup_singleton _, ?_⟩
      intro id hid other hother heq
      rw [List.mem_singleton] at hother
      rw [heq, hother] at hid
      exact hnew hid
  | executed _ before transfer after _ _ hfirst =>
      rw [hfirst.split] at hnodup
      have hsub : (before ++ after).Sublist (before ++ transfer :: after) :=
        (List.sublist_cons_self transfer after).append_left before
      exact (hsub.map _).nodup hnodup
  | vetoed _ before transfer after hfirst =>
      rw [hfirst.split] at hnodup
      simpa [withQueue] using hnodup

/-- What holds whatever the ids are, and what holds if they are distinct. -/
theorem safe_of_step (h : QueueKept older e.before)
    (hn : Ledger.Next contract e.before e.action e.after) (haddressable : Addressable e.after) :
    SpeedBumpSafe e older := by
  have hafter := h.step hn
  rcases effect_of_next hn with ⟨hnone, -⟩ | ⟨call, hcalled, heffect⟩
  · obtain ⟨hqueued, hpaid⟩ := queue_of_idle hnone
    refine ⟨?_, ?_, ?_, ?_, haddressable⟩
    · simp [hqueued]
    · simp [hpaid]
    · exact (List.sublist_append_left ..).subperm.trans hafter.perm.subperm
    · simp [hpaid]
  · obtain ⟨hqueued, hpaid⟩ := queue_of_called hcalled
    refine ⟨fun transfer htransfer => ?_, fun transfer htransfer => ?_, ?_,
      fun transfer htransfer e' he' => ?_, haddressable⟩
    · exact heffect.queued_spec (hqueued ▸ htransfer)
    · obtain ⟨hfind, -, htime, token, htoken, hlog⟩ := heffect.paid_spec (hpaid ▸ htransfer)
      have hmem : transfer ∈ e.before.store.pendingTransfers :=
        (KeyedList.find?_eq_some hfind).1
      exact ⟨h.delay transfer hmem ▸ htime, token, htoken, hlog⟩
    · exact (List.sublist_append_left ..).subperm.trans hafter.perm.subperm
    · obtain ⟨hfind, hveto, -⟩ := heffect.paid_spec (hpaid ▸ htransfer)
      rw [Bool.eq_false_iff]
      intro hvetoed
      obtain ⟨blocked, hblocked, hstatus⟩ := h.blocked transfer.id ⟨e', he', hvetoed⟩
      cases hfind.symm.trans hblocked
      simp [hveto] at hstatus

/-- **Speed bump.** In every run from an initialized contract, the speed bump is safe after every
step exactly if nothing is queued under an id that the queue has already. -/
theorem speed_bump_safe (hstart : Initialized start)
    (h : Run (· = start) (Ledger.Next contract) trace env) :
    Run.Each SpeedBumpSafe trace ↔ Run.Each (fun e _ => QueuesFresh e) trace := by
  refine Run.each_iff_of_kept (J := fun trace env => QueueKept trace env ∧
    (env.store.pendingTransfers.map PendingTransfer.id).Nodup) ?_ ?_ h
  · rintro _ rfl
    refine ⟨hstart.queueKept, ?_⟩
    obtain ⟨admin, tokenContract, treasuryBalance, hstore⟩ := hstart
    simp [hstore, initialStore]
  · intro e older _ hn ⟨hkept, hnodup⟩
    have hafter : QueuesFresh e →
        (e.after.store.pendingTransfers.map PendingTransfer.id).Nodup := by
      intro hfresh
      rcases effect_of_next hn with ⟨-, hstore⟩ | ⟨call, hcalled, heffect⟩
      · rw [hstore]
        exact hnodup
      · exact heffect.nodup hnodup (hfresh call hcalled)
    refine ⟨fun hfresh => ⟨hkept.step hn, hafter hfresh⟩, fun hsafe call hcalled => ?_,
      fun hfresh => safe_of_step hkept hn (addressable_of_nodup (hafter hfresh))⟩
    rcases effect_of_next hn with ⟨hnone, -⟩ | ⟨call', hcalled', heffect⟩
    · cases hnone.symm.trans hcalled
    · cases hcalled'.symm.trans hcalled
      obtain ⟨admin, hadmin⟩ := hkept.admin
      have hadmin' := heffect.admin_eq.trans hadmin
      have haddressable := hsafe.addressable
      have htime := (Ledger.timestamp_of_next hn).2
      generalize e.after = after at heffect hadmin' haddressable htime
      cases heffect with
      | queued _ recipient amount hlt =>
          intro _
          exact fresh_of_addressable haddressable hadmin' htime rfl
      | paidNow _ _ _ _ _ hle => exact fun hlt => absurd hlt (Nat.not_lt.mpr hle)
      | executed | vetoed | updated => trivial

/-- Two transfers are queued, one is executed and the other one is vetoed. -/
theorem speed_bump_safe_of_distinct_ids :
    let run := Ledger.history contract Demo.env
      [Demo.call 0 (.approveTransfer Demo.admin Demo.recipient 2),
        Demo.call 1 (.approveTransfer Demo.admin Demo.recipient 4),
        Demo.call 2 (.vetoTransfer Demo.admin 1025),
        Demo.call delaySeconds (.executeTransfer Demo.admin 512)]
    Run.Each SpeedBumpSafe run.1 := by
  intro run
  have hrun : Run (· = Demo.env) (Ledger.Next contract) run.1 run.2 :=
    Ledger.history_run contract (by decide)
  exact (speed_bump_safe ⟨_, _, _, rfl⟩ hrun).mpr (by decide)

/-- A transfer of 4, approved 1536 seconds after one of 2, has the same id: the veto of the second
one hits the first one, and neither can be executed. -/
theorem speed_bump_safe_shared_id :
    ¬∀ trace env, Run (· = Demo.env) (Ledger.Next contract) trace env →
      Run.Each SpeedBumpSafe trace := by
  intro h
  let run := Ledger.history contract Demo.env
    [Demo.call 0 (.approveTransfer Demo.admin Demo.recipient 2),
      Demo.call 1536 (.approveTransfer Demo.admin Demo.recipient 4),
      Demo.call 1600 (.vetoTransfer Demo.admin 512)]
  have hrun : Run (· = Demo.env) (Ledger.Next contract) run.1 run.2 :=
    Ledger.history_run contract (by decide)
  have hqueue : run.2.store.pendingTransfers =
      [{ newTransfer 0 Demo.recipient 2 with vetoed := true },
        newTransfer 1536 Demo.recipient 4] := by
    decide
  have haddressable : Addressable run.2 := (h _ _ hrun).1.addressable
  have hexecute := haddressable.executable [{ newTransfer 0 Demo.recipient 2 with vetoed := true }]
    (newTransfer 1536 Demo.recipient 4) [] hqueue rfl Demo.admin rfl (1536 + delaySeconds) le_rfl
  exact absurd (congrArg (fun r => r.toOption.isSome) hexecute) (by decide)

end YieldTrust.SpeedBump
