import Mathlib.Algebra.BigOperators.Group.List.Basic
import YieldTrust.GrantStream.Simulation

/-!
# YieldTrust.GrantStream.History

The history of one grant: which operations an event performed on it and what
that paid, read off the trace, and the classification of every event by its
effect on the account of the grant (`accountEffect_of_next`), which all the
inductions over runs go through.
-/

namespace YieldTrust.GrantStream

open Fallible

/-! ### What an event does to a grant -/

/-- The transaction goes through. -/
def Event.accepted (env : Env) (event : Event) : Bool :=
  match event.transaction with
  | .invoke _ call => (call.exec (env.enter event)).toOption.isSome
  | _ => true

/-- The operation on `grantId` that the step performed, if any. -/
def performed (grantId : Nat) (e : Run.Step Env Event) : Option GrantOp :=
  if e.action.accepted e.before then e.action.opOn grantId else none

/-- The payments in the grant token that the step made on behalf of `grantId`,
in the order in which they were made. -/
def paymentsFor (grantId : Nat) (e : Run.Step Env Event) : List Payment :=
  if (performed grantId e).isSome then
    (e.after.tokens.log.reverse.filter fun t =>
      e.before.grantToken = some t.token && t.source = e.before.self).map fun t =>
        ⟨t.target, t.amount⟩
  else []

/-- `p` holds of the operation that the step performed on `grantId`, if any, and
of the grant before it. -/
def AtOp (grantId : Nat) (e : Run.Step Env Event) (p : GrantOp → Grant → Prop) : Prop :=
  match performed grantId e, e.before.grants grantId with
  | some op, some g => p op g
  | _, _ => True

instance (grantId : Nat) (e : Run.Step Env Event) (p : GrantOp → Grant → Prop)
    [∀ op g, Decidable (p op g)] : Decidable (AtOp grantId e p) := by
  unfold AtOp
  split <;> infer_instance

theorem atOp_iff {grantId : Nat} {e : Run.Step Env Event} {p : GrantOp → Grant → Prop}
    {op : GrantOp} {g : Grant} (hop : performed grantId e = some op)
    (hg : e.before.grants grantId = some g) : AtOp grantId e p ↔ p op g := by
  unfold AtOp
  rw [hop, hg]

theorem atOp_of_none {grantId : Nat} {e : Run.Step Env Event} {p : GrantOp → Grant → Prop}
    (hop : performed grantId e = none) : AtOp grantId e p := by
  unfold AtOp
  rw [hop]
  trivial

theorem AtOp.elim {grantId : Nat} {e : Run.Step Env Event} {p : GrantOp → Grant → Prop}
    (h : AtOp grantId e p) {op : GrantOp} {g : Grant} (hop : performed grantId e = some op)
    (hg : e.before.grants grantId = some g) : p op g := (atOp_iff hop hg).mp h

/-- The step created the grant `grantId`. -/
def opens (grantId : Nat) (e : Run.Step Env Event) : Bool :=
  (e.before.grants grantId).isNone && (e.after.grants grantId).isSome

theorem opens_eq_false_of_some {grantId : Nat} {e : Run.Step Env Event} {g : Grant}
    (hg : e.before.grants grantId = some g) : opens grantId e = false := by
  simp [opens, hg]

theorem opens_eq_false_of_same {grantId : Nat} {e : Run.Step Env Event}
    (hgrant : e.after.grants grantId = e.before.grants grantId) : opens grantId e = false := by
  cases hg : e.before.grants grantId with
  | none => simp [opens, hgrant, hg]
  | some g => exact opens_eq_false_of_some hg

theorem opens_eq_true {grantId : Nat} {e : Run.Step Env Event} {g : Grant}
    (hnone : e.before.grants grantId = none) (hgrant : e.after.grants grantId = some g) :
    opens grantId e = true := by
  simp [opens, hnone, hgrant]

/-- The effect of a step on the account of `grantId`. -/
inductive AccountEffect (grantId : Nat) (e : Run.Step Env Event) : Prop
  /-- The step is about something else, or was rejected. -/
  | idle (hop : performed grantId e = none)
      (hgrant : e.after.grants grantId = e.before.grants grantId)
      (hescrow : e.after.disputeEscrow grantId = e.before.disputeEscrow grantId)
  | opened {recipient : Address} {totalAmount flowRate : Int} {warmupDuration : Nat}
      {validator donor : Option Address} {auths : List Address} {token : Address}
      (hcall : e.action.transaction = .invoke auths
        (.createGrant grantId recipient totalAmount flowRate warmupDuration validator donor))
      (hop : performed grantId e = none) (hnone : e.before.grants grantId = none)
      (htotal : 0 < totalAmount) (hflow : 0 ≤ flowRate)
      (hgrant : e.after.grants grantId = some (newGrant e.action.timestamp recipient totalAmount
        flowRate warmupDuration validator donor token))
      (hescrow : e.after.disputeEscrow grantId = e.before.disputeEscrow grantId)
  | operated {op : GrantOp} {g : Grant} {a' : Account} {payments : List Payment}
      (hop : performed grantId e = some op) (hg : e.before.grants grantId = some g)
      (hstep : GrantStep e.action.timestamp e.before.treasury op
        ⟨g, e.before.disputeEscrow grantId⟩ a' payments)
      (hgrant : e.after.grants grantId = some a'.grant)
      (hescrow : e.after.disputeEscrow grantId = a'.escrow)
      (hpay : paymentsFor grantId e = payments) (hnonneg : ∀ p ∈ payments, 0 ≤ p.amount)
  | closed {g s : Grant} (hop : performed grantId e = none)
      (hg : e.before.grants grantId = some g) (hs : Settles g e.action.timestamp s)
      (hpurge : Purgeable s) (hgrant : e.after.grants grantId = none)
      (hescrow : e.after.disputeEscrow grantId = e.before.disputeEscrow grantId)

/-! ### Every event has one of these effects -/

theorem performed_of_grantOp?_none (grantId : Nat) (env env' : Env) {event : Event}
    {auths : List Address} {call : Call} (ht : event.transaction = .invoke auths call)
    (hop : call.grantOp? = none) : performed grantId ⟨env, event, env'⟩ = none := by
  have hnone : event.opOn grantId = none := by
    unfold Event.opOn
    rw [ht]
    dsimp only
    rw [hop]
  unfold performed
  dsimp only
  rw [hnone, ite_self]

theorem opOn_of_grantOp? {grantId id : Nat} {event : Event} {auths : List Address} {call : Call}
    {op : GrantOp} (ht : event.transaction = .invoke auths call)
    (hop : call.grantOp? = some (id, op)) :
    event.opOn grantId = if id = grantId then some op else none := by
  unfold Event.opOn
  rw [ht]
  dsimp only
  rw [hop]

/-- The payments of a call are the transfers it logs. -/
theorem paymentsFor_of_pays {grantId : Nat} {env env' : Env} (env₀ : Env) {event : Event} {op : GrantOp}
    {payments : List Payment} (hop : performed grantId ⟨env, event, env'⟩ = some op)
    (hlog : env₀.tokens.log = []) (htoken : env₀.grantToken = env.grantToken)
    (hself : env₀.self = env.self) (hpays : Pays env₀ payments env') :
    paymentsFor grantId ⟨env, event, env'⟩ = payments ∧ ∀ p ∈ payments, 0 ≤ p.amount := by
  unfold paymentsFor
  rw [hop, if_pos (show (some op).isSome = true from rfl)]
  dsimp only
  rcases hpays with ⟨rfl, hsame⟩ | ⟨token, htok, hpay⟩
  · rw [hsame, hlog]
    exact ⟨rfl, by simp⟩
  · refine ⟨?_, TokenLedger.payAll_nonneg hpay⟩
    rw [TokenLedger.payAll_log hpay, hlog, List.append_nil, List.reverse_reverse, List.filter_map,
      ← htoken, htok, ← hself]
    simp [Function.comp_def]

theorem accepted_of_exec {env env' : Env} {event : Event} {auths : List Address} {call : Call}
    (ht : event.transaction = .invoke auths call) (h : call.exec (env.enter event) = .ok env') :
    event.accepted env = true := by
  unfold Event.accepted
  rw [ht]
  dsimp only
  rw [h]
  rfl

theorem execute_of_exec {env env' : Env} {event : Event} {auths : List Address} {call : Call}
    (ht : event.transaction = .invoke auths call) (h : call.exec (env.enter event) = .ok env') :
    execute env event = env' := by
  unfold execute Transaction.exec
  rw [ht]
  dsimp only
  rw [h]
  rfl

/-- A rejected call only lets time pass. -/
theorem execute_of_error {env : Env} {event : Event} {auths : List Address} {call : Call}
    {fault : Fault GrantStreamError} (ht : event.transaction = .invoke auths call)
    (h : call.exec (env.enter event) = .error fault) :
    event.accepted env = false ∧ execute env event = env.enter event := by
  unfold Event.accepted execute Transaction.exec
  rw [ht]
  dsimp only
  rw [h]
  exact ⟨rfl, rfl⟩

theorem performed_of_exec (grantId : Nat) {id : Nat} {env env' : Env} {event : Event}
    {auths : List Address} {call : Call} {op : GrantOp}
    (ht : event.transaction = .invoke auths call) (h : call.exec (env.enter event) = .ok env')
    (hop : call.grantOp? = some (id, op)) :
    performed grantId ⟨env, event, env'⟩ = if id = grantId then some op else none := by
  unfold performed
  dsimp only
  rw [if_pos (accepted_of_exec ht h), opOn_of_grantOp? ht hop]

theorem accountEffect_of_call (grantId : Nat) {env env' : Env} {event : Event}
    {auths : List Address} {call : Call} (ht : event.transaction = .invoke auths call)
    (h : call.exec (env.enter event) = .ok env') :
    AccountEffect grantId ⟨env, event, env'⟩ := by
  have hgrants {v : Vault} (hv : env'.vault = v) : env'.grants grantId = v.grants grantId :=
    congrFun (congrArg Vault.grants hv) grantId
  have hescrows {v : Vault} (hv : env'.vault = v) :
      env'.disputeEscrow grantId = v.disputeEscrow grantId :=
    congrFun (congrArg Vault.disputeEscrow hv) grantId
  cases callEffect_of_exec h with
  | keeps hop hv =>
      exact .idle (performed_of_grantOp?_none _ _ _ ht hop) (hgrants hv) (hescrows hv)
  | initialized _ hv =>
      exact .idle (performed_of_grantOp?_none _ _ _ ht rfl) (hgrants hv) (hescrows hv)
  | @created id _ _ _ _ _ _ _ _ _ hnone htotal hflow _ _ hv =>
      have hop := performed_of_grantOp?_none grantId env env' ht rfl
      by_cases hid : grantId = id
      · subst hid
        exact .opened ht hop hnone htotal hflow ((hgrants hv).trans (Function.update_self ..))
          (hescrows hv)
      · exact .idle hop ((hgrants hv).trans (Function.update_of_ne hid ..)) (hescrows hv)
  | @operated _ id op _ hop hoperates =>
      have hperf := performed_of_exec grantId ht h hop
      obtain ⟨g, a', payments, hg, hstep, hpays, hv⟩ := hoperates
      by_cases hid : grantId = id
      · subst hid
        rw [if_pos rfl] at hperf
        obtain ⟨hpay, hnonneg⟩ := paymentsFor_of_pays (env.enter event) hperf rfl rfl rfl hpays
        exact .operated hperf hg hstep ((hgrants hv).trans (Function.update_self ..))
          ((hescrows hv).trans (Function.update_self ..)) hpay hnonneg
      · rw [if_neg (Ne.symm hid)] at hperf
        exact .idle hperf ((hgrants hv).trans (Function.update_of_ne hid ..))
          ((hescrows hv).trans (Function.update_of_ne hid ..))
  | @deleted _ id g s _ _ hop hg hs hpurge _ hv =>
      have hop := performed_of_grantOp?_none grantId env env' ht hop
      by_cases hid : grantId = id
      · subst hid
        exact .closed hop hg hs hpurge ((hgrants hv).trans (Function.update_self ..))
          (hescrows hv)
      · exact .idle hop ((hgrants hv).trans (Function.update_of_ne hid ..)) (hescrows hv)

/-- **Simulation.** Whatever happens next, its effect on the account of a grant
is one of the four: nothing, opening it, one `GrantStep`, or closing it. -/
theorem accountEffect_of_next {env env' : Env} {event : Event} (h : Next env event env')
    (grantId : Nat) : AccountEffect grantId ⟨env, event, env'⟩ := by
  obtain ⟨-, rfl⟩ := h
  have hother (hno : ∀ auths call, event.transaction ≠ .invoke auths call) :
      performed grantId ⟨env, event, execute env event⟩ = none := by
    have hop : event.opOn grantId = none := by
      unfold Event.opOn
      cases ht : event.transaction with
      | invoke auths call => exact absurd ht (hno auths call)
      | tokenTransfer | tokenMint | nullifierExpiry => rfl
    unfold performed
    dsimp only
    rw [hop, ite_self]
  cases ht : event.transaction with
  | invoke auths call =>
      cases hexec : call.exec (env.enter event) with
      | ok env' =>
          rw [execute_of_exec ht hexec]
          exact accountEffect_of_call grantId ht hexec
      | error fault =>
          obtain ⟨hrejected, hsame⟩ := execute_of_error ht hexec
          rw [hsame]
          refine .idle ?_ rfl rfl
          unfold performed
          dsimp only
          rw [hrejected]
          rfl
  | tokenTransfer =>
      refine .idle (hother (by simp [ht])) ?_ ?_ <;> (unfold execute; rw [ht]; rfl)
  | tokenMint =>
      refine .idle (hother (by simp [ht])) ?_ ?_ <;> (unfold execute; rw [ht]; rfl)
  | nullifierExpiry =>
      refine .idle (hother (by simp [ht])) ?_ ?_ <;> (unfold execute; rw [ht]; rfl)

/-! ### Time -/

/-- Whatever happens next, the vault is left alone or one call had its effect on it. -/
theorem vault_of_next {env env' : Env} {event : Event} (h : Next env event env') :
    env'.vault = (env.enter event).vault ∨ ∃ call, CallEffect (env.enter event) call env' := by
  obtain ⟨-, rfl⟩ := h
  cases ht : event.transaction with
  | invoke auths call =>
      cases hexec : call.exec (env.enter event) with
      | ok env' =>
          rw [execute_of_exec ht hexec]
          exact .inr ⟨call, callEffect_of_exec hexec⟩
      | error fault =>
          rw [(execute_of_error ht hexec).2]
          exact .inl rfl
  | tokenTransfer | tokenMint | nullifierExpiry =>
      unfold execute
      rw [ht]
      exact .inl rfl

theorem timestamp_of_next {env env' : Env} {event : Event} (h : Next env event env') :
    env.timestamp ≤ event.timestamp ∧ env'.timestamp = event.timestamp := by
  have htime {v : Vault} (hv : env'.vault = v) : env'.timestamp = v.timestamp :=
    congrArg Vault.timestamp hv
  refine ⟨h.1.timestamp_le, ?_⟩
  rcases vault_of_next h with hv | ⟨call, heffect⟩
  · exact htime hv
  · cases heffect with
    | keeps _ hv | initialized _ hv | created _ _ _ _ _ hv | deleted _ _ _ _ _ hv => exact htime hv
    | operated _ hoperates =>
        obtain ⟨_, _, _, _, _, _, hv⟩ := hoperates
        exact htime hv

/-! ### The life of a grant -/

/-- The steps since the grant was created, newest first. -/
def life (grantId : Nat) (trace : Trace) : Trace := trace.takeWhile fun e => !opens grantId e

theorem life_of_opens {grantId : Nat} {e : Run.Step Env Event} (h : opens grantId e = true)
    (trace : Trace) : life grantId (e :: trace) = [] := by
  simp [life, h]

theorem life_of_not_opens {grantId : Nat} {e : Run.Step Env Event} (h : opens grantId e = false)
    (trace : Trace) : life grantId (e :: trace) = e :: life grantId trace := by
  simp [life, h]

/-- The grant as it was created. -/
def origin (grantId : Nat) (trace : Trace) : Option Grant :=
  (trace.find? (opens grantId)).bind fun e => e.after.grants grantId

theorem origin_of_opens {grantId : Nat} {e : Run.Step Env Event} (h : opens grantId e = true)
    (trace : Trace) : origin grantId (e :: trace) = e.after.grants grantId := by
  simp [origin, h]

theorem origin_of_not_opens {grantId : Nat} {e : Run.Step Env Event}
    (h : opens grantId e = false) (trace : Trace) :
    origin grantId (e :: trace) = origin grantId trace := by
  simp [origin, h]

/-- What the steps of `L` paid on behalf of the grant. -/
def paid (grantId : Nat) (L : Trace) : Int := (L.map fun e => paymentSum (paymentsFor grantId e)).sum

theorem paid_cons (grantId : Nat) (e : Run.Step Env Event) (L : Trace) :
    paid grantId (e :: L) = paymentSum (paymentsFor grantId e) + paid grantId L := rfl

theorem paymentsFor_of_none {grantId : Nat} {e : Run.Step Env Event}
    (h : performed grantId e = none) : paymentsFor grantId e = [] := by
  unfold paymentsFor
  rw [h]
  rfl

/-- **Induction over the life of a grant.** `I o L now g x` is to hold at `now`
when the grant is `g` (or does not exist), its escrow is `x`, and `L` is what
happened since it was created as `o`. `C` is a condition on all steps of the run. -/
theorem life_induction {grantId : Nat} {C : Run.Step Env Event → Prop}
    {I : Option Grant → Trace → Nat → Option Grant → Option Int → Prop}
    (start : I none [] 0 none none)
    (idle : ∀ {o : Option Grant} {L : Trace} {e : Run.Step Env Event}, C e →
      I o L e.before.timestamp (e.before.grants grantId) (e.before.disputeEscrow grantId) →
      e.before.timestamp ≤ e.action.timestamp → performed grantId e = none →
      I o (e :: L) e.action.timestamp (e.before.grants grantId) (e.before.disputeEscrow grantId))
    (opened : ∀ {o : Option Grant} {L : Trace} {e : Run.Step Env Event} {recipient : Address}
      {totalAmount flowRate : Int} {warmupDuration : Nat} {validator donor : Option Address}
      {token : Address} {g : Grant}, C e →
      I o L e.before.timestamp none (e.before.disputeEscrow grantId) →
      e.before.timestamp ≤ e.action.timestamp →
      0 < totalAmount → 0 ≤ flowRate → I128.InRange totalAmount →
      g = newGrant e.action.timestamp recipient totalAmount flowRate warmupDuration validator donor
        token →
      I (some g) [] e.action.timestamp (some g) (e.before.disputeEscrow grantId))
    (operated : ∀ {o : Option Grant} {L : Trace} {e : Run.Step Env Event} {op : GrantOp}
      {g : Grant} {a' : Account} {payments : List Payment}, C e →
      I o L e.before.timestamp (some g) (e.before.disputeEscrow grantId) →
      e.before.timestamp ≤ e.action.timestamp → performed grantId e = some op →
      e.before.grants grantId = some g →
      GrantStep e.action.timestamp e.before.treasury op
        ⟨g, e.before.disputeEscrow grantId⟩ a' payments →
      paymentsFor grantId e = payments → (∀ p ∈ payments, 0 ≤ p.amount) →
      I o (e :: L) e.action.timestamp (some a'.grant) a'.escrow)
    (closed : ∀ {o : Option Grant} {L : Trace} {e : Run.Step Env Event} {g s : Grant}, C e →
      I o L e.before.timestamp (some g) (e.before.disputeEscrow grantId) →
      e.before.timestamp ≤ e.action.timestamp → performed grantId e = none →
      e.before.grants grantId = some g → Settles g e.action.timestamp s → Purgeable s →
      I o (e :: L) e.action.timestamp none (e.before.disputeEscrow grantId))
    {trace : Trace} {env : Env} (h : Reachable trace env) (hC : ∀ e ∈ trace, C e) :
    I (origin grantId trace) (life grantId trace) env.timestamp (env.grants grantId)
      (env.disputeEscrow grantId) := by
  induction h with
  | start h =>
      obtain ⟨_, _, _, rfl⟩ := h
      exact start
  | @step trace env event env' hrun hn ih =>
      obtain ⟨hle, htime⟩ := timestamp_of_next hn
      rw [htime]
      have hwt := hn.1.wellTyped
      have heffect := accountEffect_of_next hn grantId
      have hCe := hC _ (List.mem_cons_self ..)
      have ih := ih fun e' he' => hC e' (List.mem_cons_of_mem _ he')
      -- name the newest step, so that the cases speak of `e.before` and `e.after`
      generalize he : (⟨env, event, env'⟩ : Run.Step Env Event) = e at heffect hCe ⊢
      obtain rfl : e.before = env := by rw [← he]
      obtain rfl : e.action = event := by rw [← he]
      obtain rfl : e.after = env' := by rw [← he]
      clear he
      cases heffect with
      | idle hop hgrant hescrow =>
          have hopens := opens_eq_false_of_same hgrant
          rw [life_of_not_opens hopens, origin_of_not_opens hopens, hgrant, hescrow]
          exact idle hCe ih hle hop
      | @opened _ totalAmount _ _ _ _ _ _ hcall hop hnone htotal hflow hgrant hescrow =>
          -- a new life begins: what happened before is dropped
          have hopens := opens_eq_true hnone hgrant
          rw [hcall] at hwt
          have hrange : I128.InRange totalAmount := hwt.1 _ (List.mem_cons_self ..)
          rw [hnone] at ih
          rw [life_of_opens hopens, origin_of_opens hopens, hgrant, hescrow]
          exact opened hCe ih hle htotal hflow hrange rfl
      | operated hop hg hstep hgrant hescrow hpay hnonneg =>
          have hopens := opens_eq_false_of_some hg
          rw [hg] at ih
          rw [life_of_not_opens hopens, origin_of_not_opens hopens, hgrant, hescrow]
          exact operated hCe ih hle hop hg hstep hpay hnonneg
      | closed hop hg hs hpurge hgrant hescrow =>
          have hopens := opens_eq_false_of_some hg
          rw [hg] at ih
          rw [life_of_not_opens hopens, origin_of_not_opens hopens, hgrant, hescrow]
          exact closed hCe ih hle hop hg hs hpurge

end YieldTrust.GrantStream
