import YieldTrust.Arbitration.Contract
import YieldTrust.Lib.DepositPool

/-!
# YieldTrust.Arbitration.Escrow

The **solvency of the escrow**. All disputes share one balance, and an arbitrator takes no more
out of it than the amount of the dispute exactly if neither of the two awards is more than that:
the contract compares their sum only, and an award can be negative.
-/

namespace YieldTrust.Arbitration

open Fallible
open GrantStream (Address)

variable {env env' : Env} {store : Store} {call : Call} {disputeId : Nat} {dispute : Dispute}
  {token : Address} {funderAward granteeAward : Int}

/-! ### What a call does -/

/-- What an award brings its recipient. -/
def awarded (award : Int) : Int := if 0 < award then award else 0

/-- What an award takes out of the contract. -/
def takenBy (self recipient : Address) (award : Int) : Int :=
  if recipient = self then 0 else awarded award

theorem awarded_nonneg (award : Int) : 0 ≤ awarded award := by
  unfold awarded
  split <;> omega

theorem takenBy_le (self recipient : Address) (award : Int) :
    0 ≤ takenBy self recipient award ∧ takenBy self recipient award ≤ awarded award := by
  have hnonneg := awarded_nonneg award
  unfold takenBy
  split <;> omega

/-- Two awards within the amount together are paid within it, unless one of them is more. -/
theorem awarded_add_le_iff {amount : Int} (hamount : 0 ≤ amount)
    (hsum : funderAward + granteeAward ≤ amount) :
    awarded funderAward + awarded granteeAward ≤ amount ↔
      funderAward ≤ amount ∧ granteeAward ≤ amount := by
  unfold awarded
  split <;> split <;> omega

/-- The payment of an award. -/
structure Paid (env : Env) (token recipient : Address) (award : Int) (env' : Env) : Prop where
  eq : env' = { env with tokens := env'.tokens }
  balance : env'.tokens.balance token env.self =
    env.tokens.balance token env.self - takenBy env.self recipient award
  other : ∀ t, t ≠ token → env'.tokens.balance t = env.tokens.balance t
  log : TokenLedger.sent token env'.tokens.log =
    TokenLedger.sent token env.tokens.log + awarded award

theorem payAward_eq_ok {recipient : Address} {award : Int}
    (h : payAward env token recipient award = .ok env') : Paid env token recipient award env' := by
  unfold payAward at h
  split at h
  · case isTrue hpos =>
    obtain ⟨ledger, hledger, rfl⟩ := Ledger.Env.transfer_eq_ok.mp h
    have hbalance := TokenLedger.transfer_balance_source hledger
    refine ⟨rfl, ?_, fun t ht => TokenLedger.transfer_balance_other hledger ht, ?_⟩
    · rw [takenBy, awarded, if_pos hpos]
      exact hbalance
    · obtain ⟨-, rfl⟩ := TokenLedger.transfer_eq_some.mp hledger
      rw [awarded, if_pos hpos, TokenLedger.sent_cons_self]
      omega
  · case isFalse hneg =>
    rw [← pure_eq_ok.mp h]
    refine ⟨rfl, ?_, fun _ _ => rfl, ?_⟩
    · simp [takenBy, awarded, hneg]
    · simp [awarded, hneg]

/-- What can be paid is paid. -/
theorem exists_payAward (env : Env) (token recipient : Address) {award : Int}
    (hle : award ≤ env.tokens.balance token env.self) :
    ∃ env', payAward env token recipient award = .ok env' := by
  unfold payAward
  split
  · case isTrue hpos =>
    obtain ⟨ledger, hledger⟩ := TokenLedger.exists_transfer recipient hpos.le hle
    exact ⟨_, Ledger.Env.transfer_eq_ok.mpr ⟨ledger, hledger, rfl⟩⟩
  · exact ⟨env, rfl⟩

/-- What a call does to the storage and the tokens. -/
inductive Effect (env : Env) : Call → Env → Prop
  | started (admin token : Address) (hnone : env.store.admin = none) :
      Effect env (.init admin token)
        { env with store := { env.store with
            admin := some admin, token := some token, disputeCounter := some 0 } }
  | raised (grantId : Nat) (funder grantee : Address) (amount : Int) (arbitrator token : Address)
      (counter : Nat) (tokens : TokenLedger Address) (hfunder : funder ≠ env.self)
      (htoken : env.store.token = some token)
      (htransfer : env.tokens.transfer token funder env.self amount = some tokens)
      (hcounter : env.store.disputeCounter = some counter) :
      Effect env (.raiseDispute grantId funder grantee amount arbitrator)
        { env with
          tokens
          store := { env.store with
            disputeCounter := some (counter + 1)
            disputes := Function.update env.store.disputes (counter + 1)
              (some { grantId, funder, grantee, amount, status := .pending, arbitrator }) } }
  | resolved (disputeId : Nat) (funderAward granteeAward : Int) (dispute : Dispute)
      (token : Address) (paid : Env) (hdispute : env.store.disputes disputeId = some dispute)
      (hopen : dispute.status ≠ .resolved) (hsum : funderAward + granteeAward ≤ dispute.amount)
      (htoken : env.store.token = some token)
      (hpaid : paid = { env with tokens := paid.tokens })
      (hbalance : paid.tokens.balance token env.self = env.tokens.balance token env.self -
        takenBy env.self dispute.funder funderAward -
        takenBy env.self dispute.grantee granteeAward)
      (hother : ∀ t, t ≠ token → paid.tokens.balance t = env.tokens.balance t)
      (hlog : TokenLedger.sent token paid.tokens.log = TokenLedger.sent token env.tokens.log +
        awarded funderAward + awarded granteeAward) :
      Effect env (.resolveDispute disputeId funderAward granteeAward)
        { paid with store := { env.store with
            disputes := Function.update env.store.disputes disputeId
              (some { dispute with status := .resolved }) } }

/-- **Inversion** of a call that goes through. -/
theorem exec_effect (h : call.exec env = .ok env') : Effect env call env' := by
  cases call with
  | init admin token =>
      unfold Call.exec init at h
      simp only [bind_eq_ok, require_eq_ok, pure_eq_ok] at h
      obtain ⟨_, -, _, hnone, rfl⟩ := h
      exact .started admin token hnone
  | raiseDispute grantId funder grantee amount arbitrator =>
      unfold Call.exec raiseDispute requireAuth at h
      simp only [map_eq_ok, bind_eq_ok, require_eq_ok, orTrap_eq_ok, pure_eq_ok,
        U32.checkedAdd_eq_some] at h
      obtain ⟨_, ⟨_, ⟨_, hfunder, -⟩, token, htoken, env₁, htransfer, counter, hcounter, _,
        ⟨-, rfl⟩, rfl⟩, rfl⟩ := h
      obtain ⟨ledger, hledger, rfl⟩ := Ledger.Env.transfer_eq_ok.mp htransfer
      exact .raised grantId funder grantee amount arbitrator token counter ledger hfunder htoken
        hledger hcounter
  | resolveDispute disputeId funderAward granteeAward =>
      unfold Call.exec resolveDispute at h
      simp only [bind_eq_ok, require_eq_ok, orTrap_eq_ok, pure_eq_ok, I128.checkedAdd_eq_some]
        at h
      obtain ⟨dispute, hdispute, _, -, _, hopen, _, ⟨-, rfl⟩, _, hsum, token, htoken, env₁,
        hfunder, env₂, hgrantee, rfl⟩ := h
      have hfirst := payAward_eq_ok hfunder
      have hsecond := payAward_eq_ok hgrantee
      have hself : env₁.self = env.self := by rw [hfirst.eq]
      have hpaid : env₂ = { env with tokens := env₂.tokens } := by rw [hsecond.eq, hfirst.eq]
      have hstore : env₂.store = env.store := by rw [hpaid]
      rw [hstore]
      refine .resolved disputeId funderAward granteeAward dispute token env₂ hdispute hopen hsum
        htoken hpaid ?_ (fun t ht => (hsecond.other t ht).trans (hfirst.other t ht)) ?_
      · rw [← hself, hsecond.balance, hself, hfirst.balance]
      · rw [hsecond.log, hfirst.log]

/-! ### The storage -/

/-- What the escrow owes for a dispute. -/
def Dispute.owed (dispute : Dispute) : Option Int :=
  if dispute.status = .resolved then none else some dispute.amount

/-- The escrow as a pool of the amounts of the unresolved disputes. -/
def Env.pool (env : Env) (token : Address) : DepositPool Nat where
  balance := env.tokens.balance token env.self
  deposits disputeId := (env.store.disputes disputeId).bind Dispute.owed

/-- What a write of a dispute does to the deposits. -/
theorem deposits_update (disputes : Nat → Option Dispute) (disputeId : Nat) (dispute : Dispute) :
    (fun id => (Function.update disputes disputeId (some dispute) id).bind Dispute.owed) =
      Function.update (fun id => (disputes id).bind Dispute.owed) disputeId dispute.owed := by
  funext id
  by_cases hid : id = disputeId
  · subst hid
    simp
  · simp [hid]

/-- What holds of the storage in every reachable state. -/
structure WellStored (store : Store) : Prop where
  not_started : store.admin = none → store.token = none
  no_disputes : store.token = none → ∀ id, store.disputes id = none
  fresh : ∀ counter ∈ store.disputeCounter, ∀ id, counter < id → store.disputes id = none
  finite : (PartialMap.keys store.disputes).Finite
  amount : ∀ id dispute, store.disputes id = some dispute →
    0 ≤ dispute.amount ∧ I128.InRange dispute.amount

theorem WellStored.pool (h : WellStored env.store) (token : Address) :
    (env.pool token).WellFormed where
  finite := by
    refine h.finite.subset fun id hid hnone => hid ?_
    simp [Env.pool, hnone]
  nonneg id x hx := by
    obtain ⟨dispute, hdispute, howed⟩ := Option.bind_eq_some_iff.mp hx
    unfold Dispute.owed at howed
    split at howed
    · cases howed
    · cases howed
      exact (h.amount id dispute hdispute).1

theorem Effect.wellStored (h : Effect env call env') (htyped : call.typed = true)
    (hstored : WellStored env.store) : WellStored env'.store := by
  cases h with
  | started admin token hnone =>
      have hnone := hstored.no_disputes (hstored.not_started hnone)
      refine ⟨fun hadmin => ?_, fun htoken => ?_, fun _ _ id _ => hnone id, hstored.finite,
        hstored.amount⟩
      · cases hadmin
      · cases htoken
  | raised grantId funder grantee amount arbitrator token counter tokens hfunder htoken htransfer
      hcounter =>
      have hamount := (TokenLedger.transfer_eq_some.mp htransfer).1.1
      simp only [Call.typed, Bool.and_eq_true, decide_eq_true_eq] at htyped
      refine ⟨hstored.not_started, fun hnone => ?_, fun c hc id hlt => ?_, ?_,
        fun id dispute hdispute => ?_⟩
      · cases htoken.symm.trans hnone
      · cases hc
        dsimp only at hlt ⊢
        rw [Function.update_of_ne (by omega)]
        exact hstored.fresh counter hcounter id (by omega)
      · exact PartialMap.keys_update_finite hstored.finite _ _
      · rcases PartialMap.update_eq_some.mp hdispute with ⟨-, rfl⟩ | ⟨-, hdispute⟩
        · exact ⟨hamount, htyped.2⟩
        · exact hstored.amount id dispute hdispute
  | resolved disputeId funderAward granteeAward dispute token paid hdispute =>
      refine ⟨hstored.not_started, fun hnone => ?_, fun c hc id hlt => ?_, ?_, fun id d hd => ?_⟩
      · cases hdispute.symm.trans (hstored.no_disputes hnone disputeId)
      · have hnone := hstored.fresh c hc id hlt
        have hid : id ≠ disputeId := by
          rintro rfl
          cases hdispute.symm.trans hnone
        exact (Function.update_of_ne hid ..).trans hnone
      · exact PartialMap.keys_update_finite hstored.finite _ _
      · rcases PartialMap.update_eq_some.mp hd with ⟨-, rfl⟩ | ⟨-, hd⟩
        · exact hstored.amount disputeId dispute hdispute
        · exact hstored.amount id d hd

/-! ### Solvency -/

/-- The balance covers the amounts of all unresolved disputes. -/
def Covered (env : Env) : Prop := ∀ token ∈ env.store.token, (env.pool token).Solvent

/-- The balances of the contract. -/
structure Funded (env : Env) : Prop where
  nonneg : ∀ token, 0 ≤ env.tokens.balance token env.self
  covered : Covered env

/-- The condition on a call under which it awards no more than the amount to either side. -/
def Call.AwardsWithin (env : Env) : Call → Prop
  | .resolveDispute disputeId funderAward granteeAward =>
      ∀ dispute ∈ env.store.disputes disputeId,
        funderAward ≤ dispute.amount ∧ granteeAward ≤ dispute.amount
  | _ => True

instance decidableAwardsWithin (env : Env) : (call : Call) → Decidable (call.AwardsWithin env)
  | .resolveDispute disputeId funderAward granteeAward =>
      inferInstanceAs (Decidable (∀ dispute ∈ env.store.disputes disputeId,
        funderAward ≤ dispute.amount ∧ granteeAward ≤ dispute.amount))
  | .init _ _ | .raiseDispute _ _ _ _ _ => inferInstanceAs (Decidable True)

/-- **Step lemma.** -/
theorem Effect.funded (h : Effect env call env') (hstored : WellStored env.store)
    (hfunded : Funded env) (hwithin : call.AwardsWithin env) : Funded env' := by
  cases h with
  | started admin token hnone =>
      refine ⟨hfunded.nonneg, fun t ht => ?_⟩
      cases ht
      have hempty : PartialMap.keys (env.pool token).deposits = ∅ := by
        refine Set.eq_empty_of_forall_notMem fun id hid => hid ?_
        simp [Env.pool, hstored.no_disputes (hstored.not_started hnone) id]
      have htotal : (env.pool token).outstanding = 0 := PartialMap.total_of_keys_empty hempty id
      have hsolvent : (env.pool token).Solvent := htotal.trans_le (hfunded.nonneg token)
      exact hsolvent
  | raised grantId funder grantee amount arbitrator token counter tokens hfunder htoken htransfer
      hcounter =>
      refine ⟨fun t => ?_, fun t ht => ?_⟩
      · exact (hfunded.nonneg t).trans (TokenLedger.transfer_balance_le htransfer hfunder)
      · cases htoken.symm.trans ht
        have hbalance := TokenLedger.transfer_balance_target htransfer
        rw [if_neg hfunder] at hbalance
        have hfresh : (env.pool token).deposits (counter + 1) = none := by
          simp [Env.pool, hstored.fresh counter hcounter (counter + 1) (Nat.lt_succ_self counter)]
        have hsolvent : DepositPool.Solvent ⟨tokens.balance token env.self,
            Function.update (env.pool token).deposits (counter + 1) (some amount)⟩ ↔ _ :=
          DepositPool.solvent_deposit_iff (hstored.pool token) hfresh
        have hcovered : (env.pool token).outstanding ≤ env.tokens.balance token env.self :=
          hfunded.covered token htoken
        unfold Env.pool
        dsimp only
        rw [deposits_update]
        refine hsolvent.mpr ?_
        omega
  | resolved disputeId funderAward granteeAward dispute token paid hdispute hopen hsum htoken hpaid
      hbalance hother =>
      obtain ⟨hfunder, hgrantee⟩ := hwithin dispute hdispute
      have hamount := (hstored.amount disputeId dispute hdispute).1
      have hawarded := (awarded_add_le_iff hamount hsum).mpr ⟨hfunder, hgrantee⟩
      have hfirst := (takenBy_le env.self dispute.funder funderAward).2
      have hsecond := (takenBy_le env.self dispute.grantee granteeAward).2
      have hself : paid.self = env.self := by rw [hpaid]
      have howed : (env.pool token).deposits disputeId = some dispute.amount := by
        simp [Env.pool, hdispute, Dispute.owed, hopen]
      have hcovered : (env.pool token).Solvent := hfunded.covered token htoken
      have hle := hcovered.le_balance (hstored.pool token) howed
      have hnonneg : 0 ≤ paid.tokens.balance token env.self := by
        simp only [Env.pool] at hle
        omega
      refine ⟨fun t => ?_, fun t ht => ?_⟩
      · dsimp only
        rw [hself]
        by_cases heq : t = token
        · exact heq ▸ hnonneg
        · exact hother t heq ▸ hfunded.nonneg t
      · cases htoken.symm.trans ht
        have hsolvent : DepositPool.Solvent ⟨paid.tokens.balance token env.self,
            Function.update (env.pool token).deposits disputeId none⟩ ↔ _ :=
          DepositPool.solvent_release_iff (hstored.pool token) howed
        unfold DepositPool.Solvent at hcovered
        unfold Env.pool
        dsimp only
        rw [deposits_update, hself]
        refine hsolvent.mpr ?_
        simp only [Env.pool] at hcovered ⊢
        omega

/-! ### Runs -/

/-- The call resolves the dispute. -/
def Call.resolves (disputeId : Nat) : Call → Bool
  | .resolveDispute id _ _ => id == disputeId
  | _ => false

/-- The step resolves the dispute. -/
def resolves (disputeId : Nat) (e : Step) : Bool :=
  (Ledger.called contract e).any (Call.resolves disputeId)

/-- What the transfers of the step move. -/
def paidOut (e : Step) : Int :=
  e.after.store.token.elim 0 fun token => TokenLedger.sent token e.after.tokens.log

/-- The escrow after a step: it covers all unresolved disputes, each of them can be resolved with
awards up to its amount, and a dispute that was resolved got no more than its amount, once. -/
structure EscrowSafe (e : Step) (older : Trace) : Prop where
  covered : Covered e.after
  payable : ∀ disputeId dispute, e.after.store.disputes disputeId = some dispute →
    dispute.status ≠ .resolved → dispute.arbitrator ≠ e.after.self →
    ∀ funderAward granteeAward, 0 ≤ funderAward → 0 ≤ granteeAward →
      funderAward + granteeAward ≤ dispute.amount →
      ∃ env', resolveDispute { e.after with auths := [dispute.arbitrator] } disputeId funderAward
        granteeAward = .ok env'
  paid_le : ∀ disputeId dispute, resolves disputeId e = true →
    e.before.store.disputes disputeId = some dispute → paidOut e ≤ dispute.amount
  once : ∀ disputeId, resolves disputeId e = true → ∀ e' ∈ older, resolves disputeId e' = false

/-- The call of the step, if it goes through, awards no more than the amount to either side. -/
def AwardsWithin (e : Step) : Prop :=
  ∀ call ∈ Ledger.called contract e, call.AwardsWithin (e.before.enter e.action)

instance (e : Step) : Decidable (AwardsWithin e) :=
  inferInstanceAs (Decidable (∀ call ∈ Ledger.called contract e, _))

theorem Effect.commit_eq (h : Effect env call env') : env.commit env' = env' := by
  cases h with
  | started | raised => rfl
  | resolved disputeId funderAward granteeAward dispute token paid _ _ _ _ hpaid =>
      rw [hpaid]
      rfl

/-- A dispute that is resolved was not resolved before. -/
theorem Effect.open_of_resolves (h : Effect env call env')
    (hresolves : call.resolves disputeId = true) :
    ∀ dispute, env.store.disputes disputeId = some dispute → dispute.status ≠ .resolved := by
  intro dispute hdispute
  cases h with
  | started | raised => cases hresolves
  | resolved id _ _ stored _ _ hstored hopen =>
      cases beq_iff_eq.mp hresolves
      cases hdispute.symm.trans hstored
      exact hopen

section Runs

variable {trace older : Trace} {e : Step}

/-- What one event does. -/
theorem effect_of_next (h : Ledger.Next contract e.before e.action e.after) :
    (Ledger.called contract e = none ∧ e.after.store = e.before.store) ∨
      ∃ call, Ledger.called contract e = some call ∧ call.typed = true ∧
        Effect (e.before.enter e.action) call e.after := by
  rcases Ledger.cases_of_next h with hidle | ⟨call, result, hcalled, htyped, hexec, hafter⟩
  · exact .inl hidle
  · have heffect : Effect (e.before.enter e.action) call result := exec_effect hexec
    rw [hafter, heffect.commit_eq]
    exact .inr ⟨call, hcalled, htyped, heffect⟩

theorem wellStored_of_reachable (h : Ledger.Reachable contract trace env) :
    WellStored env.store := by
  refine Ledger.store_invariant (I := WellStored) ?_ ?_ h
  · have hempty : PartialMap.keys (fun _ : Nat => (none : Option Dispute)) = ∅ :=
      Set.eq_empty_of_forall_notMem fun _ hid => hid rfl
    refine ⟨fun _ => rfl, fun _ _ => rfl, fun _ _ _ _ => rfl, ?_, fun _ _ hdispute => ?_⟩
    · exact hempty ▸ Set.finite_empty
    · cases hdispute
  · intro env result call hexec htyped ih
    exact (exec_effect hexec).wellStored htyped ih

/-- A dispute that was resolved stays resolved. -/
theorem resolved_of_mem (h : Ledger.Reachable contract trace env) (he : e ∈ trace)
    (hresolves : resolves disputeId e = true) :
    ∃ dispute, env.store.disputes disputeId = some dispute ∧ dispute.status = .resolved := by
  induction h with
  | start => cases he
  | @step older before event after h hn ih =>
      rcases effect_of_next (e := ⟨before, event, after⟩) hn with ⟨hnone, hstore⟩ |
        ⟨call, hcalled, -, heffect⟩
      · rcases List.mem_cons.mp he with rfl | he
        · simp [resolves, hnone] at hresolves
        · rw [hstore]
          exact ih he
      · dsimp only at heffect
        rcases List.mem_cons.mp he with rfl | he
        · simp only [resolves, hcalled, Option.any_some] at hresolves
          cases heffect with
          | started | raised => cases hresolves
          | resolved id _ _ dispute =>
              cases beq_iff_eq.mp hresolves
              exact ⟨_, Function.update_self .., rfl⟩
        · obtain ⟨dispute, hdispute, hstatus⟩ := ih he
          cases heffect with
          | started => exact ⟨dispute, hdispute, hstatus⟩
          | raised grantId funder grantee amount arbitrator token counter tokens _ _ _ hcounter =>
              have hfresh := (wellStored_of_reachable h).fresh counter hcounter (counter + 1)
                (Nat.lt_succ_self counter)
              have hid : disputeId ≠ counter + 1 := by
                rintro rfl
                cases hdispute.symm.trans hfresh
              exact ⟨dispute, (Function.update_of_ne hid ..).trans hdispute, hstatus⟩
          | resolved id _ _ other =>
              by_cases hid : disputeId = id
              · subst hid
                exact ⟨_, Function.update_self .., rfl⟩
              · exact ⟨dispute, (Function.update_of_ne hid ..).trans hdispute, hstatus⟩

/-- The balances after a step whose call awards no more than the amounts. -/
theorem Funded.step (hfunded : Funded e.before) (h : Ledger.Reachable contract older e.before)
    (hn : Ledger.Next contract e.before e.action e.after) (hwithin : AwardsWithin e) :
    Funded e.after := by
  have hstored := wellStored_of_reachable h
  rcases effect_of_next hn with ⟨hnone, hstore⟩ | ⟨call, hcalled, -, heffect⟩
  · have hle := Ledger.balance_le_of_idle hn hnone
    refine ⟨fun token => (hfunded.nonneg token).trans (hle token), fun token htoken => ?_⟩
    rw [hstore] at htoken
    have hcovered : (e.before.pool token).outstanding ≤ _ := hfunded.covered token htoken
    have hsame : (e.after.pool token).outstanding = (e.before.pool token).outstanding := by
      unfold DepositPool.outstanding Env.pool
      rw [hstore]
    exact hsame.trans_le (hcovered.trans (hle token))
  · have hbefore : Funded (e.before.enter e.action) := ⟨hfunded.nonneg, hfunded.covered⟩
    exact heffect.funded hstored hbefore (hwithin call hcalled)

/-- The arbitrator of an unresolved dispute can award its amount in any way. -/
theorem Funded.payable (hfunded : Funded env) (hstored : WellStored env.store)
    (hdispute : env.store.disputes disputeId = some dispute) (hopen : dispute.status ≠ .resolved)
    (hself : dispute.arbitrator ≠ env.self) (hfunder : 0 ≤ funderAward)
    (hgrantee : 0 ≤ granteeAward) (hsum : funderAward + granteeAward ≤ dispute.amount) :
    ∃ env', resolveDispute { env with auths := [dispute.arbitrator] } disputeId funderAward
      granteeAward = .ok env' := by
  have hrange := (hstored.amount disputeId dispute hdispute).2
  obtain ⟨token, htoken⟩ : ∃ token, env.store.token = some token := by
    refine Option.ne_none_iff_exists'.mp fun hnone => ?_
    cases hdispute.symm.trans (hstored.no_disputes hnone disputeId)
  have howed : (env.pool token).deposits disputeId = some dispute.amount := by
    simp [Env.pool, hdispute, Dispute.owed, hopen]
  have hcovered : (env.pool token).Solvent := hfunded.covered token htoken
  have hle : dispute.amount ≤ env.tokens.balance token env.self :=
    hcovered.le_balance (hstored.pool token) howed
  let env₀ : Env := { env with auths := [dispute.arbitrator] }
  have hfirst : funderAward ≤ env₀.tokens.balance token env₀.self := by
    dsimp only [env₀]
    omega
  obtain ⟨env₁, hfirst⟩ := exists_payAward env₀ token dispute.funder hfirst
  have hpaid := payAward_eq_ok hfirst
  have hself₁ : env₁.self = env.self := by rw [hpaid.eq]
  have hbalance := hpaid.balance
  have htaken := (takenBy_le env.self dispute.funder funderAward).2
  have hawarded : awarded funderAward ≤ funderAward := by
    unfold awarded
    split <;> omega
  have hsecond : granteeAward ≤ env₁.tokens.balance token env₁.self := by
    rw [hself₁]
    dsimp only [env₀] at hbalance
    omega
  obtain ⟨env₂, hsecond⟩ := exists_payAward env₁ token dispute.grantee hsecond
  have hadd : I128.checkedAdd funderAward granteeAward = some (funderAward + granteeAward) :=
    I128.checkedAdd_eq_some.mpr ⟨hrange.of_nonneg_of_le (by omega) hsum, rfl⟩
  refine ⟨{ env₂ with store := { env₂.store with
    disputes := Function.update env₂.store.disputes disputeId
      (some { dispute with status := .resolved }) } }, ?_⟩
  unfold resolveDispute requireAuth Ledger.Env.requireAuth
  simp only [bind_eq_ok, require_eq_ok, orTrap_eq_ok, pure_eq_ok]
  exact ⟨dispute, hdispute, (), ⟨(), hself, List.mem_singleton_self _⟩, (), hopen, _, hadd, (),
    hsum, token, htoken, env₁, hfirst, env₂, hsecond, rfl⟩

/-- What a resolution pays is within the amount exactly if neither award is more. -/
theorem paidOut_le_iff (h : Ledger.Reachable contract older e.before)
    (hn : Ledger.Next contract e.before e.action e.after) :
    (∀ disputeId dispute, resolves disputeId e = true →
      e.before.store.disputes disputeId = some dispute → paidOut e ≤ dispute.amount) ↔
    AwardsWithin e := by
  have hstored := wellStored_of_reachable h
  rcases effect_of_next hn with ⟨hnone, -⟩ | ⟨call, hcalled, -, heffect⟩
  · refine iff_of_true ?_ ?_
    · intro disputeId dispute hresolves
      simp [resolves, hnone] at hresolves
    · intro call hcall
      cases hnone.symm.trans hcall
  have hwithin : AwardsWithin e ↔ call.AwardsWithin (e.before.enter e.action) := by
    simp [AwardsWithin, hcalled]
  rw [hwithin]
  unfold resolves paidOut
  simp only [hcalled, Option.any_some]
  generalize e.after = after at heffect
  cases heffect with
  | started | raised => simp [Call.resolves, Call.AwardsWithin]
  | resolved id funderAward granteeAward dispute token paid hdispute hopen hsum htoken hpaid
      hbalance hother hlog =>
      have hdispute : e.before.store.disputes id = some dispute := hdispute
      have htoken : e.before.store.token = some token := htoken
      have hlog : TokenLedger.sent token paid.tokens.log =
          awarded funderAward + awarded granteeAward := hlog.trans (by simp [Ledger.Env.enter])
      have hiff := awarded_add_le_iff (hstored.amount id dispute hdispute).1 hsum
      simp only [Call.resolves, beq_iff_eq, Call.AwardsWithin, Ledger.Env.enter, hdispute,
        Option.mem_def, Option.some.injEq, forall_eq', htoken, Option.elim_some, hlog]
      rw [← hiff]
      constructor
      · intro hle
        exact hle id dispute rfl hdispute
      · rintro hle _ other rfl hother
        cases hdispute.symm.trans hother
        exact hle

end Runs

/-- **Solvency of the escrow.** In every run from a balance that is not negative, the escrow is
safe after every step exactly if no call awards more than the amount to either side. -/
theorem escrow_solvent {start env : Env} {trace : Trace} (hstart : Ledger.Deployed contract start)
    (hfunded : ∀ token, 0 ≤ start.tokens.balance token start.self)
    (h : Run (· = start) (Ledger.Next contract) trace env) :
    Run.Each EscrowSafe trace ↔ Run.Each (fun e _ => AwardsWithin e) trace := by
  have hdeployed : ∀ s, s = start → Ledger.Deployed contract s := fun s hs => hs ▸ hstart
  refine Run.each_iff_of_kept (J := fun _ env => Funded env) ?_ ?_ h
  · rintro _ rfl
    obtain ⟨self, tokens, rfl⟩ := hstart
    refine ⟨hfunded, fun token htoken => ?_⟩
    cases htoken
  · intro e older hrun hn hbefore
    have hrun := hrun.mono hdeployed
    have hafter := hbefore.step hrun hn
    have hiff := paidOut_le_iff hrun hn
    refine ⟨hafter, fun hsafe => hiff.mp hsafe.paid_le, fun hwithin => ?_⟩
    have hstored := wellStored_of_reachable (Run.step hrun hn)
    refine ⟨(hafter hwithin).covered, ?_, hiff.mpr hwithin, ?_⟩
    · intro disputeId dispute hdispute hopen hself funderAward granteeAward
      exact (hafter hwithin).payable hstored hdispute hopen hself
    · intro disputeId hresolves e' he'
      rw [Bool.eq_false_iff]
      intro hearlier
      obtain ⟨dispute, hdispute, hstatus⟩ := resolved_of_mem hrun he' hearlier
      rcases effect_of_next hn with ⟨hnone, -⟩ | ⟨call, hcalled, -, heffect⟩
      · simp [resolves, hnone] at hresolves
      · simp only [resolves, hcalled, Option.any_some] at hresolves
        exact heffect.open_of_resolves hresolves dispute hdispute hstatus

/-- Two disputes, resolved within their amounts. -/
theorem escrow_solvent_of_split_awards :
    let run := Ledger.history contract Demo.env (Demo.setUp ++
      [Demo.call [Demo.arbitrator] (.resolveDispute 2 300 600),
        Demo.call [Demo.arbitrator] (.resolveDispute 1 100 (-5))])
    Run.Each EscrowSafe run.1 := by
  intro run
  have hrun : Run (· = Demo.env) (Ledger.Next contract) run.1 run.2 :=
    Ledger.history_run contract (by decide)
  exact (escrow_solvent Demo.env_deployed (fun _ => le_refl (0 : Int)) hrun).mpr (by decide)

/-- The arbitrator of a dispute of 100 awards 1000 to the funder and takes 900 from the grantee,
and the escrow pays 1000. -/
theorem escrow_solvent_negative_award :
    ¬∀ trace env, Run (· = Demo.env) (Ledger.Next contract) trace env →
      Run.Each EscrowSafe trace := by
  intro h
  let run := Ledger.history contract Demo.env (Demo.setUp ++
    [Demo.call [Demo.arbitrator] (.resolveDispute 1 1000 (-900))])
  have hrun : Run (· = Demo.env) (Ledger.Next contract) run.1 run.2 :=
    Ledger.history_run contract (by decide)
  have hsafe := (h _ _ hrun).1
  have hdispute : run.1.head?.map (fun e => e.before.store.disputes 1) = some (some
      { grantId := 1, funder := Demo.funder, grantee := Demo.grantee, amount := 100
        status := .pending, arbitrator := Demo.arbitrator }) := by
    decide
  have hle := hsafe.paid_le 1 _ (by decide) (Option.some.inj hdispute)
  exact absurd hle (by decide)

end YieldTrust.Arbitration
