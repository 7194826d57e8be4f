import YieldTrust.SpeedBump.Contract

/-!
# YieldTrust.SpeedBump.Queue

The **queue of the speed bump**. What is queued is paid at most once, after its delay, and not
after a veto. An execution and a veto take the first transfer with an id, so they take the one
that was meant exactly if no two transfers of the queue share an id.
-/

namespace YieldTrust.SpeedBump

open Fallible
open GrantStream (Address)

variable {env env' : Env} {call : Call} {id : Nat} {transfer : PendingTransfer}
  {transfers before after : List PendingTransfer}

/-! ### What a call does -/

/-- What `approveTransfer` compares an amount with. -/
def Store.threshold (store : Store) : Nat := store.totalTreasury.getD 0 * thresholdBps / 10000

/-- A transfer that is queued at the time `now`. -/
def newTransfer (now : Nat) (recipient : Address) (amount : Nat) : PendingTransfer :=
  { id := transferId now amount, recipient, amount, approvedAt := now
    executableAfter := now + delaySeconds, vetoed := false }

/-- The environment with another queue. -/
def withQueue (env : Env) (transfers : List PendingTransfer) : Env :=
  { env with store := { env.store with pendingTransfers := transfers } }

/-- The transfer to which an execution or a veto with its id gets. -/
structure First (transfers before : List PendingTransfer) (transfer : PendingTransfer)
    (after : List PendingTransfer) : Prop where
  split : transfers = before ++ transfer :: after
  first : ∀ t ∈ before, t.id ≠ transfer.id

inductive Effect (env : Env) : Call → Env → Prop
  | paidNow (admin recipient : Address) (amount : Nat) (token : Address)
      (tokens : TokenLedger Address) (hle : amount ≤ env.store.threshold)
      (htoken : env.store.tokenContract = some token)
      (htransfer : env.tokens.transfer token env.self recipient amount = some tokens) :
      Effect env (.approveTransfer admin recipient amount) { env with tokens }
  | queued (admin recipient : Address) (amount : Nat) (hlt : env.store.threshold < amount) :
      Effect env (.approveTransfer admin recipient amount)
        (withQueue env (env.store.pendingTransfers ++
          [newTransfer env.timestamp recipient amount]))
  | executed (caller : Address) (before : List PendingTransfer) (transfer : PendingTransfer)
      (after : List PendingTransfer) (token : Address) (tokens : TokenLedger Address)
      (hfirst : First env.store.pendingTransfers before transfer after)
      (hveto : transfer.vetoed = false) (htime : transfer.executableAfter ≤ env.timestamp)
      (htoken : env.store.tokenContract = some token)
      (htransfer : env.tokens.transfer token env.self transfer.recipient transfer.amount =
        some tokens) :
      Effect env (.executeTransfer caller transfer.id)
        (withQueue { env with tokens } (before ++ after))
  | vetoed (admin : Address) (before : List PendingTransfer) (transfer : PendingTransfer)
      (after : List PendingTransfer)
      (hfirst : First env.store.pendingTransfers before transfer after)
      (htime : env.timestamp < transfer.executableAfter) :
      Effect env (.vetoTransfer admin transfer.id)
        (withQueue env (before ++ { transfer with vetoed := true } :: after))
  | updated (admin : Address) (newBalance : Nat) :
      Effect env (.updateTreasuryBalance admin newBalance)
        { env with store := { env.store with totalTreasury := some newBalance } }

theorem doTransfer_eq_ok {recipient : Address} {amount : Nat} :
    doTransfer env recipient amount = .ok env' ↔
      ∃ token, env.store.tokenContract = some token ∧ ∃ tokens,
        env.tokens.transfer token env.self recipient amount = some tokens ∧
          { env with tokens } = env' := by
  unfold doTransfer
  simp only [bind_eq_ok, orTrap_eq_ok, Ledger.Env.transfer_eq_ok]

theorem First.of_find (h : findTransfer transfers id = some transfer) :
    ∃ before after, First transfers before transfer after ∧ transfer.id = id := by
  obtain ⟨before, after, hsplit, hid, hfirst⟩ := KeyedList.split_of_find? h
  exact ⟨before, after, ⟨hsplit, fun t ht => hid ▸ hfirst t ht⟩, hid⟩

theorem First.find (h : First transfers before transfer after) :
    findTransfer transfers transfer.id = some transfer := by
  rw [h.split]
  exact KeyedList.find?_append_cons h.first

theorem First.vetoed (h : First transfers before transfer after) :
    First (before ++ { transfer with vetoed := true } :: after) before
      { transfer with vetoed := true } after :=
  ⟨rfl, h.first⟩

theorem First.remove (h : First transfers before transfer after) :
    removeTransfer transfers transfer.id = before ++ after := by
  rw [h.split]
  exact KeyedList.eraseP_append_cons h.first

theorem First.set (h : First transfers before transfer after) :
    KeyedList.set PendingTransfer.id { transfer with vetoed := true } transfers =
      before ++ { transfer with vetoed := true } :: after := by
  rw [h.split]
  exact KeyedList.set_append_cons rfl h.first

/-- **Inversion** of a call that goes through. -/
theorem exec_effect (h : call.exec env = .ok env') : Effect env call env' := by
  cases call with
  | approveTransfer admin recipient amount =>
      unfold Call.exec approveTransfer at h
      simp only [map_eq_ok, bind_eq_ok, orTrap_eq_ok, U64.checkedMul_eq_some] at h
      obtain ⟨⟨env₁, executed⟩, ⟨_, -, _, -, _, ⟨-, rfl⟩, h⟩, rfl⟩ := h
      split at h
      · case isTrue hlt =>
        simp only [queueTransfer, bind_eq_ok, orTrap_eq_ok, U64.checkedAdd_eq_some, pure_eq_ok,
          Prod.mk.injEq] at h
        obtain ⟨_, ⟨_, ⟨-, rfl⟩, rfl⟩, rfl, -⟩ := h
        exact .queued admin recipient amount hlt
      · case isFalse hle =>
        simp only [bind_eq_ok, doTransfer_eq_ok, pure_eq_ok, Prod.mk.injEq] at h
        obtain ⟨_, ⟨token, htoken, tokens, htransfer, rfl⟩, rfl, -⟩ := h
        exact .paidNow admin recipient amount token tokens (Nat.le_of_not_lt hle) htoken htransfer
  | executeTransfer caller id =>
      unfold Call.exec executeTransfer at h
      simp only [bind_eq_ok, orTrap_eq_ok, require_eq_ok, pure_eq_ok, doTransfer_eq_ok] at h
      obtain ⟨_, -, _, -, transfer, hfind, _, hveto, _, htime, _,
        ⟨token, htoken, tokens, htransfer, rfl⟩, rfl⟩ := h
      obtain ⟨before, after, hfirst, rfl⟩ := First.of_find hfind
      rw [hfirst.remove]
      exact .executed caller before transfer after token tokens hfirst hveto htime htoken htransfer
  | vetoTransfer admin id =>
      unfold Call.exec vetoTransfer at h
      simp only [bind_eq_ok, orTrap_eq_ok, require_eq_ok, pure_eq_ok] at h
      obtain ⟨_, -, _, -, transfer, hfind, _, htime, rfl⟩ := h
      obtain ⟨before, after, hfirst, rfl⟩ := First.of_find hfind
      rw [hfirst.set]
      exact .vetoed admin before transfer after hfirst htime
  | updateTreasuryBalance admin newBalance =>
      unfold Call.exec updateTreasuryBalance at h
      simp only [bind_eq_ok, pure_eq_ok] at h
      obtain ⟨_, -, _, -, rfl⟩ := h
      exact .updated admin newBalance

theorem Effect.commit_eq (h : Effect env call env') : env.commit env' = env' := by
  cases h with
  | paidNow | queued | executed | vetoed | updated => rfl

theorem Effect.admin_eq (h : Effect env call env') : env'.store.admin = env.store.admin := by
  cases h with
  | paidNow | queued | executed | vetoed | updated => rfl

/-! ### What a call means for the queue -/

/-- The transfer as it was queued. -/
def PendingTransfer.unvetoed (transfer : PendingTransfer) : PendingTransfer :=
  { transfer with vetoed := false }

theorem PendingTransfer.unvetoed_of_not_vetoed (h : transfer.vetoed = false) :
    transfer.unvetoed = transfer := by
  rw [PendingTransfer.unvetoed, ← h]

/-- The transfer that the call queues. -/
def Call.queued (env : Env) : Call → Option PendingTransfer
  | .approveTransfer _ recipient amount =>
      if env.store.threshold < amount then some (newTransfer env.timestamp recipient amount)
      else none
  | _ => none

/-- The transfer of the queue that the call pays. -/
def Call.paid (env : Env) : Call → Option PendingTransfer
  | .executeTransfer _ id => findTransfer env.store.pendingTransfers id
  | _ => none

/-- The call is a veto with the id. -/
def Call.vetoes (id : Nat) : Call → Bool
  | .vetoTransfer _ other => other == id
  | _ => false

/-- What is queued or paid makes up for the change of the queue. -/
theorem Effect.perm (h : Effect env call env') :
    ((call.paid env).toList ++
        env'.store.pendingTransfers.map PendingTransfer.unvetoed).Perm
      ((call.queued env).toList ++
        env.store.pendingTransfers.map PendingTransfer.unvetoed) := by
  cases h with
  | paidNow _ _ _ _ _ hle => simp [Call.paid, Call.queued, Nat.not_lt.mpr hle]
  | queued _ recipient amount hlt =>
      have hnew : (newTransfer env.timestamp recipient amount).unvetoed =
          newTransfer env.timestamp recipient amount := rfl
      simp only [Call.paid, Call.queued, if_pos hlt, withQueue, List.map_append, List.map_cons,
        List.map_nil, Option.toList_none, Option.toList_some, List.nil_append, hnew]
      exact List.perm_append_singleton _ _
  | executed _ before transfer after _ _ hfirst hveto =>
      have hsame := PendingTransfer.unvetoed_of_not_vetoed hveto
      simp only [Call.paid, Call.queued, hfirst.find, withQueue, Option.toList_none,
        Option.toList_some, List.nil_append, List.singleton_append]
      rw [hfirst.split, List.map_append, List.map_append, List.map_cons, hsame]
      exact List.perm_middle.symm
  | vetoed _ before transfer after hfirst =>
      simp only [Call.paid, Call.queued, withQueue, Option.toList_none, List.nil_append]
      rw [hfirst.split, List.map_append, List.map_append, List.map_cons, List.map_cons]
      exact .refl _
  | updated => exact .refl _

/-- A veto keeps the first transfer with its id from ever being paid. -/
def Blocked (transfers : List PendingTransfer) (id : Nat) : Prop :=
  ∃ transfer, findTransfer transfers id = some transfer ∧ transfer.vetoed = true

theorem Blocked.append (h : Blocked transfers id) (more : List PendingTransfer) :
    Blocked (transfers ++ more) id := by
  obtain ⟨transfer, hfind, hveto⟩ := h
  refine ⟨transfer, ?_, hveto⟩
  unfold findTransfer at hfind ⊢
  rw [List.find?_append, hfind]
  rfl

/-- Other ids are not affected by what happens to a transfer. -/
theorem findTransfer_split_of_ne (h : transfer.id ≠ id) :
    findTransfer (before ++ transfer :: after) id = findTransfer (before ++ after) id := by
  unfold findTransfer
  rw [List.find?_append, List.find?_append, List.find?_cons_of_neg (by simpa using h)]

theorem Effect.blocked (h : Effect env call env')
    (hblocked : call.vetoes id = true ∨ Blocked env.store.pendingTransfers id) :
    Blocked env'.store.pendingTransfers id := by
  cases h with
  | paidNow | updated => exact hblocked.resolve_left (by simp [Call.vetoes])
  | queued => exact (hblocked.resolve_left (by simp [Call.vetoes])).append _
  | executed _ before transfer after _ _ hfirst hveto =>
      obtain ⟨other, hfind, hother⟩ := hblocked.resolve_left (by simp [Call.vetoes])
      have hne : transfer.id ≠ id := by
        rintro rfl
        cases hfirst.find.symm.trans hfind
        simp [hveto] at hother
      rw [hfirst.split, findTransfer_split_of_ne hne] at hfind
      exact ⟨other, hfind, hother⟩
  | vetoed _ before transfer after hfirst =>
      by_cases hid : transfer.id = id
      · subst hid
        exact ⟨_, hfirst.vetoed.find, rfl⟩
      · obtain ⟨other, hfind, hother⟩ := hblocked.resolve_left (by simp [Call.vetoes, hid])
        have hid' : ({ transfer with vetoed := true } : PendingTransfer).id ≠ id := hid
        rw [hfirst.split, findTransfer_split_of_ne hid] at hfind
        exact ⟨other, (findTransfer_split_of_ne hid').trans hfind, hother⟩

/-- What is paid is first in the queue, was not vetoed, and has waited. -/
theorem Effect.paid_spec (h : Effect env call env') (hpaid : call.paid env = some transfer) :
    findTransfer env.store.pendingTransfers transfer.id = some transfer ∧
      transfer.vetoed = false ∧ transfer.executableAfter ≤ env.timestamp ∧
      ∃ token, env.store.tokenContract = some token ∧ env'.tokens.log =
        ⟨token, env.self, transfer.recipient, transfer.amount⟩ :: env.tokens.log := by
  cases h with
  | executed _ before found after token tokens hfirst hveto htime htoken htransfer =>
      cases hfirst.find.symm.trans hpaid
      obtain ⟨-, rfl⟩ := TokenLedger.transfer_eq_some.mp htransfer
      exact ⟨hfirst.find, hveto, htime, token, htoken, rfl⟩
  | _ => cases hpaid

/-- What is queued is not paid at once. -/
theorem Effect.queued_spec (h : Effect env call env') (hqueued : call.queued env = some transfer) :
    env'.tokens.log = env.tokens.log := by
  cases h with
  | paidNow _ _ _ _ _ hle =>
      rw [Call.queued, if_neg (Nat.not_lt.mpr hle)] at hqueued
      cases hqueued
  | queued | updated | vetoed => rfl
  | executed => cases hqueued

end YieldTrust.SpeedBump
