import YieldTrust.Lib.Checked
import YieldTrust.Lib.Fallible
import YieldTrust.Lib.Run
import YieldTrust.Lib.TokenLedger

/-!
# YieldTrust.Lib.Ledger

A **contract on a ledger** as a transition system. A contract is given by what it stores,
the calls it accepts and what they do; its histories are the runs of `Ledger.Next`.

* A call that fails is rolled back. It still takes place at its own time.
* A call changes the storage of the contract and the token ledgers, and nothing else:
  whatever else it returns is dropped by `Env.commit`.
* Between two calls other holders move the tokens they have, and tokens are minted.
* `Env.tokens.log` lists the transfers of the current transaction.
-/

namespace Ledger

variable {A σ κ ε : Type}

/-- What a call to the contract at the address `self` can see. -/
structure Env (A σ : Type) where
  timestamp : Nat
  sequence : Nat
  /-- Who authorized the call. -/
  auths : List A
  self : A
  tokens : TokenLedger A
  store : σ

/-- A contract: what it stores when it is deployed, which calls have arguments of the
declared machine types, and what a call does. -/
structure Contract (A σ κ ε : Type) where
  initial : σ
  typed : κ → Bool
  exec : Env A σ → κ → Fallible ε (Env A σ)

/-- What happens on the ledger. -/
inductive Transaction (A κ : Type) where
  /-- Someone calls the contract; `auths` are the addresses that authorized it. -/
  | invoke (auths : List A) (call : κ)
  /-- A holder other than the contract moves tokens. -/
  | tokenTransfer (token source target : A) (amount : Int)
  /-- A token is minted. -/
  | tokenMint (token target : A) (amount : Int)

/-- A transaction in the ledger that closes at `timestamp`. -/
structure Event (A κ : Type) where
  timestamp : Nat
  sequence : Nat
  transaction : Transaction A κ

namespace Env

/-- Go on only if `addr` has authorized the call. -/
def requireAuth [DecidableEq A] (env : Env A σ) (addr : A) : Fallible ε Unit :=
  Fallible.require (addr ∈ env.auths)

/-- Move `amount` of `token` from `source` to `target`; a transfer that fails traps. -/
def transfer [DecidableEq A] (env : Env A σ) (token source target : A) (amount : Int) :
    Fallible ε (Env A σ) := do
  let tokens ← Fallible.orTrap (env.tokens.transfer token source target amount)
  return { env with tokens }

/-- The environment at the start of the transaction of `event`. -/
def enter (env : Env A σ) (event : Event A κ) : Env A σ :=
  { env with
    timestamp := event.timestamp
    sequence := event.sequence
    auths := match event.transaction with
      | .invoke auths _ => auths
      | _ => []
    tokens := { env.tokens with log := [] } }

/-- What a call that returned `result` leaves. -/
def commit (env result : Env A σ) : Env A σ :=
  { env with tokens := result.tokens, store := result.store }

/-- The contract at `self` before its first call. -/
def deployed (C : Contract A σ κ ε) (self : A) (tokens : TokenLedger A) : Env A σ :=
  { timestamp := 0, sequence := 0, auths := [], self, tokens, store := C.initial }

variable [DecidableEq A]

theorem transfer_eq_ok {env env' : Env A σ} {token source target : A} {amount : Int} :
    (env.transfer token source target amount : Fallible ε (Env A σ)) = .ok env' ↔
      ∃ tokens, env.tokens.transfer token source target amount = some tokens ∧
        { env with tokens } = env' := by
  unfold transfer
  simp only [Fallible.bind_eq_ok, Fallible.orTrap_eq_ok, Fallible.pure_eq_ok]

theorem transfer_eq_trap {env : Env A σ} {token source target : A} {amount : Int} :
    (env.transfer token source target amount : Fallible ε (Env A σ)) = Fallible.trap ↔
      env.tokens.transfer token source target amount = none := by
  unfold transfer
  simp only [Fallible.bind_eq_trap, Fallible.orTrap_eq_trap, Fallible.pure_ne_trap, and_false,
    exists_false, or_false]

end Env

variable [DecidableEq A] (C : Contract A σ κ ε)

/-- Perform the transaction; a call that fails changes nothing. -/
def Transaction.exec (env : Env A σ) : Transaction A κ → Env A σ
  | .invoke _ call => env.commit ((C.exec env call).toOption.getD env)
  | .tokenTransfer token source target amount =>
      { env with tokens := (env.tokens.transfer token source target amount).getD env.tokens }
  | .tokenMint token target amount => { env with tokens := env.tokens.mint token target amount }

def execute (env : Env A σ) (event : Event A κ) : Env A σ :=
  event.transaction.exec C (env.enter event)

/-- Arguments are machine values, and nobody but the contract moves the contract's tokens. -/
def Transaction.WellTyped (self : A) : Transaction A κ → Prop
  | .invoke _ call => C.typed call = true
  | .tokenTransfer _ source _ _ => source ≠ self
  | .tokenMint _ _ amount => 0 ≤ amount

instance (self : A) : (t : Transaction A κ) → Decidable (t.WellTyped C self)
  | .invoke _ call => inferInstanceAs (Decidable (C.typed call = true))
  | .tokenTransfer _ source _ _ => inferInstanceAs (Decidable (source ≠ self))
  | .tokenMint _ _ amount => inferInstanceAs (Decidable (0 ≤ amount))

/-- What can happen on the ledger next. Time does not go back. -/
structure Admissible (env : Env A σ) (event : Event A κ) : Prop where
  timestamp_le : env.timestamp ≤ event.timestamp
  timestamp_lt : event.timestamp < U64.size
  wellTyped : event.transaction.WellTyped C env.self

instance (env : Env A σ) (event : Event A κ) : Decidable (Admissible C env event) :=
  decidable_of_iff
    (env.timestamp ≤ event.timestamp ∧ event.timestamp < U64.size ∧
      event.transaction.WellTyped C env.self)
    ⟨fun ⟨h₁, h₂, h₃⟩ => ⟨h₁, h₂, h₃⟩, fun ⟨h₁, h₂, h₃⟩ => ⟨h₁, h₂, h₃⟩⟩

def Deployed (env : Env A σ) : Prop := ∃ self tokens, env = Env.deployed C self tokens

/-- One event of the ledger. -/
def Next (env : Env A σ) (event : Event A κ) (env' : Env A σ) : Prop :=
  Admissible C env event ∧ env' = execute C env event

/-- A history of the contract, newest event first. -/
abbrev Trace (A σ κ : Type) := List (Run.Step (Env A σ) (Event A κ))

/-- `Reachable C trace env`: the contract was deployed, the events of `trace` took place, and
`env` is what they left. -/
abbrev Reachable (trace : Trace A σ κ) (env : Env A σ) : Prop :=
  Run (Deployed C) (Next C) trace env

/-- The call that the step made, if it went through. -/
def called (e : Run.Step (Env A σ) (Event A κ)) : Option κ :=
  match e.action.transaction with
  | .invoke _ call =>
    if (C.exec (e.before.enter e.action) call).toOption.isSome then some call else none
  | _ => none

/-! ### What a step does -/

section Steps

variable {C} {e : Run.Step (Env A σ) (Event A κ)}

/-- **Inversion.** No call went through and the storage is the same, or one call returned
`result`, and its storage and tokens are the new ones. -/
theorem cases_of_next (h : Next C e.before e.action e.after) :
    (called C e = none ∧ e.after.store = e.before.store) ∨
      ∃ call result, called C e = some call ∧ C.typed call = true ∧
        C.exec (e.before.enter e.action) call = .ok result ∧
        e.after = (e.before.enter e.action).commit result := by
  obtain ⟨hadm, hafter⟩ := h
  have htyped := hadm.wellTyped
  rw [hafter]
  unfold called execute
  cases ht : e.action.transaction with
  | invoke auths call =>
      rw [ht] at htyped
      dsimp only [Transaction.exec]
      cases hexec : C.exec (e.before.enter e.action) call with
      | ok result => exact .inr ⟨call, result, rfl, htyped, hexec, rfl⟩
      | error fault => exact .inl ⟨rfl, rfl⟩
  | tokenTransfer | tokenMint => exact .inl ⟨rfl, rfl⟩

/-- **Effect rule.** What a call that goes through does from the start of the transaction, a step
does, unless no call goes through. -/
theorem effect_of_next {E : κ → σ → Prop} (h : Next C e.before e.action e.after)
    (exec : ∀ {call : κ} {result : Env A σ}, C.typed call = true →
      C.exec (e.before.enter e.action) call = .ok result → E call result.store) :
    (called C e = none ∧ e.after.store = e.before.store) ∨
      ∃ call, called C e = some call ∧ E call e.after.store := by
  rcases cases_of_next h with hidle | ⟨call, result, hcalled, htyped, hexec, hafter⟩
  · exact .inl hidle
  · have heffect : E call result.store := exec htyped hexec
    rw [hafter]
    exact .inr ⟨call, hcalled, heffect⟩

theorem exec_of_called (h : Next C e.before e.action e.after) {call : κ}
    (hcalled : called C e = some call) :
    ∃ result, C.typed call = true ∧ C.exec (e.before.enter e.action) call = .ok result ∧
      e.after = (e.before.enter e.action).commit result := by
  rcases cases_of_next h with ⟨hnone, -⟩ | ⟨call', result, hcalled', htyped, hexec, hafter⟩
  · cases hnone.symm.trans hcalled
  · obtain rfl := Option.some.inj (hcalled'.symm.trans hcalled)
    exact ⟨result, htyped, hexec, hafter⟩

theorem timestamp_of_next (h : Next C e.before e.action e.after) :
    e.before.timestamp ≤ e.action.timestamp ∧ e.after.timestamp = e.action.timestamp := by
  refine ⟨h.1.timestamp_le, ?_⟩
  rw [h.2]
  unfold execute Transaction.exec
  cases e.action.transaction <;> rfl

theorem sequence_of_next (h : Next C e.before e.action e.after) :
    e.after.sequence = e.action.sequence := by
  rw [h.2]
  unfold execute Transaction.exec
  cases e.action.transaction <;> rfl

theorem self_of_next (h : Next C e.before e.action e.after) : e.after.self = e.before.self := by
  rw [h.2]
  unfold execute Transaction.exec
  cases e.action.transaction <;> rfl

/-- While no call goes through, what the contract has does not become less. -/
theorem balance_le_of_idle (h : Next C e.before e.action e.after) (hidle : called C e = none)
    (token : A) :
    e.before.tokens.balance token e.before.self ≤ e.after.tokens.balance token e.after.self := by
  rw [self_of_next h]
  obtain ⟨hadm, hafter⟩ := h
  have htyped := hadm.wellTyped
  rw [hafter]
  unfold called at hidle
  unfold execute
  cases ht : e.action.transaction with
  | invoke auths call =>
      rw [ht] at hidle
      dsimp only [Transaction.exec]
      cases hexec : C.exec (e.before.enter e.action) call with
      | ok result => simp [hexec, Except.toOption] at hidle
      | error fault => exact le_rfl
  | tokenTransfer t source target amount =>
      rw [ht] at htyped
      dsimp only [Transaction.exec, Env.enter]
      cases htransfer : TokenLedger.transfer { e.before.tokens with log := [] } t source target
          amount with
      | none => exact le_rfl
      | some ledger =>
          have hle := TokenLedger.transfer_balance_le htransfer (t := token) htyped
          exact hle
  | tokenMint t target amount =>
      rw [ht] at htyped
      exact TokenLedger.mint_balance_le _ t target token _ htyped

/-- **Invariant rule** for the storage. What holds of the initial storage, and is kept by
every call that goes through, holds in every reachable state. -/
theorem store_invariant {I : σ → Prop} (initial : I C.initial)
    (exec : ∀ {env result : Env A σ} {call : κ}, C.exec env call = .ok result →
      C.typed call = true → I env.store → I result.store)
    {trace : Trace A σ κ} {env : Env A σ} (h : Reachable C trace env) : I env.store := by
  refine Run.invariant (I := fun env => I env.store) ?_ ?_ h
  · rintro env ⟨self, tokens, rfl⟩
    exact initial
  · intro env event env' ih hn
    rcases cases_of_next (e := ⟨env, event, env'⟩) hn with ⟨-, hstore⟩ | ⟨call, result, -, htyped,
      hexec, hafter⟩
    · dsimp only at hstore
      rw [hstore]
      exact ih
    · dsimp only at hexec hafter
      rw [hafter]
      have hkept : I result.store := exec hexec htyped ih
      exact hkept

end Steps

/-! ### Performing a list of events -/

/-- The trace of `events`, oldest first, on a contract that was just deployed, and the
environment they leave. -/
def history (env : Env A σ) (events : List (Event A κ)) : Trace A σ κ × Env A σ :=
  Run.replay (execute C) env events

/-- Every event can happen after the ones before it. -/
def AllAdmissible : Env A σ → List (Event A κ) → Prop
  | _, [] => True
  | env, event :: events => Admissible C env event ∧ AllAdmissible (execute C env event) events

instance decidableAllAdmissible : (env : Env A σ) → (events : List (Event A κ)) →
    Decidable (AllAdmissible C env events)
  | _, [] => inferInstanceAs (Decidable True)
  | env, event :: events =>
    have := decidableAllAdmissible (execute C env event) events
    inferInstanceAs (Decidable (_ ∧ _))

theorem history_run {env : Env A σ} {events : List (Event A κ)} (hadm : AllAdmissible C env events) :
    Run (· = env) (Next C) (history C env events).1 (history C env events).2 := by
  refine Run.replay_run rfl ?_
  induction events generalizing env with
  | nil => trivial
  | cons event events ih => exact ⟨⟨hadm.1, rfl⟩, ih hadm.2⟩

theorem history_reachable {env : Env A σ} {events : List (Event A κ)} (h : Deployed C env)
    (hadm : AllAdmissible C env events) :
    Reachable C (history C env events).1 (history C env events).2 :=
  (history_run C hadm).mono fun _ heq => heq ▸ h

end Ledger
