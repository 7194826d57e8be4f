import Mathlib.Order.MinMax
import Mathlib.Tactic.Common

/-!
# YieldTrust.GrantStream.Reentrancy

The **non-reentrant guard** (`reentrancy.rs`): a flag in temporary storage that a guarded body sets
and clears. A body may call other contracts, and these may call back; what a transaction does is a
tree of calls, of which nothing is assumed but that only the guard touches the flag.

Against such trees the guard refines a semantics without a flag, in which a guarded body inside
another one fails.
-/

namespace YieldTrust.GrantStream.Reentrancy

variable {σ : Type}

/-! ### The guard -/

/-- The storage as the guard sees it: whether there is an entry under `GuardKey::NonReentrant`, and
all the rest. -/
structure Storage (σ : Type) where
  nonReentrant : Bool
  rest : σ
  deriving DecidableEq

/-- Panics, which is `none`, if the flag is set. -/
def reentrancyEnter (s : Storage σ) : Option (Storage σ) :=
  if s.nonReentrant then none else some { s with nonReentrant := true }

/-- The entry is removed. -/
def reentrancyExit (s : Storage σ) : Storage σ := { s with nonReentrant := false }

/-- The macro. The body is a closure, so that a `return` inside it comes here as well. -/
def nonreentrant (body : Storage σ → Option (Storage σ)) (s : Storage σ) : Option (Storage σ) := do
  let s ← reentrancyEnter s
  let s ← body s
  return reentrancyExit s

/-! ### Trees of calls -/

/-- What a transaction does, from here on. -/
inductive CallTree (σ : Type) where
  | done
  | panic
  | read (next : σ → CallTree σ)
  /-- Whatever is done outside the guard: to storage or in other contracts. -/
  | write (f : σ → σ) (next : CallTree σ)
  /-- A guarded entry point is called, by the user or by a callback. -/
  | guarded (body next : CallTree σ)
  /-- A call whose failure the caller survives; what the callee did is rolled back. -/
  | attempt (callee : CallTree σ) (next : Bool → CallTree σ)

namespace CallTree

/-- What a tree does, by the guard. -/
def exec : CallTree σ → Storage σ → Option (Storage σ)
  | done, s => some s
  | panic, _ => none
  | read next, s => (next s.rest).exec s
  | write f next, s => next.exec { s with rest := f s.rest }
  | guarded body next, s => (nonreentrant body.exec s).bind next.exec
  | attempt callee next, s =>
    match callee.exec s with
    | some s => (next true).exec s
    | none => (next false).exec s

/-- How many guarded bodies are active at once at most, where `active` are so at the start. What
is rolled back counts. -/
def peak (active : Nat) : CallTree σ → Storage σ → Nat
  | done, _ => active
  | panic, _ => active
  | read next, s => (next s.rest).peak active s
  | write f next, s => next.peak active { s with rest := f s.rest }
  | guarded body next, s =>
    match reentrancyEnter s with
    | none => active
    | some entered =>
      max (body.peak (active + 1) entered)
        ((nonreentrant body.exec s).elim active fun s => next.peak active s)
  | attempt callee next, s =>
    max (callee.peak active s)
      (match callee.exec s with
      | some s => (next true).peak active s
      | none => (next false).peak active s)

/-- What a tree should do: a guarded body fails `inside` another one, and there is no flag. -/
def alone (inside : Bool) : CallTree σ → σ → Option σ
  | done, x => some x
  | panic, _ => none
  | read next, x => (next x).alone inside x
  | write f next, x => next.alone inside (f x)
  | guarded body next, x =>
    if inside then none else (body.alone true x).bind (next.alone inside)
  | attempt callee next, x =>
    match callee.alone inside x with
    | some x => (next true).alone inside x
    | none => (next false).alone inside x

end CallTree

/-! ### Refinement -/

theorem nonreentrant_of_locked (body : Storage σ → Option (Storage σ)) (x : σ) :
    nonreentrant body ⟨true, x⟩ = none := rfl

theorem nonreentrant_of_free (body : Storage σ → Option (Storage σ)) (x : σ) :
    nonreentrant body ⟨false, x⟩ = (body ⟨true, x⟩).map reentrancyExit := by
  rw [Option.map_eq_bind]
  rfl

/-- **Simulation.** By induction on the tree: the flag is what it was, and is set exactly inside
a guarded body. -/
theorem exec_eq_alone (t : CallTree σ) (locked : Bool) (x : σ) :
    t.exec ⟨locked, x⟩ = (t.alone locked x).map (Storage.mk locked) := by
  induction t generalizing locked x with
  | done => simp [CallTree.exec, CallTree.alone]
  | panic => simp [CallTree.exec, CallTree.alone]
  | read next ih => simp [CallTree.exec, CallTree.alone, ih]
  | write f next ih => simp [CallTree.exec, CallTree.alone, ih]
  | guarded body next ihBody ihNext =>
      cases locked with
      | true => simp [CallTree.exec, CallTree.alone, nonreentrant_of_locked]
      | false =>
          simp only [CallTree.exec, CallTree.alone, nonreentrant_of_free, ihBody]
          cases body.alone true x with
          | none => simp
          | some x' => simp [reentrancyExit, ihNext]
  | attempt callee next ihCallee ihNext =>
      simp only [CallTree.exec, CallTree.alone, ihCallee]
      cases callee.alone locked x with
      | none => simp [ihNext]
      | some x' => simp [ihNext]

/-- Where the flag is set no guarded body starts. -/
theorem peak_of_locked (active : Nat) (t : CallTree σ) (x : σ) :
    t.peak active ⟨true, x⟩ = active := by
  induction t generalizing x with
  | done => simp [CallTree.peak]
  | panic => simp [CallTree.peak]
  | read next ih => simp [CallTree.peak, ih]
  | write f next ih => simp [CallTree.peak, ih]
  | guarded body next _ _ => simp [CallTree.peak, reentrancyEnter]
  | attempt callee next ihCallee ihNext =>
      simp only [CallTree.peak, ihCallee, exec_eq_alone]
      cases callee.alone true x with
      | none => simp [ihNext]
      | some x' => simp [ihNext]

/-- Where it is not set one at a time does. -/
theorem peak_of_free (active : Nat) (t : CallTree σ) (x : σ) :
    t.peak active ⟨false, x⟩ ≤ active + 1 := by
  induction t generalizing x with
  | done => simp [CallTree.peak]
  | panic => simp [CallTree.peak]
  | read next ih => simp [CallTree.peak, ih]
  | write f next ih => simp [CallTree.peak, ih]
  | guarded body next _ ihNext =>
      have hbody : body.peak (active + 1) ⟨true, x⟩ = active + 1 := peak_of_locked _ body x
      simp only [CallTree.peak, reentrancyEnter, nonreentrant_of_free, exec_eq_alone]
      cases body.alone true x with
      | none => simp [hbody]
      | some x' => simp [hbody, reentrancyExit, ihNext]
  | attempt callee next ihCallee ihNext =>
      simp only [CallTree.peak, exec_eq_alone]
      refine max_le (ihCallee x) ?_
      cases callee.alone false x with
      | none => simp [ihNext]
      | some x' => simp [ihNext]

/-! ### Transactions -/

/-- A transaction that panics is rolled back. -/
def transact (s : Storage σ) (t : CallTree σ) : Storage σ := (t.exec s).getD s

/-- A transaction without a flag. -/
def transactAlone (x : σ) (t : CallTree σ) : σ := (t.alone false x).getD x

theorem transact_eq (x : σ) (t : CallTree σ) :
    transact ⟨false, x⟩ t = ⟨false, transactAlone x t⟩ := by
  unfold transact transactAlone
  rw [exec_eq_alone]
  cases t.alone false x <;> rfl

theorem foldl_transact_eq (ts : List (CallTree σ)) (x : σ) :
    ts.foldl transact ⟨false, x⟩ = ⟨false, ts.foldl transactAlone x⟩ := by
  induction ts generalizing x with
  | nil => rfl
  | cons t ts ih => rw [List.foldl_cons, transact_eq, ih, List.foldl_cons]

/-- **Exclusion.** After every list of transactions, whatever they call and however they are
called back: the flag is not set, so no guarded entry point stays locked; the rest of the storage
is what the transactions leave in which a guarded body inside another one fails; and no transaction
has more than one guarded body active at once. -/
theorem guard_excludes (ts : List (CallTree σ)) (x : σ) :
    let s := ts.foldl transact ⟨false, x⟩
    s = ⟨false, ts.foldl transactAlone x⟩ ∧ ∀ t : CallTree σ, t.peak 0 s ≤ 1 := by
  intro s
  have hs : s = ⟨false, ts.foldl transactAlone x⟩ := foldl_transact_eq ts x
  refine ⟨hs, fun t => ?_⟩
  rw [hs]
  exact peak_of_free 0 t _

/-- A callback into a guarded body is caught by the token: it adds nothing. -/
example : (CallTree.guarded (.attempt (.guarded (.write (· + 100) .done) .done)
    fun _ => .write (· + 1) .done) .done).exec ⟨false, 0⟩ = some ⟨false, 1⟩ := by decide

end YieldTrust.GrantStream.Reentrancy
