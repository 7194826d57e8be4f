import Mathlib.Logic.Basic
import Mathlib.Tactic.Common

/-!
# YieldTrust.Lib.Fallible

Calls that can fail in two ways: with an **error** of the program, which its
caller can tell apart from other errors, or by a **trap** of the host (a panic,
a failed overflow check, a missing authorization). Both abort the call.

A program is a `do` block over `Fallible`. The `…_eq_ok` lemmas invert a
successful block one statement at a time: rewriting with them turns
`prog = .ok r` into the conjunction of the checks that passed and the values
that were computed on the way, which is how every entry point of a contract is
read in the proofs.
-/

/-- Why a call was aborted. -/
inductive Fault (ε : Type) where
  /-- The program returned its error `e`. -/
  | error (e : ε)
  /-- The host stopped the call. -/
  | trap
  deriving DecidableEq

/-- The result of a call that can be aborted. -/
abbrev Fallible (ε α : Type) := Except (Fault ε) α

namespace Fallible

variable {ε ε' α β : Type}

/-- Return the program's error `e`. -/
def fail (e : ε) : Fallible ε α := .error (.error e)

/-- Stop the call. -/
def trap : Fallible ε α := .error .trap

/-- Go on if `p` holds, return the error `e` otherwise. -/
def ensure (p : Prop) [Decidable p] (e : ε) : Fallible ε Unit :=
  if p then .ok () else fail e

/-- Go on if `p` holds, trap otherwise. -/
def require (p : Prop) [Decidable p] : Fallible ε Unit :=
  if p then .ok () else trap

/-- The value of `o`, or the error `e`. -/
def okOr (o : Option α) (e : ε) : Fallible ε α :=
  match o with
  | some a => .ok a
  | none => fail e

/-- The value of `o`, or a trap. -/
def orTrap (o : Option α) : Fallible ε α :=
  match o with
  | some a => .ok a
  | none => trap

/-- Replace the program's error; a trap stays a trap. -/
def mapErr (f : ε → ε') : Fallible ε α → Fallible ε' α
  | .ok a => .ok a
  | .error (.error e) => fail (f e)
  | .error .trap => trap

/-- Run a block only if `p` holds. -/
def when (p : Prop) [Decidable p] (x : α → Fallible ε α) (a : α) : Fallible ε α :=
  if p then x a else .ok a

/-! ### Inverting a successful block -/

theorem pure_eq_ok {a b : α} : (pure a : Fallible ε α) = .ok b ↔ a = b := by
  simp [pure, Except.pure]

theorem bind_eq_ok {x : Fallible ε α} {f : α → Fallible ε β} {b : β} :
    (x >>= f) = .ok b ↔ ∃ a, x = .ok a ∧ f a = .ok b := by
  cases x <;> simp [bind, Except.bind]

theorem map_eq_ok {x : Fallible ε α} {f : α → β} {b : β} :
    f <$> x = .ok b ↔ ∃ a, x = .ok a ∧ f a = b := by
  cases x <;> simp [Functor.map, Except.map]

theorem ensure_eq_ok {p : Prop} [Decidable p] {e : ε} {u : Unit} :
    ensure p e = .ok u ↔ p := by
  unfold ensure fail
  split <;> simp_all

theorem require_eq_ok {p : Prop} [Decidable p] {u : Unit} :
    (require p : Fallible ε Unit) = .ok u ↔ p := by
  unfold require trap
  split <;> simp_all

theorem okOr_eq_ok {o : Option α} {e : ε} {a : α} : okOr o e = .ok a ↔ o = some a := by
  cases o <;> simp [okOr, fail]

theorem orTrap_eq_ok {o : Option α} {a : α} :
    (orTrap o : Fallible ε α) = .ok a ↔ o = some a := by
  cases o <;> simp [orTrap, trap]

theorem fail_ne_ok {e : ε} {a : α} : (fail e : Fallible ε α) ≠ .ok a := by
  simp [fail]

theorem when_eq_ok {p : Prop} [Decidable p] {x : α → Fallible ε α} {a b : α} :
    when p x a = .ok b ↔ p ∧ x a = .ok b ∨ ¬p ∧ a = b := by
  unfold when
  by_cases h : p <;> simp [h]

theorem mapErr_eq_ok {f : ε → ε'} {x : Fallible ε α} {a : α} :
    mapErr f x = .ok a ↔ x = .ok a := by
  match x with
  | .ok b => simp [mapErr]
  | .error (.error e) => simp [mapErr, fail]
  | .error .trap => simp [mapErr, trap]

theorem okOr_bind_eq_ok {o : Option α} {e : ε} {f : α → Fallible ε β} {b : β} :
    (okOr o e >>= f) = .ok b ↔ ∃ a, o = some a ∧ f a = .ok b := by
  simp only [bind_eq_ok, okOr_eq_ok]

/-- A loop that goes through computes the loop of what its rounds compute. -/
theorem foldl_of_foldlM {f : β → α → Fallible ε β} {g : β → α → β}
    (round : ∀ {b a b'}, f b a = .ok b' → b' = g b a) {l : List α} {b b' : β}
    (h : l.foldlM f b = .ok b') : b' = l.foldl g b := by
  induction l generalizing b with
  | nil => exact (pure_eq_ok.mp h).symm
  | cons a l ih =>
      rw [List.foldlM_cons] at h
      obtain ⟨b₁, hround, h⟩ := bind_eq_ok.mp h
      rw [ih h, round hround, List.foldl_cons]

/-- A check of every element. -/
theorem forM_eq_ok {f : α → Fallible ε PUnit} {l : List α} {u : PUnit} :
    l.forM f = .ok u ↔ ∀ a ∈ l, f a = .ok () := by
  induction l with
  | nil => simp [pure_eq_ok]
  | cons a l ih =>
      change (f a >>= fun _ => l.forM f) = .ok u ↔ _
      rw [bind_eq_ok, List.forall_mem_cons]
      simp only [ih]
      constructor
      · rintro ⟨_, ha, hl⟩
        exact ⟨ha, hl⟩
      · intro h
        exact ⟨(), h.1, h.2⟩

/-- A map that goes through computes the map of what it computes for each element. -/
theorem map_of_mapM {f : α → Fallible ε β} {g : α → β}
    (each : ∀ {a b}, f a = .ok b → b = g a) {l : List α} {l' : List β}
    (h : l.mapM f = .ok l') : l' = l.map g := by
  induction l generalizing l' with
  | nil => exact (pure_eq_ok.mp h).symm
  | cons a l ih =>
      rw [List.mapM_cons] at h
      obtain ⟨b, hb, h⟩ := bind_eq_ok.mp h
      obtain ⟨bs, hbs, h⟩ := bind_eq_ok.mp h
      rw [← pure_eq_ok.mp h, each hb, ih hbs, List.map_cons]

/-- What a map that goes through computes comes from an element. -/
theorem exists_of_mem_mapM {f : α → Fallible ε β} {l : List α} {l' : List β}
    (h : l.mapM f = .ok l') {b : β} (hb : b ∈ l') : ∃ a ∈ l, f a = .ok b := by
  induction l generalizing l' with
  | nil =>
      rw [← pure_eq_ok.mp h] at hb
      cases hb
  | cons a l ih =>
      rw [List.mapM_cons] at h
      obtain ⟨b₁, hb₁, h⟩ := bind_eq_ok.mp h
      obtain ⟨bs, hbs, h⟩ := bind_eq_ok.mp h
      rw [← pure_eq_ok.mp h] at hb
      rcases List.mem_cons.mp hb with rfl | hb
      · exact ⟨a, List.mem_cons_self, hb₁⟩
      · obtain ⟨a', ha', hfa⟩ := ih hbs hb
        exact ⟨a', List.mem_cons_of_mem a ha', hfa⟩

/-- A map that goes through does so for each element. -/
theorem exists_of_mapM {f : α → Fallible ε β} {l : List α} {l' : List β}
    (h : l.mapM f = .ok l') {a : α} (ha : a ∈ l) : ∃ b, f a = .ok b := by
  induction l generalizing l' with
  | nil => cases ha
  | cons a₁ l ih =>
      rw [List.mapM_cons] at h
      obtain ⟨b, hb, h⟩ := bind_eq_ok.mp h
      obtain ⟨bs, hbs, -⟩ := bind_eq_ok.mp h
      rcases List.mem_cons.mp ha with rfl | ha
      · exact ⟨b, hb⟩
      · exact ih hbs ha

/-- Elements for which a map does not fail can be left out before the map or after it. -/
theorem filter_mapM {f : α → Fallible ε α} {p : α → Bool}
    (hkeep : ∀ {a b}, f a = .ok b → p b = p a) {l : List α}
    (hdrop : ∀ a ∈ l, p a = false → ∃ b, f a = .ok b) :
    List.filter p <$> l.mapM f = (l.filter p).mapM f := by
  induction l with
  | nil => rfl
  | cons a l ih =>
      rw [List.forall_mem_cons] at hdrop
      have hrest := ih hdrop.2
      cases hp : p a with
      | true =>
          rw [List.filter_cons_of_pos hp, List.mapM_cons, List.mapM_cons, ← hrest]
          cases ha : f a with
          | error => rfl
          | ok b =>
              have hb : p b = true := (hkeep ha).trans hp
              cases hl : l.mapM f with
              | error => rfl
              | ok bs => exact congrArg Except.ok (List.filter_cons_of_pos hb)
      | false =>
          obtain ⟨b, ha⟩ := hdrop.1 hp
          have hb : p b = false := (hkeep ha).trans hp
          rw [List.filter_cons_of_neg (by simp [hp]), List.mapM_cons, ← hrest, ha]
          cases hl : l.mapM f with
          | error => rfl
          | ok bs => exact congrArg Except.ok (List.filter_cons_of_neg (by simp [hb]))

/-! ### Postconditions -/

/-- Whatever `x` returns satisfies `P`. A call that is aborted returns nothing. -/
def Returns (P : α → Prop) (x : Fallible ε α) : Prop := ∀ a, x = .ok a → P a

namespace Returns

variable {P : α → Prop} {Q : β → Prop}

theorem elim {x : Fallible ε α} (h : Returns P x) {a : α} (ha : x = .ok a) : P a := h a ha

theorem pure {a : α} (h : P a) : Returns P (Pure.pure a : Fallible ε α) := by
  intro b hb
  rw [← pure_eq_ok.mp hb]
  exact h

theorem mono {P' : α → Prop} {x : Fallible ε α} (h : Returns P x) (hP : ∀ a, P a → P' a) :
    Returns P' x := fun a ha => hP a (h a ha)

/-- A first statement with a postcondition of its own. -/
theorem bind {x : Fallible ε α} {f : α → Fallible ε β} (hx : Returns P x)
    (hf : ∀ a, P a → Returns Q (f a)) : Returns Q (x >>= f) := by
  intro b hb
  obtain ⟨a, ha, hb⟩ := bind_eq_ok.mp hb
  exact hf a (hx a ha) b hb

/-- A guard or a read in front of the rest of a block. -/
theorem seq {x : Fallible ε α} {f : α → Fallible ε β} (hf : ∀ a, Returns Q (f a)) :
    Returns Q (x >>= f) := by
  intro b hb
  obtain ⟨a, -, hb⟩ := bind_eq_ok.mp hb
  exact hf a b hb

theorem map {x : Fallible ε α} {f : α → β} (h : Returns (fun a => Q (f a)) x) :
    Returns Q (f <$> x) := by
  intro b hb
  obtain ⟨a, ha, rfl⟩ := map_eq_ok.mp hb
  exact h a ha

theorem ite {p : Prop} [Decidable p] {x y : Fallible ε α} (hx : Returns P x)
    (hy : Returns P y) : Returns P (if p then x else y) := by
  split
  · exact hx
  · exact hy

theorem when {p : Prop} [Decidable p] {x : α → Fallible ε α} {a : α} (hx : Returns P (x a))
    (ha : P a) : Returns P (Fallible.when p x a) := ite hx (pure ha)

end Returns

/-! ### Calls that end alike -/

/-- Both calls return, and the values are related, or both end in the same fault. -/
inductive Alike (R : α → β → Prop) : Fallible ε α → Fallible ε β → Prop
  | ok {a : α} {b : β} (h : R a b) : Alike R (.ok a) (.ok b)
  | error (fault : Fault ε) : Alike R (.error fault) (.error fault)

namespace Alike

variable {α' β' : Type} {R : α → β → Prop} {S : α' → β' → Prop}

theorem pure {a : α} {b : β} (h : R a b) :
    Alike R (Pure.pure a : Fallible ε α) (Pure.pure b : Fallible ε β) := .ok h

theorem bind {x : Fallible ε α} {y : Fallible ε β} {f : α → Fallible ε α'}
    {g : β → Fallible ε β'} (hxy : Alike R x y) (hfg : ∀ a b, R a b → Alike S (f a) (g b)) :
    Alike S (x >>= f) (y >>= g) := by
  cases hxy with
  | ok h => exact hfg _ _ h
  | error fault => exact .error fault

/-- The same statement in front of both blocks. -/
theorem seq {γ : Type} {x : Fallible ε γ} {f : γ → Fallible ε α} {g : γ → Fallible ε β}
    (hfg : ∀ c, Alike R (f c) (g c)) : Alike R (x >>= f) (x >>= g) := by
  cases x with
  | ok c => exact hfg c
  | error fault => exact .error fault

theorem map {x : Fallible ε α} {y : Fallible ε β} {f : α → α'} {g : β → β'} (hxy : Alike R x y)
    (hfg : ∀ a b, R a b → S (f a) (g b)) : Alike S (f <$> x) (g <$> y) := by
  cases hxy with
  | ok h => exact .ok (hfg _ _ h)
  | error fault => exact .error fault

theorem ite {p : Prop} [Decidable p] {x x' : Fallible ε α} {y y' : Fallible ε β}
    (h : Alike R x y) (h' : Alike R x' y') :
    Alike R (if p then x else x') (if p then y else y') := by
  split
  · exact h
  · exact h'

end Alike

/-! ### Inverting a trapped block -/

theorem pure_ne_trap {a : α} : (pure a : Fallible ε α) ≠ trap := by
  simp [pure, Except.pure, trap]

theorem fail_ne_trap {e : ε} : (fail e : Fallible ε α) ≠ trap := by
  simp [fail, trap]

theorem bind_eq_trap {x : Fallible ε α} {f : α → Fallible ε β} :
    (x >>= f) = trap ↔ x = trap ∨ ∃ a, x = .ok a ∧ f a = trap := by
  cases x <;> simp [bind, Except.bind, trap]

theorem ensure_ne_trap {p : Prop} [Decidable p] {e : ε} : ensure p e ≠ trap := by
  by_cases h : p <;> simp [ensure, fail, trap, h]

theorem require_eq_trap {p : Prop} [Decidable p] :
    (require p : Fallible ε Unit) = trap ↔ ¬p := by
  by_cases h : p <;> simp [require, trap, h]

theorem okOr_ne_trap {o : Option α} {e : ε} : okOr o e ≠ trap := by
  cases o <;> simp [okOr, fail, trap]

theorem orTrap_eq_trap {o : Option α} : (orTrap o : Fallible ε α) = trap ↔ o = none := by
  cases o <;> simp [orTrap, trap]

/-! ### Inverting a failed block -/

theorem pure_ne_fail {a : α} {e : ε} : (pure a : Fallible ε α) ≠ fail e := by
  simp [pure, Except.pure, fail]

theorem bind_eq_fail {x : Fallible ε α} {f : α → Fallible ε β} {e : ε} :
    (x >>= f) = fail e ↔ x = fail e ∨ ∃ a, x = .ok a ∧ f a = fail e := by
  cases x <;> simp [bind, Except.bind, fail]

theorem ensure_eq_fail {p : Prop} [Decidable p] {e e' : ε} :
    ensure p e = fail e' ↔ ¬p ∧ e = e' := by
  by_cases h : p <;> simp [ensure, fail, h]

theorem okOr_eq_fail {o : Option α} {e e' : ε} : okOr o e = fail e' ↔ o = none ∧ e = e' := by
  cases o <;> simp [okOr, fail]

theorem orTrap_ne_fail {o : Option α} {e : ε} : (orTrap o : Fallible ε α) ≠ fail e := by
  cases o <;> simp [orTrap, trap, fail]

end Fallible
