import Mathlib.Algebra.Order.Monoid.Defs
import Mathlib.Tactic.Common

/-!
# YieldTrust.Lib.RateStream

An ideal stream. It earns its rate in every second it is active; a proposed rate
replaces the current one at the time it takes effect, provided the stream is
active then. `RateStream.advance` lets it run second by second, and the
`advance_…` lemmas give the closed forms of a run without an event: one segment,
or two with a switch of the rate between them.
-/

/-- The state of a stream whose rates and earnings are in `R`. -/
structure RateStream (R : Type) where
  active : Bool
  rate : R
  /-- A proposed rate and the time at which it takes effect. -/
  pending : Option (R × Nat)
  earned : R

namespace RateStream

section Defs

variable {R : Type}

/-- A pending rate that takes effect at `t` replaces the rate of an active stream. -/
def switch (s : RateStream R) (t : Nat) : RateStream R :=
  match s.pending with
  | some (r, effective) =>
      if s.active ∧ effective = t then { s with rate := r, pending := none } else s
  | none => s

def setActive (s : RateStream R) (active : Bool) : RateStream R := { s with active }

/-- Set the rate at once. A pending rate is dropped. -/
def setRate (s : RateStream R) (r : R) : RateStream R := { s with rate := r, pending := none }

/-- Propose the rate `r` from `effective` on, in place of any other pending rate. -/
def propose (s : RateStream R) (r : R) (effective : Nat) : RateStream R :=
  { s with pending := some (r, effective) }

/-- Rescale the rate and the pending rate. -/
def rescale (s : RateStream R) (f : R → R) : RateStream R :=
  { s with rate := f s.rate, pending := s.pending.map fun p => (f p.1, p.2) }

variable [AddCommMonoid R]

/-- A stream that starts at the rate `r`. -/
def start (r : R) : RateStream R := { active := true, rate := r, pending := none, earned := 0 }

def earn (s : RateStream R) : RateStream R :=
  if s.active then { s with earned := s.earned + s.rate } else s

/-- The second from `t` to `t + 1`. A rate that takes effect at `t` is in force
in it also if the stream was only activated at `t`. -/
def tick (s : RateStream R) (t : Nat) : RateStream R := ((s.switch t).earn).switch (t + 1)

/-- Let `n` seconds pass from `t` on. -/
def advance (s : RateStream R) (t : Nat) : Nat → RateStream R
  | 0 => s
  | n + 1 => (s.advance t n).tick (t + n)

end Defs

section Switch

variable {R : Type}

theorem switch_of_not_active {s : RateStream R} (h : s.active = false) (t : Nat) :
    s.switch t = s := by
  unfold switch
  split
  · simp [h]
  · rfl

theorem switch_of_ne {s : RateStream R} {t : Nat}
    (h : ∀ r effective, s.pending = some (r, effective) → effective ≠ t) : s.switch t = s := by
  unfold switch
  split
  · rename_i r effective hp
    rw [if_neg fun hs => h r effective hp hs.2]
  · rfl

theorem switch_of_eq {s : RateStream R} {r : R} {t : Nat} (ha : s.active = true)
    (h : s.pending = some (r, t)) : s.switch t = { s with rate := r, pending := none } := by
  simp [switch, h, ha]

@[simp] theorem switch_active (s : RateStream R) (t : Nat) : (s.switch t).active = s.active := by
  unfold switch
  split <;> try split_ifs
  all_goals rfl

@[simp] theorem switch_earned (s : RateStream R) (t : Nat) : (s.switch t).earned = s.earned := by
  unfold switch
  split <;> try split_ifs
  all_goals rfl

/-- The pending rate, if there is one, makes no difference: it is the current rate. -/
def Steady (s : RateStream R) : Prop :=
  ∀ r effective, s.pending = some (r, effective) → r = s.rate

theorem Steady.switch {s : RateStream R} (h : s.Steady) (t : Nat) :
    (s.switch t).Steady ∧ (s.switch t).rate = s.rate := by
  unfold RateStream.switch
  split
  · rename_i r effective hp
    split_ifs
    · refine ⟨fun r' effective' hnone => ?_, h r effective hp⟩
      dsimp only at hnone
      cases hnone
    · exact ⟨h, rfl⟩
  · exact ⟨h, rfl⟩

theorem Steady.rescale {s : RateStream R} (h : s.Steady) (f : R → R) : (s.rescale f).Steady := by
  intro r effective hp
  obtain ⟨⟨r', effective'⟩, hr, heq⟩ := Option.map_eq_some_iff.mp hp
  cases heq
  exact congrArg f (h r' effective' hr)

theorem Steady.of_none {s : RateStream R} (h : s.pending = none) : s.Steady := by
  intro r effective hp
  rw [h] at hp
  cases hp

end Switch

/-! ### Closed forms -/

section Advance

variable {R : Type} [AddCommMonoid R]

theorem advance_add (s : RateStream R) (t m n : Nat) :
    s.advance t (m + n) = (s.advance t m).advance (t + m) n := by
  induction n with
  | zero => rfl
  | succ n ih =>
      show (s.advance t (m + n)).tick (t + (m + n)) = _
      rw [ih, ← Nat.add_assoc]
      rfl

theorem tick_of_not_active {s : RateStream R} (h : s.active = false) (t : Nat) : s.tick t = s := by
  unfold tick earn
  rw [switch_of_not_active h]
  simp [h, switch_of_not_active h]

/-- Nothing happens to a stream that is not active. -/
theorem advance_of_not_active {s : RateStream R} (h : s.active = false) (t n : Nat) :
    s.advance t n = s := by
  induction n with
  | zero => rfl
  | succ n ih =>
      show (s.advance t n).tick (t + n) = s
      rw [ih]
      exact tick_of_not_active h _

@[simp] theorem tick_active (s : RateStream R) (t : Nat) : (s.tick t).active = s.active := by
  unfold tick earn
  rw [switch_active]
  split_ifs <;> exact switch_active ..

@[simp] theorem advance_active (s : RateStream R) (t n : Nat) :
    (s.advance t n).active = s.active := by
  induction n with
  | zero => rfl
  | succ n ih => exact (tick_active ..).trans ih

theorem Steady.earn {s : RateStream R} (h : s.Steady) :
    s.earn.Steady ∧ s.earn.rate = s.rate := by
  unfold RateStream.earn
  split_ifs
  · exact ⟨h, rfl⟩
  · exact ⟨h, rfl⟩

theorem Steady.tick {s : RateStream R} (h : s.Steady) (ha : s.active = true) (t : Nat) :
    (s.tick t).Steady ∧ (s.tick t).rate = s.rate ∧ (s.tick t).earned = s.earned + s.rate := by
  obtain ⟨h₁, hr₁⟩ := h.switch t
  obtain ⟨h₂, hr₂⟩ := h₁.earn
  obtain ⟨h₃, hr₃⟩ := h₂.switch (t + 1)
  refine ⟨h₃, hr₃.trans (hr₂.trans hr₁), ?_⟩
  unfold RateStream.tick RateStream.earn
  rw [switch_active, if_pos ha, switch_earned]
  dsimp only
  rw [switch_earned, hr₁]

/-- One segment: the rate does not change. -/
theorem Steady.advance {s : RateStream R} (h : s.Steady) (ha : s.active = true) (t n : Nat) :
    (s.advance t n).Steady ∧ (s.advance t n).rate = s.rate ∧
      (s.advance t n).earned = s.earned + n • s.rate := by
  induction n with
  | zero => exact ⟨h, rfl, by rw [zero_nsmul, add_zero]; rfl⟩
  | succ n ih =>
      obtain ⟨hsteady, hrate, hearned⟩ := ih
      obtain ⟨hsteady', hrate', hearned'⟩ := hsteady.tick (by rw [advance_active, ha]) (t + n)
      refine ⟨hsteady', hrate'.trans hrate, ?_⟩
      show ((s.advance t n).tick (t + n)).earned = _
      rw [hearned', hrate, hearned, succ_nsmul, add_assoc]

/-- A second in which no pending rate takes effect. -/
theorem tick_of_lt {s : RateStream R} {t : Nat} (ha : s.active = true)
    (h : ∀ r effective, s.pending = some (r, effective) → t + 1 < effective) :
    s.tick t = { s with earned := s.earned + s.rate } := by
  have hfirst : s.switch t = s := switch_of_ne fun r effective hp => by
    have := h r effective hp
    omega
  unfold tick earn
  rw [hfirst, if_pos ha]
  refine switch_of_ne fun r effective hp => ?_
  have := h r effective hp
  omega

/-- One segment that ends before the pending rate takes effect. -/
theorem advance_before {s : RateStream R} {t n : Nat} (ha : s.active = true)
    (h : ∀ r effective, s.pending = some (r, effective) → t + n < effective) :
    s.advance t n = { s with earned := s.earned + n • s.rate } := by
  induction n with
  | zero =>
      show s = _
      rw [zero_nsmul, add_zero]
  | succ n ih =>
      show (s.advance t n).tick (t + n) = _
      have ih := ih fun r effective hp => by
        have := h r effective hp
        omega
      rw [ih, tick_of_lt (s := { s with earned := s.earned + n • s.rate }) (t := t + n) ha h]
      simp only [succ_nsmul, add_assoc]

/-- A stream for which no other rate is proposed. -/
theorem advance_of_pending_none {s : RateStream R} (h : s.pending = none) (t n : Nat) :
    s.advance t n = { s with earned := s.earned + if s.active then n • s.rate else 0 } := by
  cases ha : s.active with
  | true =>
      refine (advance_before ha fun r effective hp => ?_).trans (by simp [ha])
      rw [h] at hp
      cases hp
  | false =>
      rw [advance_of_not_active ha]
      cases s
      simp_all

/-- The second in which a pending rate takes effect. -/
theorem tick_switch {s : RateStream R} {r : R} {effective t : Nat} (ha : s.active = true)
    (h : s.pending = some (r, effective)) (hat : effective = t ∨ effective = t + 1) :
    s.tick t = { s with
      rate := r
      pending := none
      earned := s.earned + if effective = t then r else s.rate } := by
  unfold tick earn
  rcases hat with rfl | rfl
  · rw [switch_of_eq ha h, if_pos ha, if_pos rfl]
    exact switch_of_ne fun _ _ hp => by cases hp
  · have hne : s.switch t = s := switch_of_ne fun r' effective' hp => by
      rw [h] at hp
      cases hp
      omega
    rw [hne, if_pos ha, if_neg (by omega)]
    exact switch_of_eq ha h

/-- Two segments: the pending rate takes effect between them. -/
theorem advance_switch {s : RateStream R} {r : R} {effective t n : Nat} (ha : s.active = true)
    (h : s.pending = some (r, effective)) (hle : t ≤ effective) (hn : effective ≤ t + n)
    (hpos : 0 < n) :
    s.advance t n = { s with
      rate := r
      pending := none
      earned := s.earned + ((effective - t) • s.rate + (t + n - effective) • r) } := by
  induction n with
  | zero => omega
  | succ n ih =>
      show (s.advance t n).tick (t + n) = _
      rcases Nat.lt_or_ge (t + n) effective with hlt | hge
      · -- the last second ends when the rate takes effect
        obtain rfl : effective = t + n + 1 := by omega
        have hbefore := advance_before (t := t) (n := n) ha fun r' effective' hp => by
          rw [h] at hp
          cases hp
          exact hlt
        rw [hbefore, tick_switch (s := { s with earned := s.earned + n • s.rate }) ha h (.inr rfl),
          if_neg (by omega)]
        have h₁ : t + n + 1 - t = n + 1 := by omega
        have h₂ : t + (n + 1) - (t + n + 1) = 0 := by omega
        rw [h₁, h₂, zero_nsmul, add_zero, succ_nsmul, add_assoc]
      · by_cases hzero : n = 0
        · -- the first second starts when the rate takes effect
          subst hzero
          obtain rfl : effective = t := by omega
          show s.tick effective = _
          rw [tick_switch ha h (.inl rfl), if_pos rfl]
          have h₁ : effective + (0 + 1) - effective = 1 := by omega
          rw [h₁, Nat.sub_self, zero_nsmul, one_nsmul, zero_add]
        · rw [ih hge (by omega)]
          have htick (e : R) : ({ s with rate := r, pending := none, earned := e } :
              RateStream R).tick (t + n) = { s with rate := r, pending := none, earned := e + r } :=
            tick_of_lt ha fun _ _ hp => by cases hp
          rw [htick]
          have h₁ : t + (n + 1) - effective = (t + n - effective) + 1 := by omega
          simp only [h₁, succ_nsmul, add_assoc]

end Advance

/-! ### Earnings grow -/

section Ordered

variable {R : Type} [AddCommMonoid R] [PartialOrder R]

/-- Neither the rate nor a pending one is negative. -/
structure Nonneg (s : RateStream R) : Prop where
  rate : 0 ≤ s.rate
  pending : ∀ r effective, s.pending = some (r, effective) → 0 ≤ r

theorem Nonneg.start {r : R} (h : 0 ≤ r) : (start r).Nonneg := ⟨h, fun _ _ hp => by cases hp⟩

theorem Nonneg.switch {s : RateStream R} (h : s.Nonneg) (t : Nat) : (s.switch t).Nonneg := by
  unfold RateStream.switch
  split
  · rename_i r effective hp
    split_ifs
    · exact ⟨h.pending r effective hp, fun _ _ hnone => by cases hnone⟩
    · exact h
  · exact h

theorem Nonneg.setActive {s : RateStream R} (h : s.Nonneg) (active : Bool) :
    (s.setActive active).Nonneg := ⟨h.rate, h.pending⟩

theorem Nonneg.setRate (s : RateStream R) {r : R} (h : 0 ≤ r) : (s.setRate r).Nonneg :=
  ⟨h, fun _ _ hp => by cases hp⟩

theorem Nonneg.propose {s : RateStream R} (h : s.Nonneg) {r : R} (hr : 0 ≤ r) (effective : Nat) :
    (s.propose r effective).Nonneg := by
  refine ⟨h.rate, fun r' effective' hp => ?_⟩
  cases hp
  exact hr

theorem Nonneg.rescale {s : RateStream R} (h : s.Nonneg) {f : R → R} (hf : ∀ r, 0 ≤ r → 0 ≤ f r) :
    (s.rescale f).Nonneg := by
  refine ⟨hf _ h.rate, fun r' effective' hp => ?_⟩
  obtain ⟨⟨r, effective⟩, hr, heq⟩ := Option.map_eq_some_iff.mp hp
  cases heq
  exact hf _ (h.pending r effective hr)

variable [IsOrderedAddMonoid R]

theorem Nonneg.earn {s : RateStream R} (h : s.Nonneg) :
    s.earn.Nonneg ∧ s.earned ≤ s.earn.earned := by
  unfold RateStream.earn
  split_ifs
  · exact ⟨⟨h.rate, h.pending⟩, le_add_of_nonneg_right h.rate⟩
  · exact ⟨h, le_refl _⟩

theorem Nonneg.tick {s : RateStream R} (h : s.Nonneg) (t : Nat) :
    (s.tick t).Nonneg ∧ s.earned ≤ (s.tick t).earned := by
  obtain ⟨hearn, hle⟩ := (h.switch t).earn
  rw [switch_earned] at hle
  refine ⟨hearn.switch _, ?_⟩
  unfold RateStream.tick
  rw [switch_earned]
  exact hle

theorem Nonneg.advance {s : RateStream R} (h : s.Nonneg) (t n : Nat) :
    (s.advance t n).Nonneg ∧ s.earned ≤ (s.advance t n).earned := by
  induction n with
  | zero => exact ⟨h, le_refl _⟩
  | succ n ih =>
      obtain ⟨htick, hle⟩ := ih.1.tick (t + n)
      exact ⟨htick, ih.2.trans hle⟩

end Ordered

end RateStream
