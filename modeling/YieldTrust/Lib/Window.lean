import Mathlib.Algebra.Order.BigOperators.Group.List
import Mathlib.Tactic.Common
import YieldTrust.Lib.Run

/-!
# YieldTrust.Lib.Window

A **tumbling window**: a counter and the time at which it was last set to zero. An
entry that comes `length` or more after that time starts a new window. A counter
of this kind stands for a *rolling* window, the entries of the last `length`, and
the lemmas here say how far it does: `Tracks` relates it to all entries since it
was last reopened by hand.

The start may be missing. A window without a start never runs out.

`tracks_of_run` is the rule for a transition system that keeps such a counter.
-/

/-- When the window began, if that is stored, and what it has counted. -/
structure Window (M : Type) where
  start : Option Nat
  total : M

namespace Window

/-- Entries, newest first, each with the time at which it was made. -/
abbrev Entries (M : Type) := List (Nat × M)

variable {M : Type}

/-- The window has run out at `now`. -/
def Expired (length now : Nat) (w : Window M) : Prop := length ≤ now - w.start.getD now

instance (length now : Nat) (w : Window M) : Decidable (w.Expired length now) :=
  inferInstanceAs (Decidable (_ ≤ _))

theorem not_expired_of_start_none {length now : Nat} {w : Window M} (hlength : 0 < length)
    (h : w.start = none) : ¬w.Expired length now := by
  unfold Expired
  rw [h]
  simp only [Option.getD_none, Nat.sub_self]
  omega

/-- The entries that the window counts. -/
def counted (w : Window M) (items : Entries M) : Entries M :=
  items.filter fun i => w.start.getD 0 ≤ i.1

/-- The entries of the last `length` before `now`. -/
def recent (length now : Nat) (items : Entries M) : Entries M :=
  items.filter fun i => now < i.1 + length

/-- The entries of the interval of `length` that ends at `t`. -/
def within (length t : Nat) (items : Entries M) : Entries M :=
  items.filter fun i => i.1 ≤ t ∧ t < i.1 + length

/-- What is kept for a stronger reason. -/
theorem filter_sublist_filter {items : Entries M} {p q : Nat × M → Bool}
    (hpq : ∀ i ∈ items, p i = true → q i = true) :
    (items.filter p).Sublist (items.filter q) := by
  have hfilter : (items.filter q).filter p = items.filter p := by
    rw [List.filter_filter]
    refine List.filter_congr fun i hi => ?_
    cases hp : p i with
    | false => rfl
    | true => rw [hpq i hi hp, Bool.and_true]
  rw [← hfilter]
  exact List.filter_sublist

section Runs

variable {σ α : Type} {entry : Run.Step σ α → Option (Nat × M)} {reopens : Run.Step σ α → Bool}

/-- The entries of the steps since the last one that reopened the window. -/
def openEntries (entry : Run.Step σ α → Option (Nat × M)) (reopens : Run.Step σ α → Bool)
    (tr : List (Run.Step σ α)) : Entries M := (Run.since reopens tr).filterMap entry

theorem openEntries_sublist (tr : List (Run.Step σ α)) :
    (openEntries entry reopens tr).Sublist (tr.filterMap entry) :=
  (List.takeWhile_sublist _).filterMap _

theorem openEntries_of_reopens {e : Run.Step σ α} (h : reopens e = true)
    (tr : List (Run.Step σ α)) : openEntries entry reopens (e :: tr) = [] := by
  unfold openEntries
  rw [Run.since_cons_of_pos h, List.filterMap_nil]

theorem openEntries_of_entry {e : Run.Step σ α} {i : Nat × M} (h : reopens e = false)
    (hi : entry e = some i) (tr : List (Run.Step σ α)) :
    openEntries entry reopens (e :: tr) = i :: openEntries entry reopens tr := by
  unfold openEntries
  rw [Run.since_cons_of_neg h, List.filterMap_cons_some hi]

theorem openEntries_of_none {e : Run.Step σ α} (h : reopens e = false) (hi : entry e = none)
    (tr : List (Run.Step σ α)) :
    openEntries entry reopens (e :: tr) = openEntries entry reopens tr := by
  unfold openEntries
  rw [Run.since_cons_of_neg h, List.filterMap_cons_none hi]

end Runs

section Operations

variable [AddMonoid M]

/-- What the window still counts at `now`. -/
def carried (length now : Nat) (w : Window M) : M := if w.Expired length now then 0 else w.total

/-- Count `x` at `now`; `cap` is how the sum is kept in range. -/
def add (cap : M → M) (length now : Nat) (x : M) (w : Window M) : Window M where
  start := if w.Expired length now then some now else w.start
  total := cap (w.carried length now + x)

/-- A window that begins at `now`. -/
def reopen (now : Nat) : Window M := ⟨some now, 0⟩

def sum (items : Entries M) : M := (items.map Prod.snd).sum

/-- `total` is what some of `items`, and nothing else, add up to. -/
def CountsOnly (cap : M → M) (total : M) (items : Entries M) : Prop :=
  ∃ counted, counted.Sublist items ∧ total = cap (sum counted)

/-- An entry is never counted in a window that has run out. -/
theorem not_expired_add {cap : M → M} {length now : Nat} {w : Window M} (hlength : 0 < length)
    (x : M) :
    ¬(w.add cap length now x).Expired length now := by
  by_cases hexp : w.Expired length now
  · have hstart : (w.add cap length now x).start = some now := if_pos hexp
    unfold Expired
    rw [hstart, Option.getD_some, Nat.sub_self]
    omega
  · have hstart : (w.add cap length now x).start = w.start := if_neg hexp
    unfold Expired at hexp ⊢
    rw [hstart]
    exact hexp

end Operations

/-! ### The counter and the entries -/

section Tracks

variable [AddCommMonoid M] [PartialOrder M]

/-- `cap` rounds a sum that is too large down to one and the same value. -/
structure Caps (cap : M → M) : Prop where
  zero : cap 0 = 0
  absorb : ∀ {a x : M}, 0 ≤ a → 0 ≤ x → cap (cap a + x) = cap (a + x)
  nonneg : ∀ {a : M}, 0 ≤ a → 0 ≤ cap a
  le : ∀ {a : M}, 0 ≤ a → cap a ≤ a

/-- At `now` the window `w` has the capped sum of its entries among `items`, which
are all entries since the window was last reopened. -/
structure Tracks (cap : M → M) (length now : Nat) (w : Window M) (items : Entries M) : Prop where
  total : w.total = cap (sum (w.counted items))
  nonneg : ∀ i ∈ items, 0 ≤ i.2
  past : ∀ i ∈ items, i.1 ≤ now
  started : ∀ s ∈ w.start, s ≤ now
  /-- No entry came after the window had run out. -/
  fits : ∀ s ∈ w.start, ∀ i ∈ items, i.1 < s + length

variable {cap : M → M} {length now : Nat} {w : Window M} {items : Entries M}

namespace Tracks

/-- A window with no entries. -/
theorem empty (hcap : Caps cap) (now : Nat) : Tracks cap length now ⟨none, 0⟩ [] where
  total := hcap.zero.symm
  nonneg := by simp
  past := by simp
  started := by simp
  fits := by simp

theorem reopen (hcap : Caps cap) (now : Nat) : Tracks cap length now (reopen now) [] where
  total := hcap.zero.symm
  nonneg := by simp
  past := by simp
  started := by simp [Window.reopen]
  fits := by simp

/-- Time passes. -/
theorem wait (h : Tracks cap length now w items) {later : Nat} (hle : now ≤ later) :
    Tracks cap length later w items where
  total := h.total
  nonneg := h.nonneg
  past i hi := (h.past i hi).trans hle
  started s hs := (h.started s hs).trans hle
  fits := h.fits

/-- A window that runs counts recent entries only, and one without a start does so
while there are no others. -/
theorem counted_sublist_recent (h : Tracks cap length now w items)
    (hrunning : ¬w.Expired length now)
    (hfresh : w.start = none → ∀ i ∈ items, now < i.1 + length) :
    (w.counted items).Sublist (recent length now items) := by
  refine filter_sublist_filter fun i hi hcounted => ?_
  rw [decide_eq_true_eq] at hcounted ⊢
  cases hs : w.start with
  | none => exact hfresh hs i hi
  | some s =>
      unfold Expired at hrunning
      have hle := h.started s hs
      rw [hs, Option.getD_some] at hcounted hrunning
      omega

end Tracks

variable [IsOrderedAddMonoid M]

theorem sum_nonneg (h : ∀ i ∈ items, 0 ≤ i.2) : 0 ≤ sum items := by
  refine List.sum_nonneg fun x hx => ?_
  obtain ⟨i, hi, rfl⟩ := List.mem_map.mp hx
  exact h i hi

/-- Fewer entries have the smaller sum. -/
theorem sum_le {fewer : Entries M} (hsub : fewer.Sublist items) (h : ∀ i ∈ items, 0 ≤ i.2) :
    sum fewer ≤ sum items := by
  refine (hsub.map Prod.snd).sum_le_sum fun x hx => ?_
  obtain ⟨i, hi, rfl⟩ := List.mem_map.mp hx
  exact h i hi

namespace Tracks

theorem counted_nonneg (h : Tracks cap length now w items) : 0 ≤ sum (w.counted items) :=
  sum_nonneg fun i hi => h.nonneg i (List.mem_of_mem_filter hi)

/-- An entry is counted. -/
theorem add (hcap : Caps cap) (hlength : 0 < length) (h : Tracks cap length now w items) {x : M}
    (hx : 0 ≤ x) : Tracks cap length now (w.add cap length now x) ((now, x) :: items) := by
  have hnonneg : ∀ i ∈ (now, x) :: items, 0 ≤ i.2 := List.forall_mem_cons.mpr ⟨hx, h.nonneg⟩
  have hpast : ∀ i ∈ (now, x) :: items, i.1 ≤ now :=
    List.forall_mem_cons.mpr ⟨le_refl _, h.past⟩
  by_cases hexp : w.Expired length now
  · -- a new window begins, and no older entry is as late as its start
    have hstart : (w.add cap length now x).start = some now := if_pos hexp
    obtain ⟨s, hs⟩ : ∃ s, w.start = some s := by
      by_contra hnone
      exact not_expired_of_start_none hlength
        (Option.eq_none_iff_forall_ne_some.mpr fun s hs => hnone ⟨s, hs⟩) hexp
    have hle : s + length ≤ now := by
      unfold Expired at hexp
      rw [hs, Option.getD_some] at hexp
      omega
    have hold : items.filter (fun i => decide (now ≤ i.1)) = [] := by
      refine List.filter_eq_nil_iff.mpr fun i hi => ?_
      have hfit := h.fits s hs i hi
      simp only [decide_eq_true_eq]
      omega
    refine ⟨?_, hnonneg, hpast, ?_, ?_⟩
    · unfold counted
      rw [hstart, Option.getD_some, List.filter_cons_of_pos (by simp), hold]
      show cap (w.carried length now + x) = _
      unfold carried
      rw [if_pos hexp]
      simp [sum]
    · intro t ht
      rw [hstart] at ht
      exact (Option.some.inj ht).ge
    · intro t ht i hi
      rw [hstart] at ht
      obtain rfl := Option.some.inj ht
      have hi := hpast i hi
      omega
  · have hstart : (w.add cap length now x).start = w.start := if_neg hexp
    have hnow : w.start.getD 0 ≤ now := by
      cases hs : w.start with
      | none => exact Nat.zero_le _
      | some s => exact h.started s hs
    refine ⟨?_, hnonneg, hpast, ?_, ?_⟩
    · unfold counted
      rw [hstart, List.filter_cons_of_pos (by simpa using hnow)]
      show cap (w.carried length now + x) = cap (x + sum (w.counted items))
      unfold carried
      rw [if_neg hexp, h.total, hcap.absorb h.counted_nonneg hx, add_comm]
    · rw [hstart]
      exact h.started
    · rw [hstart]
      intro s hs
      refine List.forall_mem_cons.mpr ⟨?_, h.fits s hs⟩
      unfold Expired at hexp
      rw [hs, Option.getD_some] at hexp
      dsimp only
      omega

/-- An entry is counted together with recent entries only, unless the window had no
start and older entries. -/
theorem counted_add_sublist (hcap : Caps cap) (hlength : 0 < length)
    (h : Tracks cap length now w items) {x : M} (hx : 0 ≤ x)
    (hfresh : w.start = none → ∀ i ∈ items, now < i.1 + length) :
    ((w.add cap length now x).counted ((now, x) :: items)).Sublist
      (recent length now ((now, x) :: items)) := by
  refine (h.add hcap hlength hx).counted_sublist_recent (not_expired_add hlength x) fun hnone => ?_
  refine List.forall_mem_cons.mpr ⟨Nat.lt_add_of_pos_right hlength, hfresh ?_⟩
  -- a window that is left without a start had none before
  by_cases hexp : w.Expired length now
  · cases (if_pos hexp).symm.trans hnone
  · exact (if_neg hexp).symm.trans hnone

/-- What is carried over is not negative. -/
theorem carried_nonneg (hcap : Caps cap) (h : Tracks cap length now w items) (later : Nat) :
    0 ≤ w.carried length later := by
  unfold carried
  split_ifs
  · exact le_refl _
  · rw [h.total]
    exact hcap.nonneg h.counted_nonneg

end Tracks

/-! ### Runs -/

section Runs

variable {σ α : Type} {entry : Run.Step σ α → Option (Nat × M)} {reopens : Run.Step σ α → Bool}

/-- What a step at `now` does to the window: with the entry that it makes, if any,
and whether it reopens the window. -/
inductive Change (cap : M → M) (length now : Nat) (w : Window M) :
    Option (Nat × M) → Bool → Window M → Prop
  | counted {x : M} (hx : 0 ≤ x) :
      Change cap length now w (some (now, x)) false (w.add cap length now x)
  | reopened : Change cap length now w none true (reopen now)
  | kept : Change cap length now w none false w

/-- **Window rule.** Let `c` be the clock of a transition system and `f` its window. If
every step changes the window in one of these ways, it tracks the entries of every run. -/
theorem tracks_of_run {init : σ → Prop} {next : σ → α → σ → Prop} {c : σ → Nat}
    {f : σ → Window M} (hcap : Caps cap) (hlength : 0 < length)
    (start : ∀ s, init s → f s = ⟨none, 0⟩)
    (step : ∀ {e : Run.Step σ α}, next e.before e.action e.after →
      c e.before ≤ c e.after ∧ Change cap length (c e.after) (f e.before)
        (entry e) (reopens e) (f e.after))
    {tr : List (Run.Step σ α)} {s : σ} (h : Run init next tr s) :
    Tracks cap length (c s) (f s) (openEntries entry reopens tr) := by
  induction h with
  | start h =>
      rw [start _ h]
      exact .empty hcap _
  | @step tr s a s' h hn ih =>
      obtain ⟨hle, hchange⟩ := step (e := ⟨s, a, s'⟩) hn
      have ih := ih.wait hle
      generalize hentry : entry ⟨s, a, s'⟩ = i, hreopens : reopens ⟨s, a, s'⟩ = r,
        f s' = w' at hchange ⊢
      cases hchange with
      | counted hx =>
          rw [openEntries_of_entry hreopens hentry]
          exact ih.add hcap hlength hx
      | reopened =>
          rw [openEntries_of_reopens hreopens]
          exact .reopen hcap _
      | kept =>
          rw [openEntries_of_none hreopens hentry]
          exact ih

end Runs

end Tracks

end Window
