import Mathlib.Data.List.Induction
import Mathlib.Tactic.Abel
import YieldTrust.Lib.Window

/-!
# YieldTrust.Lib.CumulativeLog

A log of **cumulative totals**: with every entry a total is appended, and what was
entered between two times is read off as the difference of the totals then. `Reads`
says that this is right, and `reads_append_iff` that it stays right exactly if the
total that is appended continues the last one.
-/

namespace CumulativeLog

/-- Totals, oldest first, each with the time at which it was appended. -/
abbrev Log (M : Type) := List (Nat × M)

variable {M : Type} [AddCommGroup M]

/-- The total at `t`: the last one that was not appended after `t`. -/
def totalAt (log : Log M) (t : Nat) : M :=
  log.foldl (fun acc r => if r.1 ≤ t then r.2 else acc) 0

/-- The last total of all. -/
def lastTotal (log : Log M) : M := log.foldl (fun _ r => r.2) 0

/-- What was entered after `s` and not after `t`. -/
def entered (entries : Window.Entries M) (s t : Nat) : M :=
  Window.sum (entries.filter fun i => s < i.1 ∧ i.1 ≤ t)

theorem totalAt_append (log : Log M) (r : Nat × M) (t : Nat) :
    totalAt (log ++ [r]) t = if r.1 ≤ t then r.2 else totalAt log t := by
  simp [totalAt]

theorem lastTotal_append (log : Log M) (r : Nat × M) : lastTotal (log ++ [r]) = r.2 := by
  simp [lastTotal]

theorem totalAt_of_past {log : Log M} {t : Nat} (h : ∀ r ∈ log, r.1 ≤ t) :
    totalAt log t = lastTotal log := by
  induction log using List.reverseRecOn with
  | nil => rfl
  | append_singleton log r ih =>
      rw [totalAt_append, lastTotal_append, if_pos (h r (by simp))]

/-- Every total is one that was appended, or zero. -/
theorem totalAt_induction {P : M → Prop} {log : Log M} (hzero : P 0) (h : ∀ r ∈ log, P r.2)
    (t : Nat) : P (totalAt log t) := by
  induction log using List.reverseRecOn with
  | nil => exact hzero
  | append_singleton log r ih =>
      rw [totalAt_append]
      split_ifs
      · exact h r (by simp)
      · exact ih fun r' hr' => h r' (List.mem_append_left _ hr')

section Entries

variable {entries : Window.Entries M} {i : Nat × M} {s t : Nat}

theorem entered_cons_of_mem (h : s < i.1 ∧ i.1 ≤ t) :
    entered (i :: entries) s t = i.2 + entered entries s t := by
  simp [entered, Window.sum, h]

theorem entered_cons_of_not_mem (h : ¬(s < i.1 ∧ i.1 ≤ t)) :
    entered (i :: entries) s t = entered entries s t := by
  unfold entered
  rw [List.filter_cons_of_neg (by simpa using h)]

theorem entered_of_past {now : Nat} (h : ∀ i ∈ entries, i.1 ≤ now) (hs : now ≤ s) :
    entered entries s t = 0 := by
  have hnone : entries.filter (fun i => s < i.1 ∧ i.1 ≤ t) = [] := by
    refine List.filter_eq_nil_iff.mpr fun i hi => ?_
    have := h i hi
    simp only [decide_eq_true_eq]
    omega
  unfold entered
  rw [hnone]
  rfl

theorem entered_eq_of_past {now : Nat} (h : ∀ i ∈ entries, i.1 ≤ now) (ht : now ≤ t) :
    entered entries s t = entered entries s now := by
  unfold entered
  congr 1
  refine List.filter_congr fun i hi => ?_
  have := h i hi
  rw [decide_eq_decide]
  omega

end Entries

/-- Up to `now`, the difference of two totals is what was entered in between. -/
def Reads (now : Nat) (log : Log M) (entries : Window.Entries M) : Prop :=
  ∀ s t, s < t → t ≤ now → totalAt log t - totalAt log s = entered entries s t

variable {log : Log M} {entries : Window.Entries M} {now : Nat}

/-- Time passes. -/
theorem Reads.wait (h : Reads now log entries) (hlog : ∀ r ∈ log, r.1 ≤ now)
    (hentries : ∀ i ∈ entries, i.1 ≤ now) {later : Nat} : Reads later log entries := by
  intro s t hst _
  by_cases ht : t ≤ now
  · exact h s t hst ht
  · have hpast {u : Nat} (hu : now ≤ u) : totalAt log u = totalAt log now := by
      rw [totalAt_of_past hlog, totalAt_of_past fun r hr => (hlog r hr).trans hu]
    rw [hpast (by omega)]
    by_cases hs : now ≤ s
    · rw [hpast hs, entered_of_past hentries hs, sub_self]
    · rw [entered_eq_of_past hentries (by omega)]
      exact h s now (by omega) (Nat.le_refl now)

/-- An entry at `now`, with a total: the log stays right exactly if the total is the last
one plus the entry. -/
theorem reads_append_iff (h : Reads now log entries) (hlog : ∀ r ∈ log, r.1 ≤ now)
    (hnow : 0 < now) {total x : M} :
    Reads now (log ++ [(now, total)]) ((now, x) :: entries) ↔ total = lastTotal log + x := by
  have hnew : totalAt (log ++ [(now, total)]) now = total := by
    rw [totalAt_append, if_pos (Nat.le_refl now)]
  have hold {s : Nat} (hs : s < now) : totalAt (log ++ [(now, total)]) s = totalAt log s := by
    rw [totalAt_append, if_neg (by omega)]
  have hbefore {s : Nat} (hs : s < now) : lastTotal log - totalAt log s = entered entries s now := by
    rw [← totalAt_of_past hlog]
    exact h s now hs (Nat.le_refl now)
  constructor
  · intro hreads
    have hlt : now - 1 < now := by omega
    have hread := hreads (now - 1) now hlt (Nat.le_refl now)
    rw [hnew, hold hlt, entered_cons_of_mem ⟨hlt, Nat.le_refl now⟩, ← hbefore hlt] at hread
    rw [sub_eq_iff_eq_add.mp hread]
    abel
  · rintro rfl s t hst ht
    by_cases hlt : t < now
    · rw [hold hlt, hold (hst.trans hlt), entered_cons_of_not_mem (by dsimp only; omega)]
      exact h s t hst ht
    · obtain rfl : t = now := by omega
      rw [hnew, hold hst, entered_cons_of_mem ⟨hst, Nat.le_refl t⟩, ← hbefore hst]
      abel

end CumulativeLog
