import Mathlib.Algebra.Order.Ring.Int
import Mathlib.Tactic.Linarith
import Mathlib.Tactic.Ring

/-!
# YieldTrust.Lib.LazyMeter

A **meter that is read now and then**. Something flows with a weight per second, and a reading
books the whole units that have flowed since the last one; `scale` parts make a unit. Between two
readings nothing is computed, and a reading drops what is less than a unit. So the meter never
books more than what flowed, and less by at most a unit for each reading.
-/

structure LazyMeter where
  weight : Int
  /-- The time of the last reading. -/
  last : Nat
  booked : Int

namespace LazyMeter

variable {m : LazyMeter} {scale flowed readings due weight : Int} {now now' : Nat}

/-- What flowed since the last reading, in parts of a unit. -/
def running (m : LazyMeter) (now : Nat) : Int := m.weight * ((now - m.last : Nat) : Int)

/-- All that the meter stands for, in parts of a unit. -/
def total (m : LazyMeter) (scale : Int) (now : Nat) : Int := m.booked * scale + m.running now

/-- A reading that books `due`, after which the flow has another weight. -/
def read (m : LazyMeter) (due weight : Int) (now : Nat) : LazyMeter :=
  { weight, last := now, booked := m.booked + due }

/-- The meter stands for no more than what flowed. -/
structure Below (m : LazyMeter) (scale flowed : Int) (now : Nat) : Prop where
  last_le : m.last ≤ now
  total_le : m.total scale now ≤ flowed

/-- The meter stands for what flowed, up to a unit for each reading. -/
structure Tracks (m : LazyMeter) (scale flowed readings : Int) (now : Nat) : Prop
    extends m.Below scale flowed now where
  le_total : flowed ≤ m.total scale now + readings * scale

/-- A reading books no more than what flowed since the last one. -/
def Covered (m : LazyMeter) (scale due : Int) (now : Nat) : Prop := due * scale ≤ m.running now

/-- A reading books all of it but a part of a unit. -/
def Whole (m : LazyMeter) (scale due : Int) (now : Nat) : Prop := m.running now < (due + 1) * scale

theorem running_of_read (now : Nat) : (m.read due weight now).running now = 0 := by
  simp [running, read]

theorem total_of_read (now : Nat) :
    (m.read due weight now).total scale now = (m.booked + due) * scale := by
  rw [total, running_of_read]
  simp [read]

theorem running_tick (hlast : m.last ≤ now) (hnow : now ≤ now') :
    m.running now' = m.running now + m.weight * ((now' - now : Nat) : Int) := by
  unfold running
  rw [← mul_add, ← Nat.cast_add]
  congr 2
  omega

/-- Seconds go by. -/
theorem Below.total_tick (h : m.Below scale flowed now) (hnow : now ≤ now') :
    m.total scale now' = m.total scale now + m.weight * ((now' - now : Nat) : Int) := by
  unfold total
  rw [running_tick h.last_le hnow, add_assoc]

theorem Below.tick (h : m.Below scale flowed now) (hnow : now ≤ now') :
    m.Below scale (flowed + m.weight * ((now' - now : Nat) : Int)) now' := by
  refine ⟨h.last_le.trans hnow, ?_⟩
  rw [h.total_tick hnow]
  exact Int.add_le_add_right h.total_le _

theorem Tracks.tick (h : m.Tracks scale flowed readings now) (hnow : now ≤ now') :
    m.Tracks scale (flowed + m.weight * ((now' - now : Nat) : Int)) readings now' := by
  refine ⟨h.toBelow.tick hnow, ?_⟩
  rw [h.toBelow.total_tick hnow, add_right_comm]
  exact Int.add_le_add_right h.le_total _

theorem Below.read (h : m.Below scale flowed now) (hdue : m.Covered scale due now) :
    (m.read due weight now).Below scale flowed now := by
  refine ⟨le_rfl, ?_⟩
  have hle := h.total_le
  rw [total_of_read, add_mul]
  unfold total at hle
  unfold Covered at hdue
  linarith

theorem Tracks.read (h : m.Tracks scale flowed readings now) (hdue : m.Covered scale due now)
    (hwhole : m.Whole scale due now) :
    (m.read due weight now).Tracks scale flowed (readings + 1) now := by
  refine ⟨h.toBelow.read hdue, ?_⟩
  have hge := h.le_total
  rw [total_of_read, add_mul, add_mul]
  unfold total at hge
  unfold Whole at hwhole
  rw [add_mul] at hwhole
  linarith

/-- Rounding down leaves less than a unit. -/
theorem whole_of_div (hscale : 0 < scale) (now : Nat) :
    m.Whole scale (m.running now / scale) now := by
  unfold Whole
  rw [add_mul, one_mul]
  exact Int.lt_ediv_add_one_mul_self _ hscale |>.trans_eq (by ring)

/-- A meter that starts. -/
theorem tracks_start (scale weight : Int) (now : Nat) :
    (LazyMeter.mk weight now 0).Tracks scale 0 0 now := by
  refine ⟨⟨le_rfl, ?_⟩, ?_⟩ <;> simp [total, running]

end LazyMeter
