import Mathlib.Data.List.Nodup
import Mathlib.Logic.Function.Basic
import YieldTrust.Lib.KeyedList

/-!
# YieldTrust.Lib.NumberedLog

A **numbered log**: a program that gives its records the numbers `1, 2, 3, …` keeps them in a table
by number, and refines a list of records. New records are appended, and what is changed of a record
is changed in its place.
-/

/-- The table has the records of the list, and the number of a record is its place. -/
structure NumberedLog {α : Type} (number : α → Nat) (table : Nat → Option α) (l : List α) : Prop where
  numbered : l.map number = List.range' 1 l.length
  table_eq : ∀ id, table id = l.find? fun a => number a = id

namespace NumberedLog

variable {α : Type} {number : α → Nat} {table : Nat → Option α} {l : List α} {a : α} {id : Nat}

theorem nil (h : ∀ id, table id = none) : NumberedLog number table [] := ⟨rfl, h⟩

theorem nodup (h : NumberedLog number table l) : (l.map number).Nodup := by
  rw [h.numbered]
  exact List.nodup_range'

/-- The table at the numbers of the records, in their order. -/
theorem read (h : NumberedLog number table l) : (l.map number).filterMap table = l := by
  have hfind : ∀ b ∈ l, table (number b) = some b := by
    intro b hb
    rw [h.table_eq]
    exact KeyedList.find?_of_mem h.nodup hb
  rw [List.filterMap_map]
  calc l.filterMap (table ∘ number)
      = l.filterMap some := List.filterMap_congr hfind
    _ = l := List.filterMap_some

/-- The next number is free. -/
theorem table_next (h : NumberedLog number table l) : table (l.length + 1) = none := by
  rw [h.table_eq, KeyedList.find?_eq_none, h.numbered, List.mem_range'_1]
  omega

theorem append (h : NumberedLog number table l) (hnumber : number a = l.length + 1) :
    NumberedLog number (Function.update table (l.length + 1) (some a)) (l ++ [a]) := by
  constructor
  · rw [List.map_append, h.numbered, List.length_append, List.map_singleton, hnumber,
      List.length_singleton, List.range'_1_concat, Nat.add_comm 1]
  · intro id
    rw [List.find?_append]
    by_cases hid : id = l.length + 1
    · rw [hid, Function.update_self, ← h.table_eq, h.table_next]
      simp [hnumber]
    · have hne : ¬number a = id := by omega
      rw [Function.update_of_ne hid, h.table_eq]
      simp [hne]

/-- One record is changed by `f`, but not its number. -/
theorem modify (h : NumberedLog number table l) (f : α → α) (hf : ∀ b, number (f b) = number b)
    (hfind : table id = some a) :
    NumberedLog number (Function.update table id (some (f a)))
      (l.map fun b => if number b = id then f b else b) := by
  have hkept : ∀ b, number (if number b = id then f b else b) = number b := by
    intro b
    split
    · exact hf b
    · rfl
  constructor
  · rw [List.map_map, List.length_map, ← h.numbered]
    exact List.map_congr_left fun b _ => hkept b
  · intro id'
    rw [List.find?_map]
    have hpred : ((fun b => decide (number b = id')) ∘ fun b => if number b = id then f b else b) =
        fun b => decide (number b = id') := by
      funext b
      simp only [Function.comp_apply, hkept]
    rw [hpred, ← h.table_eq]
    by_cases hid : id' = id
    · subst hid
      have hnumber : number a = id' := by
        rw [h.table_eq] at hfind
        exact (KeyedList.find?_eq_some hfind).2
      rw [Function.update_self, hfind, Option.map_some, if_pos hnumber]
    · rw [Function.update_of_ne hid]
      cases hb : table id' with
      | none => rfl
      | some b =>
          have hnumber : number b = id' := by
            rw [h.table_eq] at hb
            exact (KeyedList.find?_eq_some hb).2
          rw [Option.map_some, if_neg (by omega)]

end NumberedLog
