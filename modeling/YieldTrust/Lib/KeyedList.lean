import Mathlib.Data.List.Nodup

/-!
# YieldTrust.Lib.KeyedList

Lists of records with a **key**, of which the first one with a key is read and written. Where no
key is listed twice, reading finds the one record with the key, and writing is a map.
-/

namespace KeyedList

variable {α κ : Type} [DecidableEq κ] {key : α → κ} {l : List α} {a : α} {k : κ}

theorem find?_eq_some (h : l.find? (fun b => key b = k) = some a) : a ∈ l ∧ key a = k :=
  ⟨List.mem_of_find?_eq_some h, by simpa using List.find?_some h⟩

theorem find?_eq_none : l.find? (fun b => key b = k) = none ↔ k ∉ l.map key := by
  simp

/-- The record with its key is found, if its key is listed once. -/
theorem find?_of_mem (hnodup : (l.map key).Nodup) (ha : a ∈ l) :
    l.find? (fun b => key b = key a) = some a := by
  induction l with
  | nil => simp at ha
  | cons b l ih =>
      rw [List.map_cons, List.nodup_cons] at hnodup
      rcases List.mem_cons.mp ha with rfl | ha
      · simp
      · have hne : key b ≠ key a := by
          intro heq
          exact hnodup.1 (heq ▸ List.mem_map_of_mem ha)
        rw [List.find?_cons_of_neg (by simpa using hne)]
        exact ih hnodup.2 ha

/-- Write the record `a` in the place of the first one with its key. -/
def set (key : α → κ) (a : α) (l : List α) : List α :=
  l.replaceF fun b => if key b = key a then some a else none

@[simp] theorem set_nil : set key a [] = [] := rfl

theorem set_cons_of_eq {b : α} (h : key b = key a) : set key a (b :: l) = a :: l := by
  simp [set, h]

theorem set_cons_of_ne {b : α} (h : key b ≠ key a) : set key a (b :: l) = b :: set key a l := by
  simp [set, h]

theorem map_key_set : (set key a l).map key = l.map key := by
  induction l with
  | nil => simp
  | cons b l ih =>
      by_cases h : key b = key a
      · simp [set_cons_of_eq h, h]
      · simp [set_cons_of_ne h, ih]

theorem mem_set {b : α} (h : b ∈ set key a l) : b = a ∨ b ∈ l := by
  induction l with
  | nil => simp at h
  | cons c l ih =>
      by_cases hc : key c = key a
      · rw [set_cons_of_eq hc, List.mem_cons] at h
        exact h.imp_right (List.mem_cons_of_mem c)
      · rw [set_cons_of_ne hc, List.mem_cons] at h
        rcases h with rfl | h
        · exact .inr List.mem_cons_self
        · exact (ih h).imp_right (List.mem_cons_of_mem c)

/-- Writing what was read changes nothing. -/
theorem set_of_find? (h : l.find? (fun b => key b = k) = some a) : set key a l = l := by
  have hk : key a = k := (find?_eq_some h).2
  induction l with
  | nil => simp
  | cons b l ih =>
      by_cases hb : key b = k
      · rw [List.find?_cons_of_pos (by simpa using hb)] at h
        cases h
        exact set_cons_of_eq rfl
      · rw [List.find?_cons_of_neg (by simpa using hb)] at h
        rw [set_cons_of_ne (hk ▸ hb), ih h]

/-- Where the keys are distinct, one record is changed. -/
theorem set_eq_map (hnodup : (l.map key).Nodup) :
    set key a l = l.map fun b => if key b = key a then a else b := by
  induction l with
  | nil => simp
  | cons b l ih =>
      rw [List.map_cons, List.nodup_cons] at hnodup
      by_cases h : key b = key a
      · rw [set_cons_of_eq h, List.map_cons, if_pos h]
        have hrest : l.map (fun b => if key b = key a then a else b) = l.map id := by
          refine List.map_congr_left fun c hc => if_neg fun hkey => ?_
          exact hnodup.1 (h.trans hkey.symm ▸ List.mem_map_of_mem hc)
        rw [hrest, List.map_id]
      · rw [set_cons_of_ne h, List.map_cons, if_neg h, ih hnodup.2]

/-- Changing the record with a key by `f` changes that record only. -/
theorem set_eq_map_of_find? (hnodup : (l.map key).Nodup) (f : α → α)
    (hf : ∀ b, key (f b) = key b) (h : l.find? (fun b => key b = k) = some a) :
    set key (f a) l = l.map fun b => if key b = k then f b else b := by
  obtain ⟨ha, rfl⟩ := find?_eq_some h
  rw [set_eq_map hnodup]
  refine List.map_congr_left fun b hb => ?_
  rw [hf]
  split
  · case isTrue hkey =>
    have hfound := find?_of_mem hnodup hb
    rw [hkey, find?_of_mem hnodup ha] at hfound
    cases hfound
    rfl
  · rfl

/-! ### The first record with a key -/

/-- What was found stands behind records with other keys. -/
theorem split_of_find? (h : l.find? (fun b => key b = k) = some a) :
    ∃ before after, l = before ++ a :: after ∧ key a = k ∧ ∀ b ∈ before, key b ≠ k := by
  obtain ⟨ha, before, after, rfl, hbefore⟩ := List.find?_eq_some_iff_append.mp h
  exact ⟨before, after, rfl, by simpa using ha, by simpa using hbefore⟩

section Split

variable {before after : List α}

theorem find?_append_cons (h : ∀ b ∈ before, key b ≠ key a) :
    (before ++ a :: after).find? (fun b => key b = key a) = some a :=
  List.find?_eq_some_iff_append.mpr ⟨by simp, before, after, rfl, by simpa using h⟩

theorem set_append_cons {a' : α} (hkey : key a' = key a) (h : ∀ b ∈ before, key b ≠ key a) :
    set key a' (before ++ a :: after) = before ++ a' :: after := by
  induction before with
  | nil => exact set_cons_of_eq hkey.symm
  | cons b before ih =>
      rw [List.forall_mem_cons] at h
      rw [List.cons_append, set_cons_of_ne (hkey ▸ h.1), ih h.2, List.cons_append]

/-- Changing the first record with a key does not change what `g` reads of the list, if it does
not change what it reads of the record. -/
theorem map_set_of_find? {β : Type} {g : α → β} {a' : α}
    (h : l.find? (fun b => key b = k) = some a) (hkey : key a' = key a) (hg : g a' = g a) :
    (set key a' l).map g = l.map g := by
  obtain ⟨before, after, rfl, rfl, hbefore⟩ := split_of_find? h
  rw [set_append_cons hkey hbefore]
  simp [hg]

/-- A record is written into the first part of a list, if its key is listed there. -/
theorem set_append_of_mem (h : key a ∈ l.map key) : set key a (l ++ after) = set key a l ++ after := by
  induction l with
  | nil => simp at h
  | cons b l ih =>
      by_cases hb : key b = key a
      · rw [List.cons_append, set_cons_of_eq hb, set_cons_of_eq hb, List.cons_append]
      · rw [List.map_cons, List.mem_cons] at h
        rw [List.cons_append, set_cons_of_ne hb, set_cons_of_ne hb,
          ih (h.resolve_left (Ne.symm hb)), List.cons_append]

theorem eraseP_append_cons (h : ∀ b ∈ before, key b ≠ key a) :
    (before ++ a :: after).eraseP (fun b => key b = key a) = before ++ after := by
  rw [List.eraseP_append_right _ (by simpa using h), List.eraseP_cons_of_pos (by simp)]

omit [DecidableEq κ] in
/-- Where the keys are distinct, every record stands behind records with other keys. -/
theorem key_ne_of_nodup (hnodup : ((before ++ a :: after).map key).Nodup) :
    ∀ b ∈ before, key b ≠ key a := by
  intro b hb heq
  rw [List.map_append, List.map_cons, List.nodup_append] at hnodup
  exact hnodup.2.2 (key b) (List.mem_map_of_mem hb) (key a) List.mem_cons_self heq

end Split

end KeyedList
