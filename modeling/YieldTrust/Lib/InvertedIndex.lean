import Mathlib.Data.List.Nodup
import Mathlib.Logic.Function.Basic

/-!
# YieldTrust.Lib.InvertedIndex

An **inverted index**: next to a table that gives every key at most one owner, a
program keeps for each owner the list of its keys. The three ways to change both
(a new key, a key that changes hands, a key that is removed) keep them in step.
-/

variable {K A : Type} {owner : K → Option A} {index : A → List K}

/-- The list of `a` has the keys that `a` owns, each once. -/
structure InvertedIndex (owner : K → Option A) (index : A → List K) : Prop where
  nodup : ∀ a, (index a).Nodup
  mem_iff : ∀ a k, k ∈ index a ↔ owner k = some a

namespace InvertedIndex

theorem empty : InvertedIndex (fun _ : K => (none : Option A)) fun _ => [] :=
  ⟨fun _ => List.nodup_nil, fun a k => by simp⟩

/-- A key that nobody owns is in no list. -/
theorem notMem (h : InvertedIndex owner index) {k : K} (hnone : owner k = none) (a : A) :
    k ∉ index a := by
  rw [h.mem_iff, hnone]
  simp

variable [DecidableEq K] [DecidableEq A]

/-- A key without an owner is added to the list of its new owner. -/
theorem insert (h : InvertedIndex owner index) {k : K} (hnone : owner k = none) (a : A) :
    InvertedIndex (Function.update owner k (some a))
      (Function.update index a (index a ++ [k])) := by
  have hnew := h.notMem hnone
  refine ⟨fun b => ?_, fun b k' => ?_⟩
  · by_cases hb : b = a
    · subst hb
      rw [Function.update_self]
      rw [← List.concat_eq_append]
      exact (h.nodup b).concat (hnew b)
    · rw [Function.update_of_ne hb]
      exact h.nodup b
  · by_cases hb : b = a
    · subst hb
      rw [Function.update_self, List.mem_append, List.mem_singleton, h.mem_iff]
      by_cases hk : k' = k
      · subst hk
        simp
      · simp [hk]
    · rw [Function.update_of_ne hb, h.mem_iff]
      by_cases hk : k' = k
      · subst hk
        simp [hnone, Ne.symm hb]
      · rw [Function.update_of_ne hk]

/-- A key is taken out of the list of its owner, in whatever way. -/
theorem remove (h : InvertedIndex owner index) {k : K} {a : A} (ha : owner k = some a)
    {keys : List K} (hnodup : keys.Nodup) (hmem : ∀ k', k' ∈ keys ↔ k' ≠ k ∧ k' ∈ index a) :
    InvertedIndex (Function.update owner k none) (Function.update index a keys) := by
  refine ⟨fun b => ?_, fun b k' => ?_⟩
  · by_cases hb : b = a
    · subst hb
      rw [Function.update_self]
      exact hnodup
    · rw [Function.update_of_ne hb]
      exact h.nodup b
  · by_cases hb : b = a
    · subst hb
      rw [Function.update_self, hmem, h.mem_iff]
      by_cases hk : k' = k
      · subst hk
        simp
      · simp [hk]
    · rw [Function.update_of_ne hb, h.mem_iff]
      by_cases hk : k' = k
      · subst hk
        simp [ha, Ne.symm hb]
      · rw [Function.update_of_ne hk]

/-- Removing the first occurrence is enough. -/
theorem erase (h : InvertedIndex owner index) {k : K} {a : A} (ha : owner k = some a) :
    InvertedIndex (Function.update owner k none) (Function.update index a ((index a).erase k)) :=
  h.remove ha ((h.nodup a).erase k) fun _ => (h.nodup a).mem_erase_iff

theorem filter (h : InvertedIndex owner index) {k : K} {a : A} (ha : owner k = some a) :
    InvertedIndex (Function.update owner k none)
      (Function.update index a ((index a).filter (· ≠ k))) :=
  h.remove ha ((h.nodup a).filter _) fun k' => by simp [and_comm]

/-- A key changes hands. -/
theorem move (h : InvertedIndex owner index) {k : K} {a : A} (ha : owner k = some a) (b : A) :
    InvertedIndex (Function.update owner k (some b))
      (Function.update (Function.update index a ((index a).erase k)) b
        (Function.update index a ((index a).erase k) b ++ [k])) := by
  have hmoved := (h.erase ha).insert (Function.update_self ..) b
  rw [Function.update_idem] at hmoved
  exact hmoved

end InvertedIndex
