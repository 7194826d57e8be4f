import Mathlib.Algebra.BigOperators.Group.Finset.Basic
import Mathlib.Algebra.Order.BigOperators.Group.Finset
import Mathlib.Algebra.Order.Ring.Int
import Mathlib.Data.Finset.Card

/-!
# YieldTrust.Lib.Distinct

A list of keys against the **set of its distinct keys**: what is counted or added up over the
list is counted or added up over the set exactly if no key is listed twice.
-/

namespace Distinct

variable {ι : Type} [DecidableEq ι] {keys : List ι}

theorem countP_eq_card (h : keys.Nodup) (p : ι → Bool) :
    keys.countP p = (keys.toFinset.filter fun i => p i = true).card := by
  rw [List.countP_eq_length_filter, ← List.toFinset_filter,
    List.toFinset_card_of_nodup (h.filter p)]

/-- Weights add up to the same if no key is listed twice. -/
theorem sum_eq_of_nodup (h : keys.Nodup) (weight : ι → Int) :
    (keys.map weight).sum = ∑ i ∈ keys.toFinset, weight i := (List.sum_toFinset weight h).symm

theorem sum_toFinset_le {weight : ι → Int} (h : ∀ i ∈ keys, 0 ≤ weight i) :
    ∑ i ∈ keys.toFinset, weight i ≤ (keys.map weight).sum := by
  induction keys with
  | nil => exact le_rfl
  | cons i keys ih =>
      have htail := ih fun j hj => h j (List.mem_cons_of_mem i hj)
      rw [List.toFinset_cons, List.map_cons, List.sum_cons]
      by_cases hmem : i ∈ keys
      · rw [Finset.insert_eq_of_mem (List.mem_toFinset.mpr hmem)]
        have hhead := h i List.mem_cons_self
        omega
      · rw [Finset.sum_insert (mt List.mem_toFinset.mp hmem)]
        omega

/-- Positive weights add up to more if a key is listed twice. -/
theorem nodup_of_sum_eq {weight : ι → Int} (h : ∀ i ∈ keys, 0 < weight i)
    (hsum : (keys.map weight).sum = ∑ i ∈ keys.toFinset, weight i) : keys.Nodup := by
  induction keys with
  | nil => exact List.nodup_nil
  | cons i keys ih =>
      have hhead := h i List.mem_cons_self
      have htail (j : ι) (hj : j ∈ keys) : 0 < weight j := h j (List.mem_cons_of_mem i hj)
      rw [List.toFinset_cons, List.map_cons, List.sum_cons] at hsum
      by_cases hmem : i ∈ keys
      · rw [Finset.insert_eq_of_mem (List.mem_toFinset.mpr hmem)] at hsum
        have hle := sum_toFinset_le fun j hj => (htail j hj).le
        omega
      · rw [Finset.sum_insert (mt List.mem_toFinset.mp hmem)] at hsum
        exact List.nodup_cons.mpr ⟨hmem, ih htail (by omega)⟩

/-- A set whose positive weights add up to the weight of one key has no other key. -/
theorem eq_singleton_of_sum_eq {weight : ι → Int} {keys : Finset ι} {i : ι} (hi : i ∈ keys)
    (h : ∀ j ∈ keys, 0 < weight j) (hsum : ∑ j ∈ keys, weight j = weight i) : keys = {i} := by
  refine Finset.eq_singleton_iff_unique_mem.mpr ⟨hi, fun j hj => ?_⟩
  by_contra hne
  have hpair : weight i + weight j ≤ ∑ j ∈ keys, weight j := by
    rw [← Finset.sum_pair (Ne.symm hne)]
    refine Finset.sum_le_sum_of_subset_of_nonneg ?_ fun k hk _ => (h k hk).le
    exact Finset.insert_subset hi (Finset.singleton_subset_iff.mpr hj)
  have hpos := h j hj
  omega

end Distinct
