import Mathlib.Algebra.BigOperators.Finprod

/-!
# YieldTrust.Lib.PartialMap

Sums over the values of a **partial map**, and the list of its keys that a
program keeps next to it to be able to walk over it.
-/

namespace PartialMap

variable {ι α M : Type} [AddCommMonoid M] {f : ι → Option α}

/-- Where the map is defined. -/
def keys (f : ι → Option α) : Set ι := {i | f i ≠ none}

/-- The sum of the weights of all values. -/
noncomputable def total (f : ι → Option α) (weight : α → M) : M := ∑ᶠ i, (f i).elim 0 weight

theorem support_subset (f : ι → Option α) (weight : α → M) :
    Function.support (fun i => (f i).elim 0 weight) ⊆ keys f := by
  intro i hi hnone
  refine hi ?_
  dsimp only
  rw [hnone]
  rfl

/-- What a map holds after a write. -/
theorem update_eq_some [DecidableEq ι] {i j : ι} {a b : α} :
    Function.update f i (some a) j = some b ↔ (j = i ∧ a = b) ∨ (j ≠ i ∧ f j = some b) := by
  by_cases h : j = i
  · subst h
    simp
  · simp [h]

/-- The key that changes may become defined; no other one does. -/
theorem keys_update_finite [DecidableEq ι] (h : (keys f).Finite) (i : ι) (x : Option α) :
    (keys (Function.update f i x)).Finite := by
  refine (h.insert i).subset fun j hj => ?_
  by_cases hij : j = i
  · exact .inl hij
  · refine .inr fun hnone => hj ?_
    rw [Function.update_of_ne hij, hnone]

theorem total_add (h : (keys f).Finite) (v w : α → M) :
    total f (fun a => v a + w a) = total f v + total f w := by
  have hsum := finsum_add_distrib (h.subset (support_subset f v)) (h.subset (support_subset f w))
  unfold total
  rw [← hsum]
  refine finsum_congr fun i => ?_
  cases f i with
  | none => exact (add_zero 0).symm
  | some a => rfl

/-- The sum over the values at the listed keys. -/
theorem sum_filterMap (f : ι → Option α) (weight : α → M) (ids : List ι) :
    ((ids.filterMap f).map weight).sum = (ids.map fun i => (f i).elim 0 weight).sum := by
  induction ids with
  | nil => rfl
  | cons i ids ih =>
      rw [List.map_cons, List.sum_cons, ← ih]
      cases hi : f i with
      | none =>
          rw [List.filterMap_cons_none hi]
          exact (zero_add _).symm
      | some a =>
          rw [List.filterMap_cons_some hi]
          rfl

/-- Walking over a list of all keys adds up the total. -/
theorem total_eq_sum [DecidableEq ι] {ids : List ι} (hnodup : ids.Nodup)
    (hmem : ∀ i, i ∈ ids ↔ f i ≠ none) (weight : α → M) :
    total f weight = ((ids.filterMap f).map weight).sum := by
  rw [sum_filterMap, ← List.sum_toFinset _ hnodup]
  refine finsum_eq_sum_of_support_subset _ fun i hi => ?_
  exact Finset.mem_coe.mpr (List.mem_toFinset.mpr ((hmem i).mpr (support_subset f weight hi)))

theorem total_of_keys_empty (h : keys f = ∅) (weight : α → M) : total f weight = 0 := by
  refine finsum_eq_zero_of_forall_eq_zero fun i => ?_
  have hnone : f i = none := by
    by_contra hi
    exact h.subset hi
  rw [hnone]
  rfl

/-- Taking a value out of the map and out of the total. -/
theorem total_eq_add_of_some [DecidableEq ι] (h : (keys f).Finite) {i : ι} {a : α}
    (hi : f i = some a) (weight : α → M) :
    total f weight = weight a + total (Function.update f i none) weight := by
  have hrest : Function.support (fun j => (Function.update f i none j).elim 0 weight) ⊆
      ↑(h.toFinset.erase i) := by
    intro j hj
    have hkey := support_subset _ weight hj
    have hne : j ≠ i := fun heq => hkey (by rw [heq, Function.update_self])
    refine Finset.mem_coe.mpr (Finset.mem_erase.mpr ⟨hne, h.mem_toFinset.mpr fun hnone => hkey ?_⟩)
    rw [Function.update_of_ne hne, hnone]
  have hall : Function.support (fun j => (f j).elim 0 weight) ⊆ ↑h.toFinset := fun j hj =>
    Finset.mem_coe.mpr (h.mem_toFinset.mpr (support_subset f weight hj))
  have hmem : i ∈ h.toFinset := h.mem_toFinset.mpr (by simp [keys, hi])
  unfold total
  rw [finsum_eq_sum_of_support_subset _ hall, finsum_eq_sum_of_support_subset _ hrest,
    ← Finset.add_sum_erase _ _ hmem, hi]
  refine congrArg (weight a + ·) (Finset.sum_congr rfl fun j hj => ?_)
  rw [Function.update_of_ne (Finset.ne_of_mem_erase hj)]

/-- Putting a value into the map and into the total. -/
theorem total_update_of_none [DecidableEq ι] (h : (keys f).Finite) {i : ι} (hi : f i = none)
    (a : α) (weight : α → M) :
    total (Function.update f i (some a)) weight = weight a + total f weight := by
  rw [total_eq_add_of_some (keys_update_finite h i (some a)) (Function.update_self ..),
    Function.update_idem, ← hi, Function.update_eq_self]

/-- What a write does to the total. -/
theorem total_update {G : Type} [AddCommGroup G] [DecidableEq ι] (h : (keys f).Finite) (i : ι)
    (x : Option α) (weight : α → G) :
    total (Function.update f i x) weight =
      total f weight - (f i).elim 0 weight + x.elim 0 weight := by
  have hsplit {g : ι → Option α} (hg : (keys g).Finite) :
      total g weight = (g i).elim 0 weight + total (Function.update g i none) weight := by
    cases hi : g i with
    | none => rw [← hi, Function.update_eq_self, hi, Option.elim_none, zero_add]
    | some a => exact total_eq_add_of_some hg hi weight
  rw [hsplit (keys_update_finite h i x), hsplit h, Function.update_self, Function.update_idem,
    add_sub_cancel_left, add_comm]

/-- A total that is the sum of two totals value by value. -/
theorem total_eq_add {g k : ι → Option α} {u v w : α → M} (hg : (keys g).Finite)
    (hk : (keys k).Finite)
    (heq : ∀ i, (f i).elim 0 u = (g i).elim 0 v + (k i).elim 0 w) :
    total f u = total g v + total k w := by
  unfold total
  rw [finsum_congr heq]
  exact finsum_add_distrib (hg.subset (support_subset g v)) (hk.subset (support_subset k w))

/-- The sum over the values at the listed keys, if the keys with a value are listed once. -/
theorem sum_map_eq_total [DecidableEq ι] {ids : List ι} (weight : α → M)
    (hcount : ∀ i ∈ ids, (f i).elim 0 weight ≠ 0 → ids.count i = 1)
    (hmem : ∀ i, f i ≠ none → i ∈ ids) :
    (ids.map fun i => (f i).elim 0 weight).sum = total f weight := by
  rw [Finset.sum_list_map_count]
  unfold total
  rw [finsum_eq_sum_of_support_subset (s := ids.toFinset)]
  · refine Finset.sum_congr rfl fun i hi => ?_
    by_cases hzero : (f i).elim 0 weight = 0
    · rw [hzero, smul_zero]
    · rw [hcount i (List.mem_toFinset.mp hi) hzero, one_smul]
  · intro i hi
    exact Finset.mem_coe.mpr (List.mem_toFinset.mpr (hmem i (support_subset f weight hi)))

theorem total_mono {f g : ι → Option α} {v w : α → Int} (hf : (keys f).Finite)
    (hg : (keys g).Finite) (hle : ∀ i, (f i).elim 0 v ≤ (g i).elim 0 w) :
    total f v ≤ total g w := by
  classical
  have hall := hf.union hg
  unfold total
  rw [finsum_eq_sum_of_support_subset (s := hall.toFinset),
    finsum_eq_sum_of_support_subset (s := hall.toFinset)]
  · exact Finset.sum_le_sum fun i _ => hle i
  · intro i hi
    exact Finset.mem_coe.mpr (hall.mem_toFinset.mpr (.inr (support_subset g w hi)))
  · intro i hi
    exact Finset.mem_coe.mpr (hall.mem_toFinset.mpr (.inl (support_subset f v hi)))

theorem total_nonneg {f : ι → Option α} {weight : α → Int}
    (h : ∀ i a, f i = some a → 0 ≤ weight a) : 0 ≤ total f weight := by
  refine finsum_nonneg fun i => ?_
  cases hi : f i with
  | none => exact le_refl 0
  | some a => exact h i a hi

end PartialMap
