import Mathlib.Data.List.Basic

/-!
# YieldTrust.Lib.FixedWidth

Concatenations of **blocks of a fixed width** with a free rest behind them. Nothing tells where
the blocks end and the rest begins: two such concatenations are equal exactly if one of them has
more blocks, and these are what the rest of the other one begins with.
-/

namespace FixedWidth

variable {α β : Type} {block : α → List β} {width : Nat}

/-- The last blocks of `xs` are the first part of the rest `t` behind `ys`. -/
def Moved (block : α → List β) (xs : List α) (s : List β) (ys : List α) (t : List β) : Prop :=
  ∃ extra, extra ≠ [] ∧ xs = ys ++ extra ∧ t = extra.flatMap block ++ s

theorem moved_iff {xs ys : List α} {s t : List β} :
    Moved block xs s ys t ↔ xs.drop ys.length ≠ [] ∧ xs = ys ++ xs.drop ys.length ∧
      t = (xs.drop ys.length).flatMap block ++ s := by
  constructor
  · rintro ⟨extra, hextra, rfl, rfl⟩
    simpa using hextra
  · rintro ⟨hextra, hxs, ht⟩
    exact ⟨_, hextra, hxs, ht⟩

instance [DecidableEq α] [DecidableEq β] (block : α → List β) (xs ys : List α) (s t : List β) :
    Decidable (Moved block xs s ys t) :=
  decidable_of_iff _ moved_iff.symm

/-- Moving blocks into the rest does not change the concatenation. -/
theorem Moved.append_eq {xs ys : List α} {s t : List β} (h : Moved block xs s ys t) :
    xs.flatMap block ++ s = ys.flatMap block ++ t := by
  obtain ⟨extra, -, rfl, rfl⟩ := h
  rw [List.flatMap_append, List.append_assoc]

/-- It changes the blocks. -/
theorem Moved.ne {xs ys : List α} {s t : List β} (h : Moved block xs s ys t) : xs ≠ ys := by
  obtain ⟨extra, hextra, rfl, -⟩ := h
  intro heq
  exact hextra (by simpa using heq)

theorem Moved.cons {xs ys : List α} {s t : List β} (h : Moved block xs s ys t) (x : α) :
    Moved block (x :: xs) s (x :: ys) t := by
  obtain ⟨extra, hextra, rfl, rfl⟩ := h
  exact ⟨extra, hextra, rfl, rfl⟩

/-- What else two equal concatenations can have in common. -/
theorem append_eq_cases (hwidth : ∀ a, (block a).length = width)
    (hinj : Function.Injective block) {xs ys : List α} {s t : List β}
    (h : xs.flatMap block ++ s = ys.flatMap block ++ t) :
    (xs = ys ∧ s = t) ∨ Moved block xs s ys t ∨ Moved block ys t xs s := by
  induction xs generalizing ys with
  | nil =>
      cases ys with
      | nil => exact .inl ⟨rfl, h⟩
      | cons y ys => exact .inr (.inr ⟨y :: ys, List.cons_ne_nil y ys, rfl, h⟩)
  | cons x xs ih =>
      cases ys with
      | nil => exact .inr (.inl ⟨x :: xs, List.cons_ne_nil x xs, rfl, h.symm⟩)
      | cons y ys =>
          simp only [List.flatMap_cons, List.append_assoc] at h
          obtain ⟨hhead, htail⟩ := List.append_inj h (by rw [hwidth, hwidth])
          cases hinj hhead
          rcases ih htail with ⟨rfl, rfl⟩ | hmoved | hmoved
          · exact .inl ⟨rfl, rfl⟩
          · exact .inr (.inl (hmoved.cons x))
          · exact .inr (.inr (hmoved.cons x))

end FixedWidth
