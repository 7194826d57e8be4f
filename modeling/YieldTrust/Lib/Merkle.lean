import Mathlib.Data.List.Basic
import Mathlib.Logic.Function.Iterate
import Mathlib.Tactic.Common

/-!
# YieldTrust.Lib.Merkle

The levels of a **Merkle tree** that combines neighbours in pairs and an odd last
node with itself. Such trees do not determine the layer they were built over: a
layer and the one with its last node repeated can have the same root. `Covers`
is what equal levels do say about the layers below.
-/

namespace Merkle

variable {N : Type} {parent : N → N → N}

/-- The pairs that are combined. -/
def pairs : List N → List (N × N)
  | left :: right :: rest => (left, right) :: pairs rest
  | [left] => [(left, left)]
  | [] => []

/-- The level above. -/
def level (parent : N → N → N) (nodes : List N) : List N :=
  (pairs nodes).map fun p => parent p.1 p.2

theorem pairs_getElem? (nodes : List N) (j : Nat) :
    (pairs nodes)[j]? = nodes[2 * j]?.map fun left => (left, nodes[2 * j + 1]?.getD left) := by
  induction nodes using pairs.induct generalizing j with
  | case1 left right rest ih =>
      unfold pairs
      cases j with
      | zero => rfl
      | succ j =>
          rw [List.getElem?_cons_succ, ih]
          rfl
  | case2 left =>
      unfold pairs
      cases j with
      | zero => rfl
      | succ j => rfl
  | case3 => rfl

theorem length_pairs (nodes : List N) : (pairs nodes).length = (nodes.length + 1) / 2 := by
  induction nodes using pairs.induct with
  | case1 left right rest ih =>
      unfold pairs
      rw [List.length_cons, ih, List.length_cons, List.length_cons]
      omega
  | case2 left => simp [pairs]
  | case3 => simp [pairs]

theorem length_level (nodes : List N) : (level parent nodes).length = (nodes.length + 1) / 2 := by
  unfold level
  rw [List.length_map, length_pairs]

theorem level_getElem? (nodes : List N) (j : Nat) :
    (level parent nodes)[j]? = (pairs nodes)[j]?.map fun p => parent p.1 p.2 := List.getElem?_map ..

theorem level_of_pair {nodes : List N} {j : Nat} {p : N × N} (h : (pairs nodes)[j]? = some p) :
    (level parent nodes)[j]? = some (parent p.1 p.2) := by
  rw [level_getElem?, h, Option.map_some]

/-- Every node of `ys` is a node of `xs` that is not further to the right, and where
both have a node it is the same. -/
structure Covers (xs ys : List N) : Prop where
  earlier : ∀ {j : Nat} {y : N}, ys[j]? = some y → ∃ i ≤ j, xs[i]? = some y
  agree : ∀ {j : Nat} {x y : N}, xs[j]? = some x → ys[j]? = some y → x = y

theorem Covers.refl (xs : List N) : Covers xs xs where
  earlier {j} _ hy := ⟨j, Nat.le_refl j, hy⟩
  agree hx hy := Option.some.inj (hx.symm.trans hy)

/-- A node, in its pair on the level above. -/
theorem pair_of_node {nodes : List N} {j : Nat} {x : N} (h : nodes[j]? = some x) :
    ∃ left, nodes[2 * (j / 2)]? = some left ∧
      (pairs nodes)[j / 2]? = some (left, nodes[2 * (j / 2) + 1]?.getD left) := by
  have hlt : 2 * (j / 2) < nodes.length := by
    have hj := (List.getElem?_eq_some_iff.mp h).1
    omega
  have hleft : nodes[2 * (j / 2)]? = some nodes[2 * (j / 2)] := List.getElem?_eq_getElem hlt
  refine ⟨_, hleft, ?_⟩
  rw [pairs_getElem?, hleft, Option.map_some]

/-- A node of a pair is one of the two nodes below it. -/
theorem node_of_pair {nodes : List N} {j : Nat} {p : N × N} (h : (pairs nodes)[j]? = some p) :
    nodes[2 * j]? = some p.1 ∧ (nodes[2 * j + 1]? = some p.2 ∨
      nodes[2 * j + 1]? = none ∧ p.2 = p.1) := by
  rw [pairs_getElem?] at h
  obtain ⟨left, hleft, rfl⟩ := Option.map_eq_some_iff.mp h
  refine ⟨hleft, ?_⟩
  cases hright : nodes[2 * j + 1]? with
  | some right => exact .inl rfl
  | none => exact .inr ⟨rfl, rfl⟩

theorem mem_of_mem_pairs {nodes : List N} {p : N × N} (h : p ∈ pairs nodes) :
    p.1 ∈ nodes ∧ p.2 ∈ nodes := by
  obtain ⟨j, hj⟩ := List.mem_iff_getElem?.mp h
  obtain ⟨hfirst, hsecond⟩ := node_of_pair hj
  refine ⟨List.mem_of_getElem? hfirst, ?_⟩
  rcases hsecond with hsecond | ⟨-, hsecond⟩
  · exact List.mem_of_getElem? hsecond
  · rw [hsecond]
    exact List.mem_of_getElem? hfirst

/-- Where no two of the pairs are combined to the same node, a level covers another
only if the levels below do. -/
theorem Covers.of_level {xs ys : List N} (hinj : ∀ p ∈ pairs xs, ∀ q ∈ pairs ys,
      parent p.1 p.2 = parent q.1 q.2 → p = q)
    (h : Covers (level parent xs) (level parent ys)) : Covers xs ys := by
  have hpairs {i j : Nat} {p q : N × N} (hp : (pairs xs)[i]? = some p)
      (hq : (pairs ys)[j]? = some q) (heq : parent p.1 p.2 = parent q.1 q.2) : p = q :=
    hinj p (List.mem_of_getElem? hp) q (List.mem_of_getElem? hq) heq
  constructor
  · intro j y hy
    obtain ⟨left, hleft, hpair⟩ := pair_of_node hy
    obtain ⟨i, hi, hcovered⟩ := h.earlier (level_of_pair hpair)
    rw [level_getElem?] at hcovered
    obtain ⟨p, hp, heq⟩ := Option.map_eq_some_iff.mp hcovered
    obtain rfl := hpairs hp hpair heq
    obtain ⟨hfirst, hsecond⟩ := node_of_pair hp
    rcases Nat.mod_two_eq_zero_or_one j with hj | hj
    · -- `y` is the first node of its pair
      have hhalf : 2 * (j / 2) = j := by omega
      rw [hhalf, hy] at hleft
      obtain rfl := Option.some.inj hleft
      exact ⟨2 * i, by omega, hfirst⟩
    · have hhalf : 2 * (j / 2) + 1 = j := by omega
      rw [hhalf, hy, Option.getD_some] at hsecond
      rcases hsecond with hsecond | ⟨-, hsecond⟩
      · exact ⟨2 * i + 1, by omega, hsecond⟩
      · refine ⟨2 * i, by omega, hfirst.trans ?_⟩
        exact congrArg some hsecond.symm
  · intro j x y hx hy
    obtain ⟨leftx, hleftx, hpairx⟩ := pair_of_node hx
    obtain ⟨lefty, hlefty, hpairy⟩ := pair_of_node hy
    have heq := hpairs hpairx hpairy (h.agree (level_of_pair hpairx) (level_of_pair hpairy))
    obtain ⟨hfirst, hsecond⟩ := Prod.mk.inj heq
    rcases Nat.mod_two_eq_zero_or_one j with hj | hj
    · have hhalf : 2 * (j / 2) = j := by omega
      rw [hhalf] at hleftx hlefty
      rw [hx] at hleftx
      rw [hy] at hlefty
      exact (Option.some.inj hleftx).trans (hfirst.trans (Option.some.inj hlefty).symm)
    · have hhalf : 2 * (j / 2) + 1 = j := by omega
      rw [hhalf, hx, hy] at hsecond
      exact hsecond

/-- The level after the first one of `n` more. -/
theorem Covers.of_iterate {n : Nat} {xs ys : List N}
    (hinj : ∀ k < n, ∀ p ∈ pairs ((level parent)^[k] xs), ∀ q ∈ pairs ((level parent)^[k] ys),
      parent p.1 p.2 = parent q.1 q.2 → p = q)
    (h : (level parent)^[n] xs = (level parent)^[n] ys) : Covers xs ys := by
  induction n generalizing xs ys with
  | zero =>
      obtain rfl : xs = ys := h
      exact .refl xs
  | succ n ih =>
      refine .of_level (hinj 0 (Nat.succ_pos n)) (ih (fun k hk => ?_) h)
      exact hinj (k + 1) (Nat.succ_lt_succ hk)

end Merkle
