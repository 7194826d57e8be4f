import Mathlib.Data.List.Induction
import YieldTrust.GrantStream.Encoding
import YieldTrust.GrantStream.Records
import YieldTrust.Lib.Merkle

/-!
# YieldTrust.GrantStream.AuditBinding

The root of the audit log determines the leaves. A tree that repeats an odd last
node is not binding for arbitrary layers; it is for the layers that
`update_audit_leaf` builds, whose last leaf is a hash that belongs to its index
and whose leaves and inner nodes hash inputs of different lengths.

The hash is arbitrary. What is assumed of it concerns only the inputs that are
hashed for the two trees.
-/

namespace YieldTrust.GrantStream

open AuditLog Fallible

/-! ### What is hashed -/

/-- The input of a leaf. -/
def leafInput (call : Nat × Int) : Bytes := toBeBytes 8 call.1 ++ i128ToBeBytes call.2

/-- The inputs of the nodes above `nodes`. -/
def pairInputs (nodes : List Bytes) : List Bytes := (Merkle.pairs nodes).map fun p => p.1 ++ p.2

/-- The inputs that `climb` hashes. -/
def climbInputs (env : Env) : Nat → List Bytes → List Bytes
  | _, [] => []
  | _, [_] => []
  | 0, _ => []
  | fuel + 1, current => pairInputs current ++ climbInputs env fuel (nextLayer env current)

/-- The inputs that `compute_root` hashes. -/
def rootInputs (env : Env) (leaves : List Bytes) : List Bytes :=
  climbInputs env leaves.length leaves

/-- The hash gives 32 bytes, never 32 zeros, and different ones for different `inputs`. -/
structure HashesApart (sha256 : Bytes → Bytes) (inputs : List Bytes) : Prop where
  injective : ∀ x ∈ inputs, ∀ y ∈ inputs, sha256 x = sha256 y → x = y
  length : ∀ x ∈ inputs, (sha256 x).length = 32
  nonzero : ∀ x ∈ inputs, sha256 x ≠ zeroHash

/-- The layer after the calls of `update_audit_leaf`, oldest first. -/
def auditLayer (env : Env) (calls : List (Nat × Int)) : List Bytes :=
  (calls.foldl (fun env call => env.setAudit (updateAuditLeaf env call.1 call.2))
    (env.setAudit {})).audit.merkleLeaves

theorem length_leafInput (call : Nat × Int) : (leafInput call).length = 24 := by
  unfold leafInput
  rw [List.length_append, length_toBeBytes, length_i128ToBeBytes]

/-- The input of a leaf tells where the leaf belongs. -/
theorem leafInput_index {call call' : Nat × Int} (h : leafInput call = leafInput call') :
    call.1 % 256 = call'.1 % 256 := by
  have hid : toBeBytes 8 call.1 = toBeBytes 8 call'.1 :=
    List.append_inj_left h (by rw [length_toBeBytes, length_toBeBytes])
  have hmod := mod_eq_of_toBeBytes_eq hid
  omega

/-! ### Layers that calls build -/

/-- `x` is the leaf that one of the calls put at the index `j`. -/
def IsLeaf (env : Env) (calls : List (Nat × Int)) (j : Nat) (x : Bytes) : Prop :=
  ∃ call ∈ calls, call.1 % 256 = j ∧ x = leafHash env call.1 call.2

/-- Every node of the layer is a leaf of one of the calls, at its index, or is the zero
hash before the last node. -/
def IsLayer (env : Env) (calls : List (Nat × Int)) (layer : List Bytes) : Prop :=
  ∀ j x, layer[j]? = some x → IsLeaf env calls j x ∨ x = zeroHash ∧ j + 1 < layer.length

theorem IsLayer.update {env env' : Env} {calls : List (Nat × Int)} {grantId : Nat} {balance : Int}
    (hhost : env'.host = env.host) (h : IsLayer env calls env'.audit.merkleLeaves) :
    IsLayer env (calls ++ [(grantId, balance)])
      (updateAuditLeaf env' grantId balance).merkleLeaves := by
  have hidx : grantId % 2 ^ 32 % 256 = grantId % 256 := by omega
  have hleaf : leafHash env' grantId balance = leafHash env grantId balance := by
    unfold leafHash
    rw [hhost]
  intro j x hx
  unfold updateAuditLeaf at hx ⊢
  dsimp only at hx ⊢
  rw [hidx, hleaf] at hx
  rw [hidx, List.length_set, List.length_append, List.length_replicate]
  by_cases hj : grantId % 256 = j
  · rw [List.getElem?_set, if_pos hj] at hx
    split at hx
    · exact .inl ⟨(grantId, balance), by simp, hj, (Option.some.inj hx).symm⟩
    · cases hx
  · rw [List.getElem?_set_ne hj] at hx
    by_cases hlt : j < env'.audit.merkleLeaves.length
    · rw [List.getElem?_append_left hlt] at hx
      rcases h j x hx with ⟨call, hcall, hindex, rfl⟩ | ⟨hzero, hinner⟩
      · exact .inl ⟨call, List.mem_append_left _ hcall, hindex, rfl⟩
      · exact .inr ⟨hzero, by omega⟩
    · rw [List.getElem?_append_right (by omega)] at hx
      obtain ⟨hfill, hzero⟩ := List.getElem?_eq_some_iff.mp hx
      rw [List.getElem_replicate] at hzero
      rw [List.length_replicate] at hfill
      exact .inr ⟨hzero.symm, by omega⟩

/-- The environment after these calls. -/
def auditRun (env : Env) (calls : List (Nat × Int)) : Env :=
  calls.foldl (fun env call => env.setAudit (updateAuditLeaf env call.1 call.2)) (env.setAudit {})

theorem auditRun_append (env : Env) (calls : List (Nat × Int)) (call : Nat × Int) :
    auditRun env (calls ++ [call]) = (auditRun env calls).setAudit
      (updateAuditLeaf (auditRun env calls) call.1 call.2) := by
  unfold auditRun
  rw [List.foldl_append]
  rfl

theorem auditRun_host (env : Env) (calls : List (Nat × Int)) :
    (auditRun env calls).host = env.host := by
  induction calls using List.reverseRecOn with
  | nil => rfl
  | append_singleton calls call ih =>
      rw [auditRun_append]
      exact ih

/-- **Reachable layers.** -/
theorem isLayer_auditLayer (env : Env) (calls : List (Nat × Int)) :
    IsLayer env calls (auditLayer env calls) := by
  induction calls using List.reverseRecOn with
  | nil =>
      intro j x hx
      cases hx
  | append_singleton calls call ih =>
      show IsLayer env _ (auditRun env (calls ++ [call])).audit.merkleLeaves
      rw [auditRun_append]
      exact ih.update (auditRun_host env calls)

/-! ### The layer of a run -/

/-- What the step hands to `update_audit_leaf`: the counter of the grant that it
withdraws from. -/
def auditedWithdrawal (e : Run.Step Env Event) : Option (Nat × Int) :=
  match called e with
  | some (.withdraw grantId amount) =>
    (e.before.grants grantId).map fun grant => (grantId, grant.withdrawn + amount)
  | _ => none

/-- The calls of `update_audit_leaf` in a run, oldest first. -/
def auditedWithdrawals (trace : Trace) : List (Nat × Int) :=
  (trace.filterMap auditedWithdrawal).reverse

theorem audit_of_next {e : Run.Step Env Event} (hn : Next e.before e.action e.after) :
    e.after.audit = (auditedWithdrawal e).elim e.before.audit fun call =>
      updateAuditLeaf e.before call.1 call.2 := by
  unfold auditedWithdrawal
  cases hcalled : called e with
  | none =>
      obtain ⟨tokens, nullifiers, hafter, -⟩ := after_of_uncalled hn hcalled
      rw [hafter]
      rfl
  | some call =>
      have hexec := exec_of_called hn hcalled
      by_cases hreports : Region.reports ∈ call.writes
      · cases call <;> simp [Call.writes] at hreports
        case withdraw grantId amount =>
          obtain ⟨grant, s, hgrant, -, -, -, hrecorded⟩ := withdraw_records hexec
          have hgrant : e.before.grants grantId = some grant := hgrant
          dsimp only
          rw [hgrant]
          refine hrecorded.audit.trans ?_
          refine updateAuditLeaf_congr ?_ ?_ grantId _
          · rfl
          · rfl
        case heartbeatEmit totalTvl =>
          obtain ⟨_, hemitted, hafter⟩ := map_eq_ok.mp hexec
          obtain ⟨emitted, -, hemitted⟩ := bind_eq_ok.mp hemitted
          obtain rfl := pure_eq_ok.mp hemitted
          rw [← hafter]
          rfl
      · have hsame : e.after.audit = e.before.audit :=
          ((frame_of_exec hexec).same .reports hreports).2.1
        rw [hsame]
        cases call
        case withdraw => exact absurd (by simp [Call.writes]) hreports
        all_goals rfl

/-- **The audit log of a run** is what the audited withdrawals leave. -/
theorem merkleLeaves_of_reachable {trace : Trace} {env : Env} (h : Reachable trace env) :
    env.audit.merkleLeaves = auditLayer env (auditedWithdrawals trace) := by
  suffices hrun : ∀ host : Env, host.host = env.host →
      (auditRun host (auditedWithdrawals trace)).audit = env.audit by
    exact (congrArg AuditState.merkleLeaves (hrun env rfl)).symm
  induction h with
  | start h =>
      obtain ⟨_, _, _, rfl⟩ := h
      intro host _
      rfl
  | @step trace env event env' hrun hn ih =>
      intro host hhost
      have hsame : env'.host = env.host := host_of_next (e := ⟨env, event, env'⟩) hn
      have haudit := audit_of_next (e := ⟨env, event, env'⟩) hn
      have ih := ih host (hhost.trans hsame)
      unfold auditedWithdrawals at ih ⊢
      cases hentry : auditedWithdrawal ⟨env, event, env'⟩ with
      | none =>
          rw [List.filterMap_cons_none hentry, ih]
          rw [hentry] at haudit
          exact haudit.symm
      | some call =>
          rw [List.filterMap_cons_some hentry, List.reverse_cons, auditRun_append]
          rw [hentry] at haudit
          refine Eq.trans ?_ haudit.symm
          refine updateAuditLeaf_congr ih ?_ call.1 call.2
          exact (auditRun_host host _).trans (hhost.trans hsame)

/-! ### Trees over these layers -/

theorem nextLayer_eq (env : Env) (nodes : List Bytes) :
    nextLayer env nodes = Merkle.level (parentHash env) nodes := by
  induction nodes using Merkle.pairs.induct with
  | case1 left right rest ih =>
      unfold nextLayer
      rw [ih]
      rfl
  | case2 left => rfl
  | case3 => rfl

/-- Climbing ends with the only node of one of the levels. -/
theorem climb_level (env : Env) {fuel : Nat} {current : List Bytes} (hne : current ≠ [])
    (hfuel : current.length ≤ fuel + 1) :
    ∃ n, (Merkle.level (parentHash env))^[n] current = [climb env fuel current] ∧
      ∀ k < n, ∀ p ∈ Merkle.pairs ((Merkle.level (parentHash env))^[k] current),
        p.1 ++ p.2 ∈ climbInputs env fuel current := by
  induction fuel generalizing current with
  | zero =>
      match current with
      | [root] => exact ⟨0, rfl, fun k hk => absurd hk (Nat.not_lt_zero k)⟩
      | _ :: _ :: _ => simp at hfuel
  | succ fuel ih =>
      match current with
      | [root] => exact ⟨0, rfl, fun k hk => absurd hk (Nat.not_lt_zero k)⟩
      | left :: right :: rest =>
          have hnext := nextLayer_eq env (left :: right :: rest)
          have hlength : (nextLayer env (left :: right :: rest)).length ≤ fuel + 1 := by
            rw [hnext, Merkle.length_level]
            omega
          obtain ⟨n, htop, hhashed⟩ := ih (by simp [nextLayer]) hlength
          rw [hnext] at htop hhashed
          refine ⟨n + 1, htop.trans ?_, fun k hk p hp => ?_⟩
          · rw [← hnext]
            rfl
          · cases k with
            | zero => exact List.mem_append_left _ (List.mem_map.mpr ⟨p, hp, rfl⟩)
            | succ k =>
                have hmem := hhashed k (Nat.lt_of_succ_lt_succ hk) p hp
                rw [← hnext] at hmem
                exact List.mem_append_right _ hmem

/-- A tree over the layer that `calls` built, with the root `root` after `height` levels,
all of whose inputs are among `inputs`. -/
structure AuditTree (env : Env) (inputs : List Bytes) (calls : List (Nat × Int))
    (layer : List Bytes) (height : Nat) (root : Bytes) : Prop where
  isLayer : IsLayer env calls layer
  leaves : ∀ call ∈ calls, leafInput call ∈ inputs
  top : (Merkle.level (parentHash env))^[height] layer = [root]
  hashed : ∀ k < height, ∀ p ∈ Merkle.pairs ((Merkle.level (parentHash env))^[k] layer),
    p.1 ++ p.2 ∈ inputs

section Trees

variable {env : Env} {inputs : List Bytes} {calls calls' : List (Nat × Int)}
  {layer layer' : List Bytes} {height height' k k' : Nat} {root x : Bytes}

theorem AuditTree.leaf_input (t : AuditTree env inputs calls layer height root) {j : Nat}
    (h : layer[j]? = some x) :
    (∃ call, call.1 % 256 = j ∧ leafInput call ∈ inputs ∧ x = env.host.sha256 (leafInput call)) ∨
      x = zeroHash ∧ j + 1 < layer.length := by
  rcases t.isLayer j x h with ⟨call, hcall, hindex, rfl⟩ | hzero
  · exact .inl ⟨call, hindex, t.leaves call hcall, rfl⟩
  · exact .inr hzero

theorem AuditTree.parent_input (t : AuditTree env inputs calls layer height root)
    (hk : k < height) (h : x ∈ (Merkle.level (parentHash env))^[k + 1] layer) :
    ∃ p ∈ Merkle.pairs ((Merkle.level (parentHash env))^[k] layer),
      p.1 ++ p.2 ∈ inputs ∧ x = env.host.sha256 (p.1 ++ p.2) := by
  rw [Function.iterate_succ_apply'] at h
  obtain ⟨p, hp, rfl⟩ := List.mem_map.mp h
  exact ⟨p, hp, t.hashed k hk p hp, rfl⟩

theorem AuditTree.length_node (t : AuditTree env inputs calls layer height root)
    (ha : HashesApart env.host.sha256 inputs) (hk : k ≤ height)
    (h : x ∈ (Merkle.level (parentHash env))^[k] layer) : x.length = 32 := by
  cases k with
  | zero =>
      obtain ⟨j, hj⟩ := List.mem_iff_getElem?.mp h
      rcases t.leaf_input hj with ⟨call, -, hinput, rfl⟩ | ⟨rfl, -⟩
      · exact ha.length _ hinput
      · rfl
  | succ k =>
      obtain ⟨p, -, hinput, rfl⟩ := t.parent_input hk h
      exact ha.length _ hinput

/-- The two halves of what an inner node hashes are its two nodes. -/
theorem AuditTree.pair_eq (t : AuditTree env inputs calls layer height root)
    (t' : AuditTree env inputs calls' layer' height' root)
    (ha : HashesApart env.host.sha256 inputs) (hk : k < height) (hk' : k' < height')
    {p q : Bytes × Bytes} (hp : p ∈ Merkle.pairs ((Merkle.level (parentHash env))^[k] layer))
    (hq : q ∈ Merkle.pairs ((Merkle.level (parentHash env))^[k'] layer'))
    (h : parentHash env p.1 p.2 = parentHash env q.1 q.2) : p = q := by
  have hinput : p.1 ++ p.2 = q.1 ++ q.2 :=
    ha.injective _ (t.hashed k hk p hp) _ (t'.hashed k' hk' q hq) h
  have hleft : p.1.length = 32 := t.length_node ha hk.le (Merkle.mem_of_mem_pairs hp).1
  have hleft' : q.1.length = 32 := t'.length_node ha hk'.le (Merkle.mem_of_mem_pairs hq).1
  obtain ⟨hfirst, hsecond⟩ := List.append_inj hinput (hleft.trans hleft'.symm)
  exact Prod.ext hfirst hsecond

/-- A leaf hashes 24 bytes and an inner node 64. -/
theorem AuditTree.leaf_ne_parent (t : AuditTree env inputs calls layer height root)
    (t' : AuditTree env inputs calls' layer' height' root)
    (ha : HashesApart env.host.sha256 inputs) (hk : k < height') (h : x ∈ layer) :
    x ∉ (Merkle.level (parentHash env))^[k + 1] layer' := by
  intro hparent
  obtain ⟨p, hp, hinput, rfl⟩ := t'.parent_input hk hparent
  obtain ⟨j, hj⟩ := List.mem_iff_getElem?.mp h
  rcases t.leaf_input hj with ⟨call, -, hleaf, heq⟩ | ⟨hzero, -⟩
  · have hlength := congrArg List.length (ha.injective _ hinput _ hleaf heq)
    have hnodes := Merkle.mem_of_mem_pairs hp
    rw [List.length_append, length_leafInput, t'.length_node ha hk.le hnodes.1,
      t'.length_node ha hk.le hnodes.2] at hlength
    exact absurd hlength (by decide)
  · exact ha.nonzero _ hinput hzero

theorem level_iterate_nil (n : Nat) : (Merkle.level (parentHash env))^[n] [] = [] := by
  induction n with
  | zero => rfl
  | succ n ih => exact ih

/-- Levels at the same distance from equal roots. -/
theorem AuditTree.covers (t : AuditTree env inputs calls layer height root)
    (t' : AuditTree env inputs calls' layer' (height + k) root)
    (ha : HashesApart env.host.sha256 inputs) :
    Merkle.Covers layer ((Merkle.level (parentHash env))^[k] layer') := by
  have htop : (Merkle.level (parentHash env))^[height] layer =
      (Merkle.level (parentHash env))^[height] ((Merkle.level (parentHash env))^[k] layer') := by
    rw [t.top, ← Function.iterate_add_apply, t'.top]
  refine .of_iterate (fun m hm p hp q hq h => ?_) htop
  rw [← Function.iterate_add_apply] at hq
  exact t.pair_eq t' ha hm (Nat.add_lt_add_right hm k) hp hq h

theorem AuditTree.height_le (t : AuditTree env inputs calls layer height root)
    (t' : AuditTree env inputs calls' layer' height' root)
    (ha : HashesApart env.host.sha256 inputs) : height' ≤ height := by
  by_contra hlt
  obtain ⟨k, rfl⟩ : ∃ k, height' = height + (k + 1) := ⟨height' - height - 1, by omega⟩
  have hcovers := t.covers t' ha
  cases hlevel : (Merkle.level (parentHash env))^[k + 1] layer' with
  | nil =>
      have htop := t'.top
      rw [Function.iterate_add_apply, hlevel, level_iterate_nil] at htop
      cases htop
  | cons first rest =>
      rw [hlevel] at hcovers
      -- the first node of the higher tree's level would be the first leaf of the other
      obtain ⟨i, -, hi⟩ := hcovers.earlier (j := 0) (y := first) rfl
      refine t.leaf_ne_parent t' ha (k := k) (by omega) (List.mem_of_getElem? hi) ?_
      rw [hlevel]
      exact List.mem_cons_self

theorem AuditTree.length_le (t : AuditTree env inputs calls layer height root)
    (t' : AuditTree env inputs calls' layer' height' root)
    (ha : HashesApart env.host.sha256 inputs) (hcovers : Merkle.Covers layer layer') :
    layer'.length ≤ layer.length := by
  by_cases hempty : layer'.length = 0
  · omega
  · have hlast : layer'[layer'.length - 1]? = some layer'[layer'.length - 1] :=
      List.getElem?_eq_getElem (by omega)
    obtain ⟨i, -, hi⟩ := hcovers.earlier hlast
    have hbound := (List.getElem?_eq_some_iff.mp hi).1
    rcases t'.leaf_input hlast with ⟨call', hindex', hinput', heq'⟩ | ⟨-, hinner⟩
    · rw [heq'] at hi
      rcases t.leaf_input hi with ⟨call, hindex, hinput, heq⟩ | ⟨hzero, -⟩
      · -- the same leaf belongs to one index only
        have hsame := leafInput_index (ha.injective _ hinput' _ hinput heq)
        omega
      · exact absurd hzero (ha.nonzero _ hinput')
    · omega

theorem AuditTree.layer_eq (t : AuditTree env inputs calls layer height root)
    (t' : AuditTree env inputs calls' layer' height' root)
    (ha : HashesApart env.host.sha256 inputs) : layer = layer' := by
  obtain rfl : height = height' := Nat.le_antisymm (t'.height_le t ha) (t.height_le t' ha)
  have hcovers : Merkle.Covers layer layer' := t.covers (k := 0) t' ha
  have hcovers' : Merkle.Covers layer' layer := t'.covers (k := 0) t ha
  have hlength : layer.length = layer'.length :=
    Nat.le_antisymm (t'.length_le t ha hcovers') (t.length_le t' ha hcovers)
  refine List.ext_getElem hlength fun j hj hj' => ?_
  exact hcovers.agree (List.getElem?_eq_getElem hj) (List.getElem?_eq_getElem hj')

end Trees

/-! ### The root determines the layer -/

/-- Everything that is hashed for the layer of `calls` and its root. -/
def auditInputs (env : Env) (calls : List (Nat × Int)) : List Bytes :=
  calls.map leafInput ++ rootInputs env (auditLayer env calls)

theorem auditTree_of_ne_nil {env : Env} {calls : List (Nat × Int)} {inputs : List Bytes}
    (hsub : auditInputs env calls ⊆ inputs) (hne : auditLayer env calls ≠ []) :
    ∃ height, AuditTree env inputs calls (auditLayer env calls) height
      (computeRoot env (auditLayer env calls)) := by
  obtain ⟨n, htop, hhashed⟩ := climb_level env hne (Nat.le_succ (auditLayer env calls).length)
  refine ⟨n, isLayer_auditLayer env calls, fun call hcall => hsub ?_, htop,
    fun k hk p hp => hsub ?_⟩
  · exact List.mem_append_left _ (List.mem_map.mpr ⟨call, hcall, rfl⟩)
  · exact List.mem_append_right _ (hhashed k hk p hp)

/-- The root of a layer with a leaf is not that of the empty layer. -/
theorem AuditTree.root_ne_zeroHash {env : Env} {inputs : List Bytes} {calls : List (Nat × Int)}
    {layer : List Bytes} {height : Nat} {root : Bytes}
    (t : AuditTree env inputs calls layer height root)
    (ha : HashesApart env.host.sha256 inputs) : root ≠ zeroHash := by
  have htop := t.top
  cases height with
  | zero =>
      obtain rfl : layer = [root] := htop
      rcases t.leaf_input (j := 0) rfl with ⟨call, -, hinput, rfl⟩ | ⟨-, hinner⟩
      · exact ha.nonzero _ hinput
      · exact absurd hinner (by simp)
  | succ k =>
      have hroot : root ∈ (Merkle.level (parentHash env))^[k + 1] layer := by
        rw [htop]
        exact List.mem_cons_self
      obtain ⟨p, -, hinput, rfl⟩ := t.parent_input (Nat.lt_succ_self k) hroot
      exact ha.nonzero _ hinput

/-- **Audit root binding.** Two layers that calls of `update_audit_leaf` build and that have
the same root are the same, whatever their lengths. -/
theorem audit_root_binding (env : Env) (calls calls' : List (Nat × Int))
    (ha : HashesApart env.host.sha256 (auditInputs env calls ++ auditInputs env calls'))
    (hroot : computeRoot env (auditLayer env calls) = computeRoot env (auditLayer env calls')) :
    auditLayer env calls = auditLayer env calls' := by
  by_cases hne : auditLayer env calls = []
  · by_cases hne' : auditLayer env calls' = []
    · rw [hne, hne']
    · obtain ⟨height', t'⟩ := auditTree_of_ne_nil (List.subset_append_right _ _) hne'
      rw [hne] at hroot
      exact absurd hroot.symm (t'.root_ne_zeroHash ha)
  · obtain ⟨height, t⟩ := auditTree_of_ne_nil (List.subset_append_left _ _) hne
    by_cases hne' : auditLayer env calls' = []
    · rw [hne'] at hroot
      exact absurd hroot (t.root_ne_zeroHash ha)
    · obtain ⟨height', t'⟩ := auditTree_of_ne_nil (List.subset_append_right _ _) hne'
      rw [← hroot] at t'
      exact t.layer_eq t' ha

namespace Demo

/-- The digests of two leaves of grant 1 and of the node above a zero leaf and the second. -/
def digests : List (Bytes × Bytes) :=
  let leaf := toBeBytes 32 0x30d6bab3496c8f359780c3b337fc615b8e2ce05d8bc75e0e3d1c55c85e6ac91e
  [(leafInput (1, 3),
      toBeBytes 32 0xd8558c79f3038807cea43fa099d1518534f12c1e5aa3681bd2a87a30af1a1687),
    (leafInput (1, 7), leaf),
    (zeroHash ++ leaf,
      toBeBytes 32 0xcbbe625ce25bc090220185d56153d228f28b08c99f7d7ee9d4d703d07057ce11)]

/-- The environment in which these are hashed. -/
def hashing : Env :=
  { env with host := { env.host with sha256 := fun x => (digests.lookup x).getD zeroHash } }

end Demo

/-- A leaf that is written once and one that is written over. -/
theorem audit_root_binding_of_overwritten_leaf :
    auditLayer Demo.hashing [(1, 7)] = auditLayer Demo.hashing [(1, 3), (1, 7)] :=
  audit_root_binding Demo.hashing [(1, 7)] [(1, 3), (1, 7)]
    ⟨by decide, by decide, by decide⟩ (by decide)

end YieldTrust.GrantStream
