import YieldTrust.GrantStream.AuditBinding
import YieldTrust.GrantStream.ClaimLog

/-!
# YieldTrust.GrantStream.AuditCoverage

The leaf layer of the audit log against the `withdrawn` counters of the grants. `withdraw`
writes the leaf of its grant at the id modulo 256, over whatever was there; `rage_quit`
adds to the counter and writes nothing.
-/

namespace YieldTrust.GrantStream

open AuditLog Fallible

/-! ### Grants that were withdrawn from -/

def GrantOp.isWithdrawal : GrantOp → Bool
  | .withdraw _ => true
  | _ => false

/-- A withdrawal from the grant went through since it was created. -/
def withdrawnFrom (grantId : Nat) (trace : Trace) : Bool :=
  (life grantId trace).any fun e => (performed grantId e).any GrantOp.isWithdrawal

theorem withdrawnFrom_of_opens {grantId : Nat} {e : Run.Step Env Event}
    (h : opens grantId e = true) (trace : Trace) : withdrawnFrom grantId (e :: trace) = false := by
  unfold withdrawnFrom
  rw [life_of_opens h]
  rfl

theorem withdrawnFrom_of_some {grantId : Nat} {e : Run.Step Env Event} {g : Grant}
    (hg : e.before.grants grantId = some g) (trace : Trace) :
    withdrawnFrom grantId (e :: trace) =
      ((performed grantId e).any GrantOp.isWithdrawal || withdrawnFrom grantId trace) := by
  unfold withdrawnFrom
  rw [life_of_not_opens (opens_eq_false_of_some hg)]
  rfl

/-- The layer has the leaf of every grant that was withdrawn from. -/
def LayerCovers (trace : Trace) (env : Env) : Prop :=
  ∀ grantId grant, env.grants grantId = some grant → withdrawnFrom grantId trace = true →
    leafHash env grantId grant.withdrawn ∈ env.audit.merkleLeaves

/-- A withdrawal does not take the place of another grant's leaf, and a grantee who quits a
grant that was withdrawn from has nothing to claim. -/
def KeepsLeaves (e : Run.Step Env Event) (older : Trace) : Prop :=
  match called e with
  | some (.withdraw grantId _) => ∀ id ∈ e.before.grantIds, id ≠ grantId →
      id % 256 = grantId % 256 → withdrawnFrom id older = false
  | some (.rageQuit grantId) => withdrawnFrom grantId older = true →
      (e.before.grants grantId).all fun grant =>
        (grant.settled e.action.timestamp).claimable = 0
  | _ => True

instance (e : Run.Step Env Event) (older : Trace) : Decidable (KeepsLeaves e older) := by
  unfold KeepsLeaves
  split <;> infer_instance

/-- The input of the leaf that belongs to the counter after a call that adds to it. -/
def counterInput (e : Run.Step Env Event) : Option Bytes :=
  match called e with
  | some (.withdraw grantId _) | some (.rageQuit grantId) =>
    (e.after.grants grantId).map fun grant => leafInput (grantId, grant.withdrawn)
  | _ => none

/-! ### What a step does to the counters -/

theorem counter_of_called {e : Run.Step Env Event} (hn : Next e.before e.action e.after)
    {call : Call} {grantId : Nat} {op : GrantOp} (hcalled : called e = some call)
    (hop : call.grantOp? = some (grantId, op)) :
    ∃ g g', e.before.grants grantId = some g ∧
      e.after.grants = Function.update e.before.grants grantId (some g') ∧
      g'.withdrawn = g.withdrawn + op.withdraws e.action.timestamp g := by
  obtain ⟨g, a', payments, hg, hstep, -, hv⟩ :=
    operates_of_exec (exec_of_called hn hcalled) hop
  exact ⟨g, a'.grant, hg, congrArg Vault.grants hv, hstep.withdrawn⟩

theorem performed_of_called {e : Run.Step Env Event} {call : Call} {id : Nat} {op : GrantOp}
    (hcalled : called e = some call) (hop : call.grantOp? = some (id, op)) (grantId : Nat) :
    performed grantId e = if id = grantId then some op else none := by
  rw [performed_eq, hcalled, Option.bind_some, hop]
  rfl

theorem auditedWithdrawal_of_called {e : Run.Step Env Event}
    (hn : Next e.before e.action e.after) {grantId : Nat} {amount : Int}
    (hcalled : called e = some (.withdraw grantId amount)) :
    ∃ g g', e.before.grants grantId = some g ∧
      e.after.grants = Function.update e.before.grants grantId (some g') ∧
      auditedWithdrawal e = some (grantId, g'.withdrawn) := by
  obtain ⟨g, g', hg, hgrants, hwithdrawn⟩ := counter_of_called hn hcalled rfl
  refine ⟨g, g', hg, hgrants, ?_⟩
  unfold auditedWithdrawal
  rw [hcalled]
  dsimp only
  rw [hg, hwithdrawn]
  rfl

/-- A call that adds to no counter of a grantee. -/
def Call.keepsCounters (call : Call) : Prop :=
  (∀ grantId amount, call ≠ .withdraw grantId amount) ∧ ∀ grantId, call ≠ .rageQuit grantId

/-- A step that adds to no counter keeps those of the grants that existed, and the log. -/
theorem counter_of_kept {e : Run.Step Env Event} (hn : Next e.before e.action e.after)
    (hkeeps : ∀ call, called e = some call → call.keepsCounters) {grantId : Nat} {grant : Grant}
    (hgrant : e.after.grants grantId = some grant) :
    opens grantId e = true ∨ ∃ g, e.before.grants grantId = some g ∧
      grant.withdrawn = g.withdrawn ∧
      (performed grantId e).any GrantOp.isWithdrawal = false := by
  cases accountEffect_of_next hn grantId with
  | idle hop hsame _ =>
      refine .inr ⟨grant, hsame.symm.trans hgrant, rfl, ?_⟩
      show (performed grantId e).any GrantOp.isWithdrawal = false
      rw [hop]
      rfl
  | opened _ _ hnone => exact .inl (opens_eq_true hnone hgrant)
  | @operated op g a' payments hop hg hstep hgrant' =>
      have hsame : a'.grant = grant := Option.some.inj (hgrant'.symm.trans hgrant)
      have hwithdrawn := hstep.withdrawn
      have hperformed := performed_eq grantId e
      rw [hop] at hperformed
      obtain ⟨call, hcalled, hcall⟩ := Option.bind_eq_some_iff.mp hperformed.symm
      obtain ⟨⟨id, op'⟩, hop', hsome⟩ := Option.bind_eq_some_iff.mp hcall
      obtain ⟨hwithdraw, hquit⟩ := hkeeps call hcalled
      have hnothing : op.withdraws e.action.timestamp g = 0 ∧ op.isWithdrawal = false := by
        dsimp only at hsome
        split_ifs at hsome
        obtain rfl := Option.some.inj hsome
        cases call <;> cases hop' <;> first
          | exact ⟨rfl, rfl⟩
          | exact absurd rfl (hwithdraw _ _)
          | exact absurd rfl (hquit _)
      refine .inr ⟨g, hg, ?_, ?_⟩
      · rw [← hsame, hwithdrawn, hnothing.1, Int.add_zero]
      · show (performed grantId e).any GrantOp.isWithdrawal = false
        rw [hop]
        exact hnothing.2
  | closed _ _ _ _ hnone => cases hnone.symm.trans hgrant

/-! ### Leaves in the layer -/

theorem leafHash_eq (env : Env) (grantId : Nat) (balance : Int) :
    leafHash env grantId balance = env.host.sha256 (leafInput (grantId, balance)) := rfl

/-- A leaf is only ever in its own place. -/
theorem leaf_mem_iff {env : Env} {calls : List (Nat × Int)} {layer : List Bytes}
    {inputs : List Bytes} (hlayer : IsLayer env calls layer)
    (ha : HashesApart env.host.sha256 inputs) (hcalls : ∀ call ∈ calls, leafInput call ∈ inputs)
    {grantId : Nat} {balance : Int} (hinput : leafInput (grantId, balance) ∈ inputs) :
    leafHash env grantId balance ∈ layer ↔
      layer[grantId % 256]? = some (leafHash env grantId balance) := by
  constructor
  · intro hmem
    obtain ⟨j, hj⟩ := List.mem_iff_getElem?.mp hmem
    rcases hlayer j _ hj with ⟨call, hcall, hindex, heq⟩ | ⟨hzero, -⟩
    · rw [leafHash_eq, leafHash_eq] at heq
      have hsame := ha.injective _ hinput _ (hcalls call hcall) heq
      rw [show grantId % 256 = j from (leafInput_index hsame).trans hindex]
      exact hj
    · exact absurd hzero (ha.nonzero _ hinput)
  · exact List.mem_of_getElem?

theorem updateAuditLeaf_self (env : Env) (grantId : Nat) (balance : Int) :
    (updateAuditLeaf env grantId balance).merkleLeaves[grantId % 256]? =
      some (leafHash env grantId balance) := by
  have hidx : grantId % 2 ^ 32 % 256 = grantId % 256 := by omega
  unfold updateAuditLeaf
  dsimp only
  rw [hidx, List.getElem?_set_self]
  rw [List.length_append, List.length_replicate]
  omega

/-- Other leaves stay. -/
theorem updateAuditLeaf_other (env : Env) (grantId : Nat) (balance : Int) {j : Nat} {x : Bytes}
    (hj : j ≠ grantId % 256) (hx : env.audit.merkleLeaves[j]? = some x) :
    (updateAuditLeaf env grantId balance).merkleLeaves[j]? = some x := by
  have hidx : grantId % 2 ^ 32 % 256 = grantId % 256 := by omega
  unfold updateAuditLeaf
  dsimp only
  rw [hidx, List.getElem?_set_ne (Ne.symm hj)]
  rw [List.getElem?_append_left (List.getElem?_eq_some_iff.mp hx).1]
  exact hx

/-- The ids of grants are `u64` values. -/
theorem id_lt_of_reachable {trace : Trace} {env : Env} (h : Reachable trace env) {grantId : Nat}
    {g : Grant} (hg : env.grants grantId = some g) : grantId < U64.size := by
  induction h generalizing g with
  | start h =>
      obtain ⟨_, _, _, rfl⟩ := h
      cases hg
  | @step trace env event env' hrun hn ih =>
      cases accountEffect_of_next hn grantId with
      | idle _ hsame _ => exact ih (hsame.symm.trans hg)
      | opened hcall =>
          have hwt := hn.1.wellTyped
          dsimp only at hcall
          rw [hcall] at hwt
          exact hwt.2 grantId (List.mem_cons_self ..)
      | operated _ hg' => exact ih hg'
      | closed _ hg' => exact ih hg'

theorem leafInput_injective {id id' : Nat} {x x' : Int} (hid : id < U64.size)
    (hid' : id' < U64.size) (hx : I128.InRange x) (hx' : I128.InRange x')
    (h : leafInput (id, x) = leafInput (id', x')) : id = id' ∧ x = x' := by
  obtain ⟨hfirst, hsecond⟩ := List.append_inj h (by rw [length_toBeBytes, length_toBeBytes])
  exact ⟨toBeBytes_injective hid hid' hfirst, i128ToBeBytes_injective hx hx' hsecond⟩

/-- The counter of a grant is an `i128`. -/
theorem withdrawn_inRange {trace : Trace} {env : Env} (h : Reachable trace env) {grantId : Nat}
    {g : Grant} (hg : env.grants grantId = some g) : I128.InRange g.withdrawn := by
  have hwf := wellFormed_of_reachable h hg
  have hclaimable := hwf.claimable_nonneg
  have hle := hwf.grantee_le
  exact hwf.totalAmount_inRange.of_nonneg_of_le hwf.withdrawn_nonneg (by omega)

/-! ### The inputs of a run -/

/-- What is hashed for the withdrawals of a run is among the inputs of its counters. -/
theorem audited_mem {trace : Trace} {env : Env} (h : Reachable trace env) :
    ∀ call ∈ auditedWithdrawals trace, leafInput call ∈ trace.filterMap counterInput := by
  intro call hcall
  obtain ⟨e, he, haudited⟩ := List.mem_filterMap.mp (List.mem_reverse.mp hcall)
  obtain ⟨older, -, hn⟩ := Run.of_mem h he
  refine List.mem_filterMap.mpr ⟨e, he, ?_⟩
  cases hcalled : called e with
  | none =>
      unfold auditedWithdrawal at haudited
      rw [hcalled] at haudited
      cases haudited
  | some op =>
      cases op
      case withdraw grantId amount =>
        obtain ⟨g, g', -, hgrants, hsame⟩ := auditedWithdrawal_of_called hn hcalled
        obtain rfl := Option.some.inj (hsame.symm.trans haudited)
        unfold counterInput
        rw [hcalled]
        dsimp only
        rw [hgrants, Function.update_self]
        rfl
      all_goals
        unfold auditedWithdrawal at haudited
        rw [hcalled] at haudited
        cases haudited

/-- The counter of a grant after a step: the grant is new, the step hashed the counter or
could have, or it kept the counter. -/
theorem counter_cases {e : Run.Step Env Event} (hn : Next e.before e.action e.after)
    {grantId : Nat} {grant : Grant} (hgrant : e.after.grants grantId = some grant) :
    opens grantId e = true ∨ counterInput e = some (leafInput (grantId, grant.withdrawn)) ∨
      ∃ g, e.before.grants grantId = some g ∧ grant.withdrawn = g.withdrawn ∧
        (performed grantId e).any GrantOp.isWithdrawal = false := by
  have hadds {call : Call} {id : Nat} {op : GrantOp} (hcalled : called e = some call)
      (hop : call.grantOp? = some (id, op))
      (hinput : ∀ g, e.after.grants id = some g →
        counterInput e = some (leafInput (id, g.withdrawn))) :
      counterInput e = some (leafInput (grantId, grant.withdrawn)) ∨
        ∃ g, e.before.grants grantId = some g ∧ grant.withdrawn = g.withdrawn ∧
          (performed grantId e).any GrantOp.isWithdrawal = false := by
    obtain ⟨g, g', hg, hgrants, -⟩ := counter_of_called hn hcalled hop
    by_cases hid : id = grantId
    · subst hid
      exact .inl (hinput grant hgrant)
    · rw [hgrants, Function.update_of_ne (Ne.symm hid)] at hgrant
      refine .inr ⟨grant, hgrant, rfl, ?_⟩
      rw [performed_of_called hcalled hop, if_neg hid]
      rfl
  by_cases hkeeps : ∀ call, called e = some call → call.keepsCounters
  · rcases counter_of_kept hn hkeeps hgrant with hopens | hkept
    · exact .inl hopens
    · exact .inr (.inr hkept)
  · obtain ⟨call, hcall⟩ := not_forall.mp hkeeps
    obtain ⟨hcalled, hcall⟩ := Classical.not_imp.mp hcall
    refine .inr ?_
    cases call
    case withdraw id amount =>
      refine hadds hcalled rfl fun g hg => ?_
      unfold counterInput
      rw [hcalled]
      dsimp only
      rw [hg]
      rfl
    case rageQuit id =>
      refine hadds hcalled rfl fun g hg => ?_
      unfold counterInput
      rw [hcalled]
      dsimp only
      rw [hg]
      rfl
    all_goals exact absurd ⟨by simp, by simp⟩ hcall

theorem counterInput_tail {e : Run.Step Env Event} {older : Trace} :
    older.filterMap counterInput ⊆ (e :: older).filterMap counterInput :=
  ((List.sublist_cons_self e older).filterMap counterInput).subset

theorem counter_mem {trace : Trace} {env : Env} (h : Reachable trace env) {grantId : Nat}
    {grant : Grant} (hgrant : env.grants grantId = some grant)
    (hwithdrawn : withdrawnFrom grantId trace = true) :
    leafInput (grantId, grant.withdrawn) ∈ trace.filterMap counterInput := by
  induction h generalizing grant with
  | start h => cases hwithdrawn
  | @step trace env event env' hrun hn ih =>
      rcases counter_cases (e := ⟨env, event, env'⟩) hn hgrant with hopens | hinput | hkept
      · rw [withdrawnFrom_of_opens hopens] at hwithdrawn
        cases hwithdrawn
      · exact List.mem_filterMap.mpr ⟨_, List.mem_cons_self .., hinput⟩
      · obtain ⟨g, hg, hsame, hop⟩ := hkept
        rw [withdrawnFrom_of_some hg, hop, Bool.false_or] at hwithdrawn
        rw [hsame]
        exact counterInput_tail (ih hg hwithdrawn)

/-! ### The layer covers the grants -/

theorem HashesApart.mono {sha256 : Bytes → Bytes} {inputs inputs' : List Bytes}
    (h : HashesApart sha256 inputs) (hsub : inputs' ⊆ inputs) : HashesApart sha256 inputs' where
  injective x hx y hy := h.injective x (hsub hx) y (hsub hy)
  length x hx := h.length x (hsub hx)
  nonzero x hx := h.nonzero x (hsub hx)

section Steps

variable {inputs : List Bytes} {e : Run.Step Env Event} {older : Trace}

theorem leafInput_ne {trace : Trace} {env : Env} (h : Reachable trace env) {id id' : Nat}
    {g g' : Grant} (hg : env.grants id = some g) (hg' : env.grants id' = some g')
    (heq : leafInput (id, g.withdrawn) = leafInput (id', g'.withdrawn)) : id = id' :=
  (leafInput_injective (id_lt_of_reachable h hg) (id_lt_of_reachable h hg')
    (withdrawn_inRange h hg) (withdrawn_inRange h hg') heq).1

/-- Covering is having every leaf in its own place. -/
theorem layerCovers_iff {trace : Trace} {env : Env} (h : Reachable trace env)
    (ha : HashesApart env.host.sha256 inputs) (hsub : trace.filterMap counterInput ⊆ inputs) :
    LayerCovers trace env ↔ ∀ grantId grant, env.grants grantId = some grant →
      withdrawnFrom grantId trace = true →
      env.audit.merkleLeaves[grantId % 256]? = some (leafHash env grantId grant.withdrawn) := by
  have hlayer : IsLayer env (auditedWithdrawals trace) env.audit.merkleLeaves := by
    rw [merkleLeaves_of_reachable h]
    exact isLayer_auditLayer env _
  unfold LayerCovers
  refine forall₂_congr fun grantId grant => forall₂_congr fun hgrant hwithdrawn => ?_
  exact leaf_mem_iff hlayer ha (fun call hcall => hsub (audited_mem h call hcall))
    (hsub (counter_mem h hgrant hwithdrawn))

/-- A withdrawal covers its grant, and all others exactly if it takes the place of none. -/
theorem layerCovers_of_withdraw (h : Reachable (e :: older) e.after)
    (ha : HashesApart e.after.host.sha256 inputs)
    (hsub : (e :: older).filterMap counterInput ⊆ inputs) {id : Nat} {amount : Int}
    (hcalled : called e = some (.withdraw id amount))
    (hbefore : ∀ grantId grant, e.before.grants grantId = some grant →
      withdrawnFrom grantId older = true →
      e.before.audit.merkleLeaves[grantId % 256]? =
        some (leafHash e.before grantId grant.withdrawn)) :
    LayerCovers (e :: older) e.after ↔ KeepsLeaves e older := by
  obtain ⟨hrun, hn, -⟩ := h.uncons
  obtain ⟨g, g', hg, hgrants, haudited⟩ := auditedWithdrawal_of_called hn hcalled
  have haudit := audit_of_next hn
  rw [haudited] at haudit
  have haudit : e.after.audit = updateAuditLeaf e.before id g'.withdrawn := haudit
  have hgrant : e.after.grants id = some g' := by rw [hgrants, Function.update_self]
  have hleaf (grantId : Nat) (balance : Int) :
      leafHash e.after grantId balance = leafHash e.before grantId balance := by
    rw [leafHash_eq, leafHash_eq, host_of_next hn]
  have hother {grantId : Nat} (hne : grantId ≠ id) {grant : Grant}
      (hgrant : e.before.grants grantId = some grant) :
      e.after.grants grantId = some grant ∧
        withdrawnFrom grantId (e :: older) = withdrawnFrom grantId older := by
    rw [hgrants, Function.update_of_ne hne, withdrawnFrom_of_some hgrant,
      performed_of_called hcalled rfl, if_neg (Ne.symm hne)]
    exact ⟨hgrant, Bool.false_or _⟩
  rw [layerCovers_iff h ha hsub]
  unfold KeepsLeaves
  rw [hcalled]
  dsimp only
  constructor
  · intro hafter grantId hmem hne hplace
    by_contra hwithdrawn
    rw [Bool.not_eq_false] at hwithdrawn
    obtain ⟨grant, hbefore⟩ := Option.ne_none_iff_exists'.mp
      (((registered_of_reachable hrun).mem_iff grantId).mp hmem)
    obtain ⟨hgrant', hsame⟩ := hother hne hbefore
    rw [← hsame] at hwithdrawn
    -- both leaves would be in one place
    have hplaced := hafter grantId grant hgrant' hwithdrawn
    rw [hplace, haudit, updateAuditLeaf_self, ← hleaf] at hplaced
    have hinput : counterInput e = some (leafInput (id, g'.withdrawn)) := by
      unfold counterInput
      rw [hcalled]
      dsimp only
      rw [hgrant]
      rfl
    have hequal := ha.injective _
      (hsub (List.mem_filterMap.mpr ⟨e, List.mem_cons_self .., hinput⟩)) _
      (hsub (counter_mem h hgrant' hwithdrawn)) (Option.some.inj hplaced)
    exact hne (leafInput_ne h hgrant hgrant' hequal).symm
  · intro hkeeps grantId grant hafter hwithdrawn
    rw [hleaf, haudit]
    by_cases hne : grantId = id
    · subst hne
      obtain rfl := Option.some.inj (hgrant.symm.trans hafter)
      exact updateAuditLeaf_self e.before grantId g'.withdrawn
    · have hgrant' : e.before.grants grantId = some grant := by
        rw [hgrants, Function.update_of_ne hne] at hafter
        exact hafter
      rw [(hother hne hgrant').2] at hwithdrawn
      refine updateAuditLeaf_other _ _ _ (fun hplace => ?_) (hbefore grantId grant hgrant' hwithdrawn)
      have hmem := ((registered_of_reachable hrun).mem_iff grantId).mpr
        (Option.ne_none_iff_exists'.mpr ⟨grant, hgrant'⟩)
      rw [hkeeps grantId hmem hne hplace] at hwithdrawn
      cases hwithdrawn

/-- Quitting covers the grant exactly if there was nothing to claim. -/
theorem layerCovers_of_rageQuit (h : Reachable (e :: older) e.after)
    (ha : HashesApart e.after.host.sha256 inputs)
    (hsub : (e :: older).filterMap counterInput ⊆ inputs) {id : Nat}
    (hcalled : called e = some (.rageQuit id))
    (hbefore : ∀ grantId grant, e.before.grants grantId = some grant →
      withdrawnFrom grantId older = true →
      e.before.audit.merkleLeaves[grantId % 256]? =
        some (leafHash e.before grantId grant.withdrawn)) :
    LayerCovers (e :: older) e.after ↔ KeepsLeaves e older := by
  obtain ⟨hrun, hn, -⟩ := h.uncons
  obtain ⟨g, g', hg, hgrants, hwithdrawn'⟩ := counter_of_called hn hcalled rfl
  have haudit : e.after.audit = e.before.audit := by
    rw [audit_of_next hn]
    unfold auditedWithdrawal
    rw [hcalled]
    rfl
  have hgrant : e.after.grants id = some g' := by rw [hgrants, Function.update_self]
  have hleaf (grantId : Nat) (balance : Int) :
      leafHash e.after grantId balance = leafHash e.before grantId balance := by
    rw [leafHash_eq, leafHash_eq, host_of_next hn]
  have hsame {grantId : Nat} {grant : Grant} (hgrant : e.before.grants grantId = some grant) :
      withdrawnFrom grantId (e :: older) = withdrawnFrom grantId older := by
    rw [withdrawnFrom_of_some hgrant, performed_of_called hcalled rfl]
    split_ifs <;> exact Bool.false_or _
  rw [layerCovers_iff h ha hsub]
  unfold KeepsLeaves
  rw [hcalled]
  dsimp only
  rw [hg, Option.all_some, decide_eq_true_eq]
  constructor
  · intro hafter hwithdrawn
    have hplaced := hafter id g' hgrant ((hsame hg).trans hwithdrawn)
    rw [haudit, hbefore id g hg hwithdrawn, ← hleaf] at hplaced
    have hequal := ha.injective _ (hsub (counterInput_tail (counter_mem hrun hg hwithdrawn))) _
      (hsub (counter_mem h hgrant ((hsame hg).trans hwithdrawn))) (Option.some.inj hplaced)
    have hid := id_lt_of_reachable hrun hg
    have hvalue := (leafInput_injective hid hid (withdrawn_inRange hrun hg)
      (withdrawn_inRange h hgrant) hequal).2
    have hadded : g'.withdrawn = g.withdrawn + (g.settled e.action.timestamp).claimable :=
      hwithdrawn'
    omega
  · intro hkeeps grantId grant hafter hwithdrawn
    rw [hleaf, haudit]
    by_cases hne : grantId = id
    · subst hne
      obtain rfl := Option.some.inj (hgrant.symm.trans hafter)
      rw [hsame hg] at hwithdrawn
      have hnothing : g'.withdrawn = g.withdrawn := by
        rw [hwithdrawn', GrantOp.withdraws, hkeeps hwithdrawn, Int.add_zero]
      rw [hnothing]
      exact hbefore grantId g hg hwithdrawn
    · rw [hgrants, Function.update_of_ne hne] at hafter
      rw [hsame hafter] at hwithdrawn
      exact hbefore grantId grant hafter hwithdrawn

theorem layerCovers_step (h : Reachable (e :: older) e.after)
    (ha : HashesApart e.after.host.sha256 inputs)
    (hsub : (e :: older).filterMap counterInput ⊆ inputs)
    (hbefore : LayerCovers older e.before) :
    LayerCovers (e :: older) e.after ↔ KeepsLeaves e older := by
  obtain ⟨hrun, hn, -⟩ := h.uncons
  have hhost := host_of_next hn
  have hplaced := (layerCovers_iff hrun (hhost ▸ ha)
    (List.Subset.trans counterInput_tail hsub)).mp hbefore
  by_cases hkeeps : ∀ call, called e = some call → call.keepsCounters
  · have haudit : e.after.audit = e.before.audit := by
      rw [audit_of_next hn]
      unfold auditedWithdrawal
      split
      case h_1 grantId amount hcalled => exact absurd rfl ((hkeeps _ hcalled).1 grantId amount)
      case h_2 => rfl
    have hfree : KeepsLeaves e older := by
      unfold KeepsLeaves
      split
      case h_1 grantId amount hcalled => exact absurd rfl ((hkeeps _ hcalled).1 grantId amount)
      case h_2 grantId hcalled => exact absurd rfl ((hkeeps _ hcalled).2 grantId)
      case h_3 => trivial
    refine iff_of_true ((layerCovers_iff h ha hsub).mpr fun grantId grant hgrant hwithdrawn => ?_)
      hfree
    rcases counter_of_kept hn hkeeps hgrant with hopens | ⟨g, hg, hsame, hop⟩
    · rw [withdrawnFrom_of_opens hopens] at hwithdrawn
      cases hwithdrawn
    · rw [withdrawnFrom_of_some hg, hop, Bool.false_or] at hwithdrawn
      rw [haudit, hsame, hplaced grantId g hg hwithdrawn, leafHash_eq, leafHash_eq, hhost]
  · obtain ⟨call, hcall⟩ := not_forall.mp hkeeps
    obtain ⟨hcalled, hcall⟩ := Classical.not_imp.mp hcall
    cases call
    case withdraw => exact layerCovers_of_withdraw h ha hsub hcalled hplaced
    case rageQuit => exact layerCovers_of_rageQuit h ha hsub hcalled hplaced
    all_goals exact absurd ⟨by simp, by simp⟩ hcall

/-- **Audit coverage.** In every run, the layer has the leaf of every grant that was withdrawn
from, at every step, exactly if every step keeps the leaves. The hash is assumed to tell the
inputs of the counters of the run apart. -/
theorem audit_coverage {trace : Trace} {env : Env} (h : Reachable trace env)
    (ha : HashesApart env.host.sha256 (trace.filterMap counterInput)) :
    Run.Each (fun e older => LayerCovers (e :: older) e.after) trace ↔
      Run.Each KeepsLeaves trace := by
  refine Run.each_iff_of_step_when (I := LayerCovers) (c := fun e older =>
    HashesApart e.after.host.sha256 ((e :: older).filterMap counterInput)) ?_ ?_ h ?_
  · rintro env ⟨_, _, _, rfl⟩ grantId grant hgrant
    cases hgrant
  · intro e older hrun hn hapart hbefore
    exact layerCovers_step (.step hrun hn) hapart.1 (fun _ hx => hx) hbefore
  · induction h with
    | start => exact trivial
    | @step trace env event env' hrun hn ih =>
        have hhost : env'.host = env.host := host_of_next (e := ⟨env, event, env'⟩) hn
        refine ⟨ha, ih ?_⟩
        rw [hhost] at ha
        exact ha.mono counterInput_tail

end Steps

namespace Demo

/-- The digests of the leaves of grants 7 and 8. -/
def leafDigests : List (Bytes × Bytes) :=
  [(leafInput (7, 20000000),
      toBeBytes 32 0x579e4f966bff0106d8a38226095721602da989f4854201a754532d9503923f1a),
    (leafInput (8, 20000000),
      toBeBytes 32 0x54135e4c285dd01fa9261a52a16470023bbc897da6ca3ce40c5c6809e7789222),
    (leafInput (7, 40000000),
      toBeBytes 32 0xe8f4940d9522cac1458e178642b639b22fbc47a025f6a60ffc376c3d33b30ccf),
    (leafInput (7, 30000000),
      toBeBytes 32 0x5ba59405aaa6de9bce5306d74889e50cf5e5b03ee2b398a772796c7a52d7f751)]

/-- A contract whose host computes these digests. -/
def auditing : Env :=
  .deployed self
    { sha256 := fun x => (leafDigests.lookup x).getD zeroHash, i128ToXdr := fun _ => []
      grantToXdr := fun _ => [] }
    { balance := fun _ _ => 0, log := [] }

theorem auditing_deployed : Deployed auditing := ⟨_, _, _, rfl⟩

/-- Two grants of one grantee, of `10 ^ 6` a second each. -/
def twoGrants : List Event := Demo.setUp (10 ^ 12) ++
  [Demo.call 1 (.createGrant 7 Demo.grantee (10 ^ 11) (10 ^ 6) 0 none none),
    Demo.call 1 (.createGrant 8 Demo.grantee (10 ^ 11) (10 ^ 6) 0 none none),
    Demo.call 21 (.withdraw 7 20000000)]

end Demo

/-- Both grants are withdrawn from, and one is quit when everything is claimed. -/
theorem audit_coverage_of_withdrawals :
    let run := history Demo.auditing (Demo.twoGrants ++
      [Demo.call 21 (.withdraw 8 20000000), Demo.call 41 (.withdraw 7 20000000),
        Demo.call 41 (.pauseStream 7 none), Demo.call 51 (.rageQuit 7)])
    Run.Each (fun e older => LayerCovers (e :: older) e.after) run.1 := by
  intro run
  have hrun : Reachable run.1 run.2 := history_reachable Demo.auditing_deployed (by decide)
  exact (audit_coverage hrun ⟨by decide, by decide, by decide⟩).mpr (by decide)

/-- A grantee who quits is paid without a new leaf. -/
theorem audit_coverage_rage_quit :
    ¬∀ trace env, Reachable trace env →
      HashesApart env.host.sha256 (trace.filterMap counterInput) → LayerCovers trace env := by
  intro h
  let run := history Demo.auditing (Demo.twoGrants ++
    [Demo.call 31 (.pauseStream 7 none), Demo.call 31 (.rageQuit 7)])
  have hrun : Reachable run.1 run.2 := history_reachable Demo.auditing_deployed (by decide)
  have hleaf := h _ _ hrun ⟨by decide, by decide, by decide⟩ 7 _ rfl (by decide)
  exact absurd hleaf (by decide)

end YieldTrust.GrantStream
