import YieldTrust.GrantStream.Regions
import YieldTrust.GrantStream.Registry

/-!
# YieldTrust.GrantStream.Authority

**Who can do what to a grant.** Every operation on a grant belongs to a party, and is only performed
if that party signed the call. The admin, the oracle, the treasury and the tokens are set once. So
what others do, in any order, leaves the grant and what it is owed alone, or deletes a grant that
is through.
-/

namespace YieldTrust.GrantStream

open Fallible

variable {trace newer : Trace} {env env' : Env} {event : Event} {e : Run.Step Env Event}
  {call : Call} {grantId : Nat} {op : GrantOp} {g : Grant} {auths : List Address}

/-! ### The parties -/

inductive Party where
  | admin
  | oracle
  | recipient
  | validator
  /-- The donor of the grant, or the admin if it has none. -/
  | donor
  deriving DecidableEq

/-- The party that an operation belongs to. -/
def GrantOp.party : GrantOp → Party
  | .withdraw _ | .rageQuit | .signLegal => .recipient
  | .withdrawValidator _ => .validator
  | .applyKpi _ => .oracle
  | .clawback _ => .donor
  | _ => .admin

def Party.address (env : Env) (g : Grant) : Party → Option Address
  | .admin => env.admin
  | .oracle => env.oracle
  | .recipient => some g.recipient
  | .validator => g.validator
  | .donor => g.donor.or env.admin

/-- The party is one of those who authorized the call. -/
def Party.Signed (env : Env) (g : Grant) (auths : List Address) (party : Party) : Prop :=
  ∃ a ∈ party.address env g, a ∈ auths

instance (env : Env) (g : Grant) (auths : List Address) (party : Party) :
    Decidable (party.Signed env g auths) :=
  inferInstanceAs (Decidable (∃ a ∈ party.address env g, a ∈ auths))

theorem Party.signed_admin (h : requireAdminAuth env = .ok ()) :
    Party.admin.Signed env g env.auths := by
  obtain ⟨admin, hadmin, hauth⟩ := requireAdminAuth_eq_ok.mp h
  exact ⟨admin, hadmin, hauth⟩

/-- An operation goes through only if its party signed. -/
theorem signed_of_exec (h : call.exec env = .ok env') (hop : call.grantOp? = some (grantId, op))
    (hg : env.grants grantId = some g) : op.party.Signed env g env.auths := by
  cases call <;> cases hop <;> dsimp only [Call.exec] at h
  case withdraw =>
    simp only [withdraw, readGrant, bind_eq_ok, okOr_eq_ok, requireAuth_eq_ok] at h
    obtain ⟨g', hg', _, hauth, -⟩ := h
    obtain rfl := Option.some.inj (hg.symm.trans hg')
    exact ⟨_, rfl, hauth⟩
  case rageQuit =>
    simp only [rageQuit, readGrant, bind_eq_ok, okOr_eq_ok, requireAuth_eq_ok] at h
    obtain ⟨g', hg', _, hauth, -⟩ := h
    obtain rfl := Option.some.inj (hg.symm.trans hg')
    exact ⟨_, rfl, hauth⟩
  case signLegalMetadata =>
    simp only [signLegalMetadata, readGrant, bind_eq_ok, okOr_eq_ok, requireAuth_eq_ok] at h
    obtain ⟨g', hg', _, hauth, -⟩ := h
    obtain rfl := Option.some.inj (hg.symm.trans hg')
    exact ⟨_, rfl, hauth⟩
  case withdrawValidator =>
    simp only [withdrawValidator, readGrant, bind_eq_ok, okOr_eq_ok, requireAuth_eq_ok] at h
    obtain ⟨g', hg', validator, hvalidator, _, hauth, -⟩ := h
    obtain rfl := Option.some.inj (hg.symm.trans hg')
    exact ⟨validator, hvalidator, hauth⟩
  case applyKpiMultiplier =>
    simp only [applyKpiMultiplier, requireOracleAuth, readOracle, bind_eq_ok, okOr_eq_ok,
      requireAuth_eq_ok] at h
    obtain ⟨_, ⟨oracle, horacle, hauth⟩, -⟩ := h
    exact ⟨oracle, horacle, hauth⟩
  case triggerGrantClawback =>
    simp only [triggerGrantClawback, readGrant, bind_eq_ok, okOr_eq_ok] at h
    obtain ⟨g', hg', _, -, _, -, _, -, _, hauth, -⟩ := h
    obtain rfl := Option.some.inj (hg.symm.trans hg')
    unfold requireDonorOrMultisigAuth at hauth
    cases hdonor : g.donor with
    | some donor =>
        rw [hdonor] at hauth
        exact ⟨donor, by simp [GrantOp.party, Party.address, hdonor], requireAuth_eq_ok.mp hauth⟩
    | none =>
        rw [hdonor] at hauth
        obtain ⟨admin, hadmin, hauth⟩ := requireAdminAuth_eq_ok.mp hauth
        exact ⟨admin, by simp [GrantOp.party, Party.address, hdonor, hadmin], hauth⟩
  case cancelGrant =>
    simp only [cancelGrant, bind_eq_ok] at h
    obtain ⟨_, -, _, hauth, -⟩ := h
    exact Party.signed_admin hauth
  -- the other entry points begin with the check
  all_goals
    obtain ⟨_, hauth, -⟩ := bind_eq_ok.mp h
    exact Party.signed_admin hauth

theorem createGrant_signed {recipient : Address} {totalAmount flowRate : Int} {warmup : Nat}
    {validator donor : Option Address}
    (h : createGrant env grantId recipient totalAmount flowRate warmup validator donor = .ok env') :
    ∃ admin, env.admin = some admin ∧ admin ∈ env.auths := by
  obtain ⟨_, hauth, -⟩ := bind_eq_ok.mp h
  exact requireAdminAuth_eq_ok.mp hauth

/-! ### The roles are set once -/

theorem config_of_next (hn : Next e.before e.action e.after) (hadmin : e.before.admin ≠ none) :
    Region.config.Same e.before e.after := by
  rcases called_of_next hn with ⟨-, hframe⟩ | ⟨call, -, hexec⟩
  · exact hframe.same .config (by decide)
  · have henter : Region.config.Same e.before (e.before.enter e.action) :=
      (enter_frame e.before e.action).same .config (by decide)
    by_cases hconfig : Region.config ∈ call.writes
    · cases call <;> simp [Call.writes] at hconfig
      case initializeContract => exact absurd (initializeContract_vault hexec).1 hadmin
    · exact henter.trans ((frame_of_exec hexec).same .config hconfig)

/-! ### Steps of others -/

/-- What is performed on a grant is signed by the party whose operation it is. -/
theorem signed_of_performed (hn : Next e.before e.action e.after)
    (hop : performed grantId e = some op) (hg : e.before.grants grantId = some g) :
    op.party.Signed e.before g e.action.auths := by
  rw [performed_eq] at hop
  obtain ⟨call, hcalled, hop⟩ := Option.bind_eq_some_iff.mp hop
  obtain ⟨⟨id, op'⟩, hgrantOp, hop⟩ := Option.bind_eq_some_iff.mp hop
  split_ifs at hop with hid
  obtain rfl := Option.some.inj hop
  obtain rfl : id = grantId := hid
  have hsigned : op'.party.Signed (e.before.enter e.action) g (e.before.enter e.action).auths :=
    signed_of_exec (exec_of_called hn hcalled) hgrantOp hg
  exact hsigned

/-- The call that went through is the one of the transaction. -/
theorem exec_of_invoked {call call' : Call} (hcalled : called e = some call)
    (ht : e.action.transaction = .invoke auths call')
    (hexec : call.exec (e.before.enter e.action) = .ok e.after) :
    call'.exec (e.before.enter e.action) = .ok e.after := by
  unfold called at hcalled
  rw [ht] at hcalled
  dsimp only at hcalled
  split_ifs at hcalled
  rw [Option.some.inj hcalled]
  exact hexec

/-- No party of the grant signed. -/
def Outside (env : Env) (g : Grant) (e : Run.Step Env Event) : Prop :=
  ∀ party : Party, ¬party.Signed env g e.action.auths

/-- The grant is as it was, or deleted, and so are the roles and the escrow. -/
structure LeftAlone (grantId : Nat) (g : Grant) (env env' : Env) : Prop where
  grant : env'.grants grantId = some g ∨ env'.grants grantId = none
  escrow : env'.disputeEscrow grantId = env.disputeEscrow grantId
  config : Region.config.Same env env'

/-- **Step lemma**, by what the step does to the account of the grant. -/
theorem Outside.step (h : Outside e.before g e) (hn : Next e.before e.action e.after)
    (hadmin : e.before.admin ≠ none)
    (hg : e.before.grants grantId = some g ∨ e.before.grants grantId = none) :
    performed grantId e = none ∧ LeftAlone grantId g e.before e.after := by
  have hconfig := config_of_next hn hadmin
  have heffect := accountEffect_of_next hn grantId
  cases heffect with
  | idle hop hgrant hescrow => exact ⟨hop, hgrant ▸ hg, hescrow, hconfig⟩
  | opened hcall _ hnone _ _ hgrant _ =>
      -- only the admin creates grants
      rcases called_of_next hn with ⟨-, hframe⟩ | ⟨call, hcalled, hexec⟩
      · have hsame := congrFun (hframe.same .grants (by decide)).1 grantId
        cases (hnone.symm.trans hsame.symm).trans hgrant
      · obtain ⟨admin, hsigner, hauth⟩ := createGrant_signed (exec_of_invoked hcalled hcall hexec)
        exact absurd ⟨admin, hsigner, hauth⟩ (h .admin)
  | operated hop hg' hstep =>
      rcases hg with hg | hnone
      · exact absurd (signed_of_performed hn hop hg) (h _)
      · cases hnone.symm.trans hg'
  | closed hop _ _ _ hgrant hescrow => exact ⟨hop, .inr hgrant, hescrow, hconfig⟩

namespace Demo

end Demo

end YieldTrust.GrantStream
