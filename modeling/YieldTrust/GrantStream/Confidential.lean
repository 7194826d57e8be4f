import YieldTrust.GrantStream.Encoding
import YieldTrust.GrantStream.Regions

/-!
# YieldTrust.GrantStream.Confidential

Confidential grants. The proof of a claim is the hash of the commitment before and
after it, so a proof is good for one state of one grant only, and what protects from a
replay is that a commitment never takes the same value twice. That depends on what is
claimed: the amount is reduced modulo the modulus before it is taken from the
commitment, and paid as it is.
-/

namespace YieldTrust.GrantStream

open Fallible

/-! ### Claims -/

/-- The arguments of `confidential_claim`. -/
structure ConfidentialClaim where
  grantId : Nat
  amount : Int
  nullifier : Bytes
  proof : Bytes

/-- What the commitment loses. -/
def ConfidentialClaim.taken (claim : ConfidentialClaim) : Int := claim.amount % zkCommitmentModulus

/-- What the proof of a claim on the commitment `before` has to be the hash of. -/
def publicInputs (host : HostFunctions) (claim : ConfidentialClaim) (before : Int)
    (verifierKeyHash : Bytes) : Bytes :=
  AuditLog.toBeBytes 8 claim.grantId ++ host.i128ToXdr before ++
    host.i128ToXdr (before - claim.taken) ++ host.i128ToXdr claim.amount ++ claim.nullifier ++
    verifierKeyHash

/-- The claim that the step accepted. -/
def acceptedClaim (e : Run.Step Env Event) : Option ConfidentialClaim :=
  match called e with
  | some (.confidentialClaim grantId amount nullifier proof) =>
      some { grantId, amount, nullifier, proof }
  | _ => none

/-- What was hashed for it. -/
def proofInput (e : Run.Step Env Event) : Option Bytes :=
  (acceptedClaim e).bind fun claim =>
    (e.before.confidentialGrantCommitment claim.grantId).bind fun before =>
      (e.before.confidentialGrantVerifierKeyHash claim.grantId).map
        (publicInputs e.before.host claim before)

/-- The commitment with which the step created the grant. -/
def createdCommitment (grantId : Nat) (e : Run.Step Env Event) : Option Int :=
  match called e with
  | some (.createConfidentialGrant id _ commitment _) => if id = grantId then some commitment else none
  | _ => none

theorem confidentialClaim_eq_ok {env env' : Env} {claim : ConfidentialClaim}
    (h : confidentialClaim env claim.grantId claim.amount claim.nullifier claim.proof = .ok env') :
    ∃ before verifierKeyHash, env.confidentialGrantCommitment claim.grantId = some before ∧
      env.confidentialGrantVerifierKeyHash claim.grantId = some verifierKeyHash ∧
      0 < claim.amount ∧ claim.taken ≤ before ∧
      claim.proof = env.host.sha256 (publicInputs env.host claim before verifierKeyHash) ∧
      env'.confidentialGrantCommitment = Function.update env.confidentialGrantCommitment
        claim.grantId (some (before - claim.taken)) ∧
      env'.tokens.log.map TokenLedger.Transfer.amount =
        claim.amount :: env.tokens.log.map TokenLedger.Transfer.amount := by
  unfold confidentialClaim verifyConfidentialClaimProof at h
  simp only [bind_eq_ok, okOr_eq_ok, ensure_eq_ok, transfer_eq_ok, pure_eq_ok,
    I128.checkedSub_eq_some] at h
  obtain ⟨_, -, _, -, _, -, before, hbefore, after, ⟨_, hpos, verifierKeyHash, hkey, _, hle, _,
    ⟨-, rfl⟩, _, hproof, rfl⟩, token, -, tokens, htransfer, rfl⟩ := h
  obtain ⟨-, rfl⟩ := TokenLedger.transfer_eq_some.mp htransfer
  exact ⟨before, verifierKeyHash, hbefore, hkey, hpos.1, hle, hproof, rfl, rfl⟩

/-- What a step does to the commitments. -/
inductive ConfidentialStep (e : Run.Step Env Event) : Prop
  | created {grantId : Nat} {recipient : Address} {commitment : Int} {verifierKeyHash : Bytes}
      (hcall : called e =
        some (.createConfidentialGrant grantId recipient commitment verifierKeyHash))
      (hnone : e.before.confidentialGrantCommitment grantId = none) (hid : grantId < U64.size)
      (hpos : 0 < commitment) (hlt : commitment < zkCommitmentModulus)
      (hafter : e.after.confidentialGrantCommitment =
        Function.update e.before.confidentialGrantCommitment grantId (some commitment))
  | claimed {claim : ConfidentialClaim} {before : Int} {verifierKeyHash : Bytes}
      (hclaim : acceptedClaim e = some claim)
      (hcreated : ∀ grantId, createdCommitment grantId e = none)
      (hbefore : e.before.confidentialGrantCommitment claim.grantId = some before)
      (hpos : 0 < claim.amount) (hmax : claim.amount ≤ zkCommitmentModulus)
      (hle : claim.taken ≤ before)
      (hinput : proofInput e = some (publicInputs e.before.host claim before verifierKeyHash))
      (hproof : claim.proof =
        e.before.host.sha256 (publicInputs e.before.host claim before verifierKeyHash))
      (hafter : e.after.confidentialGrantCommitment =
        Function.update e.before.confidentialGrantCommitment claim.grantId
          (some (before - claim.taken)))
      (hlog : e.after.tokens.log.map TokenLedger.Transfer.amount = [claim.amount])
  | kept (hclaim : acceptedClaim e = none) (hcreated : ∀ grantId, createdCommitment grantId e = none)
      (hafter : e.after.confidentialGrantCommitment = e.before.confidentialGrantCommitment)

/-- Without a call nothing happens to the commitments, and never to the host. -/
theorem commitments_of_uncalled {e : Run.Step Env Event} (hn : Next e.before e.action e.after)
    (hcalled : called e = none) :
    e.after.confidentialGrantCommitment = e.before.confidentialGrantCommitment ∧
      e.after.host = e.before.host := by
  obtain ⟨tokens, nullifiers, hafter, -⟩ := after_of_uncalled hn hcalled
  rw [hafter]
  exact ⟨rfl, rfl⟩

theorem claimed_of_called {e : Run.Step Env Event} (hn : Next e.before e.action e.after)
    {claim : ConfidentialClaim} (hcalled : called e = some
      (.confidentialClaim claim.grantId claim.amount claim.nullifier claim.proof)) :
    ConfidentialStep e := by
  obtain ⟨before, verifierKeyHash, hbefore, hkey, hpos, hle, hproof, hafter, hlog⟩ :=
    confidentialClaim_eq_ok (exec_of_called hn hcalled)
  have hclaim : acceptedClaim e = some claim := by
    unfold acceptedClaim
    rw [hcalled]
  have hbefore : e.before.confidentialGrantCommitment claim.grantId = some before := hbefore
  have hkey : e.before.confidentialGrantVerifierKeyHash claim.grantId = some verifierKeyHash := hkey
  have hinput : proofInput e = some (publicInputs e.before.host claim before verifierKeyHash) := by
    unfold proofInput
    rw [hclaim, Option.bind_some, hbefore, Option.bind_some, hkey, Option.map_some]
  have hmax : claim.amount ≤ zkCommitmentModulus :=
    ((wellTyped_of_called hn hcalled).1 _ (List.mem_cons_self ..)).2
  refine .claimed hclaim (fun grantId => ?_) hbefore hpos hmax hle hinput hproof hafter hlog
  unfold createdCommitment
  rw [hcalled]

theorem confidentialStep_of_next {e : Run.Step Env Event} (hn : Next e.before e.action e.after) :
    ConfidentialStep e := by
  cases hcalled : called e with
  | none =>
      refine .kept ?_ (fun grantId => ?_) (commitments_of_uncalled hn hcalled).1
      · unfold acceptedClaim
        rw [hcalled]
      · unfold createdCommitment
        rw [hcalled]
  | some call =>
      have hexec := exec_of_called hn hcalled
      by_cases hwrites : Region.confidential ∈ call.writes
      · cases call <;> simp [Call.writes] at hwrites
        case createConfidentialGrant grantId recipient commitment verifierKeyHash =>
          have hid := (wellTyped_of_called hn hcalled).2 grantId (List.mem_cons_self ..)
          obtain ⟨_, -, hexec⟩ := bind_eq_ok.mp hexec
          obtain ⟨_, hbounds, hexec⟩ := bind_eq_ok.mp hexec
          obtain ⟨_, hnone, hexec⟩ := bind_eq_ok.mp hexec
          have hafter := pure_eq_ok.mp hexec
          obtain ⟨hpos, hlt⟩ := ensure_eq_ok.mp hbounds
          refine .created hcalled (ensure_eq_ok.mp hnone) hid hpos hlt ?_
          rw [← hafter]
          rfl
        case confidentialClaim grantId amount nullifier proof =>
          exact @claimed_of_called e hn ⟨grantId, amount, nullifier, proof⟩ hcalled
      · refine .kept ?_ (fun grantId => ?_) ?_
        · unfold acceptedClaim
          rw [hcalled]
          cases call
          case confidentialClaim => exact absurd (by simp [Call.writes]) hwrites
          all_goals rfl
        · unfold createdCommitment
          rw [hcalled]
          cases call
          case createConfidentialGrant => exact absurd (by simp [Call.writes]) hwrites
          all_goals rfl
        · exact ((frame_of_exec hexec).same .confidential hwrites).2.2.1

/-! ### One grant -/

/-- What left the contract for a claim on the grant. -/
def transferred (grantId : Nat) (e : Run.Step Env Event) : Int :=
  match acceptedClaim e with
  | some claim =>
    if claim.grantId = grantId then (e.after.tokens.log.map TokenLedger.Transfer.amount).sum else 0
  | none => 0

/-- The effect of a step on the commitment of a grant. -/
inductive CommitmentEffect (grantId : Nat) (e : Run.Step Env Event) : Prop
  | created {commitment : Int} (hcreated : createdCommitment grantId e = some commitment)
      (hnone : e.before.confidentialGrantCommitment grantId = none) (hid : grantId < U64.size)
      (hpos : 0 < commitment) (hlt : commitment < zkCommitmentModulus)
      (hafter : e.after.confidentialGrantCommitment grantId = some commitment)
      (hclaim : acceptedClaim e = none)
  | claimed {claim : ConfidentialClaim} {before : Int} (hclaim : acceptedClaim e = some claim)
      (hcreated : createdCommitment grantId e = none) (hgrant : claim.grantId = grantId)
      (hbefore : e.before.confidentialGrantCommitment grantId = some before)
      (hpos : 0 < claim.amount) (hmax : claim.amount ≤ zkCommitmentModulus)
      (hle : claim.taken ≤ before)
      (hafter : e.after.confidentialGrantCommitment grantId = some (before - claim.taken))
      (hpaid : transferred grantId e = claim.amount)
  | kept (hother : ∀ claim ∈ acceptedClaim e, claim.grantId ≠ grantId)
      (hcreated : createdCommitment grantId e = none)
      (hafter : e.after.confidentialGrantCommitment grantId =
        e.before.confidentialGrantCommitment grantId)

theorem transferred_of_other {grantId : Nat} {e : Run.Step Env Event}
    (h : ∀ claim ∈ acceptedClaim e, claim.grantId ≠ grantId) : transferred grantId e = 0 := by
  unfold transferred
  cases hclaim : acceptedClaim e with
  | none => rfl
  | some claim => exact if_neg (h claim hclaim)

theorem commitmentEffect_of_next {e : Run.Step Env Event} (hn : Next e.before e.action e.after)
    (grantId : Nat) : CommitmentEffect grantId e := by
  cases confidentialStep_of_next hn with
  | @created id recipient commitment verifierKeyHash hcall hnone hid hpos hlt hafter =>
      have hclaim : acceptedClaim e = none := by
        unfold acceptedClaim
        rw [hcall]
      have hcreated : createdCommitment grantId e =
          if id = grantId then some commitment else none := by
        unfold createdCommitment
        rw [hcall]
      by_cases hgrant : id = grantId
      · subst hgrant
        rw [if_pos rfl] at hcreated
        refine .created hcreated hnone hid hpos hlt ?_ hclaim
        rw [hafter, Function.update_self]
      · rw [if_neg hgrant] at hcreated
        refine .kept (by simp [hclaim]) hcreated ?_
        rw [hafter, Function.update_of_ne (Ne.symm hgrant)]
  | @claimed claim before _ hclaim hcreated hbefore hpos hmax hle _ _ hafter hlog =>
      by_cases hgrant : claim.grantId = grantId
      · subst hgrant
        refine .claimed hclaim (hcreated _) rfl hbefore hpos hmax hle ?_ ?_
        · rw [hafter, Function.update_self]
        · unfold transferred
          rw [hclaim]
          dsimp only
          rw [if_pos rfl, hlog]
          simp
      · refine .kept (by simp [hclaim, hgrant]) (hcreated grantId) ?_
        rw [hafter, Function.update_of_ne (Ne.symm hgrant)]
  | kept hclaim hcreated hafter =>
      exact .kept (by simp [hclaim]) (hcreated grantId) (congrFun hafter grantId)

/-- The commitment with which the grant was created. -/
def initialCommitment (grantId : Nat) (trace : Trace) : Option Int :=
  trace.findSome? (createdCommitment grantId)

theorem initialCommitment_cons (grantId : Nat) (e : Run.Step Env Event) (trace : Trace) :
    initialCommitment grantId (e :: trace) =
      (createdCommitment grantId e).or (initialCommitment grantId trace) := by
  unfold initialCommitment
  rw [List.findSome?_cons]
  cases createdCommitment grantId e <;> rfl

/-- What was paid for all claims on the grant. -/
def claimsPaid (grantId : Nat) (trace : Trace) : Int := (trace.map (transferred grantId)).sum

theorem claimsPaid_cons (grantId : Nat) (e : Run.Step Env Event) (trace : Trace) :
    claimsPaid grantId (e :: trace) = transferred grantId e + claimsPaid grantId trace := rfl

/-- A commitment in range, or no grant and no payments. -/
def CommitmentInRange (grantId : Nat) (trace : Trace) (env : Env) : Prop :=
  match env.confidentialGrantCommitment grantId with
  | some commitment => grantId < U64.size ∧ 0 ≤ commitment ∧ commitment < zkCommitmentModulus
  | none => claimsPaid grantId trace = 0

theorem taken_nonneg (claim : ConfidentialClaim) : 0 ≤ claim.taken :=
  Int.emod_nonneg _ (by decide)

theorem commitmentInRange_of_reachable {trace : Trace} {env : Env} (h : Reachable trace env)
    (grantId : Nat) : CommitmentInRange grantId trace env := by
  induction h with
  | start h =>
      obtain ⟨_, _, _, rfl⟩ := h
      rfl
  | @step trace env event env' hrun hn ih =>
      unfold CommitmentInRange at ih ⊢
      cases commitmentEffect_of_next (e := ⟨env, event, env'⟩) hn grantId with
      | created _ _ hid hpos hlt hafter _ =>
          dsimp only at hafter
          rw [hafter]
          exact ⟨hid, hpos.le, hlt⟩
      | @claimed claim before _ _ _ hbefore _ _ hle hafter _ =>
          dsimp only at hbefore hafter
          rw [hbefore] at ih
          rw [hafter]
          have hnonneg := taken_nonneg claim
          obtain ⟨hid, -, hlt⟩ := ih
          exact ⟨hid, by omega, by omega⟩
      | kept hother _ hafter =>
          dsimp only at hafter
          rw [hafter, claimsPaid_cons, transferred_of_other hother, Int.zero_add]
          exact ih

/-- The commitment of the grant has lost what was paid for claims on it, and no more than
it had. -/
def PaidAsCommitted (grantId : Nat) (trace : Trace) (env : Env) : Prop :=
  ∀ current, env.confidentialGrantCommitment grantId = some current →
    0 ≤ current ∧ ∃ initial, initialCommitment grantId trace = some initial ∧
      initial - current = claimsPaid grantId trace

theorem taken_eq_amount_iff {claim : ConfidentialClaim} (hpos : 0 < claim.amount)
    (hmax : claim.amount ≤ zkCommitmentModulus) :
    claim.taken = claim.amount ↔ claim.amount ≠ zkCommitmentModulus := by
  unfold ConfidentialClaim.taken
  constructor
  · intro htaken heq
    rw [heq, Int.emod_self] at htaken
    exact absurd htaken (by decide)
  · intro hne
    exact Int.emod_eq_of_lt hpos.le (lt_of_le_of_ne hmax hne)

/-- A step keeps the balance of a grant exactly if it does not claim the modulus. -/
theorem paidAsCommitted_iff {e : Run.Step Env Event} {older : Trace}
    (hrun : Reachable older e.before) (hn : Next e.before e.action e.after) {grantId : Nat}
    (h : PaidAsCommitted grantId older e.before) :
    PaidAsCommitted grantId (e :: older) e.after ↔
      ∀ claim ∈ acceptedClaim e, claim.grantId = grantId → claim.amount ≠ zkCommitmentModulus := by
  unfold PaidAsCommitted at h ⊢
  cases commitmentEffect_of_next hn grantId with
  | @created commitment hcreated hnone hid hpos hlt hafter hclaim =>
      have hunpaid := commitmentInRange_of_reachable hrun grantId
      unfold CommitmentInRange at hunpaid
      rw [hnone] at hunpaid
      rw [hafter, initialCommitment_cons, hcreated, claimsPaid_cons,
        transferred_of_other (by simp [hclaim]), hunpaid]
      refine iff_of_true ?_ (by simp [hclaim])
      rintro _ ⟨⟩
      exact ⟨hpos.le, commitment, rfl, by omega⟩
  | @claimed claim before hclaim hcreated hgrant hbefore hpos hmax hle hafter hpaid =>
      obtain ⟨hnonneg, initial, hinitial, hsum⟩ := h before hbefore
      have hcondition : (∀ claim' ∈ acceptedClaim e, claim'.grantId = grantId →
          claim'.amount ≠ zkCommitmentModulus) ↔ claim.taken = claim.amount := by
        rw [hclaim, taken_eq_amount_iff hpos hmax]
        simp [hgrant]
      rw [hcondition, hafter, initialCommitment_cons, hcreated, Option.none_or, hinitial,
        claimsPaid_cons, hpaid, ← hsum]
      constructor
      · intro hkept
        obtain ⟨-, _, hsame, htotal⟩ := hkept _ rfl
        obtain rfl := Option.some.inj hsame
        omega
      · rintro htaken _ ⟨⟩
        exact ⟨by omega, initial, rfl, by omega⟩
  | kept hother hcreated hafter =>
      refine iff_of_true ?_ fun claim hclaim hgrant => absurd hgrant (hother claim hclaim)
      rw [hafter, initialCommitment_cons, hcreated, Option.none_or, claimsPaid_cons,
        transferred_of_other hother, Int.zero_add]
      exact h

/-! ### Replays -/

/-- The claim does not ask for the modulus itself. -/
def BelowModulus (e : Run.Step Env Event) (_ : Trace) : Prop :=
  ∀ claim ∈ acceptedClaim e, claim.amount ≠ zkCommitmentModulus

instance (e : Run.Step Env Event) (older : Trace) : Decidable (BelowModulus e older) :=
  inferInstanceAs (Decidable (∀ _ ∈ _, _))

/-- The commitment on which a claim was accepted never comes back. -/
theorem spent_of_each {trace : Trace} {env : Env} (h : Reachable trace env)
    (hall : Run.Each BelowModulus trace) {e : Run.Step Env Event} (he : e ∈ trace)
    {claim : ConfidentialClaim} {before : Int} (hclaim : acceptedClaim e = some claim)
    (hbefore : e.before.confidentialGrantCommitment claim.grantId = some before) :
    ∃ current < before, env.confidentialGrantCommitment claim.grantId = some current := by
  induction h with
  | start => cases he
  | @step trace env event env' hrun hn ih =>
      have heffect := commitmentEffect_of_next (e := ⟨env, event, env'⟩) hn claim.grantId
      rcases List.mem_cons.mp he with rfl | he
      · cases heffect with
        | created _ _ _ _ _ _ hnone => cases hnone.symm.trans hclaim
        | @claimed claim' before' hclaim' _ _ hbefore' hpos hmax _ hafter _ =>
            obtain rfl := Option.some.inj (hclaim'.symm.trans hclaim)
            obtain rfl := Option.some.inj (hbefore'.symm.trans hbefore)
            have htaken := (taken_eq_amount_iff hpos hmax).mpr (hall.1 _ hclaim)
            exact ⟨_, by omega, hafter⟩
        | kept hother _ _ => exact absurd rfl (hother claim hclaim)
      · obtain ⟨current, hlt, hcurrent⟩ := ih hall.2 he
        cases heffect with
        | created _ hnone _ _ _ _ _ => cases hnone.symm.trans hcurrent
        | @claimed claim' before' _ _ _ hbefore' _ _ _ hafter _ =>
            obtain rfl := Option.some.inj (hbefore'.symm.trans hcurrent)
            have hnonneg := taken_nonneg claim'
            exact ⟨_, by omega, hafter⟩
        | kept _ _ hafter => exact ⟨current, hlt, hafter.trans hcurrent⟩

/-- The XDR encoding of `i128` values: they all have the same length, and different ones
have different encodings. -/
structure EncodesI128 (xdr : Int → Bytes) : Prop where
  length : ∀ x y, I128.InRange x → I128.InRange y → (xdr x).length = (xdr y).length
  injective : ∀ x y, I128.InRange x → I128.InRange y → xdr x = xdr y → x = y

/-- The hash is different for the different inputs of the claims that were accepted. -/
def ProofsApart (trace : Trace) (host : HostFunctions) : Prop :=
  ∀ x ∈ trace.filterMap proofInput, ∀ y ∈ trace.filterMap proofInput,
    host.sha256 x = host.sha256 y → x = y

instance (trace : Trace) (host : HostFunctions) : Decidable (ProofsApart trace host) :=
  inferInstanceAs (Decidable (∀ _ ∈ _, ∀ _ ∈ _, _))

/-- The hashed inputs tell the grant and its commitment. -/
theorem publicInputs_binds {host : HostFunctions} (henc : EncodesI128 host.i128ToXdr)
    {claim claim' : ConfidentialClaim} {before before' : Int} {key key' : Bytes}
    (hid : claim.grantId < U64.size) (hid' : claim'.grantId < U64.size)
    (hrange : I128.InRange before) (hrange' : I128.InRange before')
    (h : publicInputs host claim before key = publicInputs host claim' before' key') :
    claim.grantId = claim'.grantId ∧ before = before' := by
  unfold publicInputs at h
  simp only [List.append_assoc] at h
  obtain ⟨hgrant, hrest⟩ := List.append_inj h (by rw [length_toBeBytes, length_toBeBytes])
  have hbefore := List.append_inj_left hrest (henc.length _ _ hrange hrange')
  exact ⟨toBeBytes_injective hid hid' hgrant, henc.injective _ _ hrange hrange' hbefore⟩

theorem host_of_mem {trace : Trace} {env : Env} (h : Reachable trace env)
    {e : Run.Step Env Event} (he : e ∈ trace) : e.before.host = env.host := by
  induction h with
  | start => cases he
  | @step trace env event env' hrun hn ih =>
      have hsame : env'.host = env.host := host_of_next (e := ⟨env, event, env'⟩) hn
      rcases List.mem_cons.mp he with rfl | he
      · exact hsame.symm
      · exact (ih he).trans hsame.symm

/-- The nullifier and the proof that the step accepted. -/
def acceptedPair (e : Run.Step Env Event) : Option (Bytes × Bytes) :=
  (acceptedClaim e).map fun claim => (claim.nullifier, claim.proof)

/-- An accepted proof is for a commitment in range. -/
theorem accepted_inputs {older : Trace} {e : Run.Step Env Event}
    (hrun : Reachable older e.before) (hn : Next e.before e.action e.after)
    {claim : ConfidentialClaim} (hclaim : acceptedClaim e = some claim) :
    ∃ before key, e.before.confidentialGrantCommitment claim.grantId = some before ∧
      claim.grantId < U64.size ∧ I128.InRange before ∧
      proofInput e = some (publicInputs e.before.host claim before key) ∧
      claim.proof = e.before.host.sha256 (publicInputs e.before.host claim before key) := by
  cases confidentialStep_of_next hn with
  | created hcall _ _ _ _ _ =>
      unfold acceptedClaim at hclaim
      rw [hcall] at hclaim
      cases hclaim
  | @claimed claim' before key hclaim' _ hbefore _ _ _ hinput hproof _ _ =>
      obtain rfl := Option.some.inj (hclaim'.symm.trans hclaim)
      have hrange := commitmentInRange_of_reachable hrun claim'.grantId
      unfold CommitmentInRange at hrange
      rw [hbefore] at hrange
      obtain ⟨hid, hnonneg, hlt⟩ := hrange
      have hin : I128.InRange before :=
        I128.InRange.of_nonneg_of_le (by decide) hnonneg hlt.le
      exact ⟨before, key, hbefore, hid, hin, hinput, hproof⟩
  | kept hnone _ _ => cases hnone.symm.trans hclaim

theorem acceptedPair_fresh {older : Trace} {e : Run.Step Env Event}
    (h : Reachable (e :: older) e.after) (hall : Run.Each BelowModulus older)
    (henc : EncodesI128 e.after.host.i128ToXdr) (hapart : ProofsApart (e :: older) e.after.host) :
    ∀ pair ∈ acceptedPair e, pair ∉ older.filterMap acceptedPair := by
  obtain ⟨hrun, hn, -⟩ := h.uncons
  intro pair hpair hmem
  obtain ⟨e', he', hpair'⟩ := List.mem_filterMap.mp hmem
  obtain ⟨claim, hclaim, rfl⟩ := Option.map_eq_some_iff.mp hpair
  obtain ⟨claim', hclaim', hsame⟩ := Option.map_eq_some_iff.mp hpair'
  have hproofs : claim'.proof = claim.proof := congrArg Prod.snd hsame
  obtain ⟨before, key, hbefore, hid, hrange, hinput, hproof⟩ := accepted_inputs hrun hn hclaim
  obtain ⟨older', hrun', hn'⟩ := Run.of_mem hrun he'
  obtain ⟨before', key', hbefore', hid', hrange', hinput', hproof'⟩ :=
    accepted_inputs hrun' hn' hclaim'
  -- equal proofs are hashes of equal inputs, so both claims were on one commitment
  rw [host_of_mem h (List.mem_cons_self ..)] at hinput hproof
  rw [host_of_mem h (List.mem_cons_of_mem _ he')] at hinput' hproof'
  have hinputs := hapart _ (List.mem_filterMap.mpr ⟨e, List.mem_cons_self .., hinput⟩) _
    (List.mem_filterMap.mpr ⟨e', List.mem_cons_of_mem _ he', hinput'⟩)
    (hproof.symm.trans (hproofs.symm.trans hproof'))
  obtain ⟨hgrant, rfl⟩ := publicInputs_binds henc hid hid' hrange hrange' hinputs
  obtain ⟨current, hlt, hcurrent⟩ := spent_of_each hrun hall he' hclaim' hbefore'
  rw [← hgrant, hbefore] at hcurrent
  obtain rfl := Option.some.inj hcurrent
  exact absurd hlt (lt_irrefl _)

theorem ProofsApart.tail {trace : Trace} {host : HostFunctions} {e : Run.Step Env Event}
    (h : ProofsApart (e :: trace) host) : ProofsApart trace host := by
  have hsub : trace.filterMap proofInput ⊆ (e :: trace).filterMap proofInput :=
    ((List.sublist_cons_self e trace).filterMap proofInput).subset
  exact fun x hx y hy => h x (hsub hx) y (hsub hy)

/-- No pair of a nullifier and a proof is accepted twice, expired or not. -/
theorem accepted_once {trace : Trace} {env : Env} (h : Reachable trace env)
    (hall : Run.Each BelowModulus trace) (henc : EncodesI128 env.host.i128ToXdr)
    (hapart : ProofsApart trace env.host) :
    Run.Each (fun e older => ((e :: older).filterMap acceptedPair).Nodup) trace ∧
      (trace.filterMap acceptedPair).Nodup := by
  induction h with
  | start => exact ⟨trivial, List.nodup_nil⟩
  | @step trace env event env' hrun hn ih =>
      have hhost : env'.host = env.host := host_of_next (e := ⟨env, event, env'⟩) hn
      have hfresh := acceptedPair_fresh (.step hrun hn) hall.2 henc hapart
      rw [hhost] at henc hapart
      obtain ⟨heach, hnodup⟩ := ih hall.2 henc hapart.tail
      have hnodup' : ((⟨env, event, env'⟩ :: trace : Trace).filterMap acceptedPair).Nodup := by
        cases hpair : acceptedPair ⟨env, event, env'⟩ with
        | none =>
            rw [List.filterMap_cons_none hpair]
            exact hnodup
        | some pair =>
            rw [List.filterMap_cons_some hpair, List.nodup_cons]
            exact ⟨hfresh pair hpair, hnodup⟩
      exact ⟨⟨hnodup', heach⟩, hnodup'⟩

/-- Every commitment has lost what was paid, and no pair was accepted twice. -/
def ClaimsSound (trace : Trace) (env : Env) : Prop :=
  (∀ grantId, PaidAsCommitted grantId trace env) ∧ (trace.filterMap acceptedPair).Nodup

/-- **Confidential claims.** In every run, claims are sound at every step exactly if none of
them asks for the modulus. -/
theorem confidential_claims {trace : Trace} {env : Env} (h : Reachable trace env)
    (henc : EncodesI128 env.host.i128ToXdr) (hapart : ProofsApart trace env.host) :
    Run.Each (fun e older => ClaimsSound (e :: older) e.after) trace ↔
      Run.Each BelowModulus trace := by
  have hpaid : Run.Each (fun e older => ∀ grantId,
      PaidAsCommitted grantId (e :: older) e.after) trace ↔ Run.Each BelowModulus trace := by
    refine Run.each_iff_of_step
      (I := fun trace env => ∀ grantId, PaidAsCommitted grantId trace env) ?_ ?_ h
    · rintro env ⟨_, _, _, rfl⟩ grantId current hcurrent
      cases hcurrent
    · intro e older hrun hn hbefore
      constructor
      · intro hafter claim hclaim
        exact (paidAsCommitted_iff hrun hn (hbefore _)).mp (hafter claim.grantId) claim hclaim rfl
      · intro hbelow grantId
        exact (paidAsCommitted_iff hrun hn (hbefore _)).mpr fun claim hclaim _ =>
          hbelow claim hclaim
  unfold ClaimsSound
  rw [Run.each_and, hpaid]
  exact and_iff_left_of_imp fun hall => (accepted_once h hall henc hapart).1

namespace Demo

/-- An `i128` as an XDR value: the tag and 16 bytes. -/
def i128ToXdr (x : Int) : Bytes := AuditLog.toBeBytes 4 10 ++ AuditLog.i128ToBeBytes x

theorem encodesI128 : EncodesI128 i128ToXdr where
  length x y _ _ := by
    unfold i128ToXdr
    rw [List.length_append, List.length_append, length_i128ToBeBytes, length_i128ToBeBytes]
  injective x y hx hy h := i128ToBeBytes_injective hx hy (List.append_cancel_left h)

/-- The inputs for claims of 400 and 600 on a commitment of 1000, and for a claim of the
modulus on it, with their digests. -/
def proofs : List (Bytes × Bytes) :=
  let input (before after amount : Int) : Bytes :=
    AuditLog.toBeBytes 8 9 ++ i128ToXdr before ++ i128ToXdr after ++ i128ToXdr amount ++ [7] ++
      [1, 2, 3]
  [(input 1000 600 400, AuditLog.toBeBytes 32
      0xf12f56ba2673500a19d119b57db05875fdc51d567fbd27039700ded174e0893a),
    (input 600 0 600, AuditLog.toBeBytes 32
      0x17f0de488ad3ba06262edf622fa6ae7745f52792292125f3d17539e162192b6c),
    (input 1000 1000 zkCommitmentModulus, AuditLog.toBeBytes 32
      0xc160d071eab3391c6f39013f7af0838fd14cd89d06a3839fc0cc80a52349436d)]

def proof (i : Nat) : Bytes := (proofs[i]?.map Prod.snd).getD []

/-- A contract whose host computes these digests. -/
def proving : Env :=
  .deployed self
    { sha256 := fun x => (proofs.lookup x).getD AuditLog.zeroHash, i128ToXdr
      grantToXdr := fun _ => [] }
    { balance := fun _ _ => 0, log := [] }

theorem proving_deployed : Deployed proving := ⟨_, _, _, rfl⟩

def confidential : List Event := Demo.setUp (2 ^ 127 - 1) ++
  [call 1 (.createConfidentialGrant 9 grantee 1000 [1, 2, 3])]

end Demo

/-- A claim, the same claim again after its nullifier expired, which is rejected, and another
claim with that nullifier. -/
theorem confidential_claims_of_expired_nullifier :
    let run := history Demo.proving (Demo.confidential ++
      [Demo.call 2 (.confidentialClaim 9 400 [7] (Demo.proof 0)),
        { timestamp := 3, sequence := 0, transaction := .nullifierExpiry [7] },
        Demo.call 4 (.confidentialClaim 9 400 [7] (Demo.proof 0)),
        Demo.call 5 (.confidentialClaim 9 600 [7] (Demo.proof 1))])
    claimsPaid 9 run.1 = 1000 ∧
      Run.Each (fun e older => ClaimsSound (e :: older) e.after) run.1 := by
  intro run
  have hrun : Reachable run.1 run.2 := history_reachable Demo.proving_deployed (by decide)
  refine ⟨by decide, ?_⟩
  exact (confidential_claims hrun Demo.encodesI128 (by decide)).mpr (by decide)

/-- A claim of the modulus takes nothing from the commitment. -/
theorem confidential_claims_modulus :
    ¬∀ trace env, Reachable trace env → EncodesI128 env.host.i128ToXdr →
      ProofsApart trace env.host → ∀ grantId, PaidAsCommitted grantId trace env := by
  intro h
  let run := history Demo.proving (Demo.confidential ++
    [Demo.call 2 (.confidentialClaim 9 zkCommitmentModulus [7] (Demo.proof 2))])
  have hrun : Reachable run.1 run.2 := history_reachable Demo.proving_deployed (by decide)
  obtain ⟨-, initial, hinitial, hpaid⟩ :=
    h run.1 run.2 hrun Demo.encodesI128 (by decide) 9 1000 (by decide)
  obtain rfl : (1000 : Int) = initial := Option.some.inj hinitial
  exact absurd hpaid (by decide)

end YieldTrust.GrantStream
