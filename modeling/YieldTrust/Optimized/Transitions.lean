import YieldTrust.Optimized.Contract

/-!
# YieldTrust.Optimized.Transitions

What a call that goes through does to the grants: nothing, it creates one, or it takes one
through a `Transition`. Everything about the lives of grants is read off this inversion, not
off the entry points.
-/

namespace YieldTrust.Optimized

open Fallible
open GrantStream (Address Bytes)

variable {host : Host} {env env' : Env} {grant grant' settled : Grant} {grantId now : Nat}

/-! ### Flags -/

section Flags

variable {mask flag other : StatusMask}

theorem hasStatus_eq_false : hasStatus mask flag = false ↔ mask &&& flag = 0 := by
  simp [hasStatus]

@[simp] theorem hasStatus_setStatus :
    hasStatus (setStatus mask flag) other = (hasStatus mask other || hasStatus flag other) := by
  rw [Bool.eq_iff_iff, Bool.or_eq_true, ← not_iff_not, not_or]
  simp only [Bool.not_eq_true, hasStatus_eq_false, setStatus]
  rw [BitVec.and_or_distrib_right]
  exact BitVec.or_eq_zero_iff

@[simp] theorem hasStatus_clearStatus_self : hasStatus (clearStatus mask flag) flag = false := by
  rw [hasStatus_eq_false, clearStatus, BitVec.and_assoc, BitVec.and_comm (~~~flag)]
  simp

@[simp] theorem hasStatus_clearStatus_of_disjoint (h : hasStatus flag other = false) :
    hasStatus (clearStatus mask flag) other = hasStatus mask other := by
  rw [hasStatus_eq_false] at h
  have hother : ~~~flag &&& other = other := by
    ext i hi
    have hbit : (flag &&& other)[i] = false := by simp [h]
    simp at hbit ⊢
    intro hset
    cases hflag : flag[i] with
    | false => rfl
    | true => exact absurd (hbit hflag) (by simp [hset])
  rw [hasStatus, hasStatus, clearStatus, BitVec.and_assoc, hother]

/-- The flags of a life are different bits, and so is the one of a self-termination. -/
@[simp] theorem flags_disjoint :
    (hasStatus statusActive statusPaused = false ∧ hasStatus statusActive statusCompleted = false ∧
      hasStatus statusActive statusCancelled = false) ∧
    (hasStatus statusPaused statusActive = false ∧ hasStatus statusPaused statusCompleted = false ∧
      hasStatus statusPaused statusCancelled = false) ∧
    (hasStatus statusCompleted statusActive = false ∧
      hasStatus statusCompleted statusPaused = false ∧
      hasStatus statusCompleted statusCancelled = false) ∧
    (hasStatus statusCancelled statusActive = false ∧
      hasStatus statusCancelled statusPaused = false ∧
      hasStatus statusCancelled statusCompleted = false) ∧
    (hasStatus statusRageQuit statusActive = false ∧ hasStatus statusRageQuit statusPaused = false ∧
      hasStatus statusRageQuit statusCompleted = false ∧
      hasStatus statusRageQuit statusCancelled = false) ∧
    (hasStatus statusSelfTerminated statusActive = false ∧
      hasStatus statusSelfTerminated statusPaused = false ∧
      hasStatus statusSelfTerminated statusCompleted = false ∧
      hasStatus statusSelfTerminated statusCancelled = false) := by
  decide

@[simp] theorem flags_self :
    hasStatus statusActive statusActive = true ∧ hasStatus statusPaused statusPaused = true ∧
      hasStatus statusCompleted statusCompleted = true ∧
      hasStatus statusCancelled statusCancelled = true := by
  decide

end Flags

/-! ### Settlement -/

/-- What a settlement leaves: only an active grant accrues, at its rate, and it is completed
when everything has accrued. -/
inductive Settlement (grant : Grant) (now : Nat) : Grant → Prop
  | idle (hidle : hasStatus grant.statusMask statusActive = false ∨ now = grant.lastUpdateTs ∨
      grant.flowRate = 0) : Settlement grant now { grant with lastUpdateTs := now }
  | accrued (hactive : hasStatus grant.statusMask statusActive = true)
      (htime : grant.lastUpdateTs < now) (hrate : 0 < grant.flowRate)
      (hbelow : grant.withdrawn + (grant.claimable +
        grant.flowRate * (now - grant.lastUpdateTs : Nat)) < grant.totalAmount) :
      Settlement grant now
        { grant with
          lastUpdateTs := now
          claimable := grant.claimable + grant.flowRate * (now - grant.lastUpdateTs : Nat) }
  | completed (delta : Int) (hactive : hasStatus grant.statusMask statusActive = true)
      (htime : grant.lastUpdateTs < now) (hrate : 0 < grant.flowRate) (hnonneg : 0 ≤ delta)
      (hle : delta ≤ grant.flowRate * (now - grant.lastUpdateTs : Nat))
      (hfull : grant.withdrawn + (grant.claimable + delta) = grant.totalAmount) :
      Settlement grant now
        { grant with
          lastUpdateTs := now
          claimable := grant.claimable + delta
          statusMask := clearStatus (setStatus grant.statusMask statusCompleted) statusActive }

theorem settleGrant_eq_ok (h : settleGrant grant now = .ok settled) :
    Settlement grant now settled := by
  unfold settleGrant at h
  obtain ⟨_, hle, h⟩ := bind_eq_ok.mp h
  rw [ensure_eq_ok] at hle
  dsimp only at h
  split at h
  · case isTrue hidle =>
    rw [← pure_eq_ok.mp h]
    simp only [Bool.or_eq_true, Bool.not_eq_true', beq_iff_eq, or_assoc] at hidle
    exact .idle (hidle.imp_right (Or.imp_left fun h => by omega))
  · case isFalse hbusy =>
    simp only [Bool.or_eq_true, Bool.not_eq_true', beq_iff_eq, not_or, Bool.not_eq_false]
      at hbusy
    obtain ⟨⟨hactive, helapsed⟩, hne⟩ := hbusy
    simp only [bind_eq_ok, ensure_eq_ok, okOr_eq_ok, I128.checkedMul_eq_some,
      I128.checkedAdd_eq_some, I128.checkedSub_eq_some] at h
    obtain ⟨-, hrate, accrued, ⟨-, haccrued⟩, _, ⟨-, rfl⟩, -, haccounted, remaining,
      ⟨-, hremaining⟩, claimable, ⟨-, hclaimable⟩, _, ⟨-, rfl⟩, h⟩ := h
    have htime : grant.lastUpdateTs < now := by omega
    have hrate : 0 < grant.flowRate := by omega
    have hnonneg : 0 ≤ accrued :=
      haccrued ▸ Int.mul_nonneg hrate.le (Int.natCast_nonneg (now - grant.lastUpdateTs))
    split at h
    · case isTrue hfull =>
      rw [← pure_eq_ok.mp h]
      rw [← hclaimable] at hfull ⊢
      refine .completed _ hactive htime hrate ?_ ?_ hfull
      · split <;> omega
      · rw [haccrued]
        split <;> omega
    · case isFalse hbelow =>
      rw [← pure_eq_ok.mp h]
      have hall : claimable = grant.claimable + accrued := by
        split at hclaimable <;> omega
      rw [hall, ← haccrued] at hbelow ⊢
      refine .accrued hactive htime hrate ?_
      split at hclaimable <;> omega

/-! ### Expiry -/

/-- The milestone deadline of the grant has passed, and the grant was not closed in time. -/
structure Expired (grant : Grant) (now : Nat) : Prop where
  milestoneBased : hasStatus grant.statusMask statusMilestoneBased = true
  not_cancelled : hasStatus grant.statusMask statusCancelled = false
  not_completed : hasStatus grant.statusMask statusCompleted = false
  not_rageQuit : hasStatus grant.statusMask statusRageQuit = false
  deadline_ne : grant.milestoneDeadline ≠ 0
  deadline_lt : grant.milestoneDeadline < now
  unmet : grant.milestoneMet = false

instance (grant : Grant) (now : Nat) : Decidable (Expired grant now) :=
  decidable_of_iff
    (hasStatus grant.statusMask statusMilestoneBased = true ∧
      hasStatus grant.statusMask statusCancelled = false ∧
      hasStatus grant.statusMask statusCompleted = false ∧
      hasStatus grant.statusMask statusRageQuit = false ∧ grant.milestoneDeadline ≠ 0 ∧
      grant.milestoneDeadline < now ∧ grant.milestoneMet = false)
    ⟨fun ⟨h₁, h₂, h₃, h₄, h₅, h₆, h₇⟩ => ⟨h₁, h₂, h₃, h₄, h₅, h₆, h₇⟩,
      fun ⟨h₁, h₂, h₃, h₄, h₅, h₆, h₇⟩ => ⟨h₁, h₂, h₃, h₄, h₅, h₆, h₇⟩⟩

/-- The time at which an expired grant is settled. -/
def Grant.cancelSettleTs (grant : Grant) : Nat :=
  if grant.lastUpdateTs < grant.milestoneDeadline then grant.milestoneDeadline
  else grant.lastUpdateTs

/-- A grant that was settled at its expiry, cancelled. -/
def Grant.autoCancelled (settled : Grant) : Grant :=
  { settled with
    statusMask := clearStatus (clearStatus (setStatus settled.statusMask statusCancelled)
      statusActive) statusPaused
    flowRate := 0 }

theorem maybeAutoCancelMilestoneExpiry_eq_ok {result : Env × Grant × Bool}
    (h : maybeAutoCancelMilestoneExpiry env grantId grant = .ok result) :
    (¬Expired grant env.timestamp ∧ result = (env, grant, false)) ∨
      ∃ settled, Expired grant env.timestamp ∧
        settleGrant grant grant.cancelSettleTs = .ok settled ∧
        result = (writeGrant env grantId settled.autoCancelled, settled.autoCancelled, true) := by
  unfold maybeAutoCancelMilestoneExpiry at h
  split at h
  · case isTrue hbased =>
    refine .inl ⟨fun hexpired => ?_, (pure_eq_ok.mp h).symm⟩
    simp [hexpired.milestoneBased] at hbased
  · case isFalse hbased =>
    split at h
    · case isTrue hclosed =>
      refine .inl ⟨fun hexpired => ?_, (pure_eq_ok.mp h).symm⟩
      simp [hexpired.not_cancelled, hexpired.not_completed, hexpired.not_rageQuit] at hclosed
    · case isFalse hopen =>
      split at h
      · case isTrue hearly =>
        refine .inl ⟨fun hexpired => ?_, (pure_eq_ok.mp h).symm⟩
        have hlate := hexpired.deadline_lt
        rcases hearly with hdeadline | hle | hmet
        · exact hexpired.deadline_ne hdeadline
        · omega
        · simp [hexpired.unmet] at hmet
      · case isFalse hdue =>
        obtain ⟨settled, hsettle, h⟩ := bind_eq_ok.mp h
        simp only [Bool.or_eq_true, not_or, Bool.not_eq_true] at hopen
        obtain ⟨hdeadline, hlate, hunmet⟩ := not_or.mp hdue |>.imp id not_or.mp
        refine .inr ⟨settled, ?_, hsettle, (pure_eq_ok.mp h).symm⟩
        exact { milestoneBased := by simpa using hbased, not_cancelled := hopen.1.1
                not_completed := hopen.1.2, not_rageQuit := hopen.2, deadline_ne := hdeadline
                deadline_lt := Nat.lt_of_not_le hlate, unmet := by simpa using hunmet }

/-! ### Transitions -/

/-- A settled grant out of which `amount` is withdrawn. -/
def Grant.paid (settled : Grant) (amount : Int) : Grant :=
  { settled with
    claimable := settled.claimable - amount
    withdrawn := settled.withdrawn + amount
    statusMask :=
      if settled.withdrawn + amount + (settled.claimable - amount) = settled.totalAmount then
        clearStatus (setStatus settled.statusMask statusCompleted) statusActive
      else settled.statusMask }

/-- The grant with one more approval. -/
def Grant.approvedBy (grant : Grant) (oracle : Bytes) : Grant :=
  if grant.milestoneThreshold ≤ (grant.milestoneApprovers ++ [oracle]).length then
    { grant with
      milestoneApprovers := grant.milestoneApprovers ++ [oracle]
      milestoneMet := true
      statusMask :=
        if hasStatus grant.statusMask statusPaused then
          setStatus (clearStatus grant.statusMask statusPaused) statusActive
        else grant.statusMask }
  else { grant with milestoneApprovers := grant.milestoneApprovers ++ [oracle] }

/-- A settled grant that its grantee quits. -/
def Grant.quit (settled : Grant) : Grant :=
  { settled with
    statusMask := clearStatus (clearStatus (setStatus (setStatus settled.statusMask
      statusCompleted) statusRageQuit) statusPaused) statusActive
    flowRate := 0
    withdrawn := settled.withdrawn + settled.claimable
    claimable := 0 }

/-- A grant that is created at the time `now`. -/
def Grant.created (recipient : Address) (totalAmount flowRate : Int)
    (initialStatusMask : StatusMask) (now : Nat) : Grant :=
  { recipient, totalAmount, withdrawn := 0, claimable := 0, flowRate
    lastUpdateTs := now, rateUpdatedAt := now, statusMask := initialStatusMask
    milestoneDeadline := 0, milestoneMet := false, milestoneThreshold := 0
    milestoneDisputeWindowSecs := 0, milestoneEvidenceHash := none
    msEvidenceSubmittedAt := 0, milestoneDisputeWindowEnd := 0
    milestoneOracles := [], milestoneApprovers := [] }

/-- The calls that cancel an expired grant and go through. -/
def Call.mayExpire : Call → Option Nat
  | .getGrant grantId | .claimableBitmask grantId | .processMilestoneExpiry grantId => some grantId
  | _ => none

/-- `Transition host env grantId grant call grant'`: the call takes the grant to `grant'`. -/
inductive Transition (host : Host) (env : Env) (grantId : Nat) (grant : Grant) :
    Call → Grant → Prop
  | cancelled (settled : Grant)
      (hvalid : validateStatusTransition grant.statusMask
        (setStatus grant.statusMask statusCancelled) = .ok ())
      (hsettle : settleGrant grant env.timestamp = .ok settled) :
      Transition host env grantId grant (.cancelGrantBitmask grantId)
        { settled with
          statusMask := setStatus grant.statusMask statusCancelled, flowRate := 0 }
  | paused (settled : Grant) (hactive : hasStatus grant.statusMask statusActive = true)
      (hsettle : settleGrant grant env.timestamp = .ok settled) :
      Transition host env grantId grant (.pauseGrant grantId)
        { settled with
          statusMask := clearStatus (setStatus grant.statusMask statusPaused) statusActive }
  | resumed (settled : Grant) (hpaused : hasStatus grant.statusMask statusPaused = true)
      (hsettle : settleGrant grant env.timestamp = .ok settled) :
      Transition host env grantId grant (.resumeGrant grantId)
        { settled with
          statusMask := clearStatus (setStatus grant.statusMask statusActive) statusPaused }
  | flagged (flagsToSet flagsToClear : StatusMask) (settled : Grant)
      (hvalid : validateStatusTransition grant.statusMask
        (flaggedMask grant.statusMask flagsToSet flagsToClear) = .ok ())
      (hsettle : settleGrant grant env.timestamp = .ok settled) :
      Transition host env grantId grant (.setGrantFlags grantId flagsToSet flagsToClear)
        { settled with statusMask := flaggedMask grant.statusMask flagsToSet flagsToClear }
  | expired (call : Call) (hcall : call.mayExpire = some grantId) (settled : Grant)
      (hexpired : Expired grant env.timestamp)
      (hsettle : settleGrant grant grant.cancelSettleTs = .ok settled) :
      Transition host env grantId grant call settled.autoCancelled
  | withdrawn (amount : Int) (settled : Grant) (hpos : 0 < amount)
      (hactive : hasStatus grant.statusMask statusActive = true)
      (hsettle : settleGrant grant env.timestamp = .ok settled)
      (hle : amount ≤ settled.claimable) :
      Transition host env grantId grant (.withdraw grantId amount) (settled.paid amount)
  | rateUpdated (newRate : Int) (settled : Grant) (hrate : 0 ≤ newRate)
      (hsettle : settleGrant grant env.timestamp = .ok settled)
      (hopen : hasStatus settled.statusMask statusActive = true ∨
        hasStatus settled.statusMask statusPaused = true) :
      Transition host env grantId grant (.updateRate grantId newRate)
        { settled with flowRate := newRate, rateUpdatedAt := settled.lastUpdateTs }
  | deadlineSet (deadline : Nat)
      (hbased : hasStatus grant.statusMask statusMilestoneBased = true) :
      Transition host env grantId grant (.setMilestoneDeadline grantId deadline)
        { grant with milestoneDeadline := deadline, milestoneMet := false }
  | oraclesConfigured (oracles : List Bytes) (threshold disputeWindowSecs : Nat)
      (hpos : 0 < threshold) (hle : threshold ≤ oracles.length) (hnodup : oracles.Nodup) :
      Transition host env grantId grant
        (.configureMilestoneOracles grantId oracles threshold disputeWindowSecs)
        { grant with
          milestoneOracles := oracles
          milestoneThreshold := threshold
          milestoneDisputeWindowSecs := disputeWindowSecs
          milestoneEvidenceHash := none
          msEvidenceSubmittedAt := 0
          milestoneDisputeWindowEnd := 0
          milestoneApprovers := []
          milestoneMet := false }
  | evidenceSubmitted (evidenceHash : Bytes) (disputeWindowEnd : Nat)
      (hend : disputeWindowEnd = env.timestamp + grant.milestoneDisputeWindowSecs) :
      Transition host env grantId grant (.submitMilestoneEvidence grantId evidenceHash)
        { grant with
          milestoneEvidenceHash := some evidenceHash
          msEvidenceSubmittedAt := env.timestamp
          milestoneDisputeWindowEnd := disputeWindowEnd
          milestoneApprovers := []
          milestoneMet := false }
  | approved (oracle signature evidenceHash : Bytes) (hunmet : grant.milestoneMet = false)
      (horacle : oracle ∈ grant.milestoneOracles) (hfresh : oracle ∉ grant.milestoneApprovers)
      (hevidence : grant.milestoneEvidenceHash = some evidenceHash)
      (hwindow : env.timestamp ≤ grant.milestoneDisputeWindowEnd)
      (hverify : host.ed25519Verify oracle (buildMilestoneApprovalPayload env grantId evidenceHash
        grant.milestoneDisputeWindowEnd) signature = true) :
      Transition host env grantId grant (.approveMilestone grantId oracle signature)
        (grant.approvedBy oracle)
  | markedMet (evidence : Bytes) (hevidence : env.store.milestoneEvidence grantId = some evidence) :
      Transition host env grantId grant (.markMilestoneMet grantId)
        { grant with milestoneMet := true }
  | clawedBack (settled : Grant) (hsettle : settleGrant grant env.timestamp = .ok settled) :
      Transition host env grantId grant (.clawbackMilestone grantId)
        { settled with claimable := 0 }
  | rageQuit (settled : Grant) (hpaused : hasStatus grant.statusMask statusPaused = true)
      (hsettle : settleGrant grant env.timestamp = .ok settled) :
      Transition host env grantId grant (.rageQuit grantId) settled.quit
  | selfTerminated (settled : Grant)
      (heligible : validateTerminationEligibility grant = .ok ())
      (hsettle : settleGrant grant env.timestamp = .ok settled) :
      Transition host env grantId grant (.selfTerminate grantId)
        { settled with
          statusMask := clearStatus (clearStatus (setStatus settled.statusMask
            statusSelfTerminated) statusActive) statusPaused
          flowRate := 0 }

/-- What a call does to the grants. -/
inductive Effect (host : Host) (env : Env) (call : Call) (grants : Nat → Option Grant) : Prop
  | initialized (admin : Address) (hcall : call = .initializeContract admin)
      (hgrants : grants = env.store.grants)
  | unexpired (grantId : Nat) (grant : Grant) (hcall : call.mayExpire = some grantId)
      (hgrant : env.store.grants grantId = some grant) (hlive : ¬Expired grant env.timestamp)
      (hgrants : grants = env.store.grants)
  | created (grantId : Nat) (recipient : Address) (totalAmount flowRate : Int)
      (initialStatusMask : StatusMask)
      (hcall : call = .createGrant grantId recipient totalAmount flowRate initialStatusMask)
      (hnone : env.store.grants grantId = none) (hamount : 0 < totalAmount) (hrate : 0 ≤ flowRate)
      (hgrants : grants = Function.update env.store.grants grantId
        (some (.created recipient totalAmount flowRate initialStatusMask env.timestamp)))
  | moved (grantId : Nat) (grant grant' : Grant) (hgrant : env.store.grants grantId = some grant)
      (htransition : Transition host env grantId grant call grant')
      (hgrants : grants = Function.update env.store.grants grantId (some grant'))

/-! ### Inversion -/

theorem autoCancelled_not_active (settled : Grant) :
    hasStatus settled.autoCancelled.statusMask statusActive = false := by
  simp [Grant.autoCancelled]

/-- A call that first looks for an expiry: nothing expires, or the grant is cancelled. -/
theorem expiry_effect {call : Call} (hcall : call.mayExpire = some grantId)
    {result : Env × Grant × Bool} (hgrant : readGrant env grantId = .ok grant)
    (h : maybeAutoCancelMilestoneExpiry env grantId grant = .ok result) :
    Effect host env call result.1.store.grants := by
  rw [readGrant, okOr_eq_ok] at hgrant
  rcases maybeAutoCancelMilestoneExpiry_eq_ok h with ⟨hlive, rfl⟩ |
    ⟨settled, hexpired, hsettle, rfl⟩
  · exact .unexpired grantId grant hcall hgrant hlive rfl
  · exact .moved grantId grant _ hgrant (.expired call hcall settled hexpired hsettle) rfl

theorem withdraw_effect {amount : Int} (h : withdraw env grantId amount = .ok env') :
    Effect host env (.withdraw grantId amount) env'.store.grants := by
  unfold withdraw readGrant at h
  simp only [bind_eq_ok, ensure_eq_ok, okOr_eq_ok, pure_eq_ok, I128.checkedAdd_eq_some,
    I128.checkedSub_eq_some] at h
  obtain ⟨-, hpos, grant, hgrant, ⟨env₁, grant₁, cancelled⟩, hexpiry, -, hactive, -, -, settled,
    hsettle, -, hle, _, ⟨-, rfl⟩, _, ⟨-, rfl⟩, _, ⟨-, rfl⟩, rfl⟩ := h
  rcases maybeAutoCancelMilestoneExpiry_eq_ok hexpiry with ⟨-, heq⟩ | ⟨expired, -, -, heq⟩
  · cases heq
    refine .moved grantId grant (settled.paid amount) hgrant
      (.withdrawn amount settled hpos hactive hsettle hle) ?_
    dsimp only [writeGrant, Grant.paid]
    congr 2
    split <;> rfl
  · cases heq
    dsimp only at hactive
    rw [autoCancelled_not_active] at hactive
    cases hactive

theorem containsOracle_iff {oracles : List Bytes} {oracle : Bytes} :
    containsOracle oracles oracle = true ↔ oracle ∈ oracles := by
  simp [containsOracle]

theorem approveMilestone_effect {oracle signature : Bytes} {result : Env × Nat}
    (h : approveMilestone host env grantId oracle signature = .ok result) :
    Effect host env (.approveMilestone grantId oracle signature) result.1.store.grants := by
  unfold approveMilestone readGrant at h
  simp only [bind_eq_ok, ensure_eq_ok, require_eq_ok, okOr_eq_ok, pure_eq_ok] at h
  obtain ⟨grant, hgrant, -, -, -, hunmet, -, horacle, -, hfresh, evidenceHash, hevidence, -,
    hwindow, -, hverify, rfl⟩ := h
  rw [containsOracle_iff] at horacle
  rw [← Bool.not_eq_true, containsOracle_iff] at hfresh
  exact .moved grantId grant (grant.approvedBy oracle) hgrant
    (.approved oracle signature evidenceHash hunmet horacle hfresh hevidence hwindow hverify) rfl

theorem selfTerminate_effect {result : Env × SelfTerminateResult}
    (h : selfTerminate host env grantId = .ok result) :
    Effect host env (.selfTerminate grantId) result.1.store.grants := by
  unfold selfTerminate readGrant at h
  simp only [bind_eq_ok, okOr_eq_ok, orTrap_eq_ok, pure_eq_ok] at h
  obtain ⟨grant, hgrant, _, heligible, -, -, settled, hsettle, _, -, remaining, -, env₁, hpaid, env₂,
    hrefunded, rfl⟩ := h
  have hstore₁ : env₁.store = env.store := by
    unfold transferToGrantee at hpaid
    split at hpaid
    · rw [← pure_eq_ok.mp hpaid]
    · obtain ⟨_, -, hpaid⟩ := bind_eq_ok.mp hpaid
      obtain ⟨_, -, rfl⟩ := Ledger.Env.transfer_eq_ok.mp hpaid
      rfl
  have hstore₂ : env₂.store = env₁.store := by
    unfold refundToAdmin at hrefunded
    split at hrefunded
    · rw [← pure_eq_ok.mp hrefunded]
    · obtain ⟨_, -, hrefunded⟩ := bind_eq_ok.mp hrefunded
      obtain ⟨_, -, hrefunded⟩ := bind_eq_ok.mp hrefunded
      obtain ⟨_, -, rfl⟩ := Ledger.Env.transfer_eq_ok.mp hrefunded
      rfl
  refine .moved grantId grant _ hgrant (.selfTerminated settled heligible hsettle) ?_
  dsimp only [writeGrant]
  rw [hstore₂, hstore₁]

/-- **Inversion** of a call that goes through. -/
theorem exec_effect {call : Call} (h : call.exec host env = .ok env') :
    Effect host env call env'.store.grants := by
  cases call with
  | initializeContract admin =>
      unfold Call.exec initializeContract at h
      simp only [bind_eq_ok, pure_eq_ok] at h
      obtain ⟨_, -, _, -, rfl⟩ := h
      exact .initialized admin rfl rfl
  | createGrant grantId recipient totalAmount flowRate initialStatusMask =>
      unfold Call.exec createGrant at h
      simp only [bind_eq_ok, ensure_eq_ok, pure_eq_ok] at h
      obtain ⟨_, -, _, hamount, _, hrate, _, hvalid, _, hnone, rfl⟩ := h
      exact .created grantId recipient totalAmount flowRate initialStatusMask rfl hnone hamount
        hrate rfl
  | cancelGrantBitmask grantId =>
      unfold Call.exec cancelGrantBitmask readGrant at h
      simp only [bind_eq_ok, okOr_eq_ok, pure_eq_ok] at h
      obtain ⟨_, -, grant, hgrant, _, hvalid, settled, hsettle, rfl⟩ := h
      exact .moved grantId grant _ hgrant (.cancelled settled hvalid hsettle) rfl
  | pauseGrant grantId =>
      unfold Call.exec pauseGrant readGrant at h
      simp only [bind_eq_ok, ensure_eq_ok, okOr_eq_ok, pure_eq_ok] at h
      obtain ⟨_, -, grant, hgrant, _, hactive, settled, hsettle, rfl⟩ := h
      exact .moved grantId grant _ hgrant (.paused settled hactive hsettle) rfl
  | resumeGrant grantId =>
      unfold Call.exec resumeGrant readGrant at h
      simp only [bind_eq_ok, ensure_eq_ok, okOr_eq_ok, pure_eq_ok] at h
      obtain ⟨_, -, grant, hgrant, _, hpaused, settled, hsettle, rfl⟩ := h
      exact .moved grantId grant _ hgrant (.resumed settled hpaused hsettle) rfl
  | setGrantFlags grantId flagsToSet flagsToClear =>
      unfold Call.exec setGrantFlags readGrant at h
      simp only [bind_eq_ok, okOr_eq_ok, pure_eq_ok] at h
      obtain ⟨_, -, grant, hgrant, _, hvalid, settled, hsettle, rfl⟩ := h
      exact .moved grantId grant _ hgrant
        (.flagged flagsToSet flagsToClear settled hvalid hsettle) rfl
  | getGrant grantId =>
      unfold Call.exec getGrant at h
      simp only [map_eq_ok, bind_eq_ok, pure_eq_ok] at h
      obtain ⟨_, ⟨grant, hgrant, ⟨env₁, grant₁, cancelled⟩, hexpiry, _, -, rfl⟩, rfl⟩ := h
      exact expiry_effect rfl hgrant hexpiry
  | claimableBitmask grantId =>
      unfold Call.exec claimableBitmask at h
      simp only [map_eq_ok, bind_eq_ok, pure_eq_ok] at h
      obtain ⟨_, ⟨grant, hgrant, ⟨env₁, grant₁, cancelled⟩, hexpiry, _, -, rfl⟩, rfl⟩ := h
      exact expiry_effect rfl hgrant hexpiry
  | withdraw grantId amount => exact withdraw_effect h
  | processMilestoneExpiry grantId =>
      unfold Call.exec processMilestoneExpiry at h
      simp only [map_eq_ok, bind_eq_ok, pure_eq_ok] at h
      obtain ⟨_, ⟨grant, hgrant, ⟨env₁, grant₁, cancelled⟩, hexpiry, rfl⟩, rfl⟩ := h
      exact expiry_effect rfl hgrant hexpiry
  | updateRate grantId newRate =>
      unfold Call.exec updateRate readGrant at h
      simp only [bind_eq_ok, ensure_eq_ok, okOr_eq_ok, pure_eq_ok] at h
      obtain ⟨_, -, _, hrate, grant, hgrant, _, -, settled, hsettle, _, hopen, rfl⟩ := h
      exact .moved grantId grant _ hgrant (.rateUpdated newRate settled hrate hsettle hopen) rfl
  | setMilestoneDeadline grantId deadline =>
      unfold Call.exec setMilestoneDeadline readGrant at h
      simp only [bind_eq_ok, ensure_eq_ok, okOr_eq_ok, pure_eq_ok] at h
      obtain ⟨_, -, grant, hgrant, _, hbased, rfl⟩ := h
      exact .moved grantId grant _ hgrant (.deadlineSet deadline hbased) rfl
  | configureMilestoneOracles grantId oracles threshold disputeWindowSecs =>
      unfold Call.exec configureMilestoneOracles readGrant validateOracleSet at h
      simp only [bind_eq_ok, ensure_eq_ok, okOr_eq_ok, pure_eq_ok, not_or] at h
      obtain ⟨_, -, grant, hgrant, _, -, _, ⟨_, ⟨-, hne, hle⟩, hnodup⟩, rfl⟩ := h
      exact .moved grantId grant _ hgrant (.oraclesConfigured oracles threshold disputeWindowSecs
        (Nat.pos_of_ne_zero hne) (Nat.le_of_not_lt hle) hnodup) rfl
  | submitMilestoneEvidence grantId evidenceHash =>
      unfold Call.exec submitMilestoneEvidence readGrant at h
      simp only [bind_eq_ok, okOr_eq_ok, orTrap_eq_ok, pure_eq_ok, U64.checkedAdd_eq_some] at h
      obtain ⟨grant, hgrant, _, -, _, -, disputeWindowEnd, ⟨-, hend⟩, rfl⟩ := h
      exact .moved grantId grant _ hgrant
        (.evidenceSubmitted evidenceHash disputeWindowEnd hend.symm) rfl
  | approveMilestone grantId oracle signature =>
      obtain ⟨result, hresult, rfl⟩ := map_eq_ok.mp h
      exact approveMilestone_effect hresult
  | markMilestoneMet grantId =>
      unfold Call.exec markMilestoneMet readGrant readMilestoneEvidence at h
      simp only [bind_eq_ok, okOr_eq_ok, pure_eq_ok] at h
      obtain ⟨_, -, grant, hgrant, _, -, evidence, hevidence, _, -, rfl⟩ := h
      exact .moved grantId grant _ hgrant (.markedMet evidence hevidence) rfl
  | clawbackMilestone grantId =>
      unfold Call.exec clawbackMilestone readGrant at h
      simp only [bind_eq_ok, okOr_eq_ok, pure_eq_ok] at h
      obtain ⟨_, -, grant, hgrant, _, -, _, -, _, -, settled, hsettle, rfl⟩ := h
      exact .moved grantId grant _ hgrant (.clawedBack settled hsettle) rfl
  | rageQuit grantId =>
      unfold Call.exec rageQuit readGrant at h
      simp only [bind_eq_ok, ensure_eq_ok, okOr_eq_ok, pure_eq_ok, I128.checkedAdd_eq_some] at h
      obtain ⟨grant, hgrant, _, -, _, hpaused, settled, hsettle, _, ⟨-, rfl⟩, rfl⟩ := h
      exact .moved grantId grant _ hgrant (.rageQuit settled hpaused hsettle) rfl
  | selfTerminate grantId =>
      obtain ⟨result, hresult, rfl⟩ := map_eq_ok.mp h
      exact selfTerminate_effect hresult

/-- The call writes this grant whenever it goes through. -/
def Call.writes (grantId : Nat) : Call → Bool
  | .cancelGrantBitmask id | .pauseGrant id | .resumeGrant id | .setGrantFlags id _ _
  | .withdraw id _ | .updateRate id _ | .setMilestoneDeadline id _
  | .configureMilestoneOracles id _ _ _ | .submitMilestoneEvidence id _
  | .approveMilestone id _ _ | .markMilestoneMet id | .clawbackMilestone id | .rageQuit id
  | .selfTerminate id => id == grantId
  | .initializeContract _ | .createGrant _ _ _ _ _ | .getGrant _ | .claimableBitmask _
  | .processMilestoneExpiry _ => false

theorem Call.writes_of_mayExpire {call : Call} (h : call.mayExpire = some grantId) (other : Nat) :
    call.writes other = false := by
  cases call with
  | getGrant | claimableBitmask | processMilestoneExpiry => rfl
  | _ => cases h

theorem Transition.writes_other {call : Call}
    (h : Transition host env grantId grant call grant') {other : Nat} (hother : other ≠ grantId) :
    call.writes other = false := by
  cases h with
  | expired _ hcall => exact call.writes_of_mayExpire hcall other
  | _ => exact beq_eq_false_iff_ne.mpr hother.symm

/-- What a call that goes through does to one grant. -/
inductive GrantEffect (host : Host) (env : Env) (call : Call) (grantId : Nat) :
    Grant → Prop
  | untouched (grant : Grant) (hgrant : env.store.grants grantId = some grant)
      (hcall : call.writes grantId = false) : GrantEffect host env call grantId grant
  | created (recipient : Address) (totalAmount flowRate : Int) (initialStatusMask : StatusMask)
      (hcall : call = .createGrant grantId recipient totalAmount flowRate initialStatusMask)
      (hnone : env.store.grants grantId = none) (hamount : 0 < totalAmount)
      (hrate : 0 ≤ flowRate) :
      GrantEffect host env call grantId
        (.created recipient totalAmount flowRate initialStatusMask env.timestamp)
  | moved (grant grant' : Grant) (hgrant : env.store.grants grantId = some grant)
      (htransition : Transition host env grantId grant call grant') :
      GrantEffect host env call grantId grant'

theorem Effect.grantEffect {call : Call} {grants : Nat → Option Grant}
    (h : Effect host env call grants) (hgrant : grants grantId = some grant) :
    GrantEffect host env call grantId grant := by
  cases h with
  | initialized admin hcall hgrants => exact .untouched grant (hgrants ▸ hgrant) (hcall ▸ rfl)
  | unexpired _ _ hcall _ _ hgrants =>
      exact .untouched grant (hgrants ▸ hgrant) (call.writes_of_mayExpire hcall grantId)
  | created target recipient totalAmount flowRate mask hcall hnone hamount hrate hgrants =>
      rw [hgrants] at hgrant
      by_cases hid : grantId = target
      · subst hid
        rw [Function.update_self, Option.some.injEq] at hgrant
        rw [← hgrant]
        exact .created recipient totalAmount flowRate mask hcall hnone hamount hrate
      · rw [Function.update_of_ne hid] at hgrant
        exact .untouched grant hgrant (hcall ▸ rfl)
  | moved target before after hbefore htransition hgrants =>
      rw [hgrants] at hgrant
      by_cases hid : grantId = target
      · subst hid
        rw [Function.update_self, Option.some.injEq] at hgrant
        rw [← hgrant]
        exact .moved before after hbefore htransition
      · rw [Function.update_of_ne hid] at hgrant
        exact .untouched grant hgrant (htransition.writes_other hid)

abbrev Trace := Ledger.Trace Address Store Call

abbrev Step := Run.Step Env (Ledger.Event Address Call)

/-- What one event does to the grants. -/
theorem effect_of_next {e : Step}
    (h : Ledger.Next (contract host) e.before e.action e.after) :
    (Ledger.called (contract host) e = none ∧ e.after.store = e.before.store) ∨
      ∃ call, Ledger.called (contract host) e = some call ∧
        Effect host (e.before.enter e.action) call e.after.store.grants :=
  Ledger.effect_of_next (E := fun call store => Effect host _ call store.grants) h
    fun _ hexec => exec_effect hexec

end YieldTrust.Optimized
