import Mathlib.Tactic.Ring
import YieldTrust.GrantStream.Settlement

/-!
# YieldTrust.GrantStream.SettlementSpec

What settling does. `Grant.settled` is the settlement as a total function of
mathematical integers, and `settleGrant_eq_ok` says that `settleGrant`, whenever
it succeeds, returns it. Everything the accounting proofs need about settlement
is read off `Grant.settled`.
-/

namespace YieldTrust.GrantStream

open Fallible

namespace Grant

/-! ### Amounts -/

/-- How much of the warmup has passed, in basis points. -/
def warmupProgress (grant : Grant) (now : Nat) : Int :=
  (((now - grant.startTime : Nat) : Int) * 10000).tdiv (grant.warmupDuration : Int)

/-- The warmup multiplier at `now`, in basis points. -/
def warmupBps (grant : Grant) (now : Nat) : Int :=
  if grant.warmupDuration = 0 ∨ grant.startTime + grant.warmupDuration ≤ now then 10000
  else if now ≤ grant.startTime then 2500
  else 2500 + (7500 * grant.warmupProgress now).tdiv 10000

/-- The sum that `calculate_warmup_multiplier` computes does not fit in a `u64`. -/
def warmupOverflows (grant : Grant) : Prop :=
  grant.warmupDuration ≠ 0 ∧ U64.size ≤ grant.startTime + grant.warmupDuration

/-- What accrues in `elapsed` seconds at `rate` that end at `now`. -/
def accrual (grant : Grant) (rate : Int) (elapsed now : Nat) : Int :=
  (rate * (elapsed : Int) * grant.warmupBps now).tdiv 10000

/-- The validator's 5% of `accrued`. -/
def validatorShare (grant : Grant) (accrued : Int) : Int :=
  if grant.validator.isSome ∧ accrued > 0 then (accrued * 500).tdiv 10000 else 0

/-- Only the warmup of the grant matters for what accrues at a given rate. -/
theorem accrual_congr (grant : Grant) {grant' : Grant} (hs : grant'.startTime = grant.startTime)
    (hw : grant'.warmupDuration = grant.warmupDuration) : grant'.accrual = grant.accrual := by
  funext rate elapsed now
  simp only [accrual, warmupBps, warmupProgress, hs, hw]

theorem validatorShare_congr (grant : Grant) {grant' : Grant}
    (h : grant'.validator = grant.validator) : grant'.validatorShare = grant.validatorShare := by
  funext a
  simp only [validatorShare, h]

/-- What an active grant has accrued since its last settlement, before a pending
rate that is due took effect (everything if there is none). -/
def firstAccrual (grant : Grant) (now : Nat) : Int :=
  if grant.pendingRateDue now then
    grant.accrual grant.flowRate (grant.effectiveTimestamp - grant.lastUpdateTs)
      grant.effectiveTimestamp
  else grant.accrual grant.flowRate (now - grant.lastUpdateTs) now

/-- What it has accrued at a pending rate that is due. -/
def secondAccrual (grant : Grant) (now : Nat) : Int :=
  if grant.pendingRateDue now then
    grant.accrual grant.pendingRate (now - grant.effectiveTimestamp) now
  else 0

def newAccrual (grant : Grant) (now : Nat) : Int := grant.firstAccrual now + grant.secondAccrual now

/-- The validator's share of what an active grant has accrued since its last settlement. -/
def newValidatorShare (grant : Grant) (now : Nat) : Int :=
  grant.validatorShare (grant.firstAccrual now) + grant.validatorShare (grant.secondAccrual now)

/-- `withdrawn + claimable + validator_withdrawn + validator_claimable` -/
def accounted (grant : Grant) : Int :=
  grant.withdrawn + grant.claimable + grant.validatorWithdrawn + grant.validatorClaimable

/-! ### The steps of a settlement -/

/-- A pending rate that is due replaces the flow rate. -/
def switchRate (grant : Grant) (now : Nat) : Grant :=
  if grant.pendingRateDue now then
    { grant with
      flowRate := grant.pendingRate
      rateUpdatedAt := grant.effectiveTimestamp
      pendingRate := 0
      effectiveTimestamp := 0
      lastUpdateTs := grant.effectiveTimestamp }
  else grant

/-- Credit what accrued since the last settlement. -/
def accrued (grant : Grant) (now : Nat) : Grant :=
  { grant.switchRate now with
    claimable := grant.claimable + (grant.newAccrual now - grant.newValidatorShare now)
    validatorClaimable := grant.validatorClaimable + grant.newValidatorShare now }

/-- Only an active grant is credited. -/
def credited (grant : Grant) (now : Nat) : Grant :=
  if grant.status = .active then grant.accrued now else grant

/-- Complete a grant that is accounted for in full: `claimable` gets what the
other three amounts leave. -/
def capped (grant : Grant) : Grant :=
  if grant.totalAmount ≤ grant.accounted then
    { grant with
      claimable := max (grant.totalAmount -
        (grant.withdrawn + grant.validatorWithdrawn + grant.validatorClaimable)) 0
      status := .completed }
  else grant

theorem capped_claimable (grant : Grant) :
    grant.capped.claimable =
      if grant.totalAmount ≤ grant.accounted then
        max (grant.totalAmount -
          (grant.withdrawn + grant.validatorWithdrawn + grant.validatorClaimable)) 0
      else grant.claimable := by
  unfold capped
  split_ifs <;> rfl

/-- The grant streams: it is active and no signature is missing. -/
def streams (grant : Grant) : Prop := grant.status = .active ∧ grant.gateClosed = false

instance (grant : Grant) : Decidable grant.streams := inferInstanceAs (Decidable (_ ∧ _))

/-- The settlement at `now`. -/
def settled (grant : Grant) (now : Nat) : Grant :=
  if now = grant.lastUpdateTs then grant
  else if grant.status = .active ∧ grant.gateClosed then { grant with lastUpdateTs := now }
  else { (grant.credited now).capped with lastUpdateTs := now }

end Grant

/-! ### `settleGrant` computes `Grant.settled` -/

theorem calculateWarmupMultiplier_eq_ok {grant : Grant} {now : Nat} {m : Int} :
    calculateWarmupMultiplier grant now = .ok m ↔
      ¬grant.warmupOverflows ∧ m = grant.warmupBps now := by
  unfold calculateWarmupMultiplier Grant.warmupBps Grant.warmupOverflows
  by_cases hw : grant.warmupDuration = 0
  · rw [if_pos hw, pure_eq_ok]
    simp [hw, eq_comm]
  · rw [if_neg hw]
    simp only [bind_eq_ok, orTrap_eq_ok, U64.checkedAdd_eq_some, hw, false_or, ne_eq,
      not_false_eq_true, true_and, not_le]
    constructor
    · rintro ⟨warmupEnd, ⟨hlt, rfl⟩, h⟩
      refine ⟨hlt, ?_⟩
      split_ifs at h ⊢ with h₁ h₂ <;> exact (pure_eq_ok.mp h).symm
    · rintro ⟨hlt, rfl⟩
      refine ⟨_, ⟨hlt, rfl⟩, ?_⟩
      split_ifs <;> rfl

theorem calculateAccrued_eq_ok {grant : Grant} {elapsed now : Nat} {a : Int}
    (h : calculateAccrued grant elapsed now = .ok a) :
    a = grant.accrual grant.flowRate elapsed now := by
  unfold calculateAccrued at h
  simp only [bind_eq_ok, okOr_eq_ok, calculateWarmupMultiplier_eq_ok,
    I128.checkedMul_eq_some, I128.checkedDiv_eq_some] at h
  obtain ⟨_, ⟨-, rfl⟩, _, ⟨-, rfl⟩, _, ⟨-, rfl⟩, -, -, rfl⟩ := h
  rfl

theorem applyAccruedSplit_eq_ok {grant m : Grant} {a : Int}
    (h : applyAccruedSplit grant a = .ok m) :
    m = { grant with
      claimable := grant.claimable + (a - grant.validatorShare a)
      validatorClaimable := grant.validatorClaimable + grant.validatorShare a } := by
  unfold applyAccruedSplit at h
  unfold Grant.validatorShare
  split_ifs at h ⊢ with hv
  · simp only [okOr_bind_eq_ok, pure_eq_ok, I128.checkedMul_eq_some, I128.checkedDiv_eq_some,
      I128.checkedSub_eq_some, I128.checkedAdd_eq_some] at h
    obtain ⟨_, ⟨-, rfl⟩, _, ⟨-, -, rfl⟩, _, ⟨-, rfl⟩, _, ⟨-, rfl⟩, _, ⟨-, rfl⟩, rfl⟩ := h
    rfl
  · simp only [okOr_bind_eq_ok, pure_eq_ok, I128.checkedAdd_eq_some] at h
    obtain ⟨_, ⟨-, rfl⟩, rfl⟩ := h
    simp

/-- Accrual credits the two shares, and needs the switch of the rate not to lie
before the last settlement. -/
theorem accrueActive_eq_ok {grant m : Grant} {now : Nat}
    (h : accrueActive grant (now - grant.lastUpdateTs) now = .ok m) :
    m = grant.accrued now ∧
      (grant.pendingRateDue now = true → grant.lastUpdateTs ≤ grant.effectiveTimestamp) := by
  unfold accrueActive at h
  by_cases hd : grant.pendingRateDue now = true
  · rw [if_pos hd] at h
    simp only [bind_eq_ok, orTrap_eq_ok, U64.checkedSub_eq_some] at h
    obtain ⟨_, ⟨hle, rfl⟩, a₁, h₁, g₁, hg₁, _, ⟨-, rfl⟩, a₂, h₂, h⟩ := h
    have h₁ := calculateAccrued_eq_ok h₁
    have hg₁ := applyAccruedSplit_eq_ok hg₁
    have h₂ := calculateAccrued_eq_ok h₂
    have h := applyAccruedSplit_eq_ok h
    -- the second segment is computed on the grant that the first one left
    rw [Grant.accrual_congr grant (by rw [hg₁]) (by rw [hg₁])] at h₂
    rw [Grant.validatorShare_congr grant (by rw [hg₁])] at h
    refine ⟨?_, fun _ => hle⟩
    rw [h, h₂, hg₁, h₁]
    simp only [Grant.accrued, Grant.switchRate, Grant.newAccrual, Grant.newValidatorShare,
      Grant.firstAccrual, Grant.secondAccrual, if_pos hd, Grant.mk.injEq, true_and, and_true]
    constructor <;> ring
  · rw [if_neg hd] at h
    simp only [bind_eq_ok] at h
    obtain ⟨a, ha, h⟩ := h
    have ha := calculateAccrued_eq_ok ha
    have h := applyAccruedSplit_eq_ok h
    refine ⟨?_, fun hd' => absurd hd' hd⟩
    subst ha h
    simp [Grant.accrued, Grant.switchRate, Grant.newAccrual, Grant.newValidatorShare,
      Grant.firstAccrual, Grant.secondAccrual, hd, Grant.validatorShare]

theorem totalAccounted_eq_ok {grant : Grant} {a : Int} (h : totalAccounted grant = .ok a) :
    a = grant.accounted ∧ I128.InRange a := by
  unfold totalAccounted at h
  simp only [bind_eq_ok, okOr_eq_ok, I128.checkedAdd_eq_some] at h
  obtain ⟨_, ⟨-, rfl⟩, _, ⟨-, rfl⟩, hr, rfl⟩ := h
  exact ⟨rfl, hr⟩

theorem completeAndRestart_eq_ok {grant m : Grant} {now : Nat}
    (h : completeAndRestart grant now = .ok m) :
    m = { grant.capped with lastUpdateTs := now } ∧ I128.InRange grant.accounted := by
  unfold completeAndRestart at h
  obtain ⟨a, ha, h⟩ := bind_eq_ok.mp h
  obtain ⟨rfl, hr⟩ := totalAccounted_eq_ok ha
  refine ⟨?_, hr⟩
  unfold Grant.capped
  by_cases hle : grant.totalAmount ≤ grant.accounted
  · rw [if_pos hle] at h ⊢
    simp only [bind_eq_ok, okOr_eq_ok, pure_eq_ok, I128.checkedAdd_eq_some,
      I128.checkedSub_eq_some] at h
    obtain ⟨_, ⟨-, rfl⟩, _, ⟨-, rfl⟩, _, ⟨-, rfl⟩, _, rfl, rfl⟩ := h
    rfl
  · rw [if_neg hle] at h ⊢
    simp only [bind_eq_ok, pure_eq_ok] at h
    obtain ⟨_, rfl, rfl⟩ := h
    rfl

/-- The crediting step of a settlement, in front of the rest `f` of its block. -/
theorem credit_eq_ok {grant m : Grant} {now : Nat} {f : Grant → Res Grant}
    (h : (if grant.status = .active then
        accrueActive grant (now - grant.lastUpdateTs) now >>= f else pure grant >>= f) = .ok m) :
    f (grant.credited now) = .ok m ∧
      (grant.status = .active → grant.pendingRateDue now = true →
        grant.lastUpdateTs ≤ grant.effectiveTimestamp) := by
  unfold Grant.credited
  by_cases ha : grant.status = .active
  · rw [if_pos ha] at h ⊢
    obtain ⟨m', hm', h⟩ := bind_eq_ok.mp h
    obtain ⟨rfl, hswitch⟩ := accrueActive_eq_ok hm'
    exact ⟨h, fun _ => hswitch⟩
  · rw [if_neg ha] at h ⊢
    obtain ⟨m', hm', h⟩ := bind_eq_ok.mp h
    obtain rfl := pure_eq_ok.mp hm'
    exact ⟨h, fun hs => absurd hs ha⟩

/-- `m` is what settling `grant` at `now` leaves. -/
structure Settles (grant : Grant) (now : Nat) (m : Grant) : Prop where
  eq_settled : m = grant.settled now
  lastUpdateTs_le : grant.lastUpdateTs ≤ now
  /-- A pending rate is only applied if it took effect after the last settlement. -/
  switch : now ≠ grant.lastUpdateTs → grant.streams → grant.pendingRateDue now = true →
    grant.lastUpdateTs ≤ grant.effectiveTimestamp
  /-- The sum of the four balances was computed. -/
  inRange : now ≠ grant.lastUpdateTs → ¬(grant.status = .active ∧ grant.gateClosed = true) →
    I128.InRange (grant.credited now).accounted

/-- **Settlement.** Whenever `settle_grant` succeeds, it returns `Grant.settled`. -/
theorem settleGrant_eq_ok {grant m : Grant} {now : Nat} (h : settleGrant grant now = .ok m) :
    Settles grant now m := by
  unfold settleGrant at h
  by_cases hlt : now < grant.lastUpdateTs
  · rw [if_pos hlt] at h
    exact absurd h fail_ne_ok
  rw [if_neg hlt] at h
  by_cases heq : now = grant.lastUpdateTs
  · rw [if_pos (by omega)] at h
    refine ⟨?_, by omega, fun hne => absurd heq hne, fun hne => absurd heq hne⟩
    unfold Grant.settled
    rw [if_pos heq, pure_eq_ok.mp h]
  rw [if_neg (by omega)] at h
  by_cases hg : grant.status = .active ∧ grant.gateClosed = true
  · rw [if_pos hg] at h
    refine ⟨?_, by omega, fun _ hs => ?_, fun _ hng => absurd hg hng⟩
    · unfold Grant.settled
      rw [if_neg heq, if_pos hg, pure_eq_ok.mp h]
    · exact absurd hs.2 (by simp [hg.2])
  rw [if_neg hg] at h
  dsimp only at h
  obtain ⟨hm, hswitch⟩ := credit_eq_ok h
  obtain ⟨hm, hr⟩ := completeAndRestart_eq_ok hm
  refine ⟨?_, by omega, fun _ hs => hswitch hs.1, fun _ _ => hr⟩
  unfold Grant.settled
  rw [if_neg heq, if_neg hg, hm]

/-! ### The clawback checkpoint plays no part in a settlement -/

theorem Grant.capped_checkpoint (grant : Grant) (ts : Option Nat) :
    ({ grant with clawbackCheckpoint := ts } : Grant).capped =
      { grant.capped with clawbackCheckpoint := ts } := by
  show (if grant.totalAmount ≤ grant.accounted then _ else _) = _
  unfold Grant.capped
  split_ifs <;> rfl

theorem Grant.accrued_checkpoint (grant : Grant) (ts : Option Nat) (now : Nat) :
    ({ grant with clawbackCheckpoint := ts } : Grant).accrued now =
      { grant.accrued now with clawbackCheckpoint := ts } := by
  have hs : ({ grant with clawbackCheckpoint := ts } : Grant).switchRate now =
      { grant.switchRate now with clawbackCheckpoint := ts } := by
    show (if grant.pendingRateDue now then _ else _) = _
    unfold Grant.switchRate
    split_ifs <;> rfl
  show Grant.mk .. = _
  rw [hs]
  rfl

theorem Grant.credited_checkpoint (grant : Grant) (ts : Option Nat) (now : Nat) :
    ({ grant with clawbackCheckpoint := ts } : Grant).credited now =
      { grant.credited now with clawbackCheckpoint := ts } := by
  show (if grant.status = .active then _ else _) = _
  unfold Grant.credited
  split_ifs
  · exact grant.accrued_checkpoint ts now
  · rfl

theorem Grant.settled_checkpoint (grant : Grant) (ts : Option Nat) (now : Nat) :
    ({ grant with clawbackCheckpoint := ts } : Grant).settled now =
      { grant.settled now with clawbackCheckpoint := ts } := by
  have hc : (({ grant with clawbackCheckpoint := ts } : Grant).credited now).capped =
      { (grant.credited now).capped with clawbackCheckpoint := ts } := by
    rw [Grant.credited_checkpoint, Grant.capped_checkpoint]
  show (if now = grant.lastUpdateTs then _
    else if grant.status = .active ∧ grant.gateClosed then _ else _) = _
  rw [hc]
  unfold Grant.settled
  split_ifs <;> rfl

theorem Settles.of_checkpoint {grant m : Grant} {now : Nat} {ts : Option Nat}
    (h : Settles { grant with clawbackCheckpoint := ts } now m) :
    ∃ s, Settles grant now s ∧ m = { s with clawbackCheckpoint := ts } := by
  have hr : ({ grant with clawbackCheckpoint := ts } : Grant).credited now =
      { grant.credited now with clawbackCheckpoint := ts } := grant.credited_checkpoint ts now
  refine ⟨grant.settled now, ⟨rfl, h.lastUpdateTs_le, h.switch, fun hne hg => ?_⟩,
    h.eq_settled.trans (grant.settled_checkpoint ts now)⟩
  have := h.inRange hne hg
  rwa [hr] at this

/-! ### The fields of a settled grant -/

namespace Grant

/-- The settlement at `now` accrues. -/
def accrues (grant : Grant) (now : Nat) : Prop := now ≠ grant.lastUpdateTs ∧ grant.streams

/-- The settlement at `now` applies the pending rate. -/
def switches (grant : Grant) (now : Nat) : Prop :=
  grant.accrues now ∧ grant.pendingRateDue now = true

instance (grant : Grant) (now : Nat) : Decidable (grant.accrues now) :=
  inferInstanceAs (Decidable (_ ∧ _))

instance (grant : Grant) (now : Nat) : Decidable (grant.switches now) :=
  inferInstanceAs (Decidable (_ ∧ _))

/-- What the settlement at `now` credits, the validator's share included. -/
def dueAccrual (grant : Grant) (now : Nat) : Int :=
  if grant.accrues now then grant.newAccrual now else 0

/-- What the settlement at `now` credits to the validator. -/
def dueShare (grant : Grant) (now : Nat) : Int :=
  if grant.accrues now then grant.newValidatorShare now else 0

/-- The settlement at `now` finds the grant accounted for in full. A settlement
that the legal gate stops does not look. -/
def completes (grant : Grant) (now : Nat) : Prop :=
  now ≠ grant.lastUpdateTs ∧ ¬(grant.status = .active ∧ grant.gateClosed = true) ∧
    grant.totalAmount ≤ grant.accounted + grant.dueAccrual now

instance (grant : Grant) (now : Nat) : Decidable (grant.completes now) :=
  inferInstanceAs (Decidable (_ ∧ _))

/-- The three ways a settlement can go. -/
theorem settled_cases (grant : Grant) (now : Nat) :
    (now = grant.lastUpdateTs ∧ grant.settled now = grant) ∨
    (now ≠ grant.lastUpdateTs ∧ (grant.status = .active ∧ grant.gateClosed = true) ∧
      grant.settled now = { grant with lastUpdateTs := now }) ∨
    (now ≠ grant.lastUpdateTs ∧ ¬(grant.status = .active ∧ grant.gateClosed = true) ∧
      grant.settled now = { (grant.credited now).capped with lastUpdateTs := now }) := by
  unfold settled
  split_ifs with h₁ h₂
  · exact .inl ⟨h₁, rfl⟩
  · exact .inr (.inl ⟨h₁, h₂, rfl⟩)
  · exact .inr (.inr ⟨h₁, h₂, rfl⟩)

/-- A settlement changes the balances, the rates, the clock and the status. -/
theorem settled_eq (grant : Grant) (now : Nat) :
    grant.settled now = { grant with
      claimable := (grant.settled now).claimable
      validatorClaimable := (grant.settled now).validatorClaimable
      flowRate := (grant.settled now).flowRate
      rateUpdatedAt := (grant.settled now).rateUpdatedAt
      pendingRate := (grant.settled now).pendingRate
      effectiveTimestamp := (grant.settled now).effectiveTimestamp
      lastUpdateTs := (grant.settled now).lastUpdateTs
      status := (grant.settled now).status } := by
  unfold settled credited capped accrued switchRate
  split_ifs <;> rfl

section Frame

variable (grant : Grant) (now : Nat)

@[simp] theorem settled_recipient : (grant.settled now).recipient = grant.recipient := by
  rw [settled_eq]

@[simp] theorem settled_redirect : (grant.settled now).redirect = grant.redirect := by
  rw [settled_eq]

@[simp] theorem settled_totalAmount : (grant.settled now).totalAmount = grant.totalAmount := by
  rw [settled_eq]

@[simp] theorem settled_withdrawn : (grant.settled now).withdrawn = grant.withdrawn := by
  rw [settled_eq]

@[simp] theorem settled_validatorWithdrawn :
    (grant.settled now).validatorWithdrawn = grant.validatorWithdrawn := by
  rw [settled_eq]

@[simp] theorem settled_validator : (grant.settled now).validator = grant.validator := by
  rw [settled_eq]

@[simp] theorem settled_donor : (grant.settled now).donor = grant.donor := by
  rw [settled_eq]

@[simp] theorem settled_startTime : (grant.settled now).startTime = grant.startTime := by
  rw [settled_eq]

@[simp] theorem settled_warmupDuration :
    (grant.settled now).warmupDuration = grant.warmupDuration := by
  rw [settled_eq]

@[simp] theorem settled_requiresLegalSignature :
    (grant.settled now).requiresLegalSignature = grant.requiresLegalSignature := by
  rw [settled_eq]

@[simp] theorem settled_isLegalSigned : (grant.settled now).isLegalSigned = grant.isLegalSigned := by
  rw [settled_eq]

@[simp] theorem settled_gateClosed : (grant.settled now).gateClosed = grant.gateClosed := by
  simp only [gateClosed, settled_requiresLegalSignature, settled_isLegalSigned]

end Frame

@[simp] theorem settled_lastUpdateTs (grant : Grant) (now : Nat) :
    (grant.settled now).lastUpdateTs = now := by
  rcases grant.settled_cases now with ⟨h, h'⟩ | ⟨-, -, h'⟩ | ⟨-, -, h'⟩ <;> rw [h']
  exact h.symm

theorem accrues_iff {grant : Grant} {now : Nat} (hne : now ≠ grant.lastUpdateTs)
    (hg : ¬(grant.status = .active ∧ grant.gateClosed = true)) :
    grant.accrues now ↔ grant.status = .active := by
  unfold accrues streams
  constructor
  · exact fun h => h.2.1
  · refine fun h => ⟨hne, h, ?_⟩
    rcases hc : grant.gateClosed
    · rfl
    · exact absurd ⟨h, hc⟩ hg

/-- An active grant is credited what is due. -/
theorem credited_eq {grant : Grant} {now : Nat} (hne : now ≠ grant.lastUpdateTs)
    (hg : ¬(grant.status = .active ∧ grant.gateClosed = true)) :
    grant.credited now =
      { (if grant.accrues now then grant.switchRate now else grant) with
        claimable := grant.claimable + (grant.dueAccrual now - grant.dueShare now)
        validatorClaimable := grant.validatorClaimable + grant.dueShare now } := by
  unfold credited dueAccrual dueShare
  by_cases hs : grant.status = .active
  · have ha := (accrues_iff hne hg).mpr hs
    rw [if_pos hs]
    simp only [if_pos ha]
    rfl
  · have ha := mt (accrues_iff hne hg).mp hs
    rw [if_neg hs]
    simp [if_neg ha]

@[simp] theorem settled_validatorClaimable (grant : Grant) (now : Nat) :
    (grant.settled now).validatorClaimable = grant.validatorClaimable + grant.dueShare now := by
  rcases grant.settled_cases now with ⟨h, h'⟩ | ⟨hne, hg, h'⟩ | ⟨hne, hg, h'⟩ <;> rw [h']
  · simp [dueShare, accrues, h]
  · simp [dueShare, accrues, streams, hg.2]
  · have hc := congrArg validatorClaimable (credited_eq hne hg)
    unfold capped
    split_ifs <;> exact hc

theorem credited_accounted {grant : Grant} {now : Nat} (hne : now ≠ grant.lastUpdateTs)
    (hg : ¬(grant.status = .active ∧ grant.gateClosed = true)) :
    (grant.credited now).accounted = grant.accounted + grant.dueAccrual now := by
  rw [credited_eq hne hg]
  unfold accounted switchRate
  split_ifs <;> dsimp only <;> omega

theorem completes_iff {grant : Grant} {now : Nat} (hne : now ≠ grant.lastUpdateTs)
    (hg : ¬(grant.status = .active ∧ grant.gateClosed = true)) :
    grant.completes now ↔ (grant.credited now).totalAmount ≤ (grant.credited now).accounted := by
  rw [credited_accounted hne hg, credited_eq hne hg]
  have ht : (if grant.accrues now then grant.switchRate now else grant).totalAmount =
      grant.totalAmount := by
    unfold switchRate
    split_ifs <;> rfl
  show _ ↔ (if grant.accrues now then grant.switchRate now else grant).totalAmount ≤ _
  rw [ht]
  exact ⟨fun h => h.2.2, fun h => ⟨hne, hg, h⟩⟩

theorem settled_status (grant : Grant) (now : Nat) :
    (grant.settled now).status = if grant.completes now then .completed else grant.status := by
  rcases grant.settled_cases now with ⟨h, h'⟩ | ⟨hne, hg, h'⟩ | ⟨hne, hg, h'⟩ <;> rw [h']
  · rw [if_neg fun hc => hc.1 h]
  · rw [if_neg fun hc => hc.2.1 hg]
  · have hi := completes_iff hne hg
    unfold capped
    by_cases hc : grant.completes now
    · rw [if_pos hc, if_pos (hi.mp hc)]
    · rw [if_neg hc, if_neg (mt hi.mpr hc), credited_eq hne hg]
      unfold switchRate
      split_ifs <;> rfl

/-- The claimable balance after a settlement: what was credited, or what the cap
leaves once the grant is accounted for in full. -/
theorem settled_claimable (grant : Grant) (now : Nat) :
    (grant.settled now).claimable =
      if grant.completes now then
        max (grant.totalAmount - (grant.withdrawn + grant.validatorWithdrawn +
          (grant.validatorClaimable + grant.dueShare now))) 0
      else grant.claimable + (grant.dueAccrual now - grant.dueShare now) := by
  rcases grant.settled_cases now with ⟨h, h'⟩ | ⟨hne, hg, h'⟩ | ⟨hne, hg, h'⟩ <;> rw [h']
  · rw [if_neg fun hc => hc.1 h]
    simp [dueAccrual, dueShare, accrues, h]
  · rw [if_neg fun hc => hc.2.1 hg]
    simp [dueAccrual, dueShare, accrues, streams, hg.2]
  · have hi := completes_iff hne hg
    show (grant.credited now).capped.claimable = _
    rw [capped_claimable]
    by_cases hc : grant.completes now
    · rw [if_pos hc, if_pos (hi.mp hc), credited_eq hne hg]
      unfold switchRate
      split_ifs <;> rfl
    · rw [if_neg hc, if_neg (mt hi.mpr hc), credited_eq hne hg]

/-- What the settlement does to the rate and the pending rate. -/
theorem settled_rates (grant : Grant) (now : Nat) :
    ((grant.settled now).flowRate, (grant.settled now).pendingRate,
      (grant.settled now).effectiveTimestamp) =
      if grant.switches now then (grant.pendingRate, 0, 0)
      else (grant.flowRate, grant.pendingRate, grant.effectiveTimestamp) := by
  rcases grant.settled_cases now with ⟨h, h'⟩ | ⟨hne, hg, h'⟩ | ⟨hne, hg, h'⟩ <;> rw [h']
  · rw [if_neg fun hs => hs.1.1 h]
  · rw [if_neg fun hs => by simp [hs.1.2.2] at hg]
  · rw [credited_eq hne hg]
    unfold capped switches switchRate
    split_ifs <;> simp_all

theorem settled_of_switches {grant : Grant} {now : Nat} (h : grant.switches now) :
    (grant.settled now).flowRate = grant.pendingRate ∧ (grant.settled now).pendingRate = 0 ∧
      (grant.settled now).effectiveTimestamp = 0 := by
  have hr := grant.settled_rates now
  rw [if_pos h] at hr
  simpa using hr

theorem settled_of_not_switches {grant : Grant} {now : Nat} (h : ¬grant.switches now) :
    (grant.settled now).flowRate = grant.flowRate ∧
      (grant.settled now).pendingRate = grant.pendingRate ∧
      (grant.settled now).effectiveTimestamp = grant.effectiveTimestamp := by
  have hr := grant.settled_rates now
  rw [if_neg h] at hr
  simpa using hr

/-! ### Bounds on what accrues -/

theorem warmupProgress_nonneg (grant : Grant) (now : Nat) : 0 ≤ grant.warmupProgress now :=
  Int.tdiv_nonneg (by omega) (by omega)

theorem warmupProgress_le {grant : Grant} {now : Nat}
    (h : now ≤ grant.startTime + grant.warmupDuration) : grant.warmupProgress now ≤ 10000 := by
  unfold warmupProgress
  rw [Int.tdiv_eq_ediv_of_nonneg (by omega)]
  by_cases hw : grant.warmupDuration = 0
  · simp [hw]
  · exact Int.ediv_le_of_le_mul (by omega) (by omega)

theorem warmupBps_nonneg (grant : Grant) (now : Nat) : 0 ≤ grant.warmupBps now := by
  have hp := grant.warmupProgress_nonneg now
  unfold warmupBps
  split_ifs
  · decide
  · decide
  · rw [Int.tdiv_eq_ediv_of_nonneg (by omega)]
    omega

/-- The warmup only ever lowers what accrues. -/
theorem warmupBps_le (grant : Grant) (now : Nat) : grant.warmupBps now ≤ 10000 := by
  have hp := grant.warmupProgress_nonneg now
  unfold warmupBps
  split_ifs with h₁ h₂
  · decide
  · decide
  · have hle : grant.warmupProgress now ≤ 10000 := warmupProgress_le (by omega)
    rw [Int.tdiv_eq_ediv_of_nonneg (by omega)]
    omega

theorem accrual_nonneg (grant : Grant) {rate : Int} (h : 0 ≤ rate) (elapsed now : Nat) :
    0 ≤ grant.accrual rate elapsed now :=
  Int.tdiv_nonneg
    (mul_nonneg (mul_nonneg h (Int.natCast_nonneg _)) (grant.warmupBps_nonneg now)) (by decide)

theorem accrual_le (grant : Grant) {rate : Int} (h : 0 ≤ rate) (elapsed now : Nat) :
    grant.accrual rate elapsed now ≤ rate * (elapsed : Int) := by
  have hx : 0 ≤ rate * (elapsed : Int) := mul_nonneg h (Int.natCast_nonneg _)
  unfold accrual
  rw [Int.tdiv_eq_ediv_of_nonneg (mul_nonneg hx (grant.warmupBps_nonneg now))]
  refine Int.ediv_le_of_le_mul (by decide) ?_
  exact mul_le_mul_of_nonneg_left (grant.warmupBps_le now) hx

/-- Without a warmup the accrual is exact. -/
theorem accrual_of_no_warmup {grant : Grant} (h : grant.warmupDuration = 0) (rate : Int)
    (elapsed now : Nat) : grant.accrual rate elapsed now = rate * (elapsed : Int) := by
  unfold accrual warmupBps
  rw [if_pos (.inl h)]
  exact Int.mul_tdiv_cancel _ (by decide)

/-- The accrual in one segment, without a warmup. -/
theorem dueAccrual_of_not_due {grant : Grant} {now : Nat} (h : grant.warmupDuration = 0)
    (ha : grant.accrues now) (hd : ¬grant.pendingRateDue now = true) :
    grant.dueAccrual now = grant.flowRate * ((now - grant.lastUpdateTs : Nat) : Int) := by
  unfold dueAccrual newAccrual firstAccrual secondAccrual
  rw [if_pos ha, if_neg hd, if_neg hd, accrual_of_no_warmup h, add_zero]

/-- The accrual in two segments, without a warmup. -/
theorem dueAccrual_of_due {grant : Grant} {now : Nat} (h : grant.warmupDuration = 0)
    (ha : grant.accrues now) (hd : grant.pendingRateDue now = true) :
    grant.dueAccrual now =
      grant.flowRate * ((grant.effectiveTimestamp - grant.lastUpdateTs : Nat) : Int) +
        grant.pendingRate * ((now - grant.effectiveTimestamp : Nat) : Int) := by
  unfold dueAccrual newAccrual firstAccrual secondAccrual
  rw [if_pos ha, if_pos hd, if_pos hd, accrual_of_no_warmup h, accrual_of_no_warmup h]

theorem validatorShare_nonneg (grant : Grant) (a : Int) : 0 ≤ grant.validatorShare a := by
  unfold validatorShare
  split_ifs with h
  · exact Int.tdiv_nonneg (by omega) (by decide)
  · exact le_refl 0

theorem validatorShare_le (grant : Grant) {a : Int} (h : 0 ≤ a) : grant.validatorShare a ≤ a := by
  unfold validatorShare
  split_ifs
  · rw [Int.tdiv_eq_ediv_of_nonneg (by omega)]
    omega
  · exact h

theorem validatorShare_of_none {grant : Grant} (h : grant.validator = none) (a : Int) :
    grant.validatorShare a = 0 := by
  unfold validatorShare
  rw [h]
  simp

/-- Neither the rate nor a proposed one is negative. -/
structure RatesNonneg (grant : Grant) : Prop where
  flowRate : 0 ≤ grant.flowRate
  pendingRate : 0 ≤ grant.pendingRate

theorem RatesNonneg.firstAccrual {grant : Grant} (h : grant.RatesNonneg) (now : Nat) :
    0 ≤ grant.firstAccrual now := by
  unfold Grant.firstAccrual
  split_ifs <;> exact grant.accrual_nonneg h.flowRate _ _

theorem RatesNonneg.secondAccrual {grant : Grant} (h : grant.RatesNonneg) (now : Nat) :
    0 ≤ grant.secondAccrual now := by
  unfold Grant.secondAccrual
  split_ifs
  · exact grant.accrual_nonneg h.pendingRate _ _
  · exact le_refl 0

theorem RatesNonneg.dueAccrual {grant : Grant} (h : grant.RatesNonneg) (now : Nat) :
    0 ≤ grant.dueAccrual now := by
  have h₁ := h.firstAccrual now
  have h₂ := h.secondAccrual now
  unfold Grant.dueAccrual newAccrual
  split_ifs <;> omega

theorem dueShare_nonneg (grant : Grant) (now : Nat) : 0 ≤ grant.dueShare now := by
  have h₁ := grant.validatorShare_nonneg (grant.firstAccrual now)
  have h₂ := grant.validatorShare_nonneg (grant.secondAccrual now)
  unfold dueShare newValidatorShare
  split_ifs <;> omega

theorem RatesNonneg.dueShare_le {grant : Grant} (h : grant.RatesNonneg) (now : Nat) :
    grant.dueShare now ≤ grant.dueAccrual now := by
  have h₁ := grant.validatorShare_le (h.firstAccrual now)
  have h₂ := grant.validatorShare_le (h.secondAccrual now)
  unfold dueShare newValidatorShare Grant.dueAccrual newAccrual
  split_ifs <;> omega

theorem dueShare_of_none {grant : Grant} (h : grant.validator = none) (now : Nat) :
    grant.dueShare now = 0 := by
  unfold dueShare newValidatorShare
  rw [validatorShare_of_none h, validatorShare_of_none h]
  simp

/-- A grant that is not active is credited nothing. -/
theorem dueAccrual_of_not_active {grant : Grant} (h : grant.status ≠ .active) (now : Nat) :
    grant.dueAccrual now = 0 := by
  unfold dueAccrual
  rw [if_neg fun ha => h ha.2.1]

theorem dueShare_of_not_active {grant : Grant} (h : grant.status ≠ .active) (now : Nat) :
    grant.dueShare now = 0 := by
  unfold dueShare
  rw [if_neg fun ha => h ha.2.1]

theorem RatesNonneg.settled {grant : Grant} (h : grant.RatesNonneg) (now : Nat) :
    (grant.settled now).RatesNonneg := by
  by_cases hs : grant.switches now
  · obtain ⟨hf, hp, -⟩ := settled_of_switches hs
    exact ⟨hf ▸ h.pendingRate, hp.ge⟩
  · obtain ⟨hf, hp, -⟩ := settled_of_not_switches hs
    exact ⟨hf ▸ h.flowRate, hp ▸ h.pendingRate⟩

/-- Once the balances are not negative they stay so. -/
theorem settled_claimable_nonneg {grant : Grant} (h : grant.RatesNonneg)
    (hc : 0 ≤ grant.claimable) (now : Nat) : 0 ≤ (grant.settled now).claimable := by
  have hle := h.dueShare_le now
  rw [settled_claimable]
  split_ifs <;> omega

theorem settled_accounted (grant : Grant) (now : Nat) :
    (grant.settled now).accounted =
      if grant.completes now then
        max grant.totalAmount (grant.withdrawn + grant.validatorWithdrawn +
          (grant.validatorClaimable + grant.dueShare now))
      else grant.accounted + grant.dueAccrual now := by
  have hc := grant.settled_claimable now
  unfold accounted
  rw [settled_withdrawn, settled_validatorWithdrawn, settled_validatorClaimable, hc]
  split_ifs <;> omega

end Grant

theorem Settles.lastUpdateTs {grant s : Grant} {now : Nat} (h : Settles grant now s) :
    s.lastUpdateTs = now := by
  rw [h.eq_settled]
  exact grant.settled_lastUpdateTs now

end YieldTrust.GrantStream
