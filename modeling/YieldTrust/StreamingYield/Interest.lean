import Mathlib.Tactic.Positivity
import YieldTrust.Lib.LazyMeter
import YieldTrust.StreamingYield.Contract

/-!
# YieldTrust.StreamingYield.Interest

The **interest of a position over a run**. A position is a lazy meter: the weight is the principal
times the rate, and every deposit and every withdrawal is a reading. What was paid and what is due
stay below the simple interest on the principal of each second, and come within a unit of it for
each reading, if no product saturates.
-/

namespace YieldTrust.StreamingYield

open Fallible
open GrantStream (Address)

variable {env env' result : Env} {call : Call} {grantId other : Nat} {e : Step}
  {trace older : Trace} {pos : YieldPosition} {now : Nat} {amount : Int}
  {tokenAddress treasury : Address}

/-! ### The accrual of a position -/

/-- A unit of interest in parts: basis points times seconds of a year. -/
def partsPerUnit : Int := bpsDenom * yearSecs

theorem partsPerUnit_pos : 0 < partsPerUnit := by decide

/-- What accrues in a second, in parts of a unit. -/
def YieldPosition.weight (pos : YieldPosition) : Int := pos.principal * pos.apyBps

/-- The meter of the position, of whose interest `paid` was paid. -/
def YieldPosition.meter (pos : YieldPosition) (paid : Int) : LazyMeter :=
  { weight := pos.weight, last := pos.lastAccrualTs, booked := paid + pos.accruedInterest }

/-- A position as the module keeps it. -/
structure YieldPosition.Sound (pos : YieldPosition) : Prop where
  principal_nonneg : 0 ≤ pos.principal
  apy_nonneg : 0 ≤ pos.apyBps
  accrued_nonneg : 0 ≤ pos.accruedInterest
  enabled : pos.enabled = true

/-- The products of an accrual at `now` do not saturate. -/
def YieldPosition.Fits (pos : YieldPosition) (now : Nat) : Prop :=
  I128.InRange (pos.weight * ((now - pos.lastAccrualTs : Nat) : Int))

instance (pos : YieldPosition) (now : Nat) : Decidable (pos.Fits now) :=
  inferInstanceAs (Decidable (I128.InRange _))

theorem YieldPosition.Sound.weight_nonneg (h : pos.Sound) : 0 ≤ pos.weight :=
  Int.mul_nonneg h.principal_nonneg h.apy_nonneg

/-- The product of an accrual. -/
def YieldPosition.product (pos : YieldPosition) (now : Nat) : Int :=
  I128.saturatingMul (I128.saturatingMul pos.principal pos.apyBps)
    ((now - pos.lastAccrualTs : Nat) : Int)

theorem YieldPosition.Sound.product_bounds (h : pos.Sound) (now : Nat) :
    0 ≤ pos.product now ∧
      pos.product now ≤ pos.weight * ((now - pos.lastAccrualTs : Nat) : Int) := by
  have hinner : 0 ≤ I128.saturatingMul pos.principal pos.apyBps :=
    I128.saturate_nonneg h.weight_nonneg
  have hle : I128.saturatingMul pos.principal pos.apyBps ≤ pos.weight :=
    I128.saturate_le h.weight_nonneg
  have houter : 0 ≤ I128.saturatingMul pos.principal pos.apyBps *
      ((now - pos.lastAccrualTs : Nat) : Int) := Int.mul_nonneg hinner (Int.natCast_nonneg _)
  refine ⟨I128.saturate_nonneg houter, (I128.saturate_le houter).trans ?_⟩
  exact Int.mul_le_mul_of_nonneg_right hle (Int.natCast_nonneg _)

/-- An accrual divides its product; where the program takes a short cut, the product is zero. -/
theorem YieldPosition.Sound.accrue_eq (h : pos.Sound) (now : Nat) :
    accrue pos now = pos.product now / partsPerUnit := by
  have hbounds := h.product_bounds now
  unfold accrue
  dsimp only
  split_ifs with hshort
  · have hzero : pos.weight * ((now - pos.lastAccrualTs : Nat) : Int) = 0 := by
      rcases hshort with helapsed | hprincipal
      · rw [helapsed, mul_zero]
      · simp [YieldPosition.weight, hprincipal]
    have hproduct : pos.product now = 0 := le_antisymm (hzero ▸ hbounds.2) hbounds.1
    rw [hproduct, Int.zero_ediv]
  · exact Int.tdiv_eq_ediv_of_nonneg hbounds.1

theorem YieldPosition.Sound.accrue_nonneg (h : pos.Sound) (now : Nat) : 0 ≤ accrue pos now := by
  rw [h.accrue_eq]
  exact Int.ediv_nonneg (h.product_bounds now).1 partsPerUnit_pos.le

theorem YieldPosition.Sound.covered (h : pos.Sound) (paid : Int) (now : Nat) :
    (pos.meter paid).Covered partsPerUnit (accrue pos now) now := by
  have hbounds := h.product_bounds now
  rw [h.accrue_eq]
  exact (Int.ediv_mul_le _ partsPerUnit_pos.ne').trans hbounds.2

theorem YieldPosition.Fits.product_eq (h : pos.Sound) (hfits : pos.Fits now) :
    pos.product now = pos.weight * ((now - pos.lastAccrualTs : Nat) : Int) := by
  unfold YieldPosition.product I128.saturatingMul
  unfold YieldPosition.Fits at hfits
  rcases Nat.eq_zero_or_pos (now - pos.lastAccrualTs) with hzero | hpos
  · rw [hzero, Nat.cast_zero, mul_zero, mul_zero]
    exact I128.saturate_of_inRange I128.inRange_zero
  · -- the inner product is no larger than the outer one
    have hone : (1 : Int) ≤ ((now - pos.lastAccrualTs : Nat) : Int) := by exact_mod_cast hpos
    have hinner : I128.InRange pos.weight :=
      hfits.of_nonneg_of_le h.weight_nonneg (le_mul_of_one_le_right h.weight_nonneg hone)
    have hweight : I128.saturate (pos.principal * pos.apyBps) = pos.weight :=
      I128.saturate_of_inRange hinner
    rw [hweight, I128.saturate_of_inRange hfits]

theorem YieldPosition.Sound.whole (h : pos.Sound) (hfits : pos.Fits now) (paid : Int) :
    (pos.meter paid).Whole partsPerUnit (accrue pos now) now := by
  rw [h.accrue_eq, hfits.product_eq h]
  exact LazyMeter.whole_of_div partsPerUnit_pos now

/-! ### What a call does -/

/-- The shares of an interest that is not negative. -/
structure Split (total grantee treasury : Int) : Prop where
  grantee_eq : grantee = total * granteeYieldShareBps / bpsDenom
  treasury_eq : treasury = total - grantee
  grantee_nonneg : 0 ≤ grantee
  treasury_nonneg : 0 ≤ treasury

theorem splitInterest_eq_ok {total grantee share : Int} (hnonneg : 0 ≤ total)
    (h : splitInterest total = .ok (grantee, share)) : Split total grantee share := by
  simp only [splitInterest, bind_eq_ok, orTrap_eq_ok, I128.checkedMul_eq_some,
    I128.checkedSub_eq_some, pure_eq_ok, Prod.mk.injEq] at h
  obtain ⟨_, ⟨-, rfl⟩, _, ⟨-, rfl⟩, rfl, rfl⟩ := h
  have hproduct : 0 ≤ total * granteeYieldShareBps := Int.mul_nonneg hnonneg (by decide)
  have heq : (total * granteeYieldShareBps).tdiv bpsDenom =
      total * granteeYieldShareBps / bpsDenom := Int.tdiv_eq_ediv_of_nonneg hproduct
  refine ⟨heq, rfl, ?_, ?_⟩
  · rw [heq]
    exact Int.ediv_nonneg hproduct (by decide)
  · rw [heq]
    unfold granteeYieldShareBps bpsDenom
    omega

/-- The position after a deposit. -/
def YieldPosition.deposit (pos : YieldPosition) (now : Nat) (amount : Int) : YieldPosition :=
  { pos with
    accruedInterest := pos.accruedInterest + accrue pos now
    principal := pos.principal + amount
    lastAccrualTs := now }

/-- The position after a withdrawal. -/
def YieldPosition.withdraw (pos : YieldPosition) (now : Nat) (amount : Int) : YieldPosition :=
  { pos with principal := pos.principal - amount, accruedInterest := 0, lastAccrualTs := now }

/-- An empty position. -/
def newPosition (now grantId : Nat) (grantee : Address) (apyBps : Int) : YieldPosition :=
  { grantId, grantee, principal := 0, accruedInterest := 0, apyBps, lastAccrualTs := now
    enabled := true }

/-- What a call does to a position, with what it returns. -/
inductive Move where
  | enabled
  | deposited (amount : Int)
  | withdrawn (amount grantee treasury : Int)

/-- What a withdrawal returns. -/
def Call.returned (env : Env) : Call → Option (Int × Int × Int)
  | .withdrawFromYield grantId amount tokenAddress treasury =>
      (StreamingYield.withdrawFromYield env grantId amount tokenAddress treasury).toOption.map
        Prod.snd
  | _ => none

/-- What the call does to the position of the grant. -/
def Call.move (env : Env) (grantId : Nat) (call : Call) : Option Move :=
  match call with
  | .enableYield other _ _ => if other = grantId then some .enabled else none
  | .depositToYield other amount => if other = grantId then some (.deposited amount) else none
  | .withdrawFromYield other _ _ _ =>
      if other = grantId then
        (call.returned env).map fun (amount, grantee, treasury) =>
          .withdrawn amount grantee treasury
      else none

/-- What the step does to the position of the grant. -/
def move (grantId : Nat) (e : Step) : Option Move :=
  (Ledger.called contract e).bind fun call => call.move (e.before.enter e.action) grantId

/-- The position before and after, by what is done to it. -/
inductive PositionStep (now : Nat) : Move → Option YieldPosition → Option YieldPosition → Prop
  | enabled (x : Option YieldPosition) (grantId : Nat) (grantee : Address) (apyBps : Int)
      (hapy : 0 ≤ apyBps) :
      PositionStep now .enabled x (some (newPosition now grantId grantee apyBps))
  | deposited (pos : YieldPosition) (amount : Int) (hamount : 0 < amount) :
      PositionStep now (.deposited amount) (some pos) (some (pos.deposit now amount))
  | withdrawn (pos : YieldPosition) (amount grantee treasury : Int) (hle : amount ≤ pos.principal)
      (hsplit : splitInterest (pos.accruedInterest + accrue pos now) = .ok (grantee, treasury)) :
      PositionStep now (.withdrawn amount grantee treasury) (some pos)
        (some (pos.withdraw now amount))

/-- Deposits less withdrawals, since the position was enabled last. -/
def principalLeft (grantId : Nat) : Trace → Int
  | [] => 0
  | e :: older =>
    match move grantId e with
    | none => principalLeft grantId older
    | some .enabled => 0
    | some (.deposited amount) => principalLeft grantId older + amount
    | some (.withdrawn amount _ _) => principalLeft grantId older - amount

/-- The sum over the withdrawals since then of a part of the shares they returned. -/
def paidSince (part : Int → Int → Int) (grantId : Nat) : Trace → Int
  | [] => 0
  | e :: older =>
    match move grantId e with
    | none | some (.deposited _) => paidSince part grantId older
    | some .enabled => 0
    | some (.withdrawn _ grantee treasury) => paidSince part grantId older + part grantee treasury

/-- What they paid as interest, to the grantee and the treasury. -/
def interestPaid (grantId : Nat) (trace : Trace) : Int :=
  paidSince (fun grantee treasury => grantee + treasury) grantId trace

/-- How often the interest was computed since then. -/
def readings (grantId : Nat) : Trace → Int
  | [] => 0
  | e :: older =>
    match move grantId e with
    | none => readings grantId older
    | some .enabled => 0
    | some (.deposited _) | some (.withdrawn _ _ _) => readings grantId older + 1

/-- The simple interest for the time up to the step, in parts of a unit. -/
def interestIn (grantId : Nat) (e : Step) : Int :=
  (e.before.store.positions grantId).elim 0 fun pos =>
    pos.weight * ((e.action.timestamp - e.before.timestamp : Nat) : Int)

/-- The simple interest since the position was enabled last, second by second. -/
def simpleInterest (grantId : Nat) : Trace → Int
  | [] => 0
  | e :: older =>
    match move grantId e with
    | some .enabled => 0
    | _ => simpleInterest grantId older + interestIn grantId e

/-- No accrual of the position at the time of the step saturates. -/
def FitsAt (grantId : Nat) (e : Step) : Prop :=
  ∀ pos ∈ e.before.store.positions grantId, pos.Fits e.action.timestamp

instance (grantId : Nat) (e : Step) : Decidable (FitsAt grantId e) :=
  inferInstanceAs (Decidable (∀ pos ∈ e.before.store.positions grantId, _))

/-- The position as the history says. -/
structure Accounted (grantId : Nat) (trace : Trace) (now : Nat) (pos : YieldPosition) : Prop where
  sound : pos.Sound
  principal : pos.principal = principalLeft grantId trace
  below : (pos.meter (interestPaid grantId trace)).Below partsPerUnit
    (simpleInterest grantId trace) now
  tracks : (∀ e ∈ trace, FitsAt grantId e) →
    (pos.meter (interestPaid grantId trace)).Tracks partsPerUnit (simpleInterest grantId trace)
      (readings grantId trace) now

/-- Time goes by. -/
theorem Accounted.idle (h : Accounted grantId older e.before.timestamp pos)
    (hpos : e.before.store.positions grantId = some pos) (hmove : move grantId e = none)
    (hnow : e.before.timestamp ≤ e.action.timestamp) :
    Accounted grantId (e :: older) e.action.timestamp pos := by
  have hinterest : simpleInterest grantId (e :: older) = simpleInterest grantId older +
      pos.weight * ((e.action.timestamp - e.before.timestamp : Nat) : Int) := by
    simp [simpleInterest, hmove, interestIn, hpos]
  have hpaid : interestPaid grantId (e :: older) = interestPaid grantId older := by
    simp [interestPaid, paidSince, hmove]
  have hreadings : readings grantId (e :: older) = readings grantId older := by
    simp [readings, hmove]
  refine ⟨h.sound, ?_, ?_, fun hfits => ?_⟩
  · simp [principalLeft, hmove, h.principal]
  · rw [hpaid, hinterest]
    exact h.below.tick hnow
  · rw [List.forall_mem_cons] at hfits
    rw [hpaid, hinterest, hreadings]
    exact (h.tracks hfits.2).tick hnow

/-- A deposit or a withdrawal reads the meter. -/
theorem Accounted.read {pos' : YieldPosition} (h : Accounted grantId older e.before.timestamp pos)
    (hpos : e.before.store.positions grantId = some pos)
    (hnow : e.before.timestamp ≤ e.action.timestamp) (hsound : pos'.Sound)
    (hprincipal : pos'.principal = principalLeft grantId (e :: older))
    (hmeter : pos'.meter (interestPaid grantId (e :: older)) =
      (pos.meter (interestPaid grantId older)).read (accrue pos e.action.timestamp) pos'.weight
        e.action.timestamp)
    (hreadings : readings grantId (e :: older) = readings grantId older + 1)
    (hinterest : simpleInterest grantId (e :: older) =
      simpleInterest grantId older + interestIn grantId e) :
    Accounted grantId (e :: older) e.action.timestamp pos' := by
  have hin : interestIn grantId e =
      pos.weight * ((e.action.timestamp - e.before.timestamp : Nat) : Int) := by
    simp [interestIn, hpos]
  have hcovered := h.sound.covered (interestPaid grantId older) e.action.timestamp
  refine ⟨hsound, hprincipal, ?_, fun hfits => ?_⟩
  · rw [hmeter, hinterest, hin]
    exact (h.below.tick hnow).read hcovered
  · rw [List.forall_mem_cons] at hfits
    have hwhole := h.sound.whole (hfits.1 pos hpos) (interestPaid grantId older)
    rw [hmeter, hinterest, hin, hreadings]
    exact ((h.tracks hfits.2).tick hnow).read hcovered hwhole

/-- **Step lemma**, by cases on what is done to the position. -/
theorem Accounted.step {m : Move} {x : Option YieldPosition}
    (h : ∀ pos ∈ x, Accounted grantId older e.before.timestamp pos)
    (hx : e.before.store.positions grantId = x) (hmove : move grantId e = some m)
    (hnow : e.before.timestamp ≤ e.action.timestamp) {x' : Option YieldPosition}
    (hstep : PositionStep e.action.timestamp m x x') :
    ∀ pos ∈ x', Accounted grantId (e :: older) e.action.timestamp pos := by
  rintro pos' hpos'
  cases hstep with
  | enabled x id grantee apyBps hapy =>
      cases hpos'
      have hpaid : interestPaid grantId (e :: older) = 0 := by simp [interestPaid, paidSince, hmove]
      have hinterest : simpleInterest grantId (e :: older) = 0 := by simp [simpleInterest, hmove]
      have hreadings : readings grantId (e :: older) = 0 := by simp [readings, hmove]
      have hstart := LazyMeter.tracks_start partsPerUnit 0 e.action.timestamp
      have hmeter : (newPosition e.action.timestamp id grantee apyBps).meter 0 =
          ⟨0, e.action.timestamp, 0⟩ := by
        simp [YieldPosition.meter, YieldPosition.weight, newPosition]
      refine ⟨⟨le_rfl, hapy, le_rfl, rfl⟩, by simp [principalLeft, hmove, newPosition], ?_, ?_⟩
      · rw [hpaid, hinterest, hmeter]
        exact hstart.toBelow
      · rw [hpaid, hinterest, hmeter, hreadings]
        exact fun _ => hstart
  | deposited pos amount hamount =>
      cases hpos'
      have hold := h pos rfl
      have hsound : (pos.deposit e.action.timestamp amount).Sound :=
        ⟨Int.add_nonneg hold.sound.principal_nonneg hamount.le, hold.sound.apy_nonneg,
          Int.add_nonneg hold.sound.accrued_nonneg (hold.sound.accrue_nonneg _),
          hold.sound.enabled⟩
      refine hold.read hx hnow hsound ?_ ?_ ?_ ?_
      · simp [principalLeft, hmove, YieldPosition.deposit, hold.principal]
      · simp [interestPaid, paidSince, hmove, YieldPosition.meter, LazyMeter.read,
          YieldPosition.deposit, add_assoc]
      · simp [readings, hmove]
      · simp [simpleInterest, hmove]
  | withdrawn pos amount grantee share hle hsplit =>
      cases hpos'
      have hold := h pos rfl
      have htotal : 0 ≤ pos.accruedInterest + accrue pos e.action.timestamp :=
        Int.add_nonneg hold.sound.accrued_nonneg (hold.sound.accrue_nonneg _)
      have hsum : grantee + share = pos.accruedInterest + accrue pos e.action.timestamp := by
        have hshare := (splitInterest_eq_ok htotal hsplit).treasury_eq
        omega
      have hsound : (pos.withdraw e.action.timestamp amount).Sound :=
        ⟨Int.sub_nonneg_of_le hle, hold.sound.apy_nonneg, le_rfl, hold.sound.enabled⟩
      refine hold.read hx hnow hsound ?_ ?_ ?_ ?_
      · simp [principalLeft, hmove, YieldPosition.withdraw, hold.principal]
      · simp [interestPaid, paidSince, hmove, YieldPosition.meter, LazyMeter.read,
          YieldPosition.withdraw, hsum, add_assoc]
      · simp [readings, hmove]
      · simp [simpleInterest, hmove]

namespace Demo

def deposit : Ledger.Event Address Call :=
  Demo.call 1000 (.depositToYield 1 100000)

def withdraw : Ledger.Event Address Call :=
  Demo.call 31537000 (.withdrawFromYield 1 40000 token Demo.treasury)

end Demo

/-- What the withdrawals since the position was enabled returned for the grantee. -/
def granteePaid (grantId : Nat) (trace : Trace) : Int :=
  paidSince (fun grantee _ => grantee) grantId trace

/-- How many there were. -/
def withdrawals (grantId : Nat) (trace : Trace) : Int := paidSince (fun _ _ => 1) grantId trace

theorem Split.bounds {total grantee share : Int} (h : Split total grantee share) :
    grantee * bpsDenom ≤ granteeYieldShareBps * total ∧
      granteeYieldShareBps * total ≤ (grantee + 1) * bpsDenom := by
  have hgrantee := h.grantee_eq
  unfold granteeYieldShareBps bpsDenom at *
  omega

/-- The share of the grantee is 70% up to a unit for each withdrawal. -/
structure Shared (grantId : Nat) (trace : Trace) : Prop where
  grantee_le : granteePaid grantId trace * bpsDenom ≤
    granteeYieldShareBps * interestPaid grantId trace
  le_grantee : granteeYieldShareBps * interestPaid grantId trace ≤
    (granteePaid grantId trace + withdrawals grantId trace) * bpsDenom

theorem Shared.of_eq {newer : Trace} (h : Shared grantId older)
    (hpart : ∀ part, paidSince part grantId newer = paidSince part grantId older) :
    Shared grantId newer := by
  obtain ⟨hle, hge⟩ := h
  constructor
  · simp only [granteePaid, interestPaid, hpart] at hle ⊢
    exact hle
  · simp only [granteePaid, interestPaid, withdrawals, hpart] at hge ⊢
    exact hge

theorem Shared.withdrawn {total grantee share : Int} (h : Shared grantId older)
    (hmove : move grantId e = some (.withdrawn amount grantee share))
    (hsplit : Split total grantee share) : Shared grantId (e :: older) := by
  have hpart (part : Int → Int → Int) : paidSince part grantId (e :: older) =
      paidSince part grantId older + part grantee share := by
    simp [paidSince, hmove]
  have hshares : grantee + share = total := by
    have htreasury := hsplit.treasury_eq
    omega
  have hbounds := hsplit.bounds
  obtain ⟨hle, hge⟩ := h
  unfold granteePaid interestPaid at hle
  unfold granteePaid interestPaid withdrawals at hge
  constructor
  · simp only [granteePaid, interestPaid, hpart, hshares, add_mul, mul_add]
    exact Int.add_le_add hle hbounds.1
  · simp only [granteePaid, interestPaid, withdrawals, hpart, hshares]
    linarith [hbounds.2]

end YieldTrust.StreamingYield
