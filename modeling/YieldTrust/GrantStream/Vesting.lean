import Mathlib.Tactic.NormNum.NatSqrt
import YieldTrust.GrantStream.IntegerSqrt

/-!
# YieldTrust.GrantStream.Vesting

The two vesting curves of `lib.rs`. Both measure the progress in steps of 0.1% and fall back on
other values where a product does not fit in a `u128`. The exponential curve then vests all of the
total. The logarithmic one vests all of it as soon as there is any progress, except where only
the last of its products does not fit: there it vests next to nothing.
-/

namespace YieldTrust.GrantStream

open Fallible

/-! ### The curves -/

/-- The progress in steps of 0.1%: a `u64` times `1000` fits in a `u128`. -/
def vestingProgress (elapsed duration : Nat) : Nat := elapsed * 1000 / duration

def computeExponentialVesting (total start now duration factor : Nat) : Res Nat :=
  if duration = 0 then pure (if start ≤ now then total else 0)
  else if now ≤ start then pure 0
  else
    let elapsed := now - start
    if duration ≤ elapsed then pure total
    else
      let progress := vestingProgress elapsed duration
      match U128.checkedMul progress progress with
      | none => pure total
      | some progressSquared =>
        match U128.checkedMul progressSquared factor with
        | none => pure total
        | some factorProgress =>
          let vested := match U128.checkedMul total factorProgress with
            | some v => v / 1000000000
            | none => total
          pure (min vested total)

/-- The last steps of `computeLogarithmicVesting`. -/
def logarithmicShare (total sqrtProgressFactor sqrtFactor : Nat) : Nat :=
  let vested := match U128.checkedMul total sqrtProgressFactor with
    | some v =>
      let normalized := match U128.checkedMul v 1000 with
        | some v2 => v2
        | none => total
      if sqrtFactor = 0 then total else normalized / sqrtFactor / 1000
    | none => total
  min vested total

def computeLogarithmicVesting (total start now duration factor : Nat) : Res Nat :=
  if duration = 0 then pure (if start ≤ now then total else 0)
  else if now ≤ start then pure 0
  else
    let elapsed := now - start
    if duration ≤ elapsed then pure total
    else
      let progress := vestingProgress elapsed duration
      if progress = 0 then pure 0
      else
        match U128.checkedMul progress factor with
        | none => pure total
        | some progressFactor => do
          let sqrtProgressFactor ← integerSqrt progressFactor
          let sqrtFactor ← integerSqrt factor
          if sqrtFactor = 0 then return 0
          return logarithmicShare total sqrtProgressFactor sqrtFactor

/-! ### What the curves return -/

/-- The terms of a vesting schedule. -/
structure Vesting where
  total : Nat
  start : Nat
  duration : Nat
  factor : Nat

namespace Vesting

variable (vesting : Vesting)

def progress (now : Nat) : Nat := vestingProgress (now - vesting.start) vesting.duration

/-- The schedule has begun and has not ended. -/
def Running (now : Nat) : Prop := vesting.start < now ∧ now - vesting.start < vesting.duration

/-- The total times the square of the progress times the factor. -/
def exponentialProduct (now : Nat) : Nat :=
  vesting.total * (vesting.progress now * vesting.progress now * vesting.factor)

def exponential (now : Nat) : Nat :=
  if now ≤ vesting.start then 0
  else if vesting.duration ≤ now - vesting.start then vesting.total
  else if vesting.exponentialProduct now < U128.size then
    min (vesting.exponentialProduct now / 1000000000) vesting.total
  else vesting.total

/-- The logarithmic curve uses its formula. -/
def Curving (now : Nat) : Prop :=
  vesting.Running now ∧ 0 < vesting.progress now ∧ 0 < vesting.factor

/-- The total times the root of the progress times the factor. -/
def logarithmicProduct (now : Nat) : Nat :=
  vesting.total * Nat.sqrt (vesting.progress now * vesting.factor)

/-- Only the last product of the logarithmic formula does not fit. -/
def Dips (now : Nat) : Prop :=
  vesting.logarithmicProduct now < U128.size ∧ U128.size ≤ vesting.logarithmicProduct now * 1000

instance (now : Nat) : Decidable (vesting.Running now) := inferInstanceAs (Decidable (_ ∧ _))

instance (now : Nat) : Decidable (vesting.Curving now) := inferInstanceAs (Decidable (_ ∧ _))

instance (now : Nat) : Decidable (vesting.Dips now) := inferInstanceAs (Decidable (_ ∧ _))

/-- All of the total from the first 0.1% on, except where the last product does not fit. -/
def logarithmic (now : Nat) : Nat :=
  if now ≤ vesting.start then 0
  else if vesting.duration ≤ now - vesting.start then vesting.total
  else if 0 < vesting.progress now ∧ 0 < vesting.factor then
    if vesting.Dips now then vesting.total / Nat.sqrt vesting.factor / 1000 else vesting.total
  else 0

/-- The schedule lasts, and its factor is a `u32`. -/
structure Valid : Prop where
  duration_pos : 0 < vesting.duration
  factor_lt : vesting.factor < U32.size

variable {vesting} {now now₁ now₂ : Nat}

theorem Running.progress_lt (h : vesting.Running now) : vesting.progress now < 1000 := by
  have hlt := h.2
  exact Nat.div_lt_of_lt_mul (by omega)

theorem progress_mono (h : now₁ ≤ now₂) : vesting.progress now₁ ≤ vesting.progress now₂ :=
  Nat.div_le_div_right (by omega)

theorem Valid.progress_mul_lt (h : vesting.Valid) (hrunning : vesting.Running now) :
    vesting.progress now * vesting.factor < 1000 * U32.size :=
  Nat.mul_lt_mul'' hrunning.progress_lt h.factor_lt

theorem computeExponentialVesting_eq (h : vesting.Valid) (now : Nat) :
    computeExponentialVesting vesting.total vesting.start now vesting.duration vesting.factor =
      .ok (vesting.exponential now) := by
  have hduration := h.duration_pos
  unfold computeExponentialVesting exponential
  rw [if_neg (by omega)]
  by_cases hstart : now ≤ vesting.start
  · simp only [if_pos hstart]
    rfl
  by_cases hend : vesting.duration ≤ now - vesting.start
  · simp only [if_neg hstart, if_pos hend]
    rfl
  have hrunning : vesting.Running now := ⟨by omega, by omega⟩
  have hprogress := hrunning.progress_lt
  have hsquare : vesting.progress now * vesting.progress now < 1000 * 1000 :=
    Nat.mul_lt_mul'' hprogress hprogress
  have hfactor : vesting.progress now * vesting.progress now * vesting.factor <
      1000 * 1000 * U32.size := Nat.mul_lt_mul'' hsquare h.factor_lt
  -- the first two products fit
  have hfits₁ : U128.checkedMul (vesting.progress now) (vesting.progress now) =
      some (vesting.progress now * vesting.progress now) :=
    U128.checkedMul_eq_some.mpr ⟨hsquare.trans (by decide), rfl⟩
  have hfits₂ : U128.checkedMul (vesting.progress now * vesting.progress now) vesting.factor =
      some (vesting.progress now * vesting.progress now * vesting.factor) :=
    U128.checkedMul_eq_some.mpr ⟨hfactor.trans (by decide), rfl⟩
  unfold progress at hfits₁ hfits₂
  simp only [if_neg hstart, if_neg hend, hfits₁, hfits₂]
  unfold U128.checkedMul exponentialProduct progress
  split_ifs
  · rfl
  · exact congrArg _ (min_self _)

/-- The formula of the logarithmic curve: there is no loss where everything fits. -/
theorem logarithmicShare_eq {total root root' : Nat} (hpos : 0 < root) (hle : root ≤ root') :
    logarithmicShare total root' root =
      if total * root' < U128.size ∧ U128.size ≤ total * root' * 1000 then total / root / 1000
      else total := by
  have hne : ¬root = 0 := by omega
  unfold logarithmicShare U128.checkedMul
  by_cases hfits : total * root' < U128.size
  · by_cases hfits' : total * root' * 1000 < U128.size
    · have hwhole : total ≤ total * root' * 1000 / root / 1000 := by
        rw [Nat.div_div_eq_div_mul, Nat.mul_div_mul_right _ _ (by decide)]
        exact (Nat.le_div_iff_mul_le hpos).mpr (Nat.mul_le_mul_left _ hle)
      simp [hfits, hfits', hne, hwhole]
    · have hpart : total / root / 1000 ≤ total :=
        (Nat.div_le_self _ _).trans (Nat.div_le_self _ _)
      simp [hfits, Nat.not_lt.mp hfits', hfits', hne, hpart]
  · simp [hfits]

/-- The product and its root are computed without an overflow. -/
theorem Valid.progress_product (h : vesting.Valid) (hrunning : vesting.Running now) :
    U128.checkedMul (vesting.progress now) vesting.factor =
        some (vesting.progress now * vesting.factor) ∧
      integerSqrt (vesting.progress now * vesting.factor) =
        .ok (Nat.sqrt (vesting.progress now * vesting.factor)) := by
  have hproduct := h.progress_mul_lt hrunning
  have hsize : 2 * (1000 * U32.size) < U128.size := by decide
  exact ⟨U128.checkedMul_eq_some.mpr ⟨by omega, rfl⟩, integerSqrt_eq (by omega)⟩

theorem Valid.integerSqrt_factor (h : vesting.Valid) :
    integerSqrt vesting.factor = .ok (Nat.sqrt vesting.factor) := by
  have hfactor := h.factor_lt
  have hsize : 2 * U32.size < U128.size := by decide
  exact integerSqrt_eq (by omega)

theorem computeLogarithmicVesting_eq (h : vesting.Valid) (now : Nat) :
    computeLogarithmicVesting vesting.total vesting.start now vesting.duration vesting.factor =
      .ok (vesting.logarithmic now) := by
  have hduration := h.duration_pos
  unfold computeLogarithmicVesting logarithmic
  rw [if_neg (by omega)]
  by_cases hstart : now ≤ vesting.start
  · simp only [if_pos hstart]
    rfl
  by_cases hend : vesting.duration ≤ now - vesting.start
  · simp only [if_neg hstart, if_pos hend]
    rfl
  have hrunning : vesting.Running now := ⟨by omega, by omega⟩
  obtain ⟨hfits, hroot⟩ := h.progress_product hrunning
  unfold progress at hfits hroot
  simp only [if_neg hstart, if_neg hend, hfits]
  by_cases hnone : vesting.progress now = 0
  · have hzero : vestingProgress (now - vesting.start) vesting.duration = 0 := hnone
    simp only [hzero, hnone, if_true, lt_irrefl, false_and, if_false]
    rfl
  have hsome : ¬vestingProgress (now - vesting.start) vesting.duration = 0 := hnone
  simp only [if_neg hsome, hroot, h.integerSqrt_factor]
  by_cases hfactor₀ : vesting.factor = 0
  · simp [hfactor₀]
    rfl
  have hroot_pos : 0 < Nat.sqrt vesting.factor := Nat.sqrt_pos.mpr (by omega)
  have hroot_le : Nat.sqrt vesting.factor ≤ Nat.sqrt (vesting.progress now * vesting.factor) :=
    Nat.sqrt_le_sqrt (Nat.le_mul_of_pos_left _ (by omega))
  have hshare : (if vesting.Dips now then vesting.total / Nat.sqrt vesting.factor / 1000
      else vesting.total) = logarithmicShare vesting.total
        (Nat.sqrt (vesting.progress now * vesting.factor)) (Nat.sqrt vesting.factor) :=
    (logarithmicShare_eq hroot_pos hroot_le).symm
  have hcurving : 0 < vesting.progress now ∧ 0 < vesting.factor := ⟨by omega, by omega⟩
  have hne : ¬Nat.sqrt vesting.factor = 0 := by omega
  rw [if_pos hcurving, hshare]
  show (if Nat.sqrt vesting.factor = 0 then _ else _) = _
  rw [if_neg hne]
  rfl

/-! ### What is expected of a curve -/

/-- What is expected of the values `v₁` and `v₂` of a curve at `now₁` and later. -/
structure Expected (vesting : Vesting) (now₁ v₁ v₂ : Nat) : Prop where
  mono : v₁ ≤ v₂
  zero : now₁ ≤ vesting.start → v₁ = 0
  le_total : v₁ ≤ vesting.total
  full : vesting.duration ≤ now₁ - vesting.start → v₁ = vesting.total
  /-- The factor is scaled by `1000`. -/
  strict : vesting.factor = 1000 → 0 < vesting.total → now₁ - vesting.start < vesting.duration →
    v₁ < vesting.total

/-- The curve, which takes the total, the start, the time, the duration and the factor, returns
what is expected. -/
def Meets (vesting : Vesting) (curve : Nat → Nat → Nat → Nat → Nat → Res Nat)
    (now₁ now₂ : Nat) : Prop :=
  ∃ v₁ v₂, curve vesting.total vesting.start now₁ vesting.duration vesting.factor = .ok v₁ ∧
    curve vesting.total vesting.start now₂ vesting.duration vesting.factor = .ok v₂ ∧
    vesting.Expected now₁ v₁ v₂

theorem meets_iff {curve : Nat → Nat → Nat → Nat → Nat → Res Nat} {v₁ v₂ : Nat}
    (h₁ : curve vesting.total vesting.start now₁ vesting.duration vesting.factor = .ok v₁)
    (h₂ : curve vesting.total vesting.start now₂ vesting.duration vesting.factor = .ok v₂) :
    vesting.Meets curve now₁ now₂ ↔ vesting.Expected now₁ v₁ v₂ := by
  constructor
  · rintro ⟨v₁', v₂', h₁', h₂', hexpected⟩
    obtain rfl := Except.ok.inj (h₁.symm.trans h₁')
    obtain rfl := Except.ok.inj (h₂.symm.trans h₂')
    exact hexpected
  · intro hexpected
    exact ⟨v₁, v₂, h₁, h₂, hexpected⟩

/-! ### The exponential curve -/

/-- Where the factor is the scaled `1`, the product fits. -/
def ExponentialFits (vesting : Vesting) (now : Nat) : Prop :=
  vesting.factor = 1000 → vesting.Running now → vesting.exponentialProduct now < U128.size

theorem exponential_le_total (now : Nat) : vesting.exponential now ≤ vesting.total := by
  unfold exponential
  split_ifs
  · exact Nat.zero_le _
  · exact le_rfl
  · exact min_le_right _ _
  · exact le_rfl

theorem exponentialProduct_mono (h : now₁ ≤ now₂) :
    vesting.exponentialProduct now₁ ≤ vesting.exponentialProduct now₂ := by
  have hprogress : vesting.progress now₁ ≤ vesting.progress now₂ := progress_mono h
  exact Nat.mul_le_mul_left _ (Nat.mul_le_mul_right _ (Nat.mul_le_mul hprogress hprogress))

/-- The fallback only comes after the formula. -/
theorem exponential_mono (h : now₁ ≤ now₂) :
    vesting.exponential now₁ ≤ vesting.exponential now₂ := by
  have hproduct : vesting.exponentialProduct now₁ ≤ vesting.exponentialProduct now₂ :=
    exponentialProduct_mono h
  have hle := vesting.exponential_le_total now₁
  by_cases hstart : now₁ ≤ vesting.start
  · have hzero : vesting.exponential now₁ = 0 := if_pos hstart
    omega
  by_cases hend : vesting.duration ≤ now₂ - vesting.start
  · have hfull : vesting.exponential now₂ = vesting.total := by
      unfold exponential
      rw [if_neg (by omega), if_pos hend]
    omega
  by_cases hfits : vesting.exponentialProduct now₂ < U128.size
  · unfold exponential
    rw [if_neg hstart, if_neg (by omega), if_pos (by omega), if_neg (by omega), if_neg hend,
      if_pos hfits]
    exact min_le_min_right _ (Nat.div_le_div_right hproduct)
  · have hfull : vesting.exponential now₂ = vesting.total := by
      unfold exponential
      rw [if_neg (by omega), if_neg hend, if_neg hfits]
    omega

theorem exponential_expected_iff (hduration : 0 < vesting.duration) (h : now₁ ≤ now₂) :
    vesting.Expected now₁ (vesting.exponential now₁) (vesting.exponential now₂) ↔
      vesting.ExponentialFits now₁ := by
  constructor
  · intro hexpected hfactor hrunning
    by_contra hfits
    have hpos : 0 < vesting.total := by
      by_contra hzero
      have hnone : vesting.exponentialProduct now₁ = 0 := by
        rw [exponentialProduct, Nat.eq_zero_of_not_pos hzero, Nat.zero_mul]
      rw [hnone] at hfits
      exact hfits (by decide)
    have hstrict := hexpected.strict hfactor hpos hrunning.2
    obtain ⟨hstart, hend⟩ := hrunning
    have hfull : vesting.exponential now₁ = vesting.total := by
      unfold exponential
      rw [if_neg (by omega), if_neg (by omega), if_neg hfits]
    omega
  · intro hfits
    refine ⟨exponential_mono h, fun hstart => if_pos hstart, exponential_le_total now₁, ?_, ?_⟩
    · intro hend
      unfold exponential
      split_ifs with hstart
      · omega
      · rfl
    · intro hfactor hpos hend
      by_cases hstart : now₁ ≤ vesting.start
      · have hzero : vesting.exponential now₁ = 0 := if_pos hstart
        omega
      · have hrunning : vesting.Running now₁ := ⟨by omega, hend⟩
        have hprogress : vesting.progress now₁ ≤ 999 := Nat.le_of_lt_succ hrunning.progress_lt
        have hsquare : vesting.progress now₁ * vesting.progress now₁ ≤ 999 * 999 :=
          Nat.mul_le_mul hprogress hprogress
        have hvalue : vesting.exponential now₁ ≤ vesting.exponentialProduct now₁ / 1000000000 := by
          unfold exponential
          rw [if_neg hstart, if_neg (by omega), if_pos (hfits hfactor hrunning)]
          exact min_le_left _ _
        refine hvalue.trans_lt (Nat.div_lt_of_lt_mul ?_)
        rw [exponentialProduct, hfactor, Nat.mul_comm 1000000000]
        exact Nat.mul_lt_mul_of_pos_left (by omega) hpos

/-! ### The logarithmic curve -/

/-- After a time at which everything fits, the curve does not dip; and where the factor is the
scaled `1` it does nothing else. -/
structure LogarithmicFits (vesting : Vesting) (now₁ now₂ : Nat) : Prop where
  noDip : vesting.Curving now₁ → vesting.logarithmicProduct now₁ * 1000 < U128.size →
    ¬(vesting.Curving now₂ ∧ vesting.Dips now₂)
  dips : vesting.factor = 1000 → 0 < vesting.total → vesting.Curving now₁ → vesting.Dips now₁

theorem logarithmic_of_curving (h : vesting.Curving now) :
    vesting.logarithmic now = if vesting.Dips now then
      vesting.total / Nat.sqrt vesting.factor / 1000 else vesting.total := by
  obtain ⟨⟨hstart, hend⟩, hcurving⟩ := h
  unfold logarithmic
  rw [if_neg (by omega), if_neg (by omega), if_pos hcurving]

theorem logarithmic_of_ended (h : vesting.start < now)
    (hend : vesting.duration ≤ now - vesting.start) : vesting.logarithmic now = vesting.total := by
  unfold logarithmic
  rw [if_neg (by omega), if_pos hend]

/-- Before any progress nothing is vested. -/
theorem logarithmic_of_not_curving (h : ¬vesting.Curving now)
    (hend : now - vesting.start < vesting.duration) : vesting.logarithmic now = 0 := by
  by_cases hstart : now ≤ vesting.start
  · exact if_pos hstart
  · unfold logarithmic
    rw [if_neg hstart, if_neg (by omega), if_neg fun hcurving => h ⟨⟨by omega, hend⟩, hcurving⟩]

theorem logarithmicProduct_mono (h : now₁ ≤ now₂) :
    vesting.logarithmicProduct now₁ ≤ vesting.logarithmicProduct now₂ :=
  Nat.mul_le_mul_left _ (Nat.sqrt_le_sqrt (Nat.mul_le_mul_right _ (progress_mono h)))

/-- A dip is below the total. -/
theorem Dips.lt (h : vesting.Dips now) :
    vesting.total / Nat.sqrt vesting.factor / 1000 < vesting.total := by
  have hpos : 0 < vesting.total := by
    by_contra hzero
    have hnone : vesting.logarithmicProduct now = 0 := by
      rw [logarithmicProduct, Nat.eq_zero_of_not_pos hzero, Nat.zero_mul]
    have hlarge := h.2
    rw [hnone] at hlarge
    exact absurd hlarge (by decide)
  have hle : vesting.total / Nat.sqrt vesting.factor ≤ vesting.total := Nat.div_le_self _ _
  omega

theorem logarithmic_le_total (now : Nat) : vesting.logarithmic now ≤ vesting.total := by
  by_cases hcurving : vesting.Curving now
  · rw [logarithmic_of_curving hcurving]
    split_ifs with hdips
    · exact hdips.lt.le
    · exact le_rfl
  · unfold logarithmic
    split_ifs with hstart hend hformula hdips
    · exact Nat.zero_le _
    · exact le_rfl
    · exact hdips.lt.le
    · exact le_rfl
    · exact Nat.zero_le _

theorem Curving.mono (h : vesting.Curving now₁) (hle : now₁ ≤ now₂)
    (hend : now₂ - vesting.start < vesting.duration) : vesting.Curving now₂ := by
  obtain ⟨⟨hstart, -⟩, hprogress, hfactor⟩ := h
  exact ⟨⟨by omega, hend⟩, hprogress.trans_le (progress_mono hle), hfactor⟩

/-- The curve falls exactly into a dip. -/
theorem logarithmic_le_iff (h : now₁ ≤ now₂) :
    vesting.logarithmic now₁ ≤ vesting.logarithmic now₂ ↔
      (vesting.Curving now₁ → vesting.logarithmicProduct now₁ * 1000 < U128.size →
        ¬(vesting.Curving now₂ ∧ vesting.Dips now₂)) := by
  have hproduct : vesting.logarithmicProduct now₁ ≤ vesting.logarithmicProduct now₂ :=
    logarithmicProduct_mono h
  by_cases hcurving : vesting.Curving now₁
  · by_cases hend : now₂ - vesting.start < vesting.duration
    · have hcurving₂ := hcurving.mono h hend
      rw [logarithmic_of_curving hcurving, logarithmic_of_curving hcurving₂]
      by_cases hdips₂ : vesting.Dips now₂
      · have hlt := hdips₂.lt
        have hfits := hdips₂.1
        by_cases hdips₁ : vesting.Dips now₁
        · have hlarge := hdips₁.2
          rw [if_pos hdips₁, if_pos hdips₂]
          exact iff_of_true le_rfl fun _ hsmall => by omega
        · have hsmall : vesting.logarithmicProduct now₁ * 1000 < U128.size := by
            by_contra hlarge
            exact hdips₁ ⟨by omega, by omega⟩
          rw [if_neg hdips₁, if_pos hdips₂]
          exact iff_of_false (by omega) fun hno => hno hcurving hsmall ⟨hcurving₂, hdips₂⟩
      · rw [if_neg hdips₂, ← logarithmic_of_curving hcurving]
        exact iff_of_true (logarithmic_le_total now₁) fun _ _ hboth => hdips₂ hboth.2
    · have hstart := hcurving.1.1
      have hended : vesting.logarithmic now₂ = vesting.total :=
        logarithmic_of_ended (by omega) (by omega)
      rw [hended]
      exact iff_of_true (logarithmic_le_total now₁) fun _ _ hboth => hend hboth.1.1.2
  · refine iff_of_true ?_ fun hno => absurd hno hcurving
    by_cases hend : now₁ - vesting.start < vesting.duration
    · rw [logarithmic_of_not_curving hcurving hend]
      exact Nat.zero_le _
    · by_cases hstart : vesting.start < now₂
      · rw [logarithmic_of_ended hstart (by omega)]
        exact logarithmic_le_total now₁
      · have hzero : vesting.logarithmic now₁ = 0 := if_pos (by omega)
        omega

theorem logarithmic_expected_iff (hduration : 0 < vesting.duration) (h : now₁ ≤ now₂) :
    vesting.Expected now₁ (vesting.logarithmic now₁) (vesting.logarithmic now₂) ↔
      vesting.LogarithmicFits now₁ now₂ := by
  constructor
  · intro hexpected
    refine ⟨(logarithmic_le_iff h).mp hexpected.mono, fun hfactor hpos hcurving => ?_⟩
    have hstrict := hexpected.strict hfactor hpos hcurving.1.2
    rw [logarithmic_of_curving hcurving] at hstrict
    by_contra hdips
    rw [if_neg hdips] at hstrict
    exact lt_irrefl _ hstrict
  · intro hfits
    refine ⟨(logarithmic_le_iff h).mpr hfits.noDip, fun hstart => if_pos hstart,
      logarithmic_le_total now₁, fun hend => logarithmic_of_ended (by omega) hend, ?_⟩
    intro hfactor hpos hend
    by_cases hcurving : vesting.Curving now₁
    · have hdips := hfits.dips hfactor hpos hcurving
      rw [logarithmic_of_curving hcurving, if_pos hdips]
      exact hdips.lt
    · rw [logarithmic_of_not_curving hcurving hend]
      exact hpos

end Vesting

/-- **Vesting curves.** Between two times both curves do what is expected of them exactly if the
exponential product fits where the factor is the scaled `1`, and the logarithmic curve does not
dip after a time at which everything fits, nor leaves `0` with that factor except in a dip. -/
theorem vesting_curves_iff {vesting : Vesting} (h : vesting.Valid) {now₁ now₂ : Nat}
    (hle : now₁ ≤ now₂) :
    vesting.Meets computeExponentialVesting now₁ now₂ ∧
        vesting.Meets computeLogarithmicVesting now₁ now₂ ↔
      vesting.ExponentialFits now₁ ∧ vesting.LogarithmicFits now₁ now₂ := by
  rw [Vesting.meets_iff (Vesting.computeExponentialVesting_eq h now₁)
      (Vesting.computeExponentialVesting_eq h now₂),
    Vesting.meets_iff (Vesting.computeLogarithmicVesting_eq h now₁)
      (Vesting.computeLogarithmicVesting_eq h now₂),
    Vesting.exponential_expected_iff h.duration_pos hle,
    Vesting.logarithmic_expected_iff h.duration_pos hle]

/-- A schedule over `100000` seconds, before and in the middle of its progress. -/
theorem vesting_curves_before_progress :
    let vesting : Vesting := ⟨1000000, 0, 100000, 1000⟩
    vesting.Meets computeExponentialVesting 50 50000 ∧
      vesting.Meets computeLogarithmicVesting 50 50000 := by
  intro vesting
  have hvalid : vesting.Valid := ⟨by decide, by decide⟩
  refine (vesting_curves_iff hvalid (by decide)).mpr ⟨fun _ _ => by decide, ⟨?_, ?_⟩⟩
  · intro hcurving
    exact absurd hcurving (by decide)
  · intro _ _ hcurving
    exact absurd hcurving (by decide)

/-- The logarithmic curve vests all of `100` after the first of `1000` seconds. -/
theorem vesting_curves_vest_early :
    ¬∀ vesting : Vesting, vesting.Valid → ∀ now₁ now₂, now₁ ≤ now₂ →
      vesting.Meets computeExponentialVesting now₁ now₂ ∧
        vesting.Meets computeLogarithmicVesting now₁ now₂ := by
  intro h
  let vesting : Vesting := ⟨100, 0, 1000, 1000⟩
  have hvalid : vesting.Valid := ⟨by decide, by decide⟩
  obtain ⟨v₁, v₂, hv₁, -, hexpected⟩ := (h vesting hvalid 1 1 le_rfl).2
  obtain rfl := Except.ok.inj ((Vesting.computeLogarithmicVesting_eq hvalid 1).symm.trans hv₁)
  have hstrict := hexpected.strict rfl (by decide) (by decide)
  have hfits : ¬vesting.Dips 1 := by
    norm_num [vesting, Vesting.Dips, Vesting.logarithmicProduct, Vesting.progress,
      vestingProgress, U128.size]
  rw [Vesting.logarithmic_of_curving (by decide), if_neg hfits] at hstrict
  exact lt_irrefl _ hstrict

end YieldTrust.GrantStream
