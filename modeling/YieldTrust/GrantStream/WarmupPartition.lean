import YieldTrust.GrantStream.TimeFlow
import YieldTrust.Lib.Partition

/-!
# YieldTrust.GrantStream.WarmupPartition

What a grant in its warmup accrues, settled once or several times. A settlement
pays its whole interval at the multiplier of the end of the interval, so each
settlement in between forgoes the growth of the multiplier after it. That is the
whole difference, up to the rounding of each settlement.
-/

namespace YieldTrust.GrantStream

open Fallible

/-- Settle at the `times` in between and then at `stop`. -/
def settleAlong (grant : Grant) : List Nat → Nat → Res Grant
  | [], stop => settleGrant grant stop
  | time :: times, stop => do
    let settled ← settleGrant grant time
    settleAlong settled times stop

namespace Grant

/-- What settling `grant` to `settled` credited, the validator's share included. -/
def credit (grant settled : Grant) : Int :=
  settled.claimable + settled.validatorClaimable - (grant.claimable + grant.validatorClaimable)

/-- The flow from `a` to `b` at the multiplier of `b`, in basis points. -/
def flow (grant : Grant) (a b : Nat) : Int :=
  grant.flowRate * ((b - a : Nat) : Int) * grant.warmupBps b

/-- What a settlement at `b`, after one at `a`, forgoes against one at `stop`, in basis
points: the multiplier that is reached at `stop` is not paid for the time until `b`. -/
def forgone (grant : Grant) (stop a b : Nat) : Int :=
  grant.flowRate * ((b - a : Nat) : Int) * (grant.warmupBps stop - grant.warmupBps b)

/-- What settling at the `times` forgoes against settling once at `stop`, in basis points. -/
def warmupForgone (grant : Grant) (times : List Nat) (stop : Nat) : Int :=
  if grant.streams then Partition.sum (grant.forgone stop) grant.lastUpdateTs times stop else 0

/-- The credits of settlements in a row add up. -/
theorem credit_add (grant settled settled' : Grant) :
    grant.credit settled + settled.credit settled' = grant.credit settled' := by
  unfold credit
  omega

/-! ### One settlement -/

/-- `settled` is `grant` after a settlement at `time` that neither reached the cap nor
changed the rate. -/
structure Continues (grant : Grant) (time : Nat) (settled : Grant) : Prop where
  le : grant.lastUpdateTs ≤ time
  credit : grant.credit settled =
    if grant.streams then grant.accrual grant.flowRate (time - grant.lastUpdateTs) time else 0
  lastUpdateTs : settled.lastUpdateTs = time
  flowRate : settled.flowRate = grant.flowRate
  pendingRateDue : settled.pendingRateDue = grant.pendingRateDue
  warmupBps : settled.warmupBps = grant.warmupBps
  streams : settled.streams ↔ grant.streams
  status : settled.status = grant.status

theorem dueAccrual_of_streams {grant : Grant} {time : Nat} (h : grant.streams)
    (hdue : grant.pendingRateDue time = false) :
    grant.dueAccrual time = grant.accrual grant.flowRate (time - grant.lastUpdateTs) time := by
  by_cases ht : time = grant.lastUpdateTs
  · simp [dueAccrual, accrues, accrual, ht]
  · simp [dueAccrual, accrues, newAccrual, firstAccrual, secondAccrual, h, hdue, ht]

theorem Continues.of_settles {grant s : Grant} {time : Nat} (hs : Settles grant time s)
    (hstatus : s.status ≠ .completed) (hdue : grant.pendingRateDue time = false) :
    grant.Continues time s := by
  have hswitch : ¬grant.switches time := by simp [switches, hdue]
  obtain ⟨hflow, hpending, heffective⟩ := settled_of_not_switches hswitch
  have hle := hs.lastUpdateTs_le
  obtain rfl := hs.eq_settled
  have hopen : ¬grant.completes time := by
    intro hc
    rw [settled_status, if_pos hc] at hstatus
    exact hstatus rfl
  have hkept : (grant.settled time).status = grant.status := by rw [settled_status, if_neg hopen]
  refine ⟨hle, ?_, grant.settled_lastUpdateTs time, hflow, ?_, ?_, ?_, hkept⟩
  · unfold Grant.credit
    rw [settled_claimable, if_neg hopen, settled_validatorClaimable]
    by_cases hstreams : grant.streams
    · rw [if_pos hstreams, ← dueAccrual_of_streams hstreams hdue]
      omega
    · have hzero : grant.dueAccrual time = 0 := if_neg fun ha => hstreams ha.2
      rw [if_neg hstreams, hzero]
      omega
  · funext t
    simp only [Grant.pendingRateDue, hflow, hpending, heffective]
  · funext t
    simp only [Grant.warmupBps, warmupProgress, settled_startTime, settled_warmupDuration]
  · simp only [Grant.streams, hkept, settled_gateClosed]

end Grant

/-- Settling never reopens a completed grant. -/
theorem settles_completed {grant s : Grant} {time : Nat} (hs : Settles grant time s)
    (h : grant.status = .completed) : s.status = .completed := by
  rw [hs.eq_settled, Grant.settled_status, h, ite_self]

theorem settleAlong_completed {grant m : Grant} {times : List Nat} {stop : Nat}
    (h : settleAlong grant times stop = .ok m) (hstatus : grant.status = .completed) :
    m.status = .completed := by
  induction times generalizing grant with
  | nil => exact settles_completed (settleGrant_eq_ok h) hstatus
  | cons time times ih =>
      obtain ⟨s, hs, h⟩ := bind_eq_ok.mp h
      exact ih h (settles_completed (settleGrant_eq_ok hs) hstatus)

/-! ### Several settlements -/

theorem settleAlong_ordered {grant m : Grant} {times : List Nat} {stop : Nat}
    (h : settleAlong grant times stop = .ok m) :
    Partition.Ordered grant.lastUpdateTs times stop := by
  induction times generalizing grant with
  | nil => exact (settleGrant_eq_ok h).lastUpdateTs_le
  | cons time times ih =>
      obtain ⟨s, hs, h⟩ := bind_eq_ok.mp h
      have hs := settleGrant_eq_ok hs
      exact ⟨hs.lastUpdateTs_le, hs.lastUpdateTs ▸ ih h⟩

/-- As long as no cap is reached, every settlement credits its own interval. -/
theorem settleAlong_credit {grant m : Grant} {times : List Nat} {stop : Nat}
    (h : settleAlong grant times stop = .ok m) (hstatus : m.status ≠ .completed)
    (hdue : grant.pendingRateDue stop = false) :
    grant.credit m =
      if grant.streams then Partition.sum (fun a b => grant.accrual grant.flowRate (b - a) b)
        grant.lastUpdateTs times stop
      else 0 := by
  induction times generalizing grant with
  | nil => exact (Grant.Continues.of_settles (settleGrant_eq_ok h) hstatus hdue).credit
  | cons time times ih =>
      have hle := (settleAlong_ordered h).2.le
      obtain ⟨s, hs, h⟩ := bind_eq_ok.mp h
      have hdue' : grant.pendingRateDue time = false := by
        by_contra hlate
        have hlate := Grant.pendingRateDue_mono hle (by simpa using hlate)
        cases hdue.symm.trans hlate
      have hcont := Grant.Continues.of_settles (settleGrant_eq_ok hs)
        (fun hc => hstatus (settleAlong_completed h hc)) hdue'
      have ih := ih h (by rw [hcont.pendingRateDue]; exact hdue)
      have haccrual : s.accrual = grant.accrual := by
        funext rate elapsed now
        simp only [Grant.accrual, hcont.warmupBps]
      rw [← grant.credit_add s m, hcont.credit, ih, hcont.lastUpdateTs, haccrual, hcont.flowRate]
      simp only [hcont.streams]
      split_ifs
      · rfl
      · rfl

/-! ### Against one settlement -/

namespace Grant

/-- After the warmup the accrual is exact. -/
theorem accrual_of_warmup_over {grant : Grant} {now : Nat}
    (h : grant.startTime + grant.warmupDuration ≤ now) (rate : Int) (elapsed : Nat) :
    grant.accrual rate elapsed now = rate * (elapsed : Int) := by
  unfold accrual warmupBps
  rw [if_pos (.inr h)]
  exact Int.mul_tdiv_cancel _ (by decide)

/-- The accrual is the flow, rounded down. -/
theorem accrual_bounds {grant : Grant} (h : 0 ≤ grant.flowRate) (a b : Nat) :
    10000 * grant.accrual grant.flowRate (b - a) b ≤ grant.flow a b ∧
      grant.flow a b ≤ 10000 * grant.accrual grant.flowRate (b - a) b + 9999 := by
  have hnonneg : 0 ≤ grant.flow a b :=
    mul_nonneg (mul_nonneg h (by omega)) (grant.warmupBps_nonneg b)
  have haccrual : grant.accrual grant.flowRate (b - a) b = grant.flow a b / 10000 :=
    Int.tdiv_eq_ediv_of_nonneg hnonneg
  rw [haccrual]
  omega

/-- What the pieces are paid and what they forgo make up the flow at the last multiplier. -/
theorem flow_add_forgone {grant : Grant} {start stop : Nat} {times : List Nat}
    (h : Partition.Ordered start times stop) :
    Partition.sum grant.flow start times stop +
      Partition.sum (grant.forgone stop) start times stop = grant.flow start stop := by
  have hpieces := Partition.sum_sub
    (fun t : Nat => grant.flowRate * (t : Int) * grant.warmupBps stop) start times stop
  have hwhole : grant.flow start stop =
      grant.flowRate * (stop : Int) * grant.warmupBps stop -
        grant.flowRate * (start : Int) * grant.warmupBps stop := by
    unfold flow
    rw [Int.ofNat_sub h.le]
    ring
  rw [hwhole, ← hpieces, ← Partition.sum_add]
  have hpiece (a b : Nat) (hab : a ≤ b) : grant.flow a b + grant.forgone stop a b =
      grant.flowRate * (b : Int) * grant.warmupBps stop -
        grant.flowRate * (a : Int) * grant.warmupBps stop := by
    unfold flow forgone
    rw [Int.ofNat_sub hab]
    ring
  exact le_antisymm (Partition.sum_le_sum h fun a b hab _ => (hpiece a b hab).le)
    (Partition.sum_le_sum h fun a b hab _ => (hpiece a b hab).ge)

theorem forgone_nonneg {grant : Grant} (hrate : 0 ≤ grant.flowRate) {start stop : Nat}
    {times : List Nat} (h : Partition.Ordered start times stop) :
    0 ≤ Partition.sum (grant.forgone stop) start times stop := by
  have hzero : Partition.sum (fun _ _ => (0 : Int)) start times stop = 0 := by
    rw [Partition.sum_const, nsmul_zero]
  rw [← hzero]
  refine Partition.sum_le_sum h fun a b _ hb => ?_
  have hbps := grant.warmupBps_mono hb
  exact mul_nonneg (mul_nonneg hrate (by omega)) (by omega)

/-- What the pieces accrue, against the flow at the last multiplier. -/
theorem sum_accrual_bounds {grant : Grant} (hrate : 0 ≤ grant.flowRate) {start stop : Nat}
    {times : List Nat} (h : Partition.Ordered start times stop) :
    let accrued := Partition.sum (fun a b => grant.accrual grant.flowRate (b - a) b) start times stop
    let paid := grant.flow start stop - Partition.sum (grant.forgone stop) start times stop
    10000 * accrued ≤ paid ∧ paid ≤ 10000 * accrued + 9999 * (times.length + 1) := by
  intro accrued paid
  have hpaid : paid = Partition.sum grant.flow start times stop := by
    have := @flow_add_forgone grant _ _ _ h
    omega
  have hslack : (9999 : Int) * (times.length + 1) =
      Partition.sum (fun _ _ => (9999 : Int)) start times stop := by
    rw [Partition.sum_const, nsmul_eq_mul]
    push_cast
    ring
  rw [hpaid, hslack, Partition.mul_sum, ← Partition.sum_add]
  exact ⟨Partition.sum_le_sum h fun a b _ _ => (accrual_bounds hrate a b).1,
    Partition.sum_le_sum h fun a b _ _ => (accrual_bounds hrate a b).2⟩

end Grant

/-- **Warmup.** Settling at some times and then at `stop` credits no more than settling once
at `stop`. The difference is the growth of the multiplier that the settlements in between
forgo, up to one unit for each settlement. One settlement after the warmup credits the full
rate for all of the time. -/
theorem warmup_settlements_differ_by_forgone {trace : Trace} {env : Env} (h : Reachable trace env)
    {grantId : Nat} {g m once : Grant} {times : List Nat} {stop : Nat}
    (hg : env.grants grantId = some g) (hdue : g.pendingRateDue stop = false)
    (hm : settleAlong g times stop = .ok m) (honce : settleGrant g stop = .ok once)
    (hstatus : m.status ≠ .completed) (hstatus' : once.status ≠ .completed) :
    g.credit m ≤ g.credit once ∧
      |10000 * (g.credit once - g.credit m) - g.warmupForgone times stop| <
        10000 * (times.length + 1) ∧
      (g.streams → g.startTime + g.warmupDuration ≤ stop →
        g.credit once = g.flowRate * ((stop - g.lastUpdateTs : Nat) : Int)) := by
  have hrate := (wellFormed_of_reachable h hg).flowRate_nonneg
  have hcredit := settleAlong_credit hm hstatus hdue
  have hcredit' := @settleAlong_credit _ _ [] _ honce hstatus' hdue
  by_cases hstreams : g.streams
  · have hordered := settleAlong_ordered hm
    obtain ⟨hlo, hhi⟩ := Grant.sum_accrual_bounds hrate hordered
    obtain ⟨hlo', hhi'⟩ := Grant.sum_accrual_bounds hrate (@settleAlong_ordered _ _ [] _ honce)
    have hnonneg := Grant.forgone_nonneg hrate hordered
    have hnone : Partition.sum (g.forgone stop) g.lastUpdateTs [] stop = 0 := by
      simp [Partition.sum, Grant.forgone]
    rw [if_pos hstreams] at hcredit hcredit'
    rw [← hcredit] at hlo hhi
    rw [← hcredit', hnone] at hlo' hhi'
    rw [List.length_nil] at hhi'
    rw [show g.warmupForgone times stop = _ from if_pos hstreams, abs_lt]
    refine ⟨by omega, ⟨by omega, by omega⟩, fun _ hend => ?_⟩
    rw [hcredit']
    exact Grant.accrual_of_warmup_over hend _ _
  · rw [if_neg hstreams] at hcredit hcredit'
    rw [show g.warmupForgone times stop = 0 from if_neg hstreams, hcredit, hcredit', abs_lt]
    exact ⟨le_refl 0, ⟨by omega, by omega⟩, fun hs => absurd hs hstreams⟩

/-- A grant of 100000 that streams 100 a second after a warmup of 100 seconds: settled
in the middle of the warmup too, it is credited 8125 at its end and not 10000. -/
theorem warmup_settlements_differ_by_forgone_midway :
    let run := history Demo.env (Demo.setUp 100000 ++
      [Demo.call 1 (.createGrant 7 Demo.grantee 100000 100 100 none none)])
    ∃ g m once, run.2.grants 7 = some g ∧ settleAlong g [51] 101 = .ok m ∧
      settleGrant g 101 = .ok once ∧ g.credit m = 8125 ∧ g.credit once = 10000 ∧
      |10000 * (g.credit once - g.credit m) - g.warmupForgone [51] 101| < 20000 := by
  intro run
  have hrun : Reachable run.1 run.2 := history_reachable Demo.env_deployed (by decide)
  have hdiffer := @warmup_settlements_differ_by_forgone _ _ hrun 7 _ _ _ [51] 101 rfl (by decide)
    rfl rfl (by decide) (by decide)
  exact ⟨_, _, _, rfl, rfl, rfl, by decide, by decide, hdiffer.2.1⟩

/-- Not touched before the end of its warmup, the same grant is credited 1875 more. -/
theorem warmup_settlements_disagree :
    ¬∀ trace env grantId g m once times stop, Reachable trace env →
      env.grants grantId = some g → 0 < g.warmupDuration → g.pendingRateDue stop = false →
      settleAlong g times stop = .ok m → settleGrant g stop = .ok once → m.status ≠ .completed →
      once.status ≠ .completed → |g.credit once - g.credit m| ≤ (times.length : Int) + 1 := by
  intro h
  let run := history Demo.env (Demo.setUp 100000 ++
    [Demo.call 1 (.createGrant 7 Demo.grantee 100000 100 100 none none)])
  have hrun : Reachable run.1 run.2 := history_reachable Demo.env_deployed (by decide)
  have hle := h run.1 run.2 7 _ _ _ [51] 101 hrun rfl (by decide) (by decide) rfl rfl (by decide)
    (by decide)
  exact absurd hle (by decide)

end YieldTrust.GrantStream
