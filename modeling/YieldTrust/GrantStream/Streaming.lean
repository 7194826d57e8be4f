import Mathlib.Algebra.BigOperators.Intervals
import Mathlib.Algebra.Order.BigOperators.Group.Finset
import YieldTrust.GrantStream.PendingRate
import YieldTrust.GrantStream.Supply

/-!
# YieldTrust.GrantStream.Streaming

What a grant streams over its life. Every second has a weight, which is read off
the record that is stored during that second; `streamed` adds up the seconds
between the steps of a trace, and a settlement is compared with the sum over the
seconds since the last one.
-/

namespace YieldTrust.GrantStream

open Finset

/-! ### Sums over time -/

/-- The sum of the weights of the seconds from `start` up to `stop`. -/
def Grant.overTime (weight : Grant → Nat → Int) (grant : Grant) (start stop : Nat) : Int :=
  ∑ t ∈ Ico start stop, weight grant t

/-- The sum of the weights of the stored record of `grantId` over the seconds of
the steps `L`. -/
def streamed (weight : Grant → Nat → Int) (grantId : Nat) : Trace → Int
  | [] => 0
  | e :: L =>
      (match e.before.grants grantId with
        | some g => g.overTime weight e.before.timestamp e.action.timestamp
        | none => 0) + streamed weight grantId L

theorem streamed_cons {weight : Grant → Nat → Int} {grantId : Nat} {e : Run.Step Env Event}
    {g : Grant} (hg : e.before.grants grantId = some g) (L : Trace) :
    streamed weight grantId (e :: L) =
      g.overTime weight e.before.timestamp e.action.timestamp + streamed weight grantId L := by
  rw [streamed, hg]

namespace Grant

variable {weight : Grant → Nat → Int}

@[simp] theorem overTime_self (grant : Grant) (t : Nat) : grant.overTime weight t t = 0 := by
  simp [overTime]

theorem overTime_add (grant : Grant) {a b c : Nat} (hab : a ≤ b) (hbc : b ≤ c) :
    grant.overTime weight a b + grant.overTime weight b c = grant.overTime weight a c :=
  sum_Ico_consecutive _ hab hbc

theorem overTime_nonneg {grant : Grant} (h : ∀ t, 0 ≤ weight grant t) (a b : Nat) :
    0 ≤ grant.overTime weight a b := sum_nonneg fun t _ => h t

theorem overTime_const {grant : Grant} {a b : Nat} {r : Int}
    (h : ∀ t, a ≤ t → t < b → weight grant t = r) :
    grant.overTime weight a b = r * ((b - a : Nat) : Int) := by
  unfold overTime
  rw [sum_congr rfl fun t ht => h t (mem_Ico.mp ht).1 (mem_Ico.mp ht).2]
  simp [mul_comm]

theorem overTime_congr {grant grant' : Grant} (h : ∀ t, weight grant' t = weight grant t)
    (a b : Nat) : grant'.overTime weight a b = grant.overTime weight a b :=
  sum_congr rfl fun t _ => h t

end Grant

/-! ### The clock of a grant -/

/-- An operation restarts the clock of the grant, or leaves its status, its rates
and its clock alone. -/
theorem GrantStep.clock {now : Nat} {treasury : Option Address} {op : GrantOp} {a a' : Account}
    {payments : List Payment} (hstep : GrantStep now treasury op a a' payments) :
    a'.grant.lastUpdateTs = now ∨
      (op.settles = false ∧ a'.grant.lastUpdateTs = a.grant.lastUpdateTs ∧
        a'.grant.status = a.grant.status ∧ a'.grant.flowRate = a.grant.flowRate ∧
        a'.grant.pendingRate = a.grant.pendingRate ∧
        a'.grant.effectiveTimestamp = a.grant.effectiveTimestamp) := by
  cases hstep with
  | withdraw hs _ _ _ _ _ hm | withdrawValidator hs _ _ _ _ hm | pause hs _ hm
  | proposeIncrease hs _ _ _ hm | proposeDecrease hs _ _ _ hm | applyKpi hs _ _ hm
  | rageQuit hs _ _ hm | cancel hs _ _ hm | clawbackNothing hs _ _ hm
  | clawbackContested hs _ _ hm | clawbackToDonor hs _ _ _ hm =>
      subst hm
      exact .inl hs.lastUpdateTs
  | resume _ hm | resolveToGrantee _ _ _ _ hm | signLegal _ hm =>
      subst hm
      exact .inl rfl
  | changeGrantee _ _ hm | setLegal hm =>
      subst hm
      exact .inr ⟨rfl, rfl, rfl, rfl, rfl, rfl⟩
  | resolveToDonor => exact .inr ⟨rfl, rfl, rfl, rfl, rfl, rfl⟩

end YieldTrust.GrantStream
