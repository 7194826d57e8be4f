import YieldTrust.FlashLoan.Contract
import YieldTrust.Lib.PartialMap

/-!
# YieldTrust.FlashLoan.Pool

The **pool of one token**: its deposits and its two sums. Both sums together are what is
deposited, whatever is settled, so the saturating subtractions never saturate.
-/

namespace YieldTrust.FlashLoan

open Fallible
open GrantStream (Address)

variable {env env' : Env} {call : Call} {token depositor : Address} {now : Nat} {amount : Int}

/-! ### Data -/

structure Pool where
  deposits : Address → Option DepositRecord
  mature : Int
  pending : Int

inductive PoolOp where
  | deposit (depositor : Address) (amount : Int)
  | withdraw (depositor : Address) (amount : Int)
  | settle (depositors : List Address)
  deriving DecidableEq

def Store.pool (store : Store) (token : Address) : Pool where
  deposits := store.depositLedger token
  mature := (store.matureBalance token).getD 0
  pending := (store.pendingBalance token).getD 0

/-- What the call is for the pool of the token. -/
def Call.op (token : Address) : Call → Option PoolOp
  | .recordDeposit poolToken depositor amount =>
      if poolToken = token then some (.deposit depositor amount) else none
  | .withdrawFromPool poolToken depositor amount =>
      if poolToken = token then some (.withdraw depositor amount) else none
  | .settlePendingDeposits poolToken depositors =>
      if poolToken = token then some (.settle depositors) else none

/-- The record is old enough. -/
def DepositRecord.Aged (now : Nat) (record : DepositRecord) : Prop :=
  depositAgeRequirementSecs ≤ now - record.depositedAt

instance (now : Nat) (record : DepositRecord) : Decidable (record.Aged now) :=
  inferInstanceAs (Decidable (_ ≤ _))

/-- What the record adds to the matching weight. -/
def DepositRecord.agedAmount (now : Nat) (record : DepositRecord) : Int :=
  if record.Aged now then record.amount else 0

/-- The record after a withdrawal; there is none if nothing is left. -/
def DepositRecord.less (record : DepositRecord) (amount : Int) : Option DepositRecord :=
  if record.amount - amount = 0 then none
  else some { record with amount := record.amount - amount }

/-- What the listed depositors have that is old enough. -/
def Pool.newlyMatured (p : Pool) (now : Nat) (depositors : List Address) : Int :=
  (depositors.map fun depositor =>
    (p.deposits depositor).elim 0 (DepositRecord.agedAmount now)).sum

theorem DepositRecord.less_amount (record : DepositRecord) (amount : Int) :
    (record.less amount).elim 0 DepositRecord.amount = record.amount - amount := by
  unfold DepositRecord.less
  split
  · case isTrue h => exact h.symm
  · case isFalse => rfl

theorem getMatchingWeight_eq : getMatchingWeight env token depositor =
    ((env.store.pool token).deposits depositor).elim 0
      (DepositRecord.agedAmount env.timestamp) := by
  simp only [getMatchingWeight, Store.pool]
  cases env.store.depositLedger token depositor with
  | none => rfl
  | some record => exact if_congr Iff.rfl rfl rfl

/-! ### What a call does to the pool -/

inductive PoolStep (now : Nat) (p : Pool) : PoolOp → Pool → Prop
  | deposited (depositor : Address) (amount : Int) (record : DepositRecord) (hpos : 0 < amount)
      (hamount : record.amount =
        (p.deposits depositor).elim 0 DepositRecord.amount + amount)
      (hrange : I128.InRange (p.pending + amount)) :
      PoolStep now p (.deposit depositor amount) { p with
        deposits := Function.update p.deposits depositor (some record)
        pending := p.pending + amount }
  | withdrawn (depositor : Address) (amount : Int) (record : DepositRecord) (hpos : 0 < amount)
      (hfind : p.deposits depositor = some record) (haged : record.Aged now)
      (hle : amount ≤ record.amount) :
      PoolStep now p (.withdraw depositor amount) { p with
        deposits := Function.update p.deposits depositor (record.less amount)
        mature := I128.saturatingSub p.mature amount }
  | settled (depositors : List Address)
      (hrange : I128.InRange (p.mature + p.newlyMatured now depositors)) :
      PoolStep now p (.settle depositors) { p with
        mature := p.mature + p.newlyMatured now depositors
        pending := I128.saturatingSub p.pending (p.newlyMatured now depositors) }

/-- A round of the loop adds what the depositor has that is old enough. -/
theorem settleDeposit_eq_ok {newlyMatured result : Int}
    (h : settleDeposit env token newlyMatured depositor = .ok result) :
    result = newlyMatured + getMatchingWeight env token depositor := by
  unfold settleDeposit at h
  unfold getMatchingWeight
  cases hrecord : env.store.depositLedger token depositor with
  | none =>
      simp only [hrecord, pure_eq_ok] at h
      simp [h]
  | some record =>
      simp only [hrecord] at h ⊢
      split at h
      · case isTrue hage =>
        obtain ⟨-, rfl⟩ := I128.checkedAdd_eq_some.mp (okOr_eq_ok.mp h)
        rw [if_pos hage]
      · case isFalse hage =>
        rw [if_neg hage, ← pure_eq_ok.mp h, add_zero]

/-- The loop over the depositors. -/
theorem foldlM_settleDeposit {depositors : List Address} {start result : Int}
    (h : depositors.foldlM (settleDeposit env token) start = .ok result) :
    result = start + (env.store.pool token).newlyMatured env.timestamp depositors := by
  induction depositors generalizing start with
  | nil =>
      rw [← pure_eq_ok.mp h]
      exact (add_zero start).symm
  | cons depositor depositors ih =>
      rw [List.foldlM_cons] at h
      obtain ⟨next, hround, h⟩ := bind_eq_ok.mp h
      rw [ih h, settleDeposit_eq_ok hround, getMatchingWeight_eq, Pool.newlyMatured,
        Pool.newlyMatured, List.map_cons, List.sum_cons, add_assoc]

theorem mergedAmount_eq_ok {result : Int}
    (h : mergedAmount env token depositor amount = .ok result) :
    result = ((env.store.pool token).deposits depositor).elim 0 DepositRecord.amount + amount := by
  simp only [mergedAmount, Store.pool] at h ⊢
  cases hrecord : env.store.depositLedger token depositor with
  | none =>
      simp only [hrecord, pure_eq_ok] at h
      rw [← h, Option.elim_none, zero_add]
  | some record =>
      simp only [hrecord, okOr_eq_ok, I128.checkedAdd_eq_some] at h
      exact h.2.symm

/-- **Inversion** of a call that goes through, for the pool of one token. -/
theorem exec_pool (token : Address) (h : call.exec env = .ok env') :
    (call.op token = none ∧ env'.store.pool token = env.store.pool token) ∨
      ∃ op, call.op token = some op ∧
        PoolStep env.timestamp (env.store.pool token) op (env'.store.pool token) := by
  cases call with
  | recordDeposit poolToken depositor amount =>
      unfold Call.exec recordDeposit at h
      simp only [bind_eq_ok, ensure_eq_ok, okOr_eq_ok, I128.checkedAdd_eq_some, pure_eq_ok] at h
      obtain ⟨_, hpos, newAmount, hnew, newPending, ⟨hrange, rfl⟩, rfl⟩ := h
      refine Run.keyed_cases (fun htoken => ?_) fun htoken => ?_
      · subst htoken
        have hamount := mergedAmount_eq_ok hnew
        simp only [Store.pool, setDeposit, setPending, getPendingPoolBalance, Function.update_self,
          Option.getD_some] at hrange ⊢
        exact .deposited depositor amount _ hpos hamount hrange
      · simp [Store.pool, setDeposit, setPending, Ne.symm htoken]
  | withdrawFromPool poolToken depositor amount =>
      unfold Call.exec withdrawFromPool at h
      simp only [bind_eq_ok, ensure_eq_ok, okOr_eq_ok, orTrap_eq_ok, I128.checkedSub_eq_some,
        pure_eq_ok] at h
      obtain ⟨_, hpos, record, hfind, _, hage, _, hle, _, ⟨-, rfl⟩, rfl⟩ := h
      refine Run.keyed_cases (fun htoken => ?_) fun htoken => ?_
      · subst htoken
        simp only [Store.pool, setDeposit, setMature, getMaturePoolBalance, Function.update_self,
          Option.getD_some]
        exact .withdrawn depositor amount record hpos hfind hage hle
      · simp [Store.pool, setDeposit, setMature, Ne.symm htoken]
  | settlePendingDeposits poolToken depositors =>
      unfold Call.exec settlePendingDeposits at h
      simp only [map_eq_ok, bind_eq_ok, okOr_eq_ok, I128.checkedAdd_eq_some, pure_eq_ok] at h
      obtain ⟨_, ⟨newlyMatured, hloop, _, ⟨hrange, rfl⟩, rfl⟩, rfl⟩ := h
      refine Run.keyed_cases (fun htoken => ?_) fun htoken => ?_
      · subst htoken
        rw [foldlM_settleDeposit hloop, zero_add] at hrange ⊢
        simp only [Store.pool, setMature, setPending, getMaturePoolBalance, getPendingPoolBalance,
          Function.update_self, Option.getD_some]
        exact .settled depositors hrange
      · simp [Store.pool, setMature, setPending, Ne.symm htoken]

/-! ### Both sums together -/

/-- The sum of all deposits. -/
noncomputable def Pool.deposited (p : Pool) : Int :=
  PartialMap.total p.deposits DepositRecord.amount

/-- Both sums together are what is deposited, and neither is above the largest `i128`. -/
structure Pool.Balanced (p : Pool) : Prop where
  finite : (PartialMap.keys p.deposits).Finite
  pos : ∀ depositor record, p.deposits depositor = some record → 0 < record.amount
  balance : p.mature + p.pending = p.deposited
  mature_le : p.mature ≤ I128.max
  pending_le : p.pending ≤ I128.max

variable {p p' : Pool} {op : PoolOp}

theorem Pool.Balanced.deposited_nonneg (h : p.Balanced) : 0 ≤ p.deposited :=
  PartialMap.total_nonneg fun depositor record hrecord => (h.pos depositor record hrecord).le

theorem Pool.Balanced.newlyMatured_nonneg (h : p.Balanced) (now : Nat)
    (depositors : List Address) : 0 ≤ p.newlyMatured now depositors := by
  refine List.sum_nonneg fun x hx => ?_
  obtain ⟨depositor, -, rfl⟩ := List.mem_map.mp hx
  cases hrecord : p.deposits depositor with
  | none => exact le_rfl
  | some record =>
      have hpos := h.pos depositor record hrecord
      simp only [Option.elim_some, DepositRecord.agedAmount]
      split
      · exact hpos.le
      · exact le_rfl

/-- A sum that stays below the largest `i128` while the other one does is subtracted exactly. -/
theorem saturatingSub_of_sum {x y amount total : Int} (hsum : x - amount + y = total)
    (hnonneg : 0 ≤ total) (hx : x ≤ I128.max) (hy : y ≤ I128.max) (hamount : 0 ≤ amount) :
    I128.saturatingSub x amount = x - amount := by
  refine I128.saturate_of_inRange ⟨?_, by omega⟩
  unfold I128.max at hy
  unfold I128.min
  omega

theorem less_eq_some {record record' : DepositRecord} (h : record.less amount = some record') :
    record'.amount = record.amount - amount ∧ record.amount - amount ≠ 0 := by
  unfold DepositRecord.less at h
  split at h
  · cases h
  · case isFalse hne =>
    cases h
    exact ⟨rfl, hne⟩

/-- A withdrawal is subtracted exactly. -/
theorem Pool.Balanced.withdrawn {record : DepositRecord} (h : p.Balanced) (hpos : 0 < amount)
    (hfind : p.deposits depositor = some record) (hle : amount ≤ record.amount) :
    I128.saturatingSub p.mature amount = p.mature - amount ∧
      Pool.Balanced ⟨Function.update p.deposits depositor (record.less amount),
        p.mature - amount, p.pending⟩ := by
  have htotal := h.balance
  have hdeposited := PartialMap.total_update h.finite depositor (record.less amount)
    DepositRecord.amount
  rw [record.less_amount, hfind, Option.elim_some] at hdeposited
  have hpositive : ∀ other r, Function.update p.deposits depositor (record.less amount) other =
      some r → 0 < r.amount := by
    intro other r hr
    by_cases hother : other = depositor
    · rw [hother, Function.update_self] at hr
      obtain ⟨heq, hne⟩ := less_eq_some hr
      omega
    · rw [Function.update_of_ne hother] at hr
      exact h.pos other r hr
  have hnonneg : 0 ≤ PartialMap.total (Function.update p.deposits depositor
      (record.less amount)) DepositRecord.amount :=
    PartialMap.total_nonneg fun other r hr => (hpositive other r hr).le
  unfold Pool.deposited at htotal
  have hsum : p.mature - amount + p.pending = PartialMap.total
      (Function.update p.deposits depositor (record.less amount)) DepositRecord.amount := by
    omega
  refine ⟨saturatingSub_of_sum hsum hnonneg h.mature_le h.pending_le hpos.le,
    PartialMap.keys_update_finite h.finite depositor _, hpositive, hsum, ?_, h.pending_le⟩
  exact (Int.sub_le_self _ hpos.le).trans h.mature_le

/-- **Step lemma.** Both sums together stay what is deposited, and no subtraction saturates. -/
theorem PoolStep.balanced (hstep : PoolStep now p op p') (h : p.Balanced) : p'.Balanced := by
  have htotal := h.balance
  cases hstep with
  | deposited depositor amount record hpos hamount hrange =>
      have hdeposited := PartialMap.total_update h.finite depositor (some record)
        DepositRecord.amount
      have hold : 0 ≤ (p.deposits depositor).elim 0 DepositRecord.amount := by
        cases hrecord : p.deposits depositor with
        | none => exact le_rfl
        | some old => exact (h.pos depositor old hrecord).le
      refine ⟨PartialMap.keys_update_finite h.finite depositor _, fun other r hr => ?_, ?_,
        h.mature_le, hrange.2⟩
      · rcases PartialMap.update_eq_some.mp hr with ⟨-, rfl⟩ | ⟨-, hr⟩
        · omega
        · exact h.pos other r hr
      · unfold Pool.deposited at htotal ⊢
        rw [hdeposited, Option.elim_some, hamount]
        dsimp only
        omega
  | withdrawn depositor amount record hpos hfind haged hle =>
      obtain ⟨hexact, hbalanced⟩ := h.withdrawn hpos hfind hle
      rw [hexact]
      exact hbalanced
  | settled depositors hrange =>
      have hnewly := h.newlyMatured_nonneg now depositors
      have hsum : p.pending - p.newlyMatured now depositors +
          (p.mature + p.newlyMatured now depositors) = p.deposited := by
        omega
      have hexact := saturatingSub_of_sum hsum h.deposited_nonneg h.pending_le hrange.2 hnewly
      rw [hexact]
      refine ⟨h.finite, h.pos, ?_, hrange.2, (Int.sub_le_self _ hnewly).trans h.pending_le⟩
      rw [add_comm]
      exact hsum

end YieldTrust.FlashLoan
