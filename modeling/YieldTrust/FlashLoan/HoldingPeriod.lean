import YieldTrust.FlashLoan.Pool
import YieldTrust.Lib.Register

/-!
# YieldTrust.FlashLoan.HoldingPeriod

What the defense is **for**: whoever counts for the matching with an amount has had that much in
the pool for 48 hours. A deposit makes the whole record new, so nothing was put into a record that
is old enough since then: all that can have happened to it are withdrawals.
-/

namespace YieldTrust.FlashLoan

open Fallible
open GrantStream (Address)

variable {env env' : Env} {call : Call} {token depositor : Address} {now : Nat} {amount : Int}
  {r r' : Option DepositRecord} {o : RecordOp} {e : Step} {trace newer older : Trace}

/-! ### The record of one depositor -/

inductive RecordOp where
  | deposit (amount : Int)
  | withdraw (amount : Int)
  deriving DecidableEq

/-- What the operation adds to what the depositor has. -/
def RecordOp.net : RecordOp → Int
  | .deposit amount => amount
  | .withdraw amount => -amount

def RecordOp.isDeposit : RecordOp → Bool
  | .deposit _ => true
  | .withdraw _ => false

/-- What the call is for the record of the depositor. -/
def Call.recordOp (token depositor : Address) : Call → Option RecordOp
  | .recordDeposit poolToken source amount =>
      if (poolToken, source) = (token, depositor) then some (.deposit amount) else none
  | .withdrawFromPool poolToken source amount =>
      if (poolToken, source) = (token, depositor) then some (.withdraw amount) else none
  | .settlePendingDeposits _ _ => none

def recordOp (token depositor : Address) (e : Step) : Option RecordOp :=
  (Ledger.called contract e).bind (Call.recordOp token depositor)

/-- The depositor put something into the pool. -/
def putsIn (token depositor : Address) (e : Step) : Bool :=
  (recordOp token depositor e).any RecordOp.isDeposit

/-- What the depositor has put into the pool and not taken out again. -/
def held (token depositor : Address) : Trace → Int
  | [] => 0
  | e :: older => (recordOp token depositor e).elim 0 RecordOp.net + held token depositor older

inductive RecordStep (now : Nat) (r : Option DepositRecord) : RecordOp → Option DepositRecord → Prop
  | deposited (amount : Int) (record : DepositRecord) (hpos : 0 < amount)
      (hamount : record.amount = r.elim 0 DepositRecord.amount + amount)
      (hnow : record.depositedAt = now) : RecordStep now r (.deposit amount) (some record)
  | withdrawn (amount : Int) (record : DepositRecord) (hpos : 0 < amount) (hfind : r = some record)
      (haged : record.Aged now) (hle : amount ≤ record.amount) :
      RecordStep now r (.withdraw amount) (record.less amount)

/-- **Inversion** of a call that goes through, for the record of one depositor. -/
theorem exec_record (token depositor : Address) (h : call.exec env = .ok env') :
    (call.recordOp token depositor = none ∧
        env'.store.depositLedger token depositor = env.store.depositLedger token depositor) ∨
      ∃ o, call.recordOp token depositor = some o ∧ RecordStep env.timestamp
        (env.store.depositLedger token depositor) o (env'.store.depositLedger token depositor) := by
  have hother {poolToken source : Address} {record : Option DepositRecord}
      (hne : (poolToken, source) ≠ (token, depositor)) :
      Function.update env.store.depositLedger poolToken
          (Function.update (env.store.depositLedger poolToken) source record) token depositor =
        env.store.depositLedger token depositor := by
    by_cases htoken : token = poolToken
    · subst htoken
      have hsource : depositor ≠ source := fun heq => hne (by rw [heq])
      rw [Function.update_self, Function.update_of_ne hsource]
    · rw [Function.update_of_ne htoken]
  cases call with
  | recordDeposit poolToken source amount =>
      unfold Call.exec recordDeposit at h
      simp only [bind_eq_ok, ensure_eq_ok, okOr_eq_ok, I128.checkedAdd_eq_some, pure_eq_ok] at h
      obtain ⟨_, hpos, newAmount, hnew, newPending, -, rfl⟩ := h
      refine Run.keyed_cases (fun hkey => ?_) fun hkey => hother hkey
      obtain ⟨rfl, rfl⟩ := Prod.mk.inj hkey
      have hamount := mergedAmount_eq_ok hnew
      simp only [setDeposit, setPending, Function.update_self]
      exact .deposited amount _ hpos hamount rfl
  | withdrawFromPool poolToken source amount =>
      unfold Call.exec withdrawFromPool at h
      simp only [bind_eq_ok, ensure_eq_ok, okOr_eq_ok, orTrap_eq_ok, I128.checkedSub_eq_some,
        pure_eq_ok] at h
      obtain ⟨_, hpos, record, hfind, _, hage, _, hle, _, ⟨-, rfl⟩, rfl⟩ := h
      refine Run.keyed_cases (fun hkey => ?_) fun hkey => hother hkey
      obtain ⟨rfl, rfl⟩ := Prod.mk.inj hkey
      simp only [setDeposit, setMature, Function.update_self]
      exact .withdrawn amount record hpos hfind hage hle
  | settlePendingDeposits poolToken depositors =>
      unfold Call.exec settlePendingDeposits at h
      simp only [map_eq_ok, bind_eq_ok, okOr_eq_ok, pure_eq_ok] at h
      obtain ⟨_, ⟨_, -, _, -, rfl⟩, rfl⟩ := h
      exact .inl ⟨rfl, rfl⟩

theorem record_of_next (token depositor : Address)
    (h : Ledger.Next contract e.before e.action e.after) :
    (recordOp token depositor e = none ∧ e.after.store.depositLedger token depositor =
        e.before.store.depositLedger token depositor) ∨
      ∃ o, recordOp token depositor e = some o ∧ e.before.timestamp ≤ e.action.timestamp ∧
        RecordStep e.action.timestamp (e.before.store.depositLedger token depositor) o
          (e.after.store.depositLedger token depositor) := by
  rcases Ledger.cases_of_next h with ⟨hnone, hstore⟩ | ⟨call, result, hcalled, -, hexec, hafter⟩
  · refine .inl ⟨?_, by rw [hstore]⟩
    simp [recordOp, hnone]
  · have hop : recordOp token depositor e = call.recordOp token depositor := by
      simp [recordOp, hcalled]
    have hstore : e.after.store = result.store := by rw [hafter, Ledger.Env.commit]
    rw [hop, hstore]
    rcases exec_record token depositor hexec with ⟨hnone, hsame⟩ | ⟨o, hsome, hstep⟩
    · exact .inl ⟨hnone, hsame⟩
    · exact .inr ⟨o, hsome, (Ledger.timestamp_of_next h).1, hstep⟩

/-! ### Runs -/

/-- What a record says of the run. -/
structure Held (token depositor : Address) (trace : Trace) (r : Option DepositRecord) : Prop where
  amount : r.elim 0 DepositRecord.amount = held token depositor trace
  pos : ∀ record, r = some record → 0 < record.amount
  newest : ∀ record, r = some record → ∀ e ∈ trace, putsIn token depositor e = true →
    e.action.timestamp ≤ record.depositedAt
  made : ∀ record, r = some record → ∃ e ∈ trace, putsIn token depositor e = true ∧
    e.action.timestamp = record.depositedAt

theorem Held.nonneg (h : Held token depositor trace r) : 0 ≤ held token depositor trace := by
  rw [← h.amount]
  cases hr : r with
  | none => exact le_rfl
  | some record => exact (h.pos record hr).le

theorem Held.idle (h : Held token depositor older r) (hop : recordOp token depositor e = none) :
    Held token depositor (e :: older) r where
  amount := by simpa [held, hop] using h.amount
  pos := h.pos
  newest record hr e' he' hputs := by
    rcases List.mem_cons.mp he' with rfl | he'
    · simp [putsIn, hop] at hputs
    · exact h.newest record hr e' he' hputs
  made record hr := by
    obtain ⟨e', he', hmade⟩ := h.made record hr
    exact ⟨e', List.mem_cons_of_mem e he', hmade⟩

theorem Held.step (h : Held token depositor older r) (hop : recordOp token depositor e = some o)
    (hpast : ∀ e' ∈ older, e'.action.timestamp ≤ e.action.timestamp)
    (hstep : RecordStep e.action.timestamp r o r') : Held token depositor (e :: older) r' := by
  have hheld : held token depositor (e :: older) = o.net + held token depositor older := by
    simp [held, hop]
  cases hstep with
  | deposited amount record hpos hamount hnow =>
      have hnew : putsIn token depositor e = true := by simp [putsIn, hop, RecordOp.isDeposit]
      have hsum : record.amount = held token depositor (e :: older) := by
        rw [hheld, hamount, h.amount, RecordOp.net, add_comm]
      refine ⟨hsum, ?_, ?_, ?_⟩
      · intro record' hr
        obtain rfl := Option.some.inj hr
        have hnonneg := h.nonneg
        rw [hamount, h.amount]
        omega
      · intro record' hr e' he' _
        obtain rfl := Option.some.inj hr
        rw [hnow]
        rcases List.mem_cons.mp he' with rfl | he'
        · exact le_rfl
        · exact hpast e' he'
      · intro record' hr
        obtain rfl := Option.some.inj hr
        exact ⟨e, List.mem_cons_self, hnew, hnow.symm⟩
  | withdrawn amount record hpos hfind haged hle =>
      have hold : putsIn token depositor e = false := by simp [putsIn, hop, RecordOp.isDeposit]
      have hamount : record.amount = held token depositor older := by
        rw [← h.amount, hfind]
        rfl
      -- what is left of the record is as old as the record
      have hless : ∀ left, record.less amount = some left →
          left.amount = record.amount - amount ∧ left.amount ≠ 0 ∧
            left.depositedAt = record.depositedAt := by
        intro left hleft
        unfold DepositRecord.less at hleft
        split at hleft
        · cases hleft
        · case isFalse hne =>
          obtain rfl := Option.some.inj hleft
          exact ⟨rfl, hne, rfl⟩
      refine ⟨?_, ?_, ?_, ?_⟩
      · rw [record.less_amount, hheld, hamount, RecordOp.net]
        omega
      · intro left hleft
        obtain ⟨hrest, hne, -⟩ := hless left hleft
        omega
      · intro left hleft e' he' hputs
        rw [(hless left hleft).2.2]
        rcases List.mem_cons.mp he' with rfl | he'
        · rw [hold] at hputs
          cases hputs
        · exact h.newest record hfind e' he' hputs
      · intro left hleft
        rw [(hless left hleft).2.2]
        obtain ⟨e', he', hmade⟩ := h.made record hfind
        exact ⟨e', List.mem_cons_of_mem e he', hmade⟩

theorem held_of_reachable (h : Ledger.Reachable contract trace env) :
    Held token depositor trace (env.store.depositLedger token depositor) := by
  refine Run.component_induction (f := fun env : Env => env.store.depositLedger token depositor)
    (R := fun before event o r r' =>
      before.timestamp ≤ event.timestamp ∧ RecordStep event.timestamp r o r')
    (fun hn => record_of_next token depositor hn) ?_ ?_ ?_ h
  · rintro _ ⟨self, tokens, rfl⟩
    refine ⟨rfl, ?_, ?_, ?_⟩ <;>
      · intro record hr
        cases hr
  · intro older e _ hheld hop hsame
    rw [hsame]
    exact hheld.idle hop
  · intro older e o hrun hheld hop hstep
    obtain ⟨hle, hstep⟩ := hstep
    exact hheld.step hop (fun e' he' => (Ledger.timestamp_le_of_mem hrun he').trans hle) hstep

/-- Nobody has more than before without a deposit. -/
theorem held_le_of_suffix (h : Ledger.Reachable contract (newer ++ older) env)
    (hnone : ∀ e ∈ newer, putsIn token depositor e = false) :
    held token depositor (newer ++ older) ≤ held token depositor older := by
  induction newer generalizing env with
  | nil => exact le_rfl
  | cons e newer ih =>
      obtain ⟨hrun, hn, -⟩ := h.uncons
      rw [List.forall_mem_cons] at hnone
      refine le_trans ?_ (ih hrun hnone.2)
      rw [List.cons_append, held]
      rcases record_of_next token depositor hn with ⟨hop, -⟩ | ⟨o, hop, -, hstep⟩
      · simp [hop]
      · generalize e.before.store.depositLedger token depositor = r at hstep
        generalize e.after.store.depositLedger token depositor = r' at hstep
        cases hstep with
        | deposited amount record hpos hamount hnow =>
            have hputs := hnone.1
            simp [putsIn, hop, RecordOp.isDeposit] at hputs
        | withdrawn amount record hpos hfind haged hle =>
            simp only [hop, Option.elim_some, RecordOp.net]
            omega

/-- Everything that was put in is old enough. -/
def Matured (token depositor : Address) (trace : Trace) (now : Nat) : Prop :=
  ∀ e ∈ trace, putsIn token depositor e = true →
    e.action.timestamp + depositAgeRequirementSecs ≤ now

instance (token depositor : Address) (trace : Trace) (now : Nat) :
    Decidable (Matured token depositor trace now) :=
  inferInstanceAs (Decidable (∀ e ∈ trace, _))

theorem Held.aged_iff (h : Held token depositor trace r) {record : DepositRecord}
    (hr : r = some record) (hpast : ∀ e ∈ trace, e.action.timestamp ≤ now) :
    record.Aged now ↔ Matured token depositor trace now := by
  obtain ⟨e, he, hputs, hmade⟩ := h.made record hr
  have hle := hpast e he
  constructor
  · intro haged e' he' hputs'
    have hnewest := h.newest record hr e' he' hputs'
    unfold DepositRecord.Aged at haged
    have hage : 0 < depositAgeRequirementSecs := by decide
    omega
  · intro hmatured
    have hold := hmatured e he hputs
    unfold DepositRecord.Aged
    omega

theorem getMatchingWeight_of_reachable (h : Ledger.Reachable contract trace env)
    (hnow : env.timestamp ≤ now) :
    getMatchingWeight { env with timestamp := now } token depositor =
      if Matured token depositor trace now then held token depositor trace else 0 := by
  have hheld : Held token depositor trace (env.store.depositLedger token depositor) :=
    held_of_reachable h
  have hpast : ∀ e ∈ trace, e.action.timestamp ≤ now := fun e he =>
    (Ledger.timestamp_le_of_mem h he).trans hnow
  rw [← hheld.amount, getMatchingWeight_eq]
  simp only [Store.pool]
  cases hr : env.store.depositLedger token depositor with
  | none => simp
  | some record =>
      simp only [Option.elim_some, DepositRecord.agedAmount, hheld.aged_iff hr hpast]

/-- **No flash loans.** In every run and at every later time, a depositor counts with what it has
put into the pool and not taken out, and only if all of it was put in 48 hours ago or earlier; it
has had at least as much at every moment of the last 48 hours; and every withdrawal takes what was
there, and comes 48 hours or more after all that was put in before it. -/
theorem flash_loan_excluded (h : Ledger.Reachable contract trace env) (hnow : env.timestamp ≤ now) :
    let weight := getMatchingWeight { env with timestamp := now } token depositor
    weight = (if Matured token depositor trace now then held token depositor trace else 0) ∧
      (∀ newer e older, trace = newer ++ e :: older →
        now < e.action.timestamp + depositAgeRequirementSecs →
          weight ≤ held token depositor older) ∧
      ∀ newer e older amount, trace = newer ++ e :: older →
        recordOp token depositor e = some (.withdraw amount) →
          amount ≤ held token depositor older ∧
            Matured token depositor older e.action.timestamp := by
  intro weight
  have hweight : weight = _ := getMatchingWeight_of_reachable h hnow
  refine ⟨hweight, ?_, ?_⟩
  · rintro newer e older rfl hlate
    rw [hweight]
    split
    · case isTrue hmatured =>
      -- nothing was put in at the step or after it
      have hnone : ∀ e' ∈ newer ++ [e], putsIn token depositor e' = false := by
        intro e' he'
        refine Bool.eq_false_iff.mpr fun hputs => ?_
        have hle : e.action.timestamp ≤ e'.action.timestamp := by
          rcases List.mem_append.mp he' with hnewer | hlast
          · exact Ledger.timestamp_le_of_newer h hnewer
          · rw [List.mem_singleton.mp hlast]
        have hmem : e' ∈ newer ++ e :: older := by
          rw [List.append_cons]
          exact List.mem_append_left older he'
        have hold := hmatured e' hmem hputs
        omega
      rw [List.append_cons] at h ⊢
      exact held_le_of_suffix h hnone
    · case isFalse => exact (held_of_reachable h.suffix.uncons.1).nonneg
  · rintro newer e older amount rfl hop
    obtain ⟨hrun, hn, -⟩ := h.suffix.uncons
    have hheld : Held token depositor older (e.before.store.depositLedger token depositor) :=
      held_of_reachable hrun
    rcases record_of_next token depositor hn with ⟨hnone, -⟩ | ⟨o, hsome, htime, hstep⟩
    · rw [hop] at hnone
      cases hnone
    · obtain rfl := Option.some.inj (hop.symm.trans hsome)
      have hpast : ∀ e' ∈ older, e'.action.timestamp ≤ e.action.timestamp := fun e' he' =>
        (Ledger.timestamp_le_of_mem hrun he').trans htime
      generalize e.before.store.depositLedger token depositor = r at hheld hstep
      generalize e.after.store.depositLedger token depositor = r' at hstep
      cases hstep with
      | withdrawn _ record _ hfind haged hle =>
          have hamount := hheld.amount
          rw [hfind] at hamount
          refine ⟨?_, (hheld.aged_iff hfind hpast).mp haged⟩
          rw [← hamount]
          exact hle

/-- What alice has left counts 48 hours after the second deposit; what bob borrowed does not. -/
theorem flash_loan_excluded_of_borrower :
    let run := Ledger.history contract Demo.env
      [Demo.call 0 (.recordDeposit Demo.token Demo.alice 60),
        Demo.call 1 (.recordDeposit Demo.token Demo.alice 40),
        Demo.call 172801 (.withdrawFromPool Demo.token Demo.alice 70),
        Demo.call 172801 (.recordDeposit Demo.token Demo.bob 1000000)]
    getMatchingWeight { run.2 with timestamp := 172802 } Demo.token Demo.alice = 30 ∧
      getMatchingWeight { run.2 with timestamp := 172802 } Demo.token Demo.bob = 0 := by
  intro run
  have hrun : Ledger.Reachable contract run.1 run.2 :=
    Ledger.history_reachable contract ⟨_, _, rfl⟩ (by decide)
  have hnow : run.2.timestamp ≤ 172802 := by decide
  refine ⟨(flash_loan_excluded hrun hnow).1.trans ?_, (flash_loan_excluded hrun hnow).1.trans ?_⟩
  · decide
  · decide

end YieldTrust.FlashLoan
