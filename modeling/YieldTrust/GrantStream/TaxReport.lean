import YieldTrust.GrantStream.AccrualBound
import YieldTrust.GrantStream.Records
import YieldTrust.Lib.CumulativeLog

/-!
# YieldTrust.GrantStream.TaxReport

The tax report is a log of cumulative totals for each recipient, and `withdraw`
appends the `withdrawn` counter of the one grant that was withdrawn from. The report
is right exactly as long as this counter continues the last total of the recipient:
one grant for each recipient, from its first withdrawal on.
-/

namespace YieldTrust.GrantStream

open Fallible

/-! ### Withdrawals of a run -/

/-- The amount that the step withdrew, and the grant before it. -/
def withdrawal (e : Run.Step Env Event) : Option (Int × Grant) :=
  match called e with
  | some (.withdraw grantId amount) => (e.before.grants grantId).map fun grant => (amount, grant)
  | _ => none

/-- What the step paid out on a grant of `r`. -/
def receipt (r : Address) (e : Run.Step Env Event) : Option (Nat × Int) :=
  (withdrawal e).bind fun w =>
    if w.2.recipient = r then some (e.action.timestamp, w.1) else none

def receipts (r : Address) (trace : Trace) : Window.Entries Int := trace.filterMap (receipt r)

/-- What was paid out on grants of `r` after `startTs` and not after `endTs`. -/
def received (r : Address) (startTs endTs : Nat) (trace : Trace) : Int :=
  CumulativeLog.entered (receipts r trace) startTs endTs

/-- The totals that are recorded for `r`. -/
def flowLog (env : Env) (r : Address) : CumulativeLog.Log Int :=
  (env.flowHistory r).map fun record => (record.timestamp, record.cumulativeAmount)

/-- What a step appends to the flow histories. -/
inductive FlowStep (e : Run.Step Env Event) : Prop
  | withdrew {grantId : Nat} {amount : Int} {grant s : Grant}
      (hw : withdrawal e = some (amount, grant)) (hgrant : e.before.grants grantId = some grant)
      (hs : Settles grant e.action.timestamp s) (hpos : 0 < amount) (hle : amount ≤ s.claimable)
      (hflow : ∀ r, flowLog e.after r = flowLog e.before r ++
        if grant.recipient = r then [(e.action.timestamp, grant.withdrawn + amount)] else [])
  | kept (hw : withdrawal e = none) (hflow : ∀ r, flowLog e.after r = flowLog e.before r)

theorem flowStep_of_next {e : Run.Step Env Event} (hn : Next e.before e.action e.after) :
    FlowStep e := by
  have hsame {env env' : Env} (h : env'.flowHistory = env.flowHistory) (r : Address) :
      flowLog env' r = flowLog env r := by
    unfold flowLog
    rw [h]
  rcases called_of_next hn with ⟨hcalled, hframe⟩ | ⟨call, hcalled, hexec⟩
  · refine .kept ?_ (hsame (hframe.same .reports (by decide)).1)
    unfold withdrawal
    rw [hcalled]
  · by_cases hreports : Region.reports ∈ call.writes
    · cases call <;> simp [Call.writes] at hreports
      case withdraw grantId amount =>
        obtain ⟨grant, s, hg, hs, hpos, hle, hrecorded⟩ := withdraw_records hexec
        refine .withdrew ?_ hg hs hpos hle fun r => ?_
        · unfold withdrawal
          rw [hcalled]
          dsimp only
          rw [show e.before.grants grantId = some grant from hg, Option.map_some]
        · unfold flowLog
          rw [hrecorded.flow]
          unfold TaxReporting.recordFlow
          by_cases hr : grant.recipient = r
          · rw [if_pos hr, if_pos hr.symm, List.map_append]
            rfl
          · rw [if_neg hr, if_neg (Ne.symm hr), List.append_nil]
            rfl
      case heartbeatEmit totalTvl =>
        obtain ⟨emitted, hemitted, hafter⟩ := map_eq_ok.mp hexec
        obtain ⟨dashboard, -, hpure⟩ := bind_eq_ok.mp hemitted
        obtain rfl := pure_eq_ok.mp hpure
        refine .kept ?_ (hsame ?_)
        · unfold withdrawal
          rw [hcalled]
        · rw [← hafter]
          rfl
    · refine .kept ?_ fun r => ?_
      · unfold withdrawal
        rw [hcalled]
        cases call
        case withdraw => exact absurd (by simp [Call.writes]) hreports
        all_goals rfl
      · exact hsame ((frame_of_exec hexec).same .reports hreports).1 r

/-! ### Times and amounts -/

/-- Nothing has accrued at time zero. -/
theorem earnedWithin_zero {trace : Trace} {env : Env} (h : Reachable trace env) {grantId : Nat}
    {g : Grant} (hg : env.grants grantId = some g) (hzero : env.timestamp = 0) :
    g.EarnedWithin 0 0 := by
  have hinv := account_invariant_when (C := fun _ => True)
    (P := fun _ _ now a => now = 0 → a.grant.EarnedWithin 0 now) ?_ ?_ ?_ h hg fun _ _ => trivial
  · obtain ⟨o, -, hearned⟩ := hinv
    rw [← hzero]
    exact hearned hzero
  · rintro now recipient totalAmount flowRate warmupDuration validator donor token _ _ _ _ rfl _
    unfold Grant.EarnedWithin
    show (0 + 0 + 0 + 0 : Int) + Grant.overTime Grant.earning _ now now ≤ 0
    rw [Grant.overTime_self]
    decide
  · intro o L e a _ _ hearned hle _ _ hnow
    have hbefore : e.before.timestamp = 0 := by omega
    rw [hnow, ← hbefore]
    exact hearned hbefore
  · intro o L e op a a' payments _ hwf hearned hle _ _ hstep hnow
    have hbefore : e.before.timestamp = 0 := by omega
    have hearned := hearned hbefore
    rw [hbefore, ← hnow] at hearned
    exact hstep.earnedWithin hwf hearned

/-- Nothing can be withdrawn at time zero, and the counter stays in range. -/
theorem withdrawal_bounds {e : Run.Step Env Event} {older : Trace}
    (hrun : Reachable older e.before) (hn : Next e.before e.action e.after) {grantId : Nat}
    {amount : Int} {grant s : Grant} (hgrant : e.before.grants grantId = some grant)
    (hs : Settles grant e.action.timestamp s) (hpos : 0 < amount) (hle : amount ≤ s.claimable) :
    0 < e.action.timestamp ∧ 0 ≤ grant.withdrawn ∧ grant.withdrawn + amount ≤ I128.max := by
  have hwf := wellFormed_of_reachable hrun hgrant
  have hwf' := hwf.of_settles hs
  refine ⟨?_, hwf.withdrawn_nonneg, ?_⟩
  · by_contra hzero
    have htime := (timestamp_of_next hn).1
    have hnow : e.action.timestamp = 0 := by omega
    have hbefore : e.before.timestamp = 0 := by omega
    rw [hnow] at hs
    have hacc := (earnedWithin_zero hrun hgrant hbefore).settles hwf hs
    have := hwf'.withdrawn_nonneg
    have := hwf'.validatorWithdrawn_nonneg
    have := hwf'.validatorClaimable_nonneg
    unfold Grant.accounted at hacc
    omega
  · have hwithdrawn : s.withdrawn = grant.withdrawn := by
      rw [hs.eq_settled, Grant.settled_withdrawn]
    have := hwf'.grantee_le
    have := hwf'.totalAmount_inRange.2
    omega

/-- The records of `r` and its receipts are from the past, and the totals are in range. -/
structure FlowsInRange (r : Address) (trace : Trace) (env : Env) : Prop where
  past : ∀ x ∈ flowLog env r, x.1 ≤ env.timestamp
  entries : ∀ i ∈ receipts r trace, i.1 ≤ env.timestamp
  totals : ∀ x ∈ flowLog env r, 0 ≤ x.2 ∧ x.2 ≤ I128.max

theorem receipts_of_withdrawal {e : Run.Step Env Event} {amount : Int} {grant : Grant}
    (hw : withdrawal e = some (amount, grant)) (r : Address) (trace : Trace) :
    receipts r (e :: trace) =
      if grant.recipient = r then (e.action.timestamp, amount) :: receipts r trace
      else receipts r trace := by
  have hreceipt : receipt r e =
      if grant.recipient = r then some (e.action.timestamp, amount) else none := by
    unfold receipt
    rw [hw]
    rfl
  unfold receipts
  split_ifs at hreceipt ⊢
  · exact List.filterMap_cons_some hreceipt
  · exact List.filterMap_cons_none hreceipt

theorem receipts_of_none {e : Run.Step Env Event} (hw : withdrawal e = none) (r : Address)
    (trace : Trace) : receipts r (e :: trace) = receipts r trace := by
  refine List.filterMap_cons_none ?_
  unfold receipt
  rw [hw]
  rfl

theorem FlowsInRange.wait {r : Address} {trace trace' : Trace} {env env' : Env}
    (h : FlowsInRange r trace env) (hflow : flowLog env' r = flowLog env r)
    (hreceipts : receipts r trace' = receipts r trace) (hle : env.timestamp ≤ env'.timestamp) :
    FlowsInRange r trace' env' where
  past x hx := (h.past x (hflow ▸ hx)).trans hle
  entries i hi := (h.entries i (hreceipts ▸ hi)).trans hle
  totals x hx := h.totals x (hflow ▸ hx)

theorem FlowsInRange.append {r : Address} {trace trace' : Trace} {env env' : Env}
    {amount total : Int} (h : FlowsInRange r trace env)
    (hflow : flowLog env' r = flowLog env r ++ [(env'.timestamp, total)])
    (hreceipts : receipts r trace' = (env'.timestamp, amount) :: receipts r trace)
    (hle : env.timestamp ≤ env'.timestamp) (htotal : 0 ≤ total ∧ total ≤ I128.max) :
    FlowsInRange r trace' env' := by
  constructor
  · rw [hflow]
    refine List.forall_mem_append.mpr ⟨fun x hx => (h.past x hx).trans hle, ?_⟩
    simp
  · rw [hreceipts]
    exact List.forall_mem_cons.mpr ⟨Nat.le_refl _, fun i hi => (h.entries i hi).trans hle⟩
  · rw [hflow]
    refine List.forall_mem_append.mpr ⟨h.totals, ?_⟩
    simpa using htotal

theorem flowsInRange_of_reachable {trace : Trace} {env : Env} (h : Reachable trace env)
    (r : Address) : FlowsInRange r trace env := by
  induction h with
  | start h =>
      obtain ⟨_, _, _, rfl⟩ := h
      constructor <;> simp [flowLog, receipts, Env.deployed]
  | @step trace env event env' hrun hn ih =>
      obtain ⟨hle, htime⟩ := timestamp_of_next hn
      rw [← htime] at hle
      cases flowStep_of_next (e := ⟨env, event, env'⟩) hn with
      | @withdrew grantId amount grant s hw hgrant hs hpos hbound hflow =>
          have hflow := hflow r
          have hreceipts := receipts_of_withdrawal hw r trace
          by_cases hr : grant.recipient = r
          · obtain ⟨-, hnonneg, hmax⟩ :=
              withdrawal_bounds (e := ⟨env, event, env'⟩) hrun hn hgrant hs hpos hbound
            rw [if_pos hr, ← htime] at hflow hreceipts
            exact ih.append hflow hreceipts hle ⟨by omega, hmax⟩
          · rw [if_neg hr, List.append_nil] at hflow
            rw [if_neg hr] at hreceipts
            exact ih.wait hflow hreceipts hle
      | kept hw hflow => exact ih.wait (hflow r) (receipts_of_none hw r trace) hle

/-! ### The report -/

theorem cumulativeAt_eq (env : Env) (r : Address) (ts : Nat) :
    TaxReporting.cumulativeAt (env.flowHistory r) ts =
      CumulativeLog.totalAt (flowLog env r) ts := by
  unfold TaxReporting.cumulativeAt CumulativeLog.totalAt flowLog
  rw [List.foldl_map]

/-- The report is the difference of two totals. -/
theorem getHistoricalFlow_eq {r : Address} {trace : Trace} {env : Env}
    (h : FlowsInRange r trace env) {startTs endTs : Nat} (hlt : startTs < endTs) :
    (TaxReporting.getHistoricalFlow env r startTs endTs).1 =
      CumulativeLog.totalAt (flowLog env r) endTs -
        CumulativeLog.totalAt (flowLog env r) startTs := by
  have hbounds (t : Nat) : 0 ≤ CumulativeLog.totalAt (flowLog env r) t ∧
      CumulativeLog.totalAt (flowLog env r) t ≤ I128.max :=
    CumulativeLog.totalAt_induction (P := fun x => 0 ≤ x ∧ x ≤ I128.max) (by decide) h.totals t
  unfold TaxReporting.getHistoricalFlow
  dsimp only
  rw [if_neg (by omega)]
  by_cases hempty : (env.flowHistory r).isEmpty = true
  · have hlog : flowLog env r = [] := by
      unfold flowLog
      rw [List.isEmpty_iff.mp hempty]
      rfl
    rw [if_pos hempty, hlog]
    rfl
  · rw [if_neg hempty, cumulativeAt_eq, cumulativeAt_eq]
    have hstart := hbounds startTs
    have hend := hbounds endTs
    refine I128.saturate_of_inRange ⟨?_, ?_⟩
    · have hmin : I128.min ≤ 0 - I128.max := by decide
      omega
    · omega

/-- For every range that is not in the future, the report of `r` is what was paid out on
grants of `r`. -/
def ReportRight (r : Address) (trace : Trace) (env : Env) : Prop :=
  ∀ startTs endTs, startTs < endTs → endTs ≤ env.timestamp →
    (TaxReporting.getHistoricalFlow env r startTs endTs).1 = received r startTs endTs trace

theorem reportRight_iff {r : Address} {trace : Trace} {env : Env} (h : Reachable trace env) :
    ReportRight r trace env ↔
      CumulativeLog.Reads env.timestamp (flowLog env r) (receipts r trace) := by
  have hrange := flowsInRange_of_reachable h r
  refine forall_congr' fun startTs => forall_congr' fun endTs => ?_
  refine imp_congr_right fun hlt => imp_congr_right fun _ => ?_
  rw [getHistoricalFlow_eq hrange hlt]
  rfl

/-- The counter of a grant that is withdrawn from continues the last total of its recipient. -/
def ContinuesTotal (e : Run.Step Env Event) (_ : Trace) : Prop :=
  ∀ w ∈ withdrawal e, w.2.withdrawn = CumulativeLog.lastTotal (flowLog e.before w.2.recipient)

instance (e : Run.Step Env Event) (older : Trace) : Decidable (ContinuesTotal e older) :=
  inferInstanceAs (Decidable (∀ _ ∈ _, _))

/-- **Tax report.** In every run, the reports of all recipients are right at every step
exactly if every withdrawal continues the last total of its recipient. -/
theorem tax_report {trace : Trace} {env : Env} (h : Reachable trace env) :
    Run.Each (fun e older => ∀ r, ReportRight r (e :: older) e.after) trace ↔
      Run.Each ContinuesTotal trace := by
  refine Run.each_iff_of_step (I := fun trace env => ∀ r, ReportRight r trace env) ?_ ?_ h
  · rintro env ⟨_, _, _, rfl⟩ r startTs endTs _ hend
    exact absurd hend (by simp [Env.deployed]; omega)
  · intro e older hrun hn hright
    have hrun' : Reachable (e :: older) e.after := .step hrun hn
    have htime := (timestamp_of_next hn).2
    have hreads (r : Address) (now : Nat) :
        CumulativeLog.Reads now (flowLog e.before r) (receipts r older) :=
      have hrange := flowsInRange_of_reachable hrun r
      ((reportRight_iff hrun).mp (hright r)).wait hrange.past hrange.entries
    cases flowStep_of_next hn with
    | @withdrew grantId amount grant s hw hgrant hs hpos hbound hflow =>
        obtain ⟨hnow, -, -⟩ := withdrawal_bounds hrun hn hgrant hs hpos hbound
        have hpast : ∀ x ∈ flowLog e.before grant.recipient, x.1 ≤ e.action.timestamp :=
          fun x hx => ((flowsInRange_of_reachable hrun _).past x hx).trans (timestamp_of_next hn).1
        have hexact : CumulativeLog.Reads e.action.timestamp
            (flowLog e.before grant.recipient ++ [(e.action.timestamp, grant.withdrawn + amount)])
            ((e.action.timestamp, amount) :: receipts grant.recipient older) ↔ _ :=
          CumulativeLog.reads_append_iff (hreads grant.recipient _) hpast hnow
        have hcondition : ContinuesTotal e older ↔
            grant.withdrawn = CumulativeLog.lastTotal (flowLog e.before grant.recipient) := by
          unfold ContinuesTotal
          rw [hw]
          simp
        rw [hcondition, ← add_left_inj amount, ← hexact]
        constructor
        · intro hall
          have hrecipient := (reportRight_iff hrun').mp (hall grant.recipient)
          rw [htime, hflow, receipts_of_withdrawal hw, if_pos rfl, if_pos rfl] at hrecipient
          exact hrecipient
        · intro hrecipient r
          rw [reportRight_iff hrun', htime, hflow, receipts_of_withdrawal hw]
          by_cases hr : grant.recipient = r
          · subst hr
            rw [if_pos rfl, if_pos rfl]
            exact hrecipient
          · rw [if_neg hr, if_neg hr, List.append_nil]
            exact hreads r _
    | kept hw hflow =>
        have hcondition : ContinuesTotal e older := by
          unfold ContinuesTotal
          rw [hw]
          simp
        refine iff_of_true (fun r => ?_) hcondition
        rw [reportRight_iff hrun', hflow, receipts_of_none hw]
        exact hreads r _

/-- Two withdrawals from one grant. -/
theorem tax_report_of_one_grant :
    let run := history Demo.env (Demo.setUp (10 ^ 12) ++
      [Demo.call 1 (.createGrant 7 Demo.grantee (10 ^ 11) (10 ^ 6) 0 none none),
        Demo.call 21 (.withdraw 7 20000000), Demo.call 41 (.withdraw 7 20000000)])
    Run.Each (fun e older => ∀ r, ReportRight r (e :: older) e.after) run.1 := by
  intro run
  have hrun : Reachable run.1 run.2 := history_reachable Demo.env_deployed (by decide)
  exact (tax_report hrun).mpr (by decide)

/-- Two grants of one recipient: the second withdrawal is not in the report. -/
theorem tax_report_two_grants :
    ¬∀ trace env, Reachable trace env →
      Run.Each (fun e older => ∀ r, ReportRight r (e :: older) e.after) trace := by
  intro h
  let run := history Demo.env (Demo.setUp (10 ^ 12) ++
    [Demo.call 1 (.createGrant 7 Demo.grantee (10 ^ 11) (10 ^ 6) 0 none none),
      Demo.call 1 (.createGrant 8 Demo.grantee (10 ^ 11) (10 ^ 6) 0 none none),
      Demo.call 21 (.withdraw 7 20000000), Demo.call 22 (.withdraw 8 20000000)])
  have hrun : Reachable run.1 run.2 := history_reachable Demo.env_deployed (by decide)
  exact absurd ((h _ _ hrun).1 Demo.grantee 0 22 (by decide) (by decide)) (by decide)

end YieldTrust.GrantStream
