import YieldTrust.FlashLoan.Pool

/-!
# YieldTrust.FlashLoan.Maturity

The sums of a pool **over a run**. A record does not say whether a settlement has counted it, so
the mature sum is covered by old deposits, and every deposit is counted once, as long as no
settlement counts a record again and nobody deposits more into a record that was counted.
-/

namespace YieldTrust.FlashLoan

open GrantStream (Address)

variable {env : Env} {call : Call} {token depositor : Address} {now now' : Nat} {p p' : Pool}
  {op : PoolOp} {times : Address → Nat} {e : Step} {trace older : Trace}

/-! ### How often a record is counted -/

/-- How often the operation counts what the depositor has as matured. -/
def Pool.countings (p : Pool) (now : Nat) (depositor : Address) : PoolOp → Nat
  | .settle depositors =>
      if (p.deposits depositor).any fun record => record.Aged now then depositors.count depositor
      else 0
  | .deposit _ _ | .withdraw _ _ => 0

/-- `times` after an operation. A record is new if there was none before. -/
def Pool.timesAfter (p : Pool) (now : Nat) (times : Address → Nat) (op : Option PoolOp)
    (depositor : Address) : Nat :=
  if (p.deposits depositor).isNone then 0
  else times depositor + op.elim 0 (p.countings now depositor)

/-- What the step does to the pool of the token. -/
def operation (token : Address) (e : Step) : Option PoolOp :=
  (Ledger.called contract e).bind (Call.op token)

/-- How often the deposits of each depositor were counted as matured: the first deposit in the
record that often, the later ones at most that often. -/
def timesMatured (token : Address) : Trace → Address → Nat
  | [] => fun _ => 0
  | e :: older =>
      (e.before.store.pool token).timesAfter e.action.timestamp (timesMatured token older)
        (operation token e)

/-- The deposits that were counted as matured. -/
def Pool.counted (p : Pool) (times : Address → Nat) (depositor : Address) :
    Option DepositRecord :=
  if times depositor = 0 then none else p.deposits depositor

theorem counted_timesAfter (p : Pool) (now : Nat) (times : Address → Nat) (o : Option PoolOp)
    (depositor : Address) :
    p.counted (p.timesAfter now times o) depositor =
      if o.elim 0 (p.countings now depositor) = 0 then p.counted times depositor
      else p.deposits depositor := by
  unfold Pool.counted Pool.timesAfter
  cases hrecord : p.deposits depositor with
  | none => simp
  | some record =>
      by_cases hzero : o.elim 0 (p.countings now depositor) = 0
      · simp [hzero]
      · simp [hzero]

/-- A write changes what is counted only at a depositor with a record that is counted. -/
theorem counted_update (p : Pool) (depositor : Address) (x : Option DepositRecord)
    (mature pending : Int) (times : Address → Nat) :
    Pool.counted ⟨Function.update p.deposits depositor x, mature, pending⟩ times =
      if times depositor = 0 then p.counted times
      else Function.update (p.counted times) depositor x := by
  funext other
  by_cases hother : other = depositor
  · subst hother
    by_cases hzero : times other = 0
    · simp [Pool.counted, hzero]
    · simp [Pool.counted, hzero]
  · by_cases hzero : times depositor = 0
    · simp [Pool.counted, hzero, hother]
    · simp [Pool.counted, hzero, hother]

theorem counted_finite (h : p.Balanced) (times : Address → Nat) :
    (PartialMap.keys (p.counted times)).Finite := by
  refine h.finite.subset fun depositor hcounted hnone => hcounted ?_
  unfold Pool.counted
  rw [hnone, ite_self]

theorem DepositRecord.Aged.mono {record : DepositRecord} (h : record.Aged now)
    (hle : now ≤ now') : record.Aged now' := h.trans (Nat.sub_le_sub_right hle _)

/-! ### What keeps the mature sum covered -/

/-- What the claim of a pool needs of an operation. -/
def PoolOp.CountsOnce (p : Pool) (now : Nat) (times : Address → Nat) : PoolOp → Prop
  | .deposit depositor _ => p.deposits depositor ≠ none → times depositor = 0
  | .withdraw _ _ => True
  | .settle depositors => ∀ depositor ∈ depositors, ∀ record ∈ p.deposits depositor,
      record.Aged now → depositors.count depositor = 1 ∧ times depositor = 0

/-- The mature sum is covered by counted deposits, which are old. -/
structure Pool.Covered (p : Pool) (now : Nat) (times : Address → Nat) : Prop where
  once : ∀ depositor, times depositor ≤ 1
  aged : ∀ depositor record, p.deposits depositor = some record → times depositor ≠ 0 →
    record.Aged now
  mature_le : p.mature ≤ PartialMap.total (p.counted times) DepositRecord.amount

/-- Without an operation only the time goes on. -/
theorem Pool.Covered.idle (h : p.Covered now times) (hle : now ≤ now') :
    p.Covered now' (p.timesAfter now' times none) := by
  have hcounted : p.counted (p.timesAfter now' times none) = p.counted times := by
    funext depositor
    rw [counted_timesAfter]
    rfl
  refine ⟨fun depositor => ?_, fun depositor record hrecord htimes => ?_, hcounted ▸ h.mature_le⟩
  · have honce := h.once depositor
    unfold Pool.timesAfter
    split
    · exact Nat.zero_le 1
    · exact honce
  · simp only [Pool.timesAfter, hrecord, Option.isNone_some, Bool.false_eq_true, if_false] at htimes
    exact (h.aged depositor record hrecord htimes).mono hle

/-- **Step lemma** for a deposit: it makes the record one that is not counted. -/
theorem Pool.Covered.deposited {amount : Int} {record : DepositRecord} {pending : Int}
    (h : p.Covered now times) (hle : now ≤ now')
    (honce : p.deposits depositor ≠ none → times depositor = 0) :
    Pool.Covered ⟨Function.update p.deposits depositor (some record), p.mature, pending⟩ now'
      (p.timesAfter now' times (some (.deposit depositor amount))) := by
  have hzero : p.timesAfter now' times (some (.deposit depositor amount)) depositor = 0 := by
    unfold Pool.timesAfter
    cases hrecord : p.deposits depositor with
    | none => rfl
    | some old => exact honce (by simp [hrecord])
  have hidle := h.idle hle
  refine ⟨hidle.once, fun other r hr htimes => ?_, ?_⟩
  · by_cases hother : other = depositor
    · rw [hother] at htimes
      exact absurd hzero htimes
    · dsimp only at hr
      rw [Function.update_of_ne hother] at hr
      exact hidle.aged other r hr htimes
  · rw [counted_update, if_pos hzero]
    exact hidle.mature_le

/-- **Step lemma** for a withdrawal: the mature sum loses what the counted deposits lose. -/
theorem Pool.Covered.withdrawn {amount : Int} {record : DepositRecord} {pending : Int}
    (hb : p.Balanced) (h : p.Covered now times) (hle : now ≤ now') (hpos : 0 < amount)
    (hfind : p.deposits depositor = some record) (haged : record.Aged now') :
    Pool.Covered ⟨Function.update p.deposits depositor (record.less amount),
      p.mature - amount, pending⟩ now'
      (p.timesAfter now' times (some (.withdraw depositor amount))) := by
  have hidle := h.idle hle
  let times' := p.timesAfter now' times (some (.withdraw depositor amount))
  have hmature : p.mature ≤ PartialMap.total (p.counted times') DepositRecord.amount :=
    hidle.mature_le
  refine ⟨hidle.once, fun other r hr htimes => ?_, ?_⟩
  · dsimp only at hr
    by_cases hother : other = depositor
    · rw [hother, Function.update_self] at hr
      unfold DepositRecord.less at hr
      split at hr
      · cases hr
      · cases hr
        exact haged
    · rw [Function.update_of_ne hother] at hr
      exact hidle.aged other r hr htimes
  · rw [counted_update]
    by_cases hzero : times' depositor = 0
    · rw [if_pos hzero]
      exact (Int.sub_le_self _ hpos.le).trans hmature
    · have hcounted : p.counted times' depositor = some record := by
        unfold Pool.counted
        rw [if_neg hzero, hfind]
      rw [if_neg hzero, PartialMap.total_update (counted_finite hb times'), hcounted,
        record.less_amount, Option.elim_some]
      dsimp only
      omega

theorem countings_settle {depositors : List Address} {record : DepositRecord}
    (hfind : p.deposits depositor = some record) :
    p.countings now depositor (.settle depositors) =
      if record.Aged now then depositors.count depositor else 0 := by
  simp [Pool.countings, hfind]

/-- What a settlement adds to the mature sum is what it counts. -/
theorem total_counted_settle {depositors : List Address} (hb : p.Balanced)
    (honce : PoolOp.CountsOnce p now times (.settle depositors)) :
    PartialMap.total (p.counted (p.timesAfter now times (some (.settle depositors))))
        DepositRecord.amount =
      PartialMap.total (p.counted times) DepositRecord.amount +
        p.newlyMatured now depositors := by
  let listed (depositor : Address) : Option DepositRecord :=
    if depositor ∈ depositors then p.deposits depositor else none
  have hlisted {depositor : Address} (hmem : depositor ∈ depositors) :
      listed depositor = p.deposits depositor := if_pos hmem
  have hfinite : (PartialMap.keys listed).Finite := by
    refine hb.finite.subset fun depositor hkey hnone => hkey ?_
    rw [show listed depositor = if depositor ∈ depositors then _ else _ from rfl, hnone, ite_self]
  have hnewly : p.newlyMatured now depositors =
      PartialMap.total listed (DepositRecord.agedAmount now) := by
    have hmap : p.newlyMatured now depositors = (depositors.map fun depositor =>
        (listed depositor).elim 0 (DepositRecord.agedAmount now)).sum := by
      refine congrArg List.sum (List.map_congr_left fun depositor hmem => ?_)
      rw [hlisted hmem]
    rw [hmap]
    refine PartialMap.sum_map_eq_total _ (fun depositor hmem hne => ?_) fun depositor hsome => ?_
    · rw [hlisted hmem] at hne
      cases hfind : p.deposits depositor with
      | none => simp [hfind] at hne
      | some record =>
          refine (honce depositor hmem record hfind ?_).1
          by_contra haged
          simp [hfind, DepositRecord.agedAmount, haged] at hne
    · by_contra hmem
      exact hsome (if_neg hmem)
  rw [hnewly]
  refine PartialMap.total_eq_add (counted_finite hb times) hfinite fun depositor => ?_
  rw [counted_timesAfter]
  by_cases hmem : depositor ∈ depositors
  · rw [hlisted hmem]
    cases hfind : p.deposits depositor with
    | none => simp [Pool.counted, hfind]
    | some record =>
        rw [Option.elim_some, countings_settle hfind]
        by_cases haged : record.Aged now
        · obtain ⟨hcount, hzero⟩ := honce depositor hmem record hfind haged
          simp [Pool.counted, haged, hcount, hzero, DepositRecord.agedAmount]
        · simp [Pool.counted, haged, DepositRecord.agedAmount]
  · have hnone : listed depositor = none := if_neg hmem
    have hzero : p.countings now depositor (.settle depositors) = 0 := by
      simp [Pool.countings, List.count_eq_zero_of_not_mem hmem]
    simp [hnone, hzero]

/-- **Step lemma** for a settlement. -/
theorem Pool.Covered.settled {depositors : List Address} {pending : Int} (hb : p.Balanced)
    (h : p.Covered now times) (hle : now ≤ now')
    (honce : PoolOp.CountsOnce p now' times (.settle depositors)) :
    Pool.Covered ⟨p.deposits, p.mature + p.newlyMatured now' depositors, pending⟩ now'
      (p.timesAfter now' times (some (.settle depositors))) := by
  refine ⟨fun depositor => ?_, fun depositor record hrecord htimes => ?_, ?_⟩
  · unfold Pool.timesAfter
    cases hfind : p.deposits depositor with
    | none => exact Nat.zero_le 1
    | some record =>
        rw [Option.elim_some, countings_settle hfind]
        by_cases hcounted : record.Aged now' ∧ depositor ∈ depositors
        · obtain ⟨haged, hmem⟩ := hcounted
          obtain ⟨hcount, hzero⟩ := honce depositor hmem record hfind haged
          simp [haged, hcount, hzero]
        · have hcountings : (if record.Aged now' then depositors.count depositor else 0) = 0 := by
            by_cases haged : record.Aged now'
            · rw [if_pos haged]
              exact List.count_eq_zero_of_not_mem fun hmem => hcounted ⟨haged, hmem⟩
            · exact if_neg haged
          rw [hcountings]
          exact h.once depositor
  · have hfind : p.deposits depositor = some record := hrecord
    unfold Pool.timesAfter at htimes
    rw [hfind, Option.elim_some, countings_settle hfind] at htimes
    by_cases haged : record.Aged now'
    · exact haged
    · simp only [Option.isNone_some, Bool.false_eq_true, if_false, if_neg haged, add_zero] at htimes
      exact (h.aged depositor record hfind htimes).mono hle
  · have htotal := total_counted_settle hb honce
    have hmature := h.mature_le
    exact (Int.add_le_add_right hmature _).trans htotal.ge

/-- **Step lemma.** -/
theorem PoolStep.covered (hstep : PoolStep now' p op p') (hb : p.Balanced)
    (h : p.Covered now times) (hle : now ≤ now') (honce : op.CountsOnce p now' times) :
    p'.Covered now' (p.timesAfter now' times (some op)) := by
  cases hstep with
  | deposited depositor amount record hpos hamount hrange => exact h.deposited hle honce
  | withdrawn depositor amount record hpos hfind haged hamount =>
      rw [(hb.withdrawn hpos hfind hamount).1]
      exact h.withdrawn hb hle hpos hfind haged
  | settled depositors hrange => exact h.settled hb hle honce

/-- Counted deposits are old, so they have their matching weight. -/
theorem Pool.Covered.mature_le_aged (h : p.Covered now times) (hb : p.Balanced) :
    p.mature ≤ PartialMap.total p.deposits (DepositRecord.agedAmount now) := by
  refine h.mature_le.trans (PartialMap.total_mono (counted_finite hb times) hb.finite ?_)
  intro depositor
  unfold Pool.counted
  cases hfind : p.deposits depositor with
  | none =>
      rw [ite_self]
      exact le_rfl
  | some record =>
      have hpos := hb.pos depositor record hfind
      by_cases hzero : times depositor = 0
      · rw [if_pos hzero, Option.elim_none, Option.elim_some]
        unfold DepositRecord.agedAmount
        split
        · exact hpos.le
        · exact le_rfl
      · rw [if_neg hzero, Option.elim_some, Option.elim_some, DepositRecord.agedAmount,
          if_pos (h.aged depositor record hfind hzero)]

/-! ### Runs -/

/-- What the claim of the sums comes to after a step. -/
structure AggregatesSound (e : Step) (older : Trace) : Prop where
  balance : ∀ token, getMaturePoolBalance e.after token + getPendingPoolBalance e.after token =
    (e.after.store.pool token).deposited
  mature_le : ∀ token, getMaturePoolBalance e.after token ≤
    ∑ᶠ depositor, getMatchingWeight e.after token depositor
  once : ∀ token depositor, timesMatured token (e :: older) depositor ≤ 1

/-- The call counts no record that was counted already, nor one record twice, and it deposits
nothing into a record that was counted. -/
def Call.CountsOnce (env : Env) (times : Address → Address → Nat) : Call → Prop
  | .recordDeposit poolToken depositor _ =>
      env.store.depositLedger poolToken depositor ≠ none → times poolToken depositor = 0
  | .withdrawFromPool _ _ _ => True
  | .settlePendingDeposits poolToken depositors =>
      ∀ depositor ∈ depositors, ∀ record ∈ env.store.depositLedger poolToken depositor,
        record.Aged env.timestamp →
          depositors.count depositor = 1 ∧ times poolToken depositor = 0

instance decidableCountsOnce (env : Env) (times : Address → Address → Nat) :
    (call : Call) → Decidable (call.CountsOnce env times)
  | .recordDeposit poolToken depositor _ => inferInstanceAs (Decidable
      (env.store.depositLedger poolToken depositor ≠ none → times poolToken depositor = 0))
  | .withdrawFromPool _ _ _ => inferInstanceAs (Decidable True)
  | .settlePendingDeposits poolToken depositors => inferInstanceAs (Decidable
      (∀ depositor ∈ depositors, ∀ record ∈ env.store.depositLedger poolToken depositor,
        record.Aged env.timestamp →
          depositors.count depositor = 1 ∧ times poolToken depositor = 0))

/-- The call of the step, if it goes through, counts and deposits like that. -/
def CountsOnce (e : Step) (older : Trace) : Prop :=
  ∀ call ∈ Ledger.called contract e,
    call.CountsOnce (e.before.enter e.action) fun token => timesMatured token older

instance (e : Step) (older : Trace) : Decidable (CountsOnce e older) :=
  inferInstanceAs (Decidable (∀ call ∈ Ledger.called contract e, _))

theorem Call.CountsOnce.poolOp {times : Address → Address → Nat} (h : call.CountsOnce env times)
    (hop : call.op token = some op) :
    op.CountsOnce (env.store.pool token) env.timestamp (times token) := by
  cases call with
  | recordDeposit poolToken depositor amount =>
      obtain ⟨rfl, rfl⟩ : poolToken = token ∧ PoolOp.deposit depositor amount = op := by
        simpa [Call.op] using hop
      exact h
  | withdrawFromPool poolToken depositor amount =>
      obtain ⟨rfl, rfl⟩ : poolToken = token ∧ PoolOp.withdraw depositor amount = op := by
        simpa [Call.op] using hop
      trivial
  | settlePendingDeposits poolToken depositors =>
      obtain ⟨rfl, rfl⟩ : poolToken = token ∧ PoolOp.settle depositors = op := by
        simpa [Call.op] using hop
      exact h

/-- What one event does to the pool of a token. -/
theorem pool_of_next (h : Ledger.Next contract e.before e.action e.after) (token : Address) :
    (operation token e = none ∧ e.after.store.pool token = e.before.store.pool token) ∨
      ∃ call op, Ledger.called contract e = some call ∧ call.op token = some op ∧
        operation token e = some op ∧ PoolStep e.action.timestamp (e.before.store.pool token) op
          (e.after.store.pool token) := by
  rcases Ledger.cases_of_next h with ⟨hnone, hstore⟩ | ⟨call, result, hcalled, -, hexec, hafter⟩
  · refine .inl ⟨?_, by rw [hstore]⟩
    simp [operation, hnone]
  · have hoperation : operation token e = call.op token := by simp [operation, hcalled]
    have hstore : e.after.store = result.store := by rw [hafter, Ledger.Env.commit]
    rw [hoperation, hstore]
    rcases exec_pool token hexec with ⟨hop, hpool⟩ | ⟨op, hop, hstep⟩
    · exact .inl ⟨hop, hpool⟩
    · exact .inr ⟨call, op, hcalled, hop, hop, hstep⟩

/-- Both sums together are what is deposited, in every run. -/
theorem balanced_of_reachable (h : Ledger.Reachable contract trace env) (token : Address) :
    (env.store.pool token).Balanced := by
  refine Run.invariant (I := fun env => (env.store.pool token).Balanced) ?_ ?_ h
  · rintro _ ⟨self, tokens, rfl⟩
    have hempty : PartialMap.keys (fun _ : Address => (none : Option DepositRecord)) = ∅ := by
      simp [PartialMap.keys]
    have hmax : (0 : Int) ≤ I128.max := by decide
    refine ⟨?_, ?_, ?_, hmax, hmax⟩
    · exact hempty ▸ Set.finite_empty
    · rintro depositor record ⟨⟩
    · exact (PartialMap.total_of_keys_empty hempty _).symm
  · intro before event after hbefore hn
    rcases pool_of_next (e := ⟨before, event, after⟩) hn token with
      ⟨-, hpool⟩ | ⟨call, op, -, -, -, hstep⟩
    · exact hpool ▸ hbefore
    · exact hstep.balanced hbefore

theorem covered_of_reachable (h : Ledger.Reachable contract trace env)
    (hc : Run.Each CountsOnce trace) (token : Address) :
    (env.store.pool token).Covered env.timestamp (timesMatured token trace) := by
  induction h with
  | start h =>
      obtain ⟨self, tokens, rfl⟩ := h
      refine ⟨fun _ => Nat.zero_le 1, fun _ _ _ hne => absurd rfl hne, ?_⟩
      have hempty : PartialMap.keys (Pool.counted
          ((Ledger.Env.deployed contract self tokens).store.pool token) fun _ => 0) = ∅ := by
        simp [PartialMap.keys, Pool.counted]
      exact (PartialMap.total_of_keys_empty hempty _).ge
  | @step older before event after hrun hn ih =>
      have hcovered := ih hc.2
      obtain ⟨hle, htime⟩ := Ledger.timestamp_of_next (e := ⟨before, event, after⟩) hn
      dsimp only at hle htime
      rw [htime]
      unfold timesMatured
      rcases pool_of_next (e := ⟨before, event, after⟩) hn token with
        ⟨hnone, hpool⟩ | ⟨call, op, hcalled, hop, hoperation, hstep⟩
      · dsimp only at hpool
        rw [hnone, hpool]
        exact hcovered.idle hle
      · rw [hoperation]
        have honce := Call.CountsOnce.poolOp (hc.1 call hcalled) hop
        exact hstep.covered (balanced_of_reachable hrun token) hcovered hle honce

/-- **Aggregates.** In every run in which every settlement and every deposit counts once, both
sums of every pool are what is deposited, the mature sum is at most what is old enough, and no
deposit is counted as matured twice. -/
theorem aggregates_sound (h : Ledger.Reachable contract trace env)
    (hc : Run.Each CountsOnce trace) : Run.Each AggregatesSound trace := by
  have hsound {e : Step} {older : Trace} (hrun : Ledger.Reachable contract (e :: older) e.after)
      (hc : Run.Each CountsOnce (e :: older)) : AggregatesSound e older := by
    have hcovered := covered_of_reachable hrun hc
    refine ⟨fun token => (balanced_of_reachable hrun token).balance, fun token => ?_,
      fun token depositor => (hcovered token).once depositor⟩
    have hmature := (hcovered token).mature_le_aged (balanced_of_reachable hrun token)
    rw [finsum_congr fun depositor => getMatchingWeight_eq]
    exact hmature
  exact Run.each_imp h hc hsound

/-- Two deposits are settled, one of them is withdrawn in two parts, and its depositor starts
again; a settlement may list young deposits as often as it likes. -/
theorem aggregates_sound_of_new_record :
    let run := Ledger.history contract Demo.env
      [Demo.call 0 (.recordDeposit Demo.token Demo.alice 60),
        Demo.call 1 (.recordDeposit Demo.token Demo.alice 40),
        Demo.call 2 (.recordDeposit Demo.token Demo.bob 50),
        Demo.call 172802 (.settlePendingDeposits Demo.token [Demo.alice, Demo.bob]),
        Demo.call 172803 (.withdrawFromPool Demo.token Demo.alice 70),
        Demo.call 172804 (.withdrawFromPool Demo.token Demo.alice 30),
        Demo.call 172805 (.recordDeposit Demo.token Demo.alice 10),
        Demo.call 172806 (.settlePendingDeposits Demo.token [Demo.alice, Demo.alice])]
    Run.Each AggregatesSound run.1 := by
  intro run
  have hrun : Ledger.Reachable contract run.1 run.2 :=
    Ledger.history_reachable contract ⟨_, _, rfl⟩ (by decide)
  exact aggregates_sound hrun (by decide)

/-- A settlement that lists a depositor twice counts the deposit twice. -/
theorem aggregates_sound_repeated_depositor :
    ¬∀ trace env, Ledger.Reachable contract trace env → Run.Each AggregatesSound trace := by
  intro h
  let run := Ledger.history contract Demo.env
    [Demo.call 0 (.recordDeposit Demo.token Demo.alice 100),
      Demo.call 172800 (.settlePendingDeposits Demo.token [Demo.alice, Demo.alice])]
  have hrun : Ledger.Reachable contract run.1 run.2 :=
    Ledger.history_reachable contract ⟨_, _, rfl⟩ (by decide)
  have hsafe := (h _ _ hrun).1
  exact absurd (hsafe.once Demo.token Demo.alice) (by decide)

end YieldTrust.FlashLoan
