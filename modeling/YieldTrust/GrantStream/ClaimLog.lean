import Mathlib.Algebra.BigOperators.Intervals
import Mathlib.Algebra.Order.BigOperators.Group.Finset
import YieldTrust.GrantStream.Deletion
import YieldTrust.GrantStream.Records

/-!
# YieldTrust.GrantStream.ClaimLog

The claim log of a grant against its `withdrawn` counter. `withdraw` adds to both,
`rage_quit` to the counter only, and `finalize_and_purge` leaves the log of a deleted
grant to the next one with its id.
-/

namespace YieldTrust.GrantStream

open Fallible

/-! ### Logs -/

/-- The entries of a claim log, by their index. -/
abbrev ClaimEntries := Nat → Option ClaimFiatValue

/-- The tokens that the entry stands for. -/
def tokensOf (log : ClaimEntries) (i : Nat) : Int := (log i).elim 0 ClaimFiatValue.tokenAmount

/-- The tokens of the first `count` entries. -/
def claimTotal (log : ClaimEntries) (count : Nat) : Int := ∑ i ∈ Finset.Icc 1 count, tokensOf log i

/-- The first `count` entries exist, carry their own index and stand for something. -/
structure Entries (log : ClaimEntries) (count : Nat) : Prop where
  fits : count < U64.size
  entry : ∀ i, 1 ≤ i → i ≤ count →
    ∃ value, log i = some value ∧ value.claimIndex = i ∧ 0 < value.tokenAmount

variable {log : ClaimEntries} {count : Nat}

theorem Entries.none (log : ClaimEntries) : Entries log 0 where
  fits := by decide
  entry i hi hle := by omega

theorem Entries.tokens_pos (h : Entries log count) {i : Nat} (hi : 1 ≤ i) (hle : i ≤ count) :
    0 < tokensOf log i := by
  obtain ⟨value, hvalue, -, hpos⟩ := h.entry i hi hle
  unfold tokensOf
  rw [hvalue]
  exact hpos

theorem Entries.claimTotal_eq_zero_iff (h : Entries log count) :
    claimTotal log count = 0 ↔ count = 0 := by
  constructor
  · intro hzero
    by_contra hcount
    have hpos : 0 < claimTotal log count := by
      refine Finset.sum_pos (fun i hi => ?_) ⟨1, by simp; omega⟩
      obtain ⟨hfirst, hlast⟩ := Finset.mem_Icc.mp hi
      exact h.tokens_pos hfirst hlast
    omega
  · rintro rfl
    rfl

theorem claimTotal_update_of_lt {i : Nat} (value : ClaimFiatValue) (h : count < i) :
    claimTotal (Function.update log i (some value)) count = claimTotal log count := by
  refine Finset.sum_congr rfl fun j hj => ?_
  have hle := (Finset.mem_Icc.mp hj).2
  unfold tokensOf
  rw [Function.update_of_ne (by omega)]

theorem claimTotal_update_succ (value : ClaimFiatValue) :
    claimTotal (Function.update log (count + 1) (some value)) (count + 1) =
      claimTotal log count + value.tokenAmount := by
  have hlast : tokensOf (Function.update log (count + 1) (some value)) (count + 1) =
      value.tokenAmount := by
    unfold tokensOf
    rw [Function.update_self]
    rfl
  unfold claimTotal
  rw [Finset.sum_Icc_succ_top (by omega), hlast]
  exact congrArg (· + value.tokenAmount) (claimTotal_update_of_lt value (Nat.lt_succ_self count))

/-- The last entry is overwritten. -/
theorem claimTotal_update_last (value : ClaimFiatValue) (h : 0 < count) :
    claimTotal (Function.update log count (some value)) count =
      claimTotal log count - tokensOf log count + value.tokenAmount := by
  obtain ⟨count, rfl⟩ : ∃ before, count = before + 1 := ⟨count - 1, by omega⟩
  have hold : claimTotal log (count + 1) = claimTotal log count + tokensOf log (count + 1) :=
    Finset.sum_Icc_succ_top (by omega) _
  rw [claimTotal_update_succ, hold]
  omega

section Append

variable {value : ClaimFiatValue}

/-- The index after the last one; the last `u64` has no index after it. -/
theorem saturatingAdd_one_cases (h : count < U64.size) :
    (count + 1 < U64.size ∧ U64.saturatingAdd count 1 = count + 1) ∨
      (U64.size ≤ count + 1 ∧ 0 < count ∧ U64.saturatingAdd count 1 = count) := by
  unfold U64.saturatingAdd
  by_cases hlt : count + 1 < U64.size
  · exact .inl ⟨hlt, if_pos hlt⟩
  · have hsize : 1 < U64.size := by decide
    exact .inr ⟨by omega, by omega, by rw [if_neg hlt]; omega⟩

theorem Entries.append (h : Entries log count)
    (hindex : value.claimIndex = U64.saturatingAdd count 1) (hpos : 0 < value.tokenAmount) :
    Entries (Function.update log (U64.saturatingAdd count 1) (some value))
      (U64.saturatingAdd count 1) := by
  have hcases := saturatingAdd_one_cases h.fits
  have hfits := h.fits
  constructor
  · omega
  · intro i hi hle
    by_cases hlast : i = U64.saturatingAdd count 1
    · rw [hlast, Function.update_self]
      exact ⟨value, rfl, hindex, hpos⟩
    · rw [Function.update_of_ne hlast]
      exact h.entry i hi (by omega)

/-- A new entry is added to the total, unless it overwrites one. -/
theorem Entries.claimTotal_append_iff (h : Entries log count) :
    claimTotal (Function.update log (U64.saturatingAdd count 1) (some value))
        (U64.saturatingAdd count 1) = claimTotal log count + value.tokenAmount ↔
      count + 1 < U64.size := by
  rcases saturatingAdd_one_cases h.fits with ⟨hlt, hnext⟩ | ⟨hge, hpos, hnext⟩
  · rw [hnext, claimTotal_update_succ]
    exact iff_of_true rfl hlt
  · rw [hnext, claimTotal_update_last value hpos]
    have hlost := h.tokens_pos hpos (Nat.le_refl count)
    constructor <;> intro _ <;> omega

end Append

/-! ### What a step does to them -/

/-- The number of claims that the log of the grant counts. -/
def claimCount (env : Env) (grantId : Nat) : Nat := (env.claimValueCounter grantId).getD 0

/-- The effect of a step on the claim log of a grant. -/
inductive ClaimEffect (grantId : Nat) (e : Run.Step Env Event) : Prop
  | logged {value : ClaimFiatValue}
      (hop : performed grantId e = some (.withdraw value.tokenAmount))
      (hpos : 0 < value.tokenAmount)
      (hindex : value.claimIndex = U64.saturatingAdd (claimCount e.before grantId) 1)
      (hcount : claimCount e.after grantId = U64.saturatingAdd (claimCount e.before grantId) 1)
      (hlog : e.after.claimValue grantId = Function.update (e.before.claimValue grantId)
        (U64.saturatingAdd (claimCount e.before grantId) 1) (some value))
  | kept (hop : ∀ amount, performed grantId e ≠ some (.withdraw amount))
      (hcount : claimCount e.after grantId = claimCount e.before grantId)
      (hlog : e.after.claimValue grantId = e.before.claimValue grantId)
  | dropped (hcount : claimCount e.after grantId = 0) (hgrant : e.after.grants grantId = none)

theorem claimEffect_of_next {e : Run.Step Env Event} (hn : Next e.before e.action e.after)
    (grantId : Nat) : ClaimEffect grantId e := by
  have hkept {env : Env} (hsame : Region.Same e.before env .claims) :
      claimCount env grantId = claimCount e.before grantId ∧
        env.claimValue grantId = e.before.claimValue grantId := by
    unfold claimCount
    rw [hsame.1, hsame.2]
    exact ⟨rfl, rfl⟩
  have hperformed := performed_eq grantId e
  rcases called_of_next hn with ⟨hcalled, hframe⟩ | ⟨call, hcalled, hexec⟩
  · obtain ⟨hcount, hlog⟩ := hkept (hframe.same .claims (by decide))
    rw [hcalled] at hperformed
    exact .kept (by simp [hperformed]) hcount hlog
  · rw [hcalled, Option.bind_some] at hperformed
    by_cases hclaims : Region.claims ∈ call.writes
    · cases call <;> simp [Call.writes] at hclaims
      case withdraw id amount =>
        obtain ⟨grant, s, -, -, hpos, -, hrecorded⟩ := withdraw_records hexec
        obtain ⟨hcounter, value, hindex, rfl, hvalue⟩ := hrecorded.claim
        by_cases hid : id = grantId
        · subst hid
          have hop : performed id e = some (.withdraw value.tokenAmount) := by
            simp [hperformed, Call.grantOp?]
          refine .logged hop hpos hindex ?_ ?_
          · unfold claimCount
            rw [hcounter, Function.update_self]
            rfl
          · rw [hvalue, Function.update_self]
            rfl
        · refine .kept (by simp [hperformed, Call.grantOp?, hid]) ?_ ?_
          · unfold claimCount
            rw [hcounter, Function.update_of_ne (Ne.symm hid)]
            rfl
          · rw [hvalue, Function.update_of_ne (Ne.symm hid)]
            rfl
      case pruneFinalizedGrant id relayer =>
        obtain ⟨hgrant, hcounter, hvalue, -⟩ := pruneFinalizedGrant_left hexec
        by_cases hid : id = grantId
        · subst hid
          refine .dropped ?_ hgrant
          unfold claimCount
          rw [hcounter, Function.update_self]
          rfl
        · refine .kept (by simp [hperformed, Call.grantOp?]) ?_ (congrFun hvalue grantId)
          unfold claimCount
          rw [hcounter, Function.update_of_ne (Ne.symm hid)]
          rfl
    · obtain ⟨hcount, hlog⟩ := hkept
        ((enter_frame e.before e.action).same .claims (by decide) |>.trans
          ((frame_of_exec hexec).same .claims hclaims))
      refine .kept (fun amount => ?_) hcount hlog
      rw [hperformed]
      cases call
      case withdraw => exact absurd (by simp [Call.writes]) hclaims
      all_goals simp [Call.grantOp?]

/-- What is counted is always there. -/
theorem entries_of_reachable {trace : Trace} {env : Env} (h : Reachable trace env)
    (grantId : Nat) : Entries (env.claimValue grantId) (claimCount env grantId) := by
  induction h with
  | start h =>
      obtain ⟨_, _, _, rfl⟩ := h
      exact .none _
  | @step trace env event env' hrun hn ih =>
      cases claimEffect_of_next (e := ⟨env, event, env'⟩) hn grantId with
      | logged hop hpos hindex hcount hlog =>
          dsimp only at hindex hcount hlog
          rw [hcount, hlog]
          exact ih.append hindex hpos
      | kept hop hcount hlog =>
          dsimp only at hcount hlog
          rw [hcount, hlog]
          exact ih
      | dropped hcount hgrant =>
          dsimp only at hcount
          rw [hcount]
          exact .none _

/-! ### The log and the counter -/

/-- What an operation adds to `withdrawn`. -/
def GrantOp.withdraws (now : Nat) (grant : Grant) : GrantOp → Int
  | .withdraw amount => amount
  | .rageQuit => (grant.settled now).claimable
  | _ => 0

theorem GrantStep.withdrawn {now : Nat} {treasury : Option Address} {op : GrantOp}
    {a a' : Account} {payments : List Payment} (hstep : GrantStep now treasury op a a' payments) :
    a'.grant.withdrawn = a.grant.withdrawn + op.withdraws now a.grant := by
  cases hstep with
  | withdraw hs _ _ _ _ _ hm | withdrawValidator hs _ _ _ _ hm | pause hs _ hm
  | proposeIncrease hs _ _ _ hm | proposeDecrease hs _ _ _ hm | applyKpi hs _ _ hm
  | rageQuit hs _ _ hm | cancel hs _ _ hm | clawbackNothing hs _ _ hm
  | clawbackContested hs _ _ hm | clawbackToDonor hs _ _ _ hm =>
      obtain rfl := hs.eq_settled
      subst hm
      simp [GrantOp.withdraws]
  | resume _ hm | changeGrantee _ _ hm | resolveToGrantee _ _ _ _ hm | setLegal hm
  | signLegal _ hm =>
      subst hm
      simp [GrantOp.withdraws]
  | resolveToDonor => simp [GrantOp.withdraws]

/-- If the grant exists, the entries that its log counts exist, carry their own index and
add up to what was withdrawn. -/
def ClaimsComplete (grantId : Nat) (env : Env) : Prop :=
  ∀ grant, env.grants grantId = some grant →
    (∀ i, 1 ≤ i → i ≤ claimCount env grantId →
      ∃ value, env.claimValue grantId i = some value ∧ value.claimIndex = i) ∧
    claimTotal (env.claimValue grantId) (claimCount env grantId) = grant.withdrawn

/-- What the operation pays the grantee is logged: the log is not full, and a grantee who
quits has nothing to claim. -/
def LogsPayment (grantId : Nat) (e : Run.Step Env Event) : GrantOp → Grant → Prop
  | .withdraw _, _ => claimCount e.before grantId + 1 < U64.size
  | .rageQuit, grant => (grant.settled e.action.timestamp).claimable = 0
  | _, _ => True

instance (grantId : Nat) (e : Run.Step Env Event) (op : GrantOp) (grant : Grant) :
    Decidable (LogsPayment grantId e op grant) := by
  unfold LogsPayment
  split <;> infer_instance

/-- A new grant begins with an empty log, and payments to the grantee are logged. -/
def ClaimsLogged (grantId : Nat) (e : Run.Step Env Event) (_ : Trace) : Prop :=
  (opens grantId e = true → claimCount e.before grantId = 0) ∧
    AtOp grantId e (LogsPayment grantId e)

instance (grantId : Nat) (e : Run.Step Env Event) (older : Trace) :
    Decidable (ClaimsLogged grantId e older) := inferInstanceAs (Decidable (_ ∧ _))

theorem claimsComplete_iff {trace : Trace} {env : Env} (h : Reachable trace env) {grantId : Nat}
    {grant : Grant} (hg : env.grants grantId = some grant) :
    ClaimsComplete grantId env ↔
      claimTotal (env.claimValue grantId) (claimCount env grantId) = grant.withdrawn := by
  unfold ClaimsComplete
  rw [hg]
  constructor
  · intro hcomplete
    exact (hcomplete grant rfl).2
  · rintro htotal _ ⟨⟩
    refine ⟨fun i hi hle => ?_, htotal⟩
    obtain ⟨value, hvalue, hindex, -⟩ := (entries_of_reachable h grantId).entry i hi hle
    exact ⟨value, hvalue, hindex⟩

/-- A step that performs nothing on the grant keeps its log. -/
theorem claimsComplete_of_idle {e : Run.Step Env Event} (hn : Next e.before e.action e.after)
    {grantId : Nat} (hop : performed grantId e = none)
    (hgrant : e.after.grants grantId = e.before.grants grantId)
    (h : ClaimsComplete grantId e.before) : ClaimsComplete grantId e.after := by
  intro grant hg
  cases claimEffect_of_next hn grantId with
  | logged hop' _ _ _ _ => cases hop.symm.trans hop'
  | kept _ hcount hlog =>
      rw [hcount, hlog]
      exact h grant (hgrant ▸ hg)
  | dropped _ hnone => cases hnone.symm.trans hg

/-- A new grant has the log that its id already had. -/
theorem claimsComplete_of_opened {e : Run.Step Env Event} {older : Trace}
    (h : Reachable (e :: older) e.after) {grantId : Nat} (hop : performed grantId e = none)
    {grant : Grant} (hgrant : e.after.grants grantId = some grant) (hwithdrawn : grant.withdrawn = 0) :
    ClaimsComplete grantId e.after ↔ claimCount e.before grantId = 0 := by
  obtain ⟨hrun, hn, -⟩ := h.uncons
  rw [claimsComplete_iff h hgrant, hwithdrawn]
  cases claimEffect_of_next hn grantId with
  | logged hop' _ _ _ _ => cases hop.symm.trans hop'
  | kept _ hcount hlog =>
      rw [hcount, hlog]
      exact (entries_of_reachable hrun grantId).claimTotal_eq_zero_iff
  | dropped _ hnone => cases hnone.symm.trans hgrant

theorem claimsComplete_of_operated {e : Run.Step Env Event} {older : Trace}
    (h : Reachable (e :: older) e.after) {grantId : Nat} {op : GrantOp} {g : Grant}
    {a' : Account} {payments : List Payment} (hop : performed grantId e = some op)
    (hg : e.before.grants grantId = some g)
    (hstep : GrantStep e.action.timestamp e.before.treasury op
      ⟨g, e.before.disputeEscrow grantId⟩ a' payments)
    (hgrant : e.after.grants grantId = some a'.grant)
    (hbefore : ClaimsComplete grantId e.before) :
    ClaimsComplete grantId e.after ↔ LogsPayment grantId e op g := by
  obtain ⟨hrun, hn, -⟩ := h.uncons
  have htotal := (claimsComplete_iff hrun hg).mp hbefore
  rw [claimsComplete_iff h hgrant, hstep.withdrawn]
  dsimp only
  rw [← htotal]
  cases claimEffect_of_next hn grantId with
  | logged hop' hpos hindex hcount hlog =>
      obtain rfl := Option.some.inj (hop.symm.trans hop')
      rw [hcount, hlog]
      exact (entries_of_reachable hrun grantId).claimTotal_append_iff
  | kept hop' hcount hlog =>
      rw [hcount, hlog]
      cases op with
      | withdraw amount => exact absurd hop (hop' amount)
      | rageQuit => exact left_eq_add
      | _ => exact iff_of_true (Int.add_zero _).symm trivial
  | dropped _ hnone => cases hnone.symm.trans hgrant

/-- **Claim log.** In every run, the log of a grant accounts for all that was withdrawn from
it at every step exactly if every step meets the condition. -/
theorem claim_log {trace : Trace} {env : Env} (h : Reachable trace env) (grantId : Nat) :
    Run.Each (fun e _ => ClaimsComplete grantId e.after) trace ↔
      Run.Each (ClaimsLogged grantId) trace := by
  refine Run.each_iff_of_step (I := fun _ env => ClaimsComplete grantId env) ?_ ?_ h
  · rintro env ⟨_, _, _, rfl⟩ grant hg
    cases hg
  · intro e older hrun hn hbefore
    have hrun' : Reachable (e :: older) e.after := .step hrun hn
    unfold ClaimsLogged AtOp
    cases accountEffect_of_next hn grantId with
    | idle hop hgrant _ =>
        have hopens := opens_eq_false_of_same hgrant
        rw [hopens, hop]
        exact iff_of_true (claimsComplete_of_idle hn hop hgrant hbefore) ⟨nofun, trivial⟩
    | opened hcall hop hnone htotal hflow hgrant _ =>
        have hopens := opens_eq_true hnone hgrant
        rw [hopens, hop, claimsComplete_of_opened hrun' hop hgrant rfl]
        simp
    | operated hop hg hstep hgrant _ _ _ =>
        have hopens := opens_eq_false_of_some hg
        rw [hopens, hop, hg, claimsComplete_of_operated hrun' hop hg hstep hgrant hbefore]
        simp
    | closed hop hg _ _ hgrant _ =>
        have hopens := opens_eq_false_of_some hg
        rw [hopens, hop]
        refine iff_of_true (fun grant hg' => ?_) ⟨nofun, trivial⟩
        cases hgrant.symm.trans hg'

/-- A grant that is withdrawn from twice and quit when everything is claimed. -/
theorem claim_log_of_withdrawals :
    let run := history Demo.env (Demo.setUp (10 ^ 12) ++
      [Demo.call 1 (.createGrant 7 Demo.grantee (10 ^ 11) (10 ^ 6) 0 none none),
        Demo.call 21 (.withdraw 7 20000000), Demo.call 41 (.withdraw 7 20000000),
        Demo.call 41 (.pauseStream 7 none), Demo.call 51 (.rageQuit 7)])
    Run.Each (fun e _ => ClaimsComplete 7 e.after) run.1 := by
  intro run
  have hrun : Reachable run.1 run.2 := history_reachable Demo.env_deployed (by decide)
  exact (claim_log hrun 7).mpr (by decide)

/-- A grantee who quits is paid without an entry. -/
theorem claim_log_rage_quit :
    ¬∀ trace env grantId, Reachable trace env → ClaimsComplete grantId env := by
  intro h
  let run := history Demo.env (Demo.setUp (10 ^ 12) ++
    [Demo.call 1 (.createGrant 7 Demo.grantee (10 ^ 11) (10 ^ 6) 0 none none),
      Demo.call 21 (.pauseStream 7 none), Demo.call 31 (.rageQuit 7)])
  have hrun : Reachable run.1 run.2 := history_reachable Demo.env_deployed (by decide)
  exact absurd (h _ _ 7 hrun _ rfl).2 (by decide)

end YieldTrust.GrantStream
