import Mathlib.Tactic.Ring
import YieldTrust.Lib.RateStream
import YieldTrust.Optimized.Expiry

/-!
# YieldTrust.Optimized.IdealStream

**Lazy settlement refines an ideal stream**, for the optimized grant. The ideal stream earns its
rate second by second; the calls that set the rate or the active flag drive it, and it knows
nothing of settlements. The grant lags behind it, with whatever flags the admin sets, also when it
is cancelled or terminated. The exceptions are the three ways in which a milestone reaches back: a
grant that expires is settled in the past, a clawback takes what was claimable, and an approval
resumes a paused grant without settling it.
-/

namespace YieldTrust.Optimized

open Fallible
open GrantStream (Address Bytes)

variable {host : Host} {env : Env} {grant grant' settled : Grant} {grantId now ts : Nat}
  {call : Call} {s s' : RateStream Int}

/-! ### The ideal stream of a grant -/

/-- The grant whose stream the call drives. -/
def Call.streamOf? : Call → Option Nat
  | .createGrant grantId _ _ _ _ | .cancelGrantBitmask grantId | .pauseGrant grantId
  | .resumeGrant grantId | .setGrantFlags grantId _ _ | .updateRate grantId _ | .rageQuit grantId
  | .selfTerminate grantId => some grantId
  | _ => none

/-- What a call does to the ideal stream. -/
def Call.drive (s : RateStream Int) : Call → RateStream Int
  | .createGrant _ _ _ flowRate initialStatusMask =>
      (RateStream.start flowRate).setActive (hasStatus initialStatusMask statusActive)
  | .cancelGrantBitmask _ => s.setRate 0
  | .pauseGrant _ => s.setActive false
  | .resumeGrant _ => s.setActive true
  | .setGrantFlags _ flagsToSet flagsToClear =>
      s.setActive ((s.active || hasStatus flagsToSet statusActive) &&
        !hasStatus flagsToClear statusActive)
  | .updateRate _ newRate => s.setRate newRate
  | .rageQuit _ | .selfTerminate _ => (s.setRate 0).setActive false
  | _ => s

/-- The stream of a grant that does not exist. -/
def noStream : RateStream Int := (RateStream.start 0).setActive false

/-- The ideal stream of the grant after a run. -/
def idealAfter (host : Host) (grantId : Nat) : Trace → RateStream Int
  | [] => noStream
  | e :: older =>
      let s := (idealAfter host grantId older).advance e.before.timestamp
        (e.action.timestamp - e.before.timestamp)
      match Ledger.called (contract host) e with
      | some call => if call.streamOf? = some grantId then call.drive s else s
      | none => s

/-- The ideal stream at `now`, where the run came to `timestamp`. -/
def idealAt (host : Host) (grantId : Nat) (trace : Trace) (timestamp now : Nat) :
    RateStream Int := (idealAfter host grantId trace).advance timestamp (now - timestamp)

/-- The call does not reach back: it neither expires the grant nor claws it back, and is no
approval that resumes it. -/
def Call.Plain (grantId : Nat) (env : Env) (call : Call) : Prop :=
  call ≠ .clawbackMilestone grantId ∧ ∀ grant ∈ env.store.grants grantId,
    (call.mayExpire = some grantId → ¬Expired grant env.timestamp) ∧
      (call.approves grantId = true → hasStatus grant.statusMask statusPaused = false ∨
        grant.milestoneApprovers.length + 1 < grant.milestoneThreshold)

instance (grantId : Nat) (env : Env) (call : Call) : Decidable (call.Plain grantId env) :=
  inferInstanceAs (Decidable (_ ∧ ∀ grant ∈ env.store.grants grantId, _))

/-! ### The active flag -/

/-- The active flag is the lowest bit. -/
theorem hasStatus_active (mask : StatusMask) : hasStatus mask statusActive = mask.getLsbD 0 := by
  rw [Bool.eq_iff_iff, ← not_iff_not, Bool.not_eq_true, Bool.not_eq_true, hasStatus_eq_false]
  constructor
  · intro h
    have hbit := congrArg (·.getLsbD 0) h
    simpa [statusActive] using hbit
  · intro h
    ext i hi
    rcases i with _ | i
    · simpa [statusActive] using h
    · simp [statusActive]

theorem flaggedMask_active (mask flagsToSet flagsToClear : StatusMask) :
    hasStatus (flaggedMask mask flagsToSet flagsToClear) statusActive =
      ((hasStatus mask statusActive || hasStatus flagsToSet statusActive) &&
        !hasStatus flagsToClear statusActive) := by
  simp [hasStatus_active, flaggedMask]

/-! ### A grant behind its stream -/

/-- Everything has been earned; what the stream does from now on does not matter. -/
structure Grant.Full (grant : Grant) (s : RateStream Int) : Prop where
  accounted : grant.accounted = grant.totalAmount
  earned : grant.totalAmount ≤ s.earned

/-- The grant is to earn what the stream has earned since the last update. -/
structure Grant.Follows (grant : Grant) (s : RateStream Int) (now : Nat) : Prop where
  lastUpdateTs_le : grant.lastUpdateTs ≤ now
  active : s.active = hasStatus grant.statusMask statusActive
  rate : s.rate = grant.flowRate
  earned : s.earned = grant.accounted +
    if s.active then grant.flowRate * (now - grant.lastUpdateTs : Nat) else 0

def Grant.Lags (grant : Grant) (s : RateStream Int) (now : Nat) : Prop :=
  grant.Full s ∨ grant.Follows s now

/-- A settlement accounts for what the stream has earned, capped, and keeps the flags until the
cap is reached. -/
theorem Grant.Lags.settle (h : grant.Lags s now) (hgrant : grant.WellFormed)
    (hs : Settlement grant now settled) :
    settled.Full s ∨ (settled.accounted = s.earned ∧ settled.statusMask = grant.statusMask ∧
      grant.Follows s now) := by
  have hwf := hs.wellFormed hgrant
  have hsettled := hs.accounted_eq hgrant
  rcases h with hfull | hfollows
  · -- there is nothing left to settle
    have hge : grant.accounted ≤ grant.earnedBy now := hgrant.accounted_le_earnedBy
    have hle := hwf.accounted_le
    have htotal := hs.totalAmount_eq
    have haccounted := hfull.accounted
    exact .inl ⟨by omega, htotal ▸ hfull.earned⟩
  · have hearned := hfollows.earned
    rw [hfollows.active] at hearned
    by_cases hbelow : settled.accounted < settled.totalAmount
    · refine .inr ⟨?_, ?_, hfollows⟩
      · rw [hs.totalAmount_eq] at hbelow
        cases hactive : hasStatus grant.statusMask statusActive with
        | true =>
            rw [Grant.earnedBy_of_active hactive] at hsettled
            simp only [hactive, if_true] at hearned
            omega
        | false =>
            rw [Grant.earnedBy_of_not_active hactive] at hsettled
            simp only [hactive, Bool.false_eq_true, if_false] at hearned
            omega
      · cases hs with
        | idle | accrued => rfl
        | completed delta _ _ _ _ _ hfull => exact absurd hbelow (by simp [Grant.accounted, hfull])
    · have hle := hwf.accounted_le
      have hfullAmount : settled.accounted = settled.totalAmount := by omega
      refine .inl ⟨hfullAmount, ?_⟩
      rw [← hfullAmount, hsettled]
      cases hactive : hasStatus grant.statusMask statusActive with
      | true =>
          rw [Grant.earnedBy_of_active hactive]
          simp only [hactive, if_true] at hearned
          omega
      | false =>
          rw [Grant.earnedBy_of_not_active hactive]
          simp only [hactive, Bool.false_eq_true, if_false] at hearned
          omega

/-- A call that settles the grant, and drives the stream as it changes the grant. -/
theorem Grant.Lags.of_settled (h : grant.Lags s now) (hgrant : grant.WellFormed)
    (hs : Settlement grant now settled) (haccounted : grant'.accounted = settled.accounted)
    (htotal : grant'.totalAmount = settled.totalAmount)
    (hlast : grant'.lastUpdateTs = settled.lastUpdateTs) (hearned : s'.earned = s.earned)
    (hdrive : settled.accounted < settled.totalAmount → settled.statusMask = grant.statusMask →
      s.active = hasStatus grant.statusMask statusActive → s.rate = settled.flowRate →
        s'.active = hasStatus grant'.statusMask statusActive ∧ s'.rate = grant'.flowRate) :
    grant'.Lags s' now := by
  rcases h.settle hgrant hs with hfull | ⟨hsum, hmask, hfollows⟩
  · refine .inl ⟨?_, ?_⟩
    · rw [haccounted, htotal, hfull.accounted]
    · rw [htotal, hearned]
      exact hfull.earned
  · by_cases hbelow : settled.accounted < settled.totalAmount
    · obtain ⟨hactive, hrate⟩ := hdrive hbelow hmask hfollows.active
        (hfollows.rate.trans hs.flowRate_eq.symm)
      rw [hs.lastUpdateTs_eq] at hlast
      exact .inr ⟨hlast.le, hactive, hrate, by simp [hearned, haccounted, hsum, hlast]⟩
    · have hle := (hs.wellFormed hgrant).accounted_le
      exact .inl ⟨by omega, by omega⟩

/-- A call that neither settles the grant nor drives the stream. -/
theorem Grant.Lags.of_same (h : grant.Lags s now) (haccounted : grant'.accounted = grant.accounted)
    (htotal : grant'.totalAmount = grant.totalAmount)
    (hlast : grant'.lastUpdateTs = grant.lastUpdateTs) (hrate : grant'.flowRate = grant.flowRate)
    (hactive : hasStatus grant'.statusMask statusActive = hasStatus grant.statusMask statusActive) :
    grant'.Lags s now := by
  rcases h with hfull | hfollows
  · exact .inl ⟨by rw [haccounted, htotal, hfull.accounted], htotal ▸ hfull.earned⟩
  · refine .inr ⟨hlast ▸ hfollows.lastUpdateTs_le, hactive ▸ hfollows.active,
      hrate ▸ hfollows.rate, ?_⟩
    rw [haccounted, hrate, hlast]
    exact hfollows.earned

/-- Time passes. -/
theorem Grant.Lags.mono (h : grant.Lags s now) (hpending : s.pending = none) (hrate : 0 ≤ s.rate)
    (hle : now ≤ ts) : grant.Lags (s.advance now (ts - now)) ts := by
  rw [RateStream.advance_of_pending_none hpending]
  rcases h with hfull | hfollows
  · refine .inl ⟨hfull.accounted, hfull.earned.trans (le_add_of_nonneg_right ?_)⟩
    split
    · exact nsmul_eq_mul (ts - now) s.rate ▸ Int.mul_nonneg (Int.natCast_nonneg _) hrate
    · exact le_rfl
  · have hlast := hfollows.lastUpdateTs_le
    refine .inr ⟨hlast.trans hle, hfollows.active, hfollows.rate, ?_⟩
    have hearned := hfollows.earned
    dsimp only
    rw [hearned]
    split
    · -- the stream ran in one piece since the last update
      have hsplit : ((ts - grant.lastUpdateTs : Nat) : Int) =
          (now - grant.lastUpdateTs : Nat) + (ts - now : Nat) := by omega
      rw [hsplit, nsmul_eq_mul, hfollows.rate]
      ring
    · simp

/-! ### One transition -/

/-- **Step lemma.** The stream is driven as the grant is changed. -/
theorem Transition.lags (h : Transition host env grantId grant call grant')
    (hgrant : grant.WellFormed) (hstored : env.store.grants grantId = some grant)
    (hplain : call.Plain grantId env) (hlags : grant.Lags s env.timestamp) :
    grant'.Lags (if call.streamOf? = some grantId then call.drive s else s) env.timestamp := by
  obtain ⟨hclawback, hplain⟩ := hplain
  obtain ⟨hlive, happroval⟩ := hplain grant hstored
  cases h with
  | cancelled settled _ hsettle =>
      rw [Call.streamOf?, if_pos rfl]
      refine hlags.of_settled hgrant (settleGrant_eq_ok hsettle) rfl rfl rfl rfl ?_
      intro _ _ hactive _
      simp [Call.drive, RateStream.setRate, hactive]
  | paused settled _ hsettle =>
      rw [Call.streamOf?, if_pos rfl]
      refine hlags.of_settled hgrant (settleGrant_eq_ok hsettle) rfl rfl rfl rfl ?_
      intro _ _ _ hrate
      simp [Call.drive, RateStream.setActive, hrate]
  | resumed settled _ hsettle =>
      rw [Call.streamOf?, if_pos rfl]
      refine hlags.of_settled hgrant (settleGrant_eq_ok hsettle) rfl rfl rfl rfl ?_
      intro _ _ _ hrate
      simp [Call.drive, RateStream.setActive, hrate]
  | flagged flagsToSet flagsToClear settled _ hsettle =>
      rw [Call.streamOf?, if_pos rfl]
      refine hlags.of_settled hgrant (settleGrant_eq_ok hsettle) rfl rfl rfl rfl ?_
      intro _ _ hactive hrate
      simp [Call.drive, RateStream.setActive, flaggedMask_active, hactive, hrate]
  | rateUpdated newRate settled _ hsettle =>
      rw [Call.streamOf?, if_pos rfl]
      refine hlags.of_settled hgrant (settleGrant_eq_ok hsettle) rfl rfl rfl rfl ?_
      intro _ hmask hactive _
      simp [Call.drive, RateStream.setRate, hmask, hactive]
  | rageQuit settled _ hsettle =>
      rw [Call.streamOf?, if_pos rfl]
      refine hlags.of_settled hgrant (settleGrant_eq_ok hsettle) ?_ rfl rfl rfl ?_
      · dsimp only [Grant.accounted, Grant.quit]
        omega
      · intros
        simp [Call.drive, RateStream.setActive, RateStream.setRate, Grant.quit]
  | selfTerminated settled _ hsettle =>
      rw [Call.streamOf?, if_pos rfl]
      refine hlags.of_settled hgrant (settleGrant_eq_ok hsettle) rfl rfl rfl rfl ?_
      intros
      simp [Call.drive, RateStream.setActive, RateStream.setRate]
  | withdrawn amount settled _ _ hsettle =>
      rw [if_neg (by simp [Call.streamOf?])]
      refine hlags.of_settled hgrant (settleGrant_eq_ok hsettle) ?_ rfl rfl rfl ?_
      · dsimp only [Grant.accounted, Grant.paid]
        omega
      · -- the withdrawal completes a grant only if everything was earned
        intro hbelow hmask hactive hrate
        have hsum : settled.withdrawn + amount + (settled.claimable - amount) =
            settled.accounted := by
          dsimp only [Grant.accounted]
          omega
        refine ⟨?_, hrate⟩
        rw [Grant.paid, hsum, if_neg hbelow.ne, hmask]
        exact hactive
  | expired _ hcall _ hexpired => exact absurd hexpired (hlive hcall)
  | clawedBack => exact absurd rfl hclawback
  | approved oracle =>
      rw [if_neg (by simp [Call.streamOf?])]
      obtain ⟨hwithdrawn, hclaimable, htotal, hrate⟩ := grant.approvedBy_balances oracle
      refine hlags.of_same (by simp [Grant.accounted, hwithdrawn, hclaimable]) htotal ?_ hrate ?_
      · unfold Grant.approvedBy
        split <;> rfl
      · unfold Grant.approvedBy
        split
        · case isTrue hmet =>
          have hpaused := (happroval (by simp [Call.approves])).resolve_right (by simpa using hmet)
          simp [hpaused]
        · rfl
  | deadlineSet | oraclesConfigured | evidenceSubmitted | markedMet =>
      rw [if_neg (by simp [Call.streamOf?])]
      exact hlags.of_same rfl rfl rfl rfl rfl

theorem Grant.created_lags (recipient : Address) {totalAmount flowRate : Int} (mask : StatusMask)
    (now : Nat) : (Grant.created recipient totalAmount flowRate mask now).Lags
      ((RateStream.start flowRate).setActive (hasStatus mask statusActive)) now :=
  .inr ⟨le_rfl, rfl, rfl, by simp [Grant.created, Grant.accounted, RateStream.start,
    RateStream.setActive]⟩

/-! ### Runs -/

/-- A stream is driven with rates that are not negative. -/
theorem Effect.drive_rate {grants : Nat → Option Grant} (h : Effect host env call grants)
    (hrate : 0 ≤ s.rate) : 0 ≤ (call.drive s).rate := by
  cases h with
  | initialized _ hcall => exact hcall ▸ hrate
  | unexpired _ _ hcall =>
      cases call with
      | getGrant | claimableBitmask | processMilestoneExpiry => exact hrate
      | _ => cases hcall
  | created _ _ _ _ _ hcall _ _ hflowRate => exact hcall ▸ hflowRate
  | moved _ _ _ _ htransition =>
      cases htransition with
      | rateUpdated _ _ hnewRate => exact hnewRate
      | cancelled | rageQuit | selfTerminated => exact le_rfl
      | expired _ hcall =>
          cases call with
          | getGrant | claimableBitmask | processMilestoneExpiry => exact hrate
          | _ => cases hcall
      | _ => exact hrate

theorem Call.drive_pending (h : s.pending = none) : (call.drive s).pending = none := by
  cases call <;> first | exact h | rfl

/-- A call that leaves a stored grant alone does not drive its stream. -/
theorem Effect.streamOf_ne {grants : Nat → Option Grant} (h : Effect host env call grants)
    (hgrant : env.store.grants grantId = some grant) (hwrites : call.writes grantId = false) :
    call.streamOf? ≠ some grantId := by
  intro hstream
  cases call <;> simp [Call.streamOf?, Call.writes] at hstream hwrites
  case createGrant =>
    subst hstream
    cases h with
    | created _ _ _ _ _ hcall hnone =>
        cases hcall
        cases hnone.symm.trans hgrant
    | initialized _ hcall => cases hcall
    | unexpired _ _ hcall => cases hcall
    | moved _ _ _ _ htransition =>
        cases htransition with
        | expired _ hcall => cases hcall
  all_goals exact hwrites hstream

abbrev PlainStep (host : Host) (grantId : Nat) (e : Step) : Prop :=
  ∀ call ∈ Ledger.called (contract host) e, call.Plain grantId (e.before.enter e.action)

/-- The stream of a run, and the grant behind it. -/
structure Tracked (s : RateStream Int) (grantId : Nat) (env : Env) : Prop where
  pending : s.pending = none
  rate : 0 ≤ s.rate
  lags : ∀ grant, env.store.grants grantId = some grant → grant.Lags s env.timestamp

theorem Tracked.mono (h : Tracked s grantId env) (hle : env.timestamp ≤ ts) :
    Tracked (s.advance env.timestamp (ts - env.timestamp)) grantId
      { env with timestamp := ts } := by
  have hadvance := RateStream.advance_of_pending_none h.pending env.timestamp (ts - env.timestamp)
  refine ⟨by rw [hadvance]; exact h.pending, by rw [hadvance]; exact h.rate, ?_⟩
  intro grant hgrant
  exact (h.lags grant hgrant).mono h.pending h.rate hle

/-- **Step lemma** for the run. -/
theorem Tracked.step {e : Step} {older : Trace}
    (hrun : Ledger.Reachable (contract host) older e.before)
    (hn : Ledger.Next (contract host) e.before e.action e.after)
    (hplain : PlainStep host grantId e)
    (h : Tracked (idealAfter host grantId older) grantId e.before) :
    Tracked (idealAfter host grantId (e :: older)) grantId e.after := by
  obtain ⟨hle, htime⟩ := Ledger.timestamp_of_next hn
  have hlate := h.mono hle
  unfold idealAfter
  dsimp only
  generalize (idealAfter host grantId older).advance e.before.timestamp
    (e.action.timestamp - e.before.timestamp) = s at hlate ⊢
  rcases effect_of_next hn with ⟨hcalled, hstore⟩ | ⟨call, hcalled, heffect⟩
  · rw [hcalled]
    refine ⟨hlate.pending, hlate.rate, fun grant hgrant => ?_⟩
    rw [hstore] at hgrant
    rw [htime]
    exact hlate.lags grant hgrant
  · rw [hcalled]
    dsimp only
    refine ⟨?_, ?_, fun grant' hgrant' => ?_⟩
    · split
      · exact Call.drive_pending hlate.pending
      · exact hlate.pending
    · split
      · exact heffect.drive_rate hlate.rate
      · exact hlate.rate
    · rw [htime]
      cases heffect.grantEffect hgrant' with
      | untouched _ hgrant hwrites =>
          rw [if_neg (heffect.streamOf_ne hgrant hwrites)]
          exact hlate.lags grant' hgrant
      | created recipient totalAmount flowRate mask hcall =>
          rw [hcall, Call.streamOf?, if_pos rfl]
          exact Grant.created_lags recipient mask e.action.timestamp
      | moved grant _ hgrant htransition =>
          exact htransition.lags (wellFormed_of_reachable hrun hgrant) hgrant
            (hplain call hcalled) (hlate.lags grant hgrant)

theorem tracked_of_reachable {trace : Trace} (h : Ledger.Reachable (contract host) trace env)
    (hplain : ∀ e ∈ trace, PlainStep host grantId e) :
    Tracked (idealAfter host grantId trace) grantId env := by
  induction h with
  | start h =>
      obtain ⟨_, _, rfl⟩ := h
      exact ⟨rfl, le_rfl, fun grant hgrant => by cases hgrant⟩
  | @step older before event after hrun hn ih =>
      rw [List.forall_mem_cons] at hplain
      exact Tracked.step (e := ⟨before, event, after⟩) hrun hn hplain.1 (ih hplain.2)

/-- **Refinement.** In every run whose calls do not reach back, whenever a stored grant can be
settled, its two balances are together what the ideal stream has earned by then, capped at the
total amount; and until the cap is reached the grant is active exactly while the stream is, and at
its rate. -/
theorem optimized_refines_ideal_stream {trace : Trace} {p : Grant}
    (h : Ledger.Reachable (contract host) trace env)
    (hplain : ∀ e ∈ trace, PlainStep host grantId e)
    (hgrant : env.store.grants grantId = some grant) (hnow : env.timestamp ≤ now)
    (hp : settleGrant grant now = .ok p) :
    let s := idealAt host grantId trace env.timestamp now
    p.withdrawn + p.claimable = min p.totalAmount s.earned ∧
      (p.withdrawn + p.claimable < p.totalAmount →
        hasStatus p.statusMask statusActive = s.active ∧ p.flowRate = s.rate) := by
  have hs := settleGrant_eq_ok hp
  have hgrant' := wellFormed_of_reachable h hgrant
  have hlags := ((tracked_of_reachable h hplain).mono hnow).lags grant hgrant
  have hle := (hs.wellFormed hgrant').accounted_le
  intro s
  rcases Grant.Lags.settle hlags hgrant' hs with hfull | ⟨hsum, hmask, hfollows⟩
  · have hcap : p.totalAmount ≤ s.earned := hfull.earned
    rw [min_eq_left hcap]
    exact ⟨hfull.accounted, fun hlt => absurd hfull.accounted hlt.ne⟩
  · have hearned : p.accounted = s.earned := hsum
    rw [← hearned, min_eq_right hle]
    refine ⟨rfl, fun _ => ⟨?_, ?_⟩⟩
    · rw [hmask]
      exact hfollows.active.symm
    · rw [hs.flowRate_eq]
      exact hfollows.rate.symm

/-- A stream that is withdrawn from, paused, flagged active again, raised and terminated. -/
theorem optimized_refines_ideal_stream_of_flagged_grant :
    let run := Ledger.history (contract Demo.host) Demo.env (Demo.setUp ++
      [Demo.call 10 (.withdraw 7 4), Demo.call 20 (.pauseGrant 7),
        Demo.call 30 (.setGrantFlags 7 statusActive statusPaused), Demo.call 40 (.updateRate 7 5),
        Demo.call 50 (.cancelGrantBitmask 7)])
    ∃ grant p, run.2.store.grants 7 = some grant ∧ settleGrant grant 66 = .ok p ∧
      p.withdrawn + p.claimable =
        min p.totalAmount (idealAt Demo.host 7 run.1 run.2.timestamp 66).earned := by
  intro run
  have hrun : Ledger.Reachable (contract Demo.host) run.1 run.2 :=
    Ledger.history_reachable _ Demo.env_deployed (by decide)
  have hnow : run.2.timestamp ≤ 66 := by decide
  exact ⟨_, _, rfl, rfl, (optimized_refines_ideal_stream hrun (by decide) rfl hnow rfl).1⟩

end YieldTrust.Optimized
