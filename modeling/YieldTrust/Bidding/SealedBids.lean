import YieldTrust.Bidding.Reveals
import YieldTrust.Lib.Register

/-!
# YieldTrust.Bidding.SealedBids

Why bids are committed to first: they are **sealed**. Commitments are taken in while the bidding
is open and bids are revealed while it is closed, so nobody commits after having seen a bid, unless
the bidding was opened again in between.
-/

namespace YieldTrust.Bidding

open Fallible
open GrantStream (Address Bytes)

variable {host : Host} {env env' : Env} {bid : RevealedBid} {grantee : Address} {call : Call}
  {trace older : Trace} {e : Step} {commitment : Bytes}

/-! ### Views -/

def getRevealedBid (env : Env) (grantee : Address) : Res RevealedBid :=
  orTrap (env.store.reveal grantee)

def getCommitment (env : Env) (grantee : Address) : Res Bytes :=
  orTrap (env.store.commitment grantee)

/-! ### What a step does to the bidding -/

/-- Whether the call leaves the bidding open, if it says so. -/
def Call.window : Call → Option Bool
  | .openBidding _ _ => some true
  | .closeBidding _ => some false
  | .commit _ _ | .reveal _ _ => none

def Call.deadline : Call → Option Nat
  | .openBidding _ revealDeadline => some revealDeadline
  | .closeBidding _ | .commit _ _ | .reveal _ _ => none

def Call.committed (grantee : Address) : Call → Option Bytes
  | .commit address commitment => if address = grantee then some commitment else none
  | _ => none

def window (host : Host) (e : Step) : Option Bool :=
  (Ledger.called (contract host) e).bind Call.window

def deadline (host : Host) (e : Step) : Option Nat :=
  (Ledger.called (contract host) e).bind Call.deadline

/-- What the grantee commits to at the step, if it is accepted. -/
def committed (host : Host) (grantee : Address) (e : Step) : Option Bytes :=
  (Ledger.called (contract host) e).bind (Call.committed grantee)

theorem committed_eq_some : committed host grantee e = some commitment ↔
    Ledger.called (contract host) e = some (.commit grantee commitment) := by
  unfold committed
  cases Ledger.called (contract host) e with
  | none => simp
  | some call =>
      cases call with
      | commit address other => simp [Call.committed]
      | _ => simp [Call.committed]

/-- Nobody commits or reveals for another one. -/
theorem signed_of_exec (h : call.exec host env = .ok env')
    (hsubject : call.committed grantee ≠ none ∨ call.revealed grantee ≠ none) :
    grantee ∈ env.auths := by
  cases call with
  | openBidding | closeBidding => simp [Call.committed, Call.revealed] at hsubject
  | commit address other =>
      obtain ⟨_, hauth, -⟩ := bind_eq_ok.mp h
      have heq : address = grantee := by simpa [Call.committed, Call.revealed] using hsubject
      exact heq ▸ require_eq_ok.mp hauth
  | reveal address other =>
      obtain ⟨_, hauth, -⟩ := bind_eq_ok.mp h
      have heq : address = grantee := by simpa [Call.committed, Call.revealed] using hsubject
      exact heq ▸ require_eq_ok.mp hauth

theorem registers_of_next (hn : Ledger.Next (contract host) e.before e.action e.after) :
    e.after.store.biddingOpen = (window host e).getD e.before.store.biddingOpen ∧
      e.after.store.revealDeadline = (deadline host e).getD e.before.store.revealDeadline ∧
      ∀ grantee, e.after.store.reveal grantee =
        ((revealed host grantee e).map some).getD (e.before.store.reveal grantee) := by
  rcases effect_of_next hn with ⟨hnone, hstore⟩ | ⟨call, hcalled, heffect⟩
  · simp [window, deadline, revealed, hnone, hstore]
  · simp only [window, deadline, revealed, hcalled]
    generalize e.after.store = store at heffect
    cases heffect with
    | opened | closed | committed => exact ⟨rfl, rfl, fun _ => rfl⟩
    | revealed address bid =>
        refine ⟨rfl, rfl, fun grantee => ?_⟩
        by_cases heq : address = grantee
        · subst heq
          simp [Call.revealed]
        · simp [Call.revealed, heq, Function.update_of_ne (Ne.symm heq), Ledger.Env.enter]

theorem biddingOpen_eq (h : Ledger.Reachable (contract host) trace env) :
    env.store.biddingOpen = Run.lastWritten (window host) false trace := by
  refine Run.register_eq (f := fun env : Env => env.store.biddingOpen) ?_
    (fun hn => (registers_of_next hn).1) h
  rintro _ ⟨_, _, rfl⟩
  rfl

theorem revealDeadline_eq (h : Ledger.Reachable (contract host) trace env) :
    env.store.revealDeadline = Run.lastWritten (deadline host) 0 trace := by
  refine Run.register_eq (f := fun env : Env => env.store.revealDeadline) ?_
    (fun hn => (registers_of_next hn).2.1) h
  rintro _ ⟨_, _, rfl⟩
  rfl

/-- The bid that the grantee revealed last. -/
def lastRevealed (host : Host) (grantee : Address) (trace : Trace) : Option RevealedBid :=
  Run.lastWritten (fun e => (revealed host grantee e).map some) none trace

theorem reveal_eq (h : Ledger.Reachable (contract host) trace env) (grantee : Address) :
    env.store.reveal grantee = lastRevealed host grantee trace := by
  refine Run.register_eq (f := fun env : Env => env.store.reveal grantee) ?_
    (fun hn => (registers_of_next hn).2.2 grantee) h
  rintro _ ⟨_, _, rfl⟩
  rfl

/-- A grantee commits once. -/
theorem commitments_eq (h : Ledger.Reachable (contract host) trace env) (grantee : Address) :
    trace.filterMap (committed host grantee) = (env.store.commitment grantee).toList := by
  induction h with
  | start h =>
      obtain ⟨_, _, rfl⟩ := h
      rfl
  | @step older before event after hrun hn ih =>
      rcases effect_of_next (e := ⟨before, event, after⟩) hn with
        ⟨hnone, hstore⟩ | ⟨call, hcalled, heffect⟩
      · have hcommitted : committed host grantee ⟨before, event, after⟩ = none := by
          simp [committed, hnone]
        rw [List.filterMap_cons_none hcommitted, ih]
        dsimp only at hstore
        rw [hstore]
      · dsimp only at heffect
        have hcommitted : committed host grantee ⟨before, event, after⟩ =
            call.committed grantee := by
          simp [committed, hcalled]
        rw [List.filterMap_cons, hcommitted, ih]
        generalize after.store = store at heffect
        cases heffect with
        | opened | closed | revealed => rfl
        | committed address other _ hnone =>
            by_cases heq : address = grantee
            · subst heq
              have hbefore : before.store.commitment address = none := hnone
              simp [Call.committed, hbefore]
            · simp [Call.committed, heq, Function.update_of_ne (Ne.symm heq), Ledger.Env.enter]

/-! ### Runs -/

/-- What a reveal of `bid` promises, at `now`, with `older` before it and `newer` after it. -/
structure Sealed (host : Host) (newer older : Trace) (now : Nat) (grantee : Address)
    (bid : RevealedBid) : Prop where
  closed : Run.lastWritten (window host) false older = false
  in_time : now ≤ Run.lastWritten (deadline host) 0 older
  committed : older.filterMap (committed host grantee) = [host.sha256 bid.encoded]
  afterwards : ∀ newest e middle other commitment, newer = newest ++ e :: middle →
    Bidding.committed host other e = some commitment → ∃ e' ∈ middle, window host e' = some true

/-- **Sealed bids.** In every run the views tell the bid that a grantee revealed last and the one
commitment it made; only the grantee itself commits and reveals; every reveal comes in time, while
the bidding is closed, and shows what the grantee committed to before; and no commitment is taken
in after it before the bidding is opened again. -/
theorem bids_sealed (h : Ledger.Reachable (contract host) trace env) :
    (∀ grantee bid, getRevealedBid env grantee = .ok bid ↔
      lastRevealed host grantee trace = some bid) ∧
    (∀ grantee commitment, getCommitment env grantee = .ok commitment ↔
      trace.filterMap (committed host grantee) = [commitment]) ∧
    (∀ e ∈ trace, ∀ grantee, committed host grantee e ≠ none ∨ revealed host grantee e ≠ none →
      grantee ∈ (e.before.enter e.action).auths) ∧
    ∀ newer e older grantee bid, trace = newer ++ e :: older →
      revealed host grantee e = some bid →
        Sealed host newer older e.action.timestamp grantee bid := by
  refine ⟨fun grantee bid => ?_, fun grantee commitment => ?_, ?_, ?_⟩
  · rw [getRevealedBid, orTrap_eq_ok, reveal_eq h]
  · rw [getCommitment, orTrap_eq_ok, commitments_eq h]
    cases env.store.commitment grantee <;> simp
  · intro e he grantee hsubject
    obtain ⟨older, -, hn⟩ := h.of_mem he
    rcases Ledger.cases_of_next hn with ⟨hnone, -⟩ | ⟨call, result, hcalled, -, hexec, -⟩
    · simp [committed, revealed, hnone] at hsubject
    · refine signed_of_exec hexec ?_
      simpa [committed, revealed, hcalled] using hsubject
  · rintro newer e older grantee bid rfl hrevealed
    obtain ⟨hrun, hn, -⟩ := h.suffix.uncons
    have hcalled := revealed_eq_some.mp hrevealed
    have hclosed : e.before.store.biddingOpen = false ∧
        e.action.timestamp ≤ e.before.store.revealDeadline := by
      rcases effect_of_next hn with ⟨hnone, -⟩ | ⟨call, hcalled', heffect⟩
      · cases hnone.symm.trans hcalled
      · cases hcalled.symm.trans hcalled'
        generalize e.after.store = store at heffect
        cases heffect with
        | revealed _ _ hclosed htime => exact ⟨hclosed, htime⟩
    have hcommitment := commitment_of_revealed hn hrevealed
    refine ⟨(biddingOpen_eq hrun).symm.trans hclosed.1,
      hclosed.2.trans (revealDeadline_eq hrun).le, ?_, ?_⟩
    · rw [commitments_eq hrun, hcommitment]
      rfl
    · rintro newest e' middle other commitment rfl hcommitted
      by_contra hnone
      -- the bidding is closed at the reveal, and nothing opens it
      rw [List.append_assoc, List.cons_append] at h
      obtain ⟨hrun', hn', -⟩ := h.suffix.uncons
      have hopen : e'.before.store.biddingOpen = true := by
        have hcalled' := committed_eq_some.mp hcommitted
        rcases effect_of_next hn' with ⟨hnone', -⟩ | ⟨call, hcalled'', heffect⟩
        · cases hnone'.symm.trans hcalled'
        · cases hcalled'.symm.trans hcalled''
          generalize e'.after.store = store at heffect
          cases heffect with
          | committed _ _ hopen => exact hopen
      have hwindow : window host e = none := by simp [window, hcalled, Call.window]
      have hshut : Run.lastWritten (window host) false (e :: older) ≠ true := by
        rw [Run.lastWritten_of_none hwindow, ← biddingOpen_eq hrun, hclosed.1]
        exact Bool.false_ne_true
      have hstays : Run.lastWritten (window host) false (middle ++ e :: older) ≠ true :=
        Run.lastWritten_append_ne (fun o ho hwrite => hnone ⟨o, ho, hwrite⟩) hshut
      exact hstays ((biddingOpen_eq hrun').symm.trans hopen)

/-- After both have revealed there is one commitment each, and the rival's bid can be read. -/
theorem bids_sealed_of_two_bidders :
    let run := Ledger.history (contract Demo.host) Demo.env (Demo.setUp ++
      [Demo.call 4 [Demo.grantee] (.reveal Demo.grantee Demo.bid),
        Demo.call 5 [Demo.rival] (.reveal Demo.rival Demo.rivalBid)])
    getRevealedBid run.2 Demo.rival = .ok Demo.rivalBid ∧
      Sealed Demo.host [] run.1.tail 5 Demo.rival Demo.rivalBid := by
  intro run
  have hrun : Ledger.Reachable (contract Demo.host) run.1 run.2 :=
    Ledger.history_reachable _ Demo.env_deployed (by decide)
  exact ⟨((bids_sealed hrun).1 Demo.rival Demo.rivalBid).mpr (by decide),
    (bids_sealed hrun).2.2.2 [] _ _ Demo.rival Demo.rivalBid rfl (by decide)⟩

end YieldTrust.Bidding
