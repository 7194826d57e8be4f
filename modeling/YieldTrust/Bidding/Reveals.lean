import YieldTrust.Bidding.Binding

/-!
# YieldTrust.Bidding.Reveals

The **reveals of a run**. A commitment is never replaced, so all reveals of a grantee have the
hash it committed to; they say the same unless one is the other one regrouped.
-/

namespace YieldTrust.Bidding

open Fallible
open GrantStream (Address Bytes)
open GrantStream.AuditLog (toBeBytes)

variable {host : Host} {env env' : Env} {store : Store} {bid bid' : RevealedBid}
  {grantee : Address} {call : Call} {trace older : Trace} {e : Step}

/-! ### What a call does -/

inductive Effect (host : Host) (env : Env) : Call → Store → Prop
  | opened (admin : Address) (revealDeadline : Nat) :
      Effect host env (.openBidding admin revealDeadline)
        { env.store with biddingOpen := true, revealDeadline }
  | closed (admin : Address) :
      Effect host env (.closeBidding admin) { env.store with biddingOpen := false }
  | committed (grantee : Address) (commitment : Bytes) (hopen : env.store.biddingOpen = true)
      (hnone : env.store.commitment grantee = none) :
      Effect host env (.commit grantee commitment)
        { env.store with
          commitment := Function.update env.store.commitment grantee (some commitment) }
  | revealed (grantee : Address) (bid : RevealedBid) (hclosed : env.store.biddingOpen = false)
      (htime : env.timestamp ≤ env.store.revealDeadline)
      (hcommitment : env.store.commitment grantee = some (host.sha256 bid.encoded)) :
      Effect host env (.reveal grantee bid)
        { env.store with reveal := Function.update env.store.reveal grantee (some bid) }

/-- **Inversion** of a call that goes through. -/
theorem exec_effect (h : call.exec host env = .ok env') : Effect host env call env'.store := by
  cases call with
  | openBidding admin revealDeadline =>
      unfold Call.exec openBidding at h
      simp only [bind_eq_ok, pure_eq_ok] at h
      obtain ⟨_, -, rfl⟩ := h
      exact .opened admin revealDeadline
  | closeBidding admin =>
      unfold Call.exec closeBidding at h
      simp only [bind_eq_ok, pure_eq_ok] at h
      obtain ⟨_, -, rfl⟩ := h
      exact .closed admin
  | commit grantee commitment =>
      unfold Call.exec commit at h
      simp only [bind_eq_ok, require_eq_ok, pure_eq_ok] at h
      obtain ⟨_, -, _, hopen, _, hnone, rfl⟩ := h
      exact .committed grantee commitment hopen hnone
  | reveal grantee bid =>
      unfold Call.exec reveal at h
      simp only [hashBid_eq, bind_eq_ok, require_eq_ok, orTrap_eq_ok, pure_eq_ok,
        Except.ok.injEq] at h
      obtain ⟨_, -, _, hclosed, _, htime, _, hcommitment, _, rfl, _, rfl, rfl⟩ := h
      exact .revealed grantee bid hclosed htime hcommitment

/-- What one event does to the storage. -/
theorem effect_of_next (h : Ledger.Next (contract host) e.before e.action e.after) :
    (Ledger.called (contract host) e = none ∧ e.after.store = e.before.store) ∨
      ∃ call, Ledger.called (contract host) e = some call ∧
        Effect host (e.before.enter e.action) call e.after.store :=
  Ledger.effect_of_next (E := fun call store => Effect host _ call store) h
    fun _ hexec => exec_effect hexec

/-! ### Reveals -/

/-- The bid that the call reveals for the grantee. -/
def Call.revealed (grantee : Address) : Call → Option RevealedBid
  | .reveal address bid => if address = grantee then some bid else none
  | _ => none

/-- What is hashed for a reveal. -/
def Call.revealedInput : Call → Option Bytes
  | .reveal _ bid => some bid.encoded
  | _ => none

/-- The bid that the step reveals for the grantee, if it is accepted. -/
def revealed (host : Host) (grantee : Address) (e : Step) : Option RevealedBid :=
  (Ledger.called (contract host) e).bind (Call.revealed grantee)

/-- What was hashed for all accepted reveals. -/
def revealedInputs (host : Host) (trace : Trace) : List Bytes :=
  trace.filterMap fun e => (Ledger.called (contract host) e).bind Call.revealedInput

theorem revealed_eq_some : revealed host grantee e = some bid ↔
    Ledger.called (contract host) e = some (.reveal grantee bid) := by
  unfold revealed
  cases Ledger.called (contract host) e with
  | none => simp
  | some call =>
      cases call with
      | reveal address other => simp [Call.revealed]
      | _ => simp [Call.revealed]

theorem mem_revealedInputs (he : e ∈ trace) (h : revealed host grantee e = some bid) :
    bid.encoded ∈ revealedInputs host trace := by
  refine List.mem_filterMap.mpr ⟨e, he, ?_⟩
  rw [revealed_eq_some.mp h]
  rfl

/-- A step that reveals a bid finds its hash as the commitment. -/
theorem commitment_of_revealed (hn : Ledger.Next (contract host) e.before e.action e.after)
    (h : revealed host grantee e = some bid) :
    e.before.store.commitment grantee = some (host.sha256 bid.encoded) := by
  have hcalled := revealed_eq_some.mp h
  rcases effect_of_next hn with ⟨hnone, -⟩ | ⟨call, hcalled', heffect⟩
  · cases hnone.symm.trans hcalled
  · cases hcalled.symm.trans hcalled'
    generalize e.after.store = store at heffect
    cases heffect with
    | revealed _ _ _ _ hcommitment => exact hcommitment

/-- What is stored as revealed is older, or revealed by the step. -/
theorem stored_of_next (hn : Ledger.Next (contract host) e.before e.action e.after)
    (h : e.after.store.reveal grantee = some bid) :
    e.before.store.reveal grantee = some bid ∨ revealed host grantee e = some bid := by
  rcases effect_of_next hn with ⟨-, hstore⟩ | ⟨call, hcalled, heffect⟩
  · rw [hstore] at h
    exact .inl h
  · generalize e.after.store = store at heffect h
    cases heffect with
    | opened | closed | committed => exact .inl h
    | revealed address other =>
        by_cases heq : grantee = address
        · subst heq
          dsimp only at h
          rw [Function.update_self] at h
          exact .inr (revealed_eq_some.mpr (Option.some.inj h ▸ hcalled))
        · exact .inl ((Function.update_of_ne heq ..).symm.trans h)

/-- A commitment stays. -/
theorem commitment_of_next (hn : Ledger.Next (contract host) e.before e.action e.after)
    {commitment : Bytes} (h : e.before.store.commitment grantee = some commitment) :
    e.after.store.commitment grantee = some commitment := by
  rcases effect_of_next hn with ⟨-, hstore⟩ | ⟨call, -, heffect⟩
  · rw [hstore]
    exact h
  · generalize e.after.store = store at heffect
    cases heffect with
    | opened | closed | revealed => exact h
    | committed address other hopen hnone =>
        have hne : grantee ≠ address := by
          rintro rfl
          cases h.symm.trans hnone
        exact (Function.update_of_ne hne ..).trans h

/-- The commitment of a grantee is the hash of everything it revealed. -/
theorem commitment_of_mem (h : Ledger.Reachable (contract host) trace env) (he : e ∈ trace)
    (hrevealed : revealed host grantee e = some bid) :
    env.store.commitment grantee = some (host.sha256 bid.encoded) := by
  induction h with
  | start => cases he
  | @step older before event after h hn ih =>
      have hbefore : before.store.commitment grantee = some (host.sha256 bid.encoded) := by
        rcases List.mem_cons.mp he with rfl | he
        · exact commitment_of_revealed hn hrevealed
        · exact ih he
      exact commitment_of_next (e := ⟨before, event, after⟩) hn hbefore

/-- What is stored as revealed was revealed. -/
theorem exists_of_stored (h : Ledger.Reachable (contract host) trace env)
    (hstored : env.store.reveal grantee = some bid) :
    ∃ e ∈ trace, revealed host grantee e = some bid := by
  induction h with
  | start h =>
      obtain ⟨self, tokens, rfl⟩ := h
      cases hstored
  | @step older before event after h hn ih =>
      rcases stored_of_next (e := ⟨before, event, after⟩) hn hstored with hbefore | hrevealed
      · obtain ⟨e, he, hrevealed⟩ := ih hbefore
        exact ⟨e, List.mem_cons_of_mem _ he, hrevealed⟩
      · exact ⟨_, List.mem_cons_self, hrevealed⟩

/-! ### Runs -/

/-- A grantee is bound to what it revealed: no other content is accepted, and the stored one
does not change. -/
structure Bound (host : Host) (e : Step) (older : Trace) : Prop where
  unique : ∀ grantee bid, revealed host grantee e = some bid → ∀ e' ∈ older, ∀ bid',
    revealed host grantee e' = some bid' → SameContent bid bid'
  unchanged : ∀ grantee bid bid', e.before.store.reveal grantee = some bid →
    e.after.store.reveal grantee = some bid' → SameContent bid bid'

/-- The call does not reveal a bid that is one of an older reveal of the grantee regrouped. -/
def Call.NotRegrouped (host : Host) (older : Trace) : Call → Prop
  | .reveal grantee bid =>
      ∀ e ∈ older, ∀ bid' ∈ Bidding.revealed host grantee e, ¬Regrouped bid bid'
  | _ => True

instance decidableNotRegrouped (host : Host) (older : Trace) :
    (call : Call) → Decidable (call.NotRegrouped host older)
  | .reveal grantee bid => inferInstanceAs (Decidable
      (∀ e ∈ older, ∀ bid' ∈ Bidding.revealed host grantee e, ¬Regrouped bid bid'))
  | .openBidding _ _ | .closeBidding _ | .commit _ _ => inferInstanceAs (Decidable True)

/-- The call of the step, if it goes through, reveals nothing regrouped. -/
def NotRegrouped (host : Host) (e : Step) (older : Trace) : Prop :=
  ∀ call ∈ Ledger.called (contract host) e, call.NotRegrouped host older

instance (host : Host) (e : Step) (older : Trace) : Decidable (NotRegrouped host e older) :=
  inferInstanceAs (Decidable (∀ call ∈ Ledger.called (contract host) e, _))

theorem notRegrouped_iff : NotRegrouped host e older ↔ ∀ grantee bid,
    revealed host grantee e = some bid → ∀ e' ∈ older, ∀ bid',
      revealed host grantee e' = some bid' → ¬Regrouped bid bid' := by
  simp only [revealed_eq_some (e := e)]
  constructor
  · intro h grantee bid hcalled
    exact h _ hcalled
  · intro h call hcalled
    cases call with
    | reveal grantee bid => exact h grantee bid hcalled
    | _ => trivial

/-- **Step lemma.** -/
theorem bound_iff (h : Ledger.Reachable (contract host) older e.before)
    (hn : Ledger.Next (contract host) e.before e.action e.after)
    (hfree : CollisionFree host.sha256 (revealedInputs host (e :: older))) :
    Bound host e older ↔ NotRegrouped host e older := by
  have hhashes {grantee : Address} {bid bid' : RevealedBid} {e' : Step}
      (hrevealed : revealed host grantee e = some bid) (he' : e' ∈ older)
      (hrevealed' : revealed host grantee e' = some bid') :
      SameContent bid bid' ↔ ¬Regrouped bid bid' := by
    have hcommitment := commitment_of_revealed hn hrevealed
    have hcommitment' := commitment_of_mem h he' hrevealed'
    have hdigest := Option.some.inj (hcommitment.symm.trans hcommitment')
    have hpair : CollisionFree host.sha256 [bid.encoded, bid'.encoded] := by
      have hbid := mem_revealedInputs (List.mem_cons_self (l := older)) hrevealed
      have hbid' := mem_revealedInputs (List.mem_cons_of_mem e he') hrevealed'
      intro x hx y hy
      refine hfree x ?_ y ?_
      · rcases List.mem_pair.mp hx with rfl | rfl
        · exact hbid
        · exact hbid'
      · rcases List.mem_pair.mp hy with rfl | rfl
        · exact hbid
        · exact hbid'
    rw [← hashBid_binding_iff hpair, hashBid_eq, hashBid_eq, hdigest]
    exact ⟨fun hsame _ => hsame, fun hsame => hsame rfl⟩
  rw [notRegrouped_iff]
  constructor
  · intro hbound grantee bid hrevealed e' he' bid' hrevealed'
    exact (hhashes hrevealed he' hrevealed').mp
      (hbound.unique grantee bid hrevealed e' he' bid' hrevealed')
  · intro hnot
    have hunique : ∀ grantee bid, revealed host grantee e = some bid → ∀ e' ∈ older, ∀ bid',
        revealed host grantee e' = some bid' → SameContent bid bid' := by
      intro grantee bid hrevealed e' he' bid' hrevealed'
      exact (hhashes hrevealed he' hrevealed').mpr
        (hnot grantee bid hrevealed e' he' bid' hrevealed')
    refine ⟨hunique, fun grantee bid bid' hbefore hafter => ?_⟩
    rcases stored_of_next hn hafter with hsame | hrevealed
    · cases hbefore.symm.trans hsame
      exact ⟨rfl, rfl, rfl⟩
    · obtain ⟨e', he', hrevealed'⟩ := exists_of_stored h hbefore
      exact (hunique grantee bid' hrevealed e' he' bid hrevealed').symm

/-- **Binding of commitments.** The hash of a bid tells its content from that of another bid
exactly if neither is the other one regrouped. In a run whose reveals do not collide, every
grantee is bound to one content exactly if no reveal is an older one of the grantee regrouped. -/
theorem commit_reveal_binding (host : Host) :
    (∀ bid bid', CollisionFree host.sha256 [bid.encoded, bid'.encoded] →
      ((hashBid host bid = hashBid host bid' → SameContent bid bid') ↔ ¬Regrouped bid bid')) ∧
    ∀ {trace : Trace} {env : Env}, Ledger.Reachable (contract host) trace env →
      CollisionFree host.sha256 (revealedInputs host trace) →
      (Run.Each (Bound host) trace ↔ Run.Each (NotRegrouped host) trace) := by
  refine ⟨fun bid bid' hfree => hashBid_binding_iff hfree, fun {trace env} h hfree => ?_⟩
  have hall : Run.Each (fun e older =>
      CollisionFree host.sha256 (revealedInputs host (e :: older))) trace := by
    induction h with
    | start => trivial
    | @step older before event after h hn ih =>
        refine ⟨hfree, ih fun x hx y hy => hfree x ?_ y ?_⟩
        · exact (List.sublist_cons_self _ older).filterMap _ |>.subset hx
        · exact (List.sublist_cons_self _ older).filterMap _ |>.subset hy
  refine Run.each_iff h hall fun hrun hfree => ?_
  obtain ⟨hrun, hn, -⟩ := hrun.uncons
  exact bound_iff hrun hn hfree

/-- A bid is revealed twice, and the one of a rival in between. -/
theorem commit_reveal_binding_of_honest_reveals :
    let run := Ledger.history (contract Demo.host) Demo.env (Demo.setUp ++
      [Demo.call 4 [Demo.grantee] (.reveal Demo.grantee Demo.bid),
        Demo.call 5 [Demo.rival] (.reveal Demo.rival Demo.rivalBid),
        Demo.call 6 [Demo.grantee] (.reveal Demo.grantee Demo.bid)])
    (hashBid Demo.host Demo.bid = hashBid Demo.host Demo.rivalBid →
      SameContent Demo.bid Demo.rivalBid) ∧ Run.Each (Bound Demo.host) run.1 := by
  intro run
  have hrun : Ledger.Reachable (contract Demo.host) run.1 run.2 :=
    Ledger.history_reachable _ Demo.env_deployed (by decide)
  have hbinding := commit_reveal_binding Demo.host
  exact ⟨(hbinding.1 Demo.bid Demo.rivalBid (by decide)).mpr (by decide),
    (hbinding.2 hrun (by decide)).mpr (by decide)⟩

/-- After the rival has revealed, the grantee replaces its bid of two milestones by one of one
milestone. -/
theorem commit_reveal_binding_moved_milestone :
    ¬∀ trace env, Ledger.Reachable (contract Demo.host) trace env →
      CollisionFree Demo.host.sha256 (revealedInputs Demo.host trace) →
      Run.Each (Bound Demo.host) trace := by
  intro h
  let run := Ledger.history (contract Demo.host) Demo.env (Demo.setUp ++
    [Demo.call 4 [Demo.grantee] (.reveal Demo.grantee Demo.bid),
      Demo.call 5 [Demo.rival] (.reveal Demo.rival Demo.rivalBid),
      Demo.call 6 [Demo.grantee] (.reveal Demo.grantee Demo.movedBid)])
  have hrun : Ledger.Reachable (contract Demo.host) run.1 run.2 :=
    Ledger.history_reachable _ Demo.env_deployed (by decide)
  have hbound := (h _ _ hrun (by decide)).1
  have hsame := hbound.unchanged Demo.grantee Demo.bid Demo.movedBid (by decide) (by decide)
  exact absurd hsame (by decide)

end YieldTrust.Bidding
