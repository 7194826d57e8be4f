import YieldTrust.GrantStream.Regions

/-!
# YieldTrust.GrantStream.DisputedClawback

A contested clawback that the grantee wins. `trigger_grant_clawback` sets the
unearned rest aside without taking it off `total_amount`; when
`resolve_disputed_clawback` returns it, it is added to `total_amount` a second
time, and the tokens go to the treasury. No such clawback is ever undone.
-/

namespace YieldTrust.GrantStream

open Fallible

/-- The step neither operates on the grant `g` nor deletes it. -/
def Elsewhere (g : Nat) (e : Run.Step Env Event) : Prop :=
  performed g e = none ∧ (e.after.grants g).isSome = true

/-- The grant streams on as the clawback left it, the escrow is closed, and the
contract still holds the tokens. `claw` is the step of the clawback, `resolve`
that of the resolution. -/
structure Undone (g : Nat) (claw resolve : Run.Step Env Event) : Prop where
  grant : ∃ s m, claw.after.grants g = some s ∧ resolve.after.grants g = some m ∧
    m.status = .active ∧ m.totalAmount = s.totalAmount ∧ m.withdrawn = s.withdrawn ∧
    m.claimable = s.claimable ∧ m.validatorWithdrawn = s.validatorWithdrawn ∧
    m.validatorClaimable = s.validatorClaimable ∧ m.recipient = s.recipient
  escrow : resolve.after.disputeEscrow g = none
  funds : ∀ token, resolve.before.grantToken = some token →
    resolve.before.balanceOf token resolve.before.self ≤
      resolve.after.balanceOf token resolve.before.self

/-! ### Between the clawback and its resolution -/

/-- An accepted clawback leaves the grant stored as clawbacked. -/
theorem clawbacked_of_called {older : Trace} {env : Env} {e : Run.Step Env Event}
    (h : Reachable (e :: older) env) {g : Nat} {reason : String} {contested : Bool}
    (hcall : called e = some (.triggerGrantClawback g reason contested)) :
    ∃ s, e.after.grants g = some s ∧ s.status = .clawbacked := by
  obtain ⟨-, hn, rfl⟩ := h.uncons
  have hexec := exec_of_called hn hcall
  obtain ⟨_, a', _, _, hstep, _, hv⟩ := triggerGrantClawback_operates hexec
  have hgrant : e.after.grants g = some a'.grant :=
    (congrFun (congrArg Vault.grants hv) g).trans (Function.update_self ..)
  refine ⟨a'.grant, hgrant, ?_⟩
  cases hstep with
  | clawbackNothing _ _ _ hm | clawbackContested _ _ _ hm | clawbackToDonor _ _ _ _ hm =>
      exact congrArg Grant.status hm

/-- A step elsewhere leaves a stored grant and its escrow alone. -/
theorem Elsewhere.same {older : Trace} {env : Env} {e : Run.Step Env Event}
    (h : Reachable (e :: older) env) {g : Nat} (helse : Elsewhere g e)
    (hsome : e.before.grants g ≠ none) :
    e.after.grants g = e.before.grants g ∧ e.after.disputeEscrow g = e.before.disputeEscrow g := by
  obtain ⟨-, hn, -⟩ := h.uncons
  cases accountEffect_of_next hn g with
  | idle _ hgrant hescrow => exact ⟨hgrant, hescrow⟩
  | opened _ _ hnone => exact absurd hnone hsome
  | operated hop => cases helse.1.symm.trans hop
  | closed _ _ _ _ hgrant =>
      have hstored := helse.2
      rw [show e.after.grants g = none from hgrant] at hstored
      cases hstored

/-- Steps elsewhere leave a stored grant and its escrow alone. -/
theorem same_of_elsewhere {newer older : Trace} {env : Env} {claw : Run.Step Env Event}
    (h : Reachable (newer ++ claw :: older) env) {g : Nat} (hsome : claw.after.grants g ≠ none)
    (helse : ∀ e ∈ newer, Elsewhere g e) :
    env.grants g = claw.after.grants g ∧ env.disputeEscrow g = claw.after.disputeEscrow g := by
  induction newer generalizing env with
  | nil =>
      obtain ⟨-, -, rfl⟩ := h.uncons
      exact ⟨rfl, rfl⟩
  | cons e newer ih =>
      obtain ⟨hrun, -, rfl⟩ := h.uncons
      obtain ⟨hgrant, hescrow⟩ := ih hrun fun e' he' => helse e' (List.mem_cons_of_mem _ he')
      obtain ⟨hgrant', hescrow'⟩ := (helse e (List.mem_cons_self ..)).same h (hgrant ▸ hsome)
      exact ⟨hgrant'.trans hgrant, hescrow'.trans hescrow⟩

/-! ### The resolution -/

/-- The call resolves the dispute about `g` in favour of the grantee. -/
def Resolves (g : Nat) (e : Run.Step Env Event) : Prop :=
  ∃ auths, e.action.transaction = .invoke auths (.resolveDisputedClawback g false)

theorem called_of_resolves {g : Nat} {e : Run.Step Env Event} {call : Call} (h : Resolves g e)
    (hcall : called e = some call) : call = .resolveDisputedClawback g false := by
  obtain ⟨auths, ht⟩ := h
  unfold called at hcall
  rw [ht] at hcall
  dsimp only at hcall
  split_ifs at hcall
  exact (Option.some.inj hcall).symm

/-- **The escrow is counted twice.** A resolution adds the escrow to a total that
still contains it, and pays it to the treasury; or it is rejected, and the grant
stays as it is. -/
theorem resolution_effect {older : Trace} {env : Env} {e : Run.Step Env Event}
    (h : Reachable (e :: older) env) {g : Nat} (hresolve : Resolves g e) {s : Grant}
    (hs : e.before.grants g = some s) :
    (called e = none ∧ e.after.grants g = some s) ∨
    ∃ x treasury, e.before.disputeEscrow g = some x ∧ 0 < x ∧
      e.after.grants g = some { s with
        status := .active
        lastUpdateTs := e.action.timestamp
        totalAmount := s.totalAmount + x } ∧
      e.after.disputeEscrow g = none ∧ e.before.treasury = some treasury ∧
      paymentsFor g e = [⟨treasury, x⟩] := by
  obtain ⟨-, hn, -⟩ := h.uncons
  rcases called_of_next hn with ⟨hnone, hframe⟩ | ⟨call, hcall, hexec⟩
  · have hgrants : e.after.grants = e.before.grants := (hframe.same .grants (by decide)).1
    exact .inl ⟨hnone, (congrFun hgrants g).trans hs⟩
  · obtain rfl := called_of_resolves hresolve hcall
    obtain ⟨auths, ht⟩ := hresolve
    have hresolved : performed g e = some (.resolve false) :=
      (performed_of_exec g ht hexec rfl).trans (if_pos rfl)
    cases accountEffect_of_next hn g with
    | idle hop | opened _ hop | closed hop => cases hop.symm.trans hresolved
    | operated hop hg hstep hgrant hescrow hpay =>
        obtain rfl := Option.some.inj (hop.symm.trans hresolved)
        obtain rfl := Option.some.inj (hg.symm.trans hs)
        generalize hx : e.before.disputeEscrow g = escrow at hstep
        cases hstep with
        | resolveToGrantee _ hamount htreasury _ hm =>
            subst hm
            exact .inr ⟨_, _, rfl, hamount, hgrant, hescrow, htreasury, hpay⟩

/-- **Disputed clawbacks.** A contested clawback is never undone: in no run does a
resolution in favour of the grantee, however late, give the grant back. -/
theorem disputed_clawback_undone {newer older : Trace} {env : Env}
    {claw resolve : Run.Step Env Event} (h : Reachable (resolve :: (newer ++ claw :: older)) env)
    {g : Nat} {reason : String}
    (hclaw : called claw = some (.triggerGrantClawback g reason true))
    (helse : ∀ e ∈ newer, Elsewhere g e) (hresolve : Resolves g resolve) :
    ¬Undone g claw resolve := by
  rintro ⟨⟨s, m, hs, hm, hactive, htotal, -⟩, -, -⟩
  obtain ⟨hrun, -, -⟩ := h.uncons
  obtain ⟨s', hs', hstatus⟩ := clawbacked_of_called (Run.suffix hrun) hclaw
  obtain rfl := Option.some.inj (hs.symm.trans hs')
  have hkept := (same_of_elsewhere hrun (by simp [hs]) helse).1.trans hs
  rcases resolution_effect h hresolve hkept with ⟨-, hm'⟩ | ⟨x, _, -, hpos, hm', -⟩
  · obtain rfl := Option.some.inj (hm.symm.trans hm')
    cases hstatus.symm.trans hactive
  · obtain rfl := Option.some.inj (hm.symm.trans hm')
    dsimp only at htotal
    omega

namespace Demo

/-- The clawback of grant 7, another grant, and the resolution for the grantee. -/
def disputed : List Event := Demo.setUp 2000 ++
  [call 1 (.createGrant 7 grantee 1000 1 0 none (some donor)),
    call 11 (.triggerGrantClawback 7 "late" true),
    call 12 (.createGrant 8 grantee 100 1 0 none none),
    call 21 (.resolveDisputedClawback 7 false)]

end Demo

/-- 990 of 1000 were set aside, and a total of 1990 comes back. -/
theorem disputed_clawback_undone_for_grantee :
    let run := history Demo.env Demo.disputed
    ∃ resolve other claw older, run.1 = resolve :: ([other] ++ claw :: older) ∧
      (run.2.grants 7).map Grant.totalAmount = some 1990 ∧ ¬Undone 7 claw resolve := by
  intro run
  have hrun : Reachable run.1 run.2 := history_reachable Demo.env_deployed (by decide)
  refine ⟨_, _, _, _, rfl, by decide, @disputed_clawback_undone [_] _ _ _ _ hrun 7 "late" rfl ?_
    ⟨_, rfl⟩⟩
  intro e he
  obtain rfl := List.mem_singleton.mp he
  exact ⟨rfl, rfl⟩

/-- The grant had a donor and was active. -/
theorem disputed_clawback_undone_total :
    ¬∀ newer older env claw resolve g s reason,
      Reachable (resolve :: (newer ++ claw :: older)) env → claw.before.grants g = some s →
      s.status = .active ∨ s.status = .paused → s.donor ≠ none →
      called claw = some (.triggerGrantClawback g reason true) → (∀ e ∈ newer, Elsewhere g e) →
      called resolve = some (.resolveDisputedClawback g false) → Undone g claw resolve := by
  intro h
  let run := history Demo.env Demo.disputed
  have hrun : Reachable run.1 run.2 := history_reachable Demo.env_deployed (by decide)
  obtain ⟨⟨s, m, hs, hm, -, htotal, -⟩, -, -⟩ := h [_] _ _ _ _ 7 _ "late" hrun rfl (.inl rfl)
    (by decide) rfl (fun e he => List.mem_singleton.mp he ▸ ⟨rfl, rfl⟩) rfl
  cases hs
  cases hm
  exact absurd htotal (by decide)

end YieldTrust.GrantStream
