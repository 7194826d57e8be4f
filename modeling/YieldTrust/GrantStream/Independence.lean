import YieldTrust.GrantStream.Authority

/-!
# YieldTrust.GrantStream.Independence

**Grants do not interfere.** What becomes of a grant, and what is paid on behalf of it, is a
function of how it was created and of the operations that were performed on it, with their times:
it does not matter which other grants there are, in which order operations on different grants
take place, which calls were rejected, or how often the contract was looked at in between.
-/

namespace YieldTrust.GrantStream

variable {trace trace' : Trace} {env env' : Env} {e : Run.Step Env Event} {grantId grantId' : Nat}
  {now : Nat} {treasury : Option Address} {op : GrantOp} {a a₁ a₂ : Account}
  {payments payments₁ payments₂ : List Payment}

/-! ### Operations determine the account -/

theorem Sweep.unique {remaining : Int} (h₁ : Sweep treasury remaining payments₁)
    (h₂ : Sweep treasury remaining payments₂) : payments₁ = payments₂ := by
  rcases h₁ with ⟨hle, rfl⟩ | ⟨hlt, target₁, ht₁, rfl⟩
  · rcases h₂ with ⟨-, rfl⟩ | ⟨hlt, -⟩
    · rfl
    · omega
  · rcases h₂ with ⟨hle, -⟩ | ⟨-, target₂, ht₂, rfl⟩
    · omega
    · obtain rfl := Option.some.inj (ht₁.symm.trans ht₂)
      rfl

theorem Settles.unique {g s₁ s₂ : Grant} (h₁ : Settles g now s₁) (h₂ : Settles g now s₂) :
    s₁ = s₂ := h₁.eq_settled.trans h₂.eq_settled.symm

/-- An operation has one result. -/
theorem GrantStep.unique (h₁ : GrantStep now treasury op a a₁ payments₁)
    (h₂ : GrantStep now treasury op a a₂ payments₂) : a₁ = a₂ ∧ payments₁ = payments₂ := by
  cases h₁ with
  | withdraw hs _ _ _ _ _ hm =>
      cases h₂ with
      | withdraw hs' _ _ _ _ _ hm' =>
          obtain rfl := hs.unique hs'
          exact ⟨by rw [hm, hm'], rfl⟩
  | withdrawValidator hs hvalidator _ _ _ hm =>
      cases h₂ with
      | withdrawValidator hs' hvalidator' _ _ _ hm' =>
          obtain rfl := hs.unique hs'
          obtain rfl := Option.some.inj (hvalidator.symm.trans hvalidator')
          exact ⟨by rw [hm, hm'], rfl⟩
  | pause hs _ hm =>
      cases h₂ with
      | pause hs' _ hm' =>
          obtain rfl := hs.unique hs'
          exact ⟨by rw [hm, hm'], rfl⟩
  | resume _ hm =>
      cases h₂ with
      | resume _ hm' => exact ⟨by rw [hm, hm'], rfl⟩
  | proposeIncrease hs _ hrate _ hm =>
      cases h₂ with
      | proposeIncrease hs' _ _ _ hm' =>
          obtain rfl := hs.unique hs'
          exact ⟨by rw [hm, hm'], rfl⟩
      | proposeDecrease hs' _ _ hrate' _ =>
          obtain rfl := hs.unique hs'
          omega
  | proposeDecrease hs _ _ hrate hm =>
      cases h₂ with
      | proposeIncrease hs' _ hrate' _ _ =>
          obtain rfl := hs.unique hs'
          omega
      | proposeDecrease hs' _ _ _ hm' =>
          obtain rfl := hs.unique hs'
          exact ⟨by rw [hm, hm'], rfl⟩
  | applyKpi hs _ _ hm =>
      cases h₂ with
      | applyKpi hs' _ _ hm' =>
          obtain rfl := hs.unique hs'
          exact ⟨by rw [hm, hm'], rfl⟩
  | rageQuit hs _ hsweep hm =>
      cases h₂ with
      | rageQuit hs' _ hsweep' hm' =>
          obtain rfl := hs.unique hs'
          exact ⟨by rw [hm, hm'], by rw [hsweep.unique hsweep']⟩
  | cancel hs _ hsweep hm =>
      cases h₂ with
      | cancel hs' _ hsweep' hm' =>
          obtain rfl := hs.unique hs'
          exact ⟨by rw [hm, hm'], hsweep.unique hsweep'⟩
  | changeGrantee _ _ hm =>
      cases h₂ with
      | changeGrantee _ _ hm' => exact ⟨by rw [hm, hm'], rfl⟩
  | clawbackNothing hs _ hrest hm =>
      cases h₂ with
      | clawbackNothing hs' _ _ hm' =>
          obtain rfl := hs.unique hs'
          exact ⟨by rw [hm, hm'], rfl⟩
      | clawbackContested hs' _ hrest' _ | clawbackToDonor hs' _ hrest' _ _ =>
          obtain rfl := hs.unique hs'
          omega
  | clawbackContested hs _ hrest hm =>
      cases h₂ with
      | clawbackNothing hs' _ hrest' _ =>
          obtain rfl := hs.unique hs'
          omega
      | clawbackContested hs' _ _ hm' =>
          obtain rfl := hs.unique hs'
          exact ⟨by rw [hm, hm'], rfl⟩
  | clawbackToDonor hs _ hrest hdonor hm =>
      cases h₂ with
      | clawbackNothing hs' _ hrest' _ =>
          obtain rfl := hs.unique hs'
          omega
      | clawbackToDonor hs' _ _ hdonor' hm' =>
          obtain rfl := hs.unique hs'
          obtain rfl := Option.some.inj (hdonor.symm.trans hdonor')
          exact ⟨by rw [hm, hm'], rfl⟩
  | resolveToDonor _ _ hdonor =>
      cases h₂ with
      | resolveToDonor _ _ hdonor' =>
          obtain rfl := Option.some.inj (hdonor.symm.trans hdonor')
          exact ⟨rfl, rfl⟩
  | resolveToGrantee _ _ htreasury _ hm =>
      cases h₂ with
      | resolveToGrantee _ _ htreasury' _ hm' =>
          obtain rfl := Option.some.inj (htreasury.symm.trans htreasury')
          exact ⟨by rw [hm, hm'], rfl⟩
  | setLegal hm =>
      cases h₂ with
      | setLegal hm' => exact ⟨by rw [hm, hm'], rfl⟩
  | signLegal _ hm =>
      cases h₂ with
      | signLegal _ hm' => exact ⟨by rw [hm, hm'], rfl⟩

/-! ### The chronicle of a grant -/

/-- The operations that the steps of `L` performed on the grant, newest first, with their times. -/
def chronicle (grantId : Nat) (L : Trace) : List (Nat × GrantOp) :=
  L.filterMap fun e => (performed grantId e).map fun op => (e.action.timestamp, op)

/-- What they paid on behalf of it. -/
def payouts (grantId : Nat) (L : Trace) : List Payment := L.flatMap (paymentsFor grantId)

/-- The account as it was when the grant was created. -/
def openingAccount (grantId : Nat) (trace : Trace) : Option Account :=
  (trace.find? (opens grantId)).bind fun e =>
    (e.after.grants grantId).map fun g => ⟨g, e.after.disputeEscrow grantId⟩

theorem openingAccount_of_opens (h : opens grantId e = true) (trace : Trace) :
    openingAccount grantId (e :: trace) =
      (e.after.grants grantId).map fun g => ⟨g, e.after.disputeEscrow grantId⟩ := by
  simp [openingAccount, h]

theorem openingAccount_of_not_opens (h : opens grantId e = false) (trace : Trace) :
    openingAccount grantId (e :: trace) = openingAccount grantId trace := by
  simp [openingAccount, h]

/-- What an account goes through by a chronicle, newest operation first. -/
inductive AccountRun (treasury : Option Address) (a₀ : Account) :
    List (Nat × GrantOp) → Account → List Payment → Prop
  | start : AccountRun treasury a₀ [] a₀ []
  | step {ops : List (Nat × GrantOp)} {now : Nat} {op : GrantOp} {a a' : Account}
      {payments older : List Payment} (h : AccountRun treasury a₀ ops a older)
      (hstep : GrantStep now treasury op a a' payments) :
      AccountRun treasury a₀ ((now, op) :: ops) a' (payments ++ older)

/-- By induction on the chronicle. -/
theorem AccountRun.unique {a₀ : Account} {ops : List (Nat × GrantOp)}
    (h₁ : AccountRun treasury a₀ ops a₁ payments₁)
    (h₂ : AccountRun treasury a₀ ops a₂ payments₂) : a₁ = a₂ ∧ payments₁ = payments₂ := by
  induction h₁ generalizing a₂ payments₂ with
  | start =>
      cases h₂
      exact ⟨rfl, rfl⟩
  | step _ hstep ih =>
      cases h₂ with
      | step h hstep' =>
          obtain ⟨rfl, rfl⟩ := ih h
          obtain ⟨rfl, rfl⟩ := hstep.unique hstep'
          exact ⟨rfl, rfl⟩

/-- **Refinement.** The contract takes a grant through its chronicle. -/
theorem accountRun_of_reachable (h : Reachable trace env) (grantId : Nat) :
    ∀ g ∈ env.grants grantId, ∃ a₀, openingAccount grantId trace = some a₀ ∧
      AccountRun env.treasury a₀ (chronicle grantId (life grantId trace))
        ⟨g, env.disputeEscrow grantId⟩ (payouts grantId (life grantId trace)) := by
  induction h with
  | start h =>
      obtain ⟨_, _, _, rfl⟩ := h
      intro g hg
      cases hg
  | @step trace env event env' hrun hn ih =>
      intro g' hg'
      have heffect := accountEffect_of_next hn grantId
      have hconfig (hsome : env.grants grantId ≠ none) : Region.config.Same env env' :=
        config_of_next (e := ⟨env, event, env'⟩) hn
          ((registered_of_reachable hrun).configured grantId hsome).1
      generalize he : (⟨env, event, env'⟩ : Run.Step Env Event) = e at heffect ⊢
      obtain rfl : e.before = env := by rw [← he]
      obtain rfl : e.action = event := by rw [← he]
      obtain rfl : e.after = env' := by rw [← he]
      clear he
      cases heffect with
      | idle hop hgrant hescrow =>
          have hopens := opens_eq_false_of_same hgrant
          have hg : e.before.grants grantId = some g' := hgrant ▸ hg'
          obtain ⟨-, -, htreasury, -⟩ := hconfig (by simp [hg])
          obtain ⟨a₀, hopening, hrun'⟩ := ih g' hg
          rw [life_of_not_opens hopens, openingAccount_of_not_opens hopens, htreasury, hescrow]
          refine ⟨a₀, hopening, ?_⟩
          simpa [chronicle, payouts, hop, paymentsFor_of_none hop] using hrun'
      | opened _ _ hnone _ _ hgrant hescrow =>
          have hopens := opens_eq_true hnone hgrant
          rw [life_of_opens hopens, openingAccount_of_opens hopens, hg']
          exact ⟨_, rfl, .start⟩
      | operated hop hg hstep hgrant hescrow hpay _ =>
          have hopens := opens_eq_false_of_some hg
          obtain ⟨-, -, htreasury, -⟩ := hconfig (by simp [hg])
          obtain ⟨a₀, hopening, hrun'⟩ := ih _ hg
          obtain rfl := Option.some.inj (hgrant.symm.trans hg')
          rw [life_of_not_opens hopens, openingAccount_of_not_opens hopens, htreasury, hescrow]
          refine ⟨a₀, hopening, ?_⟩
          simpa [chronicle, payouts, hop, hpay] using hrun'.step hstep
      | closed _ _ _ _ hgrant _ => cases hgrant.symm.trans hg'

/-- **Independence.** Two grants, under any ids, in any two runs of contracts with the same
treasury: if they were created alike and the same operations were performed on them since, at the
same times, then their records, their escrows and the payments on behalf of them are the same. -/
theorem grants_independent {g g' : Grant} (h : Reachable trace env) (h' : Reachable trace' env')
    (hg : env.grants grantId = some g) (hg' : env'.grants grantId' = some g')
    (htreasury : env.treasury = env'.treasury)
    (hopening : openingAccount grantId trace = openingAccount grantId' trace')
    (hchronicle : chronicle grantId (life grantId trace) =
      chronicle grantId' (life grantId' trace')) :
    g = g' ∧ env.disputeEscrow grantId = env'.disputeEscrow grantId' ∧
      payouts grantId (life grantId trace) = payouts grantId' (life grantId' trace') := by
  obtain ⟨a₀, ha₀, hrun⟩ := accountRun_of_reachable h grantId g hg
  obtain ⟨a₀', ha₀', hrun'⟩ := accountRun_of_reachable h' grantId' g' hg'
  obtain rfl : a₀ = a₀' := Option.some.inj (ha₀.symm.trans (hopening.trans ha₀'))
  rw [← htreasury, ← hchronicle] at hrun'
  obtain ⟨haccount, hpayouts⟩ := hrun.unique hrun'
  exact ⟨congrArg Account.grant haccount, congrArg Account.escrow haccount, hpayouts⟩

namespace Demo

/-- A grant by itself. -/
def solitary : Trace × Env :=
  history Demo.env (setUp 100000000 ++
    [Demo.call 1 (.createGrant 3 grantee 60000000 1000000 0 none none),
      Demo.call 21 (.withdraw 3 20000000)])

/-- The same among others: another grant pays in between, and a call is rejected. -/
def crowded : Trace × Env :=
  history Demo.env (setUp 200000000 ++
    [Demo.call 1 (.createGrant 8 donor 60000000 2000000 0 none none),
      Demo.call 1 (.createGrant 7 grantee 60000000 1000000 0 none none),
      Demo.call 15 (.withdraw 8 25000000), Demo.call 17 (.withdraw 7 30000000),
      Demo.call 21 (.withdraw 7 20000000)])

end Demo

theorem grants_independent_of_others :
    (Demo.solitary.2.grants 3).map (·.withdrawn) = some 20000000 ∧
      Demo.solitary.2.grants 3 = Demo.crowded.2.grants 7 := by
  obtain ⟨g, hg⟩ : ∃ g, Demo.solitary.2.grants 3 = some g :=
    Option.isSome_iff_exists.mp (by decide)
  obtain ⟨g', hg'⟩ : ∃ g', Demo.crowded.2.grants 7 = some g' :=
    Option.isSome_iff_exists.mp (by decide)
  refine ⟨by decide, ?_⟩
  rw [hg, hg', (grants_independent (history_reachable Demo.env_deployed (by decide))
    (history_reachable Demo.env_deployed (by decide)) hg hg' rfl rfl rfl).1]

end YieldTrust.GrantStream
