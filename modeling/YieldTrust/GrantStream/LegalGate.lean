import YieldTrust.GrantStream.Streaming

/-!
# YieldTrust.GrantStream.LegalGate

The legal gate and the seconds it was open. A settlement judges all the seconds
since the last one by the flags of the moment, while `set_legal_metadata` and
`sign_legal_metadata` change the flags, and the clock, without settling first.
The gate is exact as long as nothing is left to settle whenever they do.
-/

namespace YieldTrust.GrantStream

namespace Grant

/-! ### Seconds with the gate open -/

/-- What a second contributes: the flow rate, if the grant is active and its
legal gate is open. -/
def gated (grant : Grant) (_ : Nat) : Int := if grant.streams then grant.flowRate else 0

theorem gated_nonneg {grant : Grant} (h : 0 ≤ grant.flowRate) (t : Nat) : 0 ≤ grant.gated t := by
  unfold gated
  split_ifs
  · exact h
  · exact le_refl 0

theorem gated_congr {grant grant' : Grant} (hst : grant'.status = grant.status)
    (hgate : grant'.gateClosed = grant.gateClosed) (hflow : grant'.flowRate = grant.flowRate)
    (t : Nat) : grant'.gated t = grant.gated t := by
  refine if_congr ?_ hflow rfl
  unfold streams
  rw [hst, hgate]

theorem overTime_gated {grant : Grant} (h : grant.streams) (a b : Nat) :
    grant.overTime gated a b = grant.flowRate * ((b - a : Nat) : Int) :=
  overTime_const fun _ _ _ => if_pos h

theorem overTime_gated_of_not_streams {grant : Grant} (h : ¬grant.streams) (a b : Nat) :
    grant.overTime gated a b = 0 := by
  rw [overTime_const fun _ _ _ => if_neg h, zero_mul]

/-- The terms on which every second is worth the same: there is no validator, no
warmup and no increase to come. -/
structure OneRate (grant : Grant) : Prop where
  validator : grant.validator = none
  warmupDuration : grant.warmupDuration = 0
  pendingRate : grant.pendingRate = 0

theorem OneRate.not_due {grant : Grant} (h : grant.OneRate) (hflow : 0 ≤ grant.flowRate)
    (now : Nat) : ¬grant.pendingRateDue now = true := by
  intro hd
  have hlive := (pendingRateDue_iff.mp hd).1.1
  rw [h.pendingRate] at hlive
  omega

theorem OneRate.settled {grant : Grant} (h : grant.OneRate) (hflow : 0 ≤ grant.flowRate)
    (now : Nat) : (grant.settled now).OneRate where
  validator := (grant.settled_validator now).trans h.validator
  warmupDuration := (grant.settled_warmupDuration now).trans h.warmupDuration
  pendingRate := by
    obtain ⟨-, hpending, -⟩ := settled_of_not_switches fun hs => h.not_due hflow now hs.2
    rw [hpending]
    exact h.pendingRate

/-- A settlement credits the seconds since the last one if the gate is open now. -/
theorem OneRate.dueAccrual_eq {grant : Grant} (h : grant.OneRate) (hflow : 0 ≤ grant.flowRate)
    (now : Nat) : grant.dueAccrual now = grant.overTime gated grant.lastUpdateTs now := by
  by_cases hst : grant.streams
  · by_cases hne : now = grant.lastUpdateTs
    · have hna : ¬grant.accrues now := fun ha => ha.1 hne
      unfold dueAccrual
      rw [if_neg hna, hne, overTime_self]
    · rw [dueAccrual_of_not_due h.warmupDuration ⟨hne, hst⟩ (h.not_due hflow now),
        overTime_gated hst]
  · have hna : ¬grant.accrues now := fun ha => hst ha.2
    unfold dueAccrual
    rw [if_neg hna, overTime_gated_of_not_streams hst]

/-! ### Grants that are exact -/

/-- Of what the grant streamed until `now`, everything is accounted for up to the
total amount, except for the seconds since the last settlement. -/
def GateExact (grant : Grant) (earned : Int) (now : Nat) : Prop :=
  (grant.withdrawn + grant.claimable = grant.totalAmount ∧ grant.totalAmount ≤ earned) ∨
    (grant.withdrawn + grant.claimable < grant.totalAmount ∧
      grant.withdrawn + grant.claimable + grant.overTime gated grant.lastUpdateTs now = earned)

theorem GateExact.mono {grant : Grant} {earned : Int} {now now' : Nat}
    (h : grant.GateExact earned now) (hflow : 0 ≤ grant.flowRate)
    (hlast : grant.lastUpdateTs ≤ now) (hle : now ≤ now') :
    grant.GateExact (grant.overTime gated now now' + earned) now' := by
  have hnonneg : 0 ≤ grant.overTime gated now now' := overTime_nonneg (gated_nonneg hflow) _ _
  rcases h with ⟨hfull, hearned⟩ | ⟨hlt, hearned⟩
  · exact .inl ⟨hfull, by omega⟩
  · refine .inr ⟨hlt, ?_⟩
    rw [← overTime_add grant hlast hle]
    omega

/-- Every settlement of an exact grant accounts for what it earned, up to the total. -/
theorem GateExact.settles {grant s : Grant} {earned : Int} {now₀ now : Nat}
    (h : grant.GateExact earned now) (hone : grant.OneRate) (hwf : grant.WellFormed now₀)
    (hs : Settles grant now s) : s.withdrawn + s.claimable = min s.totalAmount earned := by
  have hdue := hone.dueAccrual_eq hwf.flowRate_nonneg now
  have hnonneg := hwf.rates.dueAccrual now
  rw [hs.eq_settled, hwf.settled_sum hone.validator, settled_totalAmount]
  rcases h with ⟨hfull, hearned⟩ | ⟨hlt, hearned⟩
  · rw [min_eq_left hearned]
    by_cases hd : grant.completes now
    · rw [if_pos hd]
    · rw [if_neg hd]
      have hrest := not_completes hd
      rw [hwf.accounted_of_none hone.validator] at hrest
      omega
  · by_cases hd : grant.completes now
    · have hreached := hd.2.2
      rw [hwf.accounted_of_none hone.validator] at hreached
      rw [if_pos hd]
      omega
    · have hrest := not_completes hd
      rw [hwf.accounted_of_none hone.validator] at hrest
      rw [if_neg hd]
      omega

/-- A grant whose clock is restarted at `now` is exact if its balances are. -/
theorem GateExact.of_sum {grant : Grant} {earned : Int} {now : Nat}
    (hlast : grant.lastUpdateTs = now)
    (hsum : grant.withdrawn + grant.claimable = min grant.totalAmount earned) :
    grant.GateExact earned now := by
  by_cases hfull : grant.totalAmount ≤ earned
  · exact .inl ⟨hsum.trans (min_eq_left hfull), hfull⟩
  · rw [min_eq_right (by omega)] at hsum
    refine .inr ⟨by omega, ?_⟩
    rw [hlast, overTime_self, add_zero]
    exact hsum

/-- The seconds since the last settlement may be changed as long as they are
worth the same. -/
theorem GateExact.congr {grant m : Grant} {earned : Int} {now : Nat}
    (h : grant.GateExact earned now)
    (hsum : m.withdrawn + m.claimable = grant.withdrawn + grant.claimable)
    (htot : m.totalAmount = grant.totalAmount)
    (htime : grant.withdrawn + grant.claimable < grant.totalAmount →
      m.overTime gated m.lastUpdateTs now = grant.overTime gated grant.lastUpdateTs now) :
    m.GateExact earned now := by
  unfold GateExact
  rw [hsum, htot]
  rcases h with hfull | ⟨hlt, hearned⟩
  · exact .inl hfull
  · rw [htime hlt]
    exact .inr ⟨hlt, hearned⟩

/-- There are seconds left to settle, and they matter. -/
def Unsettled (grant : Grant) (now : Nat) : Prop :=
  grant.status = .active ∧ grant.lastUpdateTs < now ∧ 0 < grant.flowRate ∧
    grant.withdrawn + grant.claimable < grant.totalAmount

instance (grant : Grant) (now : Nat) : Decidable (grant.Unsettled now) :=
  inferInstanceAs (Decidable (_ ∧ _))

theorem overTime_of_not_unsettled {grant : Grant} {now : Nat} (hwf : grant.WellFormed now)
    (h : ¬grant.Unsettled now) (hlt : grant.withdrawn + grant.claimable < grant.totalAmount) :
    grant.overTime gated grant.lastUpdateTs now = 0 := by
  by_cases hst : grant.streams
  · rw [overTime_gated hst]
    have hlast := hwf.lastUpdateTs_le
    have hflow := hwf.flowRate_nonneg
    rcases hflow.lt_or_eq with hpos | hzero
    · have hnow : now - grant.lastUpdateTs = 0 := by
        by_contra hne
        exact h ⟨hst.1, by omega, hpos, hlt⟩
      rw [hnow, Nat.cast_zero, mul_zero]
    · rw [← hzero, zero_mul]
  · exact overTime_gated_of_not_streams hst _ _

theorem Unsettled.overTime_pos {grant : Grant} {now : Nat} (h : grant.Unsettled now)
    (hst : grant.streams) : 0 < grant.overTime gated grant.lastUpdateTs now := by
  rw [overTime_gated hst]
  have hlast := h.2.1
  exact mul_pos h.2.2.1 (by omega)

/-- The same balances, with the seconds since the last settlement worth nothing
instead of something or the other way round: the next settlement shows it. -/
theorem GateExact.ne_of_settles {grant m s : Grant} {earned : Int} {now₀ now : Nat}
    (h : grant.GateExact earned now)
    (hlt : grant.withdrawn + grant.claimable < grant.totalAmount)
    (hsum : m.withdrawn + m.claimable = grant.withdrawn + grant.claimable)
    (htot : m.totalAmount = grant.totalAmount) (hone : m.OneRate) (hwf : m.WellFormed now₀)
    (hs : Settles m now s)
    (hworth : (0 < grant.overTime gated grant.lastUpdateTs now ∧
        m.overTime gated m.lastUpdateTs now = 0) ∨
      (grant.overTime gated grant.lastUpdateTs now = 0 ∧
        0 < m.overTime gated m.lastUpdateTs now)) :
    s.withdrawn + s.claimable ≠ min s.totalAmount earned := by
  have hexact : m.GateExact
      (m.withdrawn + m.claimable + m.overTime gated m.lastUpdateTs now) now :=
    .inr ⟨by omega, rfl⟩
  have htot' : s.totalAmount = m.totalAmount := by
    rw [hs.eq_settled]
    exact m.settled_totalAmount now
  rw [hexact.settles hone hwf hs, htot', htot, hsum]
  rcases h with ⟨hfull, -⟩ | ⟨-, hearned⟩
  · omega
  · rcases hworth with ⟨hpos, hzero⟩ | ⟨hzero, hpos⟩ <;> omega

end Grant

/-! ### Operations -/

/-- The operations that the gate is about. -/
def GrantOp.legal : GrantOp → Bool
  | .setLegal _ _ | .signLegal | .withdraw _ | .pause _ | .resume => true
  | _ => false

/-- The operation turns the gate, or restarts the clock while the gate is open:
the seconds since the last settlement are judged as the code should not. -/
def GrantOp.misjudges (op : GrantOp) (g : Grant) : Bool :=
  match op with
  | .setLegal _ requiresSignature => (requiresSignature && !g.isLegalSigned) != g.gateClosed
  | .signLegal => !g.gateClosed
  | _ => false

/-- The step does not change the gate of a grant that has seconds left to settle. -/
def GateSettledAt (grantId : Nat) (e : Run.Step Env Event) : Prop :=
  AtOp grantId e fun op g => ¬(op.misjudges g = true ∧ g.Unsettled e.action.timestamp)

instance (grantId : Nat) (e : Run.Step Env Event) : Decidable (GateSettledAt grantId e) :=
  inferInstanceAs (Decidable (AtOp ..))

section

variable {now₀ now : Nat} {treasury : Option Address} {op : GrantOp} {a a' : Account}
  {payments : List Payment}

theorem GrantStep.oneRate (hstep : GrantStep now treasury op a a' payments)
    (hlegal : op.legal = true) (hwf : a.grant.WellFormed now₀) (h : a.grant.OneRate) :
    a'.grant.OneRate := by
  cases hstep with
  | withdraw hs _ _ _ _ _ hm | pause hs _ hm =>
      have h := h.settled hwf.flowRate_nonneg now
      rw [← hs.eq_settled] at h
      subst hm
      exact ⟨h.validator, h.warmupDuration, h.pendingRate⟩
  | resume _ hm | setLegal hm | signLegal _ hm =>
      subst hm
      exact ⟨h.validator, h.warmupDuration, h.pendingRate⟩
  | _ => cases hlegal

/-- **An operation keeps the grant exact**, if it does not change the gate of
seconds that are still to be settled. -/
theorem GrantStep.gateExact {earned : Int} (hstep : GrantStep now treasury op a a' payments)
    (hlegal : op.legal = true) (hwf : a.grant.WellFormed now) (hone : a.grant.OneRate)
    (hgate : ¬(op.misjudges a.grant = true ∧ a.grant.Unsettled now))
    (h : a.grant.GateExact earned now) : a'.grant.GateExact earned now := by
  cases hstep with
  | withdraw hs _ _ _ _ _ hm =>
      have hsum := h.settles hone hwf hs
      have hlast := hs.lastUpdateTs
      subst hm
      exact .of_sum hlast (by dsimp only; omega)
  | pause hs _ hm =>
      have hsum := h.settles hone hwf hs
      have hlast := hs.lastUpdateTs
      subst hm
      exact .of_sum hlast hsum
  | resume hstatus hm =>
      subst hm
      refine h.congr rfl rfl fun _ => ?_
      rw [Grant.overTime_self, Grant.overTime_gated_of_not_streams fun hst => ?_]
      cases hst.1.symm.trans hstatus
  | @setLegal g m _ _ requiresSignature hm =>
      subst hm
      refine h.congr rfl rfl fun hlt => ?_
      by_cases hturn : (requiresSignature && !g.isLegalSigned) = g.gateClosed
      · refine Grant.overTime_congr (Grant.gated_congr ?_ ?_ ?_) _ _
        · rfl
        · exact hturn
        · rfl
      · -- the gate turns, so there is nothing left to settle
        have hnone : ¬g.Unsettled now := fun hu => hgate ⟨bne_iff_ne.mpr hturn, hu⟩
        rw [Grant.overTime_of_not_unsettled hwf hnone hlt]
        exact Grant.overTime_of_not_unsettled { hwf with } hnone hlt
  | @signLegal g m _ _ hm =>
      subst hm
      refine h.congr rfl rfl fun hlt => ?_
      rw [Grant.overTime_self]
      by_cases hopen : g.gateClosed = true
      · -- the seconds that the restart skips did not count
        rw [Grant.overTime_gated_of_not_streams fun hst => ?_]
        rw [hst.2] at hopen
        cases hopen
      · have hnone : ¬g.Unsettled now := fun hu => hgate ⟨by simpa [GrantOp.misjudges] using hopen, hu⟩
        rw [Grant.overTime_of_not_unsettled hwf hnone hlt]
  | _ => cases hlegal

/-- The condition is exact: an operation that changes the gate of seconds that
are still to be settled leaves a grant whose settlement is wrong right away. -/
theorem GrantStep.misjudged {earned : Int} {s : Grant}
    (hstep : GrantStep now treasury op a a' payments) (hwf : a.grant.WellFormed now)
    (hone : a.grant.OneRate) (hop : op.misjudges a.grant = true) (hu : a.grant.Unsettled now)
    (h : a.grant.GateExact earned now) (hs : Settles a'.grant now s) :
    s.withdrawn + s.claimable ≠ min s.totalAmount earned := by
  have hlegal : op.legal = true := by
    cases op <;> first | rfl | cases hop
  have hone' := hstep.oneRate hlegal hwf hone
  have hwf' := hwf.step (le_refl now) hstep
  cases hstep with
  | @setLegal g m _ _ _ hm =>
      have hturn : m.gateClosed ≠ g.gateClosed := by
        subst hm
        exact bne_iff_ne.mp hop
      have hst : m.status = .active := by
        rw [hm]
        exact hu.1
      have hu' : m.Unsettled now := by
        subst hm
        exact hu
      refine h.ne_of_settles hu.2.2.2 (by rw [hm]) (by rw [hm]) hone' hwf' hs ?_
      by_cases hopen : g.gateClosed = false
      · -- closing the gate erases what was earned
        rw [hopen] at hturn
        exact .inl ⟨hu.overTime_pos ⟨hu.1, hopen⟩,
          Grant.overTime_gated_of_not_streams (fun hst => hturn hst.2) _ _⟩
      · -- opening it credits the time during which it was closed
        have hopen' : m.gateClosed = false := by
          rw [Bool.not_eq_false] at hopen
          rwa [hopen, ne_eq, Bool.not_eq_true] at hturn
        exact .inr ⟨Grant.overTime_gated_of_not_streams (fun hst => hopen hst.2) _ _,
          hu'.overTime_pos ⟨hst, hopen'⟩⟩
  | @signLegal g m _ _ hm =>
      have hopen : g.gateClosed = false := by simpa [GrantOp.misjudges] using hop
      refine h.ne_of_settles hu.2.2.2 (by rw [hm]) (by rw [hm]) hone' hwf' hs ?_
      refine .inl ⟨hu.overTime_pos ⟨hu.1, hopen⟩, ?_⟩
      rw [hm, Grant.overTime_self]
  | _ => cases hop

end

/-- **Legal gate.** In every run of withdrawals, pauses and legal operations, if
none of them changes the gate of seconds that are still to be settled, then every
settlement of the grant, now or later, accounts for exactly the seconds in which
it was stored as active with its gate open, up to the total amount. -/
theorem legal_gate {trace : Trace} {env : Env} (h : Reachable trace env) {grantId : Nat}
    {o : Grant} (ho : origin grantId trace = some o) (hvalidator : o.validator = none)
    (hwarmup : o.warmupDuration = 0)
    (hlegal : ∀ e ∈ life grantId trace, (performed grantId e).all GrantOp.legal = true)
    (hgate : ∀ e ∈ life grantId trace, GateSettledAt grantId e) {g : Grant}
    (hg : env.grants grantId = some g) {now : Nat} {q : Grant} (hle : env.timestamp ≤ now)
    (hq : settleGrant g now = .ok q) :
    q.withdrawn + q.claimable = min q.totalAmount
      (g.overTime Grant.gated env.timestamp now +
        streamed Grant.gated grantId (life grantId trace)) := by
  have hwf := wellFormed_of_reachable h hg
  have hinv := account_invariant_when
    (C := fun e => (performed grantId e).all GrantOp.legal = true ∧ GateSettledAt grantId e)
    (P := fun o L now a => o.validator = none → o.warmupDuration = 0 →
      a.grant.OneRate ∧ a.grant.GateExact (streamed Grant.gated grantId L) now)
    ?_ ?_ ?_ h hg fun e he => ⟨hlegal e he, hgate e he⟩
  · obtain ⟨o', ho', hexact⟩ := hinv
    obtain rfl : o' = o := Option.some.inj (ho'.symm.trans ho)
    obtain ⟨hone, hexact⟩ := hexact hvalidator hwarmup
    have hlater := hexact.mono hwf.flowRate_nonneg hwf.lastUpdateTs_le hle
    exact hlater.settles hone hwf (settleGrant_eq_ok hq)
  · rintro now recipient totalAmount flowRate warmupDuration validator donor token _ _ htotal _ rfl
      hvalidator hwarmup
    refine ⟨⟨hvalidator, hwarmup, rfl⟩, .of_sum rfl ?_⟩
    show (0 + 0 : Int) = min totalAmount 0
    rw [min_eq_right htotal.le, add_zero]
  · intro o L e a _ hwf ih hle _ hg hvalidator hwarmup
    obtain ⟨hone, hexact⟩ := ih hvalidator hwarmup
    refine ⟨hone, ?_⟩
    rw [streamed_cons hg]
    exact hexact.mono hwf.flowRate_nonneg hwf.lastUpdateTs_le hle
  · intro o L e op a a' payments ⟨hlegal, hgate⟩ hwf ih hle hop hg hstep hvalidator hwarmup
    obtain ⟨hone, hexact⟩ := ih hvalidator hwarmup
    rw [hop] at hlegal
    refine ⟨hstep.oneRate hlegal hwf hone, ?_⟩
    -- the seconds up to the operation count on the record before it
    rw [streamed_cons hg]
    exact hstep.gateExact hlegal (hwf.mono hle) hone (hgate.elim hop hg)
      (hexact.mono hwf.flowRate_nonneg hwf.lastUpdateTs_le hle)

/-- A grant that needs a signature from the time it was created, is signed after
a while and paused. -/
theorem legal_gate_of_signed_stream :
    let run := history Demo.env (Demo.setUp 1000 ++
      [Demo.call 1 (.createGrant 7 Demo.grantee 1000 10 0 none none),
        Demo.call 1 (.setLegalMetadata 7 "terms" true), Demo.call 11 (.signLegalMetadata 7),
        Demo.call 21 (.pauseStream 7 none), Demo.call 31 (.resumeStream 7)])
    ∃ g q, run.2.grants 7 = some g ∧ settleGrant g 41 = .ok q ∧
      q.withdrawn + q.claimable = min q.totalAmount
        (g.overTime Grant.gated 31 41 + streamed Grant.gated 7 (life 7 run.1)) := by
  intro run
  have hrun : Reachable run.1 run.2 := history_reachable Demo.env_deployed (by decide)
  exact ⟨_, _, rfl, rfl, @legal_gate _ _ hrun 7 _ rfl rfl rfl (by decide) (by decide) _ rfl 41 _
    (by decide) rfl⟩

/-- Requiring a signature erases what was earned since the last settlement. -/
theorem legal_gate_erased_earnings :
    ¬∀ trace env grantId o g now q, Reachable trace env → origin grantId trace = some o →
      o.validator = none → o.warmupDuration = 0 →
      (∀ e ∈ life grantId trace, (performed grantId e).all GrantOp.legal = true) →
      env.grants grantId = some g → env.timestamp ≤ now → settleGrant g now = .ok q →
      q.withdrawn + q.claimable = min q.totalAmount
        (g.overTime Grant.gated env.timestamp now +
          streamed Grant.gated grantId (life grantId trace)) := by
  intro h
  let run := history Demo.env (Demo.setUp 1000 ++
    [Demo.call 1 (.createGrant 7 Demo.grantee 1000 10 0 none none),
      Demo.call 11 (.setLegalMetadata 7 "terms" true)])
  have hrun : Reachable run.1 run.2 := history_reachable Demo.env_deployed (by decide)
  have hexact := h run.1 run.2 7 _ _ 11 _ hrun rfl rfl rfl (by decide) rfl (by decide) rfl
  exact absurd hexact (by decide)

end YieldTrust.GrantStream
