import YieldTrust.GrantStream.Calls
import YieldTrust.GrantStream.SettlementSpec

/-!
# YieldTrust.GrantStream.Accounts

One grant at a time. The `Account` of a grant is its record and its escrow, and
`GrantStep` is the relation between the accounts before and after a successful
call that operates on the grant, together with the payments the call makes: one
constructor for each thing such a call can do, with all of its guards.

`YieldTrust.GrantStream.Simulation` proves that the contract takes no other
steps, and every property of a grant's history is proved about `GrantStep`.
-/

namespace YieldTrust.GrantStream

/-! ### Accounts and payments -/

/-- What the contract keeps of one grant. -/
structure Account where
  grant : Grant
  escrow : Option Int

/-- A payment in the grant token out of the contract. -/
abbrev Payment := TokenLedger.Payment Address

/-- The sum of the payments. -/
def paymentSum (payments : List Payment) : Int := (payments.map TokenLedger.Payment.amount).sum

/-- The calls that operate on an existing grant. `execute_protected_clawback`
cancels, as `cancel_grant` does. -/
inductive GrantOp where
  | withdraw (amount : Int)
  | withdrawValidator (amount : Int)
  | pause (reason : Option String)
  | resume
  | proposeRate (newRate : Int)
  | applyKpi (multiplier : Int)
  | rageQuit
  | cancel
  | changeGrantee (newGrantee : Address)
  | clawback (contested : Bool)
  | resolve (releaseToDonor : Bool)
  | setLegal (legalHash : String) (requiresSignature : Bool)
  | signLegal
  deriving DecidableEq

/-- The grant a call operates on, and how. -/
def Call.grantOp? : Call → Option (Nat × GrantOp)
  | .withdraw grantId amount => some (grantId, .withdraw amount)
  | .withdrawValidator grantId amount => some (grantId, .withdrawValidator amount)
  | .pauseStream grantId reason => some (grantId, .pause reason)
  | .resumeStream grantId => some (grantId, .resume)
  | .proposeRateChange grantId newRate => some (grantId, .proposeRate newRate)
  | .applyKpiMultiplier grantId multiplier => some (grantId, .applyKpi multiplier)
  | .rageQuit grantId => some (grantId, .rageQuit)
  | .cancelGrant grantId => some (grantId, .cancel)
  | .changeGrantee grantId newGrantee => some (grantId, .changeGrantee newGrantee)
  | .triggerGrantClawback grantId _ contested => some (grantId, .clawback contested)
  | .resolveDisputedClawback grantId releaseToDonor => some (grantId, .resolve releaseToDonor)
  | .setLegalMetadata grantId legalHash requiresSignature =>
      some (grantId, .setLegal legalHash requiresSignature)
  | .signLegalMetadata grantId => some (grantId, .signLegal)
  | .executeProtectedClawback _ grantId => some (grantId, .cancel)
  | _ => none

/-- How the event operates on `grantId`, if it does. -/
def Event.opOn (event : Event) (grantId : Nat) : Option GrantOp :=
  match event.transaction with
  | .invoke _ call =>
    match call.grantOp? with
    | some (id, op) => if id = grantId then some op else none
    | none => none
  | _ => none

/-! ### Steps of an account -/

/-- The payment of what is left of a grant to the treasury. -/
def Sweep (treasury : Option Address) (remaining : Int) (payments : List Payment) : Prop :=
  (remaining ≤ 0 ∧ payments = []) ∨
    (0 < remaining ∧ ∃ target, treasury = some target ∧ payments = [⟨target, remaining⟩])

/-- The payment to the validator of a grant whose grantee quits. -/
def validatorPayout (validator : Option Address) (amount : Int) : List Payment :=
  match validator with
  | some target => if amount > 0 then [⟨target, amount⟩] else []
  | none => []

/-- `GrantStep now treasury op a a' payments`: the call `op` at `now` turns the
account `a` into `a'` and makes `payments`, in this order. In each constructor
`s` is the settled grant and `m` the one that is written. -/
inductive GrantStep (now : Nat) (treasury : Option Address) :
    GrantOp → Account → Account → List Payment → Prop
  | withdraw {g s m : Grant} {e : Option Int} {amount : Int} (hs : Settles g now s)
      (hamount : 0 < amount) (hstatus : g.status ≠ .cancelled ∧ g.status ≠ .rageQuitted)
      (hgate : s.gateClosed = false) (hmin : minWithdrawal ≤ s.claimable)
      (hle : amount ≤ s.claimable)
      (hm : m = { s with
        claimable := s.claimable - amount
        withdrawn := s.withdrawn + amount
        clawbackEligible :=
          if g.cancellationInitiatedAt ≠ 0 then s.clawbackEligible + amount
          else s.clawbackEligible
        lastClaimTime := now }) :
      GrantStep now treasury (.withdraw amount) ⟨g, e⟩ ⟨m, e⟩
        [⟨s.redirect.getD s.recipient, amount⟩]
  | withdrawValidator {g s m : Grant} {e : Option Int} {amount : Int} {validator : Address}
      (hs : Settles g now s) (hvalidator : g.validator = some validator)
      (hstatus : g.status ≠ .cancelled ∧ g.status ≠ .rageQuitted)
      (hamount : 0 < amount) (hle : amount ≤ s.validatorClaimable)
      (hm : m = { s with
        validatorClaimable := s.validatorClaimable - amount
        validatorWithdrawn := s.validatorWithdrawn + amount }) :
      GrantStep now treasury (.withdrawValidator amount) ⟨g, e⟩ ⟨m, e⟩ [⟨validator, amount⟩]
  | pause {g s m : Grant} {e : Option Int} {reason : Option String} (hs : Settles g now s)
      (hstatus : g.status = .active)
      (hm : m = { s with status := .paused, pauseReason := reason }) :
      GrantStep now treasury (.pause reason) ⟨g, e⟩ ⟨m, e⟩ []
  | resume {g m : Grant} {e : Option Int} (hstatus : g.status = .paused)
      (hm : m = { g with status := .active, lastUpdateTs := now, pauseReason := none }) :
      GrantStep now treasury .resume ⟨g, e⟩ ⟨m, e⟩ []
  | proposeIncrease {g s m : Grant} {e : Option Int} {newRate : Int} (hs : Settles g now s)
      (hstatus : g.status = .active) (hrate : s.flowRate < newRate)
      (hfits : now + rateIncreaseTimelockSecs < U64.size)
      (hm : m = { s with
        pendingRate := newRate
        effectiveTimestamp := now + rateIncreaseTimelockSecs }) :
      GrantStep now treasury (.proposeRate newRate) ⟨g, e⟩ ⟨m, e⟩ []
  | proposeDecrease {g s m : Grant} {e : Option Int} {newRate : Int} (hs : Settles g now s)
      (hstatus : g.status = .active) (hnonneg : 0 ≤ newRate) (hrate : newRate ≤ s.flowRate)
      (hm : m = { s with
        flowRate := newRate
        rateUpdatedAt := now
        pendingRate := 0
        effectiveTimestamp := 0 }) :
      GrantStep now treasury (.proposeRate newRate) ⟨g, e⟩ ⟨m, e⟩ []
  | applyKpi {g s m : Grant} {e : Option Int} {multiplier : Int} (hs : Settles g now s)
      (hstatus : g.status = .active) (hmultiplier : 0 < multiplier)
      (hm : m = { s with
        flowRate := (s.flowRate * multiplier).tdiv 10000
        pendingRate :=
          if 0 < s.pendingRate then (s.pendingRate * multiplier).tdiv 10000 else s.pendingRate
        rateUpdatedAt := now }) :
      GrantStep now treasury (.applyKpi multiplier) ⟨g, e⟩ ⟨m, e⟩ []
  | rageQuit {g s m : Grant} {e : Option Int} {sweep : List Payment} (hs : Settles g now s)
      (hstatus : g.status = .paused)
      (hsweep : Sweep treasury
        (s.totalAmount - (s.withdrawn + s.claimable +
          (s.validatorWithdrawn + s.validatorClaimable))) sweep)
      (hm : m = { s with
        claimable := 0
        validatorClaimable := 0
        withdrawn := s.withdrawn + s.claimable
        validatorWithdrawn := s.validatorWithdrawn + s.validatorClaimable
        status := .rageQuitted }) :
      GrantStep now treasury .rageQuit ⟨g, e⟩ ⟨m, e⟩
        (⟨s.recipient, s.claimable⟩ ::
          (validatorPayout s.validator s.validatorClaimable ++ sweep))
  | cancel {g s m : Grant} {e : Option Int} {sweep : List Payment} (hs : Settles g now s)
      (hstatus : g.status ≠ .completed ∧ g.status ≠ .rageQuitted)
      (hsweep : Sweep treasury (s.totalAmount - s.accounted) sweep)
      (hm : m = { s with
        cancellationInitiatedAt := now
        clawbackEligible := 0
        status := .cancelled }) :
      GrantStep now treasury .cancel ⟨g, e⟩ ⟨m, e⟩ sweep
  | changeGrantee {g m : Grant} {e : Option Int} {newGrantee : Address}
      (hstatus : g.status = .active ∨ g.status = .paused) (hne : g.recipient ≠ newGrantee)
      (hm : m = { g with recipient := newGrantee, redirect := none }) :
      GrantStep now treasury (.changeGrantee newGrantee) ⟨g, e⟩ ⟨m, e⟩ []
  | clawbackNothing {g s m : Grant} {e : Option Int} {contested : Bool} (hs : Settles g now s)
      (hstatus : g.status = .active ∨ g.status = .paused)
      (hrest : s.totalAmount - s.accounted ≤ 0)
      (hm : m = { s with clawbackCheckpoint := some now, status := .clawbacked }) :
      GrantStep now treasury (.clawback contested) ⟨g, e⟩ ⟨m, e⟩ []
  | clawbackContested {g s m : Grant} {e : Option Int} (hs : Settles g now s)
      (hstatus : g.status = .active ∨ g.status = .paused)
      (hrest : 0 < s.totalAmount - s.accounted)
      (hm : m = { s with clawbackCheckpoint := some now, status := .clawbacked }) :
      GrantStep now treasury (.clawback true) ⟨g, e⟩ ⟨m, some (s.totalAmount - s.accounted)⟩ []
  | clawbackToDonor {g s m : Grant} {e : Option Int} {donor : Address} (hs : Settles g now s)
      (hstatus : g.status = .active ∨ g.status = .paused)
      (hrest : 0 < s.totalAmount - s.accounted) (hdonor : g.donor = some donor)
      (hm : m = { s with clawbackCheckpoint := some now, status := .clawbacked }) :
      GrantStep now treasury (.clawback false) ⟨g, e⟩ ⟨m, e⟩
        [⟨donor, s.totalAmount - s.accounted⟩]
  | resolveToDonor {g : Grant} {amount : Int} {donor : Address} (hstatus : g.status = .clawbacked)
      (hamount : 0 < amount) (hdonor : g.donor = some donor) :
      GrantStep now treasury (.resolve true) ⟨g, some amount⟩ ⟨g, none⟩ [⟨donor, amount⟩]
  | resolveToGrantee {g m : Grant} {amount : Int} {target : Address}
      (hstatus : g.status = .clawbacked) (hamount : 0 < amount)
      (htreasury : treasury = some target) (hrange : I128.InRange (g.totalAmount + amount))
      (hm : m = { g with
        status := .active
        lastUpdateTs := now
        totalAmount := g.totalAmount + amount }) :
      GrantStep now treasury (.resolve false) ⟨g, some amount⟩ ⟨m, none⟩ [⟨target, amount⟩]
  | setLegal {g m : Grant} {e : Option Int} {legalHash : String} {requiresSignature : Bool}
      (hm : m = { g with
        legalHash := some legalHash
        requiresLegalSignature := requiresSignature }) :
      GrantStep now treasury (.setLegal legalHash requiresSignature) ⟨g, e⟩ ⟨m, e⟩ []
  | signLegal {g m : Grant} {e : Option Int} (hhash : g.legalHash ≠ none)
      (hm : m = { g with isLegalSigned := true, lastUpdateTs := now }) :
      GrantStep now treasury .signLegal ⟨g, e⟩ ⟨m, e⟩ []

end YieldTrust.GrantStream
