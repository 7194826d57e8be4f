import YieldTrust.GrantStream.BreakerSteps
import YieldTrust.GrantStream.Simulation
import YieldTrust.Lib.Register

/-!
# YieldTrust.GrantStream.RentBuffer

**The storage-rent guard** over whole runs. Its flag is a register: a withdrawal and a check by the
admin write what they find of the native balance, and the admin can clear it. The flag stops
withdrawals and nothing else, so only the admin gets the contract out of rent preservation.
-/

namespace YieldTrust.GrantStream

open Fallible CircuitBreakers

variable {trace : Trace} {env env' : Env} {e : Run.Step Env Event} {call : Call}

/-! ### What is written to the flag -/

/-- The contract cannot pay the storage rent of the next months. -/
def BelowBuffer (env : Env) : Prop := getCurrentXlmBalance env < rentBufferXlm

instance (env : Env) : Decidable (BelowBuffer env) := inferInstanceAs (Decidable (_ < _))

def Call.measuresRent : Call → Bool
  | .withdraw .. | .checkRentBalance => true
  | _ => false

/-- What a call writes to the flag, if it does. -/
def Call.rentFlag? (env : Env) : Call → Option Bool
  | .withdraw .. | .checkRentBalance => some (decide (BelowBuffer env))
  | .disableRentPreservationMode => some false
  | _ => none

def rentFlag (e : Run.Step Env Event) : Option Bool := (called e).bind (Call.rentFlag? e.before)

/-- The step took the balance of the contract. -/
def measuresRent (e : Run.Step Env Event) : Bool := (called e).any Call.measuresRent

theorem rentFlag_of_called (h : called e = some call) : rentFlag e = call.rentFlag? e.before := by
  simp [rentFlag, h]

theorem rentFlag_of_uncalled (h : called e = none) : rentFlag e = none := by simp [rentFlag, h]

/-- The flag is set by a measurement. -/
theorem rentFlag_eq_true : rentFlag e = some true ↔ measuresRent e = true ∧ BelowBuffer e.before := by
  cases hcalled : called e with
  | none => simp [rentFlag, measuresRent, hcalled]
  | some call =>
      simp only [rentFlag_of_called hcalled, measuresRent, hcalled, Option.any_some]
      cases call <;> simp [Call.rentFlag?, Call.measuresRent]

/-! ### One call -/

theorem withdraw_rentFlag {grantId : Nat} {amount : Int}
    (h : withdraw env grantId amount = .ok env') :
    isRentPreservationMode env = false ∧
      isRentPreservationMode env' = decide (BelowBuffer env) := by
  simp only [withdraw, payWithdrawal, bind_eq_ok, ensure_eq_ok] at h
  obtain ⟨grant, -, _, -, _, -, _, -, _, -, _, -, _, hallowed, m, -, velocity, -, tokenAddr, -, env₁,
    htransfer, _, -, h⟩ := h
  refine ⟨by simpa [isFunctionAllowed] using hallowed, ?_⟩
  -- the balance is taken before the transfer
  have hbreakers := (transfer_frame _ htransfer).same .breakers (by decide)
  have hafter : env'.breakers = env₁.breakers := by
    rw [← pure_eq_ok.mp h]
    exact ((recordClaimValue_frame ..).comp (setReports_frame ..)).same .breakers (by decide)
  rw [isRentPreservationMode, hafter, hbreakers]
  rfl

theorem checkRentBalance_rentFlag {r : Env × Bool} (h : checkRentBalance env = .ok r) :
    (∃ admin ∈ env.auths, env.admin = some admin) ∧
      isRentPreservationMode r.1 = decide (BelowBuffer env) := by
  obtain ⟨_, hauth, h⟩ := bind_eq_ok.mp h
  obtain ⟨admin, hadmin, hsigned⟩ := requireAdminAuth_eq_ok.mp hauth
  obtain rfl := pure_eq_ok.mp h
  exact ⟨⟨admin, hsigned, hadmin⟩, rfl⟩

theorem disableRentPreservationMode_rentFlag (h : disableRentPreservationMode env = .ok env') :
    (∃ admin ∈ env.auths, env.admin = some admin) ∧ isRentPreservationMode env' = false := by
  simp only [disableRentPreservationMode, CircuitBreakers.disableRentPreservationMode, readAdmin,
    bind_eq_ok, okOr_eq_ok, requireAuth_eq_ok, pure_eq_ok] at h
  obtain ⟨admin, hadmin, _, ⟨_, hsigned, rfl⟩, rfl⟩ := h
  exact ⟨⟨admin, hsigned, hadmin⟩, rfl⟩

/-- What is not written to the flag does not change it. -/
theorem rentFlag_of_exec (h : call.exec env = .ok env') :
    isRentPreservationMode env' = (call.rentFlag? env).getD (isRentPreservationMode env) := by
  cases hop : call.breakerOp? with
  | none =>
      have hframe := (frame_of_exec h).same .breakers (breaker_mem_writes hop)
      have hflag : call.rentFlag? env = none := by
        cases call <;> simp_all [Call.rentFlag?, Call.breakerOp?]
      rw [hflag, isRentPreservationMode, hframe]
      rfl
  | some op =>
      have hstep := breakerStep_of_exec hop h
      generalize hbefore : env.breakers = b at hstep
      generalize hafter : env'.breakers = b' at hstep
      cases hstep
      case withdraw =>
        cases call <;> cases hop
        exact (withdraw_rentFlag h).2
      case checkRent =>
        cases call <;> cases hop
        obtain ⟨r, hr, rfl⟩ := map_eq_ok.mp h
        exact (checkRentBalance_rentFlag hr).2
      -- clearing, and the breakers that keep the flag
      all_goals
        cases call <;> cases hop
        simp_all [Call.rentFlag?, isRentPreservationMode]

/-! ### Runs -/

theorem rentFlag_of_next (hn : Next e.before e.action e.after) :
    isRentPreservationMode e.after = (rentFlag e).getD (isRentPreservationMode e.before) := by
  rcases called_of_next hn with ⟨hcalled, hframe⟩ | ⟨call, hcalled, hexec⟩
  · rw [rentFlag_of_uncalled hcalled, isRentPreservationMode, hframe.same .breakers (by decide)]
    rfl
  · rw [rentFlag_of_called hcalled]
    have hwritten : isRentPreservationMode e.after = (call.rentFlag? (e.before.enter e.action)).getD
        (isRentPreservationMode (e.before.enter e.action)) := rentFlag_of_exec hexec
    exact hwritten

theorem rentPreservation_eq (h : Reachable trace env) :
    isRentPreservationMode env = Run.lastWritten rentFlag false trace := by
  refine Run.register_eq (f := isRentPreservationMode) ?_ rentFlag_of_next h
  rintro s ⟨_, _, _, rfl⟩
  rfl

/-- What the guard promises of a step. -/
structure RentGuarded (e : Run.Step Env Event) : Prop where
  blocked : isRentPreservationMode e.before = true → ∀ grantId amount,
    called e ≠ some (.withdraw grantId amount)
  lifted : isRentPreservationMode e.before = true → isRentPreservationMode e.after = false →
    (∃ admin ∈ e.action.auths, e.before.admin = some admin) ∧
      (called e = some .disableRentPreservationMode ∨
        called e = some .checkRentBalance ∧ ¬BelowBuffer e.before)

theorem rentGuarded_of_next (hn : Next e.before e.action e.after) : RentGuarded e := by
  have hblocked : isRentPreservationMode e.before = true → ∀ grantId amount,
      called e ≠ some (.withdraw grantId amount) := by
    intro hmode grantId amount hcalled
    have hclear : isRentPreservationMode e.before = false :=
      (withdraw_rentFlag (exec_of_called hn hcalled)).1
    rw [hclear] at hmode
    cases hmode
  refine ⟨hblocked, fun hmode hlifted => ?_⟩
  have hwrite := rentFlag_of_next hn
  rw [hmode, hlifted] at hwrite
  cases hcalled : called e with
  | none =>
      rw [rentFlag_of_uncalled hcalled] at hwrite
      cases hwrite
  | some call =>
      have hexec := exec_of_called hn hcalled
      rw [rentFlag_of_called hcalled] at hwrite
      cases call <;> simp only [Call.rentFlag?, Option.getD, Bool.false_eq_true] at hwrite
      case withdraw => exact absurd hcalled (hblocked hmode _ _)
      case checkRentBalance =>
        obtain ⟨r, hr, -⟩ := map_eq_ok.mp hexec
        exact ⟨(checkRentBalance_rentFlag hr).1, .inr ⟨rfl, of_decide_eq_false hwrite.symm⟩⟩
      case disableRentPreservationMode =>
        exact ⟨(disableRentPreservationMode_rentFlag hexec).1, .inl rfl⟩

/-- **The rent guard.** In every run, the contract is in rent preservation exactly if the newest
call that measured or cleared it found the native balance below the buffer; while it is, no
withdrawal goes through, and it ends only by the admin, who clears it or whose check finds the
buffer filled. -/
theorem rent_preserved (h : Reachable trace env) :
    (isRentPreservationMode env = true ↔ ∃ newer e older, trace = newer ++ e :: older ∧
      measuresRent e = true ∧ BelowBuffer e.before ∧ ∀ e' ∈ newer, rentFlag e' = none) ∧
      ∀ e ∈ trace, RentGuarded e := by
  refine ⟨?_, fun e he => ?_⟩
  · rw [rentPreservation_eq h]
    constructor
    · intro hmode
      rcases Run.lastWritten_cases rentFlag false trace with ⟨-, hfalse⟩ | ⟨newer, e, older, rfl,
        hwrite, hnewer⟩
      · rw [hfalse] at hmode
        cases hmode
      · rw [hmode] at hwrite
        obtain ⟨hmeasures, hbelow⟩ := rentFlag_eq_true.mp hwrite
        exact ⟨newer, e, older, rfl, hmeasures, hbelow, hnewer⟩
    · rintro ⟨newer, e, older, rfl, hmeasures, hbelow, hnewer⟩
      exact Run.lastWritten_of_newest hnewer (rentFlag_eq_true.mpr ⟨hmeasures, hbelow⟩)
  · obtain ⟨older, -, hn⟩ := h.of_mem he
    exact rentGuarded_of_next hn

namespace Demo

/-- A contract without native tokens, which a check puts into rent preservation. -/
def rentless : Trace × Env :=
  history Demo.env
    [Demo.call 1 (.initializeContract admin token treasury oracle nativeToken),
      ⟨1, 0, .tokenMint token self 100000000⟩,
      Demo.call 1 (.createGrant 7 grantee 60000000 1000000 0 none none),
      Demo.call 5 .checkRentBalance, Demo.call 65 (.withdraw 7 20000000)]

end Demo

/-- The withdrawal after the check is refused. -/
theorem rent_preserved_of_check :
    isRentPreservationMode Demo.rentless.2 = true ∧ Demo.rentless.2.breakers.velAccum = 0 ∧
      ∀ e ∈ Demo.rentless.1, RentGuarded e := by
  have hrun : Reachable Demo.rentless.1 Demo.rentless.2 :=
    history_reachable Demo.env_deployed (by decide)
  exact ⟨by decide, by decide, (rent_preserved hrun).2⟩

end YieldTrust.GrantStream
