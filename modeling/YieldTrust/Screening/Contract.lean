import YieldTrust.GrantStream.Types
import YieldTrust.Lib.Ledger

/-!
# YieldTrust.Screening.Contract

The two contracts that screen addresses: `contracts/compliance` and `contracts/zk_kyc`. Both keep
marks of addresses that the one in charge sets and removes, whom the first caller of `init` names.
-/

namespace YieldTrust.Screening

open Fallible
open GrantStream (Address)

/-! ### What the two contracts share -/

variable {M : Type} [DecidableEq M]

/-- The one in charge, and what is stored of every address under each mark. -/
structure Store (M : Type) where
  authority : Option Address := none
  mark : M → Address → Option Bool := fun _ _ => none

/-- `ComplianceError` and `KycError`. -/
inductive ScreeningError where
  | notInitialized
  | alreadyInitialized
  deriving DecidableEq

abbrev Env (M : Type) := Ledger.Env Address (Store M)

abbrev Res (α : Type) := Fallible ScreeningError α

/-- `init`: whoever comes first names the one in charge, and signs nothing. -/
def appoint (env : Env M) (authority : Address) : Res (Env M) := do
  ensure (env.store.authority = none) .alreadyInitialized
  return { env with store := { env.store with authority := some authority } }

/-- Store `value` under the mark of `target`, or remove what is there. -/
def putMark (env : Env M) (mark : M) (target : Address) (value : Option Bool) : Res (Env M) := do
  let authority ← okOr env.store.authority .notInitialized
  env.requireAuth authority
  return { env with store := { env.store with
    mark := Function.update env.store.mark mark
      (Function.update (env.store.mark mark) target value) } }

def readMark (env : Env M) (mark : M) (target : Address) : Bool :=
  (env.store.mark mark target).getD false

inductive Operation (M : Type) where
  | appoint (authority : Address)
  | putMark (mark : M) (target : Address) (value : Option Bool)

def Operation.exec (env : Env M) : Operation M → Res (Env M)
  | .appoint authority => Screening.appoint env authority
  | .putMark mark target value => Screening.putMark env mark target value

/-- A contract each of whose calls is one of the operations. -/
structure Screen (M κ : Type) [DecidableEq M] where
  contract : Ledger.Contract Address (Store M) κ ScreeningError
  operation : κ → Operation M
  initial_eq : contract.initial = {}
  exec_eq : ∀ env call, contract.exec env call = (operation call).exec env

end YieldTrust.Screening

/-! ### `contracts/compliance` -/

namespace YieldTrust.Compliance

open GrantStream (Address)
open Screening

inductive Mark where
  | sanctioned
  | flagged
  deriving DecidableEq

abbrev Env := Screening.Env Mark

def init (env : Env) (officer : Address) : Res Env := appoint env officer

def sanction (env : Env) (target : Address) : Res Env :=
  putMark env .sanctioned target (some true)

def unsanction (env : Env) (target : Address) : Res Env := putMark env .sanctioned target none

def isSanctioned (env : Env) (target : Address) : Bool := readMark env .sanctioned target

def flagAddress (env : Env) (target : Address) : Res Env := putMark env .flagged target (some true)

def isFlagged (env : Env) (target : Address) : Bool := readMark env .flagged target

/-- The entry points that can change the state. Nothing removes a flag. -/
inductive Call where
  | init (officer : Address)
  | sanction (target : Address)
  | unsanction (target : Address)
  | flagAddress (target : Address)
  deriving DecidableEq

def Call.exec (env : Env) : Call → Res Env
  | .init officer => Compliance.init env officer
  | .sanction target => Compliance.sanction env target
  | .unsanction target => Compliance.unsanction env target
  | .flagAddress target => Compliance.flagAddress env target

def contract : Ledger.Contract Address (Store Mark) Call ScreeningError where
  initial := {}
  typed := fun _ => true
  exec := Call.exec

def screen : Screen Mark Call where
  contract := contract
  operation
    | .init officer => .appoint officer
    | .sanction target => .putMark .sanctioned target (some true)
    | .unsanction target => .putMark .sanctioned target none
    | .flagAddress target => .putMark .flagged target (some true)
  initial_eq := rfl
  exec_eq env call := by cases call <;> rfl

abbrev Trace := Ledger.Trace Address (Store Mark) Call

namespace Demo

def officer : Address := ⟨[1]⟩

def suspect : Address := ⟨[2]⟩

def env : Env := .deployed contract ⟨[0]⟩ { balance := fun _ _ => 0, log := [] }

def call (timestamp : Nat) (caller : Address) (call : Call) : Ledger.Event Address Call :=
  ⟨timestamp, 0, .invoke [caller] call⟩

end Demo

end YieldTrust.Compliance

/-! ### `contracts/zk_kyc` -/

namespace YieldTrust.ZkKyc

open GrantStream (Address)
open Screening

inductive Mark where
  | kycStatus
  deriving DecidableEq

abbrev Env := Screening.Env Mark

def init (env : Env) (verifier : Address) : Res Env := appoint env verifier

def verifyUser (env : Env) (user : Address) : Res Env := putMark env .kycStatus user (some true)

def revokeUser (env : Env) (user : Address) : Res Env := putMark env .kycStatus user none

def isVerified (env : Env) (user : Address) : Bool := readMark env .kycStatus user

inductive Call where
  | init (verifier : Address)
  | verifyUser (user : Address)
  | revokeUser (user : Address)
  deriving DecidableEq

def Call.exec (env : Env) : Call → Res Env
  | .init verifier => ZkKyc.init env verifier
  | .verifyUser user => ZkKyc.verifyUser env user
  | .revokeUser user => ZkKyc.revokeUser env user

def contract : Ledger.Contract Address (Store Mark) Call ScreeningError where
  initial := {}
  typed := fun _ => true
  exec := Call.exec

def screen : Screen Mark Call where
  contract := contract
  operation
    | .init verifier => .appoint verifier
    | .verifyUser user => .putMark .kycStatus user (some true)
    | .revokeUser user => .putMark .kycStatus user none
  initial_eq := rfl
  exec_eq env call := by cases call <;> rfl

abbrev Trace := Ledger.Trace Address (Store Mark) Call

namespace Demo

def verifier : Address := ⟨[1]⟩

def user : Address := ⟨[2]⟩

def env : Env := .deployed contract ⟨[0]⟩ { balance := fun _ _ => 0, log := [] }

def call (timestamp : Nat) (caller : Address) (call : Call) : Ledger.Event Address Call :=
  ⟨timestamp, 0, .invoke [caller] call⟩

end Demo

end YieldTrust.ZkKyc
