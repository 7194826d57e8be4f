import YieldTrust.GrantStream.Encoding
import YieldTrust.Lib.Ledger

/-!
# YieldTrust.Bidding.Contract

The sealed bids (`commit_reveal.rs`): grantees commit to the hash of a bid while the bidding is
open, and reveal the bid after it was closed.
-/

namespace YieldTrust.Bidding

open Fallible
open GrantStream (Address Bytes)
open GrantStream.AuditLog (toBeBytes)

/-! ### Data -/

/-- A map from milestones to their costs, in the order of its keys. -/
structure CostMap where
  entries : List (UInt32 × UInt64)
  sorted : (entries.map Prod.fst).Pairwise (· < ·)
  deriving DecidableEq

namespace CostMap

def keys (costs : CostMap) : List UInt32 := costs.entries.map Prod.fst

def get (costs : CostMap) (id : UInt32) : Option UInt64 := costs.entries.lookup id

end CostMap

structure RevealedBid where
  grantee : Address
  amount : UInt64
  milestoneCosts : CostMap
  /-- A random salt, used during the commitment. -/
  salt : Bytes
  deriving DecidableEq

structure Store where
  commitment : Address → Option Bytes := fun _ => none
  reveal : Address → Option RevealedBid := fun _ => none
  biddingOpen : Bool := false
  revealDeadline : Nat := 0

abbrev Env := Ledger.Env Address Store

/-- The hash function of the environment. -/
structure Host where
  sha256 : Bytes → Bytes

/-- The contract has no error codes: whatever goes wrong is a panic. -/
abbrev Res (α : Type) := Fallible Empty α

/-! ### The hash of a bid -/

/-- One comparison of the sort; both positions are within the list. -/
def compareSwap (ids : List UInt32) (j : Nat) : List UInt32 :=
  let a := ids.getD j 0
  let b := ids.getD (j + 1) 0
  if b < a then (ids.set j b).set (j + 1) a else ids

/-- Sort ascending, for determinism. -/
def sortIds (ids : List UInt32) : List UInt32 :=
  let len := ids.length
  (List.range len).foldl
    (fun ids i => (List.range (len - i - 1)).foldl compareSwap ids) ids

/-- What is hashed: the amount in 8 bytes, each milestone in 4 with its cost in 8, and the
salt. -/
def preimage (bid : RevealedBid) : Res Bytes := do
  let encoded ← (sortIds bid.milestoneCosts.keys).foldlM
    (fun encoded id => do
      let cost ← orTrap (bid.milestoneCosts.get id)
      return encoded ++ toBeBytes 4 id.toNat ++ toBeBytes 8 cost.toNat)
    (toBeBytes 8 bid.amount.toNat)
  return encoded ++ bid.salt

def hashBid (host : Host) (bid : RevealedBid) : Res Bytes := do
  let preimage ← preimage bid
  return host.sha256 preimage

/-! ### Entry points -/

def openBidding (env : Env) (admin : Address) (revealDeadline : Nat) : Res Env := do
  env.requireAuth admin
  return { env with store := { env.store with biddingOpen := true, revealDeadline } }

def closeBidding (env : Env) (admin : Address) : Res Env := do
  env.requireAuth admin
  return { env with store := { env.store with biddingOpen := false } }

def commit (env : Env) (grantee : Address) (commitment : Bytes) : Res Env := do
  env.requireAuth grantee
  require (env.store.biddingOpen = true)
  require (env.store.commitment grantee = none)
  return { env with store := { env.store with
    commitment := Function.update env.store.commitment grantee (some commitment) } }

def reveal (host : Host) (env : Env) (grantee : Address) (bid : RevealedBid) : Res Env := do
  env.requireAuth grantee
  require (env.store.biddingOpen = false)
  require (env.timestamp ≤ env.store.revealDeadline)
  let storedCommitment ← orTrap (env.store.commitment grantee)
  let computedHash ← hashBid host bid
  require (computedHash = storedCommitment)
  return { env with store := { env.store with
    reveal := Function.update env.store.reveal grantee (some bid) } }

/-! ### The contract -/

/-- The entry points that can change the state, with their arguments. -/
inductive Call where
  | openBidding (admin : Address) (revealDeadline : Nat)
  | closeBidding (admin : Address)
  | commit (grantee : Address) (commitment : Bytes)
  | reveal (grantee : Address) (bid : RevealedBid)
  deriving DecidableEq

def Call.exec (host : Host) (env : Env) : Call → Res Env
  | .openBidding admin revealDeadline => Bidding.openBidding env admin revealDeadline
  | .closeBidding admin => Bidding.closeBidding env admin
  | .commit grantee commitment => Bidding.commit env grantee commitment
  | .reveal grantee bid => Bidding.reveal host env grantee bid

def Call.typed : Call → Bool
  | .openBidding _ revealDeadline => revealDeadline < U64.size
  | .commit _ commitment => commitment.length == 32
  | .closeBidding _ | .reveal _ _ => true

def contract (host : Host) : Ledger.Contract Address Store Call Empty where
  initial := {}
  typed := Call.typed
  exec := Call.exec host

abbrev Trace := Ledger.Trace Address Store Call

abbrev Step := Run.Step Env (Ledger.Event Address Call)

/-! ### A deployment to run events on -/

namespace Demo

def admin : Address := ⟨[1]⟩

def grantee : Address := ⟨[2]⟩

def rival : Address := ⟨[3]⟩

/-- A bid with two milestones. -/
def bid : RevealedBid where
  grantee := grantee
  amount := 500
  milestoneCosts := ⟨[(1, 200), (2, 300)], by decide⟩
  salt := [7]

/-- The bid with its second milestone in the salt. -/
def movedBid : RevealedBid where
  grantee := grantee
  amount := 500
  milestoneCosts := ⟨[(1, 200)], by decide⟩
  salt := toBeBytes 4 2 ++ toBeBytes 8 300 ++ [7]

/-- The hash, on what is hashed here. -/
def host : Host where
  sha256 input :=
    if input = toBeBytes 8 500 ++ toBeBytes 4 1 ++ toBeBytes 8 200 ++ toBeBytes 4 2 ++
        toBeBytes 8 300 ++ [7] then
      toBeBytes 32 0xa0dd8df4b24ceda8a4a8d46c49942f394e806d58579f5164b10c3566e7289df3
    else if input = toBeBytes 8 450 ++ toBeBytes 4 1 ++ toBeBytes 8 450 ++ [8, 9] then
      toBeBytes 32 0x9fbc40707a5a249dc9eeb128c5551c41d2b5a66cc18b8806d18b90948ae70f0a
    else []

/-- The bid of a rival, with one milestone. -/
def rivalBid : RevealedBid where
  grantee := rival
  amount := 450
  milestoneCosts := ⟨[(1, 450)], by decide⟩
  salt := [8, 9]

def env : Env := .deployed (contract host) ⟨[0]⟩ { balance := fun _ _ => 0, log := [] }

theorem env_deployed : Ledger.Deployed (contract host) env := ⟨_, _, rfl⟩

def call (timestamp : Nat) (auths : List Address) (call : Call) : Ledger.Event Address Call :=
  ⟨timestamp, 0, .invoke auths call⟩

/-- Both commit, and the bidding is closed. -/
def setUp : List (Ledger.Event Address Call) :=
  [call 0 [admin] (.openBidding admin 100),
    call 1 [grantee] (.commit grantee
      (toBeBytes 32 0xa0dd8df4b24ceda8a4a8d46c49942f394e806d58579f5164b10c3566e7289df3)),
    call 2 [rival] (.commit rival
      (toBeBytes 32 0x9fbc40707a5a249dc9eeb128c5551c41d2b5a66cc18b8806d18b90948ae70f0a)),
    call 3 [admin] (.closeBidding admin)]

end Demo

end YieldTrust.Bidding
