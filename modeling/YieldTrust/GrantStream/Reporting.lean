import Mathlib.Algebra.Order.Group.Unbundled.Int
import YieldTrust.GrantStream.Types

/-!
# YieldTrust.GrantStream.Reporting

The three modules that record what the contract does and decide nothing:
`tax_reporting.rs`, `audit_log.rs` and `public_dashboard.rs`.
-/

namespace YieldTrust.GrantStream

open Fallible

/-! ### `tax_reporting.rs` -/

namespace TaxReporting

/-- Append a flow record for `recipient`. -/
def recordFlow (env : Env) (recipient : Address) (cumulativeAmount : Int) :
    Address → List FlowRecord :=
  fun a =>
    if a = recipient then
      env.flowHistory a ++ [{ timestamp := env.timestamp, cumulativeAmount }]
    else env.flowHistory a

/-- The cumulative amount of the last record of `history` that is not after `ts`. -/
def cumulativeAt (history : List FlowRecord) (ts : Nat) : Int :=
  history.foldl (fun acc record => if record.timestamp ≤ ts then record.cumulativeAmount else acc) 0

/-- `(total_received, twa_per_second)` of `recipient` over a range of time. -/
def getHistoricalFlow (env : Env) (recipient : Address) (startTs endTs : Nat) : Int × Int :=
  let history := env.flowHistory recipient
  if endTs ≤ startTs then (0, 0)
  else if history.isEmpty then (0, 0)
  else
    let totalReceived :=
      I128.saturatingSub (cumulativeAt history endTs) (cumulativeAt history startTs)
    (totalReceived, totalReceived.tdiv ((endTs - startTs : Nat) : Int))

theorem recordFlow_congr {env env' : Env} (hflow : env'.flowHistory = env.flowHistory)
    (htime : env'.timestamp = env.timestamp) (recipient : Address) (cumulativeAmount : Int) :
    recordFlow env' recipient cumulativeAmount = recordFlow env recipient cumulativeAmount := by
  unfold recordFlow
  rw [hflow, htime]

end TaxReporting

/-! ### `audit_log.rs` -/

namespace AuditLog

def emitEveryNTxs : Nat := 100

/-- `n` in `width` big-endian bytes. -/
def toBeBytes (width : Nat) (n : Nat) : Bytes :=
  (List.range width).reverse.map fun i => UInt8.ofNat (n / 256 ^ i)

/-- An `i128` in 16 big-endian bytes, in two's complement. -/
def i128ToBeBytes (x : Int) : Bytes := toBeBytes 16 (x % 2 ^ 128).toNat

def zeroHash : Bytes := List.replicate 32 0

def leafHash (env : Env) (grantId : Nat) (balance : Int) : Bytes :=
  env.host.sha256 (toBeBytes 8 grantId ++ i128ToBeBytes balance)

def parentHash (env : Env) (left right : Bytes) : Bytes := env.host.sha256 (left ++ right)

/-- The layer above: neighbours hashed in pairs, an odd last node with itself. -/
def nextLayer (env : Env) : List Bytes → List Bytes
  | left :: right :: rest => parentHash env left right :: nextLayer env rest
  | [left] => [parentHash env left left]
  | [] => []

/-- Go up from `current` until one node is left. Each layer is shorter than the
one below it, so `fuel = current.length` is enough. -/
def climb (env : Env) : Nat → List Bytes → Bytes
  | _, [] => zeroHash
  | _, [root] => root
  | 0, root :: _ => root
  | fuel + 1, current => climb env fuel (nextLayer env current)

def computeRoot (env : Env) (leaves : List Bytes) : Bytes := climb env leaves.length leaves

/-- Replace the leaf of `grantId` (its id modulo 256, taken as a `u32`) and
publish a root every 100 calls. -/
def updateAuditLeaf (env : Env) (grantId : Nat) (balance : Int) : AuditState :=
  let txCounter := min (env.audit.txCounter + 1) (2 ^ 32 - 1)
  let newLeaf := leafHash env grantId balance
  let idx := grantId % 2 ^ 32 % 256
  let leaves := env.audit.merkleLeaves
  let leaves := leaves ++ List.replicate (idx + 1 - leaves.length) zeroHash
  let merkleLeaves := leaves.set idx newLeaf
  let merkleRoot :=
    if txCounter % emitEveryNTxs = 0 then some (computeRoot env merkleLeaves)
    else env.audit.merkleRoot
  { txCounter, merkleLeaves, merkleRoot }

/-! What the log computes depends on the environment through the hash and the log. -/

section

variable {env env' : Env}

theorem parentHash_congr (h : env'.host = env.host) : parentHash env' = parentHash env := by
  unfold parentHash
  rw [h]

theorem nextLayer_congr (h : env'.host = env.host) (layer : List Bytes) :
    nextLayer env' layer = nextLayer env layer := by
  induction layer using nextLayer.induct with
  | case1 left right rest ih =>
      unfold nextLayer
      rw [ih, parentHash_congr h]
  | case2 left =>
      unfold nextLayer
      rw [parentHash_congr h]
  | case3 => rfl

theorem climb_congr (h : env'.host = env.host) (fuel : Nat) (current : List Bytes) :
    climb env' fuel current = climb env fuel current := by
  induction fuel generalizing current with
  | zero => rcases current with _ | ⟨root, _ | ⟨next, rest⟩⟩ <;> rfl
  | succ fuel ih =>
      rcases current with _ | ⟨root, _ | ⟨next, rest⟩⟩
      · rfl
      · rfl
      · show climb _ fuel (nextLayer _ _) = _
        rw [nextLayer_congr h, ih]
        rfl

theorem updateAuditLeaf_congr (haudit : env'.audit = env.audit) (hhost : env'.host = env.host)
    (grantId : Nat) (balance : Int) :
    updateAuditLeaf env' grantId balance = updateAuditLeaf env grantId balance := by
  have hroot : computeRoot env' = computeRoot env :=
    funext fun leaves => climb_congr hhost leaves.length leaves
  unfold updateAuditLeaf leafHash
  rw [hroot, haudit, hhost]

end

end AuditLog

/-! ### `public_dashboard.rs` -/

namespace PublicDashboard

def heartbeatIntervalSecs : Nat := 24 * 60 * 60

def significantChangeBps : Int := 500

/-- Record a heartbeat once a day or on a 5% change of the TVL. -/
def heartbeatEmit (env : Env) (totalTvl : Int) : Res (DashboardState × Bool) := do
  let now := env.timestamp
  let lastTvl := env.dashboard.lastTvl
  let timeElapsed := decide (now - env.dashboard.lastHeartbeat ≥ heartbeatIntervalSecs)
  let significantChange ←
    if lastTvl > 0 then do
      let change ← orTrap (I128.checkedSub totalTvl lastTvl)
      let delta ← orTrap (I128.check |change|)
      pure (decide ((I128.saturatingMul delta 10000).tdiv lastTvl ≥ significantChangeBps))
    else pure (decide (totalTvl > 0))
  if !timeElapsed && !significantChange then pure (env.dashboard, false)
  else pure ({ lastHeartbeat := now, lastTvl := totalTvl }, true)

end PublicDashboard

end YieldTrust.GrantStream
