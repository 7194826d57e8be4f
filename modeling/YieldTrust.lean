import YieldTrust.GrantStream.Payouts
import YieldTrust.GrantStream.IdealStream
import YieldTrust.GrantStream.AccrualBound
import YieldTrust.GrantStream.StatusMachine
import YieldTrust.GrantStream.TerminalFunds
import YieldTrust.GrantStream.LiquidityLock
import YieldTrust.GrantStream.LegalGate
import YieldTrust.GrantStream.RescueSolvency
import YieldTrust.GrantStream.Regions
import YieldTrust.Lib.Quorum
import YieldTrust.GrantStream.CouncilSteps
import YieldTrust.GrantStream.ActionHistory
import YieldTrust.GrantStream.ProtectedClawback
import YieldTrust.GrantStream.ActionIds
import YieldTrust.GrantStream.CouncilTimelock
import YieldTrust.GrantStream.CouncilVeto
import YieldTrust.GrantStream.RescueSteps
import YieldTrust.GrantStream.RescueMultisig
import YieldTrust.GrantStream.RevokedSigners
import YieldTrust.Lib.InvertedIndex
import YieldTrust.GrantStream.GrantIndex
import YieldTrust.GrantStream.Tombstones
import YieldTrust.GrantStream.Deletion
import YieldTrust.GrantStream.DisputedClawback
import YieldTrust.Lib.Window
import YieldTrust.GrantStream.BreakerSteps
import YieldTrust.GrantStream.OracleFreeze
import YieldTrust.GrantStream.VelocityWindow
import YieldTrust.GrantStream.DisputeWindow
import YieldTrust.Lib.Merkle
import YieldTrust.GrantStream.AuditBinding
import YieldTrust.GrantStream.Records
import YieldTrust.Lib.CumulativeLog
import YieldTrust.GrantStream.TaxReport
import YieldTrust.GrantStream.ClaimLog
import YieldTrust.GrantStream.Confidential
import YieldTrust.Lib.DepositPool
import YieldTrust.GrantStream.NativeFlows
import YieldTrust.GrantStream.MilestoneDeposits
import YieldTrust.GrantStream.AuditCoverage
import YieldTrust.Lib.Ledger
import YieldTrust.Lib.ProRata
import YieldTrust.YieldTreasury.Treasury
import YieldTrust.YieldTreasury.Positions
import YieldTrust.YieldTreasury.Health
import YieldTrust.Optimized.Contract
import YieldTrust.Optimized.Transitions
import YieldTrust.Optimized.Lifecycle
import YieldTrust.Optimized.Consensus
import YieldTrust.Lib.Distinct
import YieldTrust.Reputation.Contract
import YieldTrust.Reputation.Updates
import YieldTrust.Reputation.Recount
import YieldTrust.Matching.Contract
import YieldTrust.Matching.Transitions
import YieldTrust.Matching.Ownership
import YieldTrust.Reputation.Influence
import YieldTrust.Matching.Donations
import YieldTrust.Matching.DonorCap
import YieldTrust.Matching.Payouts
import YieldTrust.Optimized.Balances
import YieldTrust.Optimized.Expiry
import YieldTrust.Optimized.Termination
import YieldTrust.Lib.KeyedList
import YieldTrust.MultiToken.Contract
import YieldTrust.MultiToken.Transitions
import YieldTrust.MultiToken.Backing
import YieldTrust.Optimized.Completion
import YieldTrust.Arbitration.Contract
import YieldTrust.MultiToken.Completion
import YieldTrust.Arbitration.Escrow
import YieldTrust.Lib.FixedWidth
import YieldTrust.Bidding.Contract
import YieldTrust.Bidding.Binding
import YieldTrust.Bidding.Reveals
import YieldTrust.SpeedBump.Contract
import YieldTrust.SpeedBump.Queue
import YieldTrust.SpeedBump.Safety
import YieldTrust.Governance.Contract
import YieldTrust.Governance.Transitions
import YieldTrust.Governance.History
import YieldTrust.Governance.Timelock
import YieldTrust.FlashLoan.Contract
import YieldTrust.FlashLoan.Pool
import YieldTrust.FlashLoan.Maturity
import YieldTrust.Upgrade.Contract
import YieldTrust.Upgrade.Ballots
import YieldTrust.Upgrade.Safety
import YieldTrust.GrantGovernance.Contract
import YieldTrust.GrantGovernance.Ballots
import YieldTrust.GrantGovernance.Safety
import YieldTrust.DoubleApproval.Contract
import YieldTrust.DoubleApproval.Requests
import YieldTrust.DoubleApproval.Safety
import YieldTrust.GrantStream.TimeFlow
import YieldTrust.GrantStream.ValidatorShare
import YieldTrust.Lib.Partition
import YieldTrust.GrantStream.WarmupPartition
import YieldTrust.Lib.NewtonSqrt
import YieldTrust.Matching.Distribution
import YieldTrust.GrantStream.Vesting
import YieldTrust.Matching.InfluenceBound
import YieldTrust.QuadraticVoting.Contract
import YieldTrust.QuadraticVoting.VoteCost
import YieldTrust.QuadraticVoting.Tallies
import YieldTrust.ClawbackResilient.Contract
import YieldTrust.ClawbackResilient.SharePrice
import YieldTrust.YieldTreasury.Harvest
import YieldTrust.Optimized.Evidence
import YieldTrust.MultiToken.Results
import YieldTrust.MultiToken.Additions
import YieldTrust.DeadMansSwitch.Contract
import YieldTrust.DeadMansSwitch.Safety
import YieldTrust.Succession.Contract
import YieldTrust.Succession.Handover
import YieldTrust.Lib.LazyMeter
import YieldTrust.StreamingYield.Contract
import YieldTrust.StreamingYield.Interest
import YieldTrust.ClawbackResilient.Solvency
import YieldTrust.GrantStream.Reentrancy
import YieldTrust.GrantStream.Authority
import YieldTrust.GrantStream.Independence
import YieldTrust.GrantStream.ClaimValuation
import YieldTrust.GrantStream.SubmissionOrder
import YieldTrust.GrantStream.RentBuffer
import YieldTrust.Optimized.IdealStream
import YieldTrust.Governance.AuditTrail
import YieldTrust.FlashLoan.HoldingPeriod
import YieldTrust.QuadraticVoting.Allocation
import YieldTrust.Bidding.SealedBids
import YieldTrust.QuadraticVoting.Budget
import YieldTrust.GrantStream.ClaimPreviews
import YieldTrust.Screening.Contract
import YieldTrust.YieldTreasury.PoolAssets
import YieldTrust.Screening.Marks
