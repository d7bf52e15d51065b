import AxelarCgp.Core.Journal
import AxelarCgp.Core.Licence
import AxelarCgp.Core.Numbering
import AxelarCgp.Gateway.Rotation
import AxelarCgp.Gateway.Signing
import AxelarCgp.Governance.Refunds
import AxelarCgp.Its.Approvals
import AxelarCgp.Its.GasRefunds
import AxelarCgp.Its.Handover
import AxelarCgp.Its.Solvency
import AxelarCgp.Its.Tokens
import AxelarCgp.Its.Transfers
import AxelarCgp.TokenManager.Issues
import AxelarCgp.Its.Inbound
import AxelarCgp.Its.RemoteTokens
import AxelarCgp.Core.HeadTail
import AxelarCgp.Its.AbiLayout
import AxelarCgp.Its.AbiReading
import AxelarCgp.Its.TokenIds
import AxelarCgp.Its.Metadata
import AxelarCgp.Its.Pause
import AxelarCgp.TokenManager.Changes
import AxelarCgp.Its.FlowLimits
import AxelarCgp.Core.Succession
import AxelarCgp.Platform.RoleHolders
import AxelarCgp.Platform.RoleRuns
import AxelarCgp.TokenManager.Minters
import AxelarCgp.Its.Operators
import AxelarCgp.Core.Custody
import AxelarCgp.Governance.RefundLedger
import AxelarCgp.ItsProxy.Contract
import AxelarCgp.ItsProxy.Funds
import AxelarCgp.Its.Lookups
import AxelarCgp.Core.FirstWrite
import AxelarCgp.Gateway.Batches
import AxelarCgp.Governance.Gas
import AxelarCgp.Core.Tally
import AxelarCgp.Gateway.Signatures
import AxelarCgp.Its.FlowViews
import AxelarCgp.GasService.Fees
import AxelarCgp.Its.TokenNames
import AxelarCgp.Core.Passage
import AxelarCgp.PingPong.Contract
import AxelarCgp.PingPong.Users
import AxelarCgp.PingPong.Withdrawals
import AxelarCgp.PingPong.Steps
import AxelarCgp.PingPong.Payments
import AxelarCgp.Core.Projection
import AxelarCgp.Gateway.Authority
import AxelarCgp.Its.Deliveries
import AxelarCgp.TokenManager.Reserves
import AxelarCgp.Its.Emissions
import AxelarCgp.Its.Reserves
import AxelarCgp.Its.Backing
import AxelarCgp.Core.Copies
import AxelarCgp.Its.Executions
import AxelarCgp.Its.Bridge
import AxelarCgp.Governance.Mandates
import AxelarCgp.Gateway.Log
import AxelarCgp.GasService.Accounts
import AxelarCgp.Governance.Execution
import AxelarCgp.ItsProxy.Arrivals
import AxelarCgp.Core.Agreement
import AxelarCgp.Gateway.Board
import AxelarCgp.Gateway.Refinement
import AxelarCgp.Its.Owners
import AxelarCgp.Its.Receipts
import AxelarCgp.Its.Crossings
