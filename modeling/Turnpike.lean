import Turnpike.Admission.Bank
import Turnpike.Admission.Breaker
import Turnpike.Admission.Limiter
import Turnpike.Application
import Turnpike.Balancer
import Turnpike.CommandLine
import Turnpike.Decimal.Reading
import Turnpike.Decimal.Shortest
import Turnpike.Dict
import Turnpike.Endpoint
import Turnpike.Engine
import Turnpike.Exchange
import Turnpike.Expiring
import Turnpike.Failure
import Turnpike.Governance
import Turnpike.Invocation.Attempt
import Turnpike.Invocation.Basic
import Turnpike.Invocation.Dialogue
import Turnpike.Invocation.Invoker
import Turnpike.Invocation.Pool
import Turnpike.Json.Decode
import Turnpike.Json.Document
import Turnpike.Json.Edit
import Turnpike.Json.Number
import Turnpike.Json.Printer
import Turnpike.Json.Problem
import Turnpike.Json.Reader
import Turnpike.Json.Shown
import Turnpike.Json.Text
import Turnpike.Json.Value
import Turnpike.Main
import Turnpike.Policy.Config
import Turnpike.Policy.Error
import Turnpike.Policy.Rules
import Turnpike.Policy.Service
import Turnpike.Policy.Store
import Turnpike.Proofs.Admissions
import Turnpike.Proofs.Bookings
import Turnpike.Proofs.BreakerCycle
import Turnpike.Proofs.Breakers
import Turnpike.Proofs.Budgets
import Turnpike.Proofs.Charges
import Turnpike.Proofs.Conservation
import Turnpike.Proofs.Decoders
import Turnpike.Proofs.Depot
import Turnpike.Proofs.Dispatches
import Turnpike.Proofs.Engines
import Turnpike.Proofs.ExactDoubles
import Turnpike.Proofs.Fleet
import Turnpike.Proofs.HookGrammar
import Turnpike.Proofs.HookProtocol
import Turnpike.Proofs.Interleavings
import Turnpike.Proofs.Layouts
import Turnpike.Proofs.Ledger
import Turnpike.Proofs.Literals
import Turnpike.Proofs.Location
import Turnpike.Proofs.Milestones
import Turnpike.Proofs.Monitors
import Turnpike.Proofs.Narrowing
import Turnpike.Proofs.OpenCircuit
import Turnpike.Proofs.OrderedDoubles
import Turnpike.Proofs.Origins
import Turnpike.Proofs.Permits
import Turnpike.Proofs.PrivateState
import Turnpike.Proofs.Resolution
import Turnpike.Proofs.Retention
import Turnpike.Proofs.RetryBudget
import Turnpike.Proofs.RetryLoop
import Turnpike.Proofs.RoundTrips
import Turnpike.Proofs.Runs
import Turnpike.Proofs.Selection
import Turnpike.Proofs.Settlement
import Turnpike.Proofs.SimEndpoints
import Turnpike.Proofs.SlidingWindow
import Turnpike.Proofs.Slots
import Turnpike.Proofs.StoreHistory
import Turnpike.Proofs.Stretches
import Turnpike.Proofs.Targets
import Turnpike.Proofs.Trials
import Turnpike.Proofs.Tripping
import Turnpike.Proofs.Ungoverned
import Turnpike.Proofs.Unrepeated
import Turnpike.Proofs.Untried
import Turnpike.Proofs.Updates
import Turnpike.Proofs.Verdicts
import Turnpike.Proofs.WindowCounts
import Turnpike.Random.ChaCha
import Turnpike.Random.Seeding
import Turnpike.Random.Xoshiro
import Turnpike.Readiness
import Turnpike.Registry
import Turnpike.Rehearsal.Basic
import Turnpike.Rehearsal.Script
import Turnpike.Rehearsal.Transcript
import Turnpike.Retrier
import Turnpike.Sim.Behavior
import Turnpike.Sim.Cluster
import Turnpike.Sim.Harness
import Turnpike.Sim.Plan
import Turnpike.Sim.Seed
import Turnpike.Sim.Summary
import Turnpike.Timed
import Turnpike.Uuid
import Turnpike.Proofs.Identifiers
import Turnpike.Proofs.LabelPasses
import Turnpike.Proofs.PolicyDocuments
import Turnpike.Proofs.Refills
import Turnpike.Proofs.Rotation
import Turnpike.Proofs.Shares
