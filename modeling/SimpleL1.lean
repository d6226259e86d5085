import SimpleL1.Evm.MatchedTransfers
import SimpleL1.Evm.Reconciliation
import SimpleL1.Evm.Spelling
import SimpleL1.Settlement.LargeWithdrawals
import SimpleL1.Settlement.Constitution
import SimpleL1.Settlement.FailedVotes
import SimpleL1.Settlement.Collection
import SimpleL1.Subject.Rejection
import SimpleL1.Node.RevokedBinding
import SimpleL1.Realm.Idempotence
import SimpleL1.Realm.Commands
import SimpleL1.Realm.Ceremony
import SimpleL1.Realm.Fallback
import SimpleL1.Kernel.MerkleRoot
import SimpleL1.Evm.Receipts
import SimpleL1.Evm.Canonicalizer
import SimpleL1.Evm.FinalityPolicy
import SimpleL1.Js.Order
import SimpleL1.Identity.ProofTransport
import SimpleL1.Identity.ProofEnvelope
import SimpleL1.Mesh.Envelope
import SimpleL1.Mesh.EnvelopeTransport
import SimpleL1.Js.Stable
import SimpleL1.Realm.Activation
import SimpleL1.Realm.Deployment
import SimpleL1.Settlement.FederatedReceipts
import SimpleL1.Settlement.FederationRoot
import SimpleL1.Settlement.Federation
import SimpleL1.Subject.EmailDisclosure
import SimpleL1.Subject.EmailClaims
import SimpleL1.Settlement.Intents
import SimpleL1.Lib.Steps
import SimpleL1.Kernel.DoubleEntry
import SimpleL1.Kernel.SettlementLedger
import SimpleL1.Kernel.SettlementQuorum
import SimpleL1.Kernel.SettlementPacket
import SimpleL1.Lib.Repeats
import SimpleL1.Kernel.Merkle
import SimpleL1.Mesh.OrderIndependence
import SimpleL1.Subject.ClaimLineage
import SimpleL1.Settlement.DailyLimit
import SimpleL1.Wire.NonceReplay
import SimpleL1.Js.Arithmetic
import SimpleL1.Wire.NormalForm
import SimpleL1.Execution.ShadowAgreement
import SimpleL1.Execution.Executor
import SimpleL1.Lib.Kahn
import SimpleL1.Settlement.Epochs
import SimpleL1.Settlement.IssuedReceipts
import SimpleL1.Settlement.Receipts
import SimpleL1.Settlement.Outcomes
import SimpleL1.Settlement.Voting
import SimpleL1.Lib.Ballot
import SimpleL1.Settlement.Governance
import SimpleL1.Settlement.Proofs
import SimpleL1.Js.Replacer
import SimpleL1.Subject.Redelivery
import SimpleL1.Subject.Isolation
import SimpleL1.Subject.EffectiveAuthority
import SimpleL1.Subject.Evaluation
import SimpleL1.Subject.CanonicalState
import SimpleL1.Subject.Authority
import SimpleL1.Lib.Runs
import SimpleL1.Node.ApprovalRuns
import SimpleL1.Node.Approvals
import SimpleL1.Node.ApprovalBinding
import SimpleL1.Lib.Quorum
import SimpleL1.Settlement.Attestations
import SimpleL1.Interpreter.DeviceNames
import SimpleL1.Interpreter.Projection
import SimpleL1.Interpreter.History
import SimpleL1.Interpreter.Canonical
import SimpleL1.Interpreter.Conformance
import SimpleL1.Interpreter.Value
import SimpleL1.Realm.Founding
import SimpleL1.Node.StaleAuthorization
import SimpleL1.Node.FinalRevocation
import SimpleL1.Node.GrantCalls
import SimpleL1.Node.Resolution
import SimpleL1.Lib.Precedence
import SimpleL1.Lib.Catchup
import SimpleL1.Kernel.Simulator
import SimpleL1.Lib.KeepLeast
import SimpleL1.Kernel.Sequencer
import SimpleL1.Kernel.Conservation
import SimpleL1.Kernel.Replay
import SimpleL1.Kernel.State
import SimpleL1.Lib.SortedMap
import SimpleL1.Lib.Triple
import SimpleL1.Node.Names
import SimpleL1.Node.Reservations
import SimpleL1.Node.Lockout
import SimpleL1.Node.Credentials
import SimpleL1.Node.Routes
import SimpleL1.Node.ExternalFacts
import SimpleL1.Node.Payments
import SimpleL1.Lib.Register
import SimpleL1.Node.Lineage
import SimpleL1.Node.Revocation
import SimpleL1.Node.Identity
import SimpleL1.Node.Keys
import SimpleL1.Node.Order
import SimpleL1.Lib.Reorder
import SimpleL1.Node.Gossip
import SimpleL1.Node.Delivery
import SimpleL1.Node.StateRoot
import SimpleL1.Node.Failure
import SimpleL1.Node.Verdict
import SimpleL1.Node.Footprint
import SimpleL1.Node.ApplyEvent
import SimpleL1.Node.Accounts
import SimpleL1.Node.Sellers
import SimpleL1.Node.Settlement
import SimpleL1.Node.Grants
import SimpleL1.Node.Ledger
import SimpleL1.Lib.Assoc
import SimpleL1.Node.Platform
import SimpleL1.Lib.Effect
import SimpleL1.Realm.Backup
import SimpleL1.Realm.Integrity
import SimpleL1.Realm.Snapshot
import SimpleL1.Js.Array
import SimpleL1.Realm.Plain
import SimpleL1.Realm.Encoding
import SimpleL1.Realm.Validator
import SimpleL1.Lib.HashChain
import SimpleL1.Realm.Change
import SimpleL1.Realm.Chain
import SimpleL1.Realm.Acceptance
import SimpleL1.Realm.Pipeline
import SimpleL1.Realm.LiveState
import SimpleL1.Realm.Payload
import SimpleL1.Realm.Succession
import SimpleL1.Realm.Coverage
import SimpleL1.Realm.Freshness
import SimpleL1.Realm.Confinement
import SimpleL1.Realm.DeviceSubmission
import SimpleL1.Realm.Untimed
import SimpleL1.Realm.Commitment
import SimpleL1.Realm.RemoteHistory
import SimpleL1.Realm.Execution
import SimpleL1.Realm.Transport
import SimpleL1.Realm.Replication
import SimpleL1.Realm.Convergence
import SimpleL1.Node.UniqueNames
import SimpleL1.Kernel.Followers
import SimpleL1.Interpreter.Agreement
import SimpleL1.Execution.Artifact
import SimpleL1.Execution.Scheduler
import SimpleL1.Execution.Shadow
import SimpleL1.Wire.Canonical
import SimpleL1.Wire.Verifier
import SimpleL1.Execution.LeastOrder
import SimpleL1.Settlement.FinishedIntents
import SimpleL1.Subject.DriftReport
import SimpleL1.Node.RuntimeStore
import SimpleL1.Lib.Lucas
import SimpleL1.Lib.Rounds
import SimpleL1.Kernel.Poseidon
import SimpleL1.Kernel.CanonicalJson
import SimpleL1.Lib.Tree
import SimpleL1.Node.ArtifactText
import SimpleL1.Realm.Separation
import SimpleL1.Lib.Scan
import SimpleL1.Lib.Window
import SimpleL1.Settlement.Rules
import SimpleL1.Settlement.Verdicts
import SimpleL1.Settlement.EventBus
import SimpleL1.Settlement.StateMachine
import SimpleL1.Realm.Gate
import SimpleL1.Realm.Release
import SimpleL1.Realm.Provenance
import SimpleL1.Realm.Surfaces
import SimpleL1.Lib.Growth
import SimpleL1.Realm.Service
