import CapsuleAnchor.HashTree
import CapsuleAnchor.Canonical
import CapsuleAnchor.Ct
import CapsuleAnchor.Program
import CapsuleAnchor.Types
import CapsuleAnchor.Statement
import CapsuleAnchor.Log
import CapsuleAnchor.Sha256
import CapsuleAnchor.Reference
import CapsuleAnchor.Store
import CapsuleAnchor.Service
import CapsuleAnchor.Runs
import CapsuleAnchor.Sequential
import CapsuleAnchor.Registration
import CapsuleAnchor.Steps
import CapsuleAnchor.Receipts
import CapsuleAnchor.Continuity
import CapsuleAnchor.Policy
import CapsuleAnchor.Dedup
import CapsuleAnchor.Migration
import CapsuleAnchor.Interleaving
import CapsuleAnchor.Identity
import CapsuleAnchor.Contract
import CapsuleAnchor.Heads
import CapsuleAnchor.Races
import CapsuleAnchor.Backends
import CapsuleAnchor.FirstWins
import CapsuleAnchor.Equivocations
import CapsuleAnchor.Surface
import CapsuleAnchor.Resubmission
import CapsuleAnchor.Roots
import CapsuleAnchor.Digests
import CapsuleAnchor.Submitters
import CapsuleAnchor.CheckpointWire
import CapsuleAnchor.Torn
import CapsuleAnchor.Mirrors
import CapsuleAnchor.Agreement
import CapsuleAnchor.ReadsAgree
import CapsuleAnchor.Soundness
import CapsuleAnchor.Texts
import CapsuleAnchor.JsonValue
import CapsuleAnchor.Purposes
import CapsuleAnchor.Countersign
import CapsuleAnchor.Verdicts
import CapsuleAnchor.CountersignRouter
import CapsuleAnchor.Rails
import CapsuleAnchor.LogView
import CapsuleAnchor.Evidence
import CapsuleAnchor.Deliveries
import CapsuleAnchor.HashTerms
import CapsuleAnchor.TenantTree
import CapsuleAnchor.Isolation
import CapsuleAnchor.Shadowing
import CapsuleAnchor.Opaque
import CapsuleAnchor.Counter
import CapsuleAnchor.Conformance
import CapsuleAnchor.Watcher
import CapsuleAnchor.Forks
import CapsuleAnchor.Relational
import CapsuleAnchor.Erasure
import CapsuleAnchor.Base64
import CapsuleAnchor.Routes
import CapsuleAnchor.Serving
import CapsuleAnchor.Throttle
import CapsuleAnchor.Witnessing
