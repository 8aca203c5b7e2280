import Cardplay.Capability.EventBus
import Cardplay.Capability.Logger
import Cardplay.Capability.Registry
import Cardplay.Capability.Services
import Cardplay.Capability.Storage
import Cardplay.Data.Binary
import Cardplay.Data.OrderedMap
import Cardplay.Data.Printer
import Cardplay.Data.Reader
import Cardplay.Data.Shortest
import Cardplay.Data.Value
import Cardplay.Effect.Behaviour
import Cardplay.Effect.Context
import Cardplay.Effect.Exec
import Cardplay.Effect.Introspection
import Cardplay.Effect.Kind
import Cardplay.Effect.Leaf
import Cardplay.Effect.LeafRun
import Cardplay.Effect.Result
import Cardplay.Effect.Targeting
import Cardplay.Effect.Tree
import Cardplay.Error
import Cardplay.Fault
import Cardplay.Journal.Entry
import Cardplay.Journal.Logging
import Cardplay.Proofs.Capability.Chronicle
import Cardplay.Proofs.Capability.Delivery
import Cardplay.Proofs.Capability.HandlerSets
import Cardplay.Proofs.Capability.Isolation
import Cardplay.Proofs.Capability.Ledger
import Cardplay.Proofs.Capability.Lineage
import Cardplay.Proofs.Capability.Namespaces
import Cardplay.Proofs.Capability.Ownership
import Cardplay.Proofs.Capability.Providing
import Cardplay.Proofs.Capability.Sources
import Cardplay.Proofs.Capability.Stock
import Cardplay.Proofs.Capability.Streams
import Cardplay.Proofs.Capability.Subscriptions
import Cardplay.Proofs.Execution.Answer
import Cardplay.Proofs.Execution.Balance
import Cardplay.Proofs.Execution.Chaining
import Cardplay.Proofs.Execution.Conservation
import Cardplay.Proofs.Execution.Derivation
import Cardplay.Proofs.Execution.Failure
import Cardplay.Proofs.Execution.Groups
import Cardplay.Proofs.Execution.Independence
import Cardplay.Proofs.Execution.Indifference
import Cardplay.Proofs.Execution.Library
import Cardplay.Proofs.Execution.Messages
import Cardplay.Proofs.Execution.Multiples
import Cardplay.Proofs.Execution.Pipelines
import Cardplay.Proofs.Execution.Repetition
import Cardplay.Proofs.Execution.Rollback
import Cardplay.Proofs.Execution.Scope
import Cardplay.Proofs.Execution.Siblings
import Cardplay.Proofs.Execution.StopRule
import Cardplay.Proofs.Execution.Upkeep
import Cardplay.Proofs.Execution.Visit
import Cardplay.Proofs.Leaf.Drawing
import Cardplay.Proofs.Leaf.Footprint
import Cardplay.Proofs.Leaf.Health
import Cardplay.Proofs.Leaf.Multiples
import Cardplay.Proofs.Leaf.Queue
import Cardplay.Proofs.Leaf.Run
import Cardplay.Proofs.Leaf.Touch
import Cardplay.Proofs.Leaf.Work
import Cardplay.Proofs.Random.Exchange
import Cardplay.Proofs.Random.Range
import Cardplay.Proofs.Random.Rounding
import Cardplay.Proofs.Random.Shuffling
import Cardplay.Proofs.Shape.Address
import Cardplay.Proofs.Shape.Encoding
import Cardplay.Proofs.Shape.Preorder
import Cardplay.Proofs.Shape.Soundness
import Cardplay.Proofs.Shape.Walk
import Cardplay.Proofs.State.Adjustment
import Cardplay.Proofs.State.Construction
import Cardplay.Proofs.State.Evolution
import Cardplay.Proofs.State.MergeLaws
import Cardplay.Proofs.State.Merging
import Cardplay.Proofs.State.Recheck
import Cardplay.Proofs.State.Reseating
import Cardplay.Proofs.State.SeatWise
import Cardplay.Random.Draw
import Cardplay.Random.Generator
import Cardplay.Script.BusScript
import Cardplay.Script.Formula
import Cardplay.Script.Recipe
import Cardplay.Script.Scripted
import Cardplay.Session
import Cardplay.Settings.Environment
import Cardplay.Settings.Settings
import Cardplay.State.Game
import Cardplay.State.Merge
import Cardplay.State.Player
import Cardplay.State.Record
import Cardplay.Text.Blank
import Cardplay.Text.Printable
import Cardplay.Text.Quoted
import Cardplay.Validation.Issue
import Cardplay.Validation.Reading
import Cardplay.Validation.Signature
