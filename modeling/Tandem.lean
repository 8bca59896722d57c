import Tandem.OrderedMap
import Tandem.Number.Binary64
import Tandem.Number.Rounding
import Tandem.Number.Shortest
import Tandem.Number.DecimalText
import Tandem.Number.Reader
import Tandem.Text.Blank
import Tandem.Text.Digits
import Tandem.Text.Pieces
import Tandem.Identity
import Tandem.Duration
import Tandem.Duration.Text
import Tandem.Fault
import Tandem.Session.Time
import Tandem.Session.StampClock
import Tandem.Session.Clock
import Tandem.Session.Input
import Tandem.Session.Mutation
import Tandem.Task
import Tandem.Task.Value
import Tandem.Task.Defaults
import Tandem.Task.Effects
import Tandem.Scenario.Command
import Tandem.Scenario.Grammar
import Tandem.Scenario.Load
import Tandem.Scenario.Queue
import Tandem.Wire.Octets
import Tandem.Wire.Message
import Tandem.Wire.Payload
import Tandem.Wire.Frame
import Tandem.Wire.Stream
import Tandem.Json.Numeral
import Tandem.Json.Token
import Tandem.Json.Tree
import Tandem.Json.Writer
import Tandem.Json.Input
import Tandem.Store.TaskState
import Tandem.Store.Basic
import Tandem.Store.Record
import Tandem.Matching.Scene
import Tandem.Matching.Round
import Tandem.Matching.Coordinator
import Tandem.Battery
import Tandem.Reconciler
import Tandem.Link.Sequence
import Tandem.Link.Basic
import Tandem.Peer.Address
import Tandem.Peer.Config
import Tandem.Peer.ConfigText
import Tandem.Peer.Basic
import Tandem.Peer.Step
import Tandem.Peer.Summary
import Tandem.Simulation.Ends
import Tandem.Simulation.Bench
import Tandem.Simulation.Channel
import Tandem.Simulation.Pair
import Tandem.Simulation.Handover
import Tandem.Proofs.Text.Pieces
import Tandem.Proofs.Scenario.Lines
import Tandem.Proofs.Wire.RoundTrip
import Tandem.Proofs.Link.Stream
import Tandem.Proofs.Link.Exchange
import Tandem.Proofs.Link.Delivery
import Tandem.Proofs.Peer.Runs
import Tandem.Proofs.Peer.Script
import Tandem.Proofs.Session.Stamps
import Tandem.Proofs.Store.Cells
import Tandem.Proofs.Store.LastWriter
import Tandem.Proofs.Store.Again
import Tandem.Proofs.Task.InputWrites
import Tandem.Proofs.Scenario.Scripted
import Tandem.Proofs.Task.Counters
import Tandem.Proofs.Reconcile.Sides
import Tandem.Proofs.Reconcile.Exchanges
import Tandem.Proofs.Reconcile.Messages
import Tandem.Proofs.Reconcile.Convergence
import Tandem.Proofs.Reconcile.Replays
import Tandem.Proofs.Reconcile.Acknowledgements
import Tandem.Proofs.Link.Contents
import Tandem.Proofs.Matching.Scripted
import Tandem.Proofs.Matching.Shown
import Tandem.Proofs.Peer.Duet
import Tandem.Proofs.Wire.Frames
import Tandem.Proofs.Link.Connection
import Tandem.Proofs.Link.Lifecycle
import Tandem.Proofs.Link.Recovery
import Tandem.Proofs.Link.Line
import Tandem.Proofs.Link.Continuity
import Tandem.Proofs.Link.Heartbeats
import Tandem.Proofs.Link.Voices
import Tandem.Proofs.Link.Lanes
import Tandem.Proofs.Matching.SelectionStamps
import Tandem.Proofs.Matching.Entries
import Tandem.Proofs.Peer.Speech
import Tandem.Proofs.Link.Crossing
import Tandem.Proofs.Peer.Chronicle
import Tandem.Proofs.Peer.Watermark
import Tandem.Proofs.Wire.Chunks
import Tandem.Proofs.Peer.Deeds
import Tandem.Proofs.Peer.Turns
import Tandem.Proofs.Peer.Finished
import Tandem.Proofs.Peer.Conversation
import Tandem.Proofs.Peer.ScriptedPauses
import Tandem.Proofs.Peer.Phases
import Tandem.Proofs.Scenario.Dispatch
import Tandem.Proofs.Store.Replay
import Tandem.Proofs.Store.History
import Tandem.Proofs.Peer.MutationLog
import Tandem.Proofs.Peer.PhaseClock
import Tandem.Proofs.Matching.RanOut
import Tandem.Proofs.Scenario.Rehearsal
import Tandem.Proofs.Store.Views
import Tandem.Proofs.Matching.Interleavings
import Tandem.Proofs.Matching.Lifecycle
import Tandem.Proofs.Matching.Mirror
import Tandem.Proofs.Peer.Desk
import Tandem.Proofs.Peer.Mirrors
import Tandem.Proofs.Session.Causality
import Tandem.Proofs.Peer.InputBooks
import Tandem.Proofs.Peer.InputPairs
import Tandem.Proofs.Peer.Held
import Tandem.Proofs.Peer.Calls
import Tandem.Proofs.Peer.Backpressure
import Tandem.Proofs.Peer.Partner
import Tandem.Proofs.Matching.Kinds
import Tandem.Proofs.Scenario.Policies
import Tandem.Proofs.Scenario.Endings
import Tandem.Proofs.Reconcile.Locality
import Tandem.Proofs.Peer.News
import Tandem.Proofs.Task.Furnishing
import Tandem.Proofs.Peer.Furnished
import Tandem.Proofs.Session.Slices
import Tandem.Proofs.Wire.Strictness
import Tandem.Proofs.Task.Lamps
import Tandem.Proofs.Reconcile.Lights
import Tandem.Proofs.Reconcile.Attribution
import Tandem.Proofs.Simulation.Passage
import Tandem.Proofs.Simulation.Differences
import Tandem.Proofs.Link.Window
