import SmartCard.Hex
import SmartCard.Status
import SmartCard.ExchangeError
import SmartCard.ExchangeError.Source
import SmartCard.Response
import SmartCard.Command
import SmartCard.Command.Encoding
import SmartCard.Command.Shape
import SmartCard.Exchange
import SmartCard.Chain
import SmartCard.Layer
import SmartCard.Transport
import SmartCard.Duration
import SmartCard.Text.Blank
import SmartCard.Protocol
import SmartCard.CardData
import SmartCard.SessionError
import SmartCard.Event
import SmartCard.StartRequest
import SmartCard.Runner.Config
import SmartCard.Rendezvous
import SmartCard.Rendezvous.Handle
import SmartCard.Rendezvous.Holding
import SmartCard.Rendezvous.Listening
import SmartCard.Rendezvous.Split
import SmartCard.Rendezvous.Sharing
import SmartCard.Session
import SmartCard.Session.Contention
import SmartCard.TaskError
import SmartCard.Interrupt
import SmartCard.Text.Unseen
import SmartCard.Text.Quoted
import SmartCard.Task
import SmartCard.Runner.State
import SmartCard.Runner.Input
import SmartCard.Runner.Watch
import SmartCard.Runner.Point
import SmartCard.Runner.Machine
import SmartCard.Bench.Script
import SmartCard.Bench.Reader
import SmartCard.Bench.Rehearsal
import SmartCard.Bench.Worker
import SmartCard.Proofs.Error.Contexts
import SmartCard.Proofs.Error.Conversions
import SmartCard.Proofs.Rendezvous.Correlation
import SmartCard.Proofs.Rendezvous.Closing
import SmartCard.Proofs.Session.Ending
import SmartCard.Proofs.Runner.Commands
import SmartCard.Proofs.Runner.Instants
import SmartCard.Proofs.Runner.Story
import SmartCard.Proofs.Command.RoundTrip
import SmartCard.Proofs.Layer.Faults
import SmartCard.Proofs.Layer.Conversation
import SmartCard.Proofs.Layer.Nesting
import SmartCard.Proofs.Layer.Bounds
import SmartCard.Proofs.Task.Cancellation
import SmartCard.Proofs.Interrupt.Tokens
import SmartCard.Proofs.Interrupt.Sleeping
import SmartCard.Proofs.Runner.Dialogue
import SmartCard.Proofs.Runner.Phases
import SmartCard.Proofs.Runner.InStep
import SmartCard.Proofs.Runner.Agreement
import SmartCard.Proofs.Runner.Showing
import SmartCard.Proofs.Runner.Lifting
import SmartCard.Proofs.Runner.Diagram
import SmartCard.Proofs.Runner.Records
import SmartCard.Proofs.Runner.Lasting
import SmartCard.Proofs.Runner.Watching
import SmartCard.Proofs.Runner.Surfacing
import SmartCard.Proofs.Runner.Isolation
import SmartCard.Proofs.Runner.Stopping
import SmartCard.Proofs.Layer.Endings
import SmartCard.Proofs.Rendezvous.OwnAnswers
import SmartCard.Proofs.Runner.Barrier
import SmartCard.Proofs.Runner.Attempts
import SmartCard.Command.Positions
import SmartCard.Proofs.Command.Exactness
import SmartCard.Exchange.Awaited
import SmartCard.Proofs.Layer.Frames
import SmartCard.Proofs.Layer.Transparency
import SmartCard.Proofs.Layer.Assembly
import SmartCard.Proofs.Command.Canonical
import SmartCard.Proofs.Command.Foresight
import SmartCard.Proofs.Layer.Correction
import SmartCard.Proofs.Runner.Concluding
import SmartCard.Proofs.Rendezvous.Waiting
import SmartCard.Proofs.Rendezvous.Overtaking
import SmartCard.Proofs.Rendezvous.Traces
import SmartCard.Proofs.Runner.Giving
import SmartCard.Proofs.Runner.IdleClock
import SmartCard.Proofs.Runner.Overlooked
