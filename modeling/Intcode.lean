import Intcode.Program.Print
import Intcode.Memory.Dump
import Intcode.Memory.Access
import Intcode.Batch.Search
import Intcode.Amplifier.Best
import Intcode.Control.HullRobot
import Intcode.Control.Arcade
import Intcode.Control.Scripted
import Intcode.Control.Loop
import Intcode.Workbench.Perform
import Intcode.Log.Logger
import Intcode.Log.Journal
import Intcode.CommandLine.Commands
import Intcode.Main
import Intcode.Proofs.Reference
import Intcode.Proofs.Content
import Intcode.Proofs.Move
import Intcode.Proofs.Refinement
import Intcode.Proofs.Exchange
import Intcode.Proofs.Feeding
import Intcode.Proofs.Interleaving
import Intcode.Proofs.Process
import Intcode.Proofs.Ring.Processes
import Intcode.Proofs.Ring.Simulation
import Intcode.Proofs.Ring.Confluence
import Intcode.Proofs.Between
import Intcode.Proofs.LongerInput
import Intcode.Proofs.Ring.Deadlock
import Intcode.Proofs.Control.Turn
import Intcode.Proofs.Ring.Signal
import Intcode.Proofs.Control.Readings
import Intcode.Proofs.Channel.History
import Intcode.Proofs.Channel.HangUp
import Intcode.Proofs.Channel.Reads
import Intcode.Proofs.Rewiring
import Intcode.Proofs.OwnFault
import Intcode.Proofs.Chain.Batches
import Intcode.Proofs.Alone
import Intcode.Proofs.Ring.FeedForward
import Intcode.Proofs.Aftermath
import Intcode.Proofs.Memory.Accesses
import Intcode.Proofs.Control.Commands
import Intcode.Proofs.Control.Agents
import Intcode.Proofs.Control.Streams
import Intcode.Proofs.Control.Waiting
import Intcode.Proofs.Memory.Layout
import Intcode.Proofs.Program.Grammar
import Intcode.Proofs.AtConsole
import Intcode.Proofs.Batch.Typed
import Intcode.Proofs.Pipe.EndOfStream
import Intcode.Proofs.InstructionWord
import Intcode.Proofs.Calls
import Intcode.Proofs.Ended
import Intcode.Proofs.Registers
import Intcode.Proofs.HiddenLayout
import Intcode.Proofs.Program.Offender
import Intcode.Proofs.Ring.FirstLink
import Intcode.Proofs.Bindings
import Intcode.Proofs.Trace.Lines
import Intcode.Proofs.Program.RoundTrip
import Intcode.Proofs.Program.LineEnds
import Intcode.Proofs.Text.Requests
import Intcode.Proofs.Batch.Search
import Intcode.Proofs.Amplifier.Orderings
import Intcode.Proofs.Network.Join
import Intcode.Proofs.Control.Grid
import Intcode.Proofs.Control.Walk
import Intcode.Proofs.Control.Screen
import Intcode.Proofs.Control.Pictures
import Intcode.Proofs.Control.HullPicture
import Intcode.Proofs.Control.ArcadePicture
import Intcode.Proofs.Control.Ends
import Intcode.Proofs.Enough
import Intcode.Proofs.Amplifier.Returns
import Intcode.Proofs.Amplifier.Best
import Intcode.Proofs.CommandLine.Work
import Intcode.Proofs.CommandLine.Fate
import Intcode.Proofs.CommandLine.Failures
import Intcode.Proofs.CommandLine.Causes
import Intcode.Proofs.CommandLine.ExitCodes
import Intcode.Proofs.Text.Words
import Intcode.Proofs.Memory.Dump
