import Reckoner.Binary64.Arithmetic
import Reckoner.Binary64.Basic
import Reckoner.Binary64.Decimal
import Reckoner.Channel.Basic
import Reckoner.Channel.Pipe
import Reckoner.CommandLine.Arguments
import Reckoner.CommandLine.Run
import Reckoner.Evaluation.Queue
import Reckoner.Evaluation.Worker
import Reckoner.EventLog.Entry
import Reckoner.EventLog.File
import Reckoner.Expr.Error
import Reckoner.Expr.Eval
import Reckoner.Expr.Lexer
import Reckoner.Expr.ReversePolish
import Reckoner.Expr.Token
import Reckoner.Files.Tree
import Reckoner.Gateway.Host
import Reckoner.Gateway.Network
import Reckoner.Main
import Reckoner.Net.Address
import Reckoner.News
import Reckoner.Proofs.Channel.Coherence
import Reckoner.Proofs.Channel.Job
import Reckoner.Proofs.Channel.Orderly
import Reckoner.Proofs.Channel.Traffic
import Reckoner.Proofs.Expr.Derivation
import Reckoner.Proofs.Expr.Lexemes
import Reckoner.Proofs.Expr.Precedence
import Reckoner.Registry.Basic
import Reckoner.Schedule.Repeat
import Reckoner.Schedule.Rota
import Reckoner.Server.Basic
import Reckoner.Service.Basic
import Reckoner.Service.Move
import Reckoner.Service.Task
import Reckoner.Session.Basic
import Reckoner.Session.End
import Reckoner.Session.Input
import Reckoner.Session.Refusal
import Reckoner.Settings.Basic
import Reckoner.Settings.Document
import Reckoner.Simulation.Basic
import Reckoner.Simulation.Names
import Reckoner.Simulation.Output
import Reckoner.Simulation.Step
import Reckoner.Text.Blank
import Reckoner.Text.CodeRange
import Reckoner.Text.Invisible
import Reckoner.Text.Joining
import Reckoner.Text.Quoted
import Reckoner.Text.Span
import Reckoner.Text.Split
import Reckoner.Text.Utf8
import Reckoner.Wire.Command
import Reckoner.Wire.Response
import Reckoner.Proofs.Channel.Silence
import Reckoner.Proofs.Service.Step
import Reckoner.Proofs.Session.Naming
import Reckoner.Proofs.Registry.Owners
import Reckoner.Proofs.Registry.Tenancy
import Reckoner.Proofs.Service.Agreement
import Reckoner.Proofs.Channel.Shared
import Reckoner.Proofs.Session.Tickets
import Reckoner.Proofs.Service.Sharing
import Reckoner.Proofs.Service.Order
import Reckoner.Proofs.Channel.Headway
import Reckoner.Proofs.Service.Schedules
import Reckoner.Proofs.Service.Drain
import Reckoner.Proofs.Service.Fifo
import Reckoner.Proofs.Channel.Delivery
import Reckoner.Proofs.Expr.Acceptance
import Reckoner.Proofs.Wire.RoundTrip
import Reckoner.Proofs.Service.Origin
import Reckoner.Proofs.Session.Responses
import Reckoner.Proofs.Channel.Contents
import Reckoner.Proofs.Service.Confinement
import Reckoner.Proofs.Session.Framing
import Reckoner.Proofs.Wire.OneLine
import Reckoner.Proofs.Session.Stage
import Reckoner.Proofs.Service.Transcript
import Reckoner.Proofs.Service.Answering
import Reckoner.Proofs.Service.Farewell
import Reckoner.Proofs.Service.Life
import Reckoner.Proofs.Server.Runs
import Reckoner.Proofs.Service.Asking
import Reckoner.Proofs.Service.Ending
import Reckoner.Proofs.Server.Fairness
import Reckoner.Proofs.Server.Shutdown
import Reckoner.Proofs.Server.Unforged
import Reckoner.Proofs.Wire.Codec
import Reckoner.Proofs.Expr.Substitution
import Reckoner.Proofs.Service.Connections
import Reckoner.Proofs.Server.Places
import Reckoner.Proofs.Expr.Failures
import Reckoner.Proofs.Expr.Lexical
import Reckoner.Proofs.Service.Reports
import Reckoner.Proofs.Service.Rejection
import Reckoner.Proofs.Registry.Replay
import Reckoner.Proofs.CommandLine.Layers
import Reckoner.Proofs.Service.Collapse
import Reckoner.Proofs.Service.Patience
import Reckoner.Proofs.Expr.Whole
