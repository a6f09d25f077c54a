import Knitout.Text
import Knitout.Numeral
import Knitout.Magnitude.Basic
import Knitout.Magnitude.Decimal
import Knitout.Magnitude.Shortest
import Knitout.Length
import Knitout.Table
import Knitout.Needle
import Knitout.Loops
import Knitout.Instruction.Basic
import Knitout.Instruction.Printer
import Knitout.Instruction.Parser
import Knitout.Machine.State
import Knitout.Machine.Rules
import Knitout.Machine.Replay
import Knitout.Machine.Snapshot
import Knitout.Json
import Knitout.Diagnostic
import Knitout.Report
import Knitout.Program
import Knitout.Carrier
import Knitout.Header
import Knitout.Lowering.Error
import Knitout.Lowering.Command
import Knitout.Lowering.Output
import Knitout.Lowering.Context
import Knitout.Lowering.Feeder
import Knitout.Lowering.Loops
import Knitout.Lowering.Basic
import Knitout.Journal
import Knitout.Options.Basic
import Knitout.Options.Parser
import Knitout.Settings
import Knitout.FileTree
import Knitout.Session.Basic
import Knitout.Session.Checker
import Knitout.Session.Converter
import Knitout.Main
import Knitout.Proofs.Rounding
import Knitout.Proofs.Words
import Knitout.Proofs.Numerals
import Knitout.Proofs.Readback
import Knitout.Proofs.Account
import Knitout.Proofs.Agreement
import Knitout.Proofs.Lengths
import Knitout.Proofs.Rejecting
import Knitout.Proofs.Grammar
import Knitout.Proofs.Sessions
import Knitout.Proofs.Usage
import Knitout.Proofs.Trails
import Knitout.Proofs.Protocol
import Knitout.Proofs.Travel
import Knitout.Proofs.WordMachine
import Knitout.Proofs.Inputs
import Knitout.Proofs.Online
import Knitout.Proofs.Columns
import Knitout.Proofs.Inert
import Knitout.Proofs.Symmetry
import Knitout.Proofs.Status
import Knitout.Proofs.Precedence
import Knitout.Proofs.Writing
import Knitout.Proofs.Causes
import Knitout.Proofs.JsonText
import Knitout.Proofs.Stream
import Knitout.Proofs.Consistency
import Knitout.Proofs.Tallies
import Knitout.Proofs.Independence
import Knitout.Proofs.Strides
import Knitout.Proofs.Placeholders
import Knitout.Proofs.Racking
import Knitout.Proofs.Objections
import Knitout.Proofs.Transfers
import Knitout.Proofs.Snapshots
import Knitout.Proofs.HeaderBlock
import Knitout.Proofs.Fractions
import Knitout.Proofs.Needles
import Knitout.Proofs.Annotations
import Knitout.Proofs.Locality
import Knitout.Proofs.Unused
import Knitout.Proofs.Warnings
import Knitout.Proofs.FirstErrors
