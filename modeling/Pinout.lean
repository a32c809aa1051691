import Pinout.Catalog
import Pinout.CommandLine.Arguments
import Pinout.CommandLine.FileTree
import Pinout.CommandLine.Flag
import Pinout.CommandLine.Help
import Pinout.CommandLine.Invocation
import Pinout.CommandLine.Log
import Pinout.CommandLine.Path
import Pinout.CommandLine.Refusal
import Pinout.CommandLine.Run
import Pinout.CommandLine.Word
import Pinout.Design
import Pinout.Diagram.Label
import Pinout.Diagram.Svg
import Pinout.Dialect
import Pinout.Interface.Basic
import Pinout.Interface.Direction
import Pinout.Interface.Json
import Pinout.Main
import Pinout.Page
import Pinout.Pattern.Basic
import Pinout.Pattern.Cursor
import Pinout.Pattern.Letters
import Pinout.Pattern.Search
import Pinout.Pipeline
import Pinout.Proofs.Balance
import Pinout.Proofs.CommandLine.Arguments
import Pinout.Proofs.CommandLine.Delivery
import Pinout.Proofs.CommandLine.Effects
import Pinout.Proofs.CommandLine.Files
import Pinout.Proofs.Comments
import Pinout.Proofs.Directions
import Pinout.Proofs.Drawing
import Pinout.Proofs.Extraction
import Pinout.Proofs.Failure
import Pinout.Proofs.Layout.Basic
import Pinout.Proofs.Layout.Read
import Pinout.Proofs.Layout.Scan
import Pinout.Proofs.Layout.Unread
import Pinout.Proofs.Names
import Pinout.Proofs.Palette
import Pinout.Proofs.Pattern.Exchange
import Pinout.Proofs.Pattern.First
import Pinout.Proofs.Pattern.Found
import Pinout.Proofs.Pattern.Groups
import Pinout.Proofs.Pattern.Halting
import Pinout.Proofs.Pattern.Horizon
import Pinout.Proofs.Pattern.Joint
import Pinout.Proofs.Pattern.Keywords
import Pinout.Proofs.Pattern.Locality
import Pinout.Proofs.Pattern.Names
import Pinout.Proofs.Pattern.Onward
import Pinout.Proofs.Pattern.Passage
import Pinout.Proofs.Pattern.Reading
import Pinout.Proofs.Pattern.Scan
import Pinout.Proofs.Pattern.Settled
import Pinout.Proofs.Pattern.Standing
import Pinout.Proofs.Pattern.WholeWord
import Pinout.Proofs.Pattern.Words
import Pinout.Proofs.Registrations
import Pinout.Proofs.Statements
import Pinout.Proofs.Surplus
import Pinout.Proofs.Tables
import Pinout.Proofs.Text.Characters
import Pinout.Proofs.Text.Lines
import Pinout.Proofs.Text.Markup
import Pinout.Proofs.Text.Pairs
import Pinout.Proofs.Text.Places
import Pinout.Proofs.Text.Plain
import Pinout.Proofs.Text.Respaced
import Pinout.Proofs.Text.Trim
import Pinout.Proofs.Verilog.AnsiHeader
import Pinout.Proofs.Verilog.Balance
import Pinout.Proofs.Verilog.CommentScanner
import Pinout.Proofs.Verilog.Comments
import Pinout.Proofs.Verilog.Composition
import Pinout.Proofs.Verilog.Declarations
import Pinout.Proofs.Verilog.Extracted
import Pinout.Proofs.Verilog.Joint
import Pinout.Proofs.Verilog.LooseHeader
import Pinout.Proofs.Verilog.LooseScan
import Pinout.Proofs.Verilog.ParameterReading
import Pinout.Proofs.Verilog.ParameterScan
import Pinout.Proofs.Verilog.PortReading
import Pinout.Proofs.Verilog.PortScan
import Pinout.Proofs.Verilog.ReadBack
import Pinout.Proofs.Verilog.Rereading
import Pinout.Proofs.Verilog.SpacedComments
import Pinout.Proofs.Verilog.TestbenchReadBack
import Pinout.Proofs.Verilog.TestbenchReading
import Pinout.Proofs.Verilog.Told
import Pinout.Proofs.Verilog.Uncommented
import Pinout.Proofs.Verilog.Value
import Pinout.Proofs.Vhdl.ArchitectureReading
import Pinout.Proofs.Vhdl.Balance
import Pinout.Proofs.Vhdl.Clause
import Pinout.Proofs.Vhdl.ClosingJoint
import Pinout.Proofs.Vhdl.Comments
import Pinout.Proofs.Vhdl.ContextReading
import Pinout.Proofs.Vhdl.Declarations
import Pinout.Proofs.Vhdl.EntityHeader
import Pinout.Proofs.Vhdl.Extracted
import Pinout.Proofs.Vhdl.GenericClause
import Pinout.Proofs.Vhdl.GenericOpening
import Pinout.Proofs.Vhdl.GenericReadBack
import Pinout.Proofs.Vhdl.GenericReading
import Pinout.Proofs.Vhdl.GenericScan
import Pinout.Proofs.Vhdl.HeaderAlone
import Pinout.Proofs.Vhdl.HeaderScan
import Pinout.Proofs.Vhdl.LiteralContents
import Pinout.Proofs.Vhdl.LiteralGenerics
import Pinout.Proofs.Vhdl.LiteralPorts
import Pinout.Proofs.Vhdl.LiteralRanges
import Pinout.Proofs.Vhdl.Literals
import Pinout.Proofs.Vhdl.MaskedHeader
import Pinout.Proofs.Vhdl.MissingValues
import Pinout.Proofs.Vhdl.PortClause
import Pinout.Proofs.Vhdl.PortPlaces
import Pinout.Proofs.Vhdl.PortReading
import Pinout.Proofs.Vhdl.QuotePairs
import Pinout.Proofs.Vhdl.ReadBack
import Pinout.Proofs.Vhdl.Rereading
import Pinout.Proofs.Vhdl.Surroundings
import Pinout.Proofs.Vhdl.TestbenchReadBack
import Pinout.Proofs.Vhdl.TestbenchReading
import Pinout.Proofs.Vhdl.Uncommented
import Pinout.Registry.Basic
import Pinout.Registry.Session
import Pinout.Text.Basic
import Pinout.Text.Classes
import Pinout.Text.Digit
import Pinout.Text.Json
import Pinout.Text.Lines
import Pinout.Text.LowerCase
import Pinout.Text.LowerCaseTable
import Pinout.Text.Order
import Pinout.Text.PrintableTable
import Pinout.Text.Quoted
import Pinout.Text.Utf8
import Pinout.Text.WordTable
import Pinout.Verilog.Declaration
import Pinout.Verilog.Instance
import Pinout.Verilog.Testbench
import Pinout.Vhdl.Context
import Pinout.Vhdl.Declaration
import Pinout.Vhdl.Header
import Pinout.Vhdl.Instance
import Pinout.Vhdl.Testbench
