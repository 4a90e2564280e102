import Cvere.Assembly.Error
import Cvere.Assembly.Instruction
import Cvere.Assembly.Program
import Cvere.Assembly.Session
import Cvere.Bindings
import Cvere.Decoding
import Cvere.Disassembly.Columns
import Cvere.Disassembly.Disassembler
import Cvere.Disassembly.Operands
import Cvere.Disassembly.Record
import Cvere.Event
import Cvere.Exchange
import Cvere.Image
import Cvere.Json.Basic
import Cvere.Json.Parser
import Cvere.Json.Printer
import Cvere.Json.Token
import Cvere.Label
import Cvere.Label.Argument
import Cvere.Literal
import Cvere.Main
import Cvere.Numeral
import Cvere.Operation
import Cvere.Register
import Cvere.Statement
import Cvere.Text.Alphabetic
import Cvere.Text.Basic
import Cvere.Text.Blank
import Cvere.Text.Line
import Cvere.Text.Order
import Cvere.Text.Upper
import Cvere.Text.Utf8
import Cvere.Tool.Arguments
import Cvere.Tool.Assembler
import Cvere.Tool.Disassembler
import Cvere.Tool.Failure
import Cvere.Tool.FileSystem
import Cvere.Tool.Loading
import Cvere.Tool.Run
import Cvere.Tool.Script
import Cvere.Word
import Cvere.Proofs.Alignment
import Cvere.Proofs.Targets
import Cvere.Proofs.Reassembly
import Cvere.Proofs.Binding
import Cvere.Proofs.Tiling
import Cvere.Proofs.Diagnosis
import Cvere.Proofs.Rendering
import Cvere.Proofs.Relisting
import Cvere.Proofs.Relocation
import Cvere.Proofs.PlainListing
import Cvere.Proofs.Interchange
import Cvere.Proofs.Recovery
import Cvere.Proofs.Failing
import Cvere.Proofs.RawListing
import Cvere.Proofs.Editing
import Cvere.Proofs.Numerals
import Cvere.Proofs.WordListing
import Cvere.Proofs.RegisterNames
import Cvere.Proofs.Immediates
import Cvere.Proofs.LineGrammar
import Cvere.Proofs.Chunks
import Cvere.Proofs.Renaming
import Cvere.Proofs.Locality
import Cvere.Proofs.LabelArguments
