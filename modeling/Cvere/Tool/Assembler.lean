import Cvere.Assembly.Program
import Cvere.Exchange
import Cvere.Tool.Arguments
import Cvere.Tool.Script

/-!
# The assembler tool

Assembles a source file. The program goes to a file as bytes, or to standard output as a listing;
the symbol table can be printed, and the labels can be exported for the disassembler tool.
-/

namespace Cvere

namespace Tool

/-- What the assembler tool is asked to do. -/
structure AssemblerOptions where
  /-- The source file. -/
  input : Text
  /-- The file for the program. -/
  output : Option Text
  /-- Print the listing also when the program goes to a file. -/
  hex : Bool
  /-- Print the symbol table. -/
  symbols : Bool
  /-- The file for the labels. -/
  labelsOut : Option Text
  deriving DecidableEq, Repr

namespace AssemblerOptions

/-- The options of the assembler tool. -/
def rules : List OptionRule :=
  [{ name := "output".toList, letter := some 'o', accepts := some isPath, repeats := false },
    { name := "hex".toList, letter := none, accepts := none, repeats := false },
    { name := "symbols".toList, letter := none, accepts := none, repeats := false },
    { name := "labels-out".toList, letter := none, accepts := some isPath, repeats := false }]

/-- Read the arguments. -/
def parse (arguments : List Text) : Except Stop AssemblerOptions := do
  let (input, a) ← Arguments.parse rules arguments
  return {
    input
    output := a.value? "output".toList
    hex := a.has "hex".toList
    symbols := a.has "symbols".toList
    labelsOut := a.value? "labels-out".toList }

end AssemblerOptions

/-- The program in a source file, laid out and encoded. -/
def loadSource (path : Text) (contents : Except FileError Bytes) :
    Except Failure (Assembly.Program × List Word) := do
  let source ← (textOf contents).mapError (Failure.reading path)
  let program := Assembly.Program.ofSource source
  let words ← program.encode.mapError (Failure.assembling path)
  return (program, words)

/-- A line of the symbol table. -/
def symbolLine (l : Label) : Text :=
  "  ".toList ++ l.name ++ ": 0x".toList ++ Numeral.hex 4 l.address.toNat ++ ['\n']

namespace AssemblerOptions

/-- Write the program to its file, or print the listing. -/
def putProgram (o : AssemblerOptions) (words : List Word) : Script Unit :=
  let listing := Image.toListing words ++ ['\n']
  match o.output with
  | some path => do
    Script.writeFile path (Image.toBytes words) (Failure.writing path)
    Script.printAll (if o.hex then [listing] else [])
  | none => Script.printAll [listing]

/-- The symbol table as it is printed, when it was asked for. -/
def tableTexts (o : AssemblerOptions) (labels : List Label) : List Text :=
  if o.symbols then "\nSymbol table:\n".toList :: labels.map symbolLine else []

/-- Print the symbol table, and write the labels to their file when there is one. -/
def putTable (o : AssemblerOptions) (labels : List Label) : Script Unit := do
  Script.printAll (o.tableTexts labels)
  match o.labelsOut with
  | some path => Script.writeFile path (Text.toUtf8 (Label.listToText labels)) (Failure.writing path)
  | none => pure ()

/-- What the assembler tool does. -/
def script (o : AssemblerOptions) : Script Unit := do
  let (program, words) ← Script.readFile o.input (loadSource o.input)
  o.putProgram words
  o.putTable program.symbols.table

end AssemblerOptions

end Tool

end Cvere
