import Cvere.Tool.Arguments
import Cvere.Tool.Loading
import Cvere.Tool.Script

/-!
# The disassembler tool

Disassembles a program file to a listing or to JSON. Names for addresses come from a file of labels
and from the command line, and a listing shows a name on a line before the record it belongs to.

The program is loaded first, then the address of the first word is read, then the file of labels,
and then the labels of the command line from left to right; the first of these that fails is
reported.
-/

namespace Cvere

namespace Tool

/-- The form of the output. -/
inductive OutputFormat where
  | text
  | json
  deriving DecidableEq, Repr

/-- What the disassembler tool is asked to do. -/
structure DisassemblerOptions where
  /-- The program file. -/
  input : Text
  inputFormat : ProgramFormat
  /-- The address of the first word, as it was given. -/
  base : Text
  config : Disassembly.Config
  /-- A file of labels. -/
  labelsIn : Option Text
  /-- Labels as they were given. -/
  labels : List Text
  format : OutputFormat
  /-- A file for the output. -/
  out : Option Text
  deriving DecidableEq, Repr

namespace DisassemblerOptions

/-- The options of the disassembler tool. -/
def rules : List OptionRule :=
  [{ name := "input-format".toList, letter := none, accepts := some (isChoice ["bin", "hex"]),
      repeats := false },
    { name := "base".toList, letter := none, accepts := some fun _ => true, repeats := false },
    { name := "no-raw".toList, letter := none, accepts := none, repeats := false },
    { name := "no-annotations".toList, letter := none, accepts := none, repeats := false },
    { name := "word-stride".toList, letter := none, accepts := none, repeats := false },
    { name := "labels-in".toList, letter := none, accepts := some isPath, repeats := false },
    { name := "label".toList, letter := none, accepts := some fun _ => true, repeats := true },
    { name := "format".toList, letter := none, accepts := some (isChoice ["text", "json"]),
      repeats := false },
    { name := "out".toList, letter := none, accepts := some isPath, repeats := false }]

/-- Read the arguments. -/
def parse (arguments : List Text) : Except Stop DisassemblerOptions := do
  let (input, a) ← Arguments.parse rules arguments
  return {
    input
    inputFormat :=
      if a.value? "input-format".toList = some "hex".toList then .listing else .binary
    base := (a.value? "base".toList).getD ['0']
    config := {
      columns := .ofFlags (!a.has "no-raw".toList) (!a.has "no-annotations".toList)
      wordStride := a.has "word-stride".toList }
    labelsIn := a.value? "labels-in".toList
    labels := a.values "label".toList
    format := if a.value? "format".toList = some "json".toList then .json else .text
    out := a.value? "out".toList }

/-- Load the labels of the file, when there is one. -/
def importedLabels (o : DisassemblerOptions) : Script (List Label) :=
  match o.labelsIn with
  | some path => Script.readFile path (loadLabels path)
  | none => pure []

/-- The output for a program. -/
def outputText (o : DisassemblerOptions) (base : Address) (labels : List Label)
    (words : List Word) : Text :=
  let d : Disassembly.Disassembler :=
    { Disassembly.Disassembler.standard with config := o.config }.extendLabels labels
  match o.format with
  | .text => d.labelledListing base words
  | .json => Disassembly.Record.listToText (d.records base words)

/-- Read and check everything that was given, and make the text of the output. -/
def text (o : DisassemblerOptions) : Script Text := do
  let words ← Script.readFile o.input (loadProgram o.inputFormat o.input)
  let base ← Script.check ((readAddress o.base).mapError Failure.badBase)
  let imported ← o.importedLabels
  let given ← Script.check (o.labels.mapM fun l => (Label.ofArgument l).mapError Failure.badLabel)
  return o.outputText base (imported ++ given) words

/-- Write the output to its file, or print it. -/
def put (o : DisassemblerOptions) (text : Text) : Script Unit :=
  match o.out with
  | some path => Script.writeFile path (Text.toUtf8 text) Failure.output
  | none => Script.printAll [text ++ ['\n']]

/-- What the disassembler tool does. -/
def script (o : DisassemblerOptions) : Script Unit := do
  let text ← o.text
  o.put text

end DisassemblerOptions

end Tool

end Cvere
