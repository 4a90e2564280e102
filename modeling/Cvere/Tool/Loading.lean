import Cvere.Event
import Cvere.Exchange
import Cvere.Tool.Failure

/-!
# Loading programs and labels

What the disassembler makes of the files it is given. Reading a file and understanding it fail in
different ways.
-/

namespace Cvere

namespace Tool

/-- How a program is stored. -/
inductive ProgramFormat where
  /-- Bytes, two to a word. -/
  | binary
  /-- A hexadecimal listing. -/
  | listing
  deriving DecidableEq, Repr

/-- The program in a file. -/
def loadProgram (format : ProgramFormat) (path : Text) (contents : Except FileError Bytes) :
    Except Failure (List Word) :=
  match format with
  | .binary => (contents.mapError (Failure.reading path)).map Image.ofBytes
  | .listing => do
    let text ← (textOf contents).mapError (Failure.reading path)
    (Image.parseListing text).mapError (Failure.parsing path)

/-- What is reported while a program is loaded. -/
def loadEvents (format : ProgramFormat) (contents : Except FileError Bytes) : List Event :=
  match format, contents with
  | .binary, .ok bytes => if bytes.length % 2 = 0 then [] else [.oddLength bytes.length]
  | _, _ => []

/-- The labels in a file. -/
def loadLabels (path : Text) (contents : Except FileError Bytes) : Except Failure (List Label) := do
  let text ← (textOf contents).mapError (Failure.reading path)
  match Label.listOfText? text with
  | none => .error (.parsingLabels path text)
  | some labels => .ok labels

end Tool

end Cvere
