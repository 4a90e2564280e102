import Cvere.Assembly.Error
import Cvere.Image
import Cvere.Label.Argument
import Cvere.Tool.FileSystem

/-!
# Failures of the tools

A failure says what a tool was doing, and why that did not work. The tools report it on standard
error, what was being done first.

Some of what the tools say is not worded by them: how a tool is used, what is wrong with its
arguments, and why a text is no JSON of the expected shape. These texts are a parameter (`Wording`).
-/

namespace Cvere

/-- The command-line tools. -/
inductive Tool where
  | assembler
  | disassembler
  deriving DecidableEq, Repr

namespace Tool

/-- The texts that the readers of arguments and of JSON give. -/
structure Wording where
  /-- What a tool tells about itself when its arguments ask for help. -/
  help : Tool → List Text → Text
  /-- What is wrong with the arguments of a tool. -/
  misuse : Tool → List Text → Text
  /-- Why a text is no list of labels. -/
  notLabels : Text → Text

/-- Why a tool gave up. -/
inductive Failure where
  /-- A file cannot be read. -/
  | reading (path : Text) (cause : FileError)
  /-- The source in a file cannot be assembled. -/
  | assembling (path : Text) (cause : Assembly.Error)
  /-- The listing in a file cannot be read. -/
  | parsing (path : Text) (cause : Image.ListingError)
  /-- The text of a file gives no labels. -/
  | parsingLabels (path : Text) (text : Text)
  /-- The address of the first word cannot be read. -/
  | badBase (cause : Numeral.Error)
  /-- A label argument cannot be read. -/
  | badLabel (cause : Label.ArgumentError)
  /-- A file cannot be written. -/
  | writing (path : Text) (cause : FileError)
  /-- The output cannot be written. -/
  | output (cause : FileError)
  deriving DecidableEq, Repr

namespace Failure

/-- What went wrong, from the outermost circumstance to the innermost cause. -/
def chain (w : Wording) : Failure → List Text
  | reading path cause => ["reading ".toList ++ path, cause.message]
  | assembling path cause => ["assembling ".toList ++ path, cause.message]
  | parsing path cause => ["parsing ".toList ++ path, cause.message]
  | parsingLabels path text => ["parsing labels in ".toList ++ path, w.notLabels text]
  | badBase cause => [cause.message]
  | badLabel cause => [cause.message]
  | writing path cause => ["writing ".toList ++ path, cause.message]
  | output cause => [cause.message]

/-- The report of a failure, the outermost circumstance on a line of its own. -/
def report (w : Wording) (f : Failure) : Text :=
  match f.chain w with
  | [] => "Error\n".toList
  | outer :: causes =>
    "Error: ".toList ++ outer ++ ['\n'] ++
      if causes.isEmpty then []
      else "\nCaused by:\n".toList ++ causes.flatMap fun c => "    ".toList ++ c ++ ['\n']

end Failure

end Tool

end Cvere
