import Cvere.Tool.Run

/-!
# The program

`asm` and `disasm` run the two tools on the files of the system. Everything a tool does is said by
its script; here the script is carried out.
-/

namespace Cvere

namespace Tool

/-- The file error with a given number. Some functions of the system give the number negated. -/
def fileErrorOfCode? (code : UInt32) : Option FileError :=
  if code = 6 || code = -6 then some .noDevice
  else if code = 2 || code = -2 then some .notFound
  else if code = 20 || code = -20 then some .notDirectory
  else if code = 21 || code = -21 then some .isDirectory
  else if code = 28 || code = -28 then some .noSpace
  else if code = 36 || code = -36 then some .nameTooLong
  else none

/-- What a system error means for a file. -/
def fileErrorOf (e : IO.Error) : FileError :=
  let known := match e with
    | .noFileOrDirectory _ code _ => fileErrorOfCode? code
    | .inappropriateType _ code _ => fileErrorOfCode? code
    | .invalidArgument _ code _ => fileErrorOfCode? code
    | .noSuchThing _ code _ => fileErrorOfCode? code
    | .resourceExhausted _ code _ => fileErrorOfCode? code
    | _ => none
  known.getD (.other e.toString.toList)

/-- Read a file of the system. -/
def readSystemFile (path : Text) : IO (Except FileError Bytes) := do
  try
    return .ok (← IO.FS.readBinFile (String.ofList path)).data.toList
  catch e =>
    return .error (fileErrorOf e)

/-- Write a file of the system. -/
def writeSystemFile (path : Text) (bytes : Bytes) : IO (Except FileError Unit) := do
  try
    IO.FS.withFile (String.ofList path) .write fun file => do
      file.write bytes.toByteArray
      file.flush
    return .ok ()
  catch e =>
    return .error (fileErrorOf e)

/-- Carry out a script on the files of the system. -/
def Script.perform {α : Type} : Script α → IO (Except Failure α)
  | done value => return .ok value
  | fail f => return .error f
  | read path next => do
    let answer ← readSystemFile path
    (next answer).perform
  | write path bytes next => do
    let answer ← writeSystemFile path bytes
    (next answer).perform
  | print text next => do
    let stdout ← IO.getStdout
    stdout.putStr (String.ofList text)
    stdout.flush
    next.perform

/-- The line that tells how a tool is used. -/
def usageLine : Tool → Text
  | assembler => "Usage: cvere-asm [OPTIONS] <SRCFILE>\n".toList
  | disassembler => "Usage: cvere-disasm [OPTIONS] <INPUT>\n".toList

/-- What is said here where a tool leaves the words open. -/
def systemWording : Wording where
  help tool _ := tool.usageLine
  misuse tool _ := tool.usageLine
  notLabels _ := "not a list of labels".toList

/-- Run a tool on the files of the system. -/
def runOnSystem (tool : Tool) (arguments : List Text) : IO UInt32 := do
  match tool.script arguments with
  | .error .usage =>
    (← IO.getStderr).putStr (String.ofList (systemWording.misuse tool arguments))
    return 2
  | .error .version =>
    (← IO.getStdout).putStr (String.ofList tool.versionText)
    return 0
  | .error .help =>
    (← IO.getStdout).putStr (String.ofList (systemWording.help tool arguments))
    return 0
  | .ok script =>
    match ← script.perform with
    | .ok () => return 0
    | .error f =>
      (← IO.getStderr).putStr (String.ofList (f.report systemWording))
      return 1

end Tool

end Cvere

/-- The first argument chooses the tool, and the others are its arguments. -/
def main (arguments : List String) : IO UInt32 := do
  match arguments with
  | "asm" :: rest => Cvere.Tool.runOnSystem .assembler (rest.map String.toList)
  | "disasm" :: rest => Cvere.Tool.runOnSystem .disassembler (rest.map String.toList)
  | _ =>
    (← IO.getStderr).putStr "usage: cvere asm|disasm [ARGUMENTS]\n"
    return 2
