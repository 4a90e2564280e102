import Cvere.Tool.Assembler
import Cvere.Tool.Disassembler

/-!
# Running a tool

A tool reads its arguments and follows the script that they ask for. Arguments that cannot be used
end with exit code two before anything is asked of the system, and a failure of the script ends with
exit code one, after all that was done up to there.

No filter for the log is set. So of what is reported while a program is loaded, assembled or
disassembled, all of it warnings or less, nothing is shown.
-/

namespace Cvere

namespace Tool

/-- The line that tells the version. -/
def versionText : Tool → Text
  | assembler => "cvere-rs 0.1.0\n".toList
  | disassembler => "cvere-disasm 0.1.0\n".toList

/-- The script that arguments ask for. -/
def script (tool : Tool) (arguments : List Text) : Except Stop (Script Unit) :=
  match tool with
  | assembler => (AssemblerOptions.parse arguments).map AssemblerOptions.script
  | disassembler => (DisassemblerOptions.parse arguments).map DisassemblerOptions.script

/-- What a tool leaves behind. -/
structure Outcome (σ : Type) where
  /-- The exit code: zero for success, one for a failure, two for unusable arguments. -/
  exit : Nat
  /-- Everything that was asked of the system, in order. -/
  effects : List Effect
  /-- What is reported on standard error. -/
  stderr : Text
  state : σ

variable {σ : Type}

/-- Everything that was printed on standard output. -/
def Outcome.stdout (outcome : Outcome σ) : Text :=
  outcome.effects.flatMap Effect.printed

/-- What is left behind by a script. -/
def Execution.outcome (w : Wording) (x : Execution σ Unit) : Outcome σ :=
  match x.value with
  | .ok () => ⟨0, x.effects, [], x.state⟩
  | .error f => ⟨1, x.effects, f.report w, x.state⟩

@[simp] theorem Execution.effects_outcome (w : Wording) (x : Execution σ Unit) :
    (x.outcome w).effects = x.effects := by
  unfold outcome
  cases x.value <;> rfl

@[simp] theorem Execution.state_outcome (w : Wording) (x : Execution σ Unit) :
    (x.outcome w).state = x.state := by
  unfold outcome
  cases x.value <;> rfl

/-- What a tool does when there is no script. -/
def stopped (tool : Tool) (w : Wording) (arguments : List Text) (s : σ) : Stop → Outcome σ
  | .usage => ⟨2, [], w.misuse tool arguments, s⟩
  | .version => ⟨0, [.print tool.versionText], [], s⟩
  | .help => ⟨0, [.print (w.help tool arguments)], [], s⟩

/-- Run a tool. -/
def run (tool : Tool) (w : Wording) (fs : FileSystem σ) (arguments : List Text) (s : σ) :
    Outcome σ :=
  match tool.script arguments with
  | .error stop => tool.stopped w arguments s stop
  | .ok script => (script.run fs s).outcome w

theorem run_of_script {tool : Tool} {arguments : List Text} {script : Script Unit}
    (h : tool.script arguments = .ok script) (w : Wording) (fs : FileSystem σ) (s : σ) :
    tool.run w fs arguments s = (script.run fs s).outcome w := by
  simp only [run, h]

theorem run_assembler {arguments : List Text} {o : AssemblerOptions}
    (h : AssemblerOptions.parse arguments = .ok o) (w : Wording) (fs : FileSystem σ) (s : σ) :
    assembler.run w fs arguments s = (o.script.run fs s).outcome w := by
  refine run_of_script ?_ w fs s
  simp only [script, h, Except.map]

theorem run_disassembler {arguments : List Text} {o : DisassemblerOptions}
    (h : DisassemblerOptions.parse arguments = .ok o) (w : Wording) (fs : FileSystem σ) (s : σ) :
    disassembler.run w fs arguments s = (o.script.run fs s).outcome w := by
  refine run_of_script ?_ w fs s
  simp only [script, h, Except.map]

end Tool

end Cvere
