import Cvere.Tool.Run

/-!
# Runs that fail

A tool can ask for anything at any time, and what was printed or written before a failure stays. But
both tools read and check everything they were given first. So a run that fails there leaves nothing
behind, apart from the report of its failure.

**Reading first.** A script is `ReadsOnly` if it asks for nothing but reads, whatever the answers
are. One script after another is, if both are (`ReadsOnly.bind`), and then each of its runs leaves
all files as they were (`ReadsOnly.run`).

**Steps.** The disassembler tool can fail in a number of steps, which are listed with the options
they come from (`DisassemblerOptions.steps`). What each step depends on is said for the step alone
(`DisassemblerStep.failure?`); only the output is written from what all the others gave. The script
of the tool goes through the steps in this order: `failure?_text` for the steps before the output,
from `failure?_mapM` for the labels of the command line, and `run_cases` for all of them.

**Main result.** `run_clean`: a failing run prints nothing on standard output and leaves all files
as they were; the disassembler tool reports the first of its steps that fails, and the assembler
tool what is wrong with its source file.
-/

namespace Cvere

namespace Tool

variable {σ α β : Type} {fs : FileSystem σ} {w : Wording} {s : σ}

/-! ## Clean failures -/

/-- Nothing is left behind, wherever a path may lead. -/
structure Outcome.Clean (outcome : Outcome σ) (fs : FileSystem σ) (s : σ) : Prop where
  /-- Nothing was printed on standard output. -/
  stdout : outcome.stdout = []
  /-- No write was carried out. -/
  unwritten : ∀ path bytes, Effect.write path bytes (.ok ()) ∉ outcome.effects
  /-- No file was made or changed. -/
  files : ∀ path, fs.file? path outcome.state = fs.file? path s

/-- The run failed and reports why, and left nothing else behind. -/
structure Outcome.CleanFailure (outcome : Outcome σ) (w : Wording) (fs : FileSystem σ) (s : σ)
    (f : Failure) : Prop extends outcome.Clean fs s where
  exit : outcome.exit = 1
  stderr : outcome.stderr = f.report w

/-- Nothing came of it: it was a read, or a write that failed. -/
def Effect.LeavesNothing : Effect → Prop
  | read .. | write _ _ (.error _) => True
  | write _ _ (.ok _) | print _ => False

theorem Effect.LeavesNothing.printed {e : Effect} (h : e.LeavesNothing) : e.printed = [] := by
  cases e with
  | print text => exact h.elim
  | _ => rfl

theorem Outcome.Clean.of_effects {outcome : Outcome σ}
    (heffects : ∀ e ∈ outcome.effects, e.LeavesNothing)
    (hfiles : ∀ path, fs.file? path outcome.state = fs.file? path s) : outcome.Clean fs s where
  stdout := List.flatMap_eq_nil_iff.mpr fun e he => (heffects e he).printed
  unwritten _ _ hwrite := heffects _ hwrite
  files := hfiles

theorem Execution.cleanFailure {x : Execution σ Unit} {f : Failure} (hvalue : x.value = .error f)
    (heffects : ∀ e ∈ x.effects, e.LeavesNothing)
    (hfiles : ∀ path, fs.file? path x.state = fs.file? path s) :
    (x.outcome w).CleanFailure w fs s f := by
  have houtcome : x.outcome w = ⟨1, x.effects, f.report w, x.state⟩ := by
    simp only [outcome, hvalue]
  rw [houtcome]
  exact ⟨.of_effects heffects hfiles, rfl, rfl⟩

/-! ## Scripts that only read -/

namespace Script

/-- Nothing but reads is asked for. -/
def ReadsOnly : Script α → Prop
  | done _ | fail _ => True
  | read _ next => ∀ answer, (next answer).ReadsOnly
  | write .. | print .. => False

theorem ReadsOnly.bind {x : Script α} {k : α → Script β} (hx : x.ReadsOnly)
    (hk : ∀ value, (k value).ReadsOnly) : (x >>= k).ReadsOnly := by
  show (x.bind k).ReadsOnly
  induction x with
  | done value => exact hk value
  | fail f => trivial
  | read path next ih => exact fun answer => ih answer (hx answer)
  | write path bytes next => exact hx.elim
  | print text next => exact hx.elim

theorem readsOnly_check (r : Except Failure α) : (check r).ReadsOnly := by
  cases r <;> trivial

theorem readsOnly_readFile (path : Text) (make : Except FileError Bytes → Except Failure α) :
    (readFile path make).ReadsOnly :=
  fun answer => readsOnly_check (make answer)

/-- What is read does not matter: nothing comes of it. -/
theorem ReadsOnly.run {x : Script α} (hx : x.ReadsOnly) (hfs : fs.Lawful) (s : σ) :
    (∀ e ∈ (x.run fs s).effects, e.LeavesNothing) ∧
      ∀ path, fs.file? path (x.run fs s).state = fs.file? path s := by
  induction x generalizing s with
  | done value => exact ⟨List.forall_mem_nil _, fun _ => rfl⟩
  | fail f => exact ⟨List.forall_mem_nil _, fun _ => rfl⟩
  | read path next ih =>
    obtain ⟨heffects, hfiles⟩ := ih _ (hx _) (fs.read path s).2
    refine ⟨List.forall_mem_cons.mpr ⟨trivial, heffects⟩, fun other => ?_⟩
    exact (hfiles other).trans (hfs.file?_read path s other)
  | write path bytes next => exact hx.elim
  | print text next => exact hx.elim

end Script

/-! ## The first failure -/

/-- Why there is no result. -/
def failure? : Except Failure α → Option Failure
  | .error f => some f
  | .ok _ => none

/-- What fails later does not have to depend on the result so far. -/
theorem failure?_bind {x : Except Failure α} {g : α → Except Failure β} {later : Option Failure}
    (h : ∀ a, failure? (g a) = later) : failure? (x >>= g) = (failure? x).or later := by
  cases x with
  | error f => rfl
  | ok a => exact h a

theorem failure?_bind_pure (x : Except Failure α) (g : α → β) :
    failure? (x >>= fun a => pure (g a)) = failure? x := by
  cases x <;> rfl

/-- Of several results, the first that is missing is reported. -/
theorem failure?_mapM (g : α → Except Failure β) (xs : List α) :
    failure? (xs.mapM g) = xs.findSome? fun x => failure? (g x) := by
  induction xs with
  | nil => rfl
  | cons x xs ih =>
    have hrest : ∀ y, failure? (xs.mapM g >>= fun ys => pure (y :: ys)) =
        xs.findSome? fun x => failure? (g x) := by
      intro y
      rw [failure?_bind_pure, ih]
    rw [List.mapM_cons, failure?_bind hrest, List.findSome?_cons]
    cases failure? (g x) <;> rfl

/-! ## Steps of the disassembler tool -/

/-- What the disassembler tool does with its options, one after another. -/
inductive DisassemblerStep where
  /-- Load the program. -/
  | program
  /-- Read the address of the first word. -/
  | base
  /-- Load a file of labels. -/
  | labelsIn (path : Text)
  /-- Read a label of the command line. -/
  | label (argument : Text)
  /-- Write the output to a file. -/
  | out (path : Text)
  deriving DecidableEq, Repr

/-- Why a step fails. The labels are loaded after the program, and the output can only be written
when there is a text. -/
def DisassemblerStep.failure? (o : DisassemblerOptions) (fs : FileSystem σ) (s : σ) :
    DisassemblerStep → Option Failure
  | .program => Tool.failure? (loadProgram o.inputFormat o.input (fs.read o.input s).1)
  | .base => Tool.failure? ((readAddress o.base).mapError Failure.badBase)
  | .labelsIn path => Tool.failure? (loadLabels path (fs.read path (fs.read o.input s).2).1)
  | .label argument => Tool.failure? ((Label.ofArgument argument).mapError Failure.badLabel)
  | .out path => Tool.failure? do
    let text ← (o.text.run fs s).value
    (fs.write path (Text.toUtf8 text) (o.text.run fs s).state).1.mapError Failure.output

namespace DisassemblerOptions

/-- The steps before the output, in order. -/
def inputSteps (o : DisassemblerOptions) : List DisassemblerStep :=
  [.program, .base] ++ o.labelsIn.toList.map .labelsIn ++ o.labels.map .label

/-- The steps of a run, in order. -/
def steps (o : DisassemblerOptions) : List DisassemblerStep :=
  o.inputSteps ++ o.out.toList.map .out

/-- The first failure of a run. -/
def firstFailure? (o : DisassemblerOptions) (fs : FileSystem σ) (s : σ) : Option Failure :=
  o.steps.findSome? (DisassemblerStep.failure? o fs s)

variable (o : DisassemblerOptions)

theorem readsOnly_importedLabels : o.importedLabels.ReadsOnly := by
  unfold importedLabels
  cases o.labelsIn with
  | none => trivial
  | some path => exact Script.readsOnly_readFile _ _

/-- Before there is a text, nothing but reads is asked for. -/
theorem readsOnly_text : o.text.ReadsOnly := by
  refine (Script.readsOnly_readFile _ _).bind fun words => ?_
  refine (Script.readsOnly_check _).bind fun base => ?_
  refine o.readsOnly_importedLabels.bind fun imported => ?_
  exact (Script.readsOnly_check _).bind fun given => trivial

variable (fs : FileSystem σ) (s : σ)

theorem value_text : (o.text.run fs s).value = do
    let words ← loadProgram o.inputFormat o.input (fs.read o.input s).1
    let base ← (readAddress o.base).mapError Failure.badBase
    let imported ← (o.importedLabels.run fs (fs.read o.input s).2).value
    let given ← o.labels.mapM fun l => (Label.ofArgument l).mapError Failure.badLabel
    return o.outputText base (imported ++ given) words := by
  simp only [text, Script.run_bind, Execution.value_andThen, Script.run_readFile, Script.run_check,
    Script.run_pure]
  rfl

theorem failure?_importedLabels :
    failure? (o.importedLabels.run fs (fs.read o.input s).2).value =
      (o.labelsIn.toList.map .labelsIn).findSome? (DisassemblerStep.failure? o fs s) := by
  rw [importedLabels]
  cases o.labelsIn with
  | none => rfl
  | some path =>
    rw [Script.run_readFile, Option.toList_some, List.map_singleton, List.findSome?_singleton]
    rfl

/-- There is no text exactly when a step before the output fails, and the first is reported. -/
theorem failure?_text :
    failure? (o.text.run fs s).value =
      o.inputSteps.findSome? (DisassemblerStep.failure? o fs s) := by
  have hgiven : ∀ (words : List Word) (base : Address) (imported : List Label),
      failure? (do
        let given ← o.labels.mapM fun l => (Label.ofArgument l).mapError Failure.badLabel
        return o.outputText base (imported ++ given) words) =
      (o.labels.map .label).findSome? (DisassemblerStep.failure? o fs s) := by
    intro words base imported
    rw [failure?_bind_pure, failure?_mapM, List.findSome?_map]
    rfl
  have hfirst : [DisassemblerStep.program, .base].findSome? (DisassemblerStep.failure? o fs s) =
      (failure? (loadProgram o.inputFormat o.input (fs.read o.input s).1)).or
        (failure? ((readAddress o.base).mapError Failure.badBase)) := by
    show _ = (DisassemblerStep.program.failure? o fs s).or (DisassemblerStep.base.failure? o fs s)
    rw [List.findSome?_cons, List.findSome?_singleton]
    cases DisassemblerStep.program.failure? o fs s <;> rfl
  rw [value_text, inputSteps,
    failure?_bind fun words => failure?_bind fun base => failure?_bind (hgiven words base),
    failure?_importedLabels, List.findSome?_append, List.findSome?_append, hfirst, Option.or_assoc,
    Option.or_assoc]

variable {o fs s}

/-- The output is the last step, and nothing comes of a write that fails. -/
theorem outcome_put (hfs : fs.Lawful) {text : Text} {effects : List Effect} {s' : σ}
    (h : o.text.run fs s = ⟨.ok text, effects, s'⟩) :
    let x := ((o.put text).run fs s').after effects
    (∃ f, (o.out.toList.map .out).findSome? (DisassemblerStep.failure? o fs s) = some f ∧
      (x.outcome w).CleanFailure w fs s f) ∨
    (o.out.toList.map .out).findSome? (DisassemblerStep.failure? o fs s) = none ∧
      (x.outcome w).exit = 0 := by
  obtain ⟨heffects, hfiles⟩ := o.readsOnly_text.run hfs s
  rw [h] at heffects hfiles
  unfold put
  cases o.out with
  | none =>
    simp only [Script.run_printAll]
    exact .inr ⟨rfl, rfl⟩
  | some path =>
    rw [Option.toList_some, List.map_singleton, List.findSome?_singleton]
    simp only [DisassemblerStep.failure?, h, bind, Except.bind, Script.run_writeFile]
    cases hwrite : (fs.write path (Text.toUtf8 text) s').1 with
    | ok _ => exact .inr ⟨rfl, rfl⟩
    | error e =>
      have hwritten := hfs.file?_write _ _ _ e hwrite
      refine .inl ⟨.output e, rfl, Execution.cleanFailure rfl ?_ ?_⟩
      · exact List.forall_mem_append.mpr ⟨heffects, List.forall_mem_singleton.mpr trivial⟩
      · exact fun other => (hwritten other).trans (hfiles other)

/-- A run goes through the steps in order and ends at the first that fails. -/
theorem run_cases (w : Wording) (hfs : fs.Lawful) (s : σ) {arguments : List Text}
    (h : parse arguments = .ok o) :
    (∃ f, o.firstFailure? fs s = some f ∧
      (Tool.disassembler.run w fs arguments s).CleanFailure w fs s f) ∨
    o.firstFailure? fs s = none ∧ (Tool.disassembler.run w fs arguments s).exit = 0 := by
  obtain ⟨heffects, hfiles⟩ := o.readsOnly_text.run hfs s
  rw [firstFailure?, steps, List.findSome?_append, ← o.failure?_text fs s, run_disassembler h,
    script, Script.run_bind]
  cases hx : o.text.run fs s with
  | mk value effects s' =>
    cases value with
    | ok text => exact outcome_put hfs hx
    | error f =>
      rw [hx] at heffects hfiles
      rw [Execution.andThen_error]
      exact .inl ⟨f, rfl, Execution.cleanFailure rfl heffects hfiles⟩

end DisassemblerOptions

/-! ## The source file of the assembler tool -/

namespace AssemblerOptions

/-- What can be wrong with the source file. -/
inductive SourceFailure (o : AssemblerOptions) (fs : FileSystem σ) (s : σ) : Failure → Prop
  | unreadable {e : FileError} (missing : (fs.read o.input s).1 = .error e) :
    SourceFailure o fs s (.reading o.input e)
  | notText {bytes : Bytes} (present : (fs.read o.input s).1 = .ok bytes)
    (unread : Text.ofUtf8? bytes = none) : SourceFailure o fs s (.reading o.input .notText)
  | notAssembled {bytes : Bytes} {source : Text} {e : Assembly.Error}
    (present : (fs.read o.input s).1 = .ok bytes) (read : Text.ofUtf8? bytes = some source)
    (refused : Assembly.assemble source = .error e) : SourceFailure o fs s (.assembling o.input e)

theorem SourceFailure.loadSource_eq {o : AssemblerOptions} {f : Failure}
    (h : o.SourceFailure fs s f) : loadSource o.input (fs.read o.input s).1 = .error f := by
  unfold loadSource textOf
  cases h with
  | unreadable missing =>
    rw [missing]
    rfl
  | notText present unread =>
    simp only [present, unread]
    rfl
  | @notAssembled bytes source e present read refused =>
    have hencode : (Assembly.Program.ofSource source).encode = .error e := refused
    simp only [present, read]
    show (Assembly.Program.ofSource source).encode.mapError (Failure.assembling o.input) >>= _ = _
    rw [hencode]
    rfl

/-- Without a program the assembler tool only reads. -/
theorem SourceFailure.run_eq {o : AssemblerOptions} {f : Failure} (h : o.SourceFailure fs s f)
    {arguments : List Text} (hparse : parse arguments = .ok o) (w : Wording) :
    Tool.assembler.run w fs arguments s =
      ⟨1, [.read o.input (fs.read o.input s).1], f.report w, (fs.read o.input s).2⟩ := by
  rw [run_assembler hparse, script, Script.run_bind, Script.run_readFile, h.loadSource_eq,
    Execution.andThen_error]
  rfl

end AssemblerOptions

/-! ## Exit codes -/

/-- Only unusable arguments give the exit code two. -/
theorem script_of_exit_eq_two {tool : Tool} {arguments : List Text}
    (h : (tool.run w fs arguments s).exit = 2) : tool.script arguments = .error .usage := by
  cases hscript : tool.script arguments with
  | error stop =>
    simp only [run, hscript] at h
    cases stop with
    | usage => rfl
    | version => cases h
    | help => cases h
  | ok script =>
    rw [run_of_script hscript, Execution.outcome] at h
    cases hvalue : (script.run fs s).value with
    | error f =>
      simp only [hvalue] at h
      cases h
    | ok value =>
      simp only [hvalue] at h
      cases h

/-- The disassembler tool fails for its arguments, or in one of its steps. -/
theorem disassembler_cases (hfs : fs.Lawful) {arguments : List Text}
    (h : (Tool.disassembler.run w fs arguments s).exit ≠ 0) :
    Tool.disassembler.script arguments = .error .usage ∨
      ∃ o f, DisassemblerOptions.parse arguments = .ok o ∧ o.firstFailure? fs s = some f ∧
        (Tool.disassembler.run w fs arguments s).CleanFailure w fs s f := by
  cases hparse : DisassemblerOptions.parse arguments with
  | error stop =>
    have hscript : Tool.disassembler.script arguments = .error stop := by
      simp only [Tool.script, hparse, Except.map]
    simp only [run, hscript] at h
    cases stop with
    | usage => exact .inl hscript
    | version => exact absurd rfl h
    | help => exact absurd rfl h
  | ok o =>
    obtain ⟨f, hfirst, hrun⟩ | ⟨-, hexit⟩ := DisassemblerOptions.run_cases w hfs s hparse
    · exact .inr ⟨o, f, rfl, hfirst, hrun⟩
    · exact absurd hexit h

/-- **No partial output.** Whatever the arguments are and whatever a path leads to, as long as
reading and failed writes change no file:

* If the arguments can be used and the source file cannot be read, is no text or does not assemble,
  the assembler tool fails cleanly, whatever it was asked to print and to write. It has done nothing
  but read the source file.
* If the disassembler tool does not succeed, it has printed nothing on standard output and changed
  no file. If it fails, it reports the first of its steps that fails.
* If the arguments cannot be used, a tool asks nothing of the system. -/
theorem run_clean (w : Wording) (hfs : fs.Lawful) (arguments : List Text) (s : σ) :
    let assembly := Tool.assembler.run w fs arguments s
    let disassembly := Tool.disassembler.run w fs arguments s
    (∀ o f, AssemblerOptions.parse arguments = .ok o → o.SourceFailure fs s f →
      assembly.CleanFailure w fs s f ∧ ∃ answer, assembly.effects = [.read o.input answer]) ∧
    (disassembly.exit ≠ 0 → disassembly.Clean fs s) ∧
    (disassembly.exit = 1 → ∃ o f, DisassemblerOptions.parse arguments = .ok o ∧
      o.firstFailure? fs s = some f ∧ disassembly.CleanFailure w fs s f) ∧
    (∀ o f, DisassemblerOptions.parse arguments = .ok o → o.firstFailure? fs s = some f →
      disassembly.CleanFailure w fs s f) ∧
    ∀ tool : Tool, (tool.run w fs arguments s).exit = 2 →
      ∃ stderr, ∀ s', tool.run w fs arguments s' = ⟨2, [], stderr, s'⟩ := by
  intro assembly disassembly
  refine ⟨?_, ?_, ?_, ?_, ?_⟩
  · intro o f hparse hsource
    have hrun : assembly = _ := hsource.run_eq hparse w
    rw [hrun]
    refine ⟨⟨.of_effects ?_ ?_, rfl, rfl⟩, _, rfl⟩
    · exact List.forall_mem_singleton.mpr trivial
    · exact hfs.file?_read o.input s
  · intro hexit
    obtain hscript | ⟨o, f, -, -, hclean⟩ := disassembler_cases hfs hexit
    · have hrun : disassembly = Tool.disassembler.stopped w arguments s .usage := by
        simp only [disassembly, run, hscript]
      rw [hrun]
      exact .of_effects (List.forall_mem_nil _) fun _ => rfl
    · exact hclean.toClean
  · intro hexit
    have hne : disassembly.exit ≠ 0 := by omega
    obtain hscript | hfailure := disassembler_cases hfs hne
    · simp [disassembly, run, hscript, stopped] at hexit
    · exact hfailure
  · intro o f hparse hfirst
    obtain ⟨g, hg, hclean⟩ | ⟨hnone, -⟩ := DisassemblerOptions.run_cases w hfs s hparse
    · obtain rfl : g = f := Option.some.inj (hg.symm.trans hfirst)
      exact hclean
    · rw [hnone] at hfirst
      cases hfirst
  · intro tool hexit
    have hscript := script_of_exit_eq_two hexit
    refine ⟨w.misuse tool arguments, fun s' => ?_⟩
    simp only [run, hscript, stopped]

/-- A source file with an unknown mnemonic, where a program and labels should be written; a program
that can be loaded, with an address and a label that cannot be read; an output in a directory that is
not there; and a flag with a value. -/
theorem run_clean_failures :
    let w : Wording := ⟨fun _ _ => [], fun _ _ => [], fun _ => []⟩
    let source := "NOP\nFOO".toList
    let files : Bindings Text Bytes := (Bindings.empty.insert "s".toList (Text.toUtf8 source)).insert
      "p".toList [0, 0]
    let assembling := ["s".toList, "-op".toList, "--hex".toList, "--labels-out=l".toList]
    let disassembling := ["p".toList, "--label=x".toList, "--base=0x".toList, "--out=s".toList]
    let storing := ["p".toList, "--out=d/s".toList]
    let misused := ["s".toList, "--hex=1".toList]
    (Tool.assembler.run w .flat assembling files).CleanFailure w .flat files
        (.assembling "s".toList ⟨2, .unknownMnemonic "FOO".toList⟩) ∧
      (Tool.disassembler.run w .flat disassembling files).CleanFailure w .flat files
        (.badBase .empty) ∧
      (Tool.disassembler.run w .flat storing files).CleanFailure w .flat files
        (.output .notFound) ∧
      ∃ stderr, Tool.assembler.run w .flat misused files = ⟨2, [], stderr, files⟩ := by
  intro w source files assembling disassembling storing misused
  let o : AssemblerOptions := {
    input := "s".toList, output := some "p".toList, hex := true, symbols := false,
    labelsOut := some "l".toList }
  let q : DisassemblerOptions := {
    input := "p".toList, inputFormat := .binary, base := "0x".toList,
    config := ⟨.ofFlags true true, false⟩, labelsIn := none, labels := ["x".toList],
    format := .text, out := some "s".toList }
  let r : DisassemblerOptions := { q with base := ['0'], labels := [], out := some "d/s".toList }
  have hsource : o.SourceFailure .flat files
      (.assembling "s".toList ⟨2, .unknownMnemonic "FOO".toList⟩) :=
    .notAssembled rfl (Text.ofUtf8?_toUtf8 source) rfl
  have hbase : q.firstFailure? .flat files = some (.badBase .empty) := by decide
  have hout : r.firstFailure? .flat files = some (.output .notFound) := by decide
  have hclean := fun arguments => run_clean w FileSystem.lawful_flat arguments files
  refine ⟨((hclean assembling).1 o _ rfl hsource).1, ?_, ?_, ?_⟩
  · exact (hclean disassembling).2.2.2.1 q _ rfl hbase
  · exact (hclean storing).2.2.2.1 r _ rfl hout
  · obtain ⟨stderr, hrun⟩ := (hclean misused).2.2.2.2 .assembler (by decide)
    exact ⟨stderr, hrun files⟩

end Tool

end Cvere
