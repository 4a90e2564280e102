import Cvere.Assembly.Instruction
import Cvere.Text.Line

/-!
# Programs

A program is a source text that has been laid out: its instructions have addresses and its labels
are bound. Layout looks at one statement after another and adds up the sizes of the commands, and
encoding then works against the complete symbols, so that a label may be used before its line.

An unknown mnemonic counts as one word in the layout; it is refused when the program is encoded.

**Main results.** `length_encode`: an encoded program has as many words as the layout counted.
-/

namespace Cvere

/-- The size in bytes that the layout reserves for a command. -/
def Command.width (c : Command) : Nat :=
  match Op.ofMnemonic? c.mnemonic with
  | some op => op.width
  | none => 2

/-- The size in bytes that the layout reserves for a statement. -/
def Statement.width (s : Statement) : Nat :=
  match s.command with
  | some c => c.width
  | none => 0

namespace Assembly

/-- A laid-out source text. -/
structure Program where
  symbols : Symbols
  instructions : List Instruction
  /-- The address after the last instruction. -/
  stop : Address

namespace Program

/-! ## Layout -/

/-- The statements of a source text, one for each line. -/
def statements (source : Text) : List Statement :=
  (Text.lines source).map Statement.parse

/-- The instructions of statements that begin at a line and an address. -/
def instructionsFrom (line offset : Nat) : List Statement → List Instruction
  | [] => []
  | s :: rest =>
    match s.command with
    | none => instructionsFrom (line + 1) offset rest
    | some c =>
      { c with label := s.label, line, address := BitVec.ofNat 32 offset } ::
        instructionsFrom (line + 1) (offset + c.width) rest

/-- The labels of statements that begin at an address, each with the address it is bound to, in
source order. A name that is defined again occurs again. -/
def definitionsFrom (offset : Nat) : List Statement → List (Text × Address)
  | [] => []
  | s :: rest =>
    (s.label.toList.map fun name => (name, BitVec.ofNat 32 offset)) ++
      definitionsFrom (offset + s.width) rest

/-- The size in bytes of the code of statements. -/
def codeSize : List Statement → Nat
  | [] => 0
  | s :: rest => s.width + codeSize rest

/-- Lay out statements from address zero. -/
def ofStatements (ss : List Statement) : Program where
  symbols := Bindings.empty.insertAll (definitionsFrom 0 ss)
  instructions := instructionsFrom 1 0 ss
  stop := BitVec.ofNat 32 (codeSize ss)

/-- Lay out a source text. -/
def ofSource (source : Text) : Program :=
  ofStatements (statements source)

/-- The program without statements. -/
def empty : Program :=
  ofStatements []

/-! ## Encoding -/

/-- The words of a program. -/
def encode (p : Program) : Except Error (List Word) := do
  let blocks ← p.instructions.mapM fun ins => ins.assemble p.symbols
  return blocks.flatten

/-! ## Reports -/

/-- A warning for each definition of a name that is already known. -/
def redefinitions (known : Symbols) : List (Text × Address) → List Event
  | [] => []
  | (name, address) :: rest =>
    ((known.get? name).toList.map fun previous => .labelRedefined name previous address) ++
      redefinitions (known.insert name address) rest

/-- What is reported about the layout of a source text. -/
def layoutEvents (source : Text) : List Event :=
  let p := ofSource source
  redefinitions Bindings.empty (definitionsFrom 0 (statements source)) ++
    [.layoutDone p.instructions.length p.symbols.size p.stop]

/-- What is reported about instructions up to the first that cannot be encoded. -/
def instructionEvents (symbols : Symbols) : List Instruction → List Event
  | [] => []
  | ins :: rest =>
    match ins.assemble symbols with
    | .error _ => []
    | .ok _ => ins.events symbols ++ instructionEvents symbols rest

/-- What is reported about the encoding of a program. -/
def encodingEvents (p : Program) : List Event :=
  instructionEvents p.symbols p.instructions ++
    match p.encode with
    | .error _ => []
    | .ok words => [.encodingDone words.length]

end Program

/-- The words of a source text. -/
def assemble (source : Text) : Except Error (List Word) :=
  (Program.ofSource source).encode

/-! ## Sizes -/

namespace Instruction

/-- An assembled instruction has the size that the layout reserved for it. -/
theorem length_assemble {ins : Instruction} {symbols : Symbols} {words : List Word}
    (h : ins.assemble symbols = .ok words) : 2 * words.length = ins.toCommand.width := by
  unfold assemble at h
  split at h
  · cases h
  · next op hop =>
    cases he : ins.encode op symbols with
    | error cause => rw [he] at h; cases h
    | ok ws =>
      rw [he] at h
      cases h
      rw [length_encode he, Command.width, hop]
      rfl

end Instruction

namespace Program

/-- The size in bytes that the layout reserves for instructions. -/
def instructionsSize : List Instruction → Nat
  | [] => 0
  | ins :: rest => ins.toCommand.width + instructionsSize rest

theorem instructionsSize_instructionsFrom (line offset : Nat) (ss : List Statement) :
    instructionsSize (instructionsFrom line offset ss) = codeSize ss := by
  induction ss generalizing line offset with
  | nil => rfl
  | cons s rest ih =>
    rw [instructionsFrom]
    cases hs : s.command with
    | none => simp [codeSize, Statement.width, hs, ih]
    | some c => simp [codeSize, instructionsSize, Statement.width, hs, ih]

theorem length_of_mapM_assemble {symbols : Symbols} {is : List Instruction}
    {ws : List (List Word)} (h : is.mapM (·.assemble symbols) = .ok ws) :
    2 * ws.flatten.length = instructionsSize is := by
  induction is generalizing ws with
  | nil => cases h; rfl
  | cons ins is ih =>
    rw [List.mapM_cons] at h
    cases hi : ins.assemble symbols with
    | error e => rw [hi] at h; cases h
    | ok w =>
      cases hr : is.mapM (·.assemble symbols) with
      | error e => rw [hi, hr] at h; cases h
      | ok rest =>
        rw [hi, hr] at h
        cases h
        rw [List.flatten_cons, List.length_append, Nat.mul_add, ih hr,
          Instruction.length_assemble hi, instructionsSize]

/-- An encoded program has as many words as the layout counted. -/
theorem length_encode {ss : List Statement} {words : List Word}
    (h : (ofStatements ss).encode = .ok words) : 2 * words.length = codeSize ss := by
  unfold encode at h
  cases hm : (ofStatements ss).instructions.mapM (·.assemble (ofStatements ss).symbols) with
  | error e => rw [hm] at h; cases h
  | ok ws =>
    rw [hm] at h
    cases h
    rw [length_of_mapM_assemble hm]
    exact instructionsSize_instructionsFrom 1 0 ss

end Program

end Assembly

end Cvere
