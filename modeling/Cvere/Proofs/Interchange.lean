import Cvere.Proofs.JsonText
import Cvere.Proofs.Rendering
import Cvere.Tool.Run

/-!
# What one tool writes, the other loads

The assembler tool hands over labels as JSON, and programs as bytes or as a hexadecimal listing. The
disassembler tool loads these files.

**Formats.** Each format is read back as what was written: `listOfText?_listToText` for labels,
`ofBytes_toBytes_append` for bytes and `parseListing_toListing` for listings. A line feed at the end
of a listing never matters, not even to its errors (`parseListing_newline`).

**Runs.** A run of the assembler tool on a source file that assembles goes on behind the read
(`AssemblerRun.run_eq`): it writes or prints the program, prints the symbol table and writes the
labels. Printing changes nothing and cannot fail, so what is written can be read afterwards where the
file system keeps it (`FileSystem.Stores`), and the program also after the labels were written to
another file (`FileSystem.Apart`).

**Main results.** `loadLabels_labelsOut`: the labels that are loaded are the symbol table.
`loadProgram_images`: the program that is loaded, in either format, is the one that was assembled.
-/

namespace Cvere

/-! ## Labels -/

namespace Label

theorem writable_toJson (l : Label) : l.toJson.Writable := by
  refine .object ?_ ?_
  · simp
  · intro m hm
    simp only [List.map_cons, List.map_nil, List.mem_cons, List.not_mem_nil, or_false] at hm
    rcases hm with rfl | rfl
    · exact .number (Json.isNumber_decimal _)
    · exact .string _

theorem ofJson?_toJson (l : Label) : ofJson? l.toJson = some l := by
  have hfields : l.toJson.fields? ["addr".toList, "name".toList] =
      some [some (.ofNat l.address.toNat), some (.ofText l.name)] := rfl
  have haddress : (Json.ofNat l.address.toNat).unsigned? Address.count =
      some l.address.toNat := by
    simp only [Json.ofNat, Json.unsigned?, Numeral.natural?_decimal]
    exact Option.filter_some_pos (decide_eq_true l.address.isLt)
  have hname : (Json.ofText l.name).text? = some l.name := rfl
  unfold ofJson?
  rw [hfields]
  simp [haddress, hname]

theorem mapM_ofJson? (labels : List Label) : (labels.map toJson).mapM ofJson? = some labels := by
  induction labels with
  | nil => rfl
  | cons l labels ih =>
    rw [List.map_cons, List.mapM_cons, ofJson?_toJson, ih]
    rfl

/-- Labels that were written are read back. -/
theorem listOfText?_listToText (labels : List Label) :
    listOfText? (listToText labels) = some labels := by
  have hwritable : (Json.array (labels.map toJson)).Writable := by
    refine .array ?_
    intro j hj
    obtain ⟨l, -, rfl⟩ := List.mem_map.mp hj
    exact l.writable_toJson
  unfold listOfText? listToText
  rw [Json.parse?_pretty hwritable]
  exact mapM_ofJson? labels

end Label

/-! ## Listings -/

theorem Text.trim_dropReturn (t : Text) : trim (dropReturn t) = trim t := by
  obtain ⟨s, hs, hblank⟩ := exists_append_dropReturn t
  conv => rhs; rw [hs]
  exact (trim_append_blank hblank _).symm

theorem Numeral.read_hex {bound width n : Nat} (h : n < bound) :
    read 16 bound (hex width n) = .ok n := by
  have hread := natural?_hex width n
  rw [natural?, if_neg (by simp [hex_ne_nil]), Option.map_eq_some_iff] at hread
  obtain ⟨ds, hds, hvalue⟩ := hread
  have hdigits : readDigits 16 bound 0 (hex width n) = .ok n :=
    (readDigits_eq_ok_iff (by decide) (by omega)).mpr ⟨ds, hds, hvalue.symm, h⟩
  have hsign : ∀ cs, hex width n ≠ '+' :: cs := by
    intro cs hcs
    obtain ⟨⟨d, hd⟩, -⟩ := hexDigit_of_mem_hex (hcs ▸ List.mem_cons_self : '+' ∈ hex width n)
    cases hd
  unfold read
  split
  · next hnil => exact absurd hnil (hex_ne_nil width n)
  · next hplus => exact absurd hplus (hsign [])
  · next cs _ hplus => exact absurd hplus (hsign cs)
  · exact hdigits

namespace Image

theorem parseWord?_wordText (w : Word) : parseWord? (wordText w) = some w := by
  have hmarked : Numeral.hexMarked? (wordText w) = some (Numeral.hex 4 w.toNat) := rfl
  simp only [parseWord?, hmarked, Option.getD_some, Numeral.read_hex w.isLt, Except.toOption,
    Option.map_some, BitVec.ofNat_toNat, BitVec.setWidth_eq]

theorem parseLines_wordTexts (n : Nat) (words : List Word) :
    parseLines n (words.map wordText) = .ok words := by
  induction words generalizing n with
  | nil => rfl
  | cons w words ih =>
    have htrim : Text.trim (wordText w) = wordText w :=
      Text.trim_eq_self_iff.mpr (Numeral.isToken_hex 4 w.toNat).trimmed
    have hword : isRemark (wordText w) = false := rfl
    rw [List.map_cons, parseLines, htrim]
    simp only [hword, parseWord?_wordText, ih, Bool.false_eq_true, if_false]
    rfl

theorem parseListing_toListing (words : List Word) :
    parseListing (toListing words) = .ok words := by
  have hlines : Text.lines (toListing words) = words.map wordText := by
    apply Text.lines_unlines
    intro l hl
    obtain ⟨w, -, rfl⟩ := List.mem_map.mp hl
    obtain ⟨hne, htrimmed, hfree⟩ := (Numeral.isToken_hex 4 w.toNat).isLabel
    exact ⟨hne, fun h => (hfree _ h).2.2 rfl, fun h => absurd (htrimmed.2 _ h) (by decide)⟩
  rw [parseListing, hlines, parseLines_wordTexts]

/-- A line feed at the end of a listing does not matter. -/
theorem parseListing_newline (t : Text) : parseListing (t ++ ['\n']) = parseListing t := by
  obtain ⟨front, last, -, hlines, happend⟩ := Text.exists_lines_append t
  have hlast : ∀ n, parseLines n [Text.dropReturn last] =
      parseLines n (if last.isEmpty then [] else [last]) := by
    intro n
    cases last with
    | nil => rfl
    | cons c rest => simp [parseLines, Text.trim_dropReturn]
  have hfront : ∀ n ls, parseLines n (ls ++ [Text.dropReturn last]) =
      parseLines n (ls ++ if last.isEmpty then [] else [last]) := by
    intro n ls
    induction ls generalizing n with
    | nil => exact hlast n
    | cons l ls ih => simp only [List.cons_append, parseLines, ih]
  rw [parseListing, parseListing, happend, hlines]
  exact hfront 1 front

/-- Without its last byte if that has no partner, bytes survive the trip through words. -/
theorem toBytes_ofBytes_eq (bytes : List UInt8) :
    toBytes (ofBytes bytes) = if bytes.length % 2 = 0 then bytes else bytes.dropLast := by
  rw [toBytes_ofBytes]
  split
  · exact List.take_of_length_le (by omega)
  · rw [List.dropLast_eq_take]
    congr 1
    omega

end Image

/-! ## A run of the assembler tool -/

namespace Tool

variable {σ : Type} {fs : FileSystem σ} {w : Wording}

theorem loadLabels_listToText (file : Text) (labels : List Label) :
    loadLabels file (.ok (Text.toUtf8 (Label.listToText labels))) = .ok labels := by
  simp [loadLabels, textOf, Except.mapError, bind, Except.bind, Label.listOfText?_listToText]

theorem loadProgram_toBytes (file : Text) (words : List Word) :
    loadProgram .binary file (.ok (Image.toBytes words)) = .ok words := by
  have hwords := Image.ofBytes_toBytes_append words (t := []) (by decide)
  rw [List.append_nil] at hwords
  exact congrArg Except.ok hwords

/-- The listing is loaded with the line feed that is printed behind it. -/
theorem loadProgram_toListing (file : Text) (words : List Word) :
    loadProgram .listing file (.ok (Text.toUtf8 (Image.toListing words ++ ['\n']))) =
      .ok words := by
  simp [loadProgram, textOf, Except.mapError, bind, Except.bind, Image.parseListing_newline,
    Image.parseListing_toListing]

namespace AssemblerOptions

variable (o : AssemblerOptions) (fs : FileSystem σ) (s : σ)

/-- The program is written before the listing is printed. -/
theorem run_putProgram_of_output {path : Text} (h : o.output = some path) (words : List Word) :
    ∃ texts : List Text, (o.putProgram words).run fs s =
      ⟨(fs.write path (Image.toBytes words) s).1.mapError (Failure.writing path),
        .write path (Image.toBytes words) (fs.write path (Image.toBytes words) s).1 ::
          texts.map .print,
        (fs.write path (Image.toBytes words) s).2⟩ := by
  simp only [putProgram, h]
  rw [Script.run_bind, Script.run_writeFile]
  cases (fs.write path (Image.toBytes words) s).1 with
  | error e => exact ⟨[], rfl⟩
  | ok _ =>
    refine ⟨if o.hex then [Image.toListing words ++ ['\n']] else [], ?_⟩
    show Execution.after _ (Script.run fs (Script.printAll _) _) = _
    rw [Script.run_printAll]
    rfl

theorem run_putProgram_of_none (h : o.output = none) (words : List Word) :
    (o.putProgram words).run fs s = ⟨.ok (), [.print (Image.toListing words ++ ['\n'])], s⟩ := by
  simp only [putProgram, h]
  rw [Script.run_printAll]
  rfl

/-- The labels are written after the symbol table is printed. -/
theorem run_putTable_of_labelsOut {path : Text} (h : o.labelsOut = some path)
    (labels : List Label) :
    let bytes := Text.toUtf8 (Label.listToText labels)
    (o.putTable labels).run fs s =
      ⟨(fs.write path bytes s).1.mapError (Failure.writing path),
        (o.tableTexts labels).map .print ++ [.write path bytes (fs.write path bytes s).1],
        (fs.write path bytes s).2⟩ := by
  intro bytes
  simp only [putTable, h]
  rw [Script.run_bind, Script.run_printAll, Execution.andThen_ok, Script.run_writeFile]
  rfl

theorem run_putTable_of_none (h : o.labelsOut = none) (labels : List Label) :
    (o.putTable labels).run fs s = ⟨.ok (), (o.tableTexts labels).map .print, s⟩ := by
  simp only [putTable, h]
  rw [Script.run_bind, Script.run_printAll, Execution.andThen_ok, Script.run_pure]
  simp [Execution.after]

/-- Writing the labels elsewhere does not change the program. -/
theorem read_putTable {path : Text}
    (h : ∀ other, o.labelsOut = some other → fs.Apart path other) (labels : List Label) :
    (fs.read path ((o.putTable labels).run fs s).state).1 = (fs.read path s).1 := by
  cases hout : o.labelsOut with
  | none => rw [o.run_putTable_of_none fs s hout]
  | some other =>
    rw [o.run_putTable_of_labelsOut fs s hout]
    exact h other hout _ s

end AssemblerOptions

/-- The assembler tool is run with arguments that can be used and a source file that assembles. -/
structure AssemblerRun (fs : FileSystem σ) (arguments : List Text) (s : σ) (o : AssemblerOptions)
    (source : Text) (words : List Word) : Prop where
  parsed : AssemblerOptions.parse arguments = .ok o
  readable : textOf (fs.read o.input s).1 = .ok source
  assembled : Assembly.assemble source = .ok words

namespace AssemblerRun

variable {arguments : List Text} {s : σ} {o : AssemblerOptions} {source : Text} {words : List Word}
  (h : AssemblerRun fs arguments s o source words) (w : Wording)
include h

/-- The run goes on behind the read of the source file. -/
theorem run_eq :
    let table := (Assembly.Program.ofSource source).symbols.table
    Tool.assembler.run w fs arguments s =
      ((((o.putProgram words).run fs (fs.read o.input s).2).andThen fun _ =>
        (o.putTable table).run fs).after [.read o.input (fs.read o.input s).1]).outcome w := by
  intro table
  have hencode : (Assembly.Program.ofSource source).encode = .ok words := h.assembled
  have hload : loadSource o.input (fs.read o.input s).1 =
      .ok (Assembly.Program.ofSource source, words) := by
    simp [loadSource, h.readable, hencode, Except.mapError, bind, Except.bind, pure, Except.pure]
  rw [run_assembler h.parsed, AssemblerOptions.script, Script.run_bind, Script.run_readFile, hload,
    Execution.andThen_ok, Script.run_bind]

/-- The program is the first that is written. -/
theorem exists_effects_of_output {path : Text} (hpath : o.output = some path) :
    ∃ found answer rest, (Tool.assembler.run w fs arguments s).effects =
      .read o.input found :: .write path (Image.toBytes words) answer :: rest := by
  obtain ⟨texts, hprogram⟩ := o.run_putProgram_of_output fs (fs.read o.input s).2 hpath words
  obtain ⟨rest, hrest⟩ := Execution.exists_effects_andThen
    ((o.putProgram words).run fs (fs.read o.input s).2)
    fun _ => (o.putTable (Assembly.Program.ofSource source).symbols.table).run fs
  refine ⟨(fs.read o.input s).1, (fs.write path (Image.toBytes words) (fs.read o.input s).2).1,
    texts.map .print ++ rest, ?_⟩
  rw [h.run_eq, Execution.effects_outcome]
  show _ :: _ = _
  rw [hrest, hprogram]
  rfl

/-- The program is in its file afterwards. -/
theorem read_of_output {path : Text} (hpath : o.output = some path) (hstores : fs.Stores path)
    (hapart : ∀ labels, o.labelsOut = some labels → fs.Apart path labels) :
    (fs.read path (Tool.assembler.run w fs arguments s).state).1 =
      .ok (Image.toBytes words) := by
  obtain ⟨texts, hprogram⟩ := o.run_putProgram_of_output fs (fs.read o.input s).2 hpath words
  rw [hstores.write_eq_ok] at hprogram
  rw [h.run_eq, Execution.state_outcome, hprogram]
  show (fs.read path ((o.putTable _).run fs _).state).1 = _
  rw [o.read_putTable fs _ hapart, hstores.read_write]

/-- The listing is all that is printed. -/
theorem effects_of_listing (hnone : o.output = none) (hsymbols : o.symbols = false) :
    ∃ found writes, (Tool.assembler.run w fs arguments s).effects =
        .read o.input found :: .print (Image.toListing words ++ ['\n']) :: writes ∧
      ∀ e ∈ writes, ∃ path bytes answer, e = .write path bytes answer := by
  have htexts : ∀ labels, o.tableTexts labels = [] := by
    intro labels
    rw [AssemblerOptions.tableTexts, hsymbols]
    rfl
  rw [h.run_eq, Execution.effects_outcome, o.run_putProgram_of_none fs _ hnone,
    Execution.andThen_ok]
  cases hlabels : o.labelsOut with
  | none =>
    rw [o.run_putTable_of_none fs _ hlabels, htexts]
    exact ⟨_, [], rfl, List.forall_mem_nil _⟩
  | some path =>
    rw [o.run_putTable_of_labelsOut fs _ hlabels, htexts]
    exact ⟨_, [_], rfl, List.forall_mem_singleton.mpr ⟨_, _, _, rfl⟩⟩

end AssemblerRun

/-- **Labels between the tools.** Let the assembler tool be run on a source file that assembles,
with a file for the labels. There are bytes that are loaded as the symbol table, with the same
entries in the same order. Where a file for the program was asked for and cannot be written, the run
ends before the labels. Otherwise these bytes are what it writes last. If the file system keeps them,
then the run succeeds and the labels are there. -/
theorem loadLabels_labelsOut (w : Wording) {arguments : List Text} {s : σ} {o : AssemblerOptions}
    {source : Text} {words : List Word} (h : AssemblerRun fs arguments s o source words)
    {path : Text} (hpath : o.labelsOut = some path) :
    let table := (Assembly.Program.ofSource source).symbols.table
    let outcome := Tool.assembler.run w fs arguments s
    ∃ bytes, (∀ file, loadLabels file (.ok bytes) = .ok table) ∧
      ((∀ out, o.output = some out →
          (fs.write out (Image.toBytes words) (fs.read o.input s).2).1 = .ok ()) →
        (∃ before answer, outcome.effects = before ++ [.write path bytes answer]) ∧
        (fs.Stores path → outcome.exit = 0 ∧ (fs.read path outcome.state).1 = .ok bytes ∧
          loadLabels path (fs.read path outcome.state).1 = .ok table)) := by
  intro table outcome
  let bytes := Text.toUtf8 (Label.listToText table)
  refine ⟨bytes, fun file => loadLabels_listToText file table, fun hprogram => ?_⟩
  -- Whether the program is written or printed, the symbol table comes next.
  obtain ⟨front, s', hfront⟩ : ∃ front s',
      (o.putProgram words).run fs (fs.read o.input s).2 = ⟨.ok (), front, s'⟩ := by
    cases hout : o.output with
    | none => exact ⟨_, _, o.run_putProgram_of_none fs _ hout words⟩
    | some out =>
      obtain ⟨texts, hrun⟩ := o.run_putProgram_of_output fs (fs.read o.input s).2 hout words
      rw [hprogram out hout] at hrun
      exact ⟨_, _, hrun⟩
  have htable := o.run_putTable_of_labelsOut fs s' hpath table
  have hrun : outcome = _ := h.run_eq w
  rw [hfront, Execution.andThen_ok, htable] at hrun
  have heffects : outcome.effects =
      (.read o.input (fs.read o.input s).1 :: (front ++ (o.tableTexts table).map .print)) ++
        [.write path bytes (fs.write path bytes s').1] := by
    rw [hrun, Execution.effects_outcome]
    simp [Execution.after, bytes]
  have hstate : outcome.state = (fs.write path bytes s').2 := by
    rw [hrun, Execution.state_outcome]
    rfl
  refine ⟨⟨_, _, heffects⟩, fun hstores => ?_⟩
  rw [hstate, hstores.read_write]
  refine ⟨?_, rfl, loadLabels_listToText path table⟩
  rw [hrun, hstores.write_eq_ok]
  rfl

/-- A name with a quote, a backslash, control characters and a blank in it, and one beyond the
sixteen-bit characters, both at the address behind a call. -/
theorem loadLabels_labelsOut_escaped :
    let w : Wording := ⟨fun _ _ => [], fun _ _ => [], fun _ => []⟩
    let source := "CALL\n😀 z:\na\"b\\c\td\x01 é: HALT".toList
    let words : List Word := [0xFA00, 0, 0xFFFF]
    let arguments := ["s".toList, "--labels-out".toList, "l".toList, "-op".toList]
    let files : Bindings Text Bytes := Bindings.empty.insert "s".toList (Text.toUtf8 source)
    let o : AssemblerOptions := {
      input := "s".toList, output := some "p".toList, hex := false, symbols := false,
      labelsOut := some "l".toList }
    let outcome := Tool.assembler.run w .flat arguments files
    AssemblerRun .flat arguments files o source words ∧ FileSystem.flat.Stores "l".toList ∧
      loadLabels "l".toList (FileSystem.flat.read "l".toList outcome.state).1 =
        .ok [⟨4, "a\"b\\c\td\x01 é".toList⟩, ⟨4, "😀 z".toList⟩] := by
  intro w source words arguments files o outcome
  have hread : FileSystem.flat.read o.input files = (.ok (Text.toUtf8 source), files) :=
    FileSystem.read_flat rfl
  have h : AssemblerRun .flat arguments files o source words := by
    refine ⟨by decide, ?_, by decide⟩
    rw [hread, textOf, Text.ofUtf8?_toUtf8]
  have hstores : FileSystem.flat.Stores "l".toList := FileSystem.stores_flat (by decide)
  have hprogram : ∀ out, o.output = some out → (FileSystem.flat.write out (Image.toBytes words)
      (FileSystem.flat.read o.input files).2).1 = .ok () := by
    intro out hout
    cases hout
    rfl
  have htable : (Assembly.Program.ofSource source).symbols.table =
      [⟨4, "a\"b\\c\td\x01 é".toList⟩, ⟨4, "😀 z".toList⟩] := by
    have hentries : (Assembly.Program.ofSource source).symbols.entries =
        [("a\"b\\c\td\x01 é".toList, 4), ("😀 z".toList, 4)] := by decide
    rw [Symbols.table, hentries]
    exact List.mergeSort_of_pairwise (by decide)
  obtain ⟨bytes, -, hrun⟩ := loadLabels_labelsOut w h rfl
  refine ⟨h, hstores, ?_⟩
  rw [((hrun hprogram).2 hstores).2.2, htable]

/-- **Program images between the tools.** Words survive the trip through bytes, with or without a
stray byte behind them, bytes that through words but for a stray last byte, and words that through a
listing. So the program that the assembler tool writes as bytes, first of all, is loaded as the words
that the source assembles to. It is also loaded from the file after the run, where the file system
keeps it and the labels go elsewhere. The program that it prints as a listing, with the line feed at
the end, is loaded as the same words, and nothing else is printed. -/
theorem loadProgram_images :
    (∀ (words : List Word) (t : List UInt8), t.length ≤ 1 →
      Image.ofBytes (Image.toBytes words ++ t) = words) ∧
    (∀ bytes, Image.toBytes (Image.ofBytes bytes) =
      if bytes.length % 2 = 0 then bytes else bytes.dropLast) ∧
    (∀ words, Image.parseListing (Image.toListing words) = .ok words) ∧
    ∀ (σ : Type) (w : Wording) (fs : FileSystem σ) arguments s o source words,
      AssemblerRun fs arguments s o source words →
      let outcome := Tool.assembler.run w fs arguments s
      (∀ path, o.output = some path → ∃ bytes,
        (∃ found answer rest,
          outcome.effects = .read o.input found :: .write path bytes answer :: rest) ∧
        (∀ file, loadProgram .binary file (.ok bytes) = .ok words) ∧
        (fs.Stores path → (∀ labels, o.labelsOut = some labels → fs.Apart path labels) →
          loadProgram .binary path (fs.read path outcome.state).1 = .ok words)) ∧
      (o.output = none → o.symbols = false →
        (∃ found writes,
          outcome.effects = .read o.input found :: .print outcome.stdout :: writes ∧
            ∀ e ∈ writes, ∃ path bytes answer, e = .write path bytes answer) ∧
        ∀ file, loadProgram .listing file (.ok (Text.toUtf8 outcome.stdout)) = .ok words) := by
  refine ⟨fun words t ht => Image.ofBytes_toBytes_append words ht, Image.toBytes_ofBytes_eq,
    Image.parseListing_toListing, ?_⟩
  intro σ w fs arguments s o source words h outcome
  constructor
  · intro path hpath
    refine ⟨Image.toBytes words, h.exists_effects_of_output w hpath,
      fun file => loadProgram_toBytes file words, fun hstores hapart => ?_⟩
    rw [h.read_of_output w hpath hstores hapart, loadProgram_toBytes]
  · intro hnone hsymbols
    obtain ⟨found, writes, heffects, hwrites⟩ := h.effects_of_listing w hnone hsymbols
    have hsilent : writes.flatMap Effect.printed = [] := by
      refine List.flatMap_eq_nil_iff.mpr fun e he => ?_
      obtain ⟨path, bytes, answer, rfl⟩ := hwrites e he
      rfl
    have hstdout : outcome.stdout = Image.toListing words ++ ['\n'] := by
      rw [Outcome.stdout, heffects, List.flatMap_cons, List.flatMap_cons, hsilent]
      exact List.append_nil _
    rw [hstdout]
    exact ⟨⟨found, writes, heffects, hwrites⟩, fun file => loadProgram_toListing file words⟩

/-- A program with an extended instruction, written to a file next to its labels, and a program
without instructions, printed. -/
theorem loadProgram_images_both :
    let w : Wording := ⟨fun _ _ => [], fun _ _ => [], fun _ => []⟩
    let source := "x: JMP x\nCALL".toList
    let words : List Word := [0xD000, 0xFA00, 0]
    let remark := "; none".toList
    let files : Bindings Text Bytes := (Bindings.empty.insert "s".toList (Text.toUtf8 source)).insert
      "e".toList (Text.toUtf8 remark)
    let writing : AssemblerOptions := {
      input := "s".toList, output := some "p".toList, hex := true, symbols := true,
      labelsOut := some "l".toList }
    let printing : AssemblerOptions := {
      input := "e".toList, output := none, hex := false, symbols := false, labelsOut := none }
    let first := ["s".toList, "-op".toList, "--hex".toList, "--symbols".toList,
      "--labels-out=l".toList]
    let second := ["e".toList]
    let written := (Tool.assembler.run w .flat first files).state
    AssemblerRun .flat first files writing source words ∧
      AssemblerRun .flat second files printing remark [] ∧
      loadProgram .binary "p".toList (FileSystem.flat.read "p".toList written).1 = .ok words ∧
      loadProgram .listing "h".toList
        (.ok (Text.toUtf8 (Tool.assembler.run w .flat second files).stdout)) = .ok [] := by
  intro w source words remark files writing printing first second written
  have hs : FileSystem.flat.read "s".toList files = (.ok (Text.toUtf8 source), files) :=
    FileSystem.read_flat rfl
  have he : FileSystem.flat.read "e".toList files = (.ok (Text.toUtf8 remark), files) :=
    FileSystem.read_flat rfl
  have hfirst : AssemblerRun .flat first files writing source words := by
    refine ⟨by decide, ?_, by decide⟩
    rw [hs, textOf, Text.ofUtf8?_toUtf8]
  have hsecond : AssemblerRun .flat second files printing remark [] := by
    refine ⟨by decide, ?_, by decide⟩
    rw [he, textOf, Text.ofUtf8?_toUtf8]
  have hapart : ∀ labels, writing.labelsOut = some labels →
      FileSystem.flat.Apart "p".toList labels := by
    intro labels hsome
    cases hsome
    exact FileSystem.apart_flat (by decide)
  obtain ⟨-, -, -, hload⟩ := loadProgram_images
  obtain ⟨-, -, -, hwritten⟩ := (hload _ w .flat first files writing source words hfirst).1 _ rfl
  obtain ⟨-, hprinted⟩ := (hload _ w .flat second files printing remark [] hsecond).2 rfl rfl
  exact ⟨hfirst, hsecond, hwritten (FileSystem.stores_flat (by decide)) hapart, hprinted _⟩

end Tool

end Cvere
