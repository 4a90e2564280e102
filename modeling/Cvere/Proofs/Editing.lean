import Cvere.Proofs.Relocation

/-!
# Edits that keep the program

Blanks, comments, line ends and empty lines are there for the reader of a source text. They can be
added anywhere without changing what the text assembles to: the words, the labels and the address
behind the code stay the same, and an error stays the same but for its line. A label can be given a
line of its own.

**Edits.** `Edit` is one such edit, on the characters of the text. It comes with its `Change`, which
says what becomes of line numbers and of the label of an instruction. Texts on either side of the
edited line end where a line begins (`LineStart`) and begin where a line ends (`LineEnd`).

**The proof** takes a text apart into statements around the edit (`exists_above`, `exists_below`).
Most edits leave the statement of their line as it is. An inserted line is an empty statement, and a
label on a line of its own takes a statement apart into two, so that two lemmas about statements
remain (`ofStatements_insert`, `ofStatements_split`).

**Main result.** `assemble_edited`: what becomes of a program under any number of edits.
-/

namespace Cvere

/-! ## Places in a text -/

namespace Text

/-- A line begins behind the text. -/
def LineStart (above : Text) : Prop :=
  above = [] ∨ ['\n'] <:+ above

/-- A line ends in front of the text. -/
def LineEnd (below : Text) : Prop :=
  below = [] ∨ ['\n'] <+: below ∨ ['\r', '\n'] <+: below

/-- Blanks within a line. -/
def IsBlanks (t : Text) : Prop :=
  ∀ c ∈ t, isBlank c = true ∧ c ≠ '\n'

/-- A line that says nothing: blanks, a colon alone among blanks, or either of these with a comment
behind it. -/
inductive IsVoid : Text → Prop
  | blanks {t : Text} : t.IsBlanks → IsVoid t
  | colon {front back : Text} : front.IsBlanks → back.IsBlanks → IsVoid (front ++ ':' :: back)
  | comment {line text : Text} : IsVoid line → '\n' ∉ text → IsVoid (line ++ ';' :: text)

/-- The second line is the first with a comment behind it, or with blanks on one side. -/
inductive Respaced (line : Text) : Text → Prop
  | comment {text : Text} : '\n' ∉ text → Respaced line (line ++ ';' :: text)
  | before {blanks : Text} : blanks.IsBlanks → Respaced line (blanks ++ line)
  | after {blanks : Text} : blanks.IsBlanks → Respaced line (line ++ blanks)

instance (above : Text) : Decidable above.LineStart :=
  inferInstanceAs (Decidable (_ ∨ _))

instance (below : Text) : Decidable below.LineEnd :=
  inferInstanceAs (Decidable (_ ∨ _ ∨ _))

instance (t : Text) : Decidable t.IsBlanks :=
  List.decidableBAll _ t

end Text

/-! ## Edits -/

namespace Assembly

/-- What an edit does to the lines of a text. -/
inductive Change where
  /-- No line moves. -/
  | same
  /-- A line is inserted below so many lines. -/
  | inserted (above : Nat)
  /-- The line below so many lines is taken apart: its label stays, and its command moves to a new
  line. -/
  | split (above : Nat)
  deriving DecidableEq, Repr

namespace Change

/-- Where the command of a line is found after the change. -/
def line : Change → Nat → Nat
  | same, n => n
  | inserted above, n => if n ≤ above then n else n + 1
  | split above, n => if n ≤ above then n else n + 1

/-- Whether the command of a line is parted from its label. -/
def unlabels : Change → Nat → Bool
  | same, _ => false
  | inserted _, _ => false
  | split above, n => n == above + 1

/-- The instruction after the change. -/
def instruction (c : Change) (ins : Instruction) : Instruction :=
  { ins with
    line := c.line ins.line
    label := if c.unlabels ins.line then none else ins.label }

/-- The error after the change. -/
def error (c : Change) (e : Error) : Error :=
  { e with line := c.line e.line }

end Change

open Text

/-- One edit of a source text. -/
inductive Edit : Text → Text → Change → Prop
  /-- A line that says nothing, in front of a line or at the end. -/
  | insertLine {above line below : Text} : LineStart above → IsVoid line →
      Edit (above ++ below) (above ++ (line ++ '\n' :: below)) (.inserted (above.count '\n'))
  /-- A last line that says nothing and has no line end, behind a line that has one. -/
  | insertLast {source line : Text} : LineStart source → IsVoid line →
      Edit source (source ++ line) .same
  /-- A last line that says nothing, behind a line that had no line end. -/
  | appendLine {source line : Text} : IsVoid line → Edit source (source ++ '\n' :: line) .same
  /-- A comment behind a line, or blanks on one side of it. -/
  | respace {above line line' below : Text} : LineStart above → '\n' ∉ line → LineEnd below →
      Respaced line line' → Edit (above ++ (line ++ below)) (above ++ (line' ++ below)) .same
  /-- A carriage return at a line end. -/
  | returnLine {above below : Text} :
      Edit (above ++ '\n' :: below) (above ++ '\r' :: '\n' :: below) .same
  /-- A line of its own for a label. There is no second colon before the comment. -/
  | splitLabel {above name rest below : Text} : LineStart above →
      ':' ∉ name → ';' ∉ name → '\n' ∉ name → ':' ∉ Text.before ';' rest → '\n' ∉ rest →
      LineEnd below →
      Edit (above ++ (name ++ ':' :: (rest ++ below)))
        (above ++ (name ++ ':' :: '\n' :: (rest ++ below))) (.split (above.count '\n'))

/-- Any number of edits, one after another. -/
inductive Edits : Text → Text → List Change → Prop
  | none (source : Text) : Edits source source []
  | step {source next edited : Text} {c : Change} {cs : List Change} :
      Edit source next c → Edits next edited cs → Edits source edited (c :: cs)

end Assembly

/-! ## One line -/

namespace Text

theorem IsBlanks.newline_not_mem {t : Text} (h : t.IsBlanks) : '\n' ∉ t :=
  fun hmem => (h _ hmem).2 rfl

theorem IsBlanks.isBlank {t : Text} (h : t.IsBlanks) : ∀ c ∈ t, isBlank c = true :=
  fun c hc => (h c hc).1

theorem IsBlanks.trim_eq_nil {t : Text} (h : t.IsBlanks) : trim t = [] := by
  have htrim := trim_append_of_blank h.isBlank []
  rwa [List.append_nil] at htrim

theorem IsVoid.newline_not_mem {t : Text} (h : t.IsVoid) : '\n' ∉ t := by
  induction h with
  | blanks ht => exact ht.newline_not_mem
  | colon hfront hback => simp [hfront.newline_not_mem, hback.newline_not_mem]
  | comment _ htext ih => simp [ih, htext]

theorem Respaced.newline_not_mem {line line' : Text} (h : Respaced line line')
    (hline : '\n' ∉ line) : '\n' ∉ line' := by
  cases h with
  | comment htext => simp [hline, htext]
  | before hblanks => simp [hline, hblanks.newline_not_mem]
  | after hblanks => simp [hline, hblanks.newline_not_mem]

/-- Every text has a last line, which may be empty. -/
theorem exists_lineStart (t : Text) :
    ∃ above line : Text, t = above ++ line ∧ LineStart above ∧ '\n' ∉ line := by
  induction t with
  | nil => exact ⟨[], [], rfl, .inl rfl, List.not_mem_nil⟩
  | cons c t ih =>
    obtain ⟨above, line, rfl, habove, hline⟩ := ih
    rcases habove with rfl | habove
    · by_cases hc : c = '\n'
      · subst hc
        exact ⟨['\n'], line, rfl, .inr (List.suffix_refl _), hline⟩
      · refine ⟨[], c :: line, rfl, .inl rfl, ?_⟩
        simp [hline, Ne.symm hc]
    · exact ⟨c :: above, line, rfl, .inr (habove.trans (List.suffix_cons c above)), hline⟩

end Text

namespace Statement

theorem parse_nil : parse [] = ⟨none, none⟩ :=
  parse_of_code_eq_nil rfl

theorem code_of_isBlanks {t : Text} (h : t.IsBlanks) : code t = [] := by
  have hcode := code_append_of_blank h.isBlank []
  rwa [List.append_nil] at hcode

theorem parse_of_isVoid {line : Text} (h : line.IsVoid) : parse line = ⟨none, none⟩ := by
  induction h with
  | blanks ht => exact parse_of_code_eq_nil (code_of_isBlanks ht)
  | @colon front back hfront hback =>
    have hcolon : ':' ∉ front := fun h => absurd (hfront _ h).1 (by decide)
    have hsemi : ';' ∉ front := fun h => absurd (hfront _ h).1 (by decide)
    rw [parse_colon hcolon hsemi, hfront.trim_eq_nil, code_of_isBlanks hback]
    rfl
  | comment _ _ ih => rw [parse_congr (code_append_comment _ _), ih]

theorem parse_of_respaced {line line' : Text} (h : Text.Respaced line line') :
    parse line' = parse line := by
  cases h with
  | comment _ => exact parse_congr (code_append_comment line _)
  | before hblanks => exact parse_congr (code_append_of_blank hblanks.isBlank line)
  | after hblanks => exact parse_congr (code_append_blank hblanks.isBlank line)

theorem parse_of_no_colon {line : Text} (h : ':' ∉ Text.before ';' line) :
    parse line = ⟨none, Command.parse? (code line)⟩ := by
  have hcut : Text.cut? (· == ':') (code line) = none := by
    rw [Text.cut?_eq_none_iff]
    intro c hc
    simpa using fun hcolon : c = ':' => h (hcolon ▸ Text.mem_of_mem_trim hc)
  rw [parse, hcut]

end Statement

namespace Assembly

open Text

/-! ## Statements -/

namespace Change

/-- An instruction that keeps its label gets another line and nothing else. -/
theorem instruction_eq {c : Change} {ins : Instruction} {n : Nat} (hline : c.line ins.line = n)
    (hlabel : c.unlabels ins.line = false) : c.instruction ins = { ins with line := n } := by
  unfold instruction
  rw [hline, hlabel]
  rfl

end Change

namespace Program

/-- The program after a change. -/
def edited (c : Change) (p : Program) : Program :=
  { p with instructions := p.instructions.map c.instruction }

theorem edited_same (p : Program) : p.edited .same = p := by
  have hsame : Change.same.instruction = id := by
    funext ins
    exact Change.instruction_eq rfl rfl
  rw [edited, hsame, List.map_id]

section Lines

variable {c : Change} {ss : List Statement} {line offset : Nat}

theorem map_instruction_of_kept
    (h : ∀ n < line + ss.length, c.line n = n ∧ c.unlabels n = false) :
    (instructionsFrom line offset ss).map c.instruction = instructionsFrom line offset ss := by
  refine (List.map_congr_left fun ins hins => ?_).trans (List.map_id' _)
  obtain ⟨i, s, hline, hs, -⟩ := exists_line_of_mem hins
  obtain ⟨hi, -⟩ := List.getElem?_eq_some_iff.mp hs
  have hkept := h ins.line (by omega)
  exact Change.instruction_eq hkept.1 hkept.2

theorem map_instruction_of_moved
    (h : ∀ n, line ≤ n → c.line n = n + 1 ∧ c.unlabels n = false) :
    (instructionsFrom line offset ss).map c.instruction =
      instructionsFrom (line + 1) offset ss := by
  have hadd : instructionsFrom (line + 1) offset ss = _ := instructionsFrom_add ss line 1 offset 0
  rw [hadd]
  apply List.map_congr_left
  intro ins hins
  obtain ⟨i, -, hline, -⟩ := exists_line_of_mem hins
  have hmoved := h ins.line (by omega)
  rw [Change.instruction_eq hmoved.1 hmoved.2, Instruction.moved, BitVec.add_zero]

end Lines

/-- An empty statement changes nothing but the lines below it. -/
theorem ofStatements_insert (front back : List Statement) :
    ofStatements (front ++ ⟨none, none⟩ :: back) =
      (ofStatements (front ++ back)).edited (.inserted front.length) := by
  have hdefinitions : definitionsFrom 0 (front ++ ⟨none, none⟩ :: back) =
      definitionsFrom 0 (front ++ back) := by
    rw [definitionsFrom_append, definitionsFrom_append]
    rfl
  have hsize : codeSize (front ++ ⟨none, none⟩ :: back) = codeSize (front ++ back) := by
    rw [codeSize_append, codeSize_append, codeSize]
    exact congrArg _ (Nat.zero_add _)
  have hinstructions : instructionsFrom 1 0 (front ++ ⟨none, none⟩ :: back) =
      (instructionsFrom 1 0 (front ++ back)).map (Change.inserted front.length).instruction := by
    rw [instructionsFrom_append, instructionsFrom_append, List.map_append,
      map_instruction_of_kept, map_instruction_of_moved]
    · rfl
    · intro n hn
      exact ⟨if_neg (by omega), rfl⟩
    · intro n hn
      exact ⟨if_pos (by omega), rfl⟩
  unfold ofStatements edited
  rw [hdefinitions, hsize, hinstructions]

/-- An empty statement at the end changes nothing. -/
theorem ofStatements_append_empty (front : List Statement) :
    ofStatements (front ++ [⟨none, none⟩]) = ofStatements front := by
  rw [ofStatements_insert, List.append_nil]
  unfold edited ofStatements
  rw [map_instruction_of_kept]
  intro n hn
  exact ⟨if_pos (by omega), rfl⟩

/-- A label in a statement of its own stands where it stood before. -/
theorem ofStatements_split (front back : List Statement) (label : Option Text)
    (command : Option Command) :
    ofStatements (front ++ ⟨label, none⟩ :: ⟨none, command⟩ :: back) =
      (ofStatements (front ++ ⟨label, command⟩ :: back)).edited (.split front.length) := by
  have hdefinitions : definitionsFrom 0 (front ++ ⟨label, none⟩ :: ⟨none, command⟩ :: back) =
      definitionsFrom 0 (front ++ ⟨label, command⟩ :: back) := by
    rw [definitionsFrom_append, definitionsFrom_append]
    rfl
  have hsize : codeSize (front ++ ⟨label, none⟩ :: ⟨none, command⟩ :: back) =
      codeSize (front ++ ⟨label, command⟩ :: back) := by
    rw [codeSize_append, codeSize_append, codeSize]
    exact congrArg _ (Nat.zero_add _)
  have hbelow : ∀ offset, (instructionsFrom (1 + front.length + 1) offset back).map
      (Change.split front.length).instruction =
        instructionsFrom (1 + front.length + 1 + 1) offset back := by
    intro offset
    apply map_instruction_of_moved
    intro n hn
    exact ⟨if_neg (by omega), beq_false_of_ne (by omega)⟩
  have hinstructions :
      instructionsFrom 1 0 (front ++ ⟨label, none⟩ :: ⟨none, command⟩ :: back) =
      (instructionsFrom 1 0 (front ++ ⟨label, command⟩ :: back)).map
        (Change.split front.length).instruction := by
    rw [instructionsFrom_append, instructionsFrom_append, List.map_append,
      map_instruction_of_kept]
    · congr 1
      cases command with
      | none => exact (hbelow _).symm
      | some cmd =>
        simp only [instructionsFrom, List.map_cons, hbelow]
        simp [Change.instruction, Change.line, Change.unlabels, Nat.add_comm]
    · intro n hn
      exact ⟨if_pos (by omega), beq_false_of_ne (by omega)⟩
  unfold ofStatements edited
  rw [hdefinitions, hsize, hinstructions]

/-! ## Source texts -/

theorem statements_append_newline {line : Text} (h : '\n' ∉ line) (below : Text) :
    statements (line ++ '\n' :: below) = Statement.parse line :: statements below := by
  unfold statements
  rw [lines_append_newline h, List.map_cons, Statement.parse_dropReturn]

/-- The lines above a line are statements of their own. -/
theorem exists_above {above : Text} (h : LineStart above) : ∃ front : List Statement,
    front.length = above.count '\n' ∧ ∀ t, statements (above ++ t) = front ++ statements t := by
  rcases h with rfl | ⟨t, rfl⟩
  · exact ⟨[], rfl, fun t => rfl⟩
  · obtain ⟨front, hlength, -, happend⟩ := exists_statements_append t
    refine ⟨front, ?_, fun u => ?_⟩
    · rw [hlength, List.count_append, List.count_singleton_self]
    · rw [List.append_assoc, List.singleton_append, happend]

/-- A line is a statement of its own, and so are the lines below it. Only an empty line at the end
of a text is none, and then nothing is below it. -/
theorem exists_below {below : Text} (h : LineEnd below) : ∃ back : List Statement,
    ∀ (front : List Statement) (line : Text), '\n' ∉ line →
      ofStatements (front ++ statements (line ++ below)) =
        ofStatements (front ++ Statement.parse line :: back) := by
  rcases h with rfl | ⟨t, rfl⟩ | ⟨t, rfl⟩
  · refine ⟨[], fun front line hline => ?_⟩
    unfold statements
    rw [List.append_nil, lines_of_not_mem hline]
    cases line with
    | nil => rw [Statement.parse_nil, ofStatements_append_empty]; simp
    | cons c line => rfl
  · refine ⟨statements t, fun front line hline => ?_⟩
    rw [List.singleton_append, statements_append_newline hline]
  · refine ⟨statements t, fun front line hline => ?_⟩
    have hreturn : '\n' ∉ line ++ ['\r'] := by simp [hline]
    have hparse : Statement.parse (line ++ ['\r']) = Statement.parse line :=
      Statement.parse_of_respaced (.after (by decide))
    rw [← hparse, ← statements_append_newline hreturn, List.append_assoc]
    rfl

/-- Only the statement of a line matters. -/
theorem ofSource_congr_line {above line line' below : Text} (habove : LineStart above)
    (hbelow : LineEnd below) (hline : '\n' ∉ line) (hline' : '\n' ∉ line')
    (h : Statement.parse line' = Statement.parse line) :
    ofSource (above ++ (line' ++ below)) = ofSource (above ++ (line ++ below)) := by
  obtain ⟨front, -, hfront⟩ := exists_above habove
  obtain ⟨back, hback⟩ := exists_below hbelow
  unfold ofSource
  rw [hfront, hfront, hback front line' hline', hback front line hline, h]

/-- A last line that says nothing. -/
theorem ofSource_append_void {source line : Text} (hsource : LineStart source)
    (hline : line.IsVoid) : ofSource (source ++ line) = ofSource source := by
  have hparse : Statement.parse line = Statement.parse [] := by
    rw [Statement.parse_of_isVoid hline, Statement.parse_nil]
  have h := ofSource_congr_line hsource (.inl rfl) List.not_mem_nil hline.newline_not_mem hparse
  simpa using h

theorem ofSource_append_newline (source : Text) :
    ofSource (source ++ ['\n']) = ofSource source := by
  obtain ⟨ss, -, hss, happend⟩ := exists_statements_append source
  have hnewline : statements (source ++ ['\n']) = ss := (happend []).trans (List.append_nil ss)
  unfold ofSource
  rw [hnewline]
  rcases hss with rfl | rfl
  · rfl
  · exact ofStatements_append_empty _

/-- **One edit** changes the lines of instructions, and parts a label from its instruction when it
is given a line of its own. -/
theorem ofSource_edit {source edited : Text} {c : Change} (h : Edit source edited c) :
    ofSource edited = (ofSource source).edited c := by
  cases h with
  | insertLine habove hline =>
    obtain ⟨front, hlength, hfront⟩ := exists_above habove
    unfold ofSource
    rw [hfront, hfront, statements_append_newline hline.newline_not_mem,
      Statement.parse_of_isVoid hline, ofStatements_insert, hlength]
  | insertLast hsource hline => rw [ofSource_append_void hsource hline, edited_same]
  | @appendLine _ line hline =>
    have hstart : LineStart (source ++ ['\n']) := .inr (List.suffix_append source ['\n'])
    rw [List.append_cons, ofSource_append_void hstart hline, ofSource_append_newline, edited_same]
  | respace habove hline hbelow hspaced =>
    rw [edited_same]
    exact ofSource_congr_line habove hbelow hline (hspaced.newline_not_mem hline)
      (Statement.parse_of_respaced hspaced)
  | @returnLine above below =>
    obtain ⟨front, line, rfl, hfront, hline⟩ := exists_lineStart above
    have hspaced : Respaced line (line ++ ['\r']) := .after (by decide)
    have hend : LineEnd ('\n' :: below) := .inr (.inl ⟨below, rfl⟩)
    have h := ofSource_congr_line hfront hend hline (hspaced.newline_not_mem hline)
      (Statement.parse_of_respaced hspaced)
    rw [edited_same]
    simpa using h
  | @splitLabel above name rest below habove hcolon hsemi hname hone hrest hbelow =>
    obtain ⟨front, hlength, hfront⟩ := exists_above habove
    obtain ⟨back, hback⟩ := exists_below hbelow
    have hparse := Statement.parse_colon hcolon hsemi
    have hlabel : '\n' ∉ name ++ [':'] := by simp [hname]
    have hwhole : '\n' ∉ name ++ ':' :: rest := by simp [hname, hrest]
    have hsource : ofSource (above ++ (name ++ ':' :: (rest ++ below))) =
        ofStatements (front ++ Statement.parse (name ++ ':' :: rest) :: back) := by
      unfold ofSource
      rw [hfront, ← hback front _ hwhole, List.append_assoc, List.cons_append]
    have hedited : ofSource (above ++ (name ++ ':' :: '\n' :: (rest ++ below))) = ofStatements
        (front ++ Statement.parse (name ++ [':']) :: Statement.parse rest :: back) := by
      unfold ofSource
      rw [hfront, List.append_cons name, statements_append_newline hlabel, List.append_cons,
        hback _ rest hrest, List.append_assoc, List.singleton_append]
    rw [hsource, hedited, hparse, hparse, Statement.parse_of_no_colon hone, ← hlength,
      ← ofStatements_split]
    rfl

end Program

/-! ## Words and errors -/

theorem mapM_mapError {ε α β : Type} {f g : α → Except ε β} {k : ε → ε} {xs : List α}
    (h : ∀ x, g x = (f x).mapError k) : xs.mapM g = (xs.mapM f).mapError k := by
  induction xs with
  | nil => rfl
  | cons x xs ih =>
    rw [List.mapM_cons, List.mapM_cons, h, ih]
    cases f x with
    | error e => rfl
    | ok y => cases xs.mapM f <;> rfl

/-- Neither the line nor the label of an instruction is in its words. -/
theorem Change.assemble_instruction (c : Change) (symbols : Symbols) (ins : Instruction) :
    (c.instruction ins).assemble symbols = (ins.assemble symbols).mapError c.error := by
  have hmnemonic : (c.instruction ins).mnemonic = ins.mnemonic := rfl
  have hencode : ∀ op, (c.instruction ins).encode op symbols = ins.encode op symbols :=
    fun _ => rfl
  unfold Instruction.assemble
  rw [hmnemonic]
  cases Op.ofMnemonic? ins.mnemonic with
  | none => rfl
  | some op =>
    simp only [hencode]
    cases ins.encode op symbols <;> rfl

theorem Program.encode_edited (c : Change) (p : Program) :
    (p.edited c).encode = p.encode.mapError c.error := by
  have hblocks : (p.edited c).instructions.mapM (Instruction.assemble · p.symbols) =
      (p.instructions.mapM (Instruction.assemble · p.symbols)).mapError c.error := by
    rw [edited, List.mapM_map]
    exact mapM_mapError fun ins => c.assemble_instruction p.symbols ins
  rw [encode_eq_map, encode_eq_map]
  show ((p.edited c).instructions.mapM (Instruction.assemble · p.symbols)).map List.flatten = _
  rw [hblocks]
  cases p.instructions.mapM (Instruction.assemble · p.symbols) <;> rfl

/-- **Edits.** Whatever edits are made to a source text, one after another, the labels and the
address behind the code stay the same. Each instruction keeps its mnemonic, its operands and its
address: only its line moves down with each line inserted above it, and only its label is lost when
that gets a line of its own. The words stay the same, or the error but for its line. -/
theorem assemble_edited {source edited : Text} {changes : List Change}
    (h : Edits source edited changes) :
    let p := Program.ofSource source
    let q := Program.ofSource edited
    q.symbols = p.symbols ∧ q.stop = p.stop ∧
    (q.instructions = p.instructions.map fun ins =>
      changes.foldl (fun i c => c.instruction i) ins) ∧
    assemble edited = (assemble source).mapError fun e =>
      changes.foldl (fun e c => c.error e) e := by
  induction h with
  | none source =>
    refine ⟨rfl, rfl, (List.map_id' _).symm, ?_⟩
    cases assemble source <;> rfl
  | @step source next edited c cs hedit _ ih =>
    obtain ⟨hsymbols, hstop, hinstructions, hwords⟩ := ih
    have hnext := Program.ofSource_edit hedit
    have hassemble : assemble next = (assemble source).mapError c.error := by
      unfold assemble
      rw [hnext, Program.encode_edited]
    refine ⟨?_, ?_, ?_, ?_⟩
    · rw [hsymbols, hnext]
      rfl
    · rw [hstop, hnext]
      rfl
    · rw [hinstructions, hnext, Program.edited, List.map_map]
      rfl
    · rw [hwords, hassemble]
      cases assemble source <;> rfl

/-- A label gets a line of its own, and a lone colon, a carriage return, a comment, a tab and a line
end are added. One comment has a colon in it, and the last instruction is refused. -/
theorem assemble_edited_layout :
    let source := "L: NOP;:\nX".toList
    let edited := "L:\n NOP;:\r\n:\n\tX;y\n".toList
    let changes : List Change := [.split 0, .inserted 2, .same, .same, .same, .same]
    Edits source edited changes ∧
      (Program.ofSource edited).symbols.get? "L".toList = some 0 ∧
      (Program.ofSource edited).instructions.map (fun ins => (ins.label, ins.line)) =
        [(none, 2), (none, 4)] ∧
      assemble edited = .error ⟨4, .unknownMnemonic "X".toList⟩ := by
  intro source edited changes
  have hsplit : Edit source "L:\n NOP;:\nX".toList (.split 0) :=
    @Edit.splitLabel [] "L".toList " NOP;:".toList "\nX".toList
      (by decide) (by decide) (by decide) (by decide) (by decide) (by decide) (by decide)
  have hinsert : Edit "L:\n NOP;:\nX".toList "L:\n NOP;:\n:\nX".toList (.inserted 2) :=
    @Edit.insertLine "L:\n NOP;:\n".toList ":".toList "X".toList (by decide)
      (@IsVoid.colon [] [] (by decide) (by decide))
  have hreturn : Edit "L:\n NOP;:\n:\nX".toList "L:\n NOP;:\r\n:\nX".toList .same :=
    @Edit.returnLine "L:\n NOP;:".toList ":\nX".toList
  have hcomment : Edit "L:\n NOP;:\r\n:\nX".toList "L:\n NOP;:\r\n:\nX;y".toList .same :=
    @Edit.respace "L:\n NOP;:\r\n:\n".toList "X".toList _ []
      (by decide) (by decide) (by decide) (@Respaced.comment _ ['y'] (by decide))
  have hblank : Edit "L:\n NOP;:\r\n:\nX;y".toList "L:\n NOP;:\r\n:\n\tX;y".toList .same :=
    @Edit.respace "L:\n NOP;:\r\n:\n".toList "X;y".toList _ []
      (by decide) (by decide) (by decide) (@Respaced.before _ ['\t'] (by decide))
  have hlast : Edit "L:\n NOP;:\r\n:\n\tX;y".toList edited .same :=
    @Edit.appendLine _ [] (.blanks (by decide))
  have hedits : Edits source edited changes :=
    .step hsplit (.step hinsert (.step hreturn (.step hcomment (.step hblank
      (.step hlast (.none edited))))))
  obtain ⟨hsymbols, -, hinstructions, hwords⟩ := assemble_edited hedits
  refine ⟨hedits, ?_, ?_, ?_⟩
  · rw [hsymbols]
    decide
  · rw [hinstructions]
    decide
  · rw [hwords]
    rfl

end Assembly

end Cvere
