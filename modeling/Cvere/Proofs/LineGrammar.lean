import Cvere.Proofs.Editing

/-!
# The grammar of a source line

A source line is a label with a colon, a mnemonic, operands with commas between them, and a comment
behind a semicolon. All of these may be missing, and blanks may stand around each. The reader makes
four splits, one inside the other; here its result is compared with the grammar.

**The grammar.** `OperandList` are operands with commas and blanks, `Written` is a mnemonic with its
operands, and `Line` adds the label and the comment. The relations hold the conditions on the
pieces: a label is not empty and neither it nor an operand has a blank at an end, a mnemonic has no
blank at all, and no piece has a character that ends it.

**Both directions.** Operands and commands are read exactly as they are written
(`splitOperands_eq_iff`, `parse?_eq_some_iff`). For a whole line the grammar is one direction. In
the other the pieces have the shape of `Shaped`, which is weaker by one character: a colon behind
the label is an ordinary character to the reader.

**Main result.** `parse_grammar`.
-/

namespace Cvere

namespace Text

/-- A text of blanks, or an empty one. -/
def AllBlank (t : Text) : Prop :=
  ∀ c ∈ t, isBlank c = true

/-- The text can stand on a line among others: no colon and no semicolon is in it. -/
def Plain (t : Text) : Prop :=
  ':' ∉ t ∧ ';' ∉ t

instance (t : Text) : Decidable t.AllBlank :=
  List.decidableBAll _ t

instance (t : Text) : Decidable t.Plain :=
  inferInstanceAs (Decidable (_ ∧ _))

instance (t : Text) : Decidable t.Trimmed :=
  decidable_of_iff (trim t = t) trim_eq_self_iff

end Text

open Text

/-! ## The grammar -/

namespace Command

/-- Operands with commas between them and blanks around each. -/
inductive OperandList : List Text → Text → Prop
  | last {front o back : Text} : front.AllBlank → back.AllBlank → o.Trimmed → ',' ∉ o →
      OperandList [o] (front ++ (o ++ back))
  | cons {front o back rest : Text} {ops : List Text} : front.AllBlank → back.AllBlank →
      o.Trimmed → ',' ∉ o → OperandList ops rest →
      OperandList (o :: ops) (front ++ (o ++ (back ++ ',' :: rest)))

/-- A text that a command can have as its mnemonic, in whatever case. -/
def IsMnemonic (token : Text) : Prop :=
  token ≠ [] ∧ ∀ c ∈ token, isBlank c = false

instance (token : Text) : Decidable (IsMnemonic token) :=
  @instDecidableAnd _ _ inferInstance (List.decidableBAll _ token)

/-- A mnemonic and operands with at least one blank between them, or a mnemonic alone. A single
empty operand cannot be told from none. -/
inductive Written (token : Text) : List Text → Text → Prop
  | bare {blanks : Text} : IsMnemonic token → blanks.AllBlank → Written token [] (token ++ blanks)
  | operands {b : Char} {rest : Text} {ops : List Text} : IsMnemonic token → isBlank b = true →
      OperandList ops rest → ops ≠ [[]] → Written token ops (token ++ b :: rest)

end Command

namespace Statement

/-- A text that a line can have as its label. -/
def IsName (name : Text) : Prop :=
  name ≠ [] ∧ name.Trimmed ∧ name.Plain

instance (name : Text) : Decidable (IsName name) :=
  inferInstanceAs (Decidable (_ ∧ _ ∧ _))

/-- A line with an optional label, a mnemonic, operands, and an optional comment. -/
inductive Line : Option Text → Text → List Text → Text → Prop
  | plain {front token body : Text} {ops : List Text} : front.AllBlank →
      Command.Written token ops body → token.Plain → (∀ o ∈ ops, Plain o) →
      Line none token ops (front ++ body)
  | labelled {front name back gap token body : Text} {ops : List Text} : front.AllBlank →
      IsName name → back.AllBlank → gap.AllBlank → Command.Written token ops body →
      token.Plain → (∀ o ∈ ops, Plain o) →
      Line (some name) token ops (front ++ (name ++ (back ++ ':' :: (gap ++ body))))
  | commented {label : Option Text} {token line comment : Text} {ops : List Text} :
      Line label token ops line → Line label token ops (line ++ ';' :: comment)

/-- The mnemonic of a statement, in upper case. -/
def mnemonic? (s : Statement) : Option Text :=
  s.command.map Command.mnemonic

/-- The operands of a statement. -/
def operands (s : Statement) : List Text :=
  (s.command.map Command.operands).getD []

/-- What every statement that was read from a line is like. -/
structure Shaped (s : Statement) : Prop where
  label : ∀ name, s.label = some name → IsName name
  no_operands : s.mnemonic? = none → s.operands = []
  mnemonic : ∀ m, s.mnemonic? = some m → ∃ token, Command.IsMnemonic token ∧ ';' ∉ token ∧
    m = Text.upper token
  operand : ∀ o ∈ s.operands, o.Trimmed ∧ ',' ∉ o ∧ ';' ∉ o
  not_blank : s.operands ≠ [[]]

end Statement

/-! ## Trimming -/

namespace Text

theorem AllBlank.not_mem {t : Text} (h : t.AllBlank) {c : Char} (hc : isBlank c = false) :
    c ∉ t := by
  intro hmem
  rw [h c hmem] at hc
  cases hc

/-- A text is its trimmed text with blanks around it. -/
theorem exists_eq_trim (t : Text) :
    ∃ front back : Text, front.AllBlank ∧ back.AllBlank ∧ t = front ++ (trim t ++ back) := by
  obtain ⟨back, hback, hblank⟩ := exists_append_trimEnd (trimStart t)
  refine ⟨t.takeWhile isBlank, back, ?_, hblank, ?_⟩
  · intro c hc
    exact List.all_eq_true.mp List.all_takeWhile c hc
  · have hsplit : t.takeWhile isBlank ++ trimStart t = t := List.takeWhile_append_dropWhile
    rw [trim, ← hback, hsplit]

theorem trim_of_padded {front t back : Text} (hfront : front.AllBlank) (hback : back.AllBlank)
    (ht : t.Trimmed) : trim (front ++ (t ++ back)) = t := by
  rw [trim_append_of_blank hfront, trim_append_blank hback, trim_eq_self_iff.mpr ht]

end Text

/-! ## Operands -/

namespace Command

theorem splitOperands_of_operandList {ops : List Text} {t : Text} (h : OperandList ops t) :
    splitOperands t = ops := by
  induction h with
  | @last front o back hfront hback htrim hcomma =>
    have hfree : ',' ∉ front ++ (o ++ back) := by
      simp [hfront.not_mem, hback.not_mem, hcomma, show isBlank ',' = false by decide]
    rw [splitOperands_of_not_mem hfree, trim_of_padded hfront hback htrim]
  | @cons front o back rest ops hfront hback htrim hcomma _ ih =>
    have hfree : ',' ∉ front ++ (o ++ back) := by
      simp [hfront.not_mem, hback.not_mem, hcomma, show isBlank ',' = false by decide]
    have hassoc :
        front ++ (o ++ (back ++ ',' :: rest)) = (front ++ (o ++ back)) ++ ',' :: rest := by
      simp only [List.append_assoc]
    rw [hassoc, splitOperands_append_comma hfree, trim_of_padded hfront hback htrim, ih]

/-- Every text is a list of operands. The induction is on the commas, from the front. -/
theorem operandList_splitOperands (t : Text) : OperandList (splitOperands t) t := by
  induction hn : t.length using Nat.strongRecOn generalizing t with
  | ind n ih =>
    by_cases ht : ',' ∈ t
    · obtain ⟨a, rest, rfl, ha⟩ := List.eq_append_cons_of_mem ht
      have hlt : rest.length < n := by
        rw [← hn, List.length_append, List.length_cons]
        omega
      obtain ⟨front, back, hfront, hback, hsplit⟩ := exists_eq_trim a
      have hcons := OperandList.cons hfront hback (trimmed_trim a)
        (fun hc => ha (mem_of_mem_trim hc)) (ih rest.length hlt rest rfl)
      have hassoc : front ++ (trim a ++ (back ++ ',' :: rest)) = a ++ ',' :: rest := by
        conv => rhs; rw [hsplit]
        simp only [List.append_assoc]
      rwa [splitOperands_append_comma ha, ← hassoc]
    · obtain ⟨front, back, hfront, hback, hsplit⟩ := exists_eq_trim t
      have hlast := OperandList.last hfront hback (trimmed_trim t)
        fun hc => ht (mem_of_mem_trim hc)
      rwa [← hsplit, ← splitOperands_of_not_mem ht] at hlast

/-- Operands are read exactly as they are written. -/
theorem splitOperands_eq_iff {ops : List Text} {t : Text} :
    splitOperands t = ops ↔ OperandList ops t := by
  constructor
  · rintro rfl
    exact operandList_splitOperands t
  · exact splitOperands_of_operandList

namespace OperandList

variable {ops : List Text} {t : Text}

theorem trimmed_of_mem (h : OperandList ops t) {o : Text} (ho : o ∈ ops) :
    o.Trimmed ∧ ',' ∉ o := by
  induction h with
  | last _ _ htrim hcomma =>
    rw [List.mem_singleton.mp ho]
    exact ⟨htrim, hcomma⟩
  | cons _ _ htrim hcomma _ ih =>
    rcases List.mem_cons.mp ho with rfl | ho
    · exact ⟨htrim, hcomma⟩
    · exact ih ho

/-- The text of a list of operands has nothing in it but operands, commas and blanks. -/
theorem mem_iff (h : OperandList ops t) {c : Char} (hblank : isBlank c = false) (hc : c ≠ ',') :
    c ∈ t ↔ ∃ o ∈ ops, c ∈ o := by
  induction h with
  | last hfront hback => simp [hfront.not_mem hblank, hback.not_mem hblank]
  | cons hfront hback _ _ _ ih =>
    simp [hfront.not_mem hblank, hback.not_mem hblank, hc, ih]

/-- Only an empty operand leaves nothing but blanks. -/
theorem eq_of_allBlank (h : OperandList ops t) (ht : t.AllBlank) : ops = [[]] := by
  have hcomma : ',' ∉ t := ht.not_mem (by decide)
  have htrim : trim t = [] := by
    have hnil := trim_append_of_blank ht []
    rwa [List.append_nil] at hnil
  rw [← splitOperands_eq_iff.mpr h, splitOperands_of_not_mem hcomma, htrim]

theorem allBlank (h : OperandList [[]] t) : t.AllBlank := by
  cases h with
  | last hfront hback =>
    intro c hc
    rw [List.nil_append, List.mem_append] at hc
    rcases hc with hc | hc
    · exact hfront c hc
    · exact hback c hc
  | cons _ _ _ _ hrest => cases hrest

end OperandList

/-! ## Commands -/

variable {token t : Text} {ops : List Text}

/-- The text of a command has nothing in it but the mnemonic, operands, commas and blanks. -/
theorem Written.mem_iff (h : Written token ops t) {c : Char} (hblank : isBlank c = false)
    (hc : c ≠ ',') : c ∈ t ↔ c ∈ token ∨ ∃ o ∈ ops, c ∈ o := by
  cases h with
  | bare _ hblanks => simp [hblanks.not_mem hblank]
  | @operands b _ _ _ hb hlist _ =>
    have hne : c ≠ b := by
      rintro rfl
      rw [hb] at hblank
      cases hblank
    simp [hne, hlist.mem_iff hblank hc]

theorem Written.isMnemonic (h : Written token ops t) : IsMnemonic token := by
  cases h <;> assumption

theorem Written.trimmed_of_mem (h : Written token ops t) {o : Text} (ho : o ∈ ops) :
    o.Trimmed ∧ ',' ∉ o := by
  cases h with
  | bare => cases ho
  | operands _ _ hlist _ => exact hlist.trimmed_of_mem ho

theorem Written.ne_blank (h : Written token ops t) : ops ≠ [[]] := by
  cases h with
  | bare => simp
  | operands _ _ _ hne => exact hne

theorem Written.plain (h : Written token ops t) (htoken : token.Plain)
    (hops : ∀ o ∈ ops, Plain o) : t.Plain := by
  constructor
  · rw [h.mem_iff (by decide) (by decide), not_or]
    exact ⟨htoken.1, fun ⟨o, ho, hc⟩ => (hops o ho).1 hc⟩
  · rw [h.mem_iff (by decide) (by decide), not_or]
    exact ⟨htoken.2, fun ⟨o, ho, hc⟩ => (hops o ho).2 hc⟩

theorem parse?_trim_of_written (h : Written token ops t) :
    parse? (trim t) = some ⟨Text.upper token, ops⟩ := by
  cases h with
  | bare htoken hblanks =>
    have htrim := trim_eq_self_iff.mpr (trimmed_of_not_blank htoken.2)
    rw [trim_append_blank hblanks, htrim, parse?_of_not_blank htoken.1 htoken.2]
  | operands htoken hb hlist hne =>
    rw [parse?_trim_append htoken.1 htoken.2 hb, splitOperands_eq_iff.mpr hlist, if_neg]
    intro hnil
    exact hne (hlist.eq_of_allBlank (trimEnd_eq_nil_iff.mp hnil))

/-- What is read as a command was written as one. -/
theorem written_of_parse? (ht : t.Trimmed) {c : Command} (h : parse? t = some c) :
    ∃ token, c.mnemonic = Text.upper token ∧ Written token c.operands t := by
  unfold parse? at h
  split at h
  · cases h
  next hne =>
  have hne : t ≠ [] := by simpa using hne
  cases hcut : cut? isBlank t with
  | none =>
    rw [hcut] at h
    cases h
    have hbare := Written.bare ⟨hne, cut?_eq_none_iff.mp hcut⟩ (List.forall_mem_nil _)
    rw [List.append_nil] at hbare
    exact ⟨t, rfl, hbare⟩
  | some halves =>
    obtain ⟨m, rest⟩ := halves
    rw [hcut] at h
    cases h
    obtain ⟨hfree, b, hb, rfl⟩ := append_of_cut? hcut
    have hm : m ≠ [] := by
      rintro rfl
      rw [ht.1 b rfl] at hb
      cases hb
    have hlist : OperandList (splitOperands rest) rest := splitOperands_eq_iff.mp rfl
    -- A trimmed text does not end in the blanks that a single empty operand would leave.
    have hops : splitOperands rest ≠ [[]] := by
      intro hnil
      rw [hnil] at hlist
      have hlast : ∀ c, (m ++ b :: rest).getLast? = some c → isBlank c = true := by
        intro c hc
        rw [List.getLast?_append_of_ne_nil _ (List.cons_ne_nil b rest)] at hc
        rcases List.mem_cons.mp (List.mem_of_mem_getLast? hc) with rfl | hc
        · exact hb
        · exact hlist.allBlank c hc
      obtain ⟨c, hc⟩ := Option.isSome_iff_exists.mp (List.getLast?_isSome.mpr hne)
      have hblank := hlast c hc
      rw [ht.2 c hc] at hblank
      cases hblank
    refine ⟨m, rfl, ?_⟩
    show Written m (splitOperands (trim rest)) _
    rw [splitOperands_trim]
    exact .operands ⟨hm, hfree⟩ hb hlist hops

/-- A trimmed text is read as a command exactly as it is written. -/
theorem parse?_eq_some_iff (ht : t.Trimmed) {c : Command} :
    parse? t = some c ↔ ∃ token, c.mnemonic = Text.upper token ∧ Written token c.operands t := by
  constructor
  · exact written_of_parse? ht
  · intro h
    obtain ⟨token, hmnemonic, hwritten⟩ := h
    rw [← trim_eq_self_iff.mpr ht, parse?_trim_of_written hwritten, ← hmnemonic]

end Command

/-! ## Lines -/

namespace Statement

theorem code_of_plain {t : Text} (h : t.Plain) : code t = trim t := by
  rw [code, before_eq_self h.2]

theorem parse_of_line {label : Option Text} {token line : Text} {ops : List Text}
    (h : Line label token ops line) : parse line = ⟨label, some ⟨Text.upper token, ops⟩⟩ := by
  induction h with
  | @plain front token body ops hfront hwritten htoken hops =>
    have hplain := hwritten.plain htoken hops
    have hcolon : ':' ∉ before ';' body := by
      rw [before_eq_self hplain.2]
      exact hplain.1
    rw [parse_congr (code_append_of_blank hfront body), parse_of_no_colon hcolon,
      code_of_plain hplain, Command.parse?_trim_of_written hwritten]
  | @labelled front name back gap token body ops hfront hname hback hgap hwritten htoken hops =>
    obtain ⟨hne, htrim, hcolon, hsemi⟩ := hname
    have hplain := hwritten.plain htoken hops
    have hcolon' : ':' ∉ name ++ back := by
      simp [hcolon, hback.not_mem (show isBlank ':' = false by decide)]
    have hsemi' : ';' ∉ name ++ back := by
      simp [hsemi, hback.not_mem (show isBlank ';' = false by decide)]
    have hlabel : labelOf (trim (name ++ back)) = some name := by
      rw [trim_append_blank hback, trim_eq_self_iff.mpr htrim, labelOf, if_neg (by simpa using hne)]
    rw [parse_congr (code_append_of_blank hfront _), ← List.append_assoc,
      parse_colon hcolon' hsemi', hlabel, code_append_of_blank hgap, code_of_plain hplain,
      Command.parse?_trim_of_written hwritten]
  | commented _ ih => rw [parse_congr (code_append_comment _ _), ih]

/-- A label and a command that is read from a trimmed text without a comment. -/
theorem shaped_of_command {label : Option Text} {t : Text}
    (hlabel : ∀ name, label = some name → IsName name) (ht : t.Trimmed) (hsemi : ';' ∉ t) :
    Shaped ⟨label, Command.parse? t⟩ := by
  cases hc : Command.parse? t with
  | none =>
    exact {
      label := hlabel
      no_operands := fun _ => rfl
      mnemonic := fun m hm => by cases hm
      operand := List.forall_mem_nil _
      not_blank := by simp [operands] }
  | some c =>
    obtain ⟨token, hmnemonic, hwritten⟩ := (Command.parse?_eq_some_iff ht).mp hc
    rw [hwritten.mem_iff (by decide) (by decide), not_or] at hsemi
    refine { label := hlabel, no_operands := ?_, mnemonic := ?_, operand := ?_, not_blank := ?_ }
    · intro hnone
      cases hnone
    · intro m hm
      cases hm
      exact ⟨token, hwritten.isMnemonic, hsemi.1, hmnemonic⟩
    · intro o ho
      obtain ⟨htrim, hcomma⟩ := hwritten.trimmed_of_mem ho
      exact ⟨htrim, hcomma, fun hc => hsemi.2 ⟨o, ho, hc⟩⟩
    · exact hwritten.ne_blank

theorem isName_of_parse {line name : Text} (h : (parse line).label = some name) : IsName name := by
  obtain ⟨hne, htrim, hfree⟩ := label_of_parse h
  exact ⟨hne, htrim, fun hc => (hfree _ hc).1 rfl, fun hc => (hfree _ hc).2.1 rfl⟩

theorem semicolon_not_mem_code (line : Text) : ';' ∉ code line :=
  fun h => ne_of_mem_before (mem_of_mem_trim h) rfl

theorem shaped_parse (line : Text) : (parse line).Shaped := by
  have hname : ∀ name, (parse line).label = some name → IsName name := fun _ => isName_of_parse
  have hsemi := semicolon_not_mem_code line
  unfold parse at hname ⊢
  cases hcut : cut? (· == ':') (code line) with
  | none =>
    rw [hcut] at hname
    exact shaped_of_command hname (trimmed_trim _) hsemi
  | some halves =>
    rw [hcut] at hname
    obtain ⟨-, c, -, hcode⟩ := append_of_cut? hcut
    refine shaped_of_command hname (trimmed_trim _) fun hmem => hsemi ?_
    rw [hcode]
    exact List.mem_append_right _ (List.mem_cons_of_mem _ (mem_of_mem_trim hmem))

/-- **The grammar of a line.** A line that is written by the grammar, with any blanks around its
pieces and any comment, is read as its label, its mnemonic in upper case and its operands. Whatever
line is read, written by the grammar or not, the pieces of the result have the shape of pieces. -/
theorem parse_grammar :
    (∀ (label : Option Text) (token line : Text) (ops : List Text), Line label token ops line →
      (parse line).label = label ∧ (parse line).mnemonic? = some (Text.upper token) ∧
        (parse line).operands = ops) ∧
    ∀ line : Text, (parse line).Shaped := by
  refine ⟨fun label token line ops h => ?_, shaped_parse⟩
  rw [parse_of_line h]
  exact ⟨rfl, rfl, rfl⟩

/-- A label and an operand with blanks inside, an empty operand, blanks of several kinds, and a
comment with more colons and semicolons in it. -/
theorem parse_grammar_spaced :
    let line := "\tmy loop :add\u3000 r1 ,, x y\r\n;:;".toList
    let ops := ["r1".toList, [], "x y".toList]
    Line (some "my loop".toList) "add".toList ops line ∧
      (parse line).label = some "my loop".toList ∧ (parse line).mnemonic? = some "ADD".toList ∧
      (parse line).operands = ops := by
  intro line ops
  have hlast : Command.OperandList ["x y".toList] ([' '] ++ ("x y".toList ++ ['\r', '\n'])) :=
    .last (by decide) (by decide) (by decide) (by decide)
  have hempty : Command.OperandList [[], "x y".toList] ([] ++ ([] ++ ([] ++ ',' :: _))) :=
    .cons (by decide) (by decide) (by decide) (by decide) hlast
  have hops : Command.OperandList ops ([' '] ++ ("r1".toList ++ ([' '] ++ ',' :: _))) :=
    .cons (by decide) (by decide) (by decide) (by decide) hempty
  have hbody : Command.Written "add".toList ops ("add".toList ++ '\u3000' :: _) :=
    .operands (by decide) (by decide) hops (by decide)
  have hcode : Line (some "my loop".toList) "add".toList ops
      (['\t'] ++ ("my loop".toList ++ ([' '] ++ ':' :: ([] ++ _)))) :=
    .labelled (by decide) (by decide) (by decide) (by decide) hbody (by decide) (by decide)
  have hline : Line (some "my loop".toList) "add".toList ops (_ ++ ';' :: [':', ';']) :=
    .commented hcode
  exact ⟨hline, parse_grammar.1 _ _ _ _ hline⟩

end Statement

end Cvere
