import Cvere.Proofs.Diagnosis
import Cvere.Proofs.Rendering
import Mathlib.Data.List.Nodup

/-!
# Source text behind other source text

A source text can be put behind another one that has no labels, no jumps and no branches. Its code
then moves by the size of the code in front, and its lines move down.

**What moves.** An instruction keeps its command and gets another line and address (`moved`), and a
label another address. A distance between two addresses stays the same, so the words of branches do
not change. A jump to a label holds the address itself, so its field grows by the size of the code
in front (`relocated`). A number is taken as it stands, in jumps and in branches.

**The proof** goes from one instruction (`assemble_moved`) to the instructions of a program, which
may also fail. `flatten_relocated` then finds the words of the jumps to labels by their index: the
word with index `i` belongs to the instruction at address `2 * i`, and the second word of an
extended instruction to none.

**Main result.** `assemble_behind`: what becomes of the words, the labels and the error of a source
text behind another.
-/

namespace Cvere

/-- The word of a jump to a place that lies `distance` bytes further on. -/
def Word.advance (distance : Nat) (w : Word) : Word :=
  .ofNibbleTail w.top (BitVec.ofNat 12 (w.tail.toNat + distance))

theorem Word.advance_ofNibbleTail (distance : Nat) (n : Nibble) (t : BitVec 12) :
    (Word.ofNibbleTail n t).advance distance =
      .ofNibbleTail n (t + BitVec.ofNat 12 distance) := by
  rw [advance, top_ofNibbleTail, tail_ofNibbleTail, BitVec.ofNat_add, BitVec.ofNat_toNat,
    BitVec.setWidth_eq]

namespace Assembly

/-- The error on a line so many lines further down. -/
def Error.below (lines : Nat) (e : Error) : Error :=
  { e with line := e.line + lines }

/-- The source text has no labels, no jumps and no branches. -/
structure StraightLine (source : Text) : Prop where
  unlabelled : ∀ s ∈ Program.statements source, s.label = none
  straight : ∀ ins ∈ (Program.ofSource source).instructions, ∀ op,
    Op.ofMnemonic? ins.mnemonic = some op → op.family ≠ .jump ∧ op.family ≠ .branch

namespace Instruction

/-- The instruction so many lines further down and so many bytes further on. -/
def moved (lines distance : Nat) (ins : Instruction) : Instruction :=
  { ins with line := ins.line + lines, address := ins.address + BitVec.ofNat 32 distance }

/-- The instruction is a jump, and its operand is the name of a label. -/
def jumpsToLabel (symbols : Symbols) (ins : Instruction) : Bool :=
  (Op.ofMnemonic? ins.mnemonic).any (·.family = .jump) &&
    ins.operands[0]?.any fun name => name ∈ symbols.keys

/-- The words of the instruction after it was moved. -/
def relocated (symbols : Symbols) (distance : Nat) (ins : Instruction) (words : List Word) :
    List Word :=
  if ins.jumpsToLabel symbols then words.map (Word.advance distance) else words

end Instruction

/-- A jump to a label stands at the address. -/
def jumpsAt (symbols : Symbols) (is : List Instruction) (address : Nat) : Bool :=
  is.any fun ins => ins.address.toNat = address && ins.jumpsToLabel symbols

/-- The words of the program after its code was moved: those of the jumps to labels lead further
on, and all others stay as they are. The word with index `i` stands at address `2 * i`. -/
def Program.relocated (p : Program) (distance : Nat) (words : List Word) : List Word :=
  words.mapIdx fun i w =>
    if jumpsAt p.symbols p.instructions (2 * i) then w.advance distance else w

end Assembly

/-- A carriage return at the end of a line does not matter. -/
theorem Statement.parse_dropReturn (t : Text) : parse (Text.dropReturn t) = parse t := by
  obtain ⟨s, hs, hblank⟩ := Text.exists_append_dropReturn t
  conv => rhs; rw [hs]
  exact (parse_congr (code_append_blank hblank _)).symm

/-! ## Labels -/

section Bindings

variable {κ ν μ : Type} [DecidableEq κ]

theorem Bindings.entries_insertAll_map (f : ν → μ) (ps : List (κ × ν)) {m : Bindings κ ν}
    {n : Bindings κ μ} (h : n.entries = m.entries.map fun e => (e.1, f e.2)) :
    (n.insertAll (ps.map fun p => (p.1, f p.2))).entries =
      (m.insertAll ps).entries.map fun e => (e.1, f e.2) := by
  induction ps generalizing m n with
  | nil => exact h
  | cons p ps ih =>
    apply ih
    show (p.1, f p.2) :: n.entries.filter (fun e => e.1 ≠ p.1) = _
    rw [h, List.filter_map]
    rfl

theorem Bindings.get?_of_entries_map (f : ν → μ) {m : Bindings κ ν} {n : Bindings κ μ}
    (h : n.entries = m.entries.map fun e => (e.1, f e.2)) (k : κ) :
    n.get? k = (m.get? k).map f := by
  unfold get?
  rw [h]
  induction m.entries with
  | nil => rfl
  | cons e entries ih =>
    rw [List.map_cons, List.lookup_cons, List.lookup_cons, ih]
    cases k == e.1 <;> rfl

end Bindings

namespace Assembly

namespace Program

theorem toNat_ofNat_of_lt {n : Nat} (h : n < Address.count) : (BitVec.ofNat 32 n).toNat = n :=
  Nat.mod_eq_of_lt h

theorem toNat_add_ofNat {a : Address} {distance : Nat} (h : a.toNat + distance < Address.count) :
    (a + BitVec.ofNat 32 distance).toNat = a.toNat + distance := by
  rw [BitVec.toNat_add, toNat_ofNat_of_lt (by omega)]
  exact Nat.mod_eq_of_lt h

theorem definitionsFrom_add (ss : List Statement) (offset distance : Nat) :
    definitionsFrom (offset + distance) ss =
      (definitionsFrom offset ss).map fun d => (d.1, d.2 + BitVec.ofNat 32 distance) := by
  induction ss generalizing offset with
  | nil => rfl
  | cons s rest ih =>
    rw [definitionsFrom, definitionsFrom, List.map_append, Nat.add_right_comm, ih, List.map_map,
      BitVec.ofNat_add]
    rfl

theorem definitionsFrom_of_unlabelled {ss : List Statement} (h : ∀ s ∈ ss, s.label = none)
    (offset : Nat) : definitionsFrom offset ss = [] := by
  induction ss generalizing offset with
  | nil => rfl
  | cons s rest ih =>
    rw [List.forall_mem_cons] at h
    rw [definitionsFrom, h.1, ih h.2]
    rfl

end Program

/-- Labels that all move by the same distance keep their order. -/
theorem table_of_entries_map {symbols symbols' : Symbols} {distance : Nat}
    (h : symbols'.entries = symbols.entries.map fun e => (e.1, e.2 + BitVec.ofNat 32 distance))
    (hfit : ∀ name a, symbols.get? name = some a → a.toNat + distance < Address.count) :
    symbols'.table.map (fun l => (l.name, l.address.toNat)) =
      symbols.table.map fun l => (l.name, l.address.toNat + distance) := by
  let shift : Label → Label := fun l => { l with address := l.address + BitVec.ofNat 32 distance }
  have hshift : ∀ l ∈ symbols.table, (shift l).address.toNat = l.address.toNat + distance := by
    intro l hl
    exact Program.toNat_add_ofNat (hfit l.name l.address ((Symbols.mem_table_iff _ _).mp hl))
  have htable : symbols'.table = symbols.table.map shift := by
    unfold Symbols.table
    rw [h, List.map_map, List.map_mergeSort, List.map_map]
    · rfl
    · intro a ha b hb
      rw [← List.mem_mergeSort] at ha hb
      show Label.le a b = Label.le (shift a) (shift b)
      unfold Label.le
      rw [hshift a ha, hshift b hb]
      simp only [shift, Nat.add_lt_add_iff_right, beq_eq_decide, BitVec.add_left_inj]
  rw [htable, List.map_map]
  apply List.map_congr_left
  intro l hl
  simp only [Function.comp_apply, hshift l hl]
  rfl

/-! ## One instruction -/

/-- A target that is a label moves with the code; a number stays as it is. -/
def Target.moved (distance : Nat) : Target → Target
  | .label a => .label (a + BitVec.ofNat 32 distance)
  | .literal v => .literal v

/-- The displacement to a label that moves with the branch does not change. -/
theorem Target.displacement_moved (origin : Address) (distance : Nat) (t : Target) :
    (t.moved distance).displacement (origin + BitVec.ofNat 32 distance) =
      t.displacement origin := by
  cases t with
  | literal v => rfl
  | label a =>
    apply BitVec.eq_of_toNat_eq
    simp only [Target.moved, Target.displacement, BitVec.toNat_ofInt, BitVec.toNat_add,
      BitVec.toNat_ofNat]
    -- Around the end of the address space the distance changes by a multiple of 256 words.
    omega

theorem Target.absolute_moved_label (distance : Nat) (a : Address) :
    ((Target.label a).moved distance).absolute =
      (Target.label a).absolute + BitVec.ofNat 12 distance := by
  change (a + BitVec.ofNat 32 distance).setWidth 12 = a.setWidth 12 + BitVec.ofNat 12 distance
  rw [BitVec.setWidth_add _ _ (by decide), BitVec.setWidth_ofNat_of_le (by decide)]

namespace Instruction

section Keys

variable {ins : Instruction} {symbols : Symbols} {i : Nat}

theorem isKey_of_target {t : Target} (h : ins.target symbols i = .ok t) :
    (ins.operands[i]?.any fun name => name ∈ symbols.keys) = match t with
      | .label _ => true
      | .literal _ => false := by
  unfold target operand at h
  cases htoken : ins.operands[i]? with
  | none => simp [htoken, bind, Except.bind] at h
  | some token =>
    simp only [htoken, bind, Except.bind] at h
    have hkey := Bindings.mem_keys_iff symbols token
    cases hget : symbols.get? token with
    | some a =>
      simp only [hget] at h
      cases h
      simp [hkey, hget]
    | none =>
      cases hv : Literal.parse? token with
      | some v =>
        simp only [hget, hv] at h
        cases h
        simp [hkey, hget]
      | none =>
        simp only [hget, hv] at h
        split at h <;> cases h

end Keys

variable {symbols symbols' : Symbols} (lines : Nat) {distance : Nat}
  (hsymbols : ∀ name, symbols'.get? name =
    (symbols.get? name).map (· + BitVec.ofNat 32 distance))
include hsymbols

theorem target_moved (ins : Instruction) (i : Nat) :
    (ins.moved lines distance).target symbols' i =
      (ins.target symbols i).map (Target.moved distance) := by
  have hoperand : (ins.moved lines distance).operand i = ins.operand i := rfl
  unfold target
  rw [hoperand]
  cases ins.operand i with
  | error cause => rfl
  | ok token =>
    simp only [bind, Except.bind, hsymbols]
    cases symbols.get? token with
    | some a => rfl
    | none =>
      cases Literal.parse? token with
      | some v => rfl
      | none => cases looksLikeLabel token <;> rfl

theorem encode_moved {op : Op} {ins : Instruction} (hop : Op.ofMnemonic? ins.mnemonic = some op) :
    (ins.moved lines distance).encode op symbols' =
      (ins.encode op symbols).map (ins.relocated symbols distance) := by
  have hregister : ∀ i, (ins.moved lines distance).register i = ins.register i := fun _ => rfl
  have hkeep : op.family ≠ .jump → ins.relocated symbols distance = id := by
    intro hf
    funext words
    rw [relocated, if_neg (by simp [jumpsToLabel, hop, hf])]
    rfl
  have hsame : ∀ x : Except Cause (List Word), x = x.map id := by
    intro x
    cases x <;> rfl
  cases hf : op.family with
  | jump =>
    simp only [encode, hf, target_moved lines hsymbols]
    cases ht : ins.target symbols 0 with
    | error cause => rfl
    | ok t =>
      have hjump := isKey_of_target ht
      cases t with
      | label a =>
        simp only [Except.map, bind, Except.bind, pure, Except.pure, relocated, jumpsToLabel, hop,
          Option.any_some, hf, decide_true, hjump, Bool.and_self, if_true, List.map_cons,
          List.map_nil, Word.advance_ofNibbleTail, Target.absolute_moved_label]
      | literal v =>
        simp only [Except.map, bind, Except.bind, pure, Except.pure, relocated, jumpsToLabel,
          hjump, Bool.and_false, Bool.false_eq_true, if_false]
        rfl
  | branch =>
    rw [hkeep (by simp [hf]), ← hsame]
    simp only [encode, hf, target_moved lines hsymbols, hregister]
    cases ins.register 0 with
    | error cause => rfl
    | ok rc =>
      cases ins.target symbols 1 with
      | error cause => rfl
      | ok t =>
        simp only [Except.map, bind, Except.bind, pure, Except.pure]
        rw [← t.displacement_moved ins.address distance]
        rfl
  | register | immediate | memory =>
    rw [hkeep (by simp [hf]), ← hsame]
    simp only [encode, hf]
    rfl
  | extended | special =>
    rw [hkeep (by simp [hf]), ← hsame]
    simp only [encode, hf]

theorem assemble_moved (ins : Instruction) :
    (ins.moved lines distance).assemble symbols' =
      ((ins.assemble symbols).map (ins.relocated symbols distance)).mapError (.below lines) := by
  have hmnemonic : (ins.moved lines distance).mnemonic = ins.mnemonic := rfl
  unfold assemble
  rw [hmnemonic]
  cases hop : Op.ofMnemonic? ins.mnemonic with
  | none => rfl
  | some op =>
    simp only [encode_moved lines hsymbols hop]
    cases ins.encode op symbols <;> rfl

end Instruction

/-! ## Programs -/

section Blocks

variable {ε α β γ : Type} {f : α → Except ε β} {g : α → Except ε γ} {h : α → β → γ} {k : ε → ε}
  (hfg : ∀ x, g x = ((f x).map (h x)).mapError k)
include hfg

theorem mapM_eq_zipWith {xs : List α} {ys : List β} (hys : xs.mapM f = .ok ys) :
    xs.mapM g = .ok (List.zipWith h xs ys) := by
  induction xs generalizing ys with
  | nil =>
    cases hys
    rfl
  | cons x xs ih =>
    obtain ⟨y, rest, hy, hrest, rfl⟩ := Program.mapM_cons_eq_ok_iff.mp hys
    have hx : g x = .ok (h x y) := by
      rw [hfg, hy]
      rfl
    exact Program.mapM_cons_eq_ok_iff.mpr ⟨_, _, hx, ih hrest, rfl⟩

theorem mapM_eq_error {xs : List α} {e : ε} (he : xs.mapM f = .error e) :
    xs.mapM g = .error (k e) := by
  obtain ⟨before, x, after, rfl, hbefore, hx⟩ := mapM_eq_error_iff.mp he
  refine mapM_eq_error_iff.mpr ⟨before, x, after, rfl, ?_, ?_⟩
  · intro y hy
    obtain ⟨z, hz⟩ := hbefore y hy
    refine ⟨h y z, ?_⟩
    rw [hfg, hz]
    rfl
  · rw [hfg, hx]
    rfl

end Blocks

theorem jumpsAt_cons (symbols : Symbols) (ins : Instruction) (is : List Instruction) (a : Nat) :
    jumpsAt symbols (ins :: is) a =
      (ins.address.toNat = a && ins.jumpsToLabel symbols || jumpsAt symbols is a) := rfl

theorem jumpsAt_eq_false {symbols : Symbols} {is : List Instruction} {a : Nat}
    (h : ∀ ins ∈ is, a < ins.address.toNat) : jumpsAt symbols is a = false := by
  rw [jumpsAt, List.any_eq_false]
  intro ins hins
  simp [Nat.ne_of_gt (h ins hins)]

/-- Of the words of an instruction, only the first can be that of a jump. -/
theorem Instruction.relocated_eq_mapIdx {symbols : Symbols} {ins : Instruction} {block : List Word}
    (h : ins.assemble symbols = .ok block) {jumps : Nat → Bool}
    (hjumps : ∀ i < block.length, jumps i = (i = 0 && ins.jumpsToLabel symbols))
    (distance : Nat) :
    ins.relocated symbols distance block =
      block.mapIdx fun i w => if jumps i then w.advance distance else w := by
  unfold relocated
  cases hjump : ins.jumpsToLabel symbols with
  | true =>
    obtain ⟨op, hop, hwords⟩ := assemble_eq_ok_iff.mp h
    have hlen : block.length = 1 := by
      simp only [jumpsToLabel, hop, Bool.and_eq_true, Option.any_some, decide_eq_true_eq] at hjump
      rw [length_encode hwords, hjump.1]
      rfl
    obtain ⟨w, rfl⟩ := List.length_eq_one_iff.mp hlen
    have hfirst : jumps 0 = true := by simp [hjumps 0, hjump]
    simp [hfirst]
  | false =>
    apply List.ext_getElem
    · simp
    · intro i hi _
      have hi : i < block.length := hi
      simp [hjumps i hi, hjump]

namespace Program

theorem instructionsFrom_add (ss : List Statement) (line lines offset distance : Nat) :
    instructionsFrom (line + lines) (offset + distance) ss =
      (instructionsFrom line offset ss).map (Instruction.moved lines distance) := by
  induction ss generalizing line offset with
  | nil => rfl
  | cons s rest ih =>
    rw [instructionsFrom, instructionsFrom]
    cases hs : s.command with
    | none => simp only [Nat.add_right_comm line lines 1, ih]
    | some c =>
      simp only [List.map_cons, Nat.add_right_comm line lines 1,
        Nat.add_right_comm offset distance c.width, ih, BitVec.ofNat_add]
      rfl

theorem codeSize_append (ss ts : List Statement) :
    codeSize (ss ++ ts) = codeSize ss + codeSize ts := by
  induction ss with
  | nil => simp [codeSize]
  | cons s ss ih => simp only [List.cons_append, codeSize, ih, Nat.add_assoc]

theorem instructionsFrom_append (ss ts : List Statement) (line offset : Nat) :
    instructionsFrom line offset (ss ++ ts) = instructionsFrom line offset ss ++
      instructionsFrom (line + ss.length) (offset + codeSize ss) ts := by
  induction ss generalizing line offset with
  | nil => rfl
  | cons s ss ih =>
    have hline : line + (s :: ss).length = line + 1 + ss.length := by
      rw [List.length_cons]
      omega
    rw [List.cons_append, instructionsFrom, instructionsFrom, hline, codeSize, ← Nat.add_assoc]
    cases hs : s.command with
    | none => simp only [ih, Statement.width, hs, Nat.add_zero]
    | some c => simp only [ih, Statement.width, hs, List.cons_append]

variable {symbols : Symbols}

theorem le_address_of_mem {ss : List Statement} {line offset : Nat} {ins : Instruction}
    (hsize : offset + codeSize ss < Address.count) (h : ins ∈ instructionsFrom line offset ss) :
    offset ≤ ins.address.toNat := by
  obtain ⟨i, hi⟩ := List.getElem?_of_mem h
  have hle := instructionsSize_take_le (instructionsFrom line offset ss) i
  rw [instructionsSize_instructionsFrom] at hle
  rw [address_getElem? hi, toNat_ofNat_of_lt (by omega)]
  exact Nat.le_add_right _ _

/-- The words of moved instructions, found by their index. The induction is on the statements, and
`offset` is the address of the first word. -/
theorem flatten_relocated {ss : List Statement} {line offset : Nat} {blocks : List (List Word)}
    (hsize : offset + codeSize ss < Address.count)
    (h : (instructionsFrom line offset ss).mapM (·.assemble symbols) = .ok blocks)
    (distance : Nat) :
    (List.zipWith (·.relocated symbols distance) (instructionsFrom line offset ss)
        blocks).flatten =
      blocks.flatten.mapIdx fun i w =>
        if jumpsAt symbols (instructionsFrom line offset ss) (offset + 2 * i) then
          w.advance distance
        else w := by
  induction ss generalizing line offset blocks with
  | nil =>
    cases h
    rfl
  | cons s rest ih =>
    rw [instructionsFrom] at h ⊢
    cases hs : s.command with
    | none =>
      rw [hs] at h
      simp only [codeSize, Statement.width, hs, Nat.zero_add] at hsize
      exact ih hsize h
    | some c =>
      rw [hs] at h
      simp only [codeSize, Statement.width, hs, ← Nat.add_assoc] at hsize
      obtain ⟨block, blocks, hblock, hblocks, rfl⟩ := mapM_cons_eq_ok_iff.mp h
      have hlen : 2 * block.length = c.width := Instruction.length_assemble hblock
      have hwidth := c.width_cases
      have hoffset : (BitVec.ofNat 32 offset).toNat = offset := toNat_ofNat_of_lt (by omega)
      simp only [List.zipWith_cons_cons, List.flatten_cons, List.mapIdx_append]
      congr 1
      · -- All other instructions stand behind the words of this one.
        refine Instruction.relocated_eq_mapIdx hblock (fun i hi => ?_) distance
        have hbehind : jumpsAt symbols (instructionsFrom (line + 1) (offset + c.width) rest)
            (offset + 2 * i) = false := by
          apply jumpsAt_eq_false
          intro ins hins
          have hle := le_address_of_mem hsize hins
          omega
        have hfirst : offset = offset + 2 * i ↔ i = 0 := by omega
        rw [jumpsAt_cons, hbehind, Bool.or_false, hoffset]
        simp only [hfirst]
      · rw [ih hsize hblocks]
        congr 1
        funext i w
        have hnext : offset + 2 * (i + block.length) = offset + c.width + 2 * i := by omega
        have hne : offset ≠ offset + c.width + 2 * i := by omega
        rw [jumpsAt_cons, hnext, hoffset, decide_eq_false hne, Bool.false_and, Bool.false_or]

/-! ## Source texts -/

/-- The statements of a text are those that it has with a line feed behind it, but for one that is
empty. -/
theorem exists_statements_append (front : Text) : ∃ fs : List Statement,
    fs.length = front.count '\n' + 1 ∧
    (fs = statements front ∨ fs = statements front ++ [⟨none, none⟩]) ∧
    ∀ source, statements (front ++ '\n' :: source) = fs ++ statements source := by
  obtain ⟨ls, last, hlength, hlines, happend⟩ := Text.exists_lines_append front
  refine ⟨(ls ++ [Text.dropReturn last]).map Statement.parse, by simp [hlength], ?_, ?_⟩
  · unfold statements
    rw [hlines, List.map_append, List.map_singleton, Statement.parse_dropReturn]
    cases last with
    | nil => exact .inr (by simp [Statement.parse, Statement.code, Text.before, Command.parse?])
    | cons c rest => exact .inl (by simp)
  · intro source
    unfold statements
    rw [happend, List.append_cons, List.map_append]

theorem encode_eq_map (p : Program) :
    p.encode = (p.instructions.mapM (Instruction.assemble · p.symbols)).map List.flatten := by
  unfold encode
  cases p.instructions.mapM fun (ins : Instruction) => ins.assemble p.symbols with
  | error e => rfl
  | ok blocks => rfl

/-- The words of instructions in front of others. -/
theorem encode_of_append {p : Program} {is js : List Instruction} {blocks : List (List Word)}
    (hp : p.instructions = is ++ js) (h : is.mapM (·.assemble p.symbols) = .ok blocks) :
    p.encode = (js.mapM (Instruction.assemble · p.symbols)).map fun more =>
      blocks.flatten ++ more.flatten := by
  rw [encode_eq_map, hp, List.mapM_append, h]
  cases js.mapM fun (ins : Instruction) => ins.assemble p.symbols with
  | error e => rfl
  | ok more => simp [bind, Except.bind, pure, Except.pure, Except.map]

/-- What stands in front of a source text: statements without labels, whose instructions give the
same words under all symbols. -/
theorem exists_front {front : Text} {words : List Word} (h : assemble front = .ok words)
    (hfront : StraightLine front) : ∃ fs : List Statement,
    (∀ source, statements (front ++ '\n' :: source) = fs ++ statements source) ∧
    fs.length = front.count '\n' + 1 ∧ codeSize fs = 2 * words.length ∧
    definitionsFrom 0 fs = [] ∧
    ∀ symbols, ∃ blocks, (instructionsFrom 1 0 fs).mapM (·.assemble symbols) = .ok blocks ∧
      blocks.flatten = words := by
  obtain ⟨fs, hlength, hfs, happend⟩ := exists_statements_append front
  have hsize : codeSize fs = codeSize (statements front) := by
    rcases hfs with rfl | rfl
    · rfl
    · rw [codeSize_append]
      rfl
  have hinstructions : instructionsFrom 1 0 fs = (ofSource front).instructions := by
    rcases hfs with rfl | rfl
    · rfl
    · rw [instructionsFrom_append]
      exact List.append_nil _
  refine ⟨fs, happend, hlength, ?_, ?_, ?_⟩
  · rw [hsize]
    exact (length_encode h).symm
  · apply definitionsFrom_of_unlabelled
    rcases hfs with rfl | rfl
    · exact hfront.unlabelled
    · intro s hs
      rcases List.mem_append.mp hs with hs | hs
      · exact hfront.unlabelled s hs
      · rw [List.mem_singleton.mp hs]
  · intro symbols
    obtain ⟨blocks, hblocks, hwords⟩ := encode_eq_ok_iff.mp h
    refine ⟨blocks, ?_, hwords.symm⟩
    rw [← hblocks, hinstructions]
    apply mapM_congr_left
    intro ins hins
    apply Instruction.assemble_congr
    intro op i token hop hkind _
    obtain ⟨hjump, hbranch⟩ := hfront.straight ins hins op hop
    exact absurd (List.mem_of_getElem? hkind) (Op.target_not_mem_operandKinds hjump hbranch)

section Behind

variable {front : Text} {words : List Word} (h : assemble front = .ok words)
  (hfront : StraightLine front) (source : Text)
include h hfront

theorem codeSize_behind : codeSize (statements (front ++ '\n' :: source)) =
    2 * words.length + codeSize (statements source) := by
  obtain ⟨fs, happend, -, hsize, -, -⟩ := exists_front h hfront
  rw [happend, codeSize_append, hsize]

theorem entries_behind : (ofSource (front ++ '\n' :: source)).symbols.entries =
    (ofSource source).symbols.entries.map fun e =>
      (e.1, e.2 + BitVec.ofNat 32 (2 * words.length)) := by
  obtain ⟨fs, happend, -, hsize, hdefinitions, -⟩ := exists_front h hfront
  show (Bindings.empty.insertAll (definitionsFrom 0 (statements _))).entries = _
  rw [happend, definitionsFrom_append, hdefinitions, hsize, List.nil_append, definitionsFrom_add]
  exact Bindings.entries_insertAll_map (fun a => a + BitVec.ofNat 32 (2 * words.length)) _ rfl

theorem encode_behind : (ofSource (front ++ '\n' :: source)).encode =
    ((ofSource source).instructions.mapM fun (ins : Instruction) =>
      (ins.moved (front.count '\n' + 1) (2 * words.length)).assemble
        (ofSource (front ++ '\n' :: source)).symbols).map fun more => words ++ more.flatten := by
  obtain ⟨fs, happend, hlength, hsize, -, hwords⟩ := exists_front h hfront
  obtain ⟨blocks, hblocks, rfl⟩ := hwords (ofSource (front ++ '\n' :: source)).symbols
  have hsplit : (ofSource (front ++ '\n' :: source)).instructions = instructionsFrom 1 0 fs ++
      (ofSource source).instructions.map
        (Instruction.moved (front.count '\n' + 1) (2 * blocks.flatten.length)) := by
    show instructionsFrom 1 0 (statements _) = _
    rw [happend, instructionsFrom_append, hsize, hlength, instructionsFrom_add]
    rfl
  rw [encode_of_append hsplit hblocks, List.mapM_map]
  rfl

theorem assemble_append
    (hsize : codeSize (statements (front ++ '\n' :: source)) < Address.count) :
    assemble (front ++ '\n' :: source) =
      ((assemble source).map fun ws =>
        words ++ (ofSource source).relocated (2 * words.length) ws).mapError
          (.below (front.count '\n' + 1)) := by
  have hsymbols := Bindings.get?_of_entries_map (· + BitVec.ofNat 32 (2 * words.length))
    (entries_behind h hfront source)
  have hmoved := Instruction.assemble_moved (front.count '\n' + 1) hsymbols
  rw [codeSize_behind h hfront] at hsize
  unfold assemble
  rw [encode_behind h hfront, encode_eq_map (ofSource source)]
  cases hblocks : (ofSource source).instructions.mapM
      (Instruction.assemble · (ofSource source).symbols) with
  | error e =>
    rw [mapM_eq_error hmoved hblocks]
    rfl
  | ok blocks =>
    rw [mapM_eq_zipWith hmoved hblocks]
    have hflat := flatten_relocated (by omega) hblocks (2 * words.length)
    simp only [Nat.zero_add] at hflat
    exact congrArg (fun more => Except.ok (words ++ more)) hflat

end Behind

/-- No two instructions stand at one address. -/
theorem jumpsAt_of_mem {p : Program} (hp : p.LaidOut) {ins : Instruction}
    (hins : ins ∈ p.instructions) :
    jumpsAt p.symbols p.instructions ins.address.toNat = ins.jumpsToLabel p.symbols := by
  have hnodup : (p.instructions.map fun i => i.address.toNat).Nodup := by
    rw [List.Nodup, List.pairwise_map]
    exact hp.ascending.imp fun hlt => Nat.ne_of_lt hlt
  have hsame := List.inj_on_of_nodup_map hnodup
  rw [jumpsAt, Bool.eq_iff_iff, List.any_eq_true]
  constructor
  · intro hany
    obtain ⟨other, hother, hjump⟩ := hany
    rw [Bool.and_eq_true, decide_eq_true_eq] at hjump
    exact hsame hother hins hjump.1 ▸ hjump.2
  · intro hjump
    exact ⟨ins, hins, by simp [hjump]⟩

/-- Only the words of jumps to labels change. -/
theorem relocated_of_branch {p : Program} (hp : p.LaidOut) {ins : Instruction}
    (hins : ins ∈ p.instructions) {op : Op} (hop : Op.ofMnemonic? ins.mnemonic = some op)
    (hbranch : op.family = .branch) (distance : Nat) (words : List Word) :
    (p.relocated distance words)[ins.address.toNat / 2]? = words[ins.address.toNat / 2]? := by
  have heven : 2 * (ins.address.toNat / 2) = ins.address.toNat := by
    have := hp.even ins hins
    omega
  have hstays : ins.jumpsToLabel p.symbols = false := by
    simp [Instruction.jumpsToLabel, hop, hbranch]
  rw [relocated, List.getElem?_mapIdx, heven, jumpsAt_of_mem hp hins, hstays]
  simp

end Program

/-- **Relocation.** Let a source text without labels, jumps and branches assemble to `words`. A
source text behind it, on the following lines, assembles exactly when it does so alone. Its words
are then the same, except that a jump to a label leads further on by the size of the code in front;
a branch keeps its word. Its labels are the same, further on by that size. If it fails, then with
the same error, so many lines further down as there are in front of it. -/
theorem assemble_behind {front : Text} {words : List Word} (h : assemble front = .ok words)
    (hfront : StraightLine front) (source : Text)
    (hsize : Program.codeSize (Program.statements (front ++ '\n' :: source)) < Address.count) :
    let whole := front ++ '\n' :: source
    let p := Program.ofSource source
    let distance := 2 * words.length
    ((∃ ws, assemble whole = .ok ws) ↔ ∃ ws, assemble source = .ok ws) ∧
    (∀ ws, assemble source = .ok ws → assemble whole = .ok (words ++ p.relocated distance ws)) ∧
    (∀ ws, ∀ ins ∈ p.instructions, ∀ op, Op.ofMnemonic? ins.mnemonic = some op →
      op.family = .branch →
      (p.relocated distance ws)[ins.address.toNat / 2]? = ws[ins.address.toNat / 2]?) ∧
    (∀ name, ((Program.ofSource whole).symbols.get? name).map BitVec.toNat =
      (p.symbols.get? name).map fun a => a.toNat + distance) ∧
    (Program.ofSource whole).symbols.table.map (fun l => (l.name, l.address.toNat)) =
      p.symbols.table.map (fun l => (l.name, l.address.toNat + distance)) ∧
    ∀ e, assemble source = .error e →
      assemble whole = .error (e.below (front.count '\n' + 1)) := by
  intro whole p distance
  have hwhole := Program.assemble_append h hfront source hsize
  have hentries := Program.entries_behind h hfront source
  rw [Program.codeSize_behind h hfront] at hsize
  have hp : p.LaidOut := Program.laidOut_ofStatements (by omega)
  have hfit : ∀ name a, p.symbols.get? name = some a → a.toNat + distance < Address.count := by
    intro name a ha
    have hstop : p.stop.toNat = Program.codeSize (Program.statements source) :=
      Program.toNat_stop (by omega)
    have hle := (hp.label name a ha).2
    omega
  refine ⟨?_, ?_, ?_, ?_, table_of_entries_map hentries hfit, ?_⟩
  · rw [hwhole]
    cases assemble source with
    | ok ws => exact iff_of_true ⟨_, rfl⟩ ⟨_, rfl⟩
    | error e => simp [Except.map, Except.mapError]
  · intro ws hws
    rw [hwhole, hws]
    rfl
  · intro ws ins hins op hop hbranch
    exact Program.relocated_of_branch hp hins hop hbranch distance ws
  · intro name
    rw [Bindings.get?_of_entries_map (· + BitVec.ofNat 32 distance) hentries, Option.map_map]
    cases ha : p.symbols.get? name with
    | none => rfl
    | some a => exact congrArg some (Program.toNat_add_ofNat (hfit name a ha))
  · intro e he
    rw [hwhole, he]
    rfl

/-- An extended instruction in front, and a line that ends in a carriage return. Behind them a loop,
a jump to its label and a jump to a number. -/
theorem assemble_behind_call :
    let front := "CALL ; first\n ADD R1, R2, R3\r".toList
    let source := "loop: BNE R1, loop\nJMP loop\nJMP 0x10".toList
    let words : List Word := [0xFA00, 0, 0x1123]
    assemble front = .ok words ∧ StraightLine front ∧
      Program.codeSize (Program.statements (front ++ '\n' :: source)) < Address.count ∧
      assemble source = .ok [0xF1FF, 0xD000, 0xD010] ∧
      assemble (front ++ '\n' :: source) = .ok (words ++ [0xF1FF, 0xD006, 0xD010]) := by
  intro front source words
  have h : assemble front = .ok words := by decide
  have hfront : StraightLine front := ⟨by decide, by decide⟩
  have hsize : Program.codeSize (Program.statements (front ++ '\n' :: source)) < Address.count := by
    decide
  have hsource : assemble source = .ok [0xF1FF, 0xD000, 0xD010] := by decide
  refine ⟨h, hfront, hsize, hsource, ?_⟩
  rw [(assemble_behind h hfront source hsize).2.1 _ hsource]
  decide

end Assembly

end Cvere
