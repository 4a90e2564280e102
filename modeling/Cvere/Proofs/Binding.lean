import Cvere.Proofs.Layout
import Mathlib.Data.List.Dedup
import Mathlib.Data.List.Find

/-!
# What labels are bound to

Layout goes through the lines of a source text once. It keeps a table of labels, in which a later
definition replaces an earlier one, and an address that grows by the size of each command. Here the
table and the warnings about replaced labels are given in closed form.

**The invariant** (`get?_take`). After the first `n` lines a name is bound by the last of them that
defines it, to the size of the code before that line. One more line changes this as one insertion
changes a table. The warnings follow from the same invariant, because a definition is reported
exactly when the table already has its name.

**Addresses.** The size of the code before a line is the address of the first instruction on or
after that line, and the end of the program when there is none (`addressFrom_succ`).

**Main result.** `label_binding`: the keys of the table, the address of each, the warnings in source
order, and their number.
-/

namespace Cvere

/-- The event is the warning that a label replaces another definition. -/
def Event.isRedefinition : Event → Bool
  | .labelRedefined .. => true
  | _ => false

namespace Bindings

variable {κ ν : Type} [DecidableEq κ]

theorem mem_keys_iff (m : Bindings κ ν) (k : κ) : k ∈ m.keys ↔ ∃ v, m.get? k = some v := by
  simp only [keys, List.mem_map, ← mem_entries_iff]
  constructor
  · intro h
    obtain ⟨e, he, hk⟩ := h
    exact ⟨e.2, hk ▸ he⟩
  · intro h
    obtain ⟨v, hv⟩ := h
    exact ⟨(k, v), hv, rfl⟩

end Bindings

namespace Assembly.Program

/-! ## Definitions by line -/

/-- The label on the line with index `i`. -/
def labelAt (ss : List Statement) (i : Nat) : Option Text :=
  ss[i]?.bind Statement.label

/-- The last of the first `n` lines that defines the name. -/
def lastDefinition? (ss : List Statement) (name : Text) (n : Nat) : Option Nat :=
  (List.range n).reverse.find? fun i => labelAt ss i = some name

/-- The address of the first instruction on or after a line, counted from one, or the end of the
program when there is none. -/
def addressFrom (p : Program) (line : Nat) : Address :=
  match p.instructions.find? (line ≤ ·.line) with
  | some ins => ins.address
  | none => p.stop

/-- The warning about the line with index `i`: its name was defined before, and the most recent of
these definitions is replaced. -/
def redefinitionAt (p : Program) (ss : List Statement) (i : Nat) : Option Event :=
  (labelAt ss i).bind fun name =>
    (lastDefinition? ss name i).map fun j =>
      .labelRedefined name (p.addressFrom (j + 1)) (p.addressFrom (i + 1))

theorem lastDefinition?_succ (ss : List Statement) (name : Text) (n : Nat) :
    lastDefinition? ss name (n + 1) =
      if labelAt ss n = some name then some n else lastDefinition? ss name n := by
  unfold lastDefinition?
  rw [List.range_succ, List.reverse_append, List.reverse_singleton, List.singleton_append,
    List.find?_cons]
  by_cases h : labelAt ss n = some name
  · simp [h]
  · simp [h]

theorem lastDefinition?_eq_some {ss : List Statement} {name : Text} {n i : Nat} (hi : i < n)
    (h : labelAt ss i = some name) (hlast : ∀ j, i < j → labelAt ss j ≠ some name) :
    lastDefinition? ss name n = some i := by
  induction n with
  | zero => omega
  | succ n ih =>
    rw [lastDefinition?_succ]
    by_cases hin : i = n
    · rw [if_pos (hin ▸ h), hin]
    · rw [if_neg (hlast n (by omega)), ih (by omega)]

theorem labelAt_of_lastDefinition? {ss : List Statement} {name : Text} {n i : Nat}
    (h : lastDefinition? ss name n = some i) : labelAt ss i = some name := by
  simpa using List.find?_some h

theorem lt_length_of_labelAt {ss : List Statement} {i : Nat} {name : Text}
    (h : labelAt ss i = some name) : i < ss.length := by
  obtain ⟨s, hs, -⟩ := Option.bind_eq_some_iff.mp h
  exact (List.getElem?_eq_some_iff.mp hs).1

/-! ## Addresses by line -/

/-- The first instruction on or after a line stands behind the code of the lines before it. -/
theorem address_of_find? (ss : List Statement) (line offset i : Nat) :
    (match (instructionsFrom line offset ss).find? (line + i ≤ ·.line) with
      | some ins => ins.address
      | none => BitVec.ofNat 32 (offset + codeSize ss)) =
      BitVec.ofNat 32 (offset + codeSize (ss.take i)) := by
  induction ss generalizing line offset i with
  | nil => simp [instructionsFrom]
  | cons s rest ih =>
    rw [instructionsFrom]
    cases hs : s.command with
    | none =>
      have hsize : ∀ ts, codeSize (s :: ts) = codeSize ts := by
        intro ts
        simp [codeSize, Statement.width, hs]
      cases i with
      | zero =>
        -- No instruction stands on this line, so the next line asks for the same ones.
        have hfind : (instructionsFrom (line + 1) offset rest).find? (line + 0 ≤ ·.line) =
            (instructionsFrom (line + 1) offset rest).find? (line + 1 + 0 ≤ ·.line) := by
          refine List.find?_congr fun ins hins => ?_
          obtain ⟨k, -, hline, -⟩ := exists_line_of_mem hins
          simp only [decide_eq_decide]
          omega
        have hrest := ih (line + 1) offset 0
        simp only [hfind, hsize] at hrest ⊢
        exact hrest
      | succ i =>
        have hrest := ih (line + 1) offset i
        rw [Nat.add_right_comm line 1 i] at hrest
        rw [List.take_succ_cons, hsize, hsize]
        exact hrest
    | some c =>
      have hsize : ∀ ts, offset + codeSize (s :: ts) = offset + c.width + codeSize ts := by
        intro ts
        simp [codeSize, Statement.width, hs, Nat.add_assoc]
      cases i with
      | zero => simp [codeSize]
      | succ i =>
        have hrest := ih (line + 1) (offset + c.width) i
        rw [Nat.add_right_comm line 1 i] at hrest
        rw [List.find?_cons_of_neg (by simp), List.take_succ_cons, hsize, hsize]
        exact hrest

theorem addressFrom_succ (ss : List Statement) (i : Nat) :
    (ofStatements ss).addressFrom (i + 1) = BitVec.ofNat 32 (codeSize (ss.take i)) := by
  have h := address_of_find? ss 1 0 i
  rw [Nat.add_comm 1 i, Nat.zero_add, Nat.zero_add] at h
  exact h

/-! ## The table after some of the lines -/

theorem definitionsFrom_append (offset : Nat) (ss ts : List Statement) :
    definitionsFrom offset (ss ++ ts) =
      definitionsFrom offset ss ++ definitionsFrom (offset + codeSize ss) ts := by
  induction ss generalizing offset with
  | nil => rfl
  | cons s ss ih =>
    rw [List.cons_append, definitionsFrom, definitionsFrom, ih, codeSize, List.append_assoc,
      Nat.add_assoc]

theorem definitionsFrom_take_succ (ss : List Statement) (n : Nat) :
    definitionsFrom 0 (ss.take (n + 1)) = definitionsFrom 0 (ss.take n) ++
      (labelAt ss n).toList.map fun name => (name, BitVec.ofNat 32 (codeSize (ss.take n))) := by
  rw [List.take_add_one, definitionsFrom_append, Nat.zero_add, labelAt]
  cases ss[n]? with
  | none => rfl
  | some s => simp [definitionsFrom]

/-- After the first `n` lines, the last of them that defines a name binds it. -/
theorem get?_take (ss : List Statement) (name : Text) (n : Nat) :
    (Bindings.empty.insertAll (definitionsFrom 0 (ss.take n))).get? name =
      (lastDefinition? ss name n).map fun i => BitVec.ofNat 32 (codeSize (ss.take i)) := by
  induction n with
  | zero => rfl
  | succ n ih =>
    rw [definitionsFrom_take_succ, Bindings.insertAll_append, lastDefinition?_succ]
    cases hlabel : labelAt ss n with
    | none => simpa using ih
    | some other =>
      show Bindings.get? (Bindings.insert _ other _) name = _
      rw [Bindings.get?_insert, ih]
      by_cases h : name = other
      · simp [h]
      · simp [h, Ne.symm h]

theorem get?_symbols (ss : List Statement) (name : Text) :
    (ofStatements ss).symbols.get? name =
      (lastDefinition? ss name ss.length).map fun i => (ofStatements ss).addressFrom (i + 1) := by
  have h := get?_take ss name ss.length
  rw [List.take_length] at h
  simp only [addressFrom_succ]
  exact h

/-! ## Warnings -/

theorem redefinitions_append (known : Symbols) (ds es : List (Text × Address)) :
    redefinitions known (ds ++ es) =
      redefinitions known ds ++ redefinitions (known.insertAll ds) es := by
  induction ds generalizing known with
  | nil => rfl
  | cons d ds ih =>
    rw [List.cons_append, redefinitions, redefinitions, ih, List.append_assoc]
    rfl

theorem redefinitions_take (ss : List Statement) (n : Nat) :
    redefinitions Bindings.empty (definitionsFrom 0 (ss.take n)) =
      (List.range n).filterMap (redefinitionAt (ofStatements ss) ss) := by
  induction n with
  | zero => rfl
  | succ n ih =>
    rw [definitionsFrom_take_succ, redefinitions_append, ih, List.range_succ,
      List.filterMap_append]
    congr 1
    simp only [redefinitionAt, List.filterMap_cons, List.filterMap_nil]
    cases hlabel : labelAt ss n with
    | none => rfl
    | some name =>
      simp only [Option.toList_some, List.map_singleton, redefinitions, get?_take,
        addressFrom_succ, Option.bind_some]
      cases lastDefinition? ss name n with
      | none => rfl
      | some i => rfl

theorem redefinitions_filter (known : Symbols) (ds : List (Text × Address)) :
    (redefinitions known ds).filter Event.isRedefinition = redefinitions known ds := by
  induction ds generalizing known with
  | nil => rfl
  | cons d ds ih =>
    obtain ⟨name, address⟩ := d
    rw [redefinitions, List.filter_append, ih]
    cases known.get? name <;> rfl

/-! ## How many warnings -/

theorem filterMap_label_take_succ (ss : List Statement) (n : Nat) :
    (ss.take (n + 1)).filterMap Statement.label =
      (ss.take n).filterMap Statement.label ++ (labelAt ss n).toList := by
  rw [List.take_add_one, List.filterMap_append, labelAt]
  cases ss[n]? with
  | none => rfl
  | some s => cases hs : s.label <;> simp [hs]

theorem isSome_lastDefinition?_iff (ss : List Statement) (name : Text) (n : Nat) :
    (lastDefinition? ss name n).isSome ↔ name ∈ (ss.take n).filterMap Statement.label := by
  induction n with
  | zero => simp [lastDefinition?]
  | succ n ih =>
    rw [lastDefinition?_succ, filterMap_label_take_succ, List.mem_append, ← ih]
    by_cases h : labelAt ss n = some name
    · simp [h]
    · simp [h]

theorem length_dedup_concat {α : Type} [DecidableEq α] (l : List α) (a : α) :
    (l ++ [a]).dedup.length = if a ∈ l then l.dedup.length else l.dedup.length + 1 := by
  by_cases h : a ∈ l
  · rw [if_pos h]
    refine List.Perm.length_eq ?_
    rw [List.perm_ext_iff_of_nodup (List.nodup_dedup _) (List.nodup_dedup _)]
    intro b
    by_cases hb : b = a <;> simp [hb, h]
  · rw [if_neg h]
    have hperm : (l ++ [a]).dedup.Perm (a :: l.dedup) := by
      rw [List.perm_ext_iff_of_nodup (List.nodup_dedup _) (by simp [h, List.nodup_dedup])]
      intro b
      simp [or_comm]
    exact hperm.length_eq

theorem length_redefinitions_take (p : Program) (ss : List Statement) (n : Nat) :
    ((List.range n).filterMap (redefinitionAt p ss)).length +
        ((ss.take n).filterMap Statement.label).dedup.length =
      ((ss.take n).filterMap Statement.label).length := by
  induction n with
  | zero => rfl
  | succ n ih =>
    rw [filterMap_label_take_succ, List.range_succ, List.filterMap_append, List.length_append]
    cases hlabel : labelAt ss n with
    | none => simpa [redefinitionAt, hlabel] using ih
    | some name =>
      have hknown := isSome_lastDefinition?_iff ss name n
      rw [Option.toList_some, length_dedup_concat, List.length_append, List.length_singleton, ← ih]
      cases hlast : lastDefinition? ss name n with
      | none =>
        have hnew : name ∉ (ss.take n).filterMap Statement.label := by
          rw [← hknown, hlast]
          simp
        have hone : [n].filterMap (redefinitionAt p ss) = [] := by
          simp [redefinitionAt, hlabel, hlast]
        rw [if_neg hnew, hone, List.length_nil]
        omega
      | some i =>
        have hold : name ∈ (ss.take n).filterMap Statement.label := by
          rw [← hknown, hlast]
          rfl
        have hone : ([n].filterMap (redefinitionAt p ss)).length = 1 := by
          simp [redefinitionAt, hlabel, hlast]
        rw [if_pos hold, hone]
        omega

/-! ## The whole text -/

/-- **Label binding.** Whatever an assembler did before, after it laid out a source text its labels
are those on the lines of the text, and each is bound by the last line that defines it, to the
address of the first instruction on or after that line, or to the end: the size of the code before
the line. A warning is given for each line whose name was defined before, in order, with the address
of the most recent definition and that of the line. -/
theorem label_binding (q : Program) (source : Text) :
    let ss := statements source
    let p := q.after (.layOut source)
    let warnings := (q.events (.layOut source)).filter Event.isRedefinition
    let names := ss.filterMap Statement.label
    (∀ name, name ∈ p.symbols.keys ↔ ∃ line ∈ Text.lines source,
      (Statement.parse line).label = some name) ∧
    (∀ name i, labelAt ss i = some name → (∀ j, i < j → labelAt ss j ≠ some name) →
      p.symbols.get? name = some (p.addressFrom (i + 1))) ∧
    (∀ i, p.addressFrom (i + 1) = BitVec.ofNat 32 (codeSize (ss.take i))) ∧
    warnings = (List.range ss.length).filterMap (redefinitionAt p ss) ∧
    warnings.length + names.dedup.length = names.length := by
  intro ss p warnings names
  have hwarnings : warnings = (List.range ss.length).filterMap (redefinitionAt p ss) := by
    show (layoutEvents source).filter Event.isRedefinition = _
    rw [layoutEvents, List.filter_append, redefinitions_filter]
    have h := redefinitions_take ss ss.length
    rw [List.take_length] at h
    rw [h]
    exact List.append_nil _
  refine ⟨?_, ?_, addressFrom_succ ss, hwarnings, ?_⟩
  · intro name
    have hsome := isSome_lastDefinition?_iff ss name ss.length
    rw [List.take_length] at hsome
    rw [Bindings.mem_keys_iff, ← Option.isSome_iff_exists]
    show ((ofStatements ss).symbols.get? name).isSome ↔ _
    rw [get?_symbols, Option.isSome_map, hsome]
    simp [ss, statements]
  · intro name i hi hlast
    show (ofStatements ss).symbols.get? name = _
    rw [get?_symbols, lastDefinition?_eq_some (lt_length_of_labelAt hi) hi hlast]
    rfl
  · have h := length_redefinitions_take p ss ss.length
    rw [List.take_length] at h
    rw [hwarnings]
    exact h

end Assembly.Program

end Cvere
