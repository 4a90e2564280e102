import Cvere.Bindings
import Cvere.Text.Order
import Cvere.Word

/-!
# Labels

A label is a name for an address. The assembler looks addresses up by name (`Symbols`), the
disassembler looks names up by address (`Names`), and the two exchange plain lists of labels.

**Main results.** `Symbols.mem_table_iff`: the symbol table of a program holds exactly its
bindings. `Names.get?_extend`: of several names imported for one address, the last counts.
-/

namespace Cvere

/-- A name for an address. -/
structure Label where
  address : Address
  name : Text
  deriving DecidableEq, Repr

/-- Labels are listed by address, and by the code points of their names at one address. -/
def Label.le (a b : Label) : Bool :=
  a.address.toNat < b.address.toNat || (a.address == b.address && Text.le a.name b.name)

/-- The addresses bound to names. -/
abbrev Symbols := Bindings Text Address

/-- The names bound to addresses. -/
abbrev Names := Bindings Address Text

namespace Symbols

/-- The labels of a program, by address and then by name. -/
def table (s : Symbols) : List Label :=
  (s.entries.map fun e => { address := e.2, name := e.1 : Label }).mergeSort Label.le

/-- The names of a program's labels, by code points. -/
def sortedNames (s : Symbols) : List Text :=
  s.keys.mergeSort Text.le

theorem mem_table_iff (s : Symbols) (l : Label) :
    l ∈ s.table ↔ s.get? l.name = some l.address := by
  rw [table, List.mem_mergeSort, ← Bindings.mem_entries_iff]
  simp only [List.mem_map]
  constructor
  · rintro ⟨e, he, rfl⟩
    exact he
  · intro h
    exact ⟨_, h, rfl⟩

end Symbols

namespace Names

/-- Add labels from left to right. -/
def extend (n : Names) (labels : List Label) : Names :=
  n.insertAll (labels.map fun l => (l.address, l.name))

/-- The labels, by address. -/
def table (n : Names) : List Label :=
  (n.entries.map fun e => { address := e.1, name := e.2 : Label }).mergeSort Label.le

theorem get?_extend (n : Names) (labels : List Label) (a : Address) :
    (n.extend labels).get? a =
      ((labels.reverse.map fun l => (l.address, l.name)).lookup a).or (n.get? a) := by
  rw [extend, Bindings.get?_insertAll, List.map_reverse]

end Names

end Cvere
