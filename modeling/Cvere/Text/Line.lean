import Cvere.Text.Basic

/-!
# Lines

A line ends at a line feed, and one carriage return directly before the line feed belongs to the
line end. Text after the last line feed is a line of its own when it is not empty, and it keeps a
carriage return it ends with.

**Main results.** `lines_append_newline` reads a text line by line: what stands before the first
line feed is the first line, less the carriage return of its line end. `lines_of_not_mem` is the
last line. `exists_lines_append` says what the lines of a text become when a line feed and another
text are put behind it.
-/

namespace Cvere

namespace Text

/-- Drop one carriage return at the end. -/
def dropReturn (t : Text) : Text :=
  if t.getLast? = some '\r' then t.dropLast else t

/-- The lines among the pieces between line feeds: every piece but the last was ended by a line
feed, and an empty last piece is no line. -/
def linesOfPieces : List Text → List Text
  | [] => []
  | [last] => if last.isEmpty then [] else [last]
  | piece :: rest => dropReturn piece :: linesOfPieces rest

/-- The lines of a text. -/
def lines (t : Text) : List Text :=
  linesOfPieces (t.splitOn '\n')

/-- Lines put together with line feeds between them. -/
def unlines (ls : List Text) : Text :=
  join ['\n'] ls

@[simp] theorem dropReturn_nil : dropReturn [] = [] := rfl

/-- A text that does not end in a carriage return is left alone. -/
theorem dropReturn_eq_self {t : Text} (h : t.getLast? ≠ some '\r') : dropReturn t = t := by
  simp [dropReturn, h]

/-- What stands before the first line feed is the first line. -/
theorem lines_append_newline {a : Text} (h : '\n' ∉ a) (t : Text) :
    lines (a ++ '\n' :: t) = dropReturn a :: lines t := by
  simp only [lines, List.splitOn_append_cons_self_of_not_mem h]
  have hne : t.splitOn '\n' ≠ [] := by simp [List.splitOn_eq_splitOnP]
  cases hp : t.splitOn '\n' with
  | nil => exact absurd hp hne
  | cons p ps => rfl

/-- A text without line feeds is one line, and no line when it is empty. -/
theorem lines_of_not_mem {a : Text} (h : '\n' ∉ a) :
    lines a = if a.isEmpty then [] else [a] := by
  have hs : a.splitOn '\n' = [a] := by
    rw [List.splitOn_eq_splitOnP]
    exact List.splitOnP_eq_singleton fun x hx => by
      simp only [beq_eq_false_iff_ne, ne_eq]
      exact fun hx' => h (hx' ▸ hx)
  rw [lines, hs]
  rfl

/-- A line feed behind a text ends its last line, which is then a line also when it is empty. The
lines before it stay as they are, one for each line feed, and so do the lines behind it. -/
theorem exists_lines_append (t : Text) : ∃ (front : List Text) (last : Text),
    front.length = t.count '\n' ∧ lines t = front ++ (if last.isEmpty then [] else [last]) ∧
      ∀ u, lines (t ++ '\n' :: u) = front ++ dropReturn last :: lines u := by
  induction hn : t.length using Nat.strongRecOn generalizing t with
  | ind n ih =>
    by_cases ht : '\n' ∈ t
    · obtain ⟨a, rest, rfl, ha⟩ := List.eq_append_cons_of_mem ht
      have hlt : rest.length < n := by
        rw [← hn, List.length_append, List.length_cons]
        omega
      obtain ⟨front, last, hlength, hlines, happend⟩ := ih rest.length hlt rest rfl
      refine ⟨dropReturn a :: front, last, ?_, ?_, fun u => ?_⟩
      · rw [List.count_append, List.count_eq_zero.mpr ha, List.count_cons_self, Nat.zero_add,
          List.length_cons, hlength]
      · rw [lines_append_newline ha, hlines, List.cons_append]
      · rw [List.append_assoc, List.cons_append, lines_append_newline ha, happend,
          List.cons_append]
    · refine ⟨[], t, ?_, lines_of_not_mem ht, fun u => lines_append_newline ht u⟩
      rw [List.count_eq_zero.mpr ht, List.length_nil]

end Text

end Cvere
