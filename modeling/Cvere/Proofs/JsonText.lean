import Cvere.Json.Parser
import Cvere.Json.Printer

/-!
# Written JSON is read back

A value that is written in the indented form and read again is the same value, whatever texts and
numbers it holds.

**Tokens** (`Json.tokens`). Writing and reading meet at the tokens of a value. Reading a text is
done in two passes, each by a machine that goes from left to right, and both are followed over what
stands in front of an arbitrary rest: what is written for a value puts its tokens on the tokens
found before (`scanFrom_indented`), and these tokens put the value where one was expected
(`valueFrom_tokens`). Both are by induction on the value together with its items and members.

**Strings.** An escaped character is read as one piece, a character or a UTF-16 unit (`piece`), and
the pieces of a text give the text (`textOfPieces?_map_piece`). Units are written for control
characters only, so none of them is half of a pair.

**Numbers and words** have no end of their own. They end where a character cannot continue them, so
the rest has to begin with such a character (`Apart`), as it does with line ends and commas.

**Main results.** `parse?_pretty`: a writable value is read back. `isNumber_decimal`: numbers are
writable in decimal.
-/

namespace Cvere

namespace Json

/-! ## Values that can be written -/

/-- The strings of the value are texts, and its numbers are numbers. -/
inductive Writable : Json → Prop
  | null : Writable null
  | bool (value : Bool) : Writable (bool value)
  | number {literal : Text} (valid : isNumber literal = true) : Writable (number literal)
  | string (t : Text) : Writable (string (some t))
  | array {items : List Json} (items_writable : ∀ j ∈ items, Writable j) : Writable (array items)
  | object {members : List (Option Text × Json)} (keys : ∀ m ∈ members, m.1.isSome = true)
    (values : ∀ m ∈ members, Writable m.2) : Writable (object members)

mutual

/-- The tokens of a value. -/
def tokens : Json → List Token
  | null => [.null]
  | bool b => [.bool b]
  | number literal => [.number literal]
  | string value => [.string value]
  | array items => .openArray :: itemTokens items ++ [.closeArray]
  | object members => .openObject :: memberTokens members ++ [.closeObject]

/-- The tokens of items with commas between them. -/
def itemTokens : List Json → List Token
  | [] => []
  | [j] => tokens j
  | j :: rest => tokens j ++ .comma :: itemTokens rest

/-- The tokens of members with commas between them. -/
def memberTokens : List (Option Text × Json) → List Token
  | [] => []
  | [(k, j)] => .string k :: .colon :: tokens j
  | (k, j) :: rest => .string k :: .colon :: tokens j ++ .comma :: memberTokens rest

end

/-! ## The machine on a text in front of another -/

/-- The tokens that a machine finds in the rest of a text, last first. -/
def scanFrom (scan : Scan) (t : Text) : Option (List Token) :=
  (t.foldlM Scan.step scan).bind Scan.finish

@[simp] theorem scanFrom_nil (scan : Scan) : scanFrom scan [] = scan.finish := rfl

theorem scanFrom_cons (scan : Scan) (c : Char) (t : Text) :
    scanFrom scan (c :: t) = (scan.step c).bind (scanFrom · t) := by
  unfold scanFrom
  rw [List.foldlM_cons]
  exact Option.bind_assoc _ _ _

theorem scanFrom_of_step {scan next : Scan} {c : Char} (h : scan.step c = some next) (t : Text) :
    scanFrom scan (c :: t) = scanFrom next t := by
  rw [scanFrom_cons, h]
  rfl

theorem tokens?_eq (t : Text) : tokens? t = (scanFrom (.between, []) t).map List.reverse := by
  unfold tokens? scanFrom
  cases t.foldlM Scan.step (.between, []) with
  | none => rfl
  | some scan => cases h : scan.finish <;> simp [h]

variable {toks : List Token}

theorem scanFrom_newline (level : Nat) (t : Text) :
    scanFrom (.between, toks) (newline level ++ t) = scanFrom (.between, toks) t := by
  have hspaces : ∀ n, scanFrom (.between, toks) (List.replicate n ' ' ++ t) =
      scanFrom (.between, toks) t := by
    intro n
    induction n with
    | zero => rfl
    | succ n ih => exact (scanFrom_of_step rfl _).trans ih
  exact (scanFrom_of_step rfl _).trans (hspaces _)

/-! ## Strings -/

/-- The piece that a written character is read as. Control characters that have no letter of their
own are read as units. -/
def piece (c : Char) : Piece :=
  if c.toNat < 0x20 ∧ c ∉ ['\x08', '\x0c', '\n', '\r', '\t'] then .unit c.toNat else .char c

theorem textOfPieces?_unit {n : Nat} (h : n < 0x20) (ps : List Piece) :
    textOfPieces? (.unit n :: ps) = (textOfPieces? ps).map (Char.ofNat n :: ·) := by
  have hhigh : isHighSurrogate n = false := by
    simp only [isHighSurrogate, Bool.and_eq_false_iff, decide_eq_false_iff_not]
    omega
  have hlow : isLowSurrogate n = false := by
    simp only [isLowSurrogate, Bool.and_eq_false_iff, decide_eq_false_iff_not]
    omega
  cases ps with
  | nil => simp [textOfPieces?, hhigh, hlow]
  | cons p ps => cases p <;> simp [textOfPieces?, hhigh, hlow]

theorem textOfPieces?_map_piece (t : Text) : textOfPieces? (t.map piece) = some t := by
  induction t with
  | nil => rfl
  | cons c t ih =>
    rw [List.map_cons]
    by_cases hc : c.toNat < 0x20 ∧ c ∉ ['\x08', '\x0c', '\n', '\r', '\t']
    · rw [piece, if_pos hc, textOfPieces?_unit hc.1, ih, Char.ofNat_toNat]
      rfl
    · rw [piece, if_neg hc, textOfPieces?, ih]
      rfl

/-- The four digits of an escaped unit. -/
theorem digits_of_control : ∀ n < 0x20,
    ((Numeral.lowerHex n).leftpad 4 '0').map (Numeral.digit? 16) =
      [some 0, some 0, some (n / 16), some (n % 16)] := by
  decide

theorem scanFrom_unit {digits : Text} {a b c d : Nat}
    (h : digits.map (Numeral.digit? 16) = [some a, some b, some c, some d]) (done : List Piece)
    (t : Text) :
    scanFrom (.unit done 0 0, toks) (digits ++ t) =
      scanFrom (.string (.unit (((a * 16 + b) * 16 + c) * 16 + d) :: done), toks) t := by
  obtain ⟨w, _, rfl, hw, h⟩ := List.map_eq_cons_iff.mp h
  obtain ⟨x, _, rfl, hx, h⟩ := List.map_eq_cons_iff.mp h
  obtain ⟨y, _, rfl, hy, h⟩ := List.map_eq_cons_iff.mp h
  obtain ⟨z, _, rfl, hz, h⟩ := List.map_eq_cons_iff.mp h
  obtain rfl := List.map_eq_nil_iff.mp h
  simp [scanFrom_cons, Scan.step, hw, hx, hy, hz]

theorem scanFrom_escapeChar (c : Char) (done : List Piece) (t : Text) :
    scanFrom (.string done, toks) (escapeChar c ++ t) =
      scanFrom (.string (piece c :: done), toks) t := by
  by_cases hletter : c ∈ ['"', '\\', '\x08', '\x0c', '\n', '\r', '\t']
  · -- The character after the backslash stands for it.
    simp only [List.mem_cons, List.not_mem_nil, or_false] at hletter
    rcases hletter with rfl | rfl | rfl | rfl | rfl | rfl | rfl <;> rfl
  simp only [List.mem_cons, List.not_mem_nil, or_false, not_or] at hletter
  obtain ⟨hquote, hbackslash, hb, hf, hn, hr, ht⟩ := hletter
  unfold escapeChar
  rw [if_neg hquote, if_neg hbackslash, if_neg hb, if_neg hf, if_neg hn, if_neg hr, if_neg ht]
  by_cases hcontrol : c.toNat < 0x20
  · have hpiece : piece c = .unit c.toNat := if_pos ⟨hcontrol, by simp [hb, hf, hn, hr, ht]⟩
    have hmark : ∀ u, scanFrom (.string done, toks) ("\\u".toList ++ u) =
        scanFrom (.unit done 0 0, toks) u := fun _ => rfl
    rw [if_pos hcontrol, hpiece, List.append_assoc, hmark,
      scanFrom_unit (digits_of_control c.toNat hcontrol)]
    simp only [Nat.zero_mul, Nat.zero_add, Nat.div_add_mod']
  · have hpiece : piece c = .char c := if_neg fun h => hcontrol h.1
    have hstep : Scan.step (.string done, toks) c = some (.string (.char c :: done), toks) := by
      simp only [Scan.step, hquote, hbackslash, hcontrol, if_false]
    rw [if_neg hcontrol, hpiece]
    exact scanFrom_of_step hstep t

theorem scanFrom_escaped (s : Text) (done : List Piece) (t : Text) :
    scanFrom (.string done, toks) (s.flatMap escapeChar ++ t) =
      scanFrom (.string ((s.map piece).reverse ++ done), toks) t := by
  induction s generalizing done with
  | nil => rfl
  | cons c s ih =>
    rw [List.flatMap_cons, List.append_assoc, scanFrom_escapeChar, ih, List.map_cons,
      List.reverse_cons, List.append_assoc]
    rfl

theorem scanFrom_quote (s t : Text) :
    scanFrom (.between, toks) (quote s ++ t) =
      scanFrom (.between, .string (some s) :: toks) t := by
  have hopen : scanFrom (.between, toks) (quote s ++ t) =
      scanFrom (.string [], toks) (s.flatMap escapeChar ++ '"' :: t) := by
    rw [quote, List.cons_append, List.cons_append, List.append_assoc]
    exact scanFrom_of_step rfl _
  have hclose : Scan.step (.string (s.map piece).reverse, toks) '"' =
      some (.between, .string (some s) :: toks) := by
    simp only [Scan.step, if_true, List.reverse_reverse, textOfPieces?_map_piece]
  rw [hopen, scanFrom_escaped, List.append_nil, scanFrom_of_step hclose]

/-! ## Numbers and words -/

/-- Neither a number nor a word goes on into the text. -/
def Apart (t : Text) : Prop :=
  ∀ c, t.head? = some c → isNumberChar c = false ∧ c.isLower = false

/-- What the machine is in the middle of ends in front of such a text. -/
theorem scanFrom_of_finish {scan : Scan} {found : List Token} (h : scan.finish = some found)
    {t : Text} (ht : Apart t) : scanFrom scan t = scanFrom (.between, found) t := by
  cases t with
  | nil =>
    rw [scanFrom_nil, h]
    rfl
  | cons c t =>
    obtain ⟨hnumber, hlower⟩ := ht c rfl
    have hstep : scan.step c = Scan.start found c := by
      obtain ⟨mode, toks⟩ := scan
      cases mode with
      | between =>
        cases h
        rfl
      | number done => simp [Scan.step, hnumber, h]
      | word done => simp [Scan.step, hlower, h]
      | _ => cases h
    rw [scanFrom_cons, scanFrom_cons, hstep]
    rfl

theorem scanFrom_word {w : Text} {token : Token} (h : wordToken? w = some token) {t : Text}
    (ht : Apart t) : scanFrom (.between, toks) (w ++ t) = scanFrom (.between, token :: toks) t := by
  have hword : scanFrom (.between, toks) (w ++ t) = scanFrom (.word w.reverse, toks) t := by
    unfold wordToken? at h
    split at h
    · next hw => rw [hw]; rfl
    split at h
    · next hw => rw [hw]; rfl
    split at h
    · next hw => rw [hw]; rfl
    · cases h
  rw [hword]
  apply scanFrom_of_finish _ ht
  simp [Scan.finish, h]

/-- A digit, followed by what a number may be continued with. -/
def IsRun (t : Text) : Prop :=
  (∀ c ∈ t, isNumberChar c = true) ∧ ∃ c rest, t = c :: rest ∧ c.isDigit = true

theorem IsRun.of_isDigits {t : Text} (h : isDigits t = true) : IsRun t := by
  rw [isDigits, Bool.and_eq_true, List.all_eq_true] at h
  refine ⟨fun c hc => by simp [isNumberChar, h.2 c hc], ?_⟩
  cases t with
  | nil => simp at h
  | cons c rest => exact ⟨c, rest, rfl, h.2 c List.mem_cons_self⟩

theorem IsRun.of_cut? {p : Char → Bool} {t a b : Text} (h : Text.cut? p t = some (a, b))
    (hp : ∀ c, p c = true → isNumberChar c = true) (ha : IsRun a)
    (hb : ∀ c ∈ b, isNumberChar c = true) : IsRun t := by
  obtain ⟨-, c, hc, rfl⟩ := Text.append_of_cut? h
  obtain ⟨hall, d, rest, rfl, hd⟩ := ha
  refine ⟨?_, d, rest ++ c :: b, rfl, hd⟩
  intro x hx
  rcases List.mem_append.mp hx with hx | hx
  · exact hall x hx
  · rcases List.mem_cons.mp hx with rfl | hx
    · exact hp x hc
    · exact hb x hx

theorem isNumberChar_of_isExponent {t : Text} (h : isExponent t = true) :
    ∀ c ∈ t, isNumberChar c = true := by
  unfold isExponent at h
  split at h
  · exact List.forall_mem_cons.mpr ⟨rfl, (IsRun.of_isDigits h).1⟩
  · exact List.forall_mem_cons.mpr ⟨rfl, (IsRun.of_isDigits h).1⟩
  · exact (IsRun.of_isDigits h).1

theorem IsRun.of_isWhole {t : Text} (h : isWhole t = true) : IsRun t := by
  rw [isWhole, Bool.and_eq_true] at h
  exact .of_isDigits h.1

theorem IsRun.of_isMagnitude {t : Text} (h : isMagnitude t = true) : IsRun t := by
  -- The mantissa is what stands before the exponent, or all of the number.
  have hmantissa : ∀ m, isMagnitude m = true →
      Text.cut? (fun c => c == 'e' || c == 'E') m = none → IsRun m := by
    intro m hm hnone
    simp only [isMagnitude, hnone, Bool.and_true] at hm
    cases hcut : Text.cut? (· == '.') m with
    | none =>
      simp only [hcut] at hm
      exact .of_isWhole hm
    | some halves =>
      obtain ⟨w, f⟩ := halves
      simp only [hcut, Bool.and_eq_true] at hm
      exact .of_cut? hcut (by simp [isNumberChar]) (.of_isWhole hm.1) (of_isDigits hm.2).1
  cases hcut : Text.cut? (fun c => c == 'e' || c == 'E') t with
  | none => exact hmantissa t h hcut
  | some halves =>
    obtain ⟨m, e⟩ := halves
    have hnone : Text.cut? (fun c => c == 'e' || c == 'E') m = none :=
      Text.cut?_eq_none_iff.mpr (Text.append_of_cut? hcut).1
    simp only [isMagnitude, hcut, Bool.and_eq_true] at h
    have hm : isMagnitude m = true := by
      simp only [isMagnitude, hnone, Bool.and_true]
      exact h.1
    refine .of_cut? hcut ?_ (hmantissa m hm hnone) (isNumberChar_of_isExponent h.2)
    intro c hc
    rcases Bool.or_eq_true_iff.mp hc with hc | hc <;> simp [isNumberChar, hc]

theorem start_of_isNumber {c : Char} (h : (c.isDigit || c == '-') = true) :
    Scan.start toks c = some (.number [c], toks) := by
  unfold Scan.start
  split
  all_goals first
    | exact absurd h (by decide)
    | exact if_pos h

theorem scanFrom_run {r : Text} (hr : ∀ c ∈ r, isNumberChar c = true) (done t : Text) :
    scanFrom (.number done, toks) (r ++ t) = scanFrom (.number (r.reverse ++ done), toks) t := by
  induction r generalizing done with
  | nil => rfl
  | cons c r ih =>
    rw [List.forall_mem_cons] at hr
    have hstep : Scan.step (.number done, toks) c = some (.number (c :: done), toks) := by
      simp only [Scan.step, hr.1, if_true]
    rw [List.cons_append, scanFrom_of_step hstep, ih hr.2, List.reverse_cons, List.append_assoc]
    rfl

theorem scanFrom_number {n t : Text} (hn : isNumber n = true) (ht : Apart t) :
    scanFrom (.between, toks) (n ++ t) = scanFrom (.between, .number n :: toks) t := by
  obtain ⟨c, r, rfl, hc, hr⟩ : ∃ c r, n = c :: r ∧ (c.isDigit || c == '-') = true ∧
      ∀ x ∈ r, isNumberChar x = true := by
    unfold isNumber at hn
    split at hn
    · exact ⟨'-', _, rfl, rfl, (IsRun.of_isMagnitude hn).1⟩
    · obtain ⟨hall, c, r, rfl, hc⟩ := IsRun.of_isMagnitude hn
      exact ⟨c, r, rfl, by rw [hc, Bool.true_or], (List.forall_mem_cons.mp hall).2⟩
  have hfirst : Scan.step (.between, toks) c = some (.number [c], toks) := start_of_isNumber hc
  rw [List.cons_append, scanFrom_of_step hfirst, scanFrom_run hr]
  apply scanFrom_of_finish _ ht
  simp [Scan.finish, hn]

/-! ## Values -/

theorem Apart.nil : Apart [] := by
  intro c hc
  cases hc

theorem Apart.comma (t : Text) : Apart (',' :: t) := by
  intro c hc
  cases hc
  decide

theorem Apart.newline (level : Nat) (t : Text) : Apart (newline level ++ t) := by
  intro c hc
  cases hc
  decide

theorem scanFrom_key (toks : List Token) {k : Option Text} (hk : k.isSome = true) (t : Text) :
    scanFrom (.between, toks) (quoteString k ++ (": ".toList ++ t)) =
      scanFrom (.between, .colon :: .string k :: toks) t := by
  cases k with
  | none => cases hk
  | some s => exact scanFrom_quote s (": ".toList ++ t)

mutual

/-- What is written for a value is read as its tokens. -/
theorem scanFrom_indented {j : Json} (h : j.Writable) (level : Nat) (toks : List Token) {t : Text}
    (ht : Apart t) : scanFrom (.between, toks) (indented level j ++ t) =
      scanFrom (.between, j.tokens.reverse ++ toks) t := by
  match j, h with
  | null, _ => exact scanFrom_word rfl ht
  | bool true, _ => exact scanFrom_word rfl ht
  | bool false, _ => exact scanFrom_word rfl ht
  | number literal, .number valid => exact scanFrom_number valid ht
  | string (some s), _ => exact scanFrom_quote s t
  | array [], _ => rfl
  | array (j :: items), .array h =>
    have hitems := scanFrom_indentedItems h (level + 1) (.openArray :: toks)
      (Apart.newline level (']' :: t))
    calc scanFrom (.between, toks) (indented level (array (j :: items)) ++ t)
      _ = scanFrom (.between, toks)
          ('[' :: (indentedItems (level + 1) (j :: items) ++ (newline level ++ ']' :: t))) := by
        simp [indented]
      _ = scanFrom (.between, (itemTokens (j :: items)).reverse ++ .openArray :: toks)
          (']' :: t) := by
        rw [scanFrom_of_step rfl, hitems, scanFrom_newline]
      _ = scanFrom (.between, (array (j :: items)).tokens.reverse ++ toks) t := by
        rw [scanFrom_of_step rfl]
        simp [tokens]
  | object [], _ => rfl
  | object (m :: members), .object keys values =>
    have hmembers := scanFrom_indentedMembers keys values (level + 1) (.openObject :: toks)
      (Apart.newline level ('\x7d' :: t))
    calc scanFrom (.between, toks) (indented level (object (m :: members)) ++ t)
      _ = scanFrom (.between, toks) ('\x7b' ::
          (indentedMembers (level + 1) (m :: members) ++ (newline level ++ '\x7d' :: t))) := by
        simp [indented]
      _ = scanFrom (.between, (memberTokens (m :: members)).reverse ++ .openObject :: toks)
          ('\x7d' :: t) := by
        rw [scanFrom_of_step rfl, hmembers, scanFrom_newline]
      _ = scanFrom (.between, (object (m :: members)).tokens.reverse ++ toks) t := by
        rw [scanFrom_of_step rfl]
        simp [tokens]

theorem scanFrom_indentedItems {items : List Json} (h : ∀ j ∈ items, j.Writable) (level : Nat)
    (toks : List Token) {t : Text} (ht : Apart t) :
    scanFrom (.between, toks) (indentedItems level items ++ t) =
      scanFrom (.between, (itemTokens items).reverse ++ toks) t := by
  match items with
  | [] => rfl
  | [j] =>
    rw [indentedItems, itemTokens, List.append_assoc, scanFrom_newline]
    exact scanFrom_indented (h j List.mem_cons_self) level toks ht
  | j :: k :: rest =>
    rw [List.forall_mem_cons] at h
    have hfirst := scanFrom_indented h.1 level toks
      (Apart.comma (indentedItems level (k :: rest) ++ t))
    calc scanFrom (.between, toks) (indentedItems level (j :: k :: rest) ++ t)
      _ = scanFrom (.between, toks) (newline level ++
          (indented level j ++ ',' :: (indentedItems level (k :: rest) ++ t))) := by
        simp [indentedItems]
      _ = scanFrom (.between, .comma :: (j.tokens.reverse ++ toks))
          (indentedItems level (k :: rest) ++ t) := by
        rw [scanFrom_newline, hfirst, scanFrom_of_step rfl]
      _ = scanFrom (.between, (itemTokens (j :: k :: rest)).reverse ++ toks) t := by
        rw [scanFrom_indentedItems h.2 level _ ht]
        simp [itemTokens]

theorem scanFrom_indentedMembers {members : List (Option Text × Json)}
    (keys : ∀ m ∈ members, m.1.isSome = true) (values : ∀ m ∈ members, m.2.Writable) (level : Nat)
    (toks : List Token) {t : Text} (ht : Apart t) :
    scanFrom (.between, toks) (indentedMembers level members ++ t) =
      scanFrom (.between, (memberTokens members).reverse ++ toks) t := by
  match members with
  | [] => rfl
  | [(k, j)] =>
    have hkey := scanFrom_key toks (keys (k, j) List.mem_cons_self)
      (indented level j ++ t)
    have hvalue := scanFrom_indented (values (k, j) List.mem_cons_self) level
      (.colon :: .string k :: toks) ht
    simp only [indentedMembers, memberTokens, List.append_assoc, scanFrom_newline, hkey, hvalue]
    simp
  | (k, j) :: m :: rest =>
    rw [List.forall_mem_cons] at keys values
    have hkey := scanFrom_key toks keys.1
      (indented level j ++ ',' :: (indentedMembers level (m :: rest) ++ t))
    have hvalue := scanFrom_indented values.1 level (.colon :: .string k :: toks)
      (Apart.comma (indentedMembers level (m :: rest) ++ t))
    calc scanFrom (.between, toks) (indentedMembers level ((k, j) :: m :: rest) ++ t)
      _ = scanFrom (.between, toks) (newline level ++ (quoteString k ++ (": ".toList ++
          (indented level j ++ ',' :: (indentedMembers level (m :: rest) ++ t))))) := by
        simp [indentedMembers]
      _ = scanFrom (.between, .comma :: (j.tokens.reverse ++ .colon :: .string k :: toks))
          (indentedMembers level (m :: rest) ++ t) := by
        rw [scanFrom_newline, hkey, hvalue, scanFrom_of_step rfl]
      _ = scanFrom (.between, (memberTokens ((k, j) :: m :: rest)).reverse ++ toks) t := by
        rw [scanFrom_indentedMembers keys.2 values.2 level _ ht]
        simp [memberTokens]

end

/-! ## Reading the tokens of a value -/

/-- The value that is read from the rest of the tokens. -/
def valueFrom (p : Progress) (ts : List Token) : Option Json :=
  (ts.foldlM Progress.step p).bind Progress.finish

theorem valueFrom_cons (p : Progress) (t : Token) (ts : List Token) :
    valueFrom p (t :: ts) = (p.step t).bind (valueFrom · ts) := by
  unfold valueFrom
  rw [List.foldlM_cons]
  exact Option.bind_assoc _ _ _

theorem valueFrom_of_step {p next : Progress} {t : Token} (h : p.step t = some next)
    (ts : List Token) : valueFrom p (t :: ts) = valueFrom next ts := by
  rw [valueFrom_cons, h]
  rfl

/-- An array that was opened goes on like one that waits for its first item. -/
theorem valueFrom_firstItem (stack : List Frame) {items : List Json} (hne : items ≠ [])
    (ts : List Token) :
    valueFrom (.firstItem stack) (itemTokens items ++ ts) =
      valueFrom (.value (.array [] :: stack)) (itemTokens items ++ ts) := by
  have hstep : ∀ t, t ≠ .closeArray →
      Progress.step (.firstItem stack) t = Progress.step (.value (.array [] :: stack)) t := by
    intro t ht
    cases t <;> first | rfl | exact absurd rfl ht
  have htokens : ∀ j : Json, ∃ t rest, j.tokens = t :: rest ∧ t ≠ .closeArray := by
    intro j
    cases j <;> simp [tokens]
  cases items with
  | nil => exact absurd rfl hne
  | cons j rest =>
    obtain ⟨t, more, htoken, ht⟩ := htokens j
    obtain ⟨us, hus⟩ : ∃ us, itemTokens (j :: rest) = t :: us := by
      cases rest <;> simp [itemTokens, htoken]
    rw [hus, List.cons_append, valueFrom_cons, valueFrom_cons, hstep t ht]

theorem valueFrom_firstKey (stack : List Frame) {members : List (Option Text × Json)}
    (hne : members ≠ []) (ts : List Token) :
    valueFrom (.firstKey stack) (memberTokens members ++ ts) =
      valueFrom (.key [] stack) (memberTokens members ++ ts) := by
  match members with
  | [] => exact absurd rfl hne
  | [(k, j)] => simp only [memberTokens, List.cons_append, valueFrom_cons, Progress.step]
  | (k, j) :: m :: rest =>
    simp only [memberTokens, List.cons_append, valueFrom_cons, Progress.step]

mutual

/-- The tokens of a value are read as the value. -/
theorem valueFrom_tokens (j : Json) (stack : List Frame) (ts : List Token) :
    valueFrom (.value stack) (j.tokens ++ ts) = valueFrom (.after j stack) ts := by
  match j with
  | null => exact valueFrom_of_step rfl ts
  | bool b => exact valueFrom_of_step rfl ts
  | number literal => exact valueFrom_of_step rfl ts
  | string value => exact valueFrom_of_step rfl ts
  | array [] => rfl
  | array (j :: items) =>
    have hitems := valueFrom_itemTokens (List.cons_ne_nil j items) [] stack ts
    calc valueFrom (.value stack) ((array (j :: items)).tokens ++ ts)
      _ = valueFrom (.value stack)
          (.openArray :: (itemTokens (j :: items) ++ .closeArray :: ts)) := by
        simp [tokens]
      _ = valueFrom (.value (.array [] :: stack))
          (itemTokens (j :: items) ++ .closeArray :: ts) := by
        rw [valueFrom_of_step rfl, valueFrom_firstItem stack (List.cons_ne_nil j items)]
      _ = valueFrom (.after (array (j :: items)) stack) ts := hitems
  | object [] => rfl
  | object (m :: members) =>
    have hmembers := valueFrom_memberTokens (List.cons_ne_nil m members) [] stack ts
    calc valueFrom (.value stack) ((object (m :: members)).tokens ++ ts)
      _ = valueFrom (.value stack)
          (.openObject :: (memberTokens (m :: members) ++ .closeObject :: ts)) := by
        simp [tokens]
      _ = valueFrom (.key [] stack) (memberTokens (m :: members) ++ .closeObject :: ts) := by
        rw [valueFrom_of_step rfl, valueFrom_firstKey stack (List.cons_ne_nil m members)]
      _ = valueFrom (.after (object (m :: members)) stack) ts := hmembers

theorem valueFrom_itemTokens {items : List Json} (hne : items ≠ []) (done : List Json)
    (stack : List Frame) (ts : List Token) :
    valueFrom (.value (.array done :: stack)) (itemTokens items ++ .closeArray :: ts) =
      valueFrom (.after (.array (done.reverse ++ items)) stack) ts := by
  match items with
  | [] => exact absurd rfl hne
  | [j] =>
    rw [itemTokens, valueFrom_tokens j, valueFrom_of_step rfl, List.reverse_cons]
  | j :: k :: rest =>
    have hrest := valueFrom_itemTokens (List.cons_ne_nil k rest) (j :: done) stack ts
    calc valueFrom (.value (.array done :: stack))
          (itemTokens (j :: k :: rest) ++ .closeArray :: ts)
      _ = valueFrom (.value (.array done :: stack))
          (j.tokens ++ .comma :: (itemTokens (k :: rest) ++ .closeArray :: ts)) := by
        simp [itemTokens]
      _ = valueFrom (.value (.array (j :: done) :: stack))
          (itemTokens (k :: rest) ++ .closeArray :: ts) := by
        rw [valueFrom_tokens j, valueFrom_of_step rfl]
      _ = valueFrom (.after (.array (done.reverse ++ j :: k :: rest)) stack) ts := by
        rw [hrest, List.reverse_cons, List.append_assoc]
        rfl

theorem valueFrom_memberTokens {members : List (Option Text × Json)} (hne : members ≠ [])
    (done : List (Option Text × Json)) (stack : List Frame) (ts : List Token) :
    valueFrom (.key done stack) (memberTokens members ++ .closeObject :: ts) =
      valueFrom (.after (.object (done.reverse ++ members)) stack) ts := by
  match members with
  | [] => exact absurd rfl hne
  | [(k, j)] =>
    rw [memberTokens, List.cons_append, List.cons_append, valueFrom_of_step rfl,
      valueFrom_of_step rfl, valueFrom_tokens j, valueFrom_of_step rfl, List.reverse_cons]
  | (k, j) :: m :: rest =>
    have hrest := valueFrom_memberTokens (List.cons_ne_nil m rest) ((k, j) :: done) stack ts
    calc valueFrom (.key done stack) (memberTokens ((k, j) :: m :: rest) ++ .closeObject :: ts)
      _ = valueFrom (.key done stack) (.string k :: .colon ::
          (j.tokens ++ .comma :: (memberTokens (m :: rest) ++ .closeObject :: ts))) := by
        simp [memberTokens]
      _ = valueFrom (.key ((k, j) :: done) stack)
          (memberTokens (m :: rest) ++ .closeObject :: ts) := by
        rw [valueFrom_of_step rfl, valueFrom_of_step rfl, valueFrom_tokens j, valueFrom_of_step rfl]
      _ = valueFrom (.after (.object (done.reverse ++ (k, j) :: m :: rest)) stack) ts := by
        rw [hrest, List.reverse_cons, List.append_assoc]
        rfl

end

/-! ## Numbers in decimal -/

theorem isNumber_of_isWhole {t : Text} (h : isWhole t = true) : isNumber t = true := by
  have hdigits : ∀ c ∈ t, c.isDigit = true := by
    rw [isWhole, isDigits, Bool.and_eq_true, Bool.and_eq_true, List.all_eq_true] at h
    exact h.1.2
  have hcut : ∀ p : Char → Bool, (∀ c, p c = true → c.isDigit = false) →
      Text.cut? p t = none := by
    intro p hp
    rw [Text.cut?_eq_none_iff]
    intro c hc
    cases hpc : p c with
    | false => rfl
    | true => exact absurd (hdigits c hc) (by simp [hp c hpc])
  have hmagnitude : isMagnitude t = true := by
    have hexponent := hcut (fun c => c == 'e' || c == 'E') (by
      intro c hc
      rcases Bool.or_eq_true_iff.mp hc with hc | hc <;> rw [eq_of_beq hc] <;> decide)
    have hpoint := hcut (· == '.') (by
      intro c hc
      rw [eq_of_beq hc]
      decide)
    simp only [isMagnitude, hexponent, hpoint, h, Bool.and_self]
  unfold isNumber
  split
  · exact absurd (hdigits '-' List.mem_cons_self) (by decide)
  · exact hmagnitude

/-- A number in decimal does not begin with a zero, unless it is zero. -/
theorem head?_decimal {n : Nat} (hn : n ≠ 0) : (Numeral.decimal n).head? ≠ some '0' := by
  induction n using Nat.strongRecOn with
  | ind n ih =>
    have hdigit : ∀ d < 10, d ≠ 0 → Nat.digitChar d ≠ '0' := by decide
    rw [Numeral.decimal, Nat.toDigits_eq_if (by decide)]
    split
    · next hlt => simpa using hdigit n hlt hn
    · next hge =>
      have hhead := ih (n / 10) (Nat.div_lt_self (by omega) (by decide)) (by omega)
      have hne : Nat.toDigits 10 (n / 10) ≠ [] := Nat.toDigits_ne_nil
      obtain ⟨c, rest, hdigits⟩ := List.exists_cons_of_ne_nil hne
      rw [Numeral.decimal, hdigits] at hhead
      rw [hdigits]
      exact hhead

theorem isNumber_decimal (n : Nat) : isNumber (Numeral.decimal n) = true := by
  have hdigits : ∀ c ∈ Numeral.decimal n, c.isDigit = true := by
    intro c hc
    exact Nat.isDigit_of_mem_toDigits (by decide) (by decide) hc
  have hne : Numeral.decimal n ≠ [] := Nat.toDigits_ne_nil
  apply isNumber_of_isWhole
  by_cases hn : n = 0
  · rw [hn]
    rfl
  · simp only [isWhole, isDigits, Bool.and_eq_true, List.all_eq_true, Bool.or_eq_true, bne_iff_ne]
    exact ⟨⟨by simpa using hne, hdigits⟩, .inr (head?_decimal hn)⟩

/-! ## Both passes -/

/-- A value whose strings are texts and whose numbers are numbers is read back as it was written. -/
theorem parse?_pretty {j : Json} (h : j.Writable) : parse? (pretty j) = some j := by
  have htokens : tokens? (pretty j) = some j.tokens := by
    have hscan := scanFrom_indented h 0 [] Apart.nil
    rw [List.append_nil, List.append_nil, scanFrom_nil] at hscan
    rw [tokens?_eq, pretty, hscan, Scan.finish, Option.map_some, List.reverse_reverse]
  have hvalue := valueFrom_tokens j [] []
  rw [List.append_nil] at hvalue
  rw [parse?, htokens]
  exact hvalue

end Json

end Cvere
