import Cvere.Label.Argument
import Cvere.Proofs.LineGrammar
import Cvere.Proofs.Numerals

/-!
# Which arguments give a label

A label on the command line is an address, an equals sign and a name. The first equals sign divides
the argument, so that the name may hold others, and blanks may stand around both parts.

**The rules.** `WritesAddress` says which texts write an address, and `RefusedAddress` what is wrong
with one that does not. `ReadAs` puts these together: it has one constructor for a label and one
for each thing that can be wrong. That there is no equals sign comes before everything else, and that
there is no name comes before what is wrong with the address, although the address is written first.

**Main result.** `ofArgument_acceptance`: an argument is read as the rules say.
-/

namespace Cvere

/-! ## The rules -/

/-- The mark of a hexadecimal number. -/
def IsHexMark (mark : Text) : Prop :=
  mark = ['0', 'x'] ∨ mark = ['0', 'X']

/-- The text writes the address: in decimal, or in hexadecimal with a mark. A plus sign may stand in
front of the digits. -/
inductive WritesAddress : Text → Address → Prop
  | decimal {sign digits : Text} {a : Address} : sign = [] ∨ sign = ['+'] →
      Numeral.Writes 10 digits a.toNat → WritesAddress (sign ++ digits) a
  | hexadecimal {mark sign digits : Text} {a : Address} : IsHexMark mark →
      sign = [] ∨ sign = ['+'] → Numeral.Writes 16 digits a.toNat →
      WritesAddress (mark ++ (sign ++ digits)) a

/-- What is wrong with a text that writes no address. The mark decides the radix. -/
inductive RefusedAddress : Text → Numeral.Error → Prop
  | decimal {t : Text} {e : Numeral.Error} : (∀ mark rest, IsHexMark mark → t ≠ mark ++ rest) →
      Numeral.Refused 10 Address.count t e → RefusedAddress t e
  | hexadecimal {mark t : Text} {e : Numeral.Error} : IsHexMark mark →
      Numeral.Refused 16 Address.count t e → RefusedAddress (mark ++ t) e

namespace Label

/-- The first equals sign of the argument stands between the two parts. -/
def Divides (argument address name : Text) : Prop :=
  argument = address ++ '=' :: name ∧ '=' ∉ address

/-- What an argument is read as. -/
inductive ReadAs (argument : Text) : Except ArgumentError Label → Prop
  | label {address name : Text} {a : Address} : Divides argument address name → ¬ name.AllBlank →
      WritesAddress (Text.trim address) a → ReadAs argument (.ok ⟨a, Text.trim name⟩)
  | missingEquals : '=' ∉ argument → ReadAs argument (.error .missingEquals)
  | emptyName {address name : Text} : Divides argument address name → name.AllBlank →
      ReadAs argument (.error (.emptyName argument))
  | badAddress {address name : Text} {e : Numeral.Error} : Divides argument address name →
      ¬ name.AllBlank → RefusedAddress (Text.trim address) e →
      ReadAs argument (.error (.badAddress e))

end Label

/-! ## Addresses -/

theorem hexMarked?_eq_some_iff_exists {t rest : Text} :
    Numeral.hexMarked? t = some rest ↔ ∃ mark, IsHexMark mark ∧ t = mark ++ rest := by
  rw [Numeral.hexMarked?_eq_some_iff]
  constructor
  · rintro (rfl | rfl)
    · exact ⟨_, .inl rfl, rfl⟩
    · exact ⟨_, .inr rfl, rfl⟩
  · rintro ⟨mark, rfl | rfl, rfl⟩
    · exact .inl rfl
    · exact .inr rfl

theorem hexMarked?_eq_none_iff {t : Text} : Numeral.hexMarked? t = none ↔
    ∀ mark rest, IsHexMark mark → t ≠ mark ++ rest := by
  rw [Option.eq_none_iff_forall_ne_some]
  simp only [ne_eq, hexMarked?_eq_some_iff_exists, not_exists, not_and]
  exact forall_comm

section Number

variable {radix : Nat} {t : Text} (hr : 0 < radix) (hr16 : radix ≤ 16)
include hr hr16

theorem map_read_eq_ok_iff {a : Address} :
    (Numeral.read radix Address.count t).map (BitVec.ofNat 32) = .ok a ↔
      ∃ sign digits, (sign = [] ∨ sign = ['+']) ∧ t = sign ++ digits ∧
        Numeral.Writes radix digits a.toNat := by
  have hread : ∀ n, Numeral.read radix Address.count t = .ok n ↔ _ :=
    fun n => Numeral.read_eq_ok_iff hr hr16 (by decide)
  constructor
  · intro h
    cases hn : Numeral.read radix Address.count t with
    | error e =>
      rw [hn] at h
      cases h
    | ok n =>
      rw [hn] at h
      cases h
      obtain ⟨digits, hdigits, hw, hlt⟩ := (hread n).mp hn
      have hw' : Numeral.Writes radix digits (BitVec.ofNat 32 n).toNat := by
        rwa [BitVec.toNat_ofNat, Nat.mod_eq_of_lt hlt]
      rcases hdigits with rfl | rfl
      · exact ⟨[], t, .inl rfl, rfl, hw'⟩
      · exact ⟨['+'], digits, .inr rfl, rfl, hw'⟩
  · rintro ⟨sign, digits, hsign, rfl, hw⟩
    have hn : Numeral.read radix Address.count (sign ++ digits) = .ok a.toNat := by
      refine (hread _).mpr ⟨digits, ?_, hw, a.isLt⟩
      rcases hsign with rfl | rfl
      · exact .inl rfl
      · exact .inr rfl
    rw [hn]
    show Except.ok (BitVec.ofNat 32 a.toNat) = .ok a
    rw [BitVec.ofNat_toNat, BitVec.setWidth_eq]

theorem map_read_eq_error_iff {e : Numeral.Error} :
    (Numeral.read radix Address.count t).map (BitVec.ofNat 32) = .error e ↔
      Numeral.Refused radix Address.count t e := by
  rw [← Numeral.read_eq_error_iff hr hr16 (by decide)]
  cases Numeral.read radix Address.count t <;> simp [Except.map]

end Number

section Address

variable {t : Text}

theorem readAddress_of_mark {mark rest : Text} (hmark : IsHexMark mark)
    (h : Text.trim t = mark ++ rest) :
    readAddress t = (Numeral.read 16 Address.count rest).map (BitVec.ofNat 32) := by
  have hmarked : Numeral.hexMarked? (Text.trim t) = some rest :=
    hexMarked?_eq_some_iff_exists.mpr ⟨mark, hmark, h⟩
  simp only [readAddress, hmarked]

theorem readAddress_of_no_mark (h : Numeral.hexMarked? (Text.trim t) = none) :
    readAddress t = (Numeral.read 10 Address.count (Text.trim t)).map (BitVec.ofNat 32) := by
  simp only [readAddress, h]

/-- A number in decimal has no mark, with or without a sign. -/
theorem hexMarked?_signed {sign digits : Text} {n : Nat} (hsign : sign = [] ∨ sign = ['+'])
    (hw : Numeral.Writes 10 digits n) : Numeral.hexMarked? (sign ++ digits) = none := by
  rcases hsign with rfl | rfl
  · exact hw.hexMarked?_eq_none (by decide)
  · rfl

theorem readAddress_eq_ok_iff {a : Address} :
    readAddress t = .ok a ↔ WritesAddress (Text.trim t) a := by
  constructor
  · intro h
    cases hmarked : Numeral.hexMarked? (Text.trim t) with
    | some rest =>
      obtain ⟨mark, hmark, htrim⟩ := hexMarked?_eq_some_iff_exists.mp hmarked
      rw [readAddress_of_mark hmark htrim, map_read_eq_ok_iff (by decide) (by decide)] at h
      obtain ⟨sign, digits, hsign, rfl, hw⟩ := h
      rw [htrim]
      exact .hexadecimal hmark hsign hw
    | none =>
      rw [readAddress_of_no_mark hmarked, map_read_eq_ok_iff (by decide) (by decide)] at h
      obtain ⟨sign, digits, hsign, htrim, hw⟩ := h
      rw [htrim]
      exact .decimal hsign hw
  · intro h
    generalize htrim : Text.trim t = s at h
    cases h with
    | hexadecimal hmark hsign hw =>
      rw [readAddress_of_mark hmark htrim, map_read_eq_ok_iff (by decide) (by decide)]
      exact ⟨_, _, hsign, rfl, hw⟩
    | decimal hsign hw =>
      have hmarked := hexMarked?_signed hsign hw
      rw [readAddress_of_no_mark (htrim ▸ hmarked), htrim,
        map_read_eq_ok_iff (by decide) (by decide)]
      exact ⟨_, _, hsign, rfl, hw⟩

theorem readAddress_eq_error_iff {e : Numeral.Error} :
    readAddress t = .error e ↔ RefusedAddress (Text.trim t) e := by
  constructor
  · intro h
    cases hmarked : Numeral.hexMarked? (Text.trim t) with
    | some rest =>
      obtain ⟨mark, hmark, htrim⟩ := hexMarked?_eq_some_iff_exists.mp hmarked
      rw [readAddress_of_mark hmark htrim, map_read_eq_error_iff (by decide) (by decide)] at h
      rw [htrim]
      exact .hexadecimal hmark h
    | none =>
      rw [readAddress_of_no_mark hmarked, map_read_eq_error_iff (by decide) (by decide)] at h
      exact .decimal (hexMarked?_eq_none_iff.mp hmarked) h
  · intro h
    generalize htrim : Text.trim t = s at h
    cases h with
    | hexadecimal hmark h =>
      rw [readAddress_of_mark hmark htrim, map_read_eq_error_iff (by decide) (by decide)]
      exact h
    | decimal hnone h =>
      have hmarked := hexMarked?_eq_none_iff.mpr hnone
      rw [readAddress_of_no_mark (htrim ▸ hmarked), htrim,
        map_read_eq_error_iff (by decide) (by decide)]
      exact h

/-- Neither blanks nor an equals sign are part of a number. -/
theorem not_blank_of_writes {radix n : Nat} (hr : radix ≤ 16) (h : Numeral.Writes radix t n)
    {c : Char} (hc : c ∈ t) : Text.isBlank c = false ∧ c ≠ '=' := by
  cases hd : Numeral.hexDigit? c with
  | none => exact absurd hc (h.not_mem hr (Numeral.digit?_eq_none hd radix))
  | some d =>
    refine ⟨(Numeral.not_blank_of_hexDigit? hd).1, ?_⟩
    rintro rfl
    cases hd

theorem WritesAddress.not_blank {a : Address} (h : WritesAddress t a) {c : Char} (hc : c ∈ t) :
    Text.isBlank c = false ∧ c ≠ '=' := by
  have hsigned : ∀ {sign : Text}, sign = [] ∨ sign = ['+'] →
      ∀ c ∈ sign, Text.isBlank c = false ∧ c ≠ '=' := by
    rintro sign (rfl | rfl)
    · exact List.forall_mem_nil _
    · exact List.forall_mem_singleton.mpr (by decide)
  have hmarked : ∀ {mark : Text}, IsHexMark mark →
      ∀ c ∈ mark, Text.isBlank c = false ∧ c ≠ '=' := by
    rintro mark (rfl | rfl)
    · exact List.forall_mem_cons.mpr ⟨by decide, List.forall_mem_singleton.mpr (by decide)⟩
    · exact List.forall_mem_cons.mpr ⟨by decide, List.forall_mem_singleton.mpr (by decide)⟩
  cases h with
  | decimal hsign hw =>
    rcases List.mem_append.mp hc with hc | hc
    · exact hsigned hsign c hc
    · exact not_blank_of_writes (by decide) hw hc
  | hexadecimal hmark hsign hw =>
    rcases List.mem_append.mp hc with hc | hc
    · exact hmarked hmark c hc
    rcases List.mem_append.mp hc with hc | hc
    · exact hsigned hsign c hc
    · exact not_blank_of_writes (by decide) hw hc

end Address

namespace Label

/-! ## Arguments -/

variable {argument address name : Text}

theorem cut?_eq_some_iff :
    Text.cut? (· == '=') argument = some (address, name) ↔ Divides argument address name := by
  constructor
  · intro h
    obtain ⟨hfree, c, hc, rfl⟩ := Text.append_of_cut? h
    obtain rfl : c = '=' := by simpa using hc
    exact ⟨rfl, fun hmem => by simpa using hfree _ hmem⟩
  · rintro ⟨rfl, hfree⟩
    refine Text.cut?_append name (fun c hc => ?_) (by decide)
    simpa using fun h : c = '=' => hfree (h ▸ hc)

theorem trim_eq_nil_iff : Text.trim name = [] ↔ name.AllBlank := by
  constructor
  · intro h
    obtain ⟨front, back, hfront, hback, hname⟩ := Text.exists_eq_trim name
    rw [h, List.nil_append] at hname
    rw [hname]
    exact List.forall_mem_append.mpr ⟨hfront, hback⟩
  · intro h
    have htrim := Text.trim_append_of_blank h []
    rwa [List.append_nil] at htrim

theorem ofArgument_of_divides (h : Divides argument address name) :
    ofArgument argument =
      if (Text.trim name).isEmpty then .error (.emptyName argument)
      else match readAddress address with
        | .error cause => .error (.badAddress cause)
        | .ok a => .ok { address := a, name := Text.trim name } := by
  unfold ofArgument
  rewrite [cut?_eq_some_iff.mpr h]
  rfl

/-- What an argument is read as follows the rules. -/
theorem readAs_ofArgument (argument : Text) : ReadAs argument (ofArgument argument) := by
  cases hcut : Text.cut? (· == '=') argument with
  | none =>
    have hfree : '=' ∉ argument := fun h => by
      simpa using Text.cut?_eq_none_iff.mp hcut '=' h
    simp only [ofArgument, hcut]
    exact .missingEquals hfree
  | some halves =>
    obtain ⟨address, name⟩ := halves
    have hdivides := cut?_eq_some_iff.mp hcut
    rw [ofArgument_of_divides hdivides]
    split
    · next hempty => exact .emptyName hdivides (trim_eq_nil_iff.mp (List.isEmpty_iff.mp hempty))
    · next hname =>
      have hblank : ¬ name.AllBlank := fun h => hname (List.isEmpty_iff.mpr (trim_eq_nil_iff.mpr h))
      cases haddress : readAddress address with
      | error e => exact .badAddress hdivides hblank (readAddress_eq_error_iff.mp haddress)
      | ok a => exact .label hdivides hblank (readAddress_eq_ok_iff.mp haddress)

/-- The rules give each argument one reading only. -/
theorem ofArgument_of_readAs {result : Except ArgumentError Label}
    (h : ReadAs argument result) : ofArgument argument = result := by
  have hname : ∀ {name : Text}, ¬ name.AllBlank → ¬ (Text.trim name).isEmpty = true := by
    intro name hblank hempty
    exact hblank (trim_eq_nil_iff.mp (List.isEmpty_iff.mp hempty))
  cases h with
  | label hdivides hblank haddress =>
    rw [ofArgument_of_divides hdivides, if_neg (hname hblank),
      readAddress_eq_ok_iff.mpr haddress]
  | missingEquals hfree =>
    have hcut : Text.cut? (· == '=') argument = none := by
      rw [Text.cut?_eq_none_iff]
      intro c hc
      simpa using fun h : c = '=' => hfree (h ▸ hc)
    simp only [ofArgument, hcut]
  | emptyName hdivides hblank =>
    rw [ofArgument_of_divides hdivides, if_pos (List.isEmpty_iff.mpr (trim_eq_nil_iff.mpr hblank))]
  | badAddress hdivides hblank haddress =>
    rw [ofArgument_of_divides hdivides, if_neg (hname hblank),
      readAddress_eq_error_iff.mpr haddress]

theorem divides_of_padded {front t back : Text} {a : Address} (hfront : front.AllBlank)
    (hback : back.AllBlank) (h : WritesAddress t a) (name : Text) :
    Divides (front ++ (t ++ (back ++ '=' :: name))) (front ++ (t ++ back)) name := by
  refine ⟨by simp, ?_⟩
  rw [List.mem_append, List.mem_append, not_or, not_or]
  have hequals : Text.isBlank '=' = false := by decide
  exact ⟨hfront.not_mem hequals, fun hc => (h.not_blank hc).2 rfl, hback.not_mem hequals⟩

/-- **Label arguments.** An address in decimal or in hexadecimal with a mark, with blanks around it,
an equals sign and a name that is not blank give the label of the address with the trimmed name. An
argument is accepted exactly if it has an equals sign, the text behind the first one is not blank,
and the trimmed text before it writes an address. What is reported otherwise is what `ReadAs`
says. -/
theorem ofArgument_acceptance :
    (∀ (front t back name : Text) (a : Address), front.AllBlank → back.AllBlank →
      WritesAddress t a → Text.trim name ≠ [] →
      ofArgument (front ++ (t ++ (back ++ '=' :: name))) = .ok ⟨a, Text.trim name⟩) ∧
    ∀ argument,
      ((∃ l, ofArgument argument = .ok l) ↔ ∃ address name a, Divides argument address name ∧
        ¬ name.AllBlank ∧ WritesAddress (Text.trim address) a) ∧
      ∀ result, ofArgument argument = result ↔ ReadAs argument result := by
  have hrules : ∀ argument result, ofArgument argument = result ↔ ReadAs argument result := by
    intro argument result
    refine ⟨fun h => h ▸ readAs_ofArgument argument, ofArgument_of_readAs⟩
  refine ⟨?_, fun argument => ⟨?_, hrules argument⟩⟩
  · intro front t back name a hfront hback ht hname
    have htrim : Text.trim (front ++ (t ++ back)) = t :=
      Text.trim_of_padded hfront hback (Text.trimmed_of_not_blank fun c hc => (ht.not_blank hc).1)
    refine ofArgument_of_readAs (.label (divides_of_padded hfront hback ht name) ?_ ?_)
    · exact fun hblank => hname (trim_eq_nil_iff.mpr hblank)
    · rwa [htrim]
  · simp only [hrules]
    constructor
    · rintro ⟨l, hl⟩
      cases hl with
      | label hdivides hblank haddress => exact ⟨_, _, _, hdivides, hblank, haddress⟩
    · rintro ⟨address, name, a, hdivides, hblank, haddress⟩
      exact ⟨_, .label hdivides hblank haddress⟩

/-- A marked address with leading zeros and blanks around it, before a name with an equals sign in
it. Of two faults in an address the leftmost counts, and no name is worse than either. -/
theorem ofArgument_acceptance_marked :
    WritesAddress "0X00fF".toList 0xFF ∧ Text.trim " a=b".toList ≠ [] ∧
      ofArgument ([' '] ++ ("0X00fF".toList ++ (['\t'] ++ '=' :: " a=b".toList))) =
        .ok ⟨0xFF, "a=b".toList⟩ ∧
      ReadAs "4294967296_=x".toList (.error (.badAddress .tooLarge)) ∧
      ReadAs "429496729_6=x".toList (.error (.badAddress .invalidDigit)) ∧
      ReadAs "429496729_6= ".toList (.error (.emptyName "429496729_6= ".toList)) := by
  have hwrites : WritesAddress "0X00fF".toList 0xFF :=
    .hexadecimal (.inr rfl) (.inl rfl) ((Numeral.natural?_eq_some_iff (by decide)).mp (by decide))
  obtain ⟨hlabel, hrules⟩ := ofArgument_acceptance
  refine ⟨hwrites, by decide, hlabel _ _ _ _ _ (by decide) (by decide) hwrites (by decide), ?_⟩
  exact ⟨((hrules _).2 _).mp (by decide), ((hrules _).2 _).mp (by decide),
    ((hrules _).2 _).mp (by decide)⟩

end Label

end Cvere
