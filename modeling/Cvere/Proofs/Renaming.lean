import Cvere.Disassembly.Disassembler
import Mathlib.Data.List.Forall2

/-!
# Names only rename targets

A disassembler can be given names for addresses at any time, one by one or many at once. The names
are there for readers: where a jump or a branch leads to an address with a name, the name stands in
place of the number. Nothing else in a listing may depend on them, least of all which words belong
together and what the notes say.

**Two runs.** `Renamed` compares the records of two disassemblers that differ in their names. A
record can differ in its operands only, and only in the target, which is looked up under one
address. The comparison is made for a single word (`renamed_record`) and carried through the words
by the disassembler's own recursion, since the names have no part in deciding where a record ends.

**Histories.** The names after a sequence of requests are those of one long list of insertions
(`run_eq`), of which the last for an address counts.

**Main result.** `records_renamed`.
-/

namespace Cvere

/-! ## Insertions -/

/-- After insertions into an empty map, a key is bound to a value exactly when the last insertion
for the key has the value. -/
theorem Bindings.get?_insertAll_empty_iff {κ ν : Type} [DecidableEq κ] {ps : List (κ × ν)} {k : κ}
    {v : ν} : (empty.insertAll ps).get? k = some v ↔
      ∃ before after, ps = before ++ (k, v) :: after ∧ ∀ p ∈ after, p.1 ≠ k := by
  rw [get?_insertAll, get?_empty, Option.or_none, List.lookup_eq_some_iff]
  constructor
  · rintro ⟨after, before, hsplit, hother⟩
    refine ⟨before.reverse, after.reverse, ?_, fun p hp => ?_⟩
    · rw [← List.reverse_reverse ps, hsplit]
      simp
    · exact (bne_iff_ne.mp (hother p (List.mem_reverse.mp hp))).symm
  · rintro ⟨before, after, rfl, hother⟩
    refine ⟨after.reverse, before.reverse, by simp, fun p hp => ?_⟩
    exact bne_iff_ne.mpr (hother p (List.mem_reverse.mp hp)).symm

namespace Disassembly

/-- A request to name addresses. -/
inductive Naming where
  /-- Name one address. -/
  | add (address : Address) (name : Text)
  /-- Name addresses from left to right. -/
  | extend (labels : List Label)
  deriving DecidableEq, Repr

/-- The labels of a request, in the order in which they are inserted. -/
def Naming.labels : Naming → List Label
  | .add address name => [{ address, name }]
  | .extend labels => labels

/-- The last of the labels for the address has the name. -/
def LastNamed (labels : List Label) (address : Address) (name : Text) : Prop :=
  ∃ before after, labels = before ++ ⟨address, name⟩ :: after ∧ ∀ l ∈ after, l.address ≠ address

namespace Disassembler

/-- The disassembler after a request. -/
def after (d : Disassembler) : Naming → Disassembler
  | .add address name => d.addLabel address name
  | .extend labels => d.extendLabels labels

/-- The disassembler after a sequence of requests. -/
def run (d : Disassembler) (requests : List Naming) : Disassembler :=
  requests.foldl after d

/-- A request inserts its labels and changes nothing else. -/
theorem after_eq (d : Disassembler) (request : Naming) :
    d.after request = { d with names := d.names.extend request.labels } := by
  cases request <;> rfl

/-- So does a sequence of requests. -/
theorem run_eq (d : Disassembler) (requests : List Naming) :
    d.run requests = { d with names := d.names.extend (requests.flatMap Naming.labels) } := by
  induction requests generalizing d with
  | nil => rfl
  | cons request requests ih =>
    rw [run, List.foldl_cons, ← run, ih, after_eq, List.flatMap_cons]
    simp only [Names.extend, List.map_append, Bindings.insertAll_append]

/-- The names of a disassembler that began without any. -/
theorem get?_names_run {d : Disassembler} (hd : d.names = Bindings.empty) {requests : List Naming}
    {address : Address} {name : Text} : (d.run requests).names.get? address = some name ↔
      LastNamed (requests.flatMap Naming.labels) address name := by
  rw [run_eq, hd]
  show (Bindings.empty.insertAll _).get? address = some name ↔ _
  rw [Bindings.get?_insertAll_empty_iff]
  constructor
  · rintro ⟨before, after, hsplit, hother⟩
    obtain ⟨front, rest, hlabels, rfl, hrest⟩ := List.map_eq_append_iff.mp hsplit
    obtain ⟨l, back, rfl, hl, rfl⟩ := List.map_eq_cons_iff.mp hrest
    cases hl
    exact ⟨front, back, hlabels, fun m hm => hother _ (List.mem_map_of_mem hm)⟩
  · rintro ⟨before, after, hsplit, hother⟩
    refine ⟨_, _, by rw [hsplit, List.map_append, List.map_cons], fun p hp => ?_⟩
    obtain ⟨m, hm, rfl⟩ := List.mem_map.mp hp
    exact hother m hm

end Disassembler

end Disassembly

/-! ## One word -/

namespace Decoded

open Disassembly

/-- The operands that stand in front of a target. -/
def operandsBeforeTarget (d : Decoded) : List Text :=
  match d.family with
  | .branch => [Register.name d.rd]
  | _ => []

/-- Of the operands of a word that leads somewhere, only the last depends on the names, and only on
the name of the address that it leads to. -/
theorem operandText_of_target? {d : Decoded} {address target : Address}
    (h : d.target? address = some target) :
    ∃ digits, ∀ names, d.operandText address names =
      commaList (d.operandsBeforeTarget ++ [targetText names digits target]) := by
  unfold target? at h
  unfold operandText operandsBeforeTarget
  cases hf : d.family with
  | jump =>
    rw [hf] at h
    cases h
    exact ⟨3, fun names => by simp [commaList, Text.join]⟩
  | branch =>
    rw [hf] at h
    cases h
    exact ⟨4, fun names => rfl⟩
  | _ =>
    rw [hf] at h
    cases h

/-- The operands of a word that leads nowhere do not depend on the names. -/
theorem operandText_of_target?_eq_none {d : Decoded} {address : Address}
    (h : d.target? address = none) (m n : Names) :
    d.operandText address m = d.operandText address n := by
  unfold target? at h
  unfold operandText
  cases hf : d.family with
  | jump | branch =>
    rw [hf] at h
    cases h
  | _ => rfl

end Decoded

namespace Disassembly

/-- Two records of the same words, with names taken from `m` and from `n`. They agree in everything
but the name of a target. -/
structure Renamed (decoder : Decoder) (m n : Names) (r s : Record) : Prop where
  address : s.address = r.address
  raw : s.raw = r.raw
  reserved : s.reserved = r.reserved
  mnemonic : s.mnemonic = r.mnemonic
  note : s.note = r.note
  /-- Only a name of the address that the word leads to can change the operands. -/
  operands : (∀ decoded target, decoder r.raw = some decoded →
    decoded.target? r.address = some target → m.get? target = n.get? target) →
    s.operands = r.operands
  /-- What stands in front of the target is the same in any case. -/
  target : ∀ decoded target, decoder r.raw = some decoded →
    decoded.target? r.address = some target → ∃ digits,
      r.operands = commaList (decoded.operandsBeforeTarget ++ [targetText m digits target]) ∧
      s.operands = commaList (decoded.operandsBeforeTarget ++ [targetText n digits target])

namespace Disassembler

variable (d : Disassembler) (m n : Names)

theorem renamed_record (address : Address) (raw : Word) (reserved : Option Word) :
    Renamed d.decoder m n { record { d with names := m } address raw with reserved }
      { record { d with names := n } address raw with reserved } := by
  cases hraw : d.decoder raw with
  | none =>
    have hsame : record { d with names := m } address raw =
        record { d with names := n } address raw := by
      unfold record
      simp only [hraw]
    rw [hsame]
    refine ⟨rfl, rfl, rfl, rfl, rfl, fun _ => rfl, fun decoded target hdecoded => ?_⟩
    simp [hraw] at hdecoded
  | some decoded =>
    have hm := @record_of_decoder { d with names := m } raw decoded hraw address
    have hn := @record_of_decoder { d with names := n } raw decoded hraw address
    rw [hm, hn]
    refine ⟨rfl, rfl, rfl, rfl, rfl, fun hnames => ?_, fun decoded' target hdecoded htarget => ?_⟩
    · show decoded.operandText address n = decoded.operandText address m
      cases htarget : decoded.target? address with
      | none => exact decoded.operandText_of_target?_eq_none htarget n m
      | some target =>
        obtain ⟨digits, htext⟩ := decoded.operandText_of_target? htarget
        rw [htext, htext, targetText, targetText, hnames decoded target hraw htarget]
    · obtain rfl : decoded = decoded' := Option.some.inj (hraw.symm.trans hdecoded)
      obtain ⟨digits, htext⟩ := decoded.operandText_of_target? htarget
      exact ⟨digits, htext m, htext n⟩

theorem renamed_record_alone (address : Address) (raw : Word) :
    Renamed d.decoder m n (record { d with names := m } address raw)
      (record { d with names := n } address raw) := by
  have h := renamed_record d m n address raw none
  rwa [record_without_reserved, record_without_reserved] at h

/-- The names have no part in where a record ends. -/
theorem forall₂_renamed (start : Address) (words : List Word) :
    List.Forall₂ (Renamed d.decoder m n) (records { d with names := m } start words)
      (records { d with names := n } start words) := by
  fun_induction records { d with names := m } start words with
  | case1 => exact .nil
  | case2 address raw => exact .cons (renamed_record_alone d m n address raw) .nil
  | case3 address raw next rest htakes ih =>
    have htakes' : takesReserved { d with names := n } raw = true := htakes
    rw [records, if_pos htakes']
    exact .cons (renamed_record d m n address raw (some next)) ih
  | case4 address raw next rest htakes ih =>
    have htakes' : ¬ takesReserved { d with names := n } raw = true := htakes
    rw [records, if_neg htakes']
    exact .cons (renamed_record_alone d m n address raw) ih

/-- **Names only rename targets.** Let two disassemblers with the same decoder and configuration be
given names by whatever requests. They make as many records of the same words, and each record
agrees with its counterpart as `Renamed` says. An address has the name of the last label that was
inserted for it, if there is one. -/
theorem records_renamed (decoder : Decoder) (config : Config) (hs ks : List Naming)
    (start : Address) (words : List Word) :
    let fresh : Disassembler := { ofDecoder decoder with config }
    List.Forall₂ (Renamed decoder (fresh.run hs).names (fresh.run ks).names)
      ((fresh.run hs).records start words) ((fresh.run ks).records start words) ∧
    ∀ address name, (fresh.run hs).names.get? address = some name ↔
      LastNamed (hs.flatMap Naming.labels) address name := by
  intro fresh
  refine ⟨?_, fun address name => get?_names_run rfl⟩
  rw [run_eq, run_eq]
  exact forall₂_renamed fresh _ _ start words

/-- The second name of an address replaces the first, in a branch as in a jump. -/
example :
    let d := standard.run [.add 4 "x".toList, .extend [⟨4, "loop".toList⟩, ⟨6, "y".toList⟩]]
    (d.records 0 [0xE101, 0xD006]).map Record.operands = ["R1, loop".toList, "y".toList] := by
  decide

end Disassembler

end Disassembly

end Cvere
