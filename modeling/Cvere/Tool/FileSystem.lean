import Cvere.Bindings
import Cvere.Text.Utf8

/-!
# Files

The tools read and write files by path. Where a path leads, what is found there and whether it can be
replaced is for the system to decide that a tool runs on. So the file system is a parameter: a type
of states, what reading and writing do to a state, and a view of the files.

**Laws.** Nothing is assumed of a file system unless it is said. `Lawful` is what holds of all of
them: reading changes no file, and neither does a write that fails. `Stores` and `Apart` are about
single paths, for not every path leads to a file that can be written, and two paths may lead to the
same file.

**Main results.** `lawful_flat`, `stores_flat` and `apart_flat`: files by name obey the laws.
-/

namespace Cvere

namespace Tool

/-- The contents of a file. -/
abbrev Bytes := List UInt8

/-- Why a file cannot be read or written. -/
inductive FileError where
  | notFound
  | isDirectory
  | notDirectory
  | nameTooLong
  /-- The device has no room. -/
  | noSpace
  /-- There is nothing behind the device. -/
  | noDevice
  /-- A text file whose bytes are no text. -/
  | notText
  /-- Anything else that the system reports. -/
  | other (message : Text)
  deriving DecidableEq, Repr

/-- The wording of a file error. -/
def FileError.message : FileError → Text
  | .notFound => "No such file or directory (os error 2)".toList
  | .isDirectory => "Is a directory (os error 21)".toList
  | .notDirectory => "Not a directory (os error 20)".toList
  | .nameTooLong => "File name too long (os error 36)".toList
  | .noSpace => "No space left on device (os error 28)".toList
  | .noDevice => "No such device or address (os error 6)".toList
  | .notText => "stream did not contain valid UTF-8".toList
  | .other message => message

/-- The text of a file that was read. -/
def textOf (contents : Except FileError Bytes) : Except FileError Text :=
  match contents with
  | .error e => .error e
  | .ok bytes =>
    match Text.ofUtf8? bytes with
    | none => .error .notText
    | some t => .ok t

/-- A file system with states in `σ`. A path may lead to something that is no file, such as a pipe,
which reading can change. -/
structure FileSystem (σ : Type) where
  /-- Read what a path leads to. -/
  read : Text → σ → Except FileError Bytes × σ
  /-- Write to what a path leads to, in place of what was there. -/
  write : Text → Bytes → σ → Except FileError Unit × σ
  /-- The contents of the file that a path leads to, if it leads to a file. -/
  file? : Text → σ → Option Bytes

namespace FileSystem

variable {σ : Type}

/-- Files change by a write that works, and by nothing else that a tool can do. -/
structure Lawful (fs : FileSystem σ) : Prop where
  /-- Reading changes no file. -/
  file?_read : ∀ path s other, fs.file? other (fs.read path s).2 = fs.file? other s
  /-- A write that fails changes no file. -/
  file?_write : ∀ path bytes s e, (fs.write path bytes s).1 = .error e →
    ∀ other, fs.file? other (fs.write path bytes s).2 = fs.file? other s

/-- The path leads to a file that can be written, and that keeps what is written. -/
structure Stores (fs : FileSystem σ) (path : Text) : Prop where
  write_eq_ok : ∀ bytes s, (fs.write path bytes s).1 = .ok ()
  read_write : ∀ bytes s, (fs.read path (fs.write path bytes s).2).1 = .ok bytes

/-- Nothing that is written to the other path is read from the path. -/
def Apart (fs : FileSystem σ) (path other : Text) : Prop :=
  ∀ bytes s, (fs.read path (fs.write other bytes s).2).1 = (fs.read path s).1

/-! ## Files by name -/

/-- A directory that holds nothing but files, under their names. A path with a slash would lead
through another directory, of which there is none. -/
def flat : FileSystem (Bindings Text Bytes) where
  read path files :=
    (match files.get? path with
      | some bytes => .ok bytes
      | none => .error .notFound, files)
  write path bytes files :=
    if '/' ∈ path then (.error .notFound, files) else (.ok (), files.insert path bytes)
  file? path files := files.get? path

theorem read_flat {path : Text} {bytes : Bytes} {files : Bindings Text Bytes}
    (h : files.get? path = some bytes) : flat.read path files = (.ok bytes, files) := by
  simp only [flat, h]

theorem write_flat {path : Text} (h : '/' ∉ path) (bytes : Bytes) (files : Bindings Text Bytes) :
    flat.write path bytes files = (.ok (), files.insert path bytes) :=
  if_neg h

theorem lawful_flat : flat.Lawful where
  file?_read _ _ _ := rfl
  file?_write path bytes files e h other := by
    by_cases hslash : '/' ∈ path
    · show (flat.write path bytes files).2.get? other = files.get? other
      simp only [flat, if_pos hslash]
    · rw [write_flat hslash] at h
      cases h

theorem stores_flat {path : Text} (h : '/' ∉ path) : flat.Stores path where
  write_eq_ok bytes files := by rw [write_flat h]
  read_write bytes files := by
    rw [write_flat h, read_flat]
    rw [Bindings.get?_insert, if_pos rfl]

theorem apart_flat {path other : Text} (h : path ≠ other) : flat.Apart path other := by
  intro bytes files
  by_cases hslash : '/' ∈ other
  · simp only [flat, if_pos hslash]
  · rw [write_flat hslash]
    simp only [flat, Bindings.get?_insert, if_neg h]

end FileSystem

end Tool

end Cvere
