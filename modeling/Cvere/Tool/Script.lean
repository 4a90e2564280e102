import Cvere.Tool.Failure

/-!
# Scripts

What a tool does is a script: it asks the system to read, to write and to print, one thing after
another, and goes on with the answers. A script says in which order this happens, but not what the
answers are.

**Runs.** On a file system a script is carried out from a state. What it leaves behind
(`Execution`) is its value, or the failure that ended it, together with all that it asked for and
the last state. Whether something was printed or written before a failure can be read off there.

**Main result.** `run_bind`: a script after another one runs where that one ended, unless that one
failed.
-/

namespace Cvere

namespace Tool

/-- What a tool does, up to a value or a failure. -/
inductive Script (α : Type) where
  /-- There is nothing more to do. -/
  | done (value : α)
  /-- Give up. -/
  | fail (f : Failure)
  /-- Read what a path leads to. -/
  | read (path : Text) (next : Except FileError Bytes → Script α)
  /-- Write to what a path leads to. -/
  | write (path : Text) (bytes : Bytes) (next : Except FileError Unit → Script α)
  /-- Print a text on standard output. -/
  | print (text : Text) (next : Script α)

namespace Script

variable {α β : Type}

/-- One script after another. -/
def bind : Script α → (α → Script β) → Script β
  | done value, k => k value
  | fail f, _ => fail f
  | read path next, k => read path fun answer => (next answer).bind k
  | write path bytes next, k => write path bytes fun answer => (next answer).bind k
  | print text next, k => print text (next.bind k)

instance : Monad Script where
  pure := done
  bind := bind

/-- Go on with a result, or give up where there is none. -/
def check : Except Failure α → Script α
  | .ok value => done value
  | .error f => fail f

/-- Read a file and make something of it. -/
def readFile (path : Text) (make : Except FileError Bytes → Except Failure α) : Script α :=
  read path fun answer => check (make answer)

/-- Write a file. The failure says what was being done. -/
def writeFile (path : Text) (bytes : Bytes) (failure : FileError → Failure) : Script Unit :=
  write path bytes fun answer => check (answer.mapError failure)

/-- Print texts, one after another. -/
def printAll : List Text → Script Unit
  | [] => done ()
  | text :: rest => print text (printAll rest)

end Script

/-! ## Runs -/

/-- Something that a tool asked for, and the answer. -/
inductive Effect where
  | read (path : Text) (answer : Except FileError Bytes)
  | write (path : Text) (bytes : Bytes) (answer : Except FileError Unit)
  | print (text : Text)

/-- What appears on standard output. -/
def Effect.printed : Effect → Text
  | print text => text
  | read .. | write .. => []

/-- What a run of a script leaves behind. -/
structure Execution (σ α : Type) where
  value : Except Failure α
  /-- Everything that was asked for, in order. -/
  effects : List Effect
  /-- The state in which the run ended. -/
  state : σ

namespace Execution

variable {σ α β : Type}

/-- The same run after something else was asked for. -/
def after (front : List Effect) (x : Execution σ α) : Execution σ α :=
  { x with effects := front ++ x.effects }

/-- Go on from where a run ended, unless it failed. -/
def andThen (x : Execution σ α) (k : α → σ → Execution σ β) : Execution σ β :=
  match x.value with
  | .ok value => (k value x.state).after x.effects
  | .error f => ⟨.error f, x.effects, x.state⟩

@[simp] theorem andThen_ok (value : α) (effects : List Effect) (s : σ)
    (k : α → σ → Execution σ β) :
    (⟨.ok value, effects, s⟩ : Execution σ α).andThen k = (k value s).after effects := rfl

@[simp] theorem andThen_error (f : Failure) (effects : List Effect) (s : σ)
    (k : α → σ → Execution σ β) :
    (⟨.error f, effects, s⟩ : Execution σ α).andThen k = ⟨.error f, effects, s⟩ := rfl

theorem andThen_after (front : List Effect) (x : Execution σ α) (k : α → σ → Execution σ β) :
    (x.after front).andThen k = (x.andThen k).after front := by
  unfold andThen after
  cases x.value with
  | ok value => simp only [List.append_assoc]
  | error f => rfl

/-- What was asked for first stays first. -/
theorem exists_effects_andThen (x : Execution σ α) (k : α → σ → Execution σ β) :
    ∃ rest, (x.andThen k).effects = x.effects ++ rest := by
  unfold andThen
  cases x.value with
  | ok value => exact ⟨_, rfl⟩
  | error f => exact ⟨[], (List.append_nil _).symm⟩

theorem value_andThen (x : Execution σ α) (k : α → σ → Execution σ β) :
    (x.andThen k).value = x.value >>= fun value => (k value x.state).value := by
  unfold andThen
  cases x.value <;> rfl

end Execution

namespace Script

variable {σ α β : Type} (fs : FileSystem σ)

/-- Carry out a script. -/
def run : Script α → σ → Execution σ α
  | done value, s => ⟨.ok value, [], s⟩
  | fail f, s => ⟨.error f, [], s⟩
  | read path next, s =>
    ((next (fs.read path s).1).run (fs.read path s).2).after [.read path (fs.read path s).1]
  | write path bytes next, s =>
    ((next (fs.write path bytes s).1).run (fs.write path bytes s).2).after
      [.write path bytes (fs.write path bytes s).1]
  | print text next, s => (next.run s).after [.print text]

/-- Scripts run one after another, up to the first that fails. -/
theorem run_bind (x : Script α) (k : α → Script β) (s : σ) :
    (x >>= k).run fs s = (x.run fs s).andThen fun value => (k value).run fs := by
  show (x.bind k).run fs s = _
  induction x generalizing s with
  | done value => rfl
  | fail f => rfl
  | read path next ih =>
    rw [bind, run, run, Execution.andThen_after, ih]
  | write path bytes next ih =>
    rw [bind, run, run, Execution.andThen_after, ih]
  | print text next ih =>
    rw [bind, run, run, Execution.andThen_after, ih]

@[simp] theorem run_pure (value : α) (s : σ) :
    (pure value : Script α).run fs s = ⟨.ok value, [], s⟩ := rfl

@[simp] theorem run_check (r : Except Failure α) (s : σ) : (check r).run fs s = ⟨r, [], s⟩ := by
  cases r <;> rfl

@[simp] theorem run_readFile (path : Text) (make : Except FileError Bytes → Except Failure α)
    (s : σ) :
    (readFile path make).run fs s =
      ⟨make (fs.read path s).1, [.read path (fs.read path s).1], (fs.read path s).2⟩ := by
  rw [readFile, run, run_check]
  rfl

@[simp] theorem run_writeFile (path : Text) (bytes : Bytes) (failure : FileError → Failure)
    (s : σ) :
    (writeFile path bytes failure).run fs s =
      ⟨(fs.write path bytes s).1.mapError failure,
        [.write path bytes (fs.write path bytes s).1], (fs.write path bytes s).2⟩ := by
  rw [writeFile, run, run_check]
  rfl

@[simp] theorem run_printAll (texts : List Text) (s : σ) :
    (printAll texts).run fs s = ⟨.ok (), texts.map .print, s⟩ := by
  induction texts with
  | nil => rfl
  | cons text rest ih =>
    rw [printAll, run, ih]
    rfl

end Script

end Tool

end Cvere
