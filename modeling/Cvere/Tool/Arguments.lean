import Cvere.Text.Basic

/-!
# Command-line arguments

A tool takes one operand and a fixed set of options. Arguments are read from left to right, and
the first that cannot be accepted ends the reading.

* `--name value` and `--name=value` give an option a value; `-x value`, `-xvalue` and `-x=value` do
  the same for an option with a letter. A value in an argument of its own does not begin with a
  dash, unless it is a dash alone.
* An option is given once, unless it may be repeated.
* After `--`, every argument is an operand.
* `--version` and `--help`, or `-V` and `-h`, end the reading where they stand.
-/

namespace Cvere

namespace Tool

/-- An option of a tool. -/
structure OptionRule where
  /-- The name after two dashes. -/
  name : Text
  /-- The letter after one dash. -/
  letter : Option Char
  /-- The values it accepts, or `none` when it takes no value. -/
  accepts : Option (Text → Bool)
  /-- Whether it may be given more than once. -/
  repeats : Bool

/-- Why the reading of arguments ended early. -/
inductive Stop where
  /-- An argument cannot be accepted. -/
  | usage
  /-- The version was asked for. -/
  | version
  /-- Help was asked for. -/
  | help
  deriving DecidableEq, Repr

/-- The options and the operand read so far. -/
structure Arguments where
  operand : Option Text
  /-- Names and values of options, last first. An option without a value has an empty one. -/
  given : List (Text × Text)
  /-- An option that waits for its value. -/
  waiting : Option OptionRule
  /-- Whether only operands may come. -/
  operandsOnly : Bool

namespace Arguments

/-- Nothing has been read. -/
def start : Arguments where
  operand := none
  given := []
  waiting := none
  operandsOnly := false

/-- Whether an option was given. -/
def has (a : Arguments) (name : Text) : Bool :=
  a.given.any (·.1 = name)

/-- The value of an option. -/
def value? (a : Arguments) (name : Text) : Option Text :=
  a.given.lookup name

/-- The values of an option that may be repeated, in the order in which they were given. -/
def values (a : Arguments) (name : Text) : List Text :=
  (a.given.reverse.filter (·.1 = name)).map Prod.snd

/-- Record an option. -/
def give (a : Arguments) (rule : OptionRule) (value : Text) : Except Stop Arguments :=
  if !rule.repeats && a.has rule.name then .error .usage
  else if (rule.accepts.getD fun _ => true) value then
    .ok { a with given := (rule.name, value) :: a.given, waiting := none }
  else .error .usage

/-- Record an operand. There is one, and it is not empty. -/
def giveOperand (a : Arguments) (value : Text) : Except Stop Arguments :=
  if a.operand.isSome || value.isEmpty then .error .usage
  else .ok { a with operand := some value }

/-- Read an option that was named in full. -/
def readNamed (rules : List OptionRule) (a : Arguments) (body : Text) : Except Stop Arguments :=
  let (name, attached) := match Text.cut? (· == '=') body with
    | some (name, value) => (name, some value)
    | none => (body, none)
  if name = "version".toList then .error (if attached.isSome then .usage else .version)
  else if name = "help".toList then .error (if attached.isSome then .usage else .help)
  else match rules.find? (·.name = name) with
    | none => .error .usage
    | some rule =>
      match rule.accepts, attached with
      | none, none => a.give rule []
      | none, some _ => .error .usage
      | some _, some value => a.give rule value
      | some _, none => .ok { a with waiting := some rule }

/-- Read options that were given by their letters. The first one that takes a value takes the rest
of the letters, without an equals sign in front. -/
def readLetters (rules : List OptionRule) (a : Arguments) : Text → Except Stop Arguments
  | [] => .ok a
  | c :: rest =>
    if c = 'V' then .error .version
    else if c = 'h' then .error .help
    else match rules.find? (·.letter = some c) with
      | none => .error .usage
      | some rule =>
        match rule.accepts, rest with
        | none, rest => (a.give rule []).bind (readLetters rules · rest)
        | some _, [] => .ok { a with waiting := some rule }
        | some _, '=' :: value => a.give rule value
        | some _, value => a.give rule value

/-- Read one argument. -/
def step (rules : List OptionRule) (a : Arguments) (argument : Text) : Except Stop Arguments :=
  match a.waiting, a.operandsOnly, argument with
  | some rule, _, ['-'] => a.give rule ['-']
  | some _, _, '-' :: _ => .error .usage
  | some rule, _, value => a.give rule value
  | none, true, value => a.giveOperand value
  | none, false, ['-', '-'] => .ok { a with operandsOnly := true }
  | none, false, '-' :: '-' :: body => readNamed rules a body
  | none, false, '-' :: c :: rest => readLetters rules a (c :: rest)
  | none, false, value => a.giveOperand value

/-- Read all arguments. No option is left waiting, and there is an operand. -/
def parse (rules : List OptionRule) (arguments : List Text) : Except Stop (Text × Arguments) := do
  let a ← arguments.foldlM (step rules) start
  match a.operand, a.waiting with
  | some operand, none => .ok (operand, a)
  | _, _ => .error .usage

end Arguments

/-- Every value but the empty one, as for the name of a file. -/
def isPath (value : Text) : Bool :=
  !value.isEmpty

/-- One of a few words. -/
def isChoice (choices : List String) (value : Text) : Bool :=
  choices.any (·.toList = value)

end Tool

end Cvere
