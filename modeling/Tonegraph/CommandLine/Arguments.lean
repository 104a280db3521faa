import Tonegraph.CommandLine.Options
/-!
# Sorting arguments into options and words

The command line has two levels: options and the name of a command, then options and words of that
command. `Level.sort` goes over the arguments of one level from left to right. The first thing
wrong ends it, and so does asking for the version.

An argument that begins with a dash is an option. It is a value instead

* when it follows an option whose value may begin with a dash;
* when it would be one of the last, many words of a level, and is no option of the level;
* when one of the many words stands before it;
* when `--` stands before it, which ends the options.

A single dash is always a word.
-/

set_option autoImplicit false

namespace Tonegraph.CommandLine

/-- Why arguments are not understood. -/
inductive UsageError where
  | unknownOption (argument : String)
  | badValue (option value : String)
  | valueMissing (option : String)
  | valueUnwanted (option : String)
  | repeated (option : String)
  | unexpectedWord (word : String)
  | incomplete
deriving DecidableEq, Repr

/-- What a usage error says. -/
def UsageError.message : UsageError → String
  | .unknownOption argument => "error: unknown option '" ++ argument ++ "'"
  | .badValue option value => "error: bad value '" ++ value ++ "' for '--" ++ option ++ "'"
  | .valueMissing option => "error: a value is missing for '--" ++ option ++ "'"
  | .valueUnwanted option => "error: no value is wanted for '--" ++ option ++ "'"
  | .repeated option => "error: '--" ++ option ++ "' is given twice"
  | .unexpectedWord word => "error: unexpected argument '" ++ word ++ "'"
  | .incomplete => "error: arguments are missing"

/-- What one level of the command line takes. -/
structure Level where
  options : List OptionForm
  /-- Whether it can be asked for the version. -/
  hasVersion : Bool
  /-- The names at which the next level begins. -/
  commands : List String
  /-- How many words it takes, each for itself. -/
  singleWords : Nat
  /-- Whether any number of words may follow those. -/
  manyWords : Bool

/-- How far sorting has come. -/
structure Sorted where
  settings : Settings
  words : List String
  /-- The option whose value comes next. -/
  awaiting : Option OptionForm
  /-- Whether the options are ended. -/
  optionsEnded : Bool

/-- What the arguments of a level come to. -/
inductive Outcome where
  | version
  | command (settings : Settings) (name : String) (arguments : List String)
  | words (settings : Settings) (words : List String)

/-- An argument by its dashes. The text behind an equals sign is apart. -/
inductive Dashes where
  | plain
  | endOfOptions
  | named (name : String) (value : Option String)
  | letters (letters : List Char)

/-- Looks at the dashes of an argument. -/
def Dashes.of (argument : String) : Dashes :=
  match argument.toList with
  | ['-', '-'] => .endOfOptions
  | '-' :: '-' :: rest =>
    let (name, value) := rest.span (· ≠ '=')
    .named (String.ofList name) (if value.isEmpty then none else some (String.ofList value.tail))
  | '-' :: c :: rest => .letters (c :: rest)
  | _ => .plain

namespace Sorted

/-- Nothing sorted yet. -/
def empty : Sorted := ⟨.none, [], none, false⟩

/-- Gives an option. -/
def give (s : Sorted) (option : OptionForm) (value : String) : Except UsageError Sorted :=
  if option.isGiven s.settings then .error (.repeated option.name)
  else
    match option.give value s.settings with
    | some settings => .ok { s with settings, awaiting := none }
    | none => .error (.badValue option.name value)

/-- Refuses while an option has no value yet. -/
def ensureNotAwaiting (s : Sorted) : Except UsageError Unit :=
  match s.awaiting with
  | some option => .error (.valueMissing option.name)
  | none => .ok ()

end Sorted

namespace Level

variable (level : Level)

/-- Whether the next word is one of many. -/
def atManyWords (s : Sorted) : Bool := level.manyWords && level.singleWords ≤ s.words.length

/-- Whether the last word was one of many. -/
def withinManyWords (s : Sorted) : Bool := level.manyWords && level.singleWords < s.words.length

/-- Takes an argument as a word. -/
def word (s : Sorted) (argument : String) : Except UsageError Sorted := do
  s.ensureNotAwaiting
  if s.words.length < level.singleWords || level.manyWords then
    return { s with words := s.words ++ [argument] }
  else throw (.unexpectedWord argument)

/-- Takes an argument as the value that an option waits for, or else as a word. -/
def value (s : Sorted) (argument : String) : Except UsageError Sorted :=
  match s.awaiting with
  | some option => s.give option argument
  | none => level.word s argument

/-- The option that a letter stands for. -/
def letterOption? (c : Char) : Option OptionForm := level.options.find? (·.letter = some c)

/-- Whether a letter means something on this level. -/
def knowsLetter (c : Char) : Bool :=
  (level.letterOption? c).isSome || (level.hasVersion && c == 'V')

/-- Takes letters one after the other; without a result the version is asked for. -/
def letters (argument : String) : Sorted → List Char → Except UsageError (Option Sorted)
  | s, [] => .ok (some s)
  | s, c :: rest => do
    if level.knowsLetter c then s.ensureNotAwaiting
    match level.letterOption? c with
    | some option => letters argument (← s.give option "") rest
    | none =>
      if level.knowsLetter c then return none else throw (.unknownOption argument)

/-- Takes an option by its name; without a result the version is asked for. -/
def named (s : Sorted) (argument name : String) (given : Option String) :
    Except UsageError (Option Sorted) := do
  match level.options.find? (·.name = name) with
  | some option =>
    s.ensureNotAwaiting
    match option.value, given with
    | .absent, some _ => throw (.valueUnwanted name)
    | .absent, none => s.give option ""
    | _, some value => s.give option value
    | _, none => return some { s with awaiting := some option }
  | none =>
    if level.hasVersion && name == "version" then
      s.ensureNotAwaiting
      if given.isSome then throw (.valueUnwanted name) else return none
    else if level.atManyWords s then level.value s argument
    else throw (.unknownOption argument)

/-- Takes an argument by its dashes; without a result the version is asked for. -/
def take (s : Sorted) (argument : String) : Except UsageError (Option Sorted) :=
  let takesDashes := level.withinManyWords s || s.awaiting.any (·.value = .dashed)
  if s.optionsEnded then level.word s argument
  else if takesDashes then level.value s argument
  else
    match Dashes.of argument with
    | .plain => level.value s argument
    | .endOfOptions => .ok (some { s with optionsEnded := true })
    | .named name given => level.named s argument name given
    | .letters letters =>
      if level.atManyWords s && !letters.all level.knowsLetter then level.value s argument
      else level.letters argument s letters

/-- Whether an argument begins the next level. -/
def beginsCommand (s : Sorted) (argument : String) : Bool :=
  !s.optionsEnded && s.awaiting.isNone && !level.withinManyWords s &&
    level.commands.contains argument

/-- Sorts the arguments of a level. -/
def sort : Sorted → List String → Except UsageError Outcome
  | s, [] => do
    s.ensureNotAwaiting
    return .words s.settings s.words
  | s, argument :: rest => do
    if level.beginsCommand s argument then return .command s.settings argument rest
    else
      match ← level.take s argument with
      | some s => sort s rest
      | none => return .version

end Level

end Tonegraph.CommandLine
