import Tonegraph.CommandLine.Arguments
/-!
# What the command line asks for

`Request.ofArguments` reads the arguments of the program as a request. The commands are

* `eval EXPR`, with `--t`;
* `info SESSION`;
* `render SESSION --wav OUT`, with `--sample-rate` and `--max-seconds`;
* `play SESSION`;
* `new OUT EXPR START END …`, at least three words behind the file.

`--verbose` and `--fade` may stand before and behind the name of a command, and what stands behind
wins.
-/

set_option autoImplicit false

namespace Tonegraph.CommandLine

/-- What is to be done. -/
inductive Command where
  | evaluate (text : String) (time : Float)
  | info (session : String)
  | render (session wav : String) (rate maxSeconds : UInt32)
  | play (session : String)
  | create (out : String) (words : List String)

/-- The version, or a command for segments with ramps of a length in seconds. -/
inductive Request where
  | version
  | command (fade : Float) (command : Command)

/-- The options that every level takes. -/
def commonOptions : List OptionForm := [.verbose, .fade]

/-- The commands by their names, with what each takes. -/
def commandLevels : List (String × Level) :=
  [("eval", ⟨.time :: commonOptions, false, [], 1, false⟩),
    ("info", ⟨commonOptions, false, [], 1, false⟩),
    ("render", ⟨[.wav, .rate, .maxSeconds] ++ commonOptions, false, [], 1, false⟩),
    ("play", ⟨commonOptions, false, [], 1, false⟩),
    ("new", ⟨commonOptions, false, [], 1, true⟩)]

/-- What comes before the name of a command. -/
def firstLevel : Level := ⟨commonOptions, true, commandLevels.map (·.1), 0, false⟩

/-- The command of a name, from its settings and words. -/
def Command.of? (name : String) (settings : Settings) (words : List String) : Option Command :=
  match name, words with
  | "eval", [text] => some (.evaluate text (settings.time.getD 0))
  | "info", [session] => do return .info (← pathOf? session)
  | "render", [session] => do
    return .render (← pathOf? session) (← settings.wav) (settings.rate.getD 44100)
      (settings.maxSeconds.getD 600)
  | "play", [session] => do return .play (← pathOf? session)
  | "new", out :: words => do
    if words.length < 3 then none else return .create (← pathOf? out) words
  | _, _ => none

/-- The length of ramps when none is given. -/
def standardFade : Float := 0.05

/-- Reads the arguments of the program. -/
def Request.ofArguments (arguments : List String) : Except UsageError Request := do
  match ← firstLevel.sort .empty arguments with
  | .version => return .version
  | .words _ _ => throw .incomplete
  | .command above name rest =>
    match commandLevels.lookup name with
    | none => throw (.unexpectedWord name)
    | some level =>
      match ← level.sort .empty rest with
      | .words own words =>
        let settings := own.orElse above
        match Command.of? name settings words with
        | some found => return .command (settings.fade.getD standardFade) found
        | none => throw .incomplete
      | _ => throw .incomplete

end Tonegraph.CommandLine
