import AdLedger.Cli.Invocation

/-!
# Guidance

What the user is told about the command line: how to use it, and why it was not carried out.
-/

namespace AdLedger.Cli

namespace Parameter

def form (p : Parameter) : String :=
  let name := match p.letter with
    | some c => s!"-{c}, --{p.name}"
    | none => s!"    --{p.name}"
  if p.takesValue then s!"{name} <{p.name.toUpper}>" else name

end Parameter

/-- The commands, the arguments and the options of a grammar, one to a line. -/
def Grammar.summary (g : Grammar) : List String :=
  let list (title : String) (lines : List String) : List String :=
    if lines.isEmpty then [] else title :: lines.map ("  " ++ ·)
  list "Commands:" (g.commands.map (·.1)) ++
    list "Arguments:" (g.arguments.map fun p => s!"<{p.name.toUpper}>") ++
    list "Options:" (g.options.map Parameter.form)

def UsageFault.message : UsageFault → String
  | helpWanted => "help was asked for"
  | versionWanted => "the version was asked for"
  | nothingGiven => "nothing was given"
  | noCommand => "no command was given"
  | unknownCommand word => s!"unrecognized command '{word}'"
  | unknownArgument word => s!"unexpected argument '{word}'"
  | valueForSwitch name => s!"--{name} takes no value"
  | noValue name => s!"a value is needed for {name}"
  | notAChoice name value => s!"'{value}' is no choice for {name}"
  | malformed name value => s!"invalid value '{value}' for {name}"
  | repeated name => s!"{name} cannot be given more than once"
  | conflicting name other => s!"--{name} cannot be given with --{other}"
  | missing name => s!"{name} has to be given"

end AdLedger.Cli
