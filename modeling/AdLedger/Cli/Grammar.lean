import AdLedger.Settings.Location
import AdLedger.Text.Digits
import AdLedger.Time.Reader

/-!
# Command line grammars

What a command line may say: options, arguments, and commands with grammars of their own. An option
is given by its long name or its letter, and may take its value from an environment variable; an
argument is given by its place.
-/

namespace AdLedger.Cli

open Time (Instant)

/-- Why a command line is not carried out. -/
inductive UsageFault where
  | helpWanted
  | versionWanted
  /-- Nothing was given where a command is needed. -/
  | nothingGiven
  /-- Something was given, but no command. -/
  | noCommand
  | unknownCommand (word : String)
  | unknownArgument (word : String)
  | valueForSwitch (name : String)
  | noValue (name : String)
  /-- A value that is none of those to choose from. -/
  | notAChoice (name value : String)
  | malformed (name value : String)
  | repeated (name : String)
  | conflicting (name other : String)
  | missing (name : String)
  deriving DecidableEq

/-- What a command line gives for a parameter. -/
inductive Given where
  | present
  | text (s : String)
  | number (n : Nat)
  | instant (t : Instant)
  deriving DecidableEq

/-- What a value has to look like. -/
inductive Shape where
  | text
  | path
  /-- A number of at most this many bits, perhaps with a sign. -/
  | count (bits : Nat)
  /-- A number of at most this many bits, perhaps with a plus sign. -/
  | size (bits : Nat)
  | instant
  | choice (words : List String)

/-- How a parameter is given. -/
inductive Mode where
  | switch
  /-- Without a value, any number of times. -/
  | counter
  /-- Without a value, to ask for help. -/
  | help
  /-- Without a value, to ask for the version. -/
  | version
  | valued (shape : Shape)

/-- An option or an argument. -/
structure Parameter where
  name : String
  letter : Option Char
  mode : Mode
  required : Bool
  /-- The environment variable that gives the value if the command line does not. -/
  source : Option String

/-- What a command line, or the part of it that follows a command, may say. Two parameters that
conflict may not both be given. -/
structure Grammar where
  options : List Parameter
  arguments : List Parameter
  conflicts : List (String × String)
  commands : List (String × Grammar)

namespace Shape

/-- The number that a run of digits denotes, if it has at most this many bits. -/
def bounded? (bits : Nat) (digits : List Char) : Option Nat :=
  (Text.natural? digits).filter (· < Nat.pow 2 bits)

/-- A number with or without a sign; after a minus only 0 is one that is not below zero. -/
def count? (bits : Nat) : List Char → Option Nat
  | '+' :: digits => bounded? bits digits
  | '-' :: digits => (bounded? bits digits).filter (· = 0)
  | digits => bounded? bits digits

def size? (bits : Nat) : List Char → Option Nat
  | '+' :: digits => bounded? bits digits
  | digits => bounded? bits digits

end Shape

def orElse {α : Type} (fault : UsageFault) : Option α → Except UsageFault α
  | some a => .ok a
  | none => .error fault

/-- A value of this shape for the parameter of this name. -/
def Shape.read (name value : String) : Shape → Except UsageFault Given
  | text => .ok (.text value)
  | path => if value = "" then .error (.noValue name) else .ok (.text value)
  | count bits => orElse (.malformed name value) ((count? bits value.toList).map .number)
  | size bits => orElse (.malformed name value) ((size? bits value.toList).map .number)
  | instant => orElse (.malformed name value) ((Instant.read? value).map .instant)
  | choice words =>
    if words.contains value then .ok (.text value) else .error (.notAChoice name value)

namespace Parameter

def takesValue (p : Parameter) : Bool :=
  match p.mode with
  | .valued _ => true
  | _ => false

def read (p : Parameter) (value : String) : Except UsageFault Given :=
  match p.mode with
  | .valued shape => shape.read p.name value
  | _ => .error (.valueForSwitch p.name)

def switch (name : String) : Parameter := ⟨name, none, .switch, false, none⟩

def option (name : String) (shape : Shape) : Parameter := ⟨name, none, .valued shape, false, none⟩

def needed (name : String) (shape : Shape) : Parameter := ⟨name, none, .valued shape, true, none⟩

/-- An option with a path that a variable may give as well. -/
def location (name var : String) : Parameter := ⟨name, none, .valued .path, false, some var⟩

def lettered (p : Parameter) (c : Char) : Parameter := { p with letter := some c }

end Parameter

namespace Grammar

def long? (g : Grammar) (name : String) : Option Parameter := g.options.find? (·.name = name)

def letter? (g : Grammar) (c : Char) : Option Parameter := g.options.find? (·.letter = some c)

def needsCommand (g : Grammar) : Bool := !g.commands.isEmpty

def helpCommand : String := "help"

def hasCommand (g : Grammar) (word : String) : Bool :=
  g.needsCommand && (word = helpCommand || (g.commands.lookup word).isSome)

/-- The answer to a call for help on a command, given by the words that lead to it. -/
def help (g : Grammar) : List String → UsageFault
  | [] => .helpWanted
  | word :: rest =>
    match g.commands.lookup word with
    | some command => command.help rest
    | none =>
      if g.hasCommand word then
        match rest with
        | [] => .helpWanted
        | next :: _ => .unknownCommand next
      else .unknownCommand word

def needs (g : Grammar) : List Parameter := (g.arguments ++ g.options).filter (·.required)

end Grammar
end AdLedger.Cli
