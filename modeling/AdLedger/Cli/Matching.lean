import AdLedger.Cli.Grammar

/-!
# Reading command lines

A command line is read word by word. A value that follows its option is not looked at until the next
option or argument begins, or the line ends; so of two faults the one found first by the words wins.
What follows a command is read by the command's own grammar, and what is given nearer to the end of
the line takes precedence.
-/

namespace AdLedger.Cli

/-- What a command line gives: the command, and for parameters values by name, the most telling
first; apart from those the values that variables give. -/
structure Match where
  commands : List String
  given : List (String × Given)
  environment : List (String × Given)

namespace Match

def get? (m : Match) (name : String) : Option Given :=
  m.given.lookup name <|> m.environment.lookup name

def has (m : Match) (name : String) : Bool := (m.get? name).isSome

def text? (m : Match) (name : String) : Option String :=
  match m.get? name with
  | some (.text s) => some s
  | _ => none

def number? (m : Match) (name : String) : Option Nat :=
  match m.get? name with
  | some (.number n) => some n
  | _ => none

def instant? (m : Match) (name : String) : Option Time.Instant :=
  match m.get? name with
  | some (.instant t) => some t
  | _ => none

end Match

/-- How far the words for one grammar have been read. -/
structure Progress where
  given : List (String × Given)
  /-- The parameter whose value has not been looked at yet, or has not even come. -/
  pending : Option (Parameter × Option String)
  /-- How many arguments have come. -/
  arguments : Nat
  /-- Whether all further words are arguments. -/
  literal : Bool

namespace Progress

def start : Progress := ⟨[], none, 0, false⟩

def has (p : Progress) (name : String) : Bool := (p.given.lookup name).isSome

/-- Whether the next word may be a command. -/
def seeksCommand (p : Progress) : Bool :=
  match p.literal, p.pending with
  | true, _ => false
  | false, some (_, none) => false
  | false, _ => true

/-- Notes what is given for a parameter. -/
def note (p : Progress) (name : String) (value : Given) : Progress :=
  { p with given := p.given ++ [(name, value)] }

/-- Takes the value of a parameter that has not been given yet. -/
def take (p : Progress) (param : Parameter) (value : String) : Except UsageFault Progress := do
  if p.has param.name then throw (.repeated param.name)
  return p.note param.name (← param.read value)

/-- Looks at the value that has been left for later. -/
def settle (p : Progress) : Except UsageFault Progress :=
  match p.pending with
  | none => .ok p
  | some (param, none) => .error (.noValue param.name)
  | some (param, some value) => { p with pending := none }.take param value

/-- An option by itself. Its value, if it takes one, is the next word. -/
def beginOption (p : Progress) (param : Parameter) : Except UsageFault Progress := do
  let p ← p.settle
  match param.mode with
  | .switch => if p.has param.name then throw (.repeated param.name) else
    return p.note param.name .present
  | .counter => return p.note param.name .present
  | .help => throw .helpWanted
  | .version => throw .versionWanted
  | .valued _ => return { p with pending := some (param, none) }

/-- An option with its value in the same word. -/
def joinedOption (p : Progress) (param : Parameter) (value : String) :
    Except UsageFault Progress := do
  if param.takesValue then (← p.settle).take param value else throw (.valueForSwitch param.name)

/-- Letters that stand for options. The first that takes a value has the rest of the word for it,
with or without a `=`, or the next word if there is no rest. -/
def letters (g : Grammar) (p : Progress) : List Char → Except UsageFault Progress
  | [] => .ok p
  | c :: rest =>
    match g.letter? c with
    | none => .error (.unknownArgument (String.ofList ['-', c]))
    | some param =>
      if param.takesValue then
        match rest with
        | [] => p.beginOption param
        | '=' :: value => p.joinedOption param (String.ofList value)
        | value => p.joinedOption param (String.ofList value)
      else do letters g (← p.beginOption param) rest

/-- An option by its long name, perhaps with `=` and a value. -/
def long (g : Grammar) (p : Progress) (word : List Char) : Except UsageFault Progress :=
  let name := String.ofList (word.takeWhile (· ≠ '='))
  match g.long? name, word.dropWhile (· ≠ '=') with
  | none, _ => .error (.unknownArgument ("--" ++ name))
  | some param, [] => p.beginOption param
  | some param, _ :: value => p.joinedOption param (String.ofList value)

/-- A word that is no option: the value of the option before it, else the next argument. -/
def plain (g : Grammar) (p : Progress) (word : String) : Except UsageFault Progress :=
  match p.literal, p.pending with
  | false, some (param, none) => .ok { p with pending := some (param, some word) }
  | _, _ =>
    match g.arguments[p.arguments]? with
    | some param => do
      let p ← p.settle
      return { p with pending := some (param, some word), arguments := p.arguments + 1 }
    | none =>
      if !g.needsCommand || p.literal && g.hasCommand word then .error (.unknownArgument word)
      else .error (.unknownCommand word)

def word (g : Grammar) (p : Progress) (w : String) : Except UsageFault Progress :=
  if p.literal then p.plain g w
  else match w.toList with
    | ['-', '-'] => .ok { p with literal := true }
    | '-' :: '-' :: rest => p.long g rest
    | '-' :: c :: rest => p.letters g (c :: rest)
    | _ => p.plain g w

/-- What variables give for options that the words do not give. -/
def fromEnvironment (env : Environment) (g : Grammar) (p : Progress) :
    Except UsageFault (List (String × Given)) := do
  let found ← g.options.mapM fun param =>
    match param.source.bind fun var => env.lookup var with
    | some value =>
      if p.has param.name then pure [] else return [(param.name, ← param.read value)]
    | none => pure []
  return found.flatten

/-- The end of the words, perhaps after a command that has been read. -/
def finish (env : Environment) (g : Grammar) (p : Progress) (command : Option (String × Match)) :
    Except UsageFault Match := do
  let p ← p.settle
  let environment ← p.fromEnvironment env g
  match command with
  | some (name, inner) =>
    return ⟨name :: inner.commands, inner.given ++ p.given, inner.environment ++ environment⟩
  | none =>
    if g.needsCommand then throw (if p.given.isEmpty then .nothingGiven else .noCommand)
    if let some (a, b) := g.conflicts.find? fun (a, b) => p.has a && p.has b then
      throw (.conflicting a b)
    if let some param := g.needs.find? fun param => !p.has param.name then
      throw (.missing param.name)
    return ⟨[], p.given, environment⟩

end Progress

/-- Reads the words for a grammar, from some progress on. -/
def Grammar.readFrom (env : Environment) (g : Grammar) (p : Progress) :
    List String → Except UsageFault Match
  | [] => p.finish env g none
  | w :: rest =>
    if p.seeksCommand && g.hasCommand w then
      match g.commands.lookup w with
      | some command => do
        let inner ← command.readFrom env .start rest
        p.finish env g (some (w, inner))
      | none => .error (g.help rest)
    else do g.readFrom env (← p.word g w) rest

def Grammar.read (g : Grammar) (env : Environment) (words : List String) :
    Except UsageFault Match :=
  g.readFrom env .start words

end AdLedger.Cli
