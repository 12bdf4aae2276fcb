import AdLedger.Cli.Command

/-!
# Runs

A run of the program as a function: from its words, its surroundings and the files to what it
writes, its exit code and the files afterwards.
-/

namespace AdLedger.Cli

open Store (Work)

/-- What a run writes, and the exit code. -/
structure Outcome where
  exitCode : Nat
  output : String
  errors : String
  deriving DecidableEq

/-- The exit code for a command line that is not carried out: 0 where it asks for help or the
version. -/
def UsageFault.exitCode : UsageFault → Nat
  | helpWanted | versionWanted => 0
  | _ => 2

namespace Invocation

/-- Whether answers are documents: if the user asks for it, and where they do not go to a
terminal. -/
def answersInJson (i : Invocation) (around : Surroundings) : Bool := i.json || !around.terminal

def complaint (i : Invocation) (around : Surroundings) (failure : Failure) : String :=
  if i.answersInJson around then Report.joined [failure.toJson.line]
  else if i.quiet then ""
  else Report.joined (s!"Error: {failure.message}" :: failure.hint.toList.map ("  Hint: " ++ ·))

/-- What a run comes to. -/
def outcome (i : Invocation) (around : Surroundings) : Except Failure Report → Outcome
  | .ok report =>
    let styled := Style.wanted around.environment i.plain around.terminal
    ⟨0, report.render (i.answersInJson around) styled, ""⟩
  | .error failure => ⟨failure.kind.exitCode, "", i.complaint around failure⟩

end Invocation

def run (around : Surroundings) (words : List String) (fs : Files) :
    Except UsageFault Outcome × Files :=
  match Invocation.read around.environment words with
  | .error fault => (.error fault, fs)
  | .ok i =>
    let (result, after) := (i.perform around).run.run fs
    (.ok (i.outcome around result), after)

end AdLedger.Cli
