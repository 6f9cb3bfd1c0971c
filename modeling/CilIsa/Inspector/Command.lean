import CilIsa.Diagnostic.Log
import CilIsa.Inspector.Line
import CilIsa.Table.Spelling
import CilIsa.Tracing

/-!
# The inspector

The inspector is a command that describes the opcodes named by its arguments. Arguments that begin
with two hyphens are options and may stand anywhere; all others, also empty ones, are names. Names
that are not found are reported after all descriptions.
-/

namespace CilIsa.Inspector

/-- What the options of a run decide. -/
structure Settings where
  /-- Tracing is turned on. -/
  trace : Bool
  /-- Effects are those in a method that returns a value. -/
  returns : Bool := false
  deriving DecidableEq

/-- The settings before any option is read: tracing stays as it is. -/
def Settings.initial (tracing : Bool) : Settings := { trace := tracing }

/-- What the arguments ask for. -/
inductive Invocation where
  | version
  | unknownOption (arg : String)
  | inspect (settings : Settings) (names : List String)
  deriving DecidableEq

namespace Invocation

/-- The request with a name before the others. -/
def addName (name : String) : Invocation → Invocation
  | inspect settings names => inspect settings (name :: names)
  | other => other

/-- Reads the arguments in order. The first that asks for the version, or is an unknown option,
decides alone; an option holds also for the names before it. -/
def parse (settings : Settings) : List String → Invocation
  | [] => inspect settings []
  | arg :: rest =>
    if arg = "--version" then version
    else if arg = "--trace" then parse { settings with trace := true } rest
    else if arg = "--has-return" then parse { settings with returns := true } rest
    else if ['-', '-'].isPrefixOf arg.toList then unknownOption arg
    else (parse settings rest).addName arg

end Invocation

/-- The answer to a request for the version. -/
def versionText : String := "cil-opinfo ECMA-335 6th edition\n"

/-- How the command is used. -/
def usageText : String :=
  "Usage: cil-opinfo [--trace] [--has-return] [--version] <mnemonic|0xNN|0xFENN>...\n"

/-- The descriptions so far, and the names that were not found. -/
structure Report where
  out : String := ""
  log : Log := {}

/-- The report with one more name answered. -/
def Report.answer (returns : Bool) (r : Report) (name : String) : Traced Report :=
  match Table.standard.lookup? name with
  | some op => do
    Traced.emit "opinfo" ("describing '" ++ op.mnemonic ++ "'")
    let line ← op.describe returns
    pure { r with out := r.out ++ line }
  | none => pure { r with log := r.log.report (.error ("unknown opcode '" ++ name ++ "'")) }

/-- The report on all names, in order. -/
def inspectAll (returns : Bool) (names : List String) : Traced Report :=
  names.foldlM (Report.answer returns) {}

/-- What a run leaves behind: its exit code, what it prints, what it traces, and whether tracing is
on afterwards. -/
structure Outcome where
  exit : UInt32
  out : String := ""
  err : String := ""
  trace : String := ""
  tracing : Bool
  deriving DecidableEq

/-- Runs the command. Tracing changes only when there are names to inspect. -/
def run (tracing : Bool) (args : List String) : Outcome :=
  match Invocation.parse (.initial tracing) args with
  | .version => { exit := 0, out := versionText, tracing }
  | .unknownOption arg =>
    { exit := 1, err := "unknown option '" ++ arg ++ "'\n" ++ usageText, tracing }
  | .inspect _ [] => { exit := 1, err := usageText, tracing }
  | .inspect settings names =>
    let report := inspectAll settings.returns names
    { exit := if report.value.log.errors = 0 then 0 else 1
      out := report.value.out
      err := report.value.log.printed
      trace := traceText settings.trace report.lines
      tracing := settings.trace }

/-- Runs the command again and again, each time with tracing as the run before left it. -/
def runAll (tracing : Bool) : List (List String) → List Outcome
  | [] => []
  | args :: rest =>
    let outcome := run tracing args
    outcome :: runAll outcome.tracing rest

end CilIsa.Inspector
