import CilIsa.Coded

/-!
# Diagnostics

A diagnostic is a message with a severity. All diagnostics are printed in one format, a line that
opens with the name of the severity.
-/

namespace CilIsa

/-- How grave a diagnostic is. -/
inductive Severity where
  | note
  | warning
  | error
  deriving DecidableEq

instance : Enumeration Severity where
  members := [.note, .warning, .error]
  nodup := by decide
  complete s := by cases s <;> decide
  name
    | .note => "note"
    | .warning => "warning"
    | .error => "error"
  outsideName := ""

/-- A message with its severity. -/
structure Diagnostic where
  severity : Coded Severity
  message : String
  deriving DecidableEq

namespace Diagnostic

/-- A message of severity `error`. -/
def error (message : String) : Diagnostic := ⟨.member .error, message⟩

/-- The printed line. -/
def line (d : Diagnostic) : String := d.severity.name ++ ": " ++ d.message ++ "\n"

end Diagnostic

end CilIsa
