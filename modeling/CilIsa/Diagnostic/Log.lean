import CilIsa.Diagnostic.Basic

/-!
# A log of diagnostics

A log keeps reported diagnostics in the order of arrival and counts errors and warnings as they
come in.
-/

namespace CilIsa

/-- Reported diagnostics with running counts of the errors and of the warnings among them. -/
structure Log where
  entries : Array Diagnostic := #[]
  errors : Nat := 0
  warnings : Nat := 0

namespace Log

/-- The log with one more diagnostic. Notes, and severities outside the scale, are not counted. -/
def report (log : Log) (d : Diagnostic) : Log where
  entries := log.entries.push d
  errors := if d.severity = .member .error then log.errors + 1 else log.errors
  warnings := if d.severity = .member .warning then log.warnings + 1 else log.warnings

/-- The log of a whole sequence of reports. -/
def ofList (ds : List Diagnostic) : Log := ds.foldl report {}

/-- All lines, in the order of arrival. -/
def printed (log : Log) : String := String.join (log.entries.toList.map Diagnostic.line)

@[simp] theorem entries_report (log : Log) (d : Diagnostic) :
    (log.report d).entries = log.entries.push d := rfl

theorem errors_report (log : Log) (d : Diagnostic) :
    (log.report d).errors = log.errors + if d.severity = .member .error then 1 else 0 := by
  simp only [report]
  split <;> rfl

theorem warnings_report (log : Log) (d : Diagnostic) :
    (log.report d).warnings = log.warnings + if d.severity = .member .warning then 1 else 0 := by
  simp only [report]
  split <;> rfl

end Log

end CilIsa
