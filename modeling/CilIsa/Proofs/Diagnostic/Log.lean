import Mathlib.Data.List.Induction
import CilIsa.Diagnostic.Log

/-!
# What a log keeps

A log keeps the sequence of reports it was made of: all of them in order, and the right counts of
the errors and the warnings among them (`Log.Keeps`). The counts are kept apart from the entries, so
that the two could disagree; one more report leaves them in agreement (`Log.Keeps.report`), hence
any number of reports does (`Log.Keeps.foldl`). So it is after every report of a sequence
(`Log.history_exact`). The lines are read off the entries and come in the order of the reports.
-/

namespace CilIsa

/-- The word that the lines of a severity open with, by the number of the severity. There is none
for numbers outside the scale. -/
def Severity.word : Int → String
  | 0 => "note"
  | 1 => "warning"
  | 2 => "error"
  | _ => ""

theorem Severity.name_eq_word (s : Coded Severity) : s.name = word s.code := by
  cases s with
  | member s => cases s <;> decide
  | outside n unlisted =>
    rw [Coded.code, word]
    · rfl
    -- What is left is that the numbers of the scale are listed.
    all_goals
      rintro rfl
      exact absurd unlisted (by decide)

namespace Diagnostic

theorem line_eq (d : Diagnostic) :
    d.line = Severity.word d.severity.code ++ ": " ++ d.message ++ "\n" := by
  rw [line, Severity.name_eq_word]

/-- The diagnostic is one of those that a log counts. -/
def IsCounted (d : Diagnostic) : Prop :=
  d.severity = .member .error ∨ d.severity = .member .warning

instance : DecidablePred IsCounted := fun _ => inferInstanceAs (Decidable (_ ∨ _))

/-- No diagnostic is counted twice. -/
theorem countP_isCounted (ds : List Diagnostic) :
    ds.countP (fun d => d.IsCounted) =
      ds.countP (·.severity = .member .error) + ds.countP (·.severity = .member .warning) := by
  induction ds with
  | nil => rfl
  | cons d ds ih =>
    rw [List.countP_cons, List.countP_cons, List.countP_cons, ih]
    by_cases herror : d.severity = .member .error
    · simp [IsCounted, herror, Nat.add_right_comm]
    · simp [IsCounted, herror, Nat.add_assoc]

end Diagnostic

namespace Log

/-- The log keeps these reports: all of them in order, and the counts of the errors and the warnings
among them. -/
structure Keeps (log : Log) (ds : List Diagnostic) : Prop where
  entries : log.entries.toList = ds
  errors : log.errors = ds.countP (·.severity = .member .error)
  warnings : log.warnings = ds.countP (·.severity = .member .warning)

variable {log : Log} {ds : List Diagnostic}

theorem Keeps.report (h : log.Keeps ds) (d : Diagnostic) : (log.report d).Keeps (ds ++ [d]) where
  entries := by rw [entries_report, Array.toList_push, h.entries]
  errors := by
    rw [errors_report, h.errors, List.countP_append, List.countP_singleton]
    simp only [decide_eq_true_eq]
  warnings := by
    rw [warnings_report, h.warnings, List.countP_append, List.countP_singleton]
    simp only [decide_eq_true_eq]

theorem Keeps.foldl (h : log.Keeps ds) (more : List Diagnostic) :
    (more.foldl Log.report log).Keeps (ds ++ more) := by
  -- The rest of the reports is added to another log, which keeps one report more.
  induction more generalizing log ds with
  | nil => rwa [List.append_nil]
  | cons d more ih =>
    have hmore := ih (h.report d)
    rwa [List.append_assoc] at hmore

theorem keeps_ofList (ds : List Diagnostic) : (ofList ds).Keeps ds :=
  Keeps.foldl ⟨rfl, rfl, rfl⟩ ds

/-! ### Counts and entries -/

theorem Keeps.size_entries (h : log.Keeps ds) : log.entries.size = ds.length := by
  rw [← h.entries, Array.length_toList]

theorem Keeps.errors_add_warnings (h : log.Keeps ds) :
    log.errors + log.warnings = ds.countP fun d => d.IsCounted := by
  rw [h.errors, h.warnings, Diagnostic.countP_isCounted]

theorem Keeps.counts_le (h : log.Keeps ds) : log.errors + log.warnings ≤ log.entries.size := by
  rw [h.errors_add_warnings, h.size_entries]
  exact List.countP_le_length

/-- The counts add up to all entries when only errors and warnings were reported. -/
theorem Keeps.counts_eq_iff (h : log.Keeps ds) :
    log.errors + log.warnings = log.entries.size ↔ ∀ d ∈ ds, d.IsCounted := by
  rw [h.errors_add_warnings, h.size_entries, List.countP_eq_length]
  simp

theorem errors_ofList (ds : List Diagnostic) :
    (ofList ds).errors = ds.countP (·.severity = .member .error) := (keeps_ofList ds).errors

/-! ### Lines -/

/-- What is printed is what was reported, line by line. -/
theorem printed_ofList (ds : List Diagnostic) :
    (ofList ds).printed = String.join (ds.map Diagnostic.line) := by
  rw [printed, (keeps_ofList ds).entries]

/-- The lines of later reports come after those of the earlier ones. -/
theorem printed_ofList_append (front back : List Diagnostic) :
    (ofList (front ++ back)).printed = (ofList front).printed ++ (ofList back).printed := by
  rw [printed_ofList, printed_ofList, printed_ofList, List.map_append, String.join_append]

/-! ### Every point of a sequence of reports -/

/-- The logs that a sequence of reports makes: the empty one, and one more after each report. -/
def history (ds : List Diagnostic) : List Log := ds.scanl report {}

/-- After the first reports the log is that of these reports, whatever is reported later. -/
theorem getElem?_history_append (front back : List Diagnostic) :
    (history (front ++ back))[front.length]? = some (ofList front) := by
  have hlength : front.length ≤ (front ++ back).length := (List.prefix_append front back).length_le
  rw [history, List.getElem?_scanl, if_pos hlength, List.take_left, ofList]

/-- **What a log keeps.** Wherever a sequence of reports is cut, the log at that point has the
reports up to it as its entries, in order, and counts the errors and the warnings among them. No
entry is counted twice, and all are counted exactly when nothing else was reported. What is printed
of the whole sequence is what is printed of the part before the cut and then what is printed of the
part behind it; every report gives one line, which opens with the word of its severity. -/
theorem history_exact (front back : List Diagnostic) :
    ∃ log, (history (front ++ back))[front.length]? = some log ∧
      log.entries.toList = front ∧
      log.errors = front.countP (·.severity = .member .error) ∧
      log.warnings = front.countP (·.severity = .member .warning) ∧
      log.errors + log.warnings ≤ log.entries.size ∧
      (log.errors + log.warnings = log.entries.size ↔
        ∀ d ∈ front, d.severity = .member .error ∨ d.severity = .member .warning) ∧
      log.printed = String.join (front.map fun d =>
        Severity.word d.severity.code ++ ": " ++ d.message ++ "\n") ∧
      (ofList (front ++ back)).printed = log.printed ++ (ofList back).printed := by
  have hkeeps := keeps_ofList front
  refine ⟨ofList front, getElem?_history_append front back, hkeeps.entries, hkeeps.errors,
    hkeeps.warnings, hkeeps.counts_le, hkeeps.counts_eq_iff, ?_, printed_ofList_append front back⟩
  rw [printed_ofList, funext Diagnostic.line_eq]

/-- Notes and severities outside the scale are kept and printed, but not counted. -/
example :
    let log := ofList [.error "a", ⟨.member .note, "b"⟩, ⟨.ofCode 7, "c"⟩, ⟨.member .warning, "d"⟩]
    log.printed = "error: a\nnote: b\n: c\nwarning: d\n" ∧ log.errors = 1 ∧ log.warnings = 1 := by
  decide

end Log

end CilIsa
