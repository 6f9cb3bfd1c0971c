import CilIsa.Inspector.Command
import CilIsa.Proofs.Diagnostic.Log

/-!
# What a run of the inspector prints

The inspector reads its arguments one by one, and later answers the names one by one. What comes of
it can be said without any order of work (`Inspector.expected`): the first argument that decides
alone does so; else the names that are found are described, the others are reported, and of the
options it only matters whether they are there.

Reading the arguments is compared with a search through them (`Invocation.parse_of_decides`,
`Invocation.parse_of_not_decides`), the answers with two selections from the names
(`Inspector.inspectAll_eq`).
-/

namespace CilIsa.Inspector

/-! ### Arguments -/

/-- The argument is one of the options. -/
def IsOption (arg : String) : Prop := arg = "--version" ∨ arg = "--trace" ∨ arg = "--has-return"

/-- The argument begins with two hyphens and is no option. -/
def IsUnknownOption (arg : String) : Prop := ['-', '-'] <+: arg.toList ∧ ¬IsOption arg

/-- All other arguments are names. -/
def IsName (arg : String) : Prop := ¬IsOption arg ∧ ¬IsUnknownOption arg

/-- The argument decides alone what the run does, when it is the first such argument. -/
def Decides (arg : String) : Prop := arg = "--version" ∨ IsUnknownOption arg

instance : DecidablePred IsOption := fun _ => inferInstanceAs (Decidable (_ ∨ _ ∨ _))

instance : DecidablePred IsUnknownOption := fun _ => inferInstanceAs (Decidable (_ ∧ ¬_))

instance : DecidablePred IsName := fun _ => inferInstanceAs (Decidable (¬_ ∧ ¬_))

instance : DecidablePred Decides := fun _ => inferInstanceAs (Decidable (_ ∨ _))

/-- The names among the arguments. -/
def namesOf (args : List String) : List String := args.filter fun arg => IsName arg

/-- The arguments ask for opcodes: there is a name, and nothing that decides alone. -/
def Inspects (args : List String) : Prop :=
  (∃ arg ∈ args, IsName arg) ∧ ∀ arg ∈ args, ¬Decides arg

instance : DecidablePred Inspects := fun args =>
  inferInstanceAs (Decidable ((∃ arg ∈ args, _) ∧ ∀ arg ∈ args, _))

theorem namesOf_ne_nil_iff {args : List String} : namesOf args ≠ [] ↔ ∃ arg ∈ args, IsName arg := by
  simp [namesOf]

theorem argument_cases (arg : String) :
    Decides arg ∨ arg = "--trace" ∨ arg = "--has-return" ∨ IsName arg := by
  unfold Decides IsName IsUnknownOption IsOption
  tauto

theorem not_decides_of_isName {arg : String} (h : IsName arg) : ¬Decides arg := by
  rintro (rfl | hunknown)
  · exact h.1 (Or.inl rfl)
  · exact h.2 hunknown

namespace Invocation

variable (settings : Settings) {arg : String} (rest : List String)

theorem parse_version : parse settings ("--version" :: rest) = version := if_pos rfl

theorem parse_trace : parse settings ("--trace" :: rest) =
    parse { settings with trace := true } rest := rfl

theorem parse_hasReturn : parse settings ("--has-return" :: rest) =
    parse { settings with returns := true } rest := rfl

theorem parse_unknownOption (h : IsUnknownOption arg) :
    parse settings (arg :: rest) = unknownOption arg := by
  obtain ⟨hhyphens, hoption⟩ := h
  simp only [IsOption, not_or] at hoption
  rw [parse, if_neg hoption.1, if_neg hoption.2.1, if_neg hoption.2.2,
    if_pos (List.isPrefixOf_iff_prefix.mpr hhyphens)]

theorem parse_name (h : IsName arg) :
    parse settings (arg :: rest) = (parse settings rest).addName arg := by
  obtain ⟨hoption, hunknown⟩ := h
  have hhyphens : ¬['-', '-'] <+: arg.toList := fun hh => hunknown ⟨hh, hoption⟩
  simp only [IsOption, not_or] at hoption
  rw [parse, if_neg hoption.1, if_neg hoption.2.1, if_neg hoption.2.2,
    if_neg (mt List.isPrefixOf_iff_prefix.mp hhyphens)]

/-- The first argument that decides alone is what is asked for. -/
theorem parse_of_decides {args : List String}
    (h : args.find? (fun arg => Decides arg) = some arg) :
    parse settings args = if arg = "--version" then version else unknownOption arg := by
  -- Options before it change the settings, and names before it are dropped.
  induction args generalizing settings with
  | nil => simp at h
  | cons first rest ih =>
    rcases argument_cases first with hdecides | hother
    · rw [List.find?_cons_of_pos (by simpa using hdecides), Option.some.injEq] at h
      subst h
      rcases hdecides with rfl | hunknown
      · rw [parse_version, if_pos rfl]
      · have hversion : first ≠ "--version" := fun hv => hunknown.2 (Or.inl hv)
        rw [parse_unknownOption settings rest hunknown, if_neg hversion]
    · have hnot : ¬Decides first := by
        rcases hother with rfl | rfl | hname
        · decide
        · decide
        · exact not_decides_of_isName hname
      rw [List.find?_cons_of_neg (by simpa using hnot)] at h
      rcases hother with rfl | rfl | hname
      · rw [parse_trace, ih _ h]
      · rw [parse_hasReturn, ih _ h]
      · rw [parse_name settings rest hname, ih _ h]
        split <;> rfl

/-- Where no argument decides alone, it only matters which options and which names there are. -/
theorem parse_of_not_decides {args : List String} (h : ∀ arg ∈ args, ¬Decides arg) :
    parse settings args = inspect
      { trace := settings.trace || decide ("--trace" ∈ args)
        returns := settings.returns || decide ("--has-return" ∈ args) } (namesOf args) := by
  induction args generalizing settings with
  | nil => simp [parse, namesOf]
  | cons first rest ih =>
    have hrest : ∀ arg ∈ rest, ¬Decides arg := fun arg harg =>
      h arg (List.mem_cons_of_mem first harg)
    rcases (argument_cases first).resolve_left (h first List.mem_cons_self) with rfl | rfl | hname
    · have hnames : namesOf ("--trace" :: rest) = namesOf rest := rfl
      rw [parse_trace, ih _ hrest, hnames]
      simp
    · have hnames : namesOf ("--has-return" :: rest) = namesOf rest := rfl
      rw [parse_hasReturn, ih _ hrest, hnames]
      simp
    · have hnames : namesOf (first :: rest) = first :: namesOf rest :=
        List.filter_cons_of_pos (by simpa using hname)
      have htrace : "--trace" ≠ first := fun heq => hname.1 (Or.inr (Or.inl heq.symm))
      have hreturn : "--has-return" ≠ first := fun heq => hname.1 (Or.inr (Or.inr heq.symm))
      rw [parse_name settings rest hname, ih _ hrest, hnames]
      simp [addName, htrace, hreturn]

end Invocation

/-! ### Answers -/

/-- The opcodes that are found under the given names. -/
def found (names : List String) : List Opcode := names.filterMap Table.standard.lookup?

/-- The names under which no opcode is found. -/
def missing (names : List String) : List String :=
  names.filter fun name => Table.standard.lookup? name = none

/-- What is reported of a name under which no opcode is found. -/
def unknownOpcode (name : String) : Diagnostic := .error ("unknown opcode '" ++ name ++ "'")

/-- What is traced of an opcode that is found. -/
def describing (op : Opcode) : TraceLine := ⟨"opinfo", "describing '" ++ op.mnemonic ++ "'"⟩

theorem line_unknownOpcode (name : String) :
    (unknownOpcode name).line = "error: unknown opcode '" ++ name ++ "'\n" := by
  rw [← String.toList_inj]
  simp [unknownOpcode, Diagnostic.error, Diagnostic.line, Coded.name, Enumeration.name]

variable {returns : Bool} {r : Report} {name : String}

theorem answer_of_found {op : Opcode} (h : Table.standard.lookup? name = some op) :
    r.answer returns name = ⟨{ r with out := r.out ++ op.line returns }, [describing op]⟩ := by
  refine Traced.ext ?_ ?_ <;> simp [Report.answer, h, describing, Traced.emit]

theorem answer_of_missing (h : Table.standard.lookup? name = none) :
    r.answer returns name = ⟨{ r with log := r.log.report (unknownOpcode name) }, []⟩ := by
  refine Traced.ext ?_ ?_ <;> simp [Report.answer, h, unknownOpcode]

/-- One name after another: what is found is described and traced, what is not is reported. -/
theorem foldlM_answer (returns : Bool) (names : List String) (r : Report) :
    names.foldlM (Report.answer returns) r =
      { value :=
          { out := r.out ++ String.join ((found names).map fun op => op.line returns)
            log := ((missing names).map unknownOpcode).foldl Log.report r.log }
        lines := (found names).map describing } := by
  induction names generalizing r with
  | nil => exact Traced.ext (by simp [found, missing]) rfl
  | cons name rest ih =>
    rw [List.foldlM_cons]
    cases hlookup : Table.standard.lookup? name with
    | some op =>
      have hfound : found (name :: rest) = op :: found rest := List.filterMap_cons_some hlookup
      have hmissing : missing (name :: rest) = missing rest := by simp [missing, hlookup]
      rw [answer_of_found hlookup, hfound, hmissing]
      refine Traced.ext ?_ ?_ <;> simp [ih, String.append_assoc]
    | none =>
      have hfound : found (name :: rest) = found rest := List.filterMap_cons_none hlookup
      have hmissing : missing (name :: rest) = name :: missing rest := by simp [missing, hlookup]
      rw [answer_of_missing hlookup, hfound, hmissing]
      refine Traced.ext ?_ ?_ <;> simp [ih]

theorem inspectAll_eq (returns : Bool) (names : List String) :
    inspectAll returns names =
      { value :=
          { out := String.join ((found names).map fun op => op.line returns)
            log := Log.ofList ((missing names).map unknownOpcode) }
        lines := (found names).map describing } := by
  rw [inspectAll, foldlM_answer]
  simp [Log.ofList]

/-- Nothing is missing when every name is found. -/
theorem missing_eq_nil_iff {names : List String} :
    missing names = [] ↔ ∀ name ∈ names, (Table.standard.lookup? name).isSome = true := by
  simp [missing, Option.isSome_iff_ne_none]

theorem errors_unknownOpcode (names : List String) :
    (Log.ofList (names.map unknownOpcode)).errors = names.length := by
  rw [Log.errors_ofList, List.countP_map, List.countP_eq_length.mpr]
  intro name _
  simp [unknownOpcode, Diagnostic.error]

theorem printed_unknownOpcode (names : List String) :
    (Log.ofList (names.map unknownOpcode)).printed =
      String.join (names.map fun name => "error: unknown opcode '" ++ name ++ "'\n") := by
  rw [Log.printed_ofList, List.map_map]
  exact congrArg String.join (List.map_congr_left fun name _ => line_unknownOpcode name)

/-! ### Runs -/

/-- What a run prints, with its exit code. -/
structure Printed where
  exit : UInt32
  out : String
  err : String
  deriving DecidableEq

/-- The part of an outcome that tracing has no share in. -/
def Outcome.printed (o : Outcome) : Printed := ⟨o.exit, o.out, o.err⟩

/-- What a run prints that answers names. -/
def answers (args : List String) : Printed where
  exit := if ∀ name ∈ namesOf args, (Table.standard.lookup? name).isSome = true then 0 else 1
  out := String.join ((found (namesOf args)).map fun op => op.line ("--has-return" ∈ args))
  err := String.join ((missing (namesOf args)).map fun name =>
    "error: unknown opcode '" ++ name ++ "'\n")

/-- What a run with the given arguments should print. -/
def expected (args : List String) : Printed :=
  match args.find? fun arg => Decides arg with
  | some arg =>
    if arg = "--version" then { exit := 0, out := versionText, err := "" }
    else { exit := 1, out := "", err := "unknown option '" ++ arg ++ "'\n" ++ usageText }
  | none => if namesOf args = [] then { exit := 1, out := "", err := usageText } else answers args

variable {args : List String}

theorem expected_of_inspects (h : Inspects args) : expected args = answers args := by
  have hfind : args.find? (fun arg => Decides arg) = none := by simpa using h.2
  rw [expected, hfind]
  exact if_neg (namesOf_ne_nil_iff.mpr h.1)

/-- A run that answers names. Tracing is on if it was on before or is turned on by an option. -/
theorem run_of_inspects (tracing : Bool) (h : Inspects args) :
    run tracing args =
      { exit := (answers args).exit
        out := (answers args).out
        err := (answers args).err
        trace := traceText (tracing || decide ("--trace" ∈ args))
          ((found (namesOf args)).map describing)
        tracing := tracing || decide ("--trace" ∈ args) } := by
  obtain ⟨name, rest, hnames⟩ := List.exists_cons_of_ne_nil (namesOf_ne_nil_iff.mpr h.1)
  rw [run, Invocation.parse_of_not_decides _ h.2, hnames]
  simp only [← hnames, inspectAll_eq, errors_unknownOpcode, printed_unknownOpcode,
    List.length_eq_zero_iff, missing_eq_nil_iff, Settings.initial, Bool.false_or, answers]

/-- Any other run shows no trace and leaves tracing as it was. -/
theorem run_of_not_inspects (tracing : Bool) (h : ¬Inspects args) :
    run tracing args =
      { exit := (expected args).exit
        out := (expected args).out
        err := (expected args).err
        trace := ""
        tracing := tracing } := by
  cases hfind : args.find? fun arg => Decides arg with
  | some arg =>
    rw [run, Invocation.parse_of_decides _ hfind, expected, hfind]
    by_cases hversion : arg = "--version" <;> simp [hversion]
  | none =>
    have hnot : ∀ arg ∈ args, ¬Decides arg := by simpa using hfind
    have hnames : namesOf args = [] := by
      by_contra hne
      exact h ⟨namesOf_ne_nil_iff.mp hne, hnot⟩
    rw [run, Invocation.parse_of_not_decides _ hnot, expected, hfind, hnames]
    simp

theorem printed_run (tracing : Bool) (args : List String) :
    (run tracing args).printed = expected args := by
  by_cases h : Inspects args
  · rw [run_of_inspects tracing h, expected_of_inspects h]
    rfl
  · rw [run_of_not_inspects tracing h]
    rfl

/-! ### Options that only set something -/

/-- The arguments without the options that leave the run going on. -/
def significant (args : List String) : List String :=
  args.filter fun arg => arg ≠ "--trace" ∧ arg ≠ "--has-return"

/-- The options left out are no names, and none of them decides alone. -/
theorem ne_of_decides_or_isName {arg : String} (h : Decides arg ∨ IsName arg) :
    arg ≠ "--trace" ∧ arg ≠ "--has-return" := by
  constructor <;> rintro rfl <;> revert h <;> decide

theorem find?_significant (args : List String) :
    (significant args).find? (fun arg => Decides arg) = args.find? fun arg => Decides arg := by
  rw [significant, List.find?_filter]
  congr 1
  funext arg
  simpa using fun h => ne_of_decides_or_isName (Or.inl h)

theorem namesOf_significant (args : List String) : namesOf (significant args) = namesOf args := by
  rw [significant, namesOf, namesOf, List.filter_filter]
  refine List.filter_congr fun arg _ => ?_
  simpa using fun h => ne_of_decides_or_isName (Or.inr h)

/-- Where the options that only set something stand does not matter, nor how often. -/
theorem expected_congr {args' : List String} (hsignificant : significant args' = significant args)
    (hreturn : "--has-return" ∈ args' ↔ "--has-return" ∈ args) :
    expected args' = expected args := by
  have hfind : args'.find? (fun arg => Decides arg) = args.find? fun arg => Decides arg := by
    rw [← find?_significant args', hsignificant, find?_significant]
  have hnames : namesOf args' = namesOf args := by
    rw [← namesOf_significant args', hsignificant, namesOf_significant]
  have hanswers : answers args' = answers args := by
    simp only [answers, hnames, hreturn]
  rw [expected, expected, hfind, hnames, hanswers]

/-- **What a run prints.** The first argument that asks for the version or is an unknown option
decides alone. Otherwise the names that are found are described, the others are reported, and the
exit code says whether there are others; without any name the usage is printed. It does not matter
whether tracing is on, where `--trace` and `--has-return` stand, how often, or whether `--trace` is
there at all. -/
theorem printed_run_eq_expected (tracing : Bool) (args : List String) :
    (run tracing args).printed = expected args ∧
    ∀ (tracing' : Bool) (args' : List String), significant args' = significant args →
      ("--has-return" ∈ args' ↔ "--has-return" ∈ args) →
      (run tracing' args').printed = (run tracing args).printed := by
  refine ⟨printed_run tracing args, fun tracing' args' hsignificant hreturn => ?_⟩
  rw [printed_run, printed_run, expected_congr hsignificant hreturn]

/-- The options may surround the names, and be repeated. One name is not found, and one is a
number. -/
theorem printed_run_eq_expected_scattered :
    let args := ["--has-return", "-x", "ret", "0x2A"]
    let args' := ["-x", "--trace", "ret", "--has-return", "0x2A", "--trace", "--has-return"]
    significant args' = significant args ∧
      ("--has-return" ∈ args' ↔ "--has-return" ∈ args) ∧
      (run true args').printed = (run false args).printed := by
  intro args args'
  have hsignificant : significant args' = significant args := by decide
  have hreturn : "--has-return" ∈ args' ↔ "--has-return" ∈ args := by decide
  exact ⟨hsignificant, hreturn,
    (printed_run_eq_expected false args).2 true args' hsignificant hreturn⟩

end CilIsa.Inspector
