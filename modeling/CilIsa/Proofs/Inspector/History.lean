import CilIsa.Proofs.Inspector.Reference
import CilIsa.Proofs.Opcode.Standard
import CilIsa.Proofs.Table.Spelling

/-!
# Runs of the inspector one after another

Of one run nothing is left for the next but whether tracing is on. A run can turn it on and never
off, so that tracing is on after some runs exactly when it was on at first or one of them has turned
it on (`Inspector.tracingAfter_eq`). What a run prints is not touched by this; what it traces are
the opcodes that it describes, in order, and nothing else (`Inspector.trace_run`).

Describing an opcode asks for its stack effect, and effects can be traced too. That no such line
shows up has two reasons: no call is asked for its effect (`Opcode.lines_describe`), and no mnemonic
of the standard set has a bracket in it, with which every trace line begins.
-/

namespace CilIsa

/-! ### Texts made of blocks -/

/-- A text whose first letter is not in a block begins behind that block. -/
theorem infix_of_infix_append {α : Type} {a : α} {needle block rest : List α} (h : a ∉ block)
    (hpart : a :: needle <:+: block ++ rest) : a :: needle <:+: rest := by
  induction block with
  | nil => exact hpart
  | cons b block ih =>
    rw [List.mem_cons, not_or] at h
    rcases List.infix_cons_iff.mp hpart with hfront | hpart
    · exact absurd (List.cons_prefix_cons.mp hfront).1 h.1
    · exact ih h.2 hpart

/-- A text that begins like a block, and goes on like none, is not part of the blocks. -/
theorem not_infix_flatten {α : Type} {a : α} {needle : List α} {blocks : List (List α)}
    (h : ∀ block ∈ blocks, ∃ body, block = a :: body ∧ a ∉ body ∧
      ∀ rest, ¬needle <+: body ++ rest) : ¬a :: needle <:+: blocks.flatten := by
  induction blocks with
  | nil => simp
  | cons block blocks ih =>
    obtain ⟨body, rfl, hbody, hneedle⟩ := h block List.mem_cons_self
    intro hpart
    rw [List.flatten_cons, List.cons_append] at hpart
    rcases List.infix_cons_iff.mp hpart with hfront | hpart
    · exact hneedle blocks.flatten (List.cons_prefix_cons.mp hfront).2
    · exact ih (fun b hb => h b (List.mem_cons_of_mem _ hb)) (infix_of_infix_append hbody hpart)

/-- What is found in the standard table is one of the standard opcodes. -/
theorem Table.mem_standard_of_lookup? {s : String} {op : Opcode}
    (h : standard.lookup? s = some op) : op ∈ Opcode.standard := by
  have hentry : ∀ position : Option Nat,
      (position.bind fun i => standard.entries[i]?) = some op → op ∈ Opcode.standard := by
    intro position hbind
    obtain ⟨i, -, hget⟩ := Option.bind_eq_some_iff.mp hbind
    exact List.mem_toArray.mp (Array.mem_of_getElem? hget)
  rw [lookup?_eq] at h
  cases hnamed : standard.named? s with
  | some e =>
    rw [hnamed] at h
    cases h
    exact hentry _ hnamed
  | none =>
    rw [hnamed] at h
    obtain ⟨c, -, hfind⟩ := Option.bind_eq_some_iff.mp h
    exact hentry _ hfind

namespace Inspector

/-! ### One run -/

/-- The run turns tracing on, if it is not on yet. -/
def TurnsOn (args : List String) : Prop := "--trace" ∈ args ∧ Inspects args

instance : DecidablePred TurnsOn := fun _ => inferInstanceAs (Decidable (_ ∧ _))

/-- What is traced of a run that answers names. -/
def descriptions (args : List String) : String :=
  String.join ((found (namesOf args)).map fun op =>
    "[cil:opinfo] describing '" ++ op.mnemonic ++ "'\n")

theorem text_describing (op : Opcode) :
    (describing op).text = "[cil:opinfo] describing '" ++ op.mnemonic ++ "'\n" := by
  rw [← String.toList_inj]
  simp [describing, TraceLine.text]

theorem traceText_describing (on : Bool) (args : List String) :
    traceText on ((found (namesOf args)).map describing) =
      if on then descriptions args else "" := by
  have htext : TraceLine.text ∘ describing =
      fun op => "[cil:opinfo] describing '" ++ op.mnemonic ++ "'\n" := funext text_describing
  rw [traceText, List.map_map, htext, descriptions]

theorem tracing_run (tracing : Bool) (args : List String) :
    (run tracing args).tracing = (tracing || decide (TurnsOn args)) := by
  by_cases h : Inspects args
  · rw [run_of_inspects tracing h]
    simp [TurnsOn, h]
  · rw [run_of_not_inspects tracing h]
    simp [TurnsOn, h]

/-- The trace of a run shows the opcodes described, or nothing. -/
theorem trace_run (tracing : Bool) (args : List String) :
    (run tracing args).trace =
      if Inspects args ∧ (run tracing args).tracing = true then descriptions args else "" := by
  by_cases h : Inspects args
  · rw [run_of_inspects tracing h, traceText_describing]
    simp [h]
  · rw [run_of_not_inspects tracing h]
    simp [h]

/-- No line about the stack is part of the descriptions. -/
theorem stack_not_infix_descriptions (args : List String) (message : String) :
    ¬(TraceLine.text ⟨"stack", message⟩).toList <:+: (descriptions args).toList := by
  obtain ⟨tail, htail⟩ : ∃ tail, (TraceLine.text ⟨"stack", message⟩).toList =
      '[' :: 'c' :: 'i' :: 'l' :: ':' :: 's' :: tail := by
    simp [TraceLine.text]
  rw [htail, descriptions, String.toList_join, List.flatMap_def, List.map_map]
  refine not_infix_flatten fun block hblock => ?_
  obtain ⟨op, hop, rfl⟩ := List.mem_map.mp hblock
  obtain ⟨name, -, hlookup⟩ := List.mem_filterMap.mp hop
  have hbracket : '[' ∉ op.mnemonic.toList :=
    Opcode.bracket_not_mem_standard op (Table.mem_standard_of_lookup? hlookup)
  refine ⟨("cil:opinfo] describing '" ++ op.mnemonic ++ "'\n").toList, ?_, ?_, fun rest => ?_⟩
  · simp
  · simp [hbracket]
  · simp [List.cons_prefix_cons]

/-! ### Many runs -/

/-- Whether tracing is on after some runs. -/
def tracingAfter (tracing : Bool) (runs : List (List String)) : Bool :=
  ((runAll tracing runs).getLast?.map Outcome.tracing).getD tracing

theorem tracingAfter_cons (tracing : Bool) (args : List String) (rest : List (List String)) :
    tracingAfter tracing (args :: rest) = tracingAfter (run tracing args).tracing rest := by
  simp only [tracingAfter, runAll, List.getLast?_cons]
  cases (runAll (run tracing args).tracing rest).getLast? <;> rfl

/-- Tracing is on after some runs if it was on at first, or one of them has turned it on. -/
theorem tracingAfter_eq (tracing : Bool) (runs : List (List String)) :
    tracingAfter tracing runs = (tracing || runs.any fun args => TurnsOn args) := by
  induction runs generalizing tracing with
  | nil => simp [tracingAfter, runAll]
  | cons args rest ih =>
    rw [tracingAfter_cons, ih, tracing_run, List.any_cons, Bool.or_assoc]

/-- Later runs start where the earlier ones have left tracing. -/
theorem runAll_append (tracing : Bool) (front back : List (List String)) :
    runAll tracing (front ++ back) =
      runAll tracing front ++ runAll (tracingAfter tracing front) back := by
  induction front generalizing tracing with
  | nil => rfl
  | cons args rest ih => rw [tracingAfter_cons, List.cons_append, runAll, runAll, ih]; rfl

theorem length_runAll (tracing : Bool) (runs : List (List String)) :
    (runAll tracing runs).length = runs.length := by
  induction runs generalizing tracing with
  | nil => rfl
  | cons args rest ih => rw [runAll, List.length_cons, List.length_cons, ih]

/-- **What a run owes to the runs before it.** Of the runs in one process every one prints what it
prints alone with tracing off. Tracing is on before it if it was on at first or an earlier run has
turned it on, and after it if it was on before or the run turns it on; so no run turns it off. If a
run answers names and tracing is on after it, its trace shows the opcodes described, in order; else
it is empty. No trace has a line about the stack. -/
theorem getElem?_runAll (tracing : Bool) (front : List (List String)) (args : List String)
    (back : List (List String)) :
    tracingAfter tracing front = (tracing || front.any fun earlier => TurnsOn earlier) ∧
    ∃ o, (runAll tracing (front ++ args :: back))[front.length]? = some o ∧
      o.printed = (run false args).printed ∧
      o.tracing = (tracingAfter tracing front || decide (TurnsOn args)) ∧
      o.trace = (if Inspects args ∧ o.tracing = true then descriptions args else "") ∧
      ∀ message, ¬(TraceLine.text ⟨"stack", message⟩).toList <:+: o.trace.toList := by
  refine ⟨tracingAfter_eq tracing front, run (tracingAfter tracing front) args, ?_, ?_,
    tracing_run _ args, trace_run _ args, fun message => ?_⟩
  · rw [runAll_append, List.getElem?_append_right (by rw [length_runAll]), length_runAll,
      Nat.sub_self, runAll]
    rfl
  · rw [printed_run, printed_run]
  · rw [trace_run]
    split
    · exact stack_not_infix_descriptions args message
    · simp [TraceLine.text]

/-- A usage error turns nothing on, and what is turned on stays on. -/
example : (runAll false [["--trace"], ["nop"], ["nop", "--trace"], ["break"]]).map (·.trace) =
    ["", "", "[cil:opinfo] describing 'nop'\n", "[cil:opinfo] describing 'break'\n"] := by
  decide +kernel

end Inspector

end CilIsa
