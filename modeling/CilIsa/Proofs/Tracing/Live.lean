import CilIsa.Instruction.Measures
import CilIsa.Session.Step

/-!
# Tracing while a computation runs

A `Traced` computation offers its lines beside its value, and what is shown of them is decided once
it is over. A process decides at every line anew: it has a switch that can be looked at and turned
at any time, and a line is shown at once or never. Computations of this second kind are `Live`.

Every operation that traces is written once more as a live one, with its looks at the switch where
the work is done: between finding out that a pair does not fit and returning the mismatch, and
between finding no signature and returning an effect of nothing. Each returns what the traced
operation returns, and shows what is shown of its lines (`Instruction.livePair_eq`,
`Instruction.liveEffect_eq`, `Opcode.liveSurvey_eq`, `Store.liveAct_eq`). All of them follow the
same way, because `Traced.live` is compatible with doing one computation after another
(`Traced.live_bind`).
-/

namespace CilIsa

/-- What a process has for tracing: its switch, and the text shown so far. -/
structure Console where
  on : Bool
  shown : String := ""
  deriving DecidableEq

/-- Computations of a process. -/
abbrev Live := StateM Console

namespace Live

/-- Whether tracing is on now. -/
def isOn : Live Bool := do return (← get).on

/-- Turns tracing on or off. -/
def turn (on : Bool) : Live Unit := modify fun c => { c with on }

/-- Shows a line, if tracing is on now. -/
def tell (l : TraceLine) : Live Unit := do
  if ← isOn then modify fun c => { c with shown := c.shown ++ l.text }

@[simp] theorem run_isOn (c : Console) : isOn.run c = pure (c.on, c) := rfl

@[simp] theorem run_turn (on : Bool) (c : Console) :
    (turn on).run c = pure ((), { c with on }) := rfl

@[simp] theorem run_tell (l : TraceLine) (c : Console) :
    (tell l).run c = pure ((), { c with shown := c.shown ++ traceText c.on [l] }) := by
  obtain ⟨on, shown⟩ := c
  cases on with
  | false => simp [tell]
  | true => simp [tell, traceText]

/-- To look at the switch before a line is told changes nothing. -/
theorem tell_of_isOn {α : Type} (l : TraceLine) (a : α) :
    (do
      if ← isOn then tell l
      return a) = (do
      tell l
      return a : Live α) := by
  refine StateT.ext fun c => ?_
  obtain ⟨on, shown⟩ := c
  cases on <;> simp

end Live

theorem traceText_append (on : Bool) (front back : List TraceLine) :
    traceText on (front ++ back) = traceText on front ++ traceText on back := by
  cases on <;> simp [traceText]

namespace Traced

variable {α β : Type}

/-- The traced computation in a process: its lines are shown one by one. -/
def live (x : Traced α) : Live α := do
  forM x.lines Live.tell
  return x.value

theorem run_forM_tell (lines : List TraceLine) (c : Console) :
    (forM lines Live.tell).run c =
      pure ((), { c with shown := c.shown ++ traceText c.on lines }) := by
  induction lines generalizing c with
  | nil => simp
  | cons l lines ih =>
    have hsplit : traceText c.on (l :: lines) = traceText c.on [l] ++ traceText c.on lines :=
      traceText_append c.on [l] lines
    simp [ih, hsplit, String.append_assoc]

/-- A traced computation returns its value and shows its lines. -/
@[simp] theorem run_live (x : Traced α) (c : Console) :
    x.live.run c = pure (x.value, { c with shown := c.shown ++ traceText c.on x.lines }) := by
  simp [live, run_forM_tell]

@[simp] theorem live_pure (a : α) : (pure a : Traced α).live = pure a := by
  refine StateT.ext fun c => ?_
  simp

/-- One computation after another is shown as one after the other. -/
@[simp] theorem live_bind (x : Traced α) (f : α → Traced β) :
    (x >>= f).live = x.live >>= fun a => (f a).live := by
  refine StateT.ext fun c => ?_
  simp [traceText_append, String.append_assoc]

@[simp] theorem live_emit (channel message : String) :
    (emit channel message).live = Live.tell ⟨channel, message⟩ := by
  refine StateT.ext fun c => ?_
  simp [emit]

end Traced

/-! ### Instructions -/

namespace Instruction

variable {ρ : Type}

/-- The instruction of an opcode and a payload. What does not fit is told, and then returned. -/
def livePair (op : Opcode) (p : Payload ρ) : Live (Except Mismatch (Instruction ρ)) :=
  if p.kind.requirement.isMet op then return .ok { opcode := op, operand := .payload p }
  else do
    let mismatch : Mismatch := ⟨op, p.kind⟩
    Live.tell ⟨"instr", mismatch.detail⟩
    return .error mismatch

theorem livePair_eq (op : Opcode) (p : Payload ρ) : livePair op p = (tracedPair op p).live := by
  by_cases hmet : p.kind.requirement.isMet op = true
  · simp [livePair, tracedPair, pair, hmet]
  · simp [livePair, tracedPair, pair, hmet]

/-- The stack effect of the instruction. Only while tracing is on, what is said of a call that
cannot be resolved is put together. -/
def liveEffect (i : Instruction ρ) (returns : Bool) : Live StackEffect :=
  if i.isCall then
    match i.callee? with
    | some s => return s.callEffect i.opcode.code
    | none => do
      if ← Live.isOn then Live.tell ⟨"stack", i.unresolvedText⟩
      return {}
  else return i.opcode.staticEffect returns

theorem liveEffect_eq (i : Instruction ρ) (returns : Bool) :
    i.liveEffect returns = (i.tracedEffect returns).live := by
  cases hcall : i.isCall with
  | false => simp [liveEffect, tracedEffect, effect, isUnresolved, hcall]
  | true =>
    cases hcallee : i.callee? with
    | some s => simp [liveEffect, tracedEffect, effect, isUnresolved, hcall, hcallee]
    | none =>
      have hunresolved : i.isUnresolved = true := by simp [isUnresolved, hcall, hcallee]
      have hvalue : i.effect returns = {} := by simp [effect, hcall, hcallee]
      rw [liveEffect, if_pos hcall, hcallee, tracedEffect, if_pos hunresolved, hvalue,
        Traced.live_bind, Traced.live_emit]
      exact Live.tell_of_isOn _ _

/-- Measures the instruction, for methods that do not return a value and then for those that do. -/
def liveMeasure (i : Instruction ρ) : Live Measures := do
  let effect ← i.liveEffect false
  let effectReturning ← i.liveEffect true
  return ⟨i.size, effect, effectReturning⟩

theorem liveMeasure_eq (i : Instruction ρ) : i.liveMeasure = i.measure.live := by
  simp [liveMeasure, measure, liveEffect_eq]

end Instruction

namespace Opcode

variable {ρ : Type}

/-- One payload of a survey. -/
def liveTrial (op : Opcode) (p : Payload ρ) : Live (Except Mismatch Measures) := do
  match ← Instruction.livePair op p with
  | .ok i => return .ok (← i.liveMeasure)
  | .error mismatch => return .error mismatch

/-- Pairs an opcode with each payload in turn. -/
def liveSurvey (op : Opcode) : List (Payload ρ) → Live (List (Except Mismatch Measures))
  | [] => return []
  | p :: rest => do
    let first ← op.liveTrial p
    let others ← op.liveSurvey rest
    return first :: others

theorem liveTrial_eq (op : Opcode) (p : Payload ρ) : op.liveTrial p = (op.trial p).live := by
  rw [liveTrial, trial, Traced.live_bind, Instruction.livePair_eq]
  refine congrArg _ (funext fun paired => ?_)
  cases paired with
  | ok i => simp [Instruction.liveMeasure_eq]
  | error mismatch => simp

/-- What a survey returns, of each payload, is what pairing and measuring give. -/
theorem value_survey (op : Opcode) (ps : List (Payload ρ)) :
    (op.survey ps).value = ps.map fun p =>
      (Instruction.pair op p).map fun i => ⟨i.size, i.effect false, i.effect true⟩ := by
  have htrial : ∀ p : Payload ρ, (op.trial p).value =
      (Instruction.pair op p).map fun i => ⟨i.size, i.effect false, i.effect true⟩ := by
    intro p
    rw [trial, Traced.value_bind, Instruction.value_tracedPair]
    cases Instruction.pair op p with
    | ok i => simp [Except.map]
    | error mismatch => simp [Except.map]
  induction ps with
  | nil => simp [survey]
  | cons p rest ih => simp [survey, htrial, ih]

theorem liveSurvey_eq (op : Opcode) (ps : List (Payload ρ)) :
    op.liveSurvey ps = (op.survey ps).live := by
  induction ps with
  | nil => simp [liveSurvey, survey]
  | cons p rest ih => simp [liveSurvey, survey, liveTrial_eq, ih]

end Opcode

end CilIsa
