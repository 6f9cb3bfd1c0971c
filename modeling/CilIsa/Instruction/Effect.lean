import CilIsa.Instruction.Basic
import CilIsa.StackEffect
import CilIsa.Tracing

/-!
# The stack effect of an instruction

An opcode that enters another method takes its effect from the signature of that method, all others
from their classes. A call whose method is not known, or has no signature, counts as having no
effect, and a trace line says so.
-/

namespace CilIsa

/-- How many values a push class stands for. What a signature decides counts as nothing. -/
def PushClass.count : PushClass → Int32
  | .push0 | .varpush => 0
  | .push1 | .pushi | .pushi8 | .pushr4 | .pushr8 | .pushref => 1
  | .push1_push1 => 2

/-- How many values a pop class stands for, in a method that does or does not return a value. -/
def PopClass.count (returns : Bool) : PopClass → Int32
  | .pop0 => 0
  | .pop1 | .popi | .popref => 1
  | .pop1_pop1 | .popi_pop1 | .popi_popi | .popi_popi8 | .popi_popr4 | .popi_popr8 | .popref_pop1
  | .popref_popi => 2
  | .popi_popi_popi | .popref_popi_popi | .popref_popi_popi8 | .popref_popi_popr4
  | .popref_popi_popr8 | .popref_popi_popref | .popref_popi_pop1 => 3
  | .popAll => StackEffect.allPops
  | .varpop => if returns then 1 else 0

/-- The effect of the classes of an opcode. A class outside its enumeration counts as nothing. -/
def Opcode.staticEffect (op : Opcode) (returns : Bool) : StackEffect where
  pushes := match op.push with
    | .member push => push.count
    | .outside _ _ => 0
  pops := match op.pop with
    | .member pop => pop.count returns
    | .outside _ _ => 0

/-- The effect of entering a method. The result is pushed, and by `newobj` the new object, which its
constructor does not return. The arguments are popped, with the receiver that is not listed unless
`newobj` makes it, and by `calli` the address of the method. -/
def Signature.callEffect (s : Signature) (code : Code) : StackEffect where
  pushes := if !s.result.isVoid || (code == Code.newobj && s.hasThis) then 1 else 0
  pops := Int32.ofNat s.params.length
    + (if s.implicitThis && code != Code.newobj then 1 else 0)
    + (if code == Code.calli then 1 else 0)

namespace Instruction

variable {ρ : Type}

/-- The instruction enters another method. -/
def isCall (i : Instruction ρ) : Bool := i.opcode.flow == .member .call

/-- The signature of the method that the operand names. A stand-alone signature is not one. -/
def callee? (i : Instruction ρ) : Option Signature := i.operand.method?.bind (·.sig)

theorem callee?_eq_some_iff {i : Instruction ρ} {s : Signature} :
    i.callee? = some s ↔ ∃ m, i.operand = .payload (.method m) ∧ m.sig = some s := by
  have hmethod : ∀ m, i.operand.method? = some m ↔ i.operand = .payload (.method m) := by
    intro m
    rcases i.operand with p | k
    · cases p <;> simp [Operand.method?]
    · simp [Operand.method?]
  simp only [callee?, Option.bind_eq_some_iff, hmethod]

/-- The instruction enters a method of which no signature is known. -/
def isUnresolved (i : Instruction ρ) : Bool := i.isCall && i.callee?.isNone

/-- The stack effect of the instruction in a method that does or does not return a value. -/
def effect (i : Instruction ρ) (returns : Bool) : StackEffect :=
  if i.isCall then
    match i.callee? with
    | some s => s.callEffect i.opcode.code
    | none => {}
  else i.opcode.staticEffect returns

/-- The effect of an instruction that enters no method is that of its opcode. -/
theorem effect_of_flow_ne_call {i : Instruction ρ} (h : i.opcode.flow ≠ .member .call)
    (returns : Bool) : i.effect returns = i.opcode.staticEffect returns := by
  have hcall : i.isCall = false := beq_eq_false_iff_ne.mpr h
  rw [effect, hcall, if_neg Bool.false_ne_true]

theorem effect_of_classes {i : Instruction ρ} {push : PushClass} {pop : PopClass}
    (hflow : i.opcode.flow ≠ .member .call) (hpush : i.opcode.push = .member push)
    (hpop : i.opcode.pop = .member pop) (returns : Bool) :
    i.effect returns = ⟨push.count, pop.count returns⟩ := by
  rw [effect_of_flow_ne_call hflow, Opcode.staticEffect, hpush, hpop]

/-- An instruction that enters a method has the effect that its signature has on the code. -/
theorem effect_of_callee? {i : Instruction ρ} {s : Signature}
    (hflow : i.opcode.flow = .member .call) (hcallee : i.callee? = some s) (returns : Bool) :
    i.effect returns = s.callEffect i.opcode.code := by
  have hcall : i.isCall = true := beq_iff_eq.mpr hflow
  rw [effect, if_pos hcall, hcallee]

theorem effect_of_callee?_eq_none {i : Instruction ρ} (hflow : i.opcode.flow = .member .call)
    (hcallee : i.callee? = none) (returns : Bool) : i.effect returns = {} := by
  have hcall : i.isCall = true := beq_iff_eq.mpr hflow
  rw [effect, if_pos hcall, hcallee]

/-- There are three ways to come by an effect: the classes of the opcode, a call that cannot be
resolved, and a signature. -/
theorem effect_cases (i : Instruction ρ) (returns : Bool) :
    (i.opcode.flow ≠ .member .call ∧ i.effect returns = i.opcode.staticEffect returns) ∨
    (i.opcode.flow = .member .call ∧ i.callee? = none ∧ i.effect returns = {}) ∨
    (∃ s, i.opcode.flow = .member .call ∧ i.callee? = some s ∧
      i.effect returns = s.callEffect i.opcode.code) := by
  by_cases hflow : i.opcode.flow = .member .call
  · cases hcallee : i.callee? with
    | none => exact .inr (.inl ⟨hflow, rfl, effect_of_callee?_eq_none hflow hcallee returns⟩)
    | some s => exact .inr (.inr ⟨s, hflow, rfl, effect_of_callee? hflow hcallee returns⟩)
  · exact .inl ⟨hflow, effect_of_flow_ne_call hflow returns⟩

/-- What is said of a call that cannot be resolved. -/
def unresolvedText (i : Instruction ρ) : String :=
  "'" ++ i.opcode.mnemonic ++ "' at offset " ++ toString i.offset.toNat
    ++ " has no resolvable signature; reporting 0/0"

/-- The stack effect, with a trace line for a call that cannot be resolved. -/
def tracedEffect (i : Instruction ρ) (returns : Bool) : Traced StackEffect := do
  if i.isUnresolved then Traced.emit "stack" i.unresolvedText
  pure (i.effect returns)

@[simp] theorem value_tracedEffect (i : Instruction ρ) (returns : Bool) :
    (i.tracedEffect returns).value = i.effect returns := by
  unfold tracedEffect
  split <;> rfl

/-- A trace line is offered exactly for calls that cannot be resolved. -/
theorem lines_tracedEffect (i : Instruction ρ) (returns : Bool) :
    (i.tracedEffect returns).lines =
      if i.isUnresolved then [⟨"stack", i.unresolvedText⟩] else [] := by
  unfold tracedEffect
  split <;> rfl

end Instruction

end CilIsa
