import CilIsa.Instruction.Effect
import CilIsa.Instruction.Size

/-!
# The line that describes an opcode

One line shows all columns of an opcode but its family, with the size and the stack effect of the
instruction that has no operand. The effect of a call is not known without one. The inspector comes
to this line by asking such an instruction for its effect (`Opcode.describe`).
-/

namespace CilIsa.Opcode

/-- The stack effect as the line shows it. -/
def effectText (op : Opcode) (returns : Bool) : String :=
  if op.flow = .member .call then "dynamic" else (op.staticEffect returns).text

/-- The line up to the effect. -/
def columns (op : Opcode) : String :=
  let bare : Instruction Empty := { opcode := op }
  op.mnemonic ++ " code=" ++ op.code.compact ++ " size=" ++ toString bare.size.toNat
    ++ " operand=" ++ op.shape.name ++ " flow=" ++ op.flow.name ++ " push=" ++ op.push.name
    ++ " pop=" ++ op.pop.name ++ " effect="

/-- The line that describes an opcode, for methods that do or do not return a value. -/
def line (op : Opcode) (returns : Bool) : String := op.columns ++ op.effectText returns ++ "\n"

/-- Describes an opcode by its line. Its effect is asked of the instruction that has no operand,
unless that is a call. -/
def describe (op : Opcode) (returns : Bool) : Traced String := do
  let bare : Instruction Empty := { opcode := op }
  if bare.isCall then return op.columns ++ "dynamic" ++ "\n"
  let effect ← bare.tracedEffect returns
  return op.columns ++ effect.text ++ "\n"

@[simp] theorem value_describe (op : Opcode) (returns : Bool) :
    (op.describe returns).value = op.line returns := by
  by_cases h : op.flow = .member .call
  · simp [describe, line, effectText, Instruction.isCall, h]
  · simp [describe, line, effectText, Instruction.isCall, Instruction.effect, h]

/-- What cannot be resolved are calls, and no call is asked for its effect. -/
@[simp] theorem lines_describe (op : Opcode) (returns : Bool) :
    (op.describe returns).lines = [] := by
  by_cases h : op.flow = .member .call
  · simp [describe, Instruction.isCall, h]
  · simp [describe, Instruction.isCall, Instruction.lines_tracedEffect, Instruction.isUnresolved, h]

end CilIsa.Opcode
