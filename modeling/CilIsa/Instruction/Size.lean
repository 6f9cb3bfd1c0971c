import CilIsa.Instruction.Basic

/-!
# The size of an encoded instruction

An instruction takes the bytes of its opcode and those of its operand. Only the operand of a switch
varies in width: a count of four bytes and four bytes for each target. Sizes are numbers of 32 bits
and wrap around.
-/

namespace CilIsa

/-- The number of bytes of an operand of the given shape, without the targets of a switch. -/
def OperandShape.width : OperandShape → UInt32
  | .inlineNone | .inlinePhi => 0
  | .shortInlineBrTarget | .shortInlineI | .shortInlineVar => 1
  | .inlineVar => 2
  | .inlineBrTarget | .inlineField | .inlineI | .inlineMethod | .inlineSig | .inlineString
  | .inlineSwitch | .inlineTok | .inlineType | .shortInlineR => 4
  | .inlineI8 | .inlineR => 8

/-- The number of bytes of an operand of the given shape. A shape outside the enumeration takes no
bytes; an operand without a list of targets has none. -/
def Operand.width {ρ : Type} (shape : Coded OperandShape) (o : Operand ρ) : UInt32 :=
  match shape with
  | .member .inlineSwitch =>
    OperandShape.inlineSwitch.width + 4 * UInt32.ofNat (o.targets?.getD []).length
  | .member t => t.width
  | .outside _ _ => 0

/-- The number of bytes of the encoded instruction. -/
def Instruction.size {ρ : Type} (i : Instruction ρ) : UInt32 :=
  i.opcode.size + i.operand.width i.opcode.shape

end CilIsa
