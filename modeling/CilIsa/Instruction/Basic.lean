import CilIsa.Opcode.Basic
import CilIsa.Operand.Basic

/-!
# Instructions

An instruction is an opcode with an operand, placed at an offset in the code. Nothing here demands
that the two fit together.
-/

namespace CilIsa

/-- An opcode with its operand. A new instruction stands at offset zero. -/
structure Instruction (ρ : Type) where
  opcode : Opcode
  operand : Operand ρ := .payload .empty
  offset : UInt32 := 0
  deriving DecidableEq

namespace Instruction

variable {ρ : Type}

/-- The instruction at another offset. -/
def moveTo (i : Instruction ρ) (offset : UInt32) : Instruction ρ := { i with offset }

/-! ### Classification -/

/-- The instruction goes to a target always. -/
def jumpsAlways (i : Instruction ρ) : Bool := i.opcode.flow == .member .branch

/-- The instruction goes to a target or on to the next instruction. -/
def jumpsConditionally (i : Instruction ρ) : Bool := i.opcode.flow == .member .condBranch

/-- The instruction can go to a target. -/
def canJump (i : Instruction ρ) : Bool := i.jumpsAlways || i.jumpsConditionally

/-- The instruction leaves a protected region. -/
def leaves (i : Instruction ρ) : Bool :=
  i.opcode.code == Code.leave || i.opcode.code == Code.leaveShort

theorem jumpsAlways_iff {i : Instruction ρ} :
    i.jumpsAlways = true ↔ i.opcode.flow = .member .branch :=
  beq_iff_eq

theorem jumpsConditionally_iff {i : Instruction ρ} :
    i.jumpsConditionally = true ↔ i.opcode.flow = .member .condBranch :=
  beq_iff_eq

theorem canJump_iff {i : Instruction ρ} :
    i.canJump = true ↔ i.opcode.flow = .member .branch ∨ i.opcode.flow = .member .condBranch := by
  rw [canJump, Bool.or_eq_true, jumpsAlways_iff, jumpsConditionally_iff]

theorem leaves_iff {i : Instruction ρ} :
    i.leaves = true ↔ i.opcode.code = Code.leave ∨ i.opcode.code = Code.leaveShort := by
  rw [leaves, Bool.or_eq_true, beq_iff_eq, beq_iff_eq]

/-- The integer constant the instruction loads. It is fixed by the code for the constants -1 to 8;
two further codes take it from an operand of their own kind. -/
def constant? (i : Instruction ρ) : Option Int32 :=
  if Code.ldcMinusOne ≤ i.opcode.code ∧ i.opcode.code ≤ Code.ldcEight then
    some (Int32.ofInt (i.opcode.code.toNat - Code.ldcMinusOne.toNat - 1))
  else if i.opcode.code = Code.ldcShort then
    match i.operand with
    | .payload (.int8 value) => some value.toInt32
    | _ => none
  else if i.opcode.code = Code.ldcInt then
    match i.operand with
    | .payload (.int32 value) => some value
    | _ => none
  else none

end Instruction

end CilIsa
